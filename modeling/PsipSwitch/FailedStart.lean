import PsipSwitch.Lifecycle

/-! Starts that fail. The first handle is replaced before the second name is looked at,
so a start that fails on the second name leaves a handle for the first one, and
`interfaces` then enters that interface into the table as one that is stopping. -/
namespace PsipSwitch
namespace FailedStart
open NetworkSwitch SharedStorage Lifecycle
open Fallible (exec)

def started (host : Host) (name1 name2 : Text) (s : NetworkSwitch) : NetworkSwitch :=
  (exec (startNetwork host name1 name2) s).2

def Fails (host : Host) (name1 name2 : Text) (s : NetworkSwitch) : Prop :=
  ∃ failure, (exec (startNetwork host name1 name2) s).1 = .error failure

structure Unnoticed (host : Host) (name1 name2 : Text) (s : NetworkSwitch) : Prop where
  same : started host name1 name2 s = s
  idle : (started host name1 name2 s).interfaces.state = .idle
  startable : ∀ other1 other2 net1 net2, host.byName other1 = some net1 → host.byName other2 = some net2 →
    (started host other1 other2 (started host name1 name2 s).interfaces).state = .runningNetwork

/- The failure comes before the first handle is replaced, or the new handle is like the
old one. -/
def Unharmed (host : Host) (name1 : Text) (s : NetworkSwitch) : Prop :=
  ∀ net, host.byName name1 = some net → s.interface1 = some ⟨net, false⟩

theorem startNetworkFirst {host : Host} {s : NetworkSwitch} {name1 : Text} (name2 : Text) (idle : s.state = .idle)
    (unnamed : host.byName name1 = none) :
    exec (startNetwork host name1 name2) s = (.error (.invalidInterface name1), s) := by
  simp only [startNetwork, Fallible.execBind, Fallible.execGet, idle, ne_eq, not_true_eq_false, if_false,
    networkInterface, unnamed, Fallible.execOfExcept]

theorem startNetworkSecond {host : Host} {s : NetworkSwitch} {name1 name2 : Text} {net1 : Interface}
    (idle : s.state = .idle) (named : host.byName name1 = some net1) (unnamed : host.byName name2 = none) :
    exec (startNetwork host name1 name2) s = (.error (.invalidInterface name2), replaceFirst net1 s) := by
  simp only [startNetwork, Fallible.execBind, Fallible.execGet, idle, ne_eq, not_true_eq_false, if_false,
    networkInterface, named, unnamed, Fallible.execOfExcept, Fallible.execModify]

theorem startNetworkBoth {host : Host} {s : NetworkSwitch} {name1 name2 : Text} {net1 net2 : Interface}
    (idle : s.state = .idle) (named1 : host.byName name1 = some net1) (named2 : host.byName name2 = some net2) :
    (exec (startNetwork host name1 name2) s).1 = .ok () := by
  simp only [startNetwork, Fallible.execBind, Fallible.execGet, idle, ne_eq, not_true_eq_false, if_false,
    networkInterface, named1, named2, Fallible.execOfExcept, Fallible.execModify]

theorem failsIdle {host : Host} {name1 name2 : Text} {s : NetworkSwitch} (fails : Fails host name1 name2 s) :
    s.state = .idle ∧ (host.byName name1 = none ∨ host.byName name2 = none) := by
  obtain ⟨failure, failed⟩ := fails
  by_cases idle : s.state = .idle
  · refine ⟨idle, ?_⟩
    by_contra named
    obtain ⟨named1, named2⟩ := not_or.mp named
    obtain ⟨net1, named1⟩ := Option.ne_none_iff_exists'.mp named1
    obtain ⟨net2, named2⟩ := Option.ne_none_iff_exists'.mp named2
    rw [startNetworkBoth idle named1 named2] at failed
    contradiction
  · rw [startNetworkBusy idle] at failed
    contradiction

theorem replaceFirstSame {net : Interface} {s : NetworkSwitch} :
    replaceFirst net s = s ↔ s.interface1 = some ⟨net, false⟩ := by
  constructor
  · intro same
    exact (congrArg NetworkSwitch.interface1 same).symm
  · intro old
    rcases s with ⟨storage, interface1, interface2, restThread⟩
    subst old
    rfl

theorem failedSame {host : Host} {name1 name2 : Text} {s : NetworkSwitch} (fails : Fails host name1 name2 s) :
    started host name1 name2 s = s ↔ Unharmed host name1 s := by
  obtain ⟨idle, unnamed⟩ := failsIdle fails
  cases named : host.byName name1 with
  | none =>
    have kept : started host name1 name2 s = s := congrArg Prod.snd (startNetworkFirst name2 idle named)
    refine iff_of_true kept ?_
    intro net other
    rw [named] at other
    contradiction
  | some net1 =>
    have unnamed2 : host.byName name2 = none := unnamed.resolve_left (by simp [named])
    have replaced : started host name1 name2 s = replaceFirst net1 s :=
      congrArg Prod.snd (startNetworkSecond idle named unnamed2)
    rw [replaced, replaceFirstSame]
    constructor
    · intro old net other
      cases Option.some.inj (named.symm.trans other)
      exact old
    · intro unharmed
      exact unharmed net1 named

def Handled (s : NetworkSwitch) : Prop := ∀ p h, s.handleAt p = some h → s.storage.Registered h.interface

theorem handledKept {s t : NetworkSwitch}
    (handles : ∀ p h, t.handleAt p = some h → ∃ old, s.handleAt p = some old ∧ old.interface = h.interface)
    (kept : ∀ net, s.storage.Registered net → t.storage.Registered net) (before : Handled s) : Handled t := by
  intro p h found
  obtain ⟨old, there, same⟩ := handles p h found
  rw [← same]
  exact kept _ (before p old there)

theorem handledStorage {s : NetworkSwitch} {t : SharedStorage}
    (kept : ∀ net, s.storage.Registered net → t.Registered net) (before : Handled s) :
    Handled { s with storage := t } := by
  refine handledKept ?_ kept before
  intro p h found
  refine ⟨h, ?_, rfl⟩
  cases p <;> exact found

theorem handledControl {s : NetworkSwitch} {t : SharedStorage} (same : SameControl s.storage t) (before : Handled s) :
    Handled { s with storage := t } := by
  refine handledStorage ?_ before
  intro net registered
  rw [Registered, same.keys]
  exact registered

theorem interfacesHandled {s : NetworkSwitch} (handled : Handled s) : s.interfaces = s := by
  unfold NetworkSwitch.interfaces
  split
  · rename_i h1 h2 first second
    rw [touchRegistered (handled .first h1 first), touchRegistered (handled .second h2 second)]
  · rfl

theorem startNetworkHandled {host : Host} {s : NetworkSwitch} {name1 name2 : Text} (before : Handled s)
    (careful : Fails host name1 name2 s → Unharmed host name1 s) : Handled (started host name1 name2 s) := by
  by_cases fails : Fails host name1 name2 s
  · rw [(failedSame fails).mpr (careful fails)]
    exact before
  · by_cases idle : s.state = .idle
    · cases named1 : host.byName name1 with
      | none => exact absurd ⟨_, congrArg Prod.fst (startNetworkFirst name2 idle named1)⟩ fails
      | some net1 =>
        cases named2 : host.byName name2 with
        | none => exact absurd ⟨_, congrArg Prod.fst (startNetworkSecond idle named1 named2)⟩ fails
        | some net2 =>
          rw [started, startNetworkIdle idle named1 named2]
          intro p h found
          refine (freshTable h.interface).mpr ?_
          cases p with
          | first =>
            cases Option.some.inj found
            exact .inl rfl
          | second =>
            cases Option.some.inj found
            exact .inr rfl
    · rw [started, startNetworkBusy idle]
      exact before

def careful (host : Host) : Machine System Event := (switching host).restrict (fun s e =>
  ∀ name1 name2, e = .startNetwork name1 name2 → Fails host name1 name2 s.switch → Unharmed host name1 s.switch)

theorem stopHandleKept (handle : Option NetworkThreadHandle) {s : SharedStorage} {net : Interface}
    (registered : s.Registered net) : (stopHandle handle s).Registered net := by
  unfold stopHandle
  split
  · exact setInterfaceRegistered _ registered
  · exact registered

theorem exitHandled {s : NetworkSwitch} (p : Port) (before : Handled s) :
    Handled ((s.onInterface p NetworkHandle.finish).bury p) := by
  have kept : ∀ net, s.storage.Registered net → (s.onInterface p NetworkHandle.finish).storage.Registered net := by
    intro net registered
    unfold onInterface
    split
    · exact setInterfaceRegistered _ registered
    · exact registered
  have same : ∀ q, (s.onInterface p NetworkHandle.finish).handleAt q = s.handleAt q := by
    intro q
    unfold onInterface
    split <;> cases q <;> rfl
  refine handledKept (s := s) ?_ ?_ before
  · intro q h found
    cases p <;> cases q <;> simp only [bury, handleAt, Option.map_eq_some_iff] at found
    · obtain ⟨old, there, rfl⟩ := found
      exact ⟨old, (same .first).symm.trans there, rfl⟩
    · exact ⟨h, (same .second).symm.trans found, rfl⟩
    · exact ⟨h, (same .first).symm.trans found, rfl⟩
    · obtain ⟨old, there, rfl⟩ := found
      exact ⟨old, (same .second).symm.trans there, rfl⟩
  · intro net registered
    cases p <;> exact kept net registered

theorem stepHandled {host : Host} {s : System} {e : Event} (ready : (careful host).enabled s e)
    (before : Handled s.switch) : Handled ((careful host).step s e).switch := by
  cases e with
  | startNetwork name1 name2 => exact startNetworkHandled before (ready.2 name1 name2 rfl)
  | startRest port =>
    change Handled (s.switch.startRest port)
    unfold NetworkSwitch.startRest
    split
    · exact before
    · refine handledKept (s := s.switch) ?_ ?_ before
      · intro p h found
        refine ⟨h, ?_, rfl⟩
        cases p <;> exact found
      · intro net registered
        simp only [Registered, RestHandle.start, joinRestInterfaces]
        exact registered
  | stopNetwork => exact handledStorage (fun _ registered => stopHandleKept _ (stopHandleKept _ registered)) before
  | stopRest =>
    change Handled s.switch.stopRest
    unfold NetworkSwitch.stopRest
    split
    · exact handledStorage (fun _ registered => registered) before
    · exact before
  | interfaces =>
    change Handled s.switch.interfaces
    rw [interfacesHandled before]
    exact before
  | maintain m => exact handledControl (maintainControl m s.switch.storage) before
  | receive p now packet =>
    obtain ⟨h, found, _⟩ := ready.1.2
    change Handled (s.switch.onInterface p (fun me => perform host (.receive me now packet)))
    rw [onInterfaceAt _ found]
    exact handledControl (receiveControl host now packet (before p h found)) before
  | request now draws request => exact handledControl (requestControl host now draws request s.switch.storage) before
  | exitNetwork p => exact exitHandled p before
  | exitRest =>
    refine handledKept (s := s.switch) ?_ (fun _ registered => registered) before
    intro p h found
    refine ⟨h, ?_, rfl⟩
    cases p <;> exact found

theorem reachableHandled {host : Host} {s : System} (reached : (careful host).Reachable Initial s) :
    Handled s.switch := by
  refine Machine.reachableInvariant (P := fun s => Handled s.switch) ?_ ?_ reached
  · intro s e ready before
    exact stepHandled ready before
  · intro s start p h found
    rw [start] at found
    cases p <;> contradiction

theorem scanRunning {es : List (Interface × InterfaceEntry)} (some_ : es ≠ [])
    (running : ∀ it ∈ es, it.2.control = ⟨true, false⟩) : scan es = some .runningNetwork := by
  cases es with
  | nil => contradiction
  | cons it rest => simp [scan, running it List.mem_cons_self]

theorem freshControl {s : SharedStorage} {net1 net2 net : Interface}
    (registered : (NetworkHandle.start net2 (NetworkHandle.start net1 s.reset)).Registered net) :
    ((NetworkHandle.start net2 (NetworkHandle.start net1 s.reset)).interface net).control = ⟨true, false⟩ := by
  by_cases second : net = net2
  · rw [second, NetworkHandle.start, setInterfaceSame]
  · have first : net = net1 := ((freshTable net).mp registered).resolve_right second
    have found : (NetworkHandle.start net2 (NetworkHandle.start net1 s.reset)).interfaces.find? net =
        (NetworkHandle.start net1 s.reset).interfaces.find? net := setInterfaceFindOther _ _ second
    simp only [SharedStorage.interface, found]
    rw [first, NetworkHandle.start, setInterfaceFind]
    rfl

theorem startedRunning {host : Host} {s : NetworkSwitch} {name1 name2 : Text} {net1 net2 : Interface}
    (idle : s.state = .idle) (named1 : host.byName name1 = some net1) (named2 : host.byName name2 = some net2) :
    (started host name1 name2 s).state = .runningNetwork := by
  have quiet : s.storage.restThread.running = false := by
    by_contra running
    have on : s.storage.restThread.running = true := by simpa using running
    simp [NetworkSwitch.state, on] at idle
  rw [started, startNetworkIdle idle named1 named2]
  have rest : (joinNetwork s.interface2 (joinNetwork s.interface1 s.storage).2).2.restThread = s.storage.restThread := by
    rw [joinedRest, joinedRest]
  let t := NetworkHandle.start net2 (NetworkHandle.start net1
    (joinNetwork s.interface2 (joinNetwork s.interface1 s.storage).2).2.reset)
  have some_ : t.interfaces.entries ≠ [] := by
    intro none
    have there : t.Registered net1 := (freshTable net1).mpr (.inl rfl)
    simp [Registered, OrderedTable.keys, none] at there
  have scanned : scan t.interfaces.entries = some .runningNetwork := by
    refine scanRunning some_ ?_
    exact (entriesIff (P := fun entry => entry.control = ⟨true, false⟩)).mpr (fun _ registered => freshControl registered)
  have off : t.restThread.running = false := by
    change (joinNetwork s.interface2 (joinNetwork s.interface1 s.storage).2).2.restThread.running = false
    rw [rest, quiet]
  change NetworkSwitch.state ⟨t, _, _, _, _⟩ = .runningNetwork
  simp only [NetworkSwitch.state, off, scanned, Bool.false_eq_true, if_false]

theorem failedStartUnnoticed {host : Host} {s : System} {name1 name2 : Text}
    (fails : Fails host name1 name2 s.switch) :
    (started host name1 name2 s.switch = s.switch ↔ Unharmed host name1 s.switch) ∧
    ((careful host).Reachable Initial s →
      (Unnoticed host name1 name2 s.switch ↔ Unharmed host name1 s.switch)) := by
  refine ⟨failedSame fails, ?_⟩
  intro reached
  have idle := (failsIdle fails).1
  have look := interfacesHandled (reachableHandled reached)
  constructor
  · intro unnoticed
    exact (failedSame fails).mp unnoticed.same
  · intro unharmed
    have same := (failedSame fails).mpr unharmed
    refine ⟨same, ?_, ?_⟩
    · rw [same, look]
      exact idle
    · intro other1 other2 net1 net2 named1 named2
      rw [same, look]
      exact startedRunning idle named1 named2

def three : Host := { bench with byName := fun name => if name = text "eth3" then some ⟨3⟩ else bench.byName name }

def benchEnded : System :=
  [.startNetwork (text "eth1") (text "eth2"), .stopNetwork, .exitNetwork .first, .exitNetwork .second].foldl
    (switching three).step ⟨initial, 0⟩

theorem benchEndedRun : (careful three).Run ⟨initial, 0⟩
    [.startNetwork (text "eth1") (text "eth2"), .stopNetwork, .exitNetwork .first, .exitNetwork .second] benchEnded := by
  have other : ∀ {s : System} {e : Event}, (∀ name1 name2, e ≠ .startNetwork name1 name2) → ∀ name1 name2,
      e = .startNetwork name1 name2 → Fails three name1 name2 s.switch → Unharmed three name1 s.switch :=
    fun differ name1 name2 same => absurd same (differ name1 name2)
  refine .cons ⟨⟨le_refl _, trivial⟩, ?_⟩ (.cons ⟨⟨le_refl _, by decide, by decide⟩, other (by simp)⟩
    (.cons ⟨⟨le_refl _, ⟨⟨1⟩, true⟩, by decide, rfl⟩, other (by simp)⟩
      (.cons ⟨⟨le_refl _, ⟨⟨2⟩, true⟩, by decide, rfl⟩, other (by simp)⟩ (.nil _))))
  intro name1 name2 same fails
  cases same
  obtain ⟨_, unnamed | unnamed⟩ := failsIdle fails
  · exact absurd unnamed (by decide)
  · exact absurd unnamed (by decide)

theorem benchEndedFails (name1 : Text) (net : Interface) (named : three.byName name1 = some net) :
    Fails three name1 (text "bad") benchEnded.switch :=
  ⟨_, congrArg Prod.fst (startNetworkSecond (by decide) named (by decide))⟩

theorem failedStartUnnoticedBench : Unnoticed three (text "eth1") (text "bad") benchEnded.switch := by
  have fails := benchEndedFails (text "eth1") ⟨1⟩ (by decide)
  refine ((failedStartUnnoticed fails).2 ⟨⟨initial, 0⟩, _, rfl, benchEndedRun⟩).mpr ?_
  intro net named
  cases Option.some.inj named
  decide

theorem failedStartStops : ¬ ∀ (host : Host) (s : System) (name1 name2 : Text),
    (switching host).Reachable Initial s → Fails host name1 name2 s.switch → Unnoticed host name1 name2 s.switch := by
  intro claim
  have fails := benchEndedFails (text "eth3") ⟨3⟩ (by decide)
  have reached : (switching three).Reachable Initial benchEnded :=
    ⟨⟨initial, 0⟩, _, rfl, Machine.runUnrestrict benchEndedRun⟩
  have unnoticed := claim three benchEnded (text "eth3") (text "bad") reached fails
  have stuck : (started three (text "eth3") (text "bad") benchEnded.switch).interfaces.state = .stopping := by decide
  have idle := unnoticed.idle
  rw [stuck] at idle
  contradiction

end FailedStart
end PsipSwitch
