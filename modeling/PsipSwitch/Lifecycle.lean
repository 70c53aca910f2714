import PsipSwitch.NetworkSwitch
import PsipSwitch.RestSteps

/-! Threads and flags. A started thread is live until its final section; the flags in
the storage tell exactly which threads are live, through starts, restarts, partial
stops and threads that end on their own. What `state` answers follows from them. -/
namespace PsipSwitch
namespace Lifecycle
open NetworkSwitch SharedStorage

structure SameControl (s t : SharedStorage) : Prop where
  rest : t.restThread = s.restThread
  keys : t.interfaces.keys = s.interfaces.keys
  control : ∀ net, (t.interface net).control = (s.interface net).control

theorem SameControl.ofInterfaces {s t : SharedStorage} (rest : t.restThread = s.restThread)
    (same : t.interfaces = s.interfaces) : SameControl s t :=
  ⟨rest, by rw [same], fun net => by simp only [SharedStorage.interface, same]⟩

theorem maintainControl (m : Maintenance) (s : SharedStorage) : SameControl s (maintain m s) := by
  cases m <;> exact .ofInterfaces rfl rfl

theorem receiveControl (host : Host) (now : Int) (packet : Frame) {me : Interface} {s : SharedStorage}
    (registered : s.Registered me) : SameControl s (NetworkHandle.receive host me now packet s).storage := by
  obtain ⟨_, _, _, same⟩ := NetworkHandle.receiveFrame host now packet registered
  rw [same]
  exact .ofInterfaces rfl rfl

theorem editControl {net : Interface} {config : RestHandle.InterfaceConfig} {s : SharedStorage}
    (registered : s.Registered net) : SameControl s (s.setInterface net (RestHandle.editEntry config)) where
  rest := rfl
  keys := setInterfaceKeys _ registered
  control other := by
    by_cases here : other = net
    · rw [here, setInterfaceSame]
      rfl
    · simp only [SharedStorage.interface, setInterfaceFindOther s _ here]

theorem requestControl (host : Host) (now : Int) (draws : Draws) (request : RestHandle.Request)
    (s : SharedStorage) : SameControl s (RestHandle.respond host now draws request s).2 := by
  refine RestHandle.respondKeeps host now draws request ?_ ?_ ?_
  · exact fun _ => .ofInterfaces rfl rfl
  · exact fun _ _ registered => editControl registered
  · exact fun _ => .ofInterfaces rfl rfl

def Tells (s : SharedStorage) (h : NetworkThreadHandle) : Prop :=
  (s.interface h.interface).control.finished = !h.alive

def Unstarted (s : NetworkSwitch) : Prop :=
  s.interface1 = none ∧ s.interface2 = none ∧ s.storage.interfaces.keys = []

structure Started (s : NetworkSwitch) (h1 h2 : NetworkThreadHandle) : Prop where
  first : s.interface1 = some h1
  second : s.interface2 = some h2
  different : h1.interface ≠ h2.interface
  table : ∀ net, s.storage.Registered net ↔ net = h1.interface ∨ net = h2.interface
  tells1 : Tells s.storage h1
  tells2 : Tells s.storage h2

def RestTells (s : NetworkSwitch) : Prop := match s.restThread with
  | none => s.storage.restThread.running = false
  | some h => s.storage.restThread.finished = !h.alive

structure Alive (s : NetworkSwitch) : Prop where
  network : Unstarted s ∨ ∃ h1 h2, Started s h1 h2
  rest : RestTells s
  waited : s.orphans = 0

theorem initialAlive : Alive initial := ⟨.inl ⟨rfl, rfl, rfl⟩, rfl, rfl⟩

theorem joinNetworkEnds (handle : Option NetworkThreadHandle) (s : SharedStorage) :
    (joinNetwork handle s).1.any (·.alive) = false := by
  unfold joinNetwork
  split
  · split
    · rfl
    · rename_i ended
      simpa using ended
  · rfl

theorem joinRestEnds (handle : Option RestThreadHandle) (s : SharedStorage) :
    (joinRest handle s).1.any (·.alive) = false := by
  unfold joinRest
  split
  · split
    · rfl
    · rename_i ended
      simpa using ended
  · rfl

/- No replaced handle leaves a thread behind. -/
theorem replaceFirstWaits (net : Interface) (s : NetworkSwitch) : replaceFirst net s =
    { s with interface1 := some ⟨net, false⟩, storage := (joinNetwork s.interface1 s.storage).2 } := by
  simp only [replaceFirst, joinNetworkEnds, Bool.toNat_false, Nat.add_zero]

theorem replaceSecondWaits (net : Interface) (s : NetworkSwitch) : replaceSecond net s =
    { s with interface2 := some ⟨net, false⟩, storage := (joinNetwork s.interface2 s.storage).2 } := by
  simp only [replaceSecond, joinNetworkEnds, Bool.toNat_false, Nat.add_zero]

theorem startRestWaits {s : NetworkSwitch} (running : s.state = .runningNetwork) (port : Int) : s.startRest port =
    { s with restThread := some ⟨port, true⟩, storage := RestHandle.start (joinRest s.restThread s.storage).2 } := by
  simp only [startRest, if_neg (not_not.mpr running), joinRestEnds, Bool.toNat_false, Nat.add_zero]

theorem unstartedHandle {s : NetworkSwitch} (unstarted : Unstarted s) (p : Port) : s.handleAt p = none := by
  cases p with
  | first => exact unstarted.1
  | second => exact unstarted.2.1

theorem tellsSame {s t : SharedStorage} (same : SameControl s t) {h : NetworkThreadHandle}
    (tells : Tells s h) : Tells t h := by
  simpa only [Tells, same.control] using tells

theorem aliveSame {s : NetworkSwitch} {t : SharedStorage} (same : SameControl s.storage t) (alive : Alive s) :
    Alive { s with storage := t } := by
  refine ⟨?_, ?_, alive.waited⟩
  · rcases alive.network with ⟨one, two, keys⟩ | ⟨h1, h2, started⟩
    · exact .inl ⟨one, two, same.keys.trans keys⟩
    · refine .inr ⟨h1, h2, started.first, started.second, started.different, ?_,
        tellsSame same started.tells1, tellsSame same started.tells2⟩
      intro net
      rw [← started.table net]
      simp only [Registered, same.keys]
  · have rest := alive.rest
    simp only [RestTells] at rest ⊢
    rw [same.rest]
    exact rest

theorem scanNone {es : List (Interface × InterfaceEntry)} :
    scan es = none ↔ ∀ it ∈ es, it.2.control.finished = true := by
  induction es with
  | nil => simp [scan]
  | cons it rest ih =>
    simp only [scan, List.forall_mem_cons]
    rcases it with ⟨net, ⟨⟨running, finished⟩, up, name⟩⟩
    cases running <;> cases finished <;> simp [ih]

theorem scanQuiet {es : List (Interface × InterfaceEntry)} {found : SwitchState}
    (quiet : ∀ it ∈ es, it.2.control.running = false) (answer : scan es = some found) :
    found = .stopping := by
  induction es with
  | nil => simp [scan] at answer
  | cons it rest ih =>
    obtain ⟨here, tail⟩ := List.forall_mem_cons.mp quiet
    simp only [scan, here, true_and, Bool.false_eq_true, false_and, if_false] at answer
    split at answer
    · exact (Option.some.inj answer).symm
    · exact ih tail answer

theorem entryInterface {s : SharedStorage} {it : Interface × InterfaceEntry}
    (member : it ∈ s.interfaces.entries) : s.Registered it.1 ∧ s.interface it.1 = it.2 :=
  ⟨List.mem_map.mpr ⟨it, member, rfl⟩, by
    simp only [SharedStorage.interface, OrderedTable.findOfEntry member rfl, Option.getD_some]⟩

theorem entriesIff {s : SharedStorage} {P : InterfaceEntry → Prop} :
    (∀ it ∈ s.interfaces.entries, P it.2) ↔ ∀ net, s.Registered net → P (s.interface net) := by
  constructor
  · intro all net registered
    obtain ⟨it, member, same⟩ := List.mem_map.mp registered
    have value := (entryInterface member).2
    rw [same] at value
    rw [value]
    exact all it member
  · intro all it member
    have entry := entryInterface member
    rw [← entry.2]
    exact all it.1 entry.1

/- A thread has been started and has not ended, with a handle or without. -/
def SomeLive (s : NetworkSwitch) : Prop := (∃ p, s.NetworkLive p) ∨ s.RestLive ∨ 0 < s.orphans

theorem someLiveIff {s : NetworkSwitch} (waited : s.orphans = 0) :
    SomeLive s ↔ (∃ p, s.NetworkLive p) ∨ s.RestLive := by
  simp [SomeLive, waited]

theorem startedLive {s : NetworkSwitch} {h1 h2 : NetworkThreadHandle} (started : Started s h1 h2) :
    (∃ p, s.NetworkLive p) ↔ h1.alive = true ∨ h2.alive = true := by
  constructor
  · rintro ⟨p, h, found, alive⟩
    cases p with
    | first =>
      cases Option.some.inj (started.first.symm.trans found)
      exact .inl alive
    | second =>
      cases Option.some.inj (started.second.symm.trans found)
      exact .inr alive
  · rintro (alive | alive)
    · exact ⟨.first, h1, started.first, alive⟩
    · exact ⟨.second, h2, started.second, alive⟩

theorem scanLive {s : NetworkSwitch} (alive : Alive s) :
    scan s.storage.interfaces.entries = none ↔ ¬ ∃ p, s.NetworkLive p := by
  rw [scanNone, entriesIff (P := fun entry => entry.control.finished = true)]
  rcases alive.network with ⟨one, two, keys⟩ | ⟨h1, h2, started⟩
  · constructor
    · rintro _ ⟨p, h, found, _⟩
      exact nomatch (unstartedHandle ⟨one, two, keys⟩ p).symm.trans found
    · intro _ net registered
      simp [Registered, keys] at registered
  · have flag1 := started.tells1
    have flag2 := started.tells2
    simp only [Tells] at flag1 flag2
    rw [startedLive started]
    constructor
    · intro all
      have end1 := all h1.interface ((started.table _).mpr (.inl rfl))
      have end2 := all h2.interface ((started.table _).mpr (.inr rfl))
      rw [flag1] at end1
      rw [flag2] at end2
      simp_all
    · intro none net registered
      rcases (started.table net).mp registered with rfl | rfl
      · rw [flag1]
        simp_all
      · rw [flag2]
        simp_all

theorem restLive {s : NetworkSwitch} (alive : Alive s) :
    (s.restThread.isSome ∧ s.storage.restThread.finished = false) ↔ s.RestLive := by
  have rest := alive.rest
  simp only [RestTells] at rest
  simp only [RestLive]
  cases h : s.restThread with
  | none => simp
  | some handle =>
    rw [h] at rest
    simp [rest]

theorem idleQuiet {s : NetworkSwitch} (alive : Alive s) (idle : s.state = .idle) : ¬ SomeLive s := by
  simp only [state] at idle
  split at idle
  · contradiction
  · rename_i notRunning
    split at idle
    · rename_i found answer
      subst idle
      exfalso
      have never : ∀ es : List (Interface × InterfaceEntry), scan es ≠ some .idle := by
        intro es
        induction es with
        | nil => simp [scan]
        | cons it rest ih =>
          simp only [scan]
          split
          · simp
          · split
            · simp
            · exact ih
      exact never _ answer
    · rename_i ended
      split at idle
      · contradiction
      · rename_i restEnded
        rw [someLiveIff alive.waited]
        rintro (network | live)
        · exact (scanLive alive).mp ended network
        · obtain ⟨some, unfinished⟩ := (restLive alive).mpr live
          exact restEnded ⟨some, by simpa using notRunning, unfinished⟩

theorem startNetworkBusy {host : Host} {s : NetworkSwitch} (busy : s.state ≠ .idle) (name1 name2 : Text) :
    Fallible.exec (startNetwork host name1 name2) s = (.ok (), s) := by
  simp only [startNetwork, Fallible.execBind, Fallible.execGet, if_pos busy]
  rfl

theorem startNetworkIdle {host : Host} {s : NetworkSwitch} {name1 name2 : Text} {net1 net2 : Interface}
    (idle : s.state = .idle) (named1 : host.byName name1 = some net1) (named2 : host.byName name2 = some net2) :
    (Fallible.exec (startNetwork host name1 name2) s).2 =
      startSecond net2 (startFirst net1 (resetStorage (replaceSecond net2 (replaceFirst net1 s)))) := by
  simp only [startNetwork, Fallible.execBind, Fallible.execGet, idle, ne_eq, not_true_eq_false, if_false,
    networkInterface, named1, named2, Fallible.execOfExcept, Fallible.execModify]

theorem joinedRest (handle : Option NetworkThreadHandle) (s : SharedStorage) :
    (joinNetwork handle s).2.restThread = s.restThread := by
  unfold joinNetwork
  split
  · split <;> rfl
  · rfl

theorem freshTable {s : SharedStorage} {net1 net2 : Interface} (net : Interface) :
    (NetworkHandle.start net2 (NetworkHandle.start net1 s.reset)).Registered net ↔ net = net1 ∨ net = net2 := by
  constructor
  · intro registered
    rcases registeredOfSet registered with same | registered
    · exact .inr same
    · rcases registeredOfSet registered with same | registered
      · exact .inl same
      · simp [Registered, SharedStorage.reset] at registered
  · rintro (rfl | rfl)
    · exact setInterfaceRegistered _ (setInterfaceRegisters _ _ _)
    · exact setInterfaceRegisters _ _ _

theorem startNetworkAlive {host : Host} {s : NetworkSwitch} {name1 name2 : Text}
    (named : wellNamed host (.startNetwork name1 name2)) (alive : Alive s) :
    Alive (Fallible.exec (startNetwork host name1 name2) s).2 := by
  by_cases busy : s.state = .idle
  · obtain ⟨net1, net2, named1, named2, different⟩ := named
    rw [startNetworkIdle busy named1 named2, replaceSecondWaits, replaceFirstWaits]
    refine ⟨.inr ⟨⟨net1, true⟩, ⟨net2, true⟩, rfl, rfl, different, freshTable, ?_, ?_⟩, ?_, alive.waited⟩
    · simp only [Tells, startSecond, NetworkHandle.start, SharedStorage.interface,
        setInterfaceFindOther _ _ different, startFirst, setInterfaceFind]
      rfl
    · simp only [Tells, startSecond, NetworkHandle.start, setInterfaceSame]
      rfl
    · have rest := alive.rest
      simp only [RestTells, startSecond, startFirst, resetStorage, NetworkHandle.start, setInterface,
        SharedStorage.reset, joinedRest] at rest ⊢
      exact rest
  · rw [startNetworkBusy busy]
    exact alive

theorem networkFrame {s t : NetworkSwitch} (first : t.interface1 = s.interface1)
    (second : t.interface2 = s.interface2) (table : t.storage.interfaces = s.storage.interfaces)
    (network : Unstarted s ∨ ∃ h1 h2, Started s h1 h2) : Unstarted t ∨ ∃ h1 h2, Started t h1 h2 := by
  have value : ∀ net, t.storage.interface net = s.storage.interface net := by
    intro net
    simp only [SharedStorage.interface, table]
  rcases network with ⟨one, two, keys⟩ | ⟨h1, h2, started⟩
  · exact .inl ⟨first.trans one, second.trans two, by rw [table, keys]⟩
  · refine .inr ⟨h1, h2, first.trans started.first, second.trans started.second, started.different, ?_, ?_, ?_⟩
    · intro net
      rw [← started.table net]
      simp only [Registered, table]
    · simpa only [Tells, value] using started.tells1
    · simpa only [Tells, value] using started.tells2

theorem joinRestInterfaces (handle : Option RestThreadHandle) (s : SharedStorage) :
    (joinRest handle s).2.interfaces = s.interfaces := by
  unfold joinRest
  split
  · split <;> rfl
  · rfl

theorem startRestAlive {s : NetworkSwitch} (port : Int) (alive : Alive s) : Alive (s.startRest port) := by
  by_cases running : s.state = .runningNetwork
  · rw [startRestWaits running]
    exact ⟨networkFrame (s := s) rfl rfl (joinRestInterfaces _ _) alive.network, rfl, alive.waited⟩
  · rw [NetworkSwitch.startRest, if_pos running]
    exact alive

theorem setControlStarted {s : NetworkSwitch} {h1 h2 : NetworkThreadHandle} (net : Interface)
    {f : InterfaceEntry → InterfaceEntry} (started : Started s h1 h2) (registered : s.storage.Registered net)
    (kept : ∀ entry, (f entry).control.finished = entry.control.finished) :
    Started { s with storage := s.storage.setInterface net f } h1 h2 := by
  have tells : ∀ h, Tells s.storage h → Tells (s.storage.setInterface net f) h := by
    intro h flag
    by_cases here : h.interface = net
    · rw [Tells, here, setInterfaceSame, kept, ← here]
      exact flag
    · simpa only [Tells, SharedStorage.interface, setInterfaceFindOther _ _ here] using flag
  refine ⟨started.first, started.second, started.different, ?_, tells _ started.tells1, tells _ started.tells2⟩
  intro other
  rw [← started.table other]
  simp only [Registered, setInterfaceKeys f registered]

theorem stopNetworkAlive {s : NetworkSwitch} (alive : Alive s) : Alive s.stopNetwork := by
  rcases alive.network with ⟨one, two, keys⟩ | ⟨h1, h2, started⟩
  · have kept : stopHandle s.interface2 (stopHandle s.interface1 s.storage) = s.storage := by
      rw [one, two]
      rfl
    simp only [stopNetwork, kept]
    exact alive
  · have stop1 := setControlStarted h1.interface
      (f := fun entry => { entry with control := { entry.control with running := false } }) started
      ((started.table _).mpr (.inl rfl)) (fun _ => rfl)
    have stop2 := setControlStarted h2.interface
      (f := fun entry => { entry with control := { entry.control with running := false } }) stop1
      ((stop1.table _).mpr (.inr rfl)) (fun _ => rfl)
    have same : s.stopNetwork = { s with
        storage := NetworkHandle.signalStop h2.interface (NetworkHandle.signalStop h1.interface s.storage) } := by
      simp only [stopNetwork, started.first, started.second, stopHandle]
    rw [same]
    exact ⟨.inr ⟨h1, h2, stop2⟩, alive.rest, alive.waited⟩

theorem stopRestAlive {s : NetworkSwitch} (alive : Alive s) : Alive s.stopRest := by
  unfold stopRest
  split
  · rename_i handle found
    refine ⟨networkFrame (s := s) rfl rfl rfl alive.network, ?_, alive.waited⟩
    have rest := alive.rest
    simp only [RestTells, found] at rest
    simp only [RestTells, found, RestHandle.signalStop]
    exact rest
  · exact alive

theorem interfacesAlive {s : NetworkSwitch} (alive : Alive s) : s.interfaces = s := by
  rcases alive.network with ⟨one, two, keys⟩ | ⟨h1, h2, started⟩
  · simp only [NetworkSwitch.interfaces, one]
  · have touch1 := touchRegistered ((started.table _).mpr (.inl rfl))
    have touch2 := touchRegistered ((started.table _).mpr (.inr rfl))
    have opened : s.interfaces =
        { s with storage := (s.storage.touch h1.interface).touch h2.interface } := by
      simp only [NetworkSwitch.interfaces, started.first, started.second]
    rw [opened, touch1, touch2]

theorem setFinishedTells {s : SharedStorage} (h : NetworkThreadHandle) :
    Tells (NetworkHandle.finish h.interface s) { h with alive := false } := by
  simp only [Tells, NetworkHandle.finish, setInterfaceSame, Bool.not_false]

theorem setFinishedOther {s : SharedStorage} {net : Interface} {h : NetworkThreadHandle}
    (different : h.interface ≠ net) (tells : Tells s h) : Tells (NetworkHandle.finish net s) h := by
  simpa only [Tells, NetworkHandle.finish, SharedStorage.interface, setInterfaceFindOther _ _ different] using tells

theorem exitNetworkAlive {s : NetworkSwitch} {p : Port} (alive : Alive s) (live : s.NetworkLive p) :
    Alive ((s.onInterface p NetworkHandle.finish).bury p) := by
  rcases alive.network with ⟨one, two, keys⟩ | ⟨h1, h2, started⟩
  · obtain ⟨h, found, _⟩ := live
    exact nomatch (unstartedHandle ⟨one, two, keys⟩ p).symm.trans found
  · have table : ∀ net, s.storage.Registered net → ∀ other,
        (NetworkHandle.finish net s.storage).Registered other ↔ other = h1.interface ∨ other = h2.interface := by
      intro net registered other
      rw [← started.table other]
      simp only [Registered, NetworkHandle.finish, setInterfaceKeys _ registered]
    cases p with
    | first =>
      simp only [onInterface, handleAt, started.first, bury, Option.map_some]
      refine ⟨.inr ⟨{ h1 with alive := false }, h2, rfl, started.second, started.different, ?_, ?_, ?_⟩,
        alive.rest, alive.waited⟩
      · exact table _ ((started.table _).mpr (.inl rfl))
      · exact setFinishedTells h1
      · exact setFinishedOther (Ne.symm started.different) started.tells2
    | second =>
      simp only [onInterface, handleAt, started.second, bury, Option.map_some]
      refine ⟨.inr ⟨h1, { h2 with alive := false }, started.first, rfl, started.different, ?_, ?_, ?_⟩,
        alive.rest, alive.waited⟩
      · exact table _ ((started.table _).mpr (.inr rfl))
      · exact setFinishedOther started.different started.tells1
      · exact setFinishedTells h2

theorem exitRestAlive {s : NetworkSwitch} (alive : Alive s) (live : s.RestLive) :
    Alive { s with
      storage := RestHandle.finish s.storage
      restThread := s.restThread.map (fun h => { h with alive := false }) } := by
  obtain ⟨h, found, _⟩ := live
  refine ⟨networkFrame (s := s) rfl rfl rfl alive.network, ?_, alive.waited⟩
  simp only [RestTells, found, Option.map_some, RestHandle.finish, Bool.not_false]

theorem portStarted {s : NetworkSwitch} (alive : Alive s) {p : Port} {h : NetworkThreadHandle}
    (found : s.handleAt p = some h) : s.storage.Registered h.interface ∧ Tells s.storage h := by
  rcases alive.network with unstarted | ⟨h1, h2, started⟩
  · exact nomatch (unstartedHandle unstarted p).symm.trans found
  · cases p with
    | first =>
      cases Option.some.inj (started.first.symm.trans found)
      exact ⟨(started.table _).mpr (.inl rfl), started.tells1⟩
    | second =>
      cases Option.some.inj (started.second.symm.trans found)
      exact ⟨(started.table _).mpr (.inr rfl), started.tells2⟩

theorem onInterfaceAt {s : NetworkSwitch} {p : Port} {h : NetworkThreadHandle}
    (f : Interface → SharedStorage → SharedStorage) (found : s.handleAt p = some h) :
    s.onInterface p f = { s with storage := f h.interface s.storage } := by
  simp only [onInterface, found]

theorem reactAlive {host : Host} {s : NetworkSwitch} {e : Event} (possible : s.possible e)
    (named : wellNamed host e) (alive : Alive s) : Alive (s.react host e) := by
  cases e with
  | startNetwork name1 name2 => exact startNetworkAlive named alive
  | startRest port => exact startRestAlive port alive
  | stopNetwork => exact stopNetworkAlive alive
  | stopRest => exact stopRestAlive alive
  | interfaces =>
    change Alive s.interfaces
    rw [interfacesAlive alive]
    exact alive
  | maintain m => exact aliveSame (maintainControl m s.storage) alive
  | receive p now packet =>
    obtain ⟨h, found, _⟩ := possible
    change Alive (s.onInterface p (fun me => perform host (.receive me now packet)))
    rw [onInterfaceAt _ found]
    exact aliveSame (receiveControl host now packet (portStarted alive found).1) alive
  | request now draws request => exact aliveSame (requestControl host now draws request s.storage) alive
  | exitNetwork p => exact exitNetworkAlive alive possible
  | exitRest => exact exitRestAlive alive possible

theorem reachableAlive {host : Host} {s : System} (reached : (operated host).Reachable Initial s) :
    Alive s.switch := by
  refine Machine.reachableInvariant (P := fun s => Alive s.switch) ?_ ?_ reached
  · intro s e ready alive
    exact reactAlive ready.1.2 ready.2 alive
  · intro s start
    rw [start]
    exact initialAlive

/- An idle switch has no live thread, so a start never disturbs one. -/
theorem idleSound {host : Host} {s : System} (reached : (operated host).Reachable Initial s) :
    (s.switch.state = .idle → ¬ SomeLive s.switch) ∧
    (SomeLive s.switch → ∀ name1 name2, s.switch.react host (.startNetwork name1 name2) = s.switch) ∧
    (∀ p h, s.switch.handleAt p = some h → h.alive = true →
      ∃ entry, s.switch.storage.interfaces.find? h.interface = some entry ∧ entry.control.finished = false) ∧
    (∀ h1 h2, s.switch.interface1 = some h1 → s.switch.interface2 = some h2 → h1.interface ≠ h2.interface) := by
  have alive := reachableAlive reached
  refine ⟨idleQuiet alive, ?_, ?_, ?_⟩
  · intro live name1 name2
    have busy : s.switch.state ≠ .idle := fun idle => idleQuiet alive idle live
    simp only [react, startNetworkBusy busy]
  · intro p h found living
    obtain ⟨registered, tells⟩ := portStarted alive found
    refine ⟨s.switch.storage.interface h.interface, registeredFind registered, ?_⟩
    simpa only [Tells, living, Bool.not_true] using tells
  · intro h1 h2 first second
    rcases alive.network with ⟨one, two, keys⟩ | ⟨k1, k2, started⟩
    · exact nomatch one.symm.trans first
    · cases Option.some.inj (started.first.symm.trans first)
      cases Option.some.inj (started.second.symm.trans second)
      exact started.different

def benchStart : System := (switching bench).step ⟨initial, 0⟩ (.startNetwork (text "eth1") (text "eth2"))

theorem benchNamed : wellNamed bench (.startNetwork (text "eth1") (text "eth2")) :=
  ⟨⟨1⟩, ⟨2⟩, by decide, by decide, by decide⟩

theorem benchReached : (operated bench).Reachable Initial benchStart :=
  ⟨⟨initial, 0⟩, [.startNetwork (text "eth1") (text "eth2")], rfl,
    .cons ⟨⟨le_refl _, trivial⟩, benchNamed⟩ (.nil _)⟩

theorem idleSoundBench : benchStart.switch.react bench (.startNetwork (text "eth2") (text "eth1")) =
    benchStart.switch :=
  (idleSound benchReached).2.1 (.inl ⟨.first, ⟨⟨1⟩, true⟩, by decide, rfl⟩) _ _

end Lifecycle
end PsipSwitch
