import PsipSwitch.Lifecycle

/-! After stopNetwork and stopRest nothing says "running" any more, and nothing but a
start from the idle state sets such a flag again. Then `state` only tells whether a
thread is left. -/
namespace PsipSwitch
namespace Shutdown
open NetworkSwitch SharedStorage Lifecycle

def closing (host : Host) : Machine System Event := (switching host).restrict fun s e =>
  match e with
  | .startNetwork _ _ => s.switch.state ≠ .idle
  | _ => True

structure Quiet (s : SharedStorage) : Prop where
  rest : s.restThread.running = false
  network : ∀ net, (s.interface net).control.running = false

theorem quietSame {s t : SharedStorage} (same : SameControl s t) (quiet : Quiet s) : Quiet t :=
  ⟨by rw [same.rest, quiet.rest], fun net => by rw [same.control, quiet.network]⟩

theorem quietSet {s : SharedStorage} {net : Interface} {f : InterfaceEntry → InterfaceEntry}
    (quiet : Quiet s) (kept : ∀ entry, entry.control.running = false → (f entry).control.running = false) :
    Quiet (s.setInterface net f) := by
  refine ⟨quiet.rest, ?_⟩
  intro other
  by_cases here : other = net
  · rw [here, setInterfaceSame]
    exact kept _ (quiet.network net)
  · simp only [SharedStorage.interface, setInterfaceFindOther s f here]
    exact quiet.network other

theorem stoppedRunning (s : SharedStorage) (net other : Interface)
    (off : other = net ∨ (s.interface other).control.running = false) :
    ((NetworkHandle.signalStop net s).interface other).control.running = false := by
  by_cases here : other = net
  · rw [here, NetworkHandle.signalStop, setInterfaceSame]
  · have kept : (NetworkHandle.signalStop net s).interface other = s.interface other := by
      simp only [NetworkHandle.signalStop, SharedStorage.interface, setInterfaceFindOther s _ here]
    rw [kept]
    exact off.resolve_left here

theorem blankRunning {s : SharedStorage} {net : Interface} (absent : ¬ s.Registered net) :
    (s.interface net).control.running = false := by
  rw [registeredIff] at absent
  simp only [OrderedTable.contains, Bool.not_eq_true] at absent
  simp only [SharedStorage.interface, Option.isSome_eq_false_iff, Option.isNone_iff_eq_none] at absent ⊢
  rw [absent]
  rfl

theorem stoppedQuiet {s : NetworkSwitch} (alive : Alive s) (possible : s.possible .stopNetwork) :
    Quiet s.stopNetwork.stopRest.storage := by
  rcases alive.network with ⟨one, _, _⟩ | ⟨h1, h2, started⟩
  · have some := possible.1
    rw [one] at some
    contradiction
  · have network : ∀ net, (s.stopNetwork.storage.interface net).control.running = false := by
      intro net
      simp only [stopNetwork, started.first, started.second, stopHandle]
      by_cases second : net = h2.interface
      · exact stoppedRunning _ _ _ (.inl second)
      · refine stoppedRunning _ _ _ (.inr (stoppedRunning _ _ _ ?_))
        by_cases first : net = h1.interface
        · exact .inl first
        · refine .inr (blankRunning ?_)
          rw [started.table]
          simp [first, second]
    have rest := alive.rest
    simp only [RestTells] at rest
    unfold stopRest
    split
    · exact ⟨rfl, network⟩
    · rename_i none
      have none : s.restThread = Option.none := none
      rw [none] at rest
      refine ⟨?_, network⟩
      simp only [stopNetwork, started.first, started.second, stopHandle]
      exact rest

theorem stateQuiet {s : NetworkSwitch} (alive : Alive s) (quiet : Quiet s.storage) :
    (SomeLive s → s.state = .stopping) ∧ (¬ SomeLive s → s.state = .idle) := by
  have notRunning : ¬ s.storage.restThread.running = true := by simp [quiet.rest]
  simp only [state, if_neg notRunning]
  cases answer : scan s.storage.interfaces.entries with
  | some found =>
    have stops : found = .stopping :=
      scanQuiet ((entriesIff (P := fun entry => entry.control.running = false)).mpr
        (fun net _ => quiet.network net)) answer
    refine ⟨fun _ => stops, ?_⟩
    intro none
    have network : ¬ ∃ p, s.NetworkLive p := fun live => none (.inl live)
    rw [(scanLive alive).mpr network] at answer
    contradiction
  | none =>
    have network := (scanLive alive).mp answer
    have rest := restLive alive
    simp only [quiet.rest, true_and, someLiveIff alive.waited]
    constructor
    · intro live
      rw [if_pos (rest.mpr (live.resolve_left network))]
    · intro none
      rw [if_neg (fun unfinished => none (.inr (rest.mp unfinished)))]

theorem quietNotRunning {s : NetworkSwitch} (alive : Alive s) (quiet : Quiet s.storage) :
    s.state ≠ .runningNetwork ∧ s.state ≠ .runningRest := by
  obtain ⟨stopping, idle⟩ := stateQuiet alive quiet
  by_cases live : SomeLive s
  · simp [stopping live]
  · simp [idle live]

theorem startRestRefused {s : NetworkSwitch} (alive : Alive s) (quiet : Quiet s.storage) (port : Int) :
    s.startRest port = s := by
  simp only [NetworkSwitch.startRest, if_pos (quietNotRunning alive quiet).1]

structure Closing (s : NetworkSwitch) : Prop where
  alive : Alive s
  quiet : Quiet s.storage

theorem stopQuiet {s : SharedStorage} (quiet : Quiet s) (handle : Option NetworkThreadHandle) :
    Quiet (stopHandle handle s) := by
  unfold stopHandle
  split
  · exact quietSet quiet (fun _ _ => rfl)
  · exact quiet

theorem reactClosing {host : Host} {s : System} {e : Event} (ready : (closing host).enabled s e)
    (before : Closing s.switch) :
    Closing (s.switch.react host e) ∧ (SomeLive (s.switch.react host e) → SomeLive s.switch) := by
  obtain ⟨alive, quiet⟩ := before
  have possible := ready.1.2
  cases e with
  | startNetwork name1 name2 =>
    simp only [react, startNetworkBusy ready.2]
    exact ⟨⟨alive, quiet⟩, id⟩
  | startRest port =>
    simp only [react, startRestRefused alive quiet]
    exact ⟨⟨alive, quiet⟩, id⟩
  | stopNetwork => exact ⟨⟨stopNetworkAlive alive, stopQuiet (stopQuiet quiet _) _⟩, id⟩
  | stopRest =>
    refine ⟨⟨stopRestAlive alive, ?_⟩, ?_⟩
    · simp only [react, stopRest]
      split
      · exact ⟨rfl, quiet.network⟩
      · exact quiet
    · simp only [react, stopRest]
      split <;> exact id
  | interfaces =>
    simp only [react, interfacesAlive alive]
    exact ⟨⟨alive, quiet⟩, id⟩
  | maintain m =>
    have same := maintainControl m s.switch.storage
    exact ⟨⟨aliveSame same alive, quietSame same quiet⟩, id⟩
  | receive p now packet =>
    obtain ⟨h, found, _⟩ := possible
    have same := receiveControl host now packet (portStarted alive found).1
    simp only [react, onInterfaceAt _ found]
    exact ⟨⟨aliveSame same alive, quietSame same quiet⟩, id⟩
  | request now draws request =>
    have same := requestControl host now draws request s.switch.storage
    exact ⟨⟨aliveSame same alive, quietSame same quiet⟩, id⟩
  | exitNetwork p =>
    refine ⟨⟨exitNetworkAlive alive possible, ?_⟩, ?_⟩
    · obtain ⟨h, found, _⟩ := possible
      have kept : ((s.switch.onInterface p NetworkHandle.finish).bury p).storage =
          NetworkHandle.finish h.interface s.switch.storage := by
        rw [onInterfaceAt _ found]
        cases p <;> rfl
      change Quiet ((s.switch.onInterface p NetworkHandle.finish).bury p).storage
      rw [kept]
      exact quietSet quiet (fun _ off => off)
    · exact fun _ => .inl ⟨p, possible⟩
  | exitRest => exact ⟨⟨exitRestAlive alive possible, ⟨quiet.rest, quiet.network⟩⟩, fun _ => .inr (.inl possible)⟩

theorem runClosing {host : Host} {s t : System} {es : List Event} (run : (closing host).Run s es t)
    (before : Closing s.switch) :
    Closing t.switch ∧ (SomeLive t.switch → SomeLive s.switch) := by
  induction run with
  | nil => exact ⟨before, id⟩
  | cons ready rest ih =>
    obtain ⟨after, back⟩ := reactClosing ready before
    obtain ⟨last, further⟩ := ih after
    exact ⟨last, fun live => back (further live)⟩

/- stopNetwork needs both handles: some startNetwork has succeeded before it. -/
theorem shutdownComplete {host : Host} {s t : System} {es : List Event}
    (reached : (operated host).Reachable Initial s)
    (run : (closing host).Run s (.stopNetwork :: .stopRest :: es) t) :
    (t.switch.state = .stopping ↔ SomeLive t.switch) ∧
    (t.switch.state = .idle ↔ ¬ SomeLive t.switch) ∧
    (t.switch.state ≠ .runningNetwork ∧ t.switch.state ≠ .runningRest) ∧
    (∀ port, t.switch.startRest port = t.switch) ∧
    (∀ fs u, (closing host).Run t fs u → t.switch.state = .idle → u.switch.state = .idle) := by
  have alive := reachableAlive reached
  have answers : ∀ u : System, Closing u.switch →
      (u.switch.state = .stopping ↔ SomeLive u.switch) ∧ (u.switch.state = .idle ↔ ¬ SomeLive u.switch) := by
    intro u closed
    obtain ⟨stopping, idle⟩ := stateQuiet closed.alive closed.quiet
    by_cases live : SomeLive u.switch
    · simp [stopping live, live]
    · simp [idle live, live]
  have closed : Closing t.switch := by
    cases run with
    | cons stopping rest =>
      cases rest with
      | cons stoppingRest rest =>
        have stopped : Closing s.switch.stopNetwork.stopRest :=
          ⟨stopRestAlive (stopNetworkAlive alive), stoppedQuiet alive stopping.1.2⟩
        exact (runClosing rest stopped).1
  refine ⟨(answers t closed).1, (answers t closed).2, quietNotRunning closed.alive closed.quiet,
    startRestRefused closed.alive closed.quiet, ?_⟩
  intro fs u further idle
  obtain ⟨last, back⟩ := runClosing further closed
  refine (answers u last).2.mpr (fun live => ?_)
  exact (answers t closed).2.mp idle (back live)

theorem shutdownCompleteBench : ∃ t, (closing bench).Run benchStart
    [.stopNetwork, .stopRest, .exitNetwork .second, .exitNetwork .first] t ∧ t.switch.state = .idle := by
  have exit2 : ((((benchStart.switch.react bench .stopNetwork).react bench .stopRest)).NetworkLive .second) :=
    ⟨⟨⟨2⟩, true⟩, by decide, rfl⟩
  have exit1 : ((((benchStart.switch.react bench .stopNetwork).react bench .stopRest).react bench
      (.exitNetwork .second)).NetworkLive .first) := ⟨⟨⟨1⟩, true⟩, by decide, rfl⟩
  have run : (closing bench).Run benchStart
      [.stopNetwork, .stopRest, .exitNetwork .second, .exitNetwork .first] _ :=
    .cons ⟨⟨le_refl _, by decide, by decide⟩, trivial⟩ (.cons ⟨⟨le_refl _, trivial⟩, trivial⟩
      (.cons ⟨⟨le_refl _, exit2⟩, trivial⟩ (.cons ⟨⟨le_refl _, exit1⟩, trivial⟩ (.nil _))))
  refine ⟨_, run, (shutdownComplete benchReached run).2.1.mpr ?_⟩
  rintro (⟨p, h, found, alive⟩ | ⟨h, found, _⟩ | left)
  · cases p with
    | first =>
      cases Option.some.inj found
      contradiction
    | second =>
      cases Option.some.inj found
      contradiction
  · exact nomatch found
  · exact absurd left (by decide)

end Shutdown
end PsipSwitch
