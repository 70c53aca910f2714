import PsipSwitch.WindowInvariants
import PsipSwitch.Shutdown

/-! Each slot of the windows, act by act: what it leaves behind, from any state the window
can be in between two slots, and whatever the threads do meanwhile. -/
namespace PsipSwitch
namespace MainWindow
open NetworkSwitch SharedStorage Lifecycle
open Program (Stable Triple Duty stableAnd stableOr stableOf tripleMono tripleBind triplePure tripleIte tripleRead
  tripleWrite tripleExchange tripleAwait tripleDeref)

def Quiet : Operation → Prop
  | .receive _ _ _ => False
  | _ => True

/- Each act is a run of sections, on whose end every thread is where it may be; and the only
thing the main thread ever waits for is a REST thread that has been told to end. -/
def duty (host : Host) : Duty MainWindow where
  acts w v := Sound v.networkSwitch ∧
    ∃ ops, (sections host).Run (Refinement.view w.system) ops (Refinement.view v.system) ∧ ∀ op ∈ ops, Quiet op
  waits w := w.networkSwitch.RestLive ∧ w.quitSignalCatched = true

structure Core (host : Host) (w : MainWindow) : Prop where
  alive : Alive w.networkSwitch
  first : w.firstModel = w.networkSwitch.interface1.map (·.interface)
  second : w.secondModel = w.networkSwitch.interface2.map (·.interface)
  listed : Listed host w.interfaces
  quit : w.networkSwitch.RestLive → w.storage.restThread.running = false → w.quitSignalCatched = true
  served : w.networkSwitch.restThread.isSome → w.networkSwitch.interface1.isSome ∧ w.networkSwitch.interface2.isSome

def Honest (w : MainWindow) : Prop := w.ui.startStopButton.caption = text "Start" → w.networkSwitch.state = .idle

def Startable (ui : Ui) : Prop :=
  ui.startStopButton = ⟨text "Start", true⟩ ∧ ui.interface1.enabled = true ∧ ui.interface2.enabled = true

def Fresh (w : MainWindow) : Prop := w.threadTimer = true ∨ (w.networkSwitch.state = .idle ∧ Startable w.ui)

structure Settled (host : Host) (w : MainWindow) : Prop where
  core : Core host w
  honest : Honest w
  fresh : Fresh w

def Busy (w : MainWindow) : Prop := w.ui.startStopButton.caption ≠ text "Start" ∧ w.threadTimer = true

section Assertions
variable {host : Host}

theorem coreSound {w : MainWindow} (core : Core host w) : Sound w.networkSwitch := soundAlive core.alive

theorem coreEnds {w : MainWindow} {s : NetworkSwitch} {clock : Int} (ends : Ends w.networkSwitch s)
    (core : Core host w) : Core host { w with system := ⟨s, clock⟩ } where
  alive := endsAlive ends core.alive
  first := core.first.trans (ends.handles .first).symm
  second := core.second.trans (ends.handles .second).symm
  listed := core.listed
  quit live running := core.quit (ends.restLive live).1 (ends.restRunning.symm.trans running)
  served some := by
    have first := congrArg Option.isSome (ends.handles .first)
    have second := congrArg Option.isSome (ends.handles .second)
    simp only [Option.isSome_map, handleAt] at first second
    change s.interface1.isSome ∧ s.interface2.isSome
    rw [first, second]
    exact core.served (ends.served.symm.trans some)

theorem stableWith {P : MainWindow → Prop} (keep : ∀ (w : MainWindow) s clock, Core host w → Ends w.networkSwitch s →
    P w → P { w with system := ⟨s, clock⟩ }) : Stable (threads host) (fun w => Core host w ∧ P w) :=
  stableSwitch (fun _ both => coreSound both.1)
    (fun w s clock ends both => ⟨coreEnds ends both.1, keep w s clock both.1 ends both.2⟩)

theorem settledEnds {w : MainWindow} {s : NetworkSwitch} {clock : Int} (ends : Ends w.networkSwitch s)
    (settled : Settled host w) : Settled host { w with system := ⟨s, clock⟩ } := by
  refine ⟨coreEnds ends settled.core, fun start => endsIdle ends settled.core.alive (settled.honest start), ?_⟩
  rcases settled.fresh with running | ⟨idle, startable⟩
  · exact .inl running
  · exact .inr ⟨endsIdle ends settled.core.alive idle, startable⟩

theorem stableSettled : Stable (threads host) (Settled host) :=
  stableSwitch (fun _ settled => coreSound settled.core) (fun _ _ _ => settledEnds)

theorem actsSilent {w v : MainWindow} (same : Refinement.view v.system = Refinement.view w.system)
    (sound : Sound v.networkSwitch) : (duty host).acts w v := by
  refine ⟨sound, [], ?_, fun _ member => absurd member List.not_mem_nil⟩
  rw [same]
  exact .nil _

theorem actsSame {w v : MainWindow} (same : v.system = w.system) (sound : Sound w.networkSwitch) :
    (duty host).acts w v := by
  have switch : v.networkSwitch = w.networkSwitch := congrArg System.switch same
  exact actsSilent (by rw [same]) (by rw [switch]; exact sound)

theorem actsOne {w v : MainWindow} (op : Operation) (ready : admitted w.storage op) (begins : op.begins = none)
    (ends : op.ends = none) (after : v.storage = perform host op w.storage) (clock : v.system.clock = w.system.clock)
    (sound : Sound v.networkSwitch) : (duty host).acts w v := by
  have enabled : (sections host).enabled (Refinement.view w.system) op := ⟨by rw [begins, Option.getD_none], ready⟩
  have same : Refinement.view v.system = (sections host).step (Refinement.view w.system) op := by
    simp only [sections, ends, Option.getD_none]
    rw [Refinement.view, Refinement.view, ← clock]
    exact congrArg (fun t => Store.mk t v.system.clock) after
  have quiet : Quiet op := by
    cases op with
    | receive me now packet => contradiction
    | _ => trivial
  refine ⟨sound, [op], ?_, fun other member => ?_⟩
  · rw [same]
    exact .cons enabled (.nil _)
  · rw [List.mem_singleton.mp member]
    exact quiet

theorem stateTriple {P : MainWindow → Prop} (stable : Stable (threads host) P)
    (sound : ∀ w, P w → Sound w.networkSwitch) :
    Triple (threads host) (duty host) P state (fun answer w => P w ∧ w.networkSwitch.state = answer) :=
  tripleRead stable (fun w here => actsSame rfl (sound w here)) (fun _ here => ⟨here, rfl⟩)

/- A branch on what the switch answers. By the time it is taken, only what no thread can
change is still known of the answer. -/
theorem askTriple {P Q R : MainWindow → Prop} {x : SwitchState} {yes no : Slot Unit} {post : Unit → MainWindow → Prop}
    (stable : Stable (threads host) P) (sound : ∀ w, P w → Sound w.networkSwitch)
    (same : ∀ w, P w → w.networkSwitch.state = x → Q w) (other : ∀ w, P w → w.networkSwitch.state ≠ x → R w)
    (then_ : Triple (threads host) (duty host) Q yes post) (else_ : Triple (threads host) (duty host) R no post) :
    Triple (threads host) (duty host) P (state >>= fun answer => if answer = x then yes else no) post := by
  refine tripleBind (stateTriple stable sound) (fun answer => tripleIte ?_ ?_)
  · intro is_
    exact tripleMono then_ (fun w here => same w here.1 (here.2.trans is_)) (fun _ _ after => after)
  · intro isNot
    exact tripleMono else_ (fun w here => other w here.1 (fun is_ => isNot (here.2.symm.trans is_)))
      (fun _ _ after => after)

theorem unlessTriple {P Q : MainWindow → Prop} {x : SwitchState} {rest : Slot Unit} {post : Unit → MainWindow → Prop}
    (stable : Stable (threads host) P) (sound : ∀ w, P w → Sound w.networkSwitch)
    (same : ∀ w, P w → w.networkSwitch.state = x → Q w) (other : ∀ w, P w → w.networkSwitch.state ≠ x → post () w)
    (then_ : Triple (threads host) (duty host) Q rest post) :
    Triple (threads host) (duty host) P (state >>= fun answer => if answer ≠ x then pure () else rest) post := by
  simp only [ite_not]
  exact askTriple stable sound same other then_ (triplePure (fun _ here => here))

theorem showTriple {P Q : MainWindow → Prop} {f : MainWindow → MainWindow}
    (stable : Stable (threads host) P) (sound : ∀ w, P w → Sound w.networkSwitch) (own : ∀ w, (f w).system = w.system)
    (holds : ∀ w, P w → Q (f w)) : Triple (threads host) (duty host) P (.write f) (fun _ => Q) :=
  tripleWrite stable (fun w here => actsSame (own w) (sound w here)) holds

end Assertions

section Refresh
variable {host : Host}

theorem interfacesTriple {P : MainWindow → Prop} (stable : Stable (threads host) P) (core : ∀ w, P w → Core host w) :
    Triple (threads host) (duty host) P (interfacesOf host) (fun _ => P) := by
  have sound : ∀ w, P w → Sound w.networkSwitch := fun w here => coreSound (core w here)
  have kept : ∀ w, P w → onSwitch NetworkSwitch.interfaces w = w := by
    intro w here
    simp only [onSwitch, interfacesAlive (core w here).alive]
    rfl
  refine tripleBind (Q := fun _ => P) (tripleRead stable (fun w here => actsSame rfl (sound w here)) (fun _ here => here)) ?_
  rintro ⟨_ | h1, _ | h2⟩
  · exact triplePure (fun _ here => here)
  · exact triplePure (fun _ here => here)
  · exact triplePure (fun _ here => here)
  · refine tripleExchange stable (fun w here => actsSame ?_ (sound w here)) (fun w here => ?_)
    · rw [kept w here]
    · rw [kept w here]
      exact here

variable {D : MainWindow → Prop}

/- `D` is what a start leaves behind: the window has yet to catch up with the switch. -/

def Behind (D : MainWindow → Prop) (w : MainWindow) : Prop := (Honest w ∨ D w) ∧ (Fresh w ∨ D w)

def Caught (D : MainWindow → Prop) (w : MainWindow) : Prop := Honest w ∧ (Fresh w ∨ D w)

def Ticking (D : MainWindow → Prop) (w : MainWindow) : Prop := w.threadTimer = true ∨ D w

structure Lag (host : Host) (D : MainWindow → Prop) : Prop where
  ends : ∀ (w : MainWindow) s clock, Core host w → Ends w.networkSwitch s → D w → D { w with system := ⟨s, clock⟩ }
  shown : ∀ (w : MainWindow) ui, D w → D { w with ui := ui }
  answer : ∀ w, Core host w → D w → w.networkSwitch.state ≠ .runningNetwork → w.networkSwitch.state = .idle

theorem honestEnds (w : MainWindow) (s : NetworkSwitch) (clock : Int) (core : Core host w)
    (ends : Ends w.networkSwitch s) (honest : Honest w) : Honest { w with system := ⟨s, clock⟩ } :=
  fun start => endsIdle ends core.alive (honest start)

theorem freshEnds (w : MainWindow) (s : NetworkSwitch) (clock : Int) (core : Core host w)
    (ends : Ends w.networkSwitch s) (fresh : Fresh w) : Fresh { w with system := ⟨s, clock⟩ } := by
  rcases fresh with running | ⟨idle, startable⟩
  · exact .inl running
  · exact .inr ⟨endsIdle ends core.alive idle, startable⟩

theorem stableBehind (lag : Lag host D) : Stable (threads host) (fun w => Core host w ∧ Behind D w) := by
  refine stableWith (fun w s clock core ends behind => ⟨?_, ?_⟩)
  · exact behind.1.imp (honestEnds w s clock core ends) (lag.ends w s clock core ends)
  · exact behind.2.imp (freshEnds w s clock core ends) (lag.ends w s clock core ends)

theorem stableCaught (lag : Lag host D) : Stable (threads host) (fun w => Core host w ∧ Caught D w) := by
  refine stableWith (fun w s clock core ends caught => ⟨honestEnds w s clock core ends caught.1, ?_⟩)
  exact caught.2.imp (freshEnds w s clock core ends) (lag.ends w s clock core ends)

theorem stableTicking (lag : Lag host D) (keeps : MainWindow → Prop)
    (own : ∀ (w : MainWindow) system, keeps w → keeps { w with system := system }) :
    Stable (threads host) (fun w => Core host w ∧ Ticking D w ∧ keeps w) :=
  stableWith (fun w s clock core ends both => ⟨both.1.imp id (lag.ends w s clock core ends), own w _ both.2⟩)

theorem stableIdle : Stable (threads host) (fun w => Core host w ∧ w.networkSwitch.state = .idle) :=
  stableWith (fun _ _ _ core ends idle => endsIdle ends core.alive idle)

theorem coreUi {w : MainWindow} (core : Core host w) (ui : Ui) : Core host { w with ui := ui } :=
  ⟨core.alive, core.first, core.second, core.listed, core.quit, core.served⟩

theorem activeTriple (lag : Lag host D) {c : Controls} (caption : c.startStop.caption ≠ text "Start")
    {f : InterfaceData × InterfaceData → Ui → Ui} (keeps : ∀ active ui, (f active ui).startStopButton = ui.startStopButton) :
    Triple (threads host) (duty host) (fun w => Core host w ∧ Ticking D w)
      (do
        .write (onUi (enable c))
        let active ← interfacesOf host
        .write (onUi (f active)))
      (fun _ w => Core host w ∧ Caught D w) := by
  have ticking : Stable (threads host) (fun w => Core host w ∧ Ticking D w) :=
    stableWith (fun w s clock core ends => Or.imp id (lag.ends w s clock core ends))
  have named : Stable (threads host) (fun w => Core host w ∧ Ticking D w ∧ w.ui.startStopButton.caption ≠ text "Start") :=
    stableTicking lag _ (fun _ _ other => other)
  refine tripleBind (Q := fun _ w => Core host w ∧ Ticking D w ∧ w.ui.startStopButton.caption ≠ text "Start") ?_ ?_
  · refine showTriple ticking (fun _ here => coreSound here.1) (fun _ => rfl) ?_
    intro w ⟨core, ticks⟩
    exact ⟨coreUi core _, ticks.imp id (lag.shown w _), caption⟩
  · intro _
    refine tripleBind (interfacesTriple named (fun _ here => here.1)) (fun active => ?_)
    refine showTriple named (fun _ here => coreSound here.1) (fun _ => rfl) ?_
    intro w ⟨core, ticks, other⟩
    refine ⟨coreUi core _, ?_, ticks.imp .inl (lag.shown w _)⟩
    intro start
    exact absurd ((congrArg Button.caption (keeps active w.ui)).symm.trans start) other

theorem idleTriple : Triple (threads host) (duty host) (fun w => Core host w ∧ w.networkSwitch.state = .idle)
    (do
      .write (onUi (enable idle))
      .write (fun w => { w.onUi (fun ui => { ui with status := text "Status: Idle" }) with threadTimer := false }))
    (fun _ w => Core host w ∧ Caught D w) := by
  have startable : Stable (threads host) (fun w => Core host w ∧ w.networkSwitch.state = .idle ∧ Startable w.ui) :=
    stableWith (fun _ _ _ core ends here => ⟨endsIdle ends core.alive here.1, here.2⟩)
  refine tripleBind (Q := fun _ w => Core host w ∧ w.networkSwitch.state = .idle ∧ Startable w.ui) ?_ ?_
  · refine showTriple stableIdle (fun _ here => coreSound here.1) (fun _ => rfl) ?_
    exact fun w here => ⟨coreUi here.1 _, here.2, rfl, rfl, rfl⟩
  · intro _
    refine showTriple startable (fun _ here => coreSound here.1) (fun _ => rfl) ?_
    intro w ⟨core, idle, startable⟩
    exact ⟨⟨core.alive, core.first, core.second, core.listed, core.quit, core.served⟩, fun _ => idle,
      .inl (.inr ⟨idle, startable⟩)⟩

theorem tickingOf {w : MainWindow} (fresh : Fresh w ∨ D w) (busy : w.networkSwitch.state ≠ .idle) : Ticking D w := by
  rcases fresh with (ticks | ⟨idle, _⟩) | lags
  · exact .inl ticks
  · exact absurd idle busy
  · exact .inr lags

/- The four looks at the state need not agree, and the last one may find no branch at all. -/
theorem refreshTriple (lag : Lag host D) :
    Triple (threads host) (duty host) (fun w => Core host w ∧ Behind D w) (refreshUi host)
      (fun _ w => Core host w ∧ Caught D w) := by
  have caught := stableCaught lag
  refine tripleBind (Q := fun _ w => Core host w ∧ Behind D w) ?_ (fun _ => ?_)
  · refine showTriple (stableBehind lag) (fun _ here => coreSound here.1) (fun _ => rfl) ?_
    intro w ⟨core, honest, fresh⟩
    refine ⟨coreUi core _, honest.imp id (lag.shown w _), fresh.imp ?_ (lag.shown w _)⟩
    exact Or.imp id (fun here => here)
  · refine askTriple (Q := fun w => Core host w ∧ Ticking D w) (R := fun w => Core host w ∧ Caught D w)
      (stableBehind lag) (fun _ here => coreSound here.1) ?_ ?_ (activeTriple lag (by decide) (fun _ _ => rfl)) ?_
    · intro w ⟨core, _, fresh⟩ running
      exact ⟨core, tickingOf fresh (by simp [running])⟩
    · intro w ⟨core, honest, fresh⟩ other
      refine ⟨core, ?_, fresh⟩
      rcases honest with honest | lags
      · exact honest
      · exact fun _ => lag.answer w core lags other
    · refine askTriple (Q := fun w => Core host w ∧ Ticking D w) (R := fun w => Core host w ∧ Caught D w)
        caught (fun _ here => coreSound here.1) ?_ (fun _ here _ => here)
        (activeTriple lag (by decide) (fun _ _ => rfl)) ?_
      · intro w ⟨core, _, fresh⟩ running
        exact ⟨core, tickingOf fresh (by simp [running])⟩
      · refine askTriple (R := fun w => Core host w ∧ Caught D w) caught (fun _ here => coreSound here.1)
          (fun _ here idle => ⟨here.1, idle⟩) (fun _ here _ => here) idleTriple ?_
        refine askTriple (Q := fun w => Core host w ∧ Ticking D w) (R := fun w => Core host w ∧ Caught D w)
          caught (fun _ here => coreSound here.1) ?_ (fun _ here _ => here)
          (activeTriple lag (by decide) (fun _ _ => rfl)) (triplePure (fun _ here => here))
        intro w ⟨core, _, fresh⟩ stopping
        exact ⟨core, tickingOf fresh (by simp [stopping])⟩

end Refresh
section Stop
variable {host : Host}

theorem stableBusy {P : MainWindow → Prop} (keep : ∀ (w : MainWindow) s clock, Core host w → Ends w.networkSwitch s →
    P w → P { w with system := ⟨s, clock⟩ }) : Stable (threads host) (fun w => Core host w ∧ Busy w ∧ P w) :=
  stableWith (fun w s clock core ends both => ⟨both.1, keep w s clock core ends both.2⟩)

theorem settledBusy {w : MainWindow} (core : Core host w) (busy : Busy w) : Settled host w :=
  ⟨core, fun start => absurd start busy.1, .inl busy.2⟩

theorem busyOf {w : MainWindow} (settled : Settled host w) (other : w.networkSwitch.state ≠ .idle) : Busy w := by
  refine ⟨fun start => other (settled.honest start), ?_⟩
  exact settled.fresh.resolve_right (fun idle => other idle.1)

theorem signalStopCore {w : MainWindow} {net : Interface} (registered : w.storage.Registered net)
    (core : Core host w) : Core host (w.onStorage (NetworkHandle.signalStop net)) := by
  refine ⟨⟨?_, core.alive.rest, core.alive.waited⟩, core.first, core.second, core.listed, core.quit, core.served⟩
  rcases core.alive.network with ⟨_, _, keys⟩ | ⟨h1, h2, started⟩
  · have none : net ∈ w.storage.interfaces.keys := registered
    have empty : w.storage.interfaces.keys = [] := keys
    rw [empty] at none
    contradiction
  · exact .inr ⟨h1, h2, setControlStarted net started registered (fun _ => rfl)⟩

def Held (p : Port) (net : Interface) (w : MainWindow) : Prop :=
  (w.networkSwitch.handleAt p).map (·.interface) = some net

theorem heldEnds {p : Port} {net : Interface} (w : MainWindow) (s : NetworkSwitch) (clock : Int)
    (ends : Ends w.networkSwitch s) (held : Held p net w) : Held p net { w with system := ⟨s, clock⟩ } :=
  (ends.handles p).trans held

theorem heldRegistered {p : Port} {net : Interface} {w : MainWindow} (core : Core host w) (held : Held p net w) :
    w.storage.Registered net := by
  obtain ⟨h, found, rfl⟩ := Option.map_eq_some_iff.mp held
  exact (portStarted core.alive found).1

theorem stopTriple {p : Port} {pointer : MainWindow → Option NetworkThreadHandle}
    (own : ∀ w, pointer w = w.networkSwitch.handleAt p) {P : MainWindow → Prop} {β : Type} {rest : Slot β}
    {post : β → MainWindow → Prop}
    (keep : ∀ (w : MainWindow) s clock, Core host w → Ends w.networkSwitch s → P w → P { w with system := ⟨s, clock⟩ })
    (some : ∀ w, P w → ∃ net, Held p net w)
    (next : ∀ net, Triple (threads host) (duty host) (fun v => ∃ w, Core host w ∧ Busy w ∧ P w ∧ Held p net w ∧
      v = w.onStorage (NetworkHandle.signalStop net)) rest post) :
    Triple (threads host) (duty host) (fun w => Core host w ∧ Busy w ∧ P w)
      (do
        let h ← Program.deref pointer
        locked (NetworkHandle.signalStop h.interface)
        rest) post := by
  refine tripleBind (Q := fun h w => Core host w ∧ Busy w ∧ P w ∧ Held p h.interface w) ?_ (fun h => ?_)
  · refine tripleDeref (stableBusy keep) (fun w here => actsSame rfl (coreSound here.1)) ?_
    intro w here
    obtain ⟨net, held⟩ := some w here.2.2
    obtain ⟨h, found, rfl⟩ := Option.map_eq_some_iff.mp held
    exact ⟨h, (own w).trans found, here.1, here.2.1, here.2.2, held⟩
  · refine tripleBind (tripleWrite ?_ ?_ ?_) (fun _ => next h.interface)
    · exact stableBusy (fun w s clock core ends both => ⟨keep w s clock core ends both.1, heldEnds w s clock ends both.2⟩)
    · intro w ⟨core, _, _, held⟩
      have registered := heldRegistered core held
      exact actsOne (.signalStop h.interface) registered rfl rfl rfl rfl (coreSound (signalStopCore registered core))
    · exact fun w ⟨core, busy, here, held⟩ => ⟨w, core, busy, here, held, rfl⟩

def Opened (w : MainWindow) : Prop := (∃ net, Held .first net w) ∧ ∃ net, Held .second net w

theorem openedEnds (w : MainWindow) (s : NetworkSwitch) (clock : Int) (ends : Ends w.networkSwitch s)
    (opened : Opened w) : Opened { w with system := ⟨s, clock⟩ } := by
  obtain ⟨⟨net1, first⟩, net2, second⟩ := opened
  exact ⟨⟨net1, heldEnds w s clock ends first⟩, net2, heldEnds w s clock ends second⟩

theorem openedOf {w : MainWindow} (some : w.networkSwitch.interface1.isSome ∧ w.networkSwitch.interface2.isSome) :
    Opened w := by
  obtain ⟨h1, first⟩ := Option.isSome_iff_exists.mp some.1
  obtain ⟨h2, second⟩ := Option.isSome_iff_exists.mp some.2
  exact ⟨⟨h1.interface, congrArg (Option.map _) first⟩, h2.interface, congrArg (Option.map _) second⟩

def Off (net : Interface) (w : MainWindow) : Prop := (w.storage.interface net).control.running = false

theorem offEnds {net : Interface} (w : MainWindow) (s : NetworkSwitch) (clock : Int) (ends : Ends w.networkSwitch s)
    (off : Off net w) : Off net { w with system := ⟨s, clock⟩ } := (ends.running net).trans off

theorem signalStopOff {net other : Interface} {w : MainWindow} (off : other = net ∨ Off other w) :
    Off other (w.onStorage (NetworkHandle.signalStop net)) := Shutdown.stoppedRunning w.storage net other off

theorem heldTable {net1 net2 net : Interface} {w : MainWindow} (core : Core host w) (first : Held .first net1 w)
    (second : Held .second net2 w) (other1 : net ≠ net1) (other2 : net ≠ net2) : Off net w := by
  refine Shutdown.blankRunning (fun registered => ?_)
  obtain ⟨h1, found1, rfl⟩ := Option.map_eq_some_iff.mp first
  obtain ⟨h2, found2, rfl⟩ := Option.map_eq_some_iff.mp second
  rcases core.alive.network with unstarted | ⟨k1, k2, started⟩
  · exact nomatch (unstartedHandle unstarted .first).symm.trans found1
  · cases Option.some.inj (started.first.symm.trans found1)
    cases Option.some.inj (started.second.symm.trans found2)
    rcases (started.table net).mp registered with same | same
    · exact other1 same
    · exact other2 same

theorem stopNetworkTriple :
    Triple (threads host) (duty host) (fun w => Core host w ∧ Busy w ∧ Opened w) stopNetwork
      (fun _ w => Core host w ∧ Busy w ∧ ∀ net, Off net w) := by
  refine stopTriple (p := .first) (fun _ => rfl) (fun w s clock _ => openedEnds w s clock) (fun w opened => opened.1) (fun net1 => ?_)
  have later : Triple (threads host) (duty host)
      (fun w => Core host w ∧ Busy w ∧ (∃ net, Held .second net w) ∧ Held .first net1 w ∧ Off net1 w)
      (do
        let h2 ← Program.deref (fun w => w.networkSwitch.interface2)
        locked (NetworkHandle.signalStop h2.interface)
        pure ()) (fun _ w => Core host w ∧ Busy w ∧ ∀ net, Off net w) := by
    refine stopTriple (p := .second) (fun _ => rfl) ?_ (fun w here => here.1) (fun net2 => triplePure ?_)
    · intro w s clock _ ends ⟨⟨net2, second⟩, first, off⟩
      exact ⟨⟨net2, heldEnds w s clock ends second⟩, heldEnds w s clock ends first, offEnds w s clock ends off⟩
    · rintro _ ⟨w, core, busy, ⟨_, first, off⟩, second, rfl⟩
      refine ⟨signalStopCore (heldRegistered core second) core, busy, fun net => ?_⟩
      by_cases last : net = net2
      · exact signalStopOff (.inl last)
      · refine signalStopOff (.inr ?_)
        by_cases early : net = net1
        · rw [early]
          exact off
        · exact heldTable core first second early last
  refine tripleMono later ?_ (fun _ _ after => after)
  rintro _ ⟨w, core, busy, opened, first, rfl⟩
  exact ⟨signalStopCore (heldRegistered core first) core, busy, opened.2, first, signalStopOff (.inl rfl)⟩

theorem signalStopRestCore {w : MainWindow} (core : Core host w) (served : w.networkSwitch.restThread.isSome) :
    Core host { w.onStorage RestHandle.signalStop with quitSignalCatched := true } := by
  refine ⟨⟨networkFrame (s := w.networkSwitch) rfl rfl rfl core.alive.network, ?_, core.alive.waited⟩, core.first,
    core.second, core.listed, fun _ _ => rfl, core.served⟩
  obtain ⟨h, found⟩ := Option.isSome_iff_exists.mp served
  have rest := core.alive.rest
  simp only [RestTells, found] at rest
  have there : w.system.switch.restThread = Option.some h := found
  simp only [RestTells, networkSwitch, onStorage, onSwitch, there, RestHandle.signalStop]
  exact rest

theorem stopRestTriple {K : MainWindow → Prop}
    (ends : ∀ (w : MainWindow) s clock, Core host w → Ends w.networkSwitch s → K w → K { w with system := ⟨s, clock⟩ })
    (kept : ∀ w, K w → K { w.onStorage RestHandle.signalStop with quitSignalCatched := true }) :
    Triple (threads host) (duty host) (fun w => Core host w ∧ Busy w ∧ K w) stopRest
      (fun _ w => Core host w ∧ Busy w ∧ K w ∧ w.storage.restThread.running = false) := by
  refine tripleBind (Q := fun some w => Core host w ∧ Busy w ∧ K w ∧ w.networkSwitch.restThread.isSome = some) ?_ ?_
  · exact tripleRead (stableBusy ends) (fun w here => actsSame rfl (coreSound here.1))
      (fun _ here => ⟨here.1, here.2.1, here.2.2, rfl⟩)
  · intro some
    have stable : Stable (threads host)
        (fun w => Core host w ∧ Busy w ∧ K w ∧ w.networkSwitch.restThread.isSome = some) :=
      stableBusy (fun w s clock core ends' both => ⟨ends w s clock core ends' both.1, ends'.served.trans both.2⟩)
    refine tripleIte ?_ ?_
    · rintro rfl
      refine tripleWrite stable ?_ ?_
      · intro w here
        have told := signalStopRestCore here.1 here.2.2.2
        exact actsOne .signalStopRest trivial rfl rfl rfl rfl (coreSound told)
      · exact fun w here => ⟨signalStopRestCore here.1 here.2.2.2, here.2.1, kept w here.2.2.1, rfl⟩
    · intro none
      refine triplePure (fun w here => ⟨here.1, here.2.1, here.2.2.1, ?_⟩)
      have off : w.networkSwitch.restThread.isSome = false := here.2.2.2.trans (by simpa using none)
      have absent : w.networkSwitch.restThread = Option.none := by simpa using off
      have rest := here.1.alive.rest
      simp only [RestTells, absent] at rest
      exact rest

theorem stopNetworkThreadTriple :
    Triple (threads host) (duty host) (fun w => Core host w ∧ Busy w ∧ Opened w) stopNetworkThread
      (fun _ w => Core host w ∧ Busy w ∧ Shutdown.Quiet w.storage) := by
  refine tripleBind stopNetworkTriple (fun _ => ?_)
  refine tripleMono (stopRestTriple (K := fun w => ∀ net, Off net w) ?_ (fun _ here => here)) (fun _ here => here) ?_
  · exact fun w s clock _ ends here net => offEnds w s clock ends (here net)
  · exact fun _ w ⟨core, busy, off, rest⟩ => ⟨core, busy, rest, off⟩

end Stop
end MainWindow
end PsipSwitch
