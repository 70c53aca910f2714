import PsipSwitch.WindowStarts

/-! The program as it runs: the slots in any order, each at its own pace, and the threads
beside them. What every slot keeps to on its own holds at every moment of every run. -/
namespace PsipSwitch
namespace MainWindow
open NetworkSwitch SharedStorage Lifecycle
open Sweep (Readings)
open Program (Stable Triple Dutiful dutifulStep dutifulActs dutifulSafe dutifulBlocked dutifulIdle dutifulFinish
  dutifulUncalled tripleMono tripleBind triplePure tripleIte tripleGiven tripleRead tripleWrite)

section Slots
variable {host : Host}

theorem maintained (m : Maintenance) {w : MainWindow} (settled : Settled host w) :
    Settled host { w with system := ⟨{ w.networkSwitch with storage := maintain m w.storage }, m.ends.getD w.system.clock⟩ } :=
  settledEnds (endsSame (maintainControl m w.storage)) settled

theorem maintainTriple {f : MainWindow → MainWindow} (m : MainWindow → Maintenance)
    (same : ∀ w, f w = { w with
      system := ⟨{ w.networkSwitch with storage := maintain (m w) w.storage }, (m w).ends.getD w.system.clock⟩ })
    (order : ∀ w : MainWindow, w.system.clock ≤ (m w).begins.getD w.system.clock) :
    Triple (threads host) (duty host) (Settled host) (.write f) (fun _ => Settled host) := by
  refine tripleWrite stableSettled (fun w settled => ?_) (fun w settled => ?_)
  · rw [same w]
    refine ⟨coreSound (maintained (m w) settled).core, [.maintain (m w)], .cons ⟨order w, trivial⟩ (.nil _), ?_⟩
    intro op member
    rw [List.mem_singleton.mp member]
    trivial
  · rw [same w]
    exact maintained (m w) settled

theorem lockedTriple (m : Maintenance) (begins : m.begins = none) (ends : m.ends = none) :
    Triple (threads host) (duty host) (Settled host) (locked (maintain m)) (fun _ => Settled host) := by
  refine maintainTriple (fun _ => m) (fun w => ?_) (fun w => ?_)
  · rw [ends]
    rfl
  · rw [begins, Option.getD_none]

theorem updateMacTriple {r : Readings} (order : 0 ≤ r.first) :
    Triple (threads host) (duty host) (Settled host) (.write (sweeping NetworkSwitch.updateMac r))
      (fun _ => Settled host) :=
  maintainTriple (fun w => .updateMac (r.after w.system.clock)) (fun _ => rfl)
    (fun _ => Int.le_add_of_nonneg_right order)

theorem widgetTriple {f : MainWindow → MainWindow} (own : ∀ w, (f w).system = w.system)
    (kept : ∀ w, Settled host w → Settled host (f w)) :
    Triple (threads host) (duty host) (Settled host) (.write f) (fun _ => Settled host) :=
  showTriple stableSettled (fun _ settled => coreSound settled.core) own kept

theorem settledUi {w : MainWindow} {ui : Ui} (settled : Settled host w) (button : ui.startStopButton = w.ui.startStopButton)
    (box1 : ui.interface1.enabled = w.ui.interface1.enabled) (box2 : ui.interface2.enabled = w.ui.interface2.enabled) :
    Settled host { w with ui := ui } := by
  refine ⟨coreUi settled.core ui, ?_, ?_⟩
  · intro start
    exact settled.honest ((congrArg Button.caption button).symm.trans start)
  · refine settled.fresh.imp id ?_
    rintro ⟨idle, start, first, second⟩
    exact ⟨idle, button.trans start, box1.trans first, box2.trans second⟩

theorem settledInfo {w : MainWindow} {info : InfoTable} (settled : Settled host w) : Settled host { w with info := info } :=
  ⟨⟨settled.core.alive, settled.core.first, settled.core.second, settled.core.listed, settled.core.quit, settled.core.served⟩,
    settled.honest, settled.fresh⟩

theorem settledHandles {w : MainWindow} (settled : Settled host w)
    (running : w.networkSwitch.state = .runningNetwork ∨ w.networkSwitch.state = .runningRest) :
    w.networkSwitch.interface1.isSome ∧ w.networkSwitch.interface2.isSome := by
  rcases running with running | running
  · exact (runningNetworkStarted settled.core.alive running).2
  · exact settled.core.served (runningRestServed settled.core.alive running)

theorem settledOpened {w : MainWindow} (settled : Settled host w)
    (running : w.networkSwitch.state = .runningNetwork ∨ w.networkSwitch.state = .runningRest) :
    Core host w ∧ Busy w ∧ Opened w := by
  refine ⟨settled.core, busyOf settled ?_, openedOf (settledHandles settled running)⟩
  rcases running with running | running <;> simp [running]

theorem settledSound (w : MainWindow) (settled : Settled host w) : Sound w.networkSwitch := coreSound settled.core

theorem startStopTriple : Triple (threads host) (duty host) (Settled host) (onStartStopButtonClicked host)
    (fun _ => Settled host) := by
  have stop : Triple (threads host) (duty host) (fun w => Core host w ∧ Busy w ∧ Opened w) stopNetworkThread
      (fun _ => Settled host) :=
    tripleMono stopNetworkThreadTriple (fun _ here => here) (fun _ _ after => settledBusy after.1 after.2.1)
  refine askTriple stableSettled settledSound (fun _ settled running => settledOpened settled (.inl running))
    (fun _ settled _ => settled) stop ?_
  refine askTriple stableSettled settledSound (fun _ settled running => settledOpened settled (.inr running))
    (fun _ settled _ => settled) stop ?_
  exact askTriple stableSettled settledSound (fun _ settled idle => ⟨settled, idle⟩) (fun _ settled _ => settled)
    startNetworkThreadTriple (triplePure (fun _ settled => settled))

theorem restStartStopTriple : Triple (threads host) (duty host) (Settled host) (onRestStartStopButtonClicked host)
    (fun _ => Settled host) := by
  refine askTriple (Q := fun w => Core host w ∧ Busy w) (R := Settled host) stableSettled settledSound ?_
    (fun _ settled _ => settled) startRestThreadTriple ?_
  · exact fun _ settled running => ⟨settled.core, busyOf settled (by simp [running])⟩
  · refine askTriple (Q := fun w => Core host w ∧ Busy w ∧ True) (R := Settled host) stableSettled settledSound ?_
      (fun _ settled _ => settled) ?_ (triplePure (fun _ settled => settled))
    · exact fun _ settled running => ⟨settled.core, busyOf settled (by simp [running]), trivial⟩
    · exact tripleMono (stopRestTriple (fun _ _ _ _ _ here => here) (fun _ here => here)) (fun _ here => here)
        (fun _ _ after => settledBusy after.1 after.2.1)

theorem updateInterfacesTriple {current : List Interface} {r : Readings} (listed : Listed host current)
    (order : 0 ≤ r.first) : Triple (threads host) (duty host) (Settled host) (updateInterfaces host current r)
      (fun _ => Settled host) := by
  refine tripleBind (Q := fun _ => Settled host)
    (tripleRead stableSettled (fun w settled => actsSame rfl (settledSound w settled)) (fun _ settled => settled)) ?_
  refine fun before => tripleIte (fun _ => ?_) (fun _ => updateMacTriple order)
  refine tripleBind (widgetTriple (fun _ => rfl) (fun w settled => ?_)) (fun _ => ?_)
  · exact ⟨⟨settled.core.alive, settled.core.first, settled.core.second, listed, settled.core.quit, settled.core.served⟩,
      settled.honest, settled.fresh⟩
  · exact tripleBind settledRefresh (fun _ => updateMacTriple order)

theorem infoRefreshTriple : Triple (threads host) (duty host) (Settled host) infoRefreshUi (fun _ => Settled host) := by
  refine askTriple stableSettled settledSound (fun _ settled _ => settled) (fun _ settled _ => settled)
    (widgetTriple (fun _ => rfl) (fun _ => settledInfo)) ?_
  exact tripleBind (widgetTriple (fun _ => rfl) (fun _ => settledInfo))
    (fun _ => widgetTriple (fun _ => rfl) (fun _ => settledInfo))

theorem clearTriple {pick : InterfaceData × InterfaceData → Interface} : Triple (threads host) (duty host) (Settled host)
    (do
      let active ← interfacesOf host
      locked (NetworkSwitch.clearStatsOf (pick active))
      refreshUi host) (fun _ => Settled host) := by
  refine tripleBind (interfacesTriple stableSettled (fun _ settled => settled.core)) (fun active => ?_)
  exact tripleBind (lockedTriple (.clearStatsOf (pick active)) rfl rfl) (fun _ => settledRefresh)

theorem slotTriple (c : Call) : Triple (threads host) (duty host) (fun w => Settled host w ∧ callable host w c)
    (slot host c) (fun _ => Settled host) := by
  have only {p : Slot Unit} (triple : Triple (threads host) (duty host) (Settled host) p (fun _ => Settled host)) :
      Triple (threads host) (duty host) (fun w => Settled host w ∧ callable host w c) p (fun _ => Settled host) :=
    tripleMono triple (fun _ here => here.1) (fun _ _ after => after)
  cases c with
  | startStop => exact only startStopTriple
  | restStartStop => exact only restStartStopTriple
  | resetMac r =>
    exact fun w here => tripleBind (maintainTriple (fun w => .resetMac (r.after w.system.clock)) (fun _ => rfl)
      (fun w => Int.le_add_of_nonneg_right here.2)) (fun _ => settledRefresh) w here.1
  | clearMac => exact only (tripleBind (lockedTriple .clearMac rfl rfl) (fun _ => settledRefresh))
  | clearStats => exact only (tripleBind (lockedTriple .clearStats rfl rfl) (fun _ => settledRefresh))
  | clearFirst => exact only clearTriple
  | clearSecond => exact only clearTriple
  | updateInterfaces current r =>
    exact fun w here => updateInterfacesTriple here.2.1 here.2.2 w here.1
  | refresh => exact only (tripleBind settledRefresh (fun _ => infoRefreshTriple))
  | updateMac r => exact fun w here => updateMacTriple here.2 w here.1
  | updatePackets r =>
    exact fun w here => maintainTriple (fun w => .updatePackets (r.after w.system.clock)) (fun _ => rfl)
      (fun w => Int.le_add_of_nonneg_right here.2) w here.1
  | updateSessions r =>
    exact fun w here => maintainTriple (fun w => .updateSessions (r.after w.system.clock)) (fun _ => rfl)
      (fun w => Int.le_add_of_nonneg_right here.2) w here.1
  | applyTimeout =>
    refine only (tripleBind (Q := fun _ => Settled host)
      (tripleRead stableSettled (fun w settled => actsSame rfl (settledSound w settled)) (fun _ settled => settled)) ?_)
    exact fun value => lockedTriple (.setMacTimeout value) rfl rfl
  | macsClear => exact only (lockedTriple .clearMac rfl rfl)
  | sessionsClear => exact only (lockedTriple .clearSessions rfl rfl)
  | chooseFirst index => exact only (widgetTriple (fun _ => rfl) (fun _ settled => settledUi settled rfl rfl rfl))
  | chooseSecond index => exact only (widgetTriple (fun _ => rfl) (fun _ settled => settledUi settled rfl rfl rfl))
  | choosePort value => exact only (widgetTriple (fun _ => rfl) (fun _ settled => settledUi settled rfl rfl rfl))
  | chooseTimeout value => exact only (widgetTriple (fun _ => rfl) (fun _ => settledInfo))

theorem initialSettled (clock : Int) : Settled host (initial clock) where
  core := {
    alive := initialAlive
    first := rfl
    second := rfl
    listed := ⟨.nil, fun _ member => nomatch member⟩
    quit := fun ⟨_, found, _⟩ => nomatch found
    served := fun served => nomatch served }
  honest _ := rfl
  fresh := .inr ⟨rfl, rfl, rfl, rfl⟩

end Slots

section Runs
variable {host : Host}

def Kept (host : Host) (t : Program.Thread MainWindow) : Prop :=
  Dutiful (threads host) (duty host) (Settled host) t ∧ Sound t.shared.networkSwitch

theorem threadSound {w : MainWindow} {e : Event} (ready : (threads host).enabled w e) (sound : Sound w.networkSwitch) :
    Sound ((threads host).step w e).networkSwitch :=
  endsSound (threadEnds ready.1 ready.2.2 sound) sound

theorem keptStep {t : Program.Thread MainWindow} {turn : Program.Turn Event Call}
    (ready : (program host).enabled t turn) (kept : Kept host t) : Kept host ((program host).step t turn) := by
  refine ⟨dutifulStep stableSettled slotTriple t turn ready kept.1, ?_⟩
  cases turn with
  | own => exact (dutifulActs ready kept.1).1.1
  | other e => exact threadSound ready kept.2
  | call c => exact kept.2

theorem initialKept {t : Program.Thread MainWindow} (start : Initial t) : Kept host t := by
  obtain ⟨clock, rfl⟩ := start
  exact ⟨initialSettled clock, soundAlive initialAlive⟩

theorem reachableKept {t : Program.Thread MainWindow} (reached : (program host).Reachable Initial t) : Kept host t :=
  Machine.reachableInvariant (fun _ _ => keptStep) (fun _ => initialKept) reached

theorem reachableCall {w v : MainWindow} {c : Call} (reached : (program host).Reachable Initial ⟨w, .done ()⟩)
    (ready : callable host w c) (ends : Program.alone (slot host c) w = some ((), v)) :
    (program host).Reachable Initial ⟨v, .done ()⟩ := by
  obtain ⟨first, turns, start, run⟩ := reached
  have alone : ∃ n, (program host).Run ⟨w, slot host c⟩ (List.replicate n .own) ⟨v, .done ()⟩ := Program.aloneRun ends
  obtain ⟨n, own⟩ := alone
  have called : (program host).Run ⟨w, .done ()⟩ (.call c :: List.replicate n .own) ⟨v, .done ()⟩ :=
    .cons (m := program host) ⟨trivial, ready⟩ own
  exact ⟨first, turns ++ .call c :: List.replicate n .own, start, Machine.runAppend run called⟩

theorem reachableOther {w : MainWindow} {e : Event} (reached : (program host).Reachable Initial ⟨w, .done ()⟩)
    (ready : (threads host).enabled w e) : (program host).Reachable Initial ⟨(threads host).step w e, .done ()⟩ :=
  Machine.reachableStep (m := program host) (e := .other e) reached ready

def after (c : Call) (w : MainWindow) : MainWindow := ((Program.alone (slot bench c) w).map (·.2)).getD w

def benchListed : MainWindow := after (.updateInterfaces [⟨1⟩, ⟨2⟩] (.still 0)) (initial 0)

def benchChosen : MainWindow := after (.chooseSecond 1) (after (.chooseFirst 0) benchListed)

def benchStarted : MainWindow := after .startStop benchChosen

def benchUnserved : MainWindow := after .restStartStop (after .restStartStop benchStarted)

theorem benchChosenReached : (program bench).Reachable Initial ⟨benchChosen, .done ()⟩ := by
  have start : (program bench).Reachable Initial ⟨initial 0, .done ()⟩ := ⟨_, [], ⟨0, rfl⟩, .nil _⟩
  have listed : Listed bench [⟨1⟩, ⟨2⟩] := ⟨by decide, by decide⟩
  have one : (program bench).Reachable Initial ⟨benchListed, .done ()⟩ :=
    reachableCall (c := .updateInterfaces [⟨1⟩, ⟨2⟩] (.still 0)) start ⟨listed, by decide⟩ rfl
  have two : (program bench).Reachable Initial ⟨after (.chooseFirst 0) benchListed, .done ()⟩ :=
    reachableCall (c := .chooseFirst 0) one ⟨rfl, by decide, by decide⟩ rfl
  exact reachableCall two (c := .chooseSecond 1) ⟨rfl, by decide, by decide⟩ rfl

theorem benchStartedReached : (program bench).Reachable Initial ⟨benchStarted, .done ()⟩ :=
  reachableCall (c := .startStop) benchChosenReached rfl rfl

theorem benchUnservedReached : (program bench).Reachable Initial ⟨benchUnserved, .done ()⟩ := by
  have served : (program bench).Reachable Initial ⟨after .restStartStop benchStarted, .done ()⟩ :=
    reachableCall (c := .restStartStop) benchStartedReached rfl rfl
  exact reachableCall (c := .restStartStop) served rfl rfl

def benchHalf : Program.Thread MainWindow := Program.advance^[9] ⟨benchChosen, slot bench .startStop⟩

theorem benchHalfReached : (program bench).Reachable Initial benchHalf := by
  obtain ⟨first, turns, start, run⟩ := benchChosenReached
  have called : (program bench).Run ⟨benchChosen, .done ()⟩ (.call .startStop :: List.replicate 9 .own) benchHalf := by
    refine .cons (m := program bench) (e := .call .startStop) ⟨trivial, rfl⟩ ?_
    iterate 9 refine .cons (m := program bench) (e := .own) rfl ?_
    exact .nil _
  exact ⟨first, _, start, Machine.runAppend run called⟩

def sectionsOf (w : MainWindow) : Event → List Operation
  | .receive p now packet => (w.networkSwitch.handleAt p).toList.map (fun h => .receive h.interface now packet)
  | .request now draws request => [.request now draws request]
  | .exitNetwork p => (w.networkSwitch.handleAt p).toList.map (fun h => .finish h.interface)
  | .exitRest => [.finishRest]
  | _ => []

theorem threadFollows {w : MainWindow} {e : Event} (ready : (threads host).enabled w e) (sound : Sound w.networkSwitch) :
    (sections host).Run (Refinement.view w.system) (sectionsOf w e) (Refinement.view ((threads host).step w e).system) := by
  obtain ⟨thread, order, possible⟩ := ready
  cases e with
  | receive p now packet =>
    obtain ⟨h, found, living⟩ := possible
    have there : w.networkSwitch.handleAt p = some h := found
    have same : Refinement.view ((threads host).step w (.receive p now packet)).system =
        (sections host).step (Refinement.view w.system) (.receive h.interface now packet) := by
      change Refinement.view ⟨w.networkSwitch.onInterface p (fun me => perform host (.receive me now packet)), now⟩ = _
      rw [onInterfaceAt _ there]
      rfl
    rw [same, sectionsOf, there]
    exact .cons ⟨order, (sound.network p h found living).1⟩ (.nil _)
  | request now draws request => exact .cons ⟨order, trivial⟩ (.nil _)
  | exitNetwork p =>
    obtain ⟨h, found, living⟩ := possible
    have there : w.networkSwitch.handleAt p = some h := found
    have same : Refinement.view ((threads host).step w (.exitNetwork p)).system =
        (sections host).step (Refinement.view w.system) (.finish h.interface) := by
      change Refinement.view ⟨w.networkSwitch.react host (.exitNetwork p), w.system.clock⟩ = _
      rw [react, Refinement.view, buryStorage, onInterfaceAt _ there]
      rfl
    rw [same, sectionsOf, there]
    exact .cons ⟨le_refl _, (sound.network p h found living).1⟩ (.nil _)
  | exitRest => exact .cons ⟨le_refl _, trivial⟩ (.nil _)
  | _ => exact thread.elim

theorem turnFollows {t : Program.Thread MainWindow} {turn : Program.Turn Event Call}
    (ready : (program host).enabled t turn) (kept : Kept host t) :
    ∃ ops, (sections host).Run (Refinement.view t.shared.system) ops
      (Refinement.view ((program host).step t turn).shared.system) := by
  cases turn with
  | own =>
    obtain ⟨⟨_, ops, follows, _⟩, _⟩ := dutifulActs ready kept.1
    exact ⟨ops, follows⟩
  | other e => exact ⟨sectionsOf t.shared e, threadFollows ready kept.2⟩
  | call c => exact ⟨[], .nil _⟩

theorem programFollows {t : Program.Thread MainWindow} (reached : (program host).Reachable Initial t) :
    (sections host).Reachable Refinement.Fresh (Refinement.view t.shared.system) := by
  obtain ⟨first, turns, start, run⟩ := reached
  have followed : ∃ ops, (sections host).Run (Refinement.view first.shared.system) ops
      (Refinement.view t.shared.system) :=
    Machine.simulation (P := Kept host) (fun _ _ => keptStep) (fun _ _ => turnFollows) run (initialKept start)
  obtain ⟨ops, follows⟩ := followed
  refine ⟨Refinement.view first.shared.system, ops, ?_, follows⟩
  obtain ⟨clock, rfl⟩ := start
  rfl

theorem programFollowsBench :
    (∃ h, benchHalf.shared.networkSwitch.interface1 = some h ∧ h.alive = true) ∧
      ¬ benchHalf.shared.storage.Registered ⟨2⟩ ∧
      (sections bench).Reachable Refinement.Fresh (Refinement.view benchHalf.shared.system) :=
  ⟨⟨⟨⟨1⟩, true⟩, rfl, rfl⟩, by decide, programFollows benchHalfReached⟩

/- No null handle is ever followed, no name is ever refused, and no thread that lives has
its entry taken away or its flags reset. -/
theorem slotsSafe {t : Program.Thread MainWindow} (reached : (program host).Reachable Initial t) :
    t.program ≠ .fault ∧ Sound t.shared.networkSwitch :=
  ⟨dutifulSafe (reachableKept reached).1, (reachableKept reached).2⟩

theorem slotsSafeBench : ¬ benchHalf.program.Idle ∧ benchHalf.program ≠ .fault ∧ Sound benchHalf.shared.networkSwitch :=
  ⟨id, slotsSafe benchHalfReached⟩

theorem restWakes {w : MainWindow} (waits : (duty host).waits w) : ∃ e, e = Event.exitRest ∧
    (threads host).enabled w e ∧ ¬ (duty host).waits ((threads host).step w e) := by
  refine ⟨.exitRest, rfl, ⟨trivial, le_refl _, waits.1⟩, ?_⟩
  rintro ⟨⟨h, found, living⟩, _⟩
  obtain ⟨old, _, rfl⟩ := Option.map_eq_some_iff.mp (found : w.networkSwitch.restThread.map _ = some h)
  contradiction

/- A slot only ever waits for a REST thread that has been told to quit, and whatever it is
doing, it gets to its end without anything else happening. -/
theorem slotsFinish {t : Program.Thread MainWindow} (reached : (program host).Reachable Initial t) :
    (¬ t.program.Idle → ¬ t.program.Ready t.shared →
      t.shared.networkSwitch.RestLive ∧ t.shared.quitSignalCatched = true) ∧
    ∃ turns u, (program host).Run t turns u ∧ u.program.Idle ∧
      ∀ turn ∈ turns, turn = .own ∨ turn = .other .exitRest := by
  have dutiful := (reachableKept reached).1
  refine ⟨fun busy late => dutifulBlocked ?_ dutiful, ?_⟩
  · have safe := dutifulSafe dutiful
    cases found : t.program with
    | done a => exact absurd (by rw [found]; trivial) busy
    | fault => exact absurd found safe
    | act ready next rest => simpa [found, Program.Ready, Program.Blocked] using late
  · have finished : ∃ turns u, (program host).Run t turns u ∧ u.program.Idle ∧
        ∀ turn ∈ turns, turn = .own ∨ ∃ e, e = .exitRest ∧ turn = .other e :=
      dutifulFinish stableSettled (fun e => e = .exitRest) (fun _ => restWakes) dutiful
    obtain ⟨turns, u, run, idle, all⟩ := finished
    refine ⟨turns, u, run, idle, fun turn member => ?_⟩
    rcases all turn member with own | ⟨_, rfl, other⟩
    · exact .inl own
    · exact .inr other

def benchWaiting : Program.Thread MainWindow := Program.advance^[3] ⟨benchUnserved, slot bench .restStartStop⟩

theorem slotsFinishBench : ¬ benchWaiting.program.Idle ∧ ¬ benchWaiting.program.Ready benchWaiting.shared ∧
    benchWaiting.shared.networkSwitch.RestLive ∧ ∃ turns u, (program bench).Run benchWaiting turns u ∧ u.program.Idle := by
  have reached : (program bench).Reachable Initial benchWaiting := by
    obtain ⟨first, turns, start, run⟩ := benchUnservedReached
    have called : (program bench).Run ⟨benchUnserved, .done ()⟩ (.call .restStartStop :: List.replicate 3 .own)
        benchWaiting := by
      refine .cons (m := program bench) (e := .call .restStartStop) ⟨trivial, rfl⟩ ?_
      iterate 3 refine .cons (m := program bench) (e := .own) rfl ?_
      exact .nil _
    exact ⟨first, _, start, Machine.runAppend run called⟩
  have busy : ¬ benchWaiting.program.Idle := id
  have late : ¬ benchWaiting.program.Ready benchWaiting.shared := nofun
  obtain ⟨waits, turns, u, finished, idle, _⟩ := slotsFinish reached
  exact ⟨busy, late, (waits busy late).1, turns, u, finished, idle⟩

/- What the window tells, whenever the user gets to see it: "Start" where no thread lives and
a start can be made, and while any thread lives a refresh is due. -/
theorem windowTells {t : Program.Thread MainWindow} (reached : (program host).Reachable Initial t)
    (idle : t.program.Idle) :
    (t.shared.ui.startStopButton.caption = text "Start" →
      t.shared.networkSwitch.state = .idle ∧ ¬ SomeLive t.shared.networkSwitch) ∧
    (t.shared.threadTimer = true ∨ t.shared.networkSwitch.state = .idle ∧ Startable t.shared.ui) ∧
    (SomeLive t.shared.networkSwitch → t.shared.threadTimer = true) := by
  have settled := dutifulIdle idle (reachableKept reached).1
  have quiet (rests : t.shared.networkSwitch.state = .idle) : ¬ SomeLive t.shared.networkSwitch :=
    ((idleIff settled.core.alive).mp rests).2
  refine ⟨fun start => ⟨settled.honest start, quiet (settled.honest start)⟩, settled.fresh, fun live => ?_⟩
  exact settled.fresh.resolve_right (fun rests => quiet rests.1 live)

theorem windowTellsBench : benchStarted.threadTimer = true ∧ SomeLive benchStarted.networkSwitch := by
  have live : SomeLive benchStarted.networkSwitch := .inl ⟨.first, ⟨⟨1⟩, true⟩, rfl, rfl⟩
  exact ⟨(windowTells benchStartedReached trivial).2.2 live, live⟩

structure ShowsIdle (w : MainWindow) : Prop where
  controls : enable MainWindow.idle w.ui = w.ui
  status : w.ui.status = text "Status: Idle"
  timer : w.threadTimer = false

def Rests (host : Host) (w : MainWindow) : Prop := Core host w ∧ w.networkSwitch.state = .idle

theorem stableRests {P : MainWindow → Prop} (own : ∀ (w : MainWindow) system, P w → P { w with system := system }) :
    Stable (threads host) (fun w => Rests host w ∧ P w) :=
  stableSwitch (fun _ here => coreSound here.1.1)
    (fun w _ _ ends here => ⟨⟨coreEnds ends here.1.1, endsIdle ends here.1.1.alive here.1.2⟩, own w _ here.2⟩)

theorem restsRefresh : Triple (threads host) (duty host) (Rests host) (refreshUi host)
    (fun _ w => Rests host w ∧ ShowsIdle w) := by
  have sound : ∀ w, Rests host w → Sound w.networkSwitch := fun _ here => coreSound here.1
  have never {x : SwitchState} (other : x ≠ .idle) {p : Slot Unit} {Q : Unit → MainWindow → Prop} :
      Triple (threads host) (duty host) (fun w => Rests host w ∧ w.networkSwitch.state = x) p Q :=
    fun w here => absurd (here.2.symm.trans here.1.2) other
  have enabled : Stable (threads host) (fun w => Rests host w ∧ enable MainWindow.idle w.ui = w.ui) :=
    stableRests (fun _ _ here => here)
  refine tripleBind (showTriple (Q := Rests host) stableIdle sound (fun _ => rfl)
    (fun w here => ⟨coreUi here.1 _, here.2⟩)) (fun _ => ?_)
  refine askTriple (R := Rests host) stableIdle sound (fun _ here same => ⟨here, same⟩) (fun _ here _ => here)
    (never (by decide)) ?_
  refine askTriple (R := Rests host) stableIdle sound (fun _ here same => ⟨here, same⟩) (fun _ here _ => here)
    (never (by decide)) ?_
  refine askTriple (Q := Rests host) (R := fun _ => False) stableIdle sound (fun _ here _ => here)
    (fun _ here other => other here.2) ?_ (fun _ impossible => impossible.elim)
  refine tripleBind (showTriple (Q := fun w => Rests host w ∧ enable MainWindow.idle w.ui = w.ui) stableIdle sound
    (fun _ => rfl) (fun w here => ⟨⟨coreUi here.1 _, here.2⟩, rfl⟩)) (fun _ => ?_)
  refine showTriple enabled (fun w here => sound w here.1) (fun _ => rfl) ?_
  intro w ⟨⟨core, rests⟩, controls⟩
  refine ⟨⟨⟨core.alive, core.first, core.second, core.listed, core.quit, core.served⟩, rests⟩, ?_, rfl, rfl⟩
  exact congrArg (fun ui => { ui with status := text "Status: Idle" }) controls

theorem restsInfo : Triple (threads host) (duty host) (fun w => Rests host w ∧ ShowsIdle w) infoRefreshUi
    (fun _ w => Rests host w ∧ ShowsIdle w ∧ w.info.acceptTimeout.enabled = false) := by
  have stable : Stable (threads host) (fun w => Rests host w ∧ ShowsIdle w) :=
    stableRests (fun _ _ here => ⟨here.controls, here.status, here.timer⟩)
  refine askTriple stable (fun _ here => coreSound here.1.1) (fun _ here _ => here)
    (R := fun _ => False) (fun _ here other => other here.1.2) ?_ (fun _ impossible => impossible.elim)
  refine showTriple stable (fun _ here => coreSound here.1.1) (fun _ => rfl) ?_
  intro w ⟨⟨core, rests⟩, shown⟩
  exact ⟨⟨⟨core.alive, core.first, core.second, core.listed, core.quit, core.served⟩, rests⟩,
    ⟨shown.controls, shown.status, shown.timer⟩, rfl⟩

theorem refreshCatches {t u : Program.Thread MainWindow} {turns : List (Program.Turn Event Call)}
    (reached : (program host).Reachable Initial t) (ready : (program host).enabled t (.call .refresh))
    (rests : t.shared.networkSwitch.state = .idle) (run : (program host).Run t (.call .refresh :: turns) u)
    (uncalled : ∀ c, Program.Turn.call c ∉ turns) (idle : u.program.Idle) :
    ShowsIdle u.shared ∧ u.shared.info.acceptTimeout.enabled = false := by
  have settled := dutifulIdle ready.1 (reachableKept reached).1
  have refreshed := tripleBind restsRefresh (fun _ => restsInfo) t.shared ⟨settled.core, rests⟩
  have stable : Stable (threads host)
      (fun w => Rests host w ∧ ShowsIdle w ∧ w.info.acceptTimeout.enabled = false) :=
    stableRests (fun _ _ here => ⟨⟨here.1.controls, here.1.status, here.1.timer⟩, here.2⟩)
  cases run with
  | cons _ rest =>
    have finished := dutifulUncalled stable rest uncalled refreshed
    exact (dutifulIdle idle finished).2

def benchStopped : MainWindow := (threads bench).step (after .startStop benchStarted) (.exitNetwork .first)

def benchGone : MainWindow := (threads bench).step benchStopped (.exitNetwork .second)

theorem benchGoneReached : (program bench).Reachable Initial ⟨benchGone, .done ()⟩ := by
  have told : (program bench).Reachable Initial ⟨after .startStop benchStarted, .done ()⟩ :=
    reachableCall (c := .startStop) benchStartedReached rfl rfl
  have stopped : (program bench).Reachable Initial ⟨benchStopped, .done ()⟩ :=
    reachableOther told ⟨trivial, le_refl _, ⟨⟨1⟩, true⟩, rfl, rfl⟩
  exact reachableOther stopped ⟨trivial, le_refl _, ⟨⟨2⟩, true⟩, rfl, rfl⟩

theorem refreshCatchesBench : benchGone.ui.startStopButton.caption = text "Stop" ∧
    ShowsIdle (after .refresh benchGone) := by
  have ends : Program.alone (slot bench .refresh) benchGone = some ((), after .refresh benchGone) := rfl
  have alone : ∃ n, (program bench).Run ⟨benchGone, slot bench .refresh⟩ (List.replicate n .own)
      ⟨after .refresh benchGone, .done ()⟩ := Program.aloneRun ends
  obtain ⟨n, own⟩ := alone
  have ready : (program bench).enabled ⟨benchGone, .done ()⟩ (.call .refresh) := ⟨trivial, rfl⟩
  have run : (program bench).Run ⟨benchGone, .done ()⟩ (.call .refresh :: List.replicate n .own)
      ⟨after .refresh benchGone, .done ()⟩ := .cons ready own
  refine ⟨rfl, (refreshCatches benchGoneReached ready rfl run (fun c member => ?_) trivial).1⟩
  exact nomatch List.eq_of_mem_replicate member

end Runs
end MainWindow
end PsipSwitch
