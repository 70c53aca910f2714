import PsipSwitch.WindowRuns

/-! A slot that nobody interrupts is a list of events of the switch, which the machine of
events takes one after the other. A slot that is interrupted goes by its acts, and this is
the case of it in which the other threads happen to wait. -/
namespace PsipSwitch
namespace MainWindow
open NetworkSwitch SharedStorage Lifecycle
open Sweep (Readings)
open Program (alone aloneBind aloneAwait aloneDeref dutifulIdle)

def chosenPair (w : MainWindow) : Option (Interface × Interface) :=
  if w.ui.interface1.currentIndex = -1 ∨ w.ui.interface2.currentIndex = -1 then none
  else if sizeT w.ui.interface1.currentIndex = sizeT w.ui.interface2.currentIndex then none
  else match w.interfaces[sizeT w.ui.interface1.currentIndex]?, w.interfaces[sizeT w.ui.interface2.currentIndex]? with
    | some first, some second => some (first, second)
    | _, _ => none

def startEvents (host : Host) (w : MainWindow) : List Event := match chosenPair w with
  | some (first, second) => [.startNetwork (host.name first) (host.name second)]
  | none => []

def events (host : Host) (w : MainWindow) : Call → List Event
  | .startStop => match w.networkSwitch.state with
      | .runningNetwork | .runningRest => [.stopNetwork, .stopRest]
      | .idle => startEvents host w
      | .stopping => []
  | .restStartStop => match w.networkSwitch.state with
      | .runningNetwork => [.startRest (int16 w.ui.port.value)]
      | .runningRest => [.stopRest]
      | _ => []
  | .resetMac r => [.maintain (.resetMac (r.after w.system.clock))]
  | .clearMac | .macsClear => [.maintain .clearMac]
  | .clearStats => [.maintain .clearStats]
  | .clearFirst => [.maintain (.clearStatsOf (w.firstModel.getD ⟨0⟩))]
  | .clearSecond => [.maintain (.clearStatsOf (w.secondModel.getD ⟨0⟩))]
  | .updateInterfaces _ r | .updateMac r => [.maintain (.updateMac (r.after w.system.clock))]
  | .updatePackets r => [.maintain (.updatePackets (r.after w.system.clock))]
  | .updateSessions r => [.maintain (.updateSessions (r.after w.system.clock))]
  | .applyTimeout => [.maintain (.setMacTimeout w.info.timeoutValue.value)]
  | .sessionsClear => [.maintain .clearSessions]
  | .refresh | .chooseFirst _ | .chooseSecond _ | .choosePort _ | .chooseTimeout _ => []

/- With nobody in between, the slot ends, and the switch has taken the events. -/
def Takes (host : Host) (p : Slot Unit) (w : MainWindow) (es : List Event) : Prop :=
  ∃ v, alone p w = some ((), v) ∧ (operated host).Run w.system es v.system

section Slots
variable {host : Host} {w : MainWindow}

theorem aloneState : alone state w = some (w.networkSwitch.state, w) := rfl

theorem aloneInterfaces (alive : Alive w.networkSwitch) :
    ∃ active, alone (interfacesOf host) w = some (active, w) ∧
      (active.1.networkInterface = ((w.networkSwitch.interface1.map (·.interface)).getD ⟨0⟩) ∧
        active.2.networkInterface = ((w.networkSwitch.interface2.map (·.interface)).getD ⟨0⟩)) := by
  have kept : onSwitch NetworkSwitch.interfaces w = w := by
    simp only [onSwitch, interfacesAlive alive]
    rfl
  simp only [interfacesOf, aloneBind, Program.aloneRead, Option.bind_some]
  rcases alive.network with ⟨one, two, _⟩ | ⟨h1, h2, started⟩
  · rw [one, two]
    exact ⟨(.blank, .blank), rfl, rfl, rfl⟩
  · rw [started.first, started.second]
    simp only [Program.aloneExchange, kept]
    exact ⟨_, rfl, rfl, rfl⟩

def Silent (p : Slot Unit) (w : MainWindow) : Prop := ∃ v, alone p w = some ((), v) ∧ v.system = w.system

theorem silentBind {f : MainWindow → MainWindow} {p : Slot Unit} (own : (f w).system = w.system)
    (rest : Silent p (f w)) : Silent (.write f >>= fun _ => p) w := by
  obtain ⟨v, ends, same⟩ := rest
  exact ⟨v, by simp only [aloneBind, Program.aloneWrite, Option.bind_some, ends], same.trans own⟩

theorem silentWrite {f : MainWindow → MainWindow} (own : (f w).system = w.system) : Silent (.write f) w := ⟨f w, rfl, own⟩

theorem silentAsk {x : SwitchState} {yes no : Slot Unit} (then_ : Silent yes w) (else_ : Silent no w) :
    Silent (state >>= fun answer => if answer = x then yes else no) w := by
  unfold Silent
  simp only [aloneBind, aloneState, Option.bind_some]
  split
  · exact then_
  · exact else_

theorem silentActive (alive : Alive w.networkSwitch) (c : Controls) (f : InterfaceData × InterfaceData → Ui → Ui) :
    Silent (do
      .write (onUi (enable c))
      let active ← interfacesOf host
      .write (onUi (f active))) w := by
  refine silentBind rfl ?_
  obtain ⟨active, ends, _⟩ := @aloneInterfaces host (w.onUi (enable c)) alive
  refine ⟨(w.onUi (enable c)).onUi (f active), ?_, rfl⟩
  simp only [aloneBind, ends, Option.bind_some, Program.aloneWrite]

theorem silentRefresh (alive : Alive w.networkSwitch) : Silent (refreshUi host) w := by
  have active (c : Controls) (f : InterfaceData × InterfaceData → Ui → Ui) :=
    @silentActive host (showInterfaces host w) alive c f
  refine silentBind rfl ?_
  refine silentAsk (active _ _) ?_
  refine silentAsk (active _ _) ?_
  refine silentAsk (silentBind rfl (silentWrite rfl)) ?_
  exact silentAsk (active _ _) ⟨_, rfl, rfl⟩

theorem takesSilent {p : Slot Unit} (silent : Silent p w) : Takes host p w [] := by
  obtain ⟨v, ends, same⟩ := silent
  exact ⟨v, ends, same ▸ .nil _⟩

theorem takesThen {α : Type} {p : Slot α} {q : α → Slot Unit} {a : α} {v : MainWindow} {es fs : List Event}
    (ends : alone p w = some (a, v)) (run : (operated host).Run w.system es v.system) (rest : Takes host (q a) v fs) :
    Takes host (p >>= q) w (es ++ fs) := by
  obtain ⟨u, finished, later⟩ := rest
  exact ⟨u, by simp only [aloneBind, ends, Option.bind_some, finished], Machine.runAppend run later⟩

theorem runMaintain (m : Maintenance) (order : w.system.clock ≤ m.begins.getD w.system.clock) :
    (operated host).Run w.system [.maintain m]
      ⟨{ w.networkSwitch with storage := maintain m w.storage }, m.ends.getD w.system.clock⟩ :=
  .cons ⟨⟨order, trivial⟩, trivial⟩ (.nil _)

theorem takesLocked (m : Maintenance) (begins : m.begins = none) (ends : m.ends = none) :
    Takes host (locked (maintain m)) w [.maintain m] := by
  refine ⟨onStorage (maintain m) w, rfl, ?_⟩
  have run := @runMaintain host w m (by rw [begins, Option.getD_none])
  rw [ends] at run
  exact run

theorem runAlive {s t : System} {es : List Event} (run : (operated host).Run s es t) (alive : Alive s.switch) :
    Alive t.switch :=
  Machine.runInvariant (m := operated host) (P := fun s => Alive s.switch)
    (fun _ _ ready here => reactAlive ready.1.2 ready.2 here) run alive

theorem takesShown {p : Slot Unit} {es : List Event} (alive : Alive w.networkSwitch) (takes : Takes host p w es) :
    Takes host (p >>= fun _ => refreshUi host) w es := by
  obtain ⟨v, ends, run⟩ := takes
  have rest : Takes host (refreshUi host) v [] := takesSilent (silentRefresh (runAlive run alive))
  have shown := takesThen (q := fun _ => refreshUi host) ends run rest
  rw [List.append_nil] at shown
  exact shown

theorem takesStopRest : Takes host stopRest w [.stopRest] := by
  have run : (operated host).Run w.system [.stopRest] ⟨w.networkSwitch.stopRest, w.system.clock⟩ :=
    .cons ⟨⟨le_refl _, trivial⟩, trivial⟩ (.nil _)
  unfold Takes
  simp only [stopRest, aloneBind, Program.aloneRead, Option.bind_some]
  cases served : w.networkSwitch.restThread with
  | none =>
    have same : w.networkSwitch.stopRest = w.networkSwitch := by simp only [NetworkSwitch.stopRest, served]
    rw [same] at run
    exact ⟨w, rfl, run⟩
  | some h =>
    have same : w.networkSwitch.stopRest = { w.networkSwitch with storage := RestHandle.signalStop w.storage } := by
      simp only [NetworkSwitch.stopRest, served, storage]
    rw [same] at run
    exact ⟨{ w.onStorage RestHandle.signalStop with quitSignalCatched := true }, rfl, run⟩

theorem takesStop (opened : w.networkSwitch.interface1.isSome ∧ w.networkSwitch.interface2.isSome) :
    Takes host stopNetworkThread w [.stopNetwork, .stopRest] := by
  obtain ⟨h1, first⟩ := Option.isSome_iff_exists.mp opened.1
  obtain ⟨h2, second⟩ := Option.isSome_iff_exists.mp opened.2
  let v := w.onStorage (NetworkHandle.signalStop h1.interface)
  have deref1 : alone (.deref (fun w => w.networkSwitch.interface1)) w = some (h1, w) := aloneDeref first
  have deref2 : alone (.deref (fun w => w.networkSwitch.interface2)) v = some (h2, v) := aloneDeref second
  have ends : alone stopNetwork w = some ((), v.onStorage (NetworkHandle.signalStop h2.interface)) := by
    simp only [stopNetwork, aloneBind, deref1, Option.bind_some, locked, Program.aloneWrite]
    change ((alone _ v).bind _) = _
    rw [deref2]
    rfl
  have same : w.networkSwitch.stopNetwork = { w.networkSwitch with
      storage := NetworkHandle.signalStop h2.interface (NetworkHandle.signalStop h1.interface w.storage) } := by
    simp only [NetworkSwitch.stopNetwork, first, second, stopHandle, storage]
  have run : (operated host).Run w.system [.stopNetwork] ⟨w.networkSwitch.stopNetwork, w.system.clock⟩ :=
    .cons ⟨⟨le_refl _, opened⟩, trivial⟩ (.nil _)
  rw [same] at run
  exact takesThen ends run takesStopRest

theorem takesStartRest {port : Int} (running : w.networkSwitch.state = .runningNetwork)
    (free : ¬ w.networkSwitch.RestLive) : Takes host (startRest port) w [.startRest (int16 port)] := by
  have ready : (!(w.networkSwitch.restThread.any (·.alive))) = true := by
    cases found : w.networkSwitch.restThread with
    | none => rfl
    | some h =>
      have dead : h.alive = false := by simpa using fun living => free ⟨h, found, living⟩
      simp [dead]
  let v := w.onSwitch (fun s => { s with restThread := some ⟨int16 port, false⟩ })
  have waited : alone (resetRest (int16 port)) w = some ((), v) := by
    rw [resetRest, aloneAwait]
    · simp only [onSwitch, noOrphan ready, v]
    · exact ready
  have started : w.networkSwitch.startRest (int16 port) = { w.networkSwitch with
      storage := RestHandle.start w.storage
      restThread := some ⟨int16 port, true⟩ } := by
    rw [startRestWaits running, Refinement.startJoined, storage]
  have run : (operated host).Run w.system [.startRest (int16 port)]
      ⟨w.networkSwitch.startRest (int16 port), w.system.clock⟩ := .cons ⟨⟨le_refl _, trivial⟩, trivial⟩ (.nil _)
  rw [started] at run
  refine ⟨onSwitch (fun s => { s with
    storage := RestHandle.start s.storage
    restThread := s.restThread.map (fun h => { h with alive := true }) }) { v with quitSignalCatched := false }, ?_, run⟩
  simp only [startRest, aloneState, running, ne_eq, not_true_eq_false, if_false, aloneBind, waited, Option.bind_some,
    Program.aloneWrite]

theorem takesStartNetwork {first second : Interface} (alive : Alive w.networkSwitch) (idle : w.networkSwitch.state = .idle)
    (named1 : host.byName (host.name first) = some first) (named2 : host.byName (host.name second) = some second)
    (different : first ≠ second) : Takes host (startNetwork host (host.name first) (host.name second)) w
      [.startNetwork (host.name first) (host.name second)] := by
  have still := ((idleIff alive).mp idle).2
  have ready1 : (!(w.networkSwitch.interface1.any (·.alive))) = true :=
    anyAlive (fun h found => by simpa using fun living => still (.inl ⟨.first, h, found, living⟩))
  let v1 := w.onSwitch (fun s => { s with interface1 := some ⟨first, false⟩ })
  have ready2 : (!(v1.networkSwitch.interface2.any (·.alive))) = true :=
    anyAlive (fun h found => by simpa using fun living => still (.inl ⟨.second, h, found, living⟩))
  let v2 := v1.onSwitch (fun s => { s with interface2 := some ⟨second, false⟩ })
  have waited1 : alone (resetFirst first) w = some ((), v1) := by
    rw [resetFirst, aloneAwait]
    · simp only [onSwitch, noOrphan ready1, v1]
    · exact ready1
  have waited2 : alone (resetSecond second) v1 = some ((), v2) := by
    rw [resetSecond, aloneAwait]
    · simp only [onSwitch, noOrphan ready2, v2]
    · exact ready2
  have started := startNetworkIdle idle named1 named2
  have run : (operated host).Run w.system [.startNetwork (host.name first) (host.name second)]
      ⟨(Fallible.exec (NetworkSwitch.startNetwork host (host.name first) (host.name second)) w.networkSwitch).2,
        w.system.clock⟩ := .cons ⟨⟨le_refl _, trivial⟩, first, second, named1, named2, different⟩ (.nil _)
  rw [started, replaceSecondWaits, replaceFirstWaits] at run
  simp only [startSecond, startFirst, resetStorage, Refinement.resetJoined] at run
  refine ⟨onSwitch (startSecond second) (onSwitch (startFirst first) (onStorage SharedStorage.reset v2)), ?_, run⟩
  simp only [startNetwork, aloneState, idle, ne_eq, not_true_eq_false, if_false, aloneBind, networkInterface, named1,
    named2, Program.alonePure, waited1, waited2, Option.bind_some, locked, Program.aloneWrite]

theorem chosenNamed {first second : Interface} (listed : Listed host w.interfaces)
    (chosen : chosenPair w = some (first, second)) :
    host.byName (host.name first) = some first ∧ host.byName (host.name second) = some second ∧ first ≠ second := by
  unfold chosenPair at chosen
  split at chosen
  · contradiction
  · split at chosen
    · contradiction
    · rename_i apart
      split at chosen
      · rename_i one two at1 at2
        cases chosen
        refine ⟨listed.2 first (List.mem_of_getElem? at1), listed.2 second (List.mem_of_getElem? at2), ?_⟩
        rintro rfl
        have bound := (List.getElem?_eq_some_iff.mp at1).1
        exact apart ((List.getElem?_inj bound listed.1).mp (at1.trans at2.symm))
      · contradiction

theorem aloneChosen : alone (startNetworkThread host) w = match chosenPair w with
    | some (first, second) => alone (do
        startNetwork host (host.name first) (host.name second)
        .write (fun w => { w with firstModel := some first })
        .write (fun w => { w with secondModel := some second })
        refreshUi host
        .write (fun w => { w with threadTimer := true })) w
    | none => some ((), w) := by
  simp only [startNetworkThread, aloneBind, Program.aloneRead, Option.bind_some, id_eq, chosenPair]
  split
  · rfl
  · split
    · rfl
    · cases w.interfaces[sizeT w.ui.interface1.currentIndex]? with
      | none => rfl
      | some first => cases w.interfaces[sizeT w.ui.interface2.currentIndex]? with
        | none => rfl
        | some second => simp only [aloneBind]

theorem takesStart (alive : Alive w.networkSwitch) (listed : Listed host w.interfaces)
    (idle : w.networkSwitch.state = .idle) : Takes host (startNetworkThread host) w (startEvents host w) := by
  unfold Takes startEvents
  rw [aloneChosen]
  cases chosen : chosenPair w with
  | none => exact ⟨w, rfl, .nil _⟩
  | some pair =>
    obtain ⟨first, second⟩ := pair
    obtain ⟨named1, named2, different⟩ := chosenNamed listed chosen
    obtain ⟨v, ends, run⟩ := takesStartNetwork alive idle named1 named2 different
    have after : Alive ({ v with firstModel := some first, secondModel := some second } : MainWindow).networkSwitch :=
      runAlive run alive
    obtain ⟨u, shown, same⟩ := @silentRefresh host _ after
    refine ⟨{ u with threadTimer := true }, ?_, same ▸ run⟩
    simp only [aloneBind, ends, shown, Option.bind_some, Program.aloneWrite]

theorem aloneStartStop : alone (onStartStopButtonClicked host) w = alone (match w.networkSwitch.state with
    | .runningNetwork | .runningRest => stopNetworkThread
    | .idle => startNetworkThread host
    | .stopping => pure ()) w := by
  cases answer : w.networkSwitch.state <;>
    simp only [onStartStopButtonClicked, reduceCtorEq, if_false, if_true, aloneBind, aloneState, Option.bind_some, answer]

theorem aloneRestStartStop : alone (onRestStartStopButtonClicked host) w = alone (match w.networkSwitch.state with
    | .runningNetwork => startRestThread host
    | .runningRest => stopRest
    | _ => pure ()) w := by
  cases answer : w.networkSwitch.state <;>
    simp only [onRestStartStopButtonClicked, reduceCtorEq, if_false, if_true, aloneBind, aloneState, Option.bind_some,
      answer]

theorem startStopTakes (settled : Settled host w) :
    Takes host (onStartStopButtonClicked host) w (events host w .startStop) := by
  unfold Takes
  rw [aloneStartStop, events]
  cases answer : w.networkSwitch.state with
  | idle => exact takesStart settled.core.alive settled.core.listed answer
  | runningNetwork => exact takesStop (settledHandles settled (.inl answer))
  | runningRest => exact takesStop (settledHandles settled (.inr answer))
  | stopping => exact ⟨w, rfl, .nil _⟩

theorem restStartStopTakes (settled : Settled host w)
    (free : w.networkSwitch.state = .runningNetwork → ¬ w.networkSwitch.RestLive) :
    Takes host (onRestStartStopButtonClicked host) w (events host w .restStartStop) := by
  unfold Takes
  rw [aloneRestStartStop, events]
  cases answer : w.networkSwitch.state with
  | runningNetwork => exact takesShown settled.core.alive (takesStartRest answer (free answer))
  | runningRest => exact takesStopRest
  | idle => exact ⟨w, rfl, .nil _⟩
  | stopping => exact ⟨w, rfl, .nil _⟩

theorem takesClear (settled : Settled host w) {pick : InterfaceData × InterfaceData → Interface} {net : Interface}
    (picked : ∀ active : InterfaceData × InterfaceData,
      active.1.networkInterface = w.firstModel.getD ⟨0⟩ → active.2.networkInterface = w.secondModel.getD ⟨0⟩ →
      pick active = net) :
    Takes host (do
      let active ← interfacesOf host
      locked (NetworkSwitch.clearStatsOf (pick active))
      refreshUi host) w [.maintain (.clearStatsOf net)] := by
  obtain ⟨active, ends, first, second⟩ := @aloneInterfaces host w settled.core.alive
  rw [← settled.core.first] at first
  rw [← settled.core.second] at second
  have rest : Takes host (locked (NetworkSwitch.clearStatsOf (pick active)) >>= fun _ => refreshUi host) w
      [.maintain (.clearStatsOf net)] := by
    rw [picked active first second]
    exact takesShown settled.core.alive (takesLocked (.clearStatsOf net) rfl rfl)
  have none : (operated host).Run w.system [] w.system := .nil _
  exact takesThen ends none rest

theorem updateInterfacesTakes (settled : Settled host w) {current : List Interface} {r : Readings} (order : 0 ≤ r.first) :
    Takes host (updateInterfaces host current r) w [.maintain (.updateMac (r.after w.system.clock))] := by
  have updates (v : MainWindow) (same : v.system = w.system) :
      Takes host (.write (sweeping NetworkSwitch.updateMac r)) v [.maintain (.updateMac (r.after w.system.clock))] := by
    refine ⟨sweeping NetworkSwitch.updateMac r v, rfl, ?_⟩
    rw [← same]
    exact runMaintain (.updateMac (r.after v.system.clock)) (Int.le_add_of_nonneg_right order)
  by_cases new : current ≠ w.interfaces
  · obtain ⟨v, shown, same⟩ := @silentRefresh host { w with interfaces := current } settled.core.alive
    obtain ⟨u, ends, run⟩ := updates v same
    refine ⟨u, ?_, same ▸ run⟩
    simp only [updateInterfaces, aloneBind, Program.aloneRead, Option.bind_some, if_pos new, Program.aloneWrite, shown]
    exact ends
  · obtain ⟨u, ends, run⟩ := updates w rfl
    refine ⟨u, ?_, run⟩
    simp only [updateInterfaces, aloneBind, Program.aloneRead, Option.bind_some, if_neg new]
    exact ends

theorem refreshTakes (settled : Settled host w) : Takes host (slot host .refresh) w [] := by
  obtain ⟨v, shown, same⟩ := @silentRefresh host w settled.core.alive
  have info : Silent infoRefreshUi v := silentAsk (silentWrite rfl) (silentBind rfl (silentWrite rfl))
  have none : (operated host).Run w.system [] v.system := same ▸ .nil _
  exact takesThen shown none (takesSilent info)

theorem slotTakes (settled : Settled host w) {c : Call} (ready : callable host w c)
    (free : w.networkSwitch.state = .runningNetwork → ¬ w.networkSwitch.RestLive) :
    Takes host (slot host c) w (events host w c) := by
  have alive := settled.core.alive
  cases c with
  | startStop => exact startStopTakes settled
  | restStartStop => exact restStartStopTakes settled free
  | resetMac r =>
    exact takesShown alive ⟨sweeping NetworkSwitch.resetMac r w, rfl,
      runMaintain (.resetMac (r.after w.system.clock)) (Int.le_add_of_nonneg_right ready)⟩
  | clearMac => exact takesShown alive (takesLocked .clearMac rfl rfl)
  | clearStats => exact takesShown alive (takesLocked .clearStats rfl rfl)
  | clearFirst => exact takesClear settled (fun _ first _ => first)
  | clearSecond => exact takesClear settled (fun _ _ second => second)
  | updateInterfaces current r => exact updateInterfacesTakes settled ready.2
  | refresh => exact refreshTakes settled
  | updateMac r => exact ⟨_, rfl, runMaintain (.updateMac (r.after w.system.clock)) (Int.le_add_of_nonneg_right ready)⟩
  | updatePackets r =>
    exact ⟨_, rfl, runMaintain (.updatePackets (r.after w.system.clock)) (Int.le_add_of_nonneg_right ready)⟩
  | updateSessions r =>
    exact ⟨_, rfl, runMaintain (.updateSessions (r.after w.system.clock)) (Int.le_add_of_nonneg_right ready)⟩
  | applyTimeout => exact takesLocked (.setMacTimeout w.info.timeoutValue.value) rfl rfl
  | macsClear => exact takesLocked .clearMac rfl rfl
  | sessionsClear => exact takesLocked .clearSessions rfl rfl
  | chooseFirst index => exact takesSilent (silentWrite rfl)
  | chooseSecond index => exact takesSilent (silentWrite rfl)
  | choosePort value => exact takesSilent (silentWrite rfl)
  | chooseTimeout value => exact takesSilent (silentWrite rfl)

end Slots

theorem slotsAtomic {host : Host} {t : Program.Thread MainWindow} {c : Call}
    (reached : (program host).Reachable Initial t) (ready : (program host).enabled t (.call c))
    (free : t.shared.networkSwitch.state = .runningNetwork → ¬ t.shared.networkSwitch.RestLive) :
    ∃ v, alone (slot host c) t.shared = some ((), v) ∧
      (operated host).Run t.shared.system (events host t.shared c) v.system :=
  slotTakes (dutifulIdle ready.1 (reachableKept reached).1) ready.2 free

theorem slotsAtomicBench : ∃ v, alone (slot bench .startStop) benchChosen = some ((), v) ∧
    (operated bench).Run benchChosen.system [.startNetwork (text "eth1") (text "eth2")] v.system :=
  slotsAtomic (c := .startStop) benchChosenReached ⟨trivial, rfl⟩ (fun running => nomatch running)

end MainWindow
end PsipSwitch
