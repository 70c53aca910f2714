import PsipSwitch.WindowSlots

/-! The two starts, act by act. Before the first thread is announced nobody else moves, and
from then on the table grows under the eyes of a thread that is already receiving. -/
namespace PsipSwitch
namespace MainWindow
open NetworkSwitch SharedStorage Lifecycle
open Program (Stable Triple tripleMono tripleBind triplePure tripleIte tripleGiven tripleRead tripleWrite tripleAwait)

section Still
variable {host : Host}

structure Paused (host : Host) (w : MainWindow) : Prop where
  still : ¬ SomeLive w.networkSwitch
  listed : Listed host w.interfaces
  rest : RestTells w.networkSwitch
  running : w.storage.restThread.running = false

theorem threadLive {w : MainWindow} {e : Event} (ready : (threads host).enabled w e) : SomeLive w.networkSwitch := by
  obtain ⟨thread, _, possible⟩ := ready
  cases e with
  | receive p now packet => exact .inl ⟨p, possible⟩
  | request now draws request => exact .inr (.inl possible)
  | exitNetwork p => exact .inl ⟨p, possible⟩
  | exitRest => exact .inr (.inl possible)
  | _ => exact thread.elim

theorem stablePaused {P : MainWindow → Prop} (paused : ∀ w, P w → Paused host w) : Stable (threads host) P :=
  Program.stableStill (fun w here _ ready => (paused w here).still (threadLive ready))

theorem waitedStill {s : NetworkSwitch} (still : ¬ SomeLive s) : s.orphans = 0 := by
  by_contra left
  exact still (.inr (.inr (Nat.pos_of_ne_zero left)))

theorem soundStill {s : NetworkSwitch} (still : ¬ SomeLive s) : Sound s where
  network p h found living := absurd (.inl ⟨p, h, found, living⟩) still
  different p _ h _ found _ living := absurd (.inl ⟨p, h, found, living⟩) still
  rest h found living := absurd (.inr (.inl ⟨h, found, living⟩)) still
  waited := waitedStill still

theorem pausedOf {w : MainWindow} (core : Core host w) (idle : w.networkSwitch.state = .idle) : Paused host w :=
  have quiet := (idleIff core.alive).mp idle
  ⟨quiet.2, core.listed, core.alive.rest, quiet.1⟩

theorem anyAlive {handle : Option NetworkThreadHandle} (ended : ∀ h, handle = some h → h.alive = false) :
    (!(handle.any (·.alive))) = true := by
  cases handle with
  | none => rfl
  | some h => simp [ended h rfl]

theorem noOrphan {α : Type} {handle : Option α} {alive : α → Bool} {orphans : Nat}
    (ended : (!(handle.any alive)) = true) : orphans + (handle.any alive).toNat = orphans := by
  have none : handle.any alive = false := by simpa using ended
  rw [none, Bool.toNat_false, Nat.add_zero]

theorem replacedStill {s : NetworkSwitch} {p : Port} {t : NetworkSwitch} (still : ¬ SomeLive s)
    (dead : ∀ h, t.handleAt p = some h → h.alive = false) (other : ∀ q, q ≠ p → t.handleAt q = s.handleAt q)
    (rest : t.restThread = s.restThread) (left : t.orphans = s.orphans) : ¬ SomeLive t := by
  rintro (⟨q, h, found, living⟩ | ⟨h, found, living⟩ | more)
  · by_cases here : q = p
    · subst here
      rw [dead h found] at living
      contradiction
    · rw [other q here] at found
      exact still (.inl ⟨q, h, found, living⟩)
  · rw [rest] at found
    exact still (.inr (.inl ⟨h, found, living⟩))
  · exact still (.inr (.inr (left ▸ more)))

end Still

section Launch
variable {host : Host} {first second : Interface}

structure Half (host : Host) (first second : Interface) (w : MainWindow) : Prop where
  handle1 : ∃ h, w.networkSwitch.interface1 = some h ∧ h.interface = first ∧ Tells w.storage h
  handle2 : w.networkSwitch.interface2 = some ⟨second, false⟩
  table : ∀ net, w.storage.Registered net ↔ net = first
  running : (w.storage.interface first).control.running = true
  still : ¬ w.networkSwitch.RestLive
  listed : Listed host w.interfaces
  rest : RestTells w.networkSwitch
  off : w.storage.restThread.running = false
  waited : w.networkSwitch.orphans = 0

theorem halfSound {w : MainWindow} (half : Half host first second w) : Sound w.networkSwitch := by
  obtain ⟨h, found, same, tells⟩ := half.handle1
  have dead : ∀ k, w.networkSwitch.handleAt .second = some k → k.alive = false := by
    intro k there
    cases Option.some.inj (half.handle2.symm.trans there)
    rfl
  have one : w.networkSwitch.handleAt .first = some h := found
  refine ⟨?_, ?_, fun k there living => absurd ⟨k, there, living⟩ half.still, half.waited⟩
  · intro p k there living
    cases p with
    | first =>
      cases Option.some.inj (one.symm.trans there)
      exact ⟨(half.table h.interface).mpr same, tells⟩
    | second => exact absurd living (by simp [dead k there])
  · intro p q k l thereP thereQ livingP livingQ _
    cases p with
    | first =>
      cases q with
      | first => rfl
      | second => exact absurd livingQ (by simp [dead l thereQ])
    | second => exact absurd livingP (by simp [dead k thereP])

theorem stableHalf : Stable (threads host) (Half host first second) := by
  refine stableSwitch (fun _ => halfSound) (fun w s clock ends half => ?_)
  obtain ⟨h, found, same, tells⟩ := half.handle1
  obtain ⟨k, there, same', _, tells'⟩ := ends.tells .first h found
  obtain ⟨l, thereL, sameL, aliveL, _⟩ := ends.tells .second ⟨second, false⟩ half.handle2
  have dead : l.alive = false := by
    by_contra living
    exact nomatch aliveL (by simpa using living)
  refine ⟨⟨k, there, same'.trans same, tells' tells⟩, ?_, ?_, ?_, ?_, half.listed, ends.restTells half.rest,
    ends.restRunning.trans half.off, ends.orphans.trans half.waited⟩
  · rcases l with ⟨net, alive⟩
    subst sameL dead
    exact thereL
  · exact fun net => (endsRegistered ends net).trans (half.table net)
  · exact (ends.running first).trans half.running
  · exact fun live => half.still (ends.restLive live).1

/- Both are announced, and nobody has been told to stop: such a switch is running, unless
its threads have gone on their own. -/
def Starting (w : MainWindow) : Prop :=
  w.storage.restThread.running = false ∧ ¬ w.networkSwitch.RestLive ∧
    ∀ net, w.storage.Registered net → (w.storage.interface net).control.running = true

theorem scanRunning {es : List (Interface × InterfaceEntry)} (running : ∀ it ∈ es, it.2.control.running = true) :
    scan es = none ∨ scan es = some .runningNetwork := by
  induction es with
  | nil => exact .inl rfl
  | cons it rest ih =>
    obtain ⟨here, tail⟩ := List.forall_mem_cons.mp running
    simp only [scan, here, Bool.true_eq_false, false_and, if_false, true_and]
    split
    · exact .inr rfl
    · exact ih tail

theorem lagStarting : Lag host Starting where
  ends w s clock core ends starting := by
    refine ⟨ends.restRunning.trans starting.1, fun live => starting.2.1 (ends.restLive live).1, fun net registered => ?_⟩
    exact (ends.running net).trans (starting.2.2 net ((endsRegistered ends net).mp registered))
  shown w ui starting := starting
  answer w core starting other := by
    obtain ⟨off, still, running⟩ := starting
    refine (idleIff core.alive).mpr ⟨off, ?_⟩
    have entries := (entriesIff (P := fun entry => entry.control.running = true)).mpr running
    have notRunning : ¬ w.networkSwitch.storage.restThread.running = true := by
      have off' : w.networkSwitch.storage.restThread.running = false := off
      simp [off']
    rcases scanRunning entries with none | busy
    · rw [someLiveIff core.alive.waited]
      rintro (network | rest)
      · exact (scanLive core.alive).mp none network
      · exact still rest
    · have answer : w.networkSwitch.state = .runningNetwork := by
        simp only [NetworkSwitch.state, if_neg notRunning]
        rw [show scan w.networkSwitch.storage.interfaces.entries = some .runningNetwork from busy]
      exact absurd answer other

structure Launched (host : Host) (first second : Interface) (w : MainWindow) : Prop where
  alive : Alive w.networkSwitch
  held1 : Held .first first w
  held2 : Held .second second w
  listed : Listed host w.interfaces
  starting : Starting w

theorem launchedEnds {w : MainWindow} {s : NetworkSwitch} {clock : Int} (ends : Ends w.networkSwitch s)
    (launched : Launched host first second w) : Launched host first second { w with system := ⟨s, clock⟩ } := by
  refine ⟨endsAlive ends launched.alive, heldEnds w s clock ends launched.held1, heldEnds w s clock ends launched.held2,
    launched.listed, ends.restRunning.trans launched.starting.1, fun live => launched.starting.2.1 (ends.restLive live).1, ?_⟩
  intro net registered
  exact (ends.running net).trans (launched.starting.2.2 net ((endsRegistered ends net).mp registered))

theorem launchedCore {w : MainWindow} (launched : Launched host first second w) (one : w.firstModel = some first)
    (two : w.secondModel = some second) : Core host w := by
  refine ⟨launched.alive, one.trans launched.held1.symm, two.trans launched.held2.symm, launched.listed,
    fun live => absurd live launched.starting.2.1, fun _ => ?_⟩
  obtain ⟨h1, found1, _⟩ := Option.map_eq_some_iff.mp launched.held1
  obtain ⟨h2, found2, _⟩ := Option.map_eq_some_iff.mp launched.held2
  exact ⟨Option.isSome_iff_exists.mpr ⟨h1, found1⟩, Option.isSome_iff_exists.mpr ⟨h2, found2⟩⟩

theorem networkInterfaceTriple {P : MainWindow → Prop} {name : Text} {net : Interface}
    (named : host.byName name = some net) :
    Triple (threads host) (duty host) P (networkInterface host name) (fun found w => found = net ∧ P w) := by
  simp only [networkInterface, named]
  exact triplePure (fun _ here => ⟨rfl, here⟩)

theorem resetFirstTriple :
    Triple (threads host) (duty host) (fun w => Core host w ∧ w.networkSwitch.state = .idle) (resetFirst first)
      (fun _ w => Paused host w ∧ w.networkSwitch.interface1 = some ⟨first, false⟩) := by
  have paused : ∀ w, Core host w ∧ w.networkSwitch.state = .idle → Paused host w := fun w here => pausedOf here.1 here.2
  have still : ∀ w, Paused host w → (!(w.networkSwitch.interface1.any (·.alive))) = true →
      ¬ SomeLive { w.networkSwitch with
        interface1 := some ⟨first, false⟩
        orphans := w.networkSwitch.orphans + (w.networkSwitch.interface1.any (·.alive)).toNat } := by
    intro w here ended
    refine replacedStill (p := .first) here.still ?_ ?_ rfl (noOrphan ended)
    · intro h found
      cases Option.some.inj found
      rfl
    · intro q other
      cases q with
      | first => exact absurd rfl other
      | second => rfl
  refine tripleAwait (stablePaused paused) ?_ ?_ ?_
  · intro w here late
    have ended : ∀ h, w.networkSwitch.interface1 = some h → h.alive = false := by
      intro h found
      by_contra living
      exact (paused w here).still (.inl ⟨.first, h, found, by simpa using living⟩)
    rw [anyAlive ended] at late
    contradiction
  · exact fun w here ended => actsSilent rfl (soundStill (still w (paused w here) ended))
  · intro w here ended
    have before := paused w here
    exact ⟨⟨still w before ended, before.listed, before.rest, before.running⟩, rfl⟩

theorem resetSecondTriple :
    Triple (threads host) (duty host) (fun w => Paused host w ∧ w.networkSwitch.interface1 = some ⟨first, false⟩)
      (resetSecond second)
      (fun _ w => Paused host w ∧ w.networkSwitch.interface1 = some ⟨first, false⟩ ∧
        w.networkSwitch.interface2 = some ⟨second, false⟩) := by
  have still : ∀ w, Paused host w → (!(w.networkSwitch.interface2.any (·.alive))) = true →
      ¬ SomeLive { w.networkSwitch with
        interface2 := some ⟨second, false⟩
        orphans := w.networkSwitch.orphans + (w.networkSwitch.interface2.any (·.alive)).toNat } := by
    intro w here ended
    refine replacedStill (p := .second) here.still ?_ ?_ rfl (noOrphan ended)
    · intro h found
      cases Option.some.inj found
      rfl
    · intro q other
      cases q with
      | first => rfl
      | second => exact absurd rfl other
  refine tripleAwait (stablePaused (fun _ here => here.1)) ?_ ?_ ?_
  · intro w here late
    have ended : ∀ h, w.networkSwitch.interface2 = some h → h.alive = false := by
      intro h found
      by_contra living
      exact here.1.still (.inl ⟨.second, h, found, by simpa using living⟩)
    rw [anyAlive ended] at late
    contradiction
  · exact fun w here ended => actsSilent rfl (soundStill (still w here.1 ended))
  · exact fun w here ended => ⟨⟨still w here.1 ended, here.1.listed, here.1.rest, here.1.running⟩, here.2, rfl⟩

theorem resetTriple :
    Triple (threads host) (duty host) (fun w => Paused host w ∧ w.networkSwitch.interface1 = some ⟨first, false⟩ ∧
        w.networkSwitch.interface2 = some ⟨second, false⟩) (locked SharedStorage.reset)
      (fun _ w => Paused host w ∧ w.networkSwitch.interface2 = some ⟨second, false⟩ ∧ w.storage.interfaces.keys = []) := by
  refine tripleWrite (stablePaused (fun _ here => here.1)) ?_ ?_
  · exact fun w here => actsOne .reset trivial rfl rfl rfl rfl (soundStill here.1.still)
  · exact fun w here => ⟨⟨here.1.still, here.1.listed, here.1.rest, here.1.running⟩, here.2.2, rfl⟩

theorem startedRegistered {s : SharedStorage} {net other : Interface} :
    (NetworkHandle.start net s).Registered other ↔ other = net ∨ s.Registered other := by
  constructor
  · exact registeredOfSet
  · rintro (rfl | before)
    · exact setInterfaceRegisters _ _ _
    · exact setInterfaceRegistered _ before

theorem startFirstTriple :
    Triple (threads host) (duty host)
      (fun w => Paused host w ∧ w.networkSwitch.interface2 = some ⟨second, false⟩ ∧ w.storage.interfaces.keys = [])
      (.write (onSwitch (startFirst first))) (fun _ => Half host first second) := by
  have half : ∀ w, Paused host w ∧ w.networkSwitch.interface2 = some ⟨second, false⟩ ∧ w.storage.interfaces.keys = [] →
      Half host first second (onSwitch (startFirst first) w) := by
    intro w ⟨paused, two, keys⟩
    refine ⟨⟨⟨first, true⟩, rfl, rfl, ?_⟩, two, ?_, ?_, fun live => paused.still (.inr (.inl live)), paused.listed,
      paused.rest, paused.running, ?_⟩
    · change ((NetworkHandle.start first w.storage).interface first).control.finished = false
      rw [NetworkHandle.start, setInterfaceSame]
    · intro net
      have none : ¬ w.storage.Registered net := by simp [Registered, keys]
      exact startedRegistered.trans (or_iff_left none)
    · change ((NetworkHandle.start first w.storage).interface first).control.running = true
      rw [NetworkHandle.start, setInterfaceSame]
    · have waited : w.networkSwitch.orphans = 0 := waitedStill paused.still
      exact waited
  refine tripleWrite (stablePaused (fun _ here => here.1)) ?_ half
  exact fun w here => actsOne (.start first) trivial rfl rfl rfl rfl (halfSound (half w here))

theorem startSecondLaunched (different : first ≠ second) {w : MainWindow} (half : Half host first second w) :
    Launched host first second (onSwitch (startSecond second) w) := by
  obtain ⟨h, found, same, tells⟩ := half.handle1
  have apart : h.interface ≠ second := fun here => different (same.symm.trans here)
  have kept : ∀ net, net ≠ second →
      (NetworkHandle.start second w.storage).interface net = w.storage.interface net := by
    intro net other
    simp only [NetworkHandle.start, SharedStorage.interface, setInterfaceFindOther _ _ other]
  have own : (NetworkHandle.start second w.storage).interface second = ⟨⟨true, false⟩, true, []⟩ := by
    rw [NetworkHandle.start, setInterfaceSame]
  refine ⟨⟨.inr ⟨h, ⟨second, true⟩, found, rfl, apart, ?_, ?_, ?_⟩, half.rest, half.waited⟩, ?_, rfl, half.listed,
    half.off, half.still, ?_⟩
  · intro net
    have table : w.networkSwitch.storage.Registered net ↔ net = first := half.table net
    refine startedRegistered.trans ?_
    rw [table, same]
    exact Or.comm
  · change ((NetworkHandle.start second w.storage).interface h.interface).control.finished = !h.alive
    rw [kept _ apart]
    exact tells
  · change ((NetworkHandle.start second w.storage).interface second).control.finished = false
    rw [own]
  · exact (congrArg (Option.map (·.interface)) found).trans (congrArg some same)
  · intro net registered
    change ((NetworkHandle.start second w.storage).interface net).control.running = true
    rcases startedRegistered.mp registered with rfl | before
    · rw [own]
    · cases (half.table net).mp before
      rw [kept _ different]
      exact half.running

theorem startSecondTriple (different : first ≠ second) :
    Triple (threads host) (duty host) (Half host first second) (.write (onSwitch (startSecond second)))
      (fun _ => Launched host first second) := by
  refine tripleWrite stableHalf ?_ (fun _ => startSecondLaunched different)
  intro w half
  exact actsOne (.start second) trivial rfl rfl rfl rfl (soundAlive (startSecondLaunched different half).alive)

theorem startNetworkTriple {name1 name2 : Text} (named1 : host.byName name1 = some first)
    (named2 : host.byName name2 = some second) (different : first ≠ second) :
    Triple (threads host) (duty host) (fun w => Core host w ∧ w.networkSwitch.state = .idle)
      (startNetwork host name1 name2) (fun _ => Launched host first second) := by
  refine unlessTriple stableIdle (fun _ here => coreSound here.1) (fun _ here _ => here)
    (fun _ here other => absurd here.2 other) ?_
  refine tripleBind (networkInterfaceTriple named1) (fun net1 => tripleGiven ?_)
  rintro rfl
  refine tripleBind resetFirstTriple (fun _ => ?_)
  refine tripleBind (networkInterfaceTriple named2) (fun net2 => tripleGiven ?_)
  rintro rfl
  refine tripleBind resetSecondTriple (fun _ => ?_)
  refine tripleBind resetTriple (fun _ => ?_)
  refine tripleBind startFirstTriple (fun _ => ?_)
  exact startSecondTriple different

theorem launchTriple {first second : Interface} (named1 : host.byName (host.name first) = some first)
    (named2 : host.byName (host.name second) = some second) (different : first ≠ second) :
    Triple (threads host) (duty host) (fun w => Settled host w ∧ w.networkSwitch.state = .idle)
      (do
        startNetwork host (host.name first) (host.name second)
        .write (fun w => { w with firstModel := some first })
        .write (fun w => { w with secondModel := some second })
        refreshUi host
        .write (fun w => { w with threadTimer := true })) (fun _ => Settled host) := by
  have launched : Stable (threads host) (Launched host first second) :=
    stableSwitch (fun _ here => soundAlive here.alive) (fun _ _ _ => launchedEnds)
  have modelled : Stable (threads host) (fun w => Launched host first second w ∧ w.firstModel = some first) :=
    stableSwitch (fun _ here => soundAlive here.1.alive) (fun _ _ _ ends here => ⟨launchedEnds ends here.1, here.2⟩)
  refine tripleBind (tripleMono (startNetworkTriple named1 named2 different) (fun _ here => ⟨here.1.core, here.2⟩)
    (fun _ _ after => after)) (fun _ => ?_)
  refine tripleBind (showTriple (Q := fun w => Launched host first second w ∧ w.firstModel = some first) launched
    (fun _ here => soundAlive here.alive) (fun _ => rfl) ?_) (fun _ => ?_)
  · exact fun w here => ⟨⟨here.alive, here.held1, here.held2, here.listed, here.starting⟩, rfl⟩
  refine tripleBind (showTriple (Q := fun w => Core host w ∧ Starting w) modelled
    (fun _ here => soundAlive here.1.alive) (fun _ => rfl) ?_) (fun _ => ?_)
  · intro w ⟨here, one⟩
    have shown : Launched host first second { w with secondModel := some second } :=
      ⟨here.alive, here.held1, here.held2, here.listed, here.starting⟩
    exact ⟨launchedCore shown one rfl, here.starting⟩
  refine tripleBind (tripleMono (refreshTriple lagStarting) (fun _ here => ⟨here.1, .inr here.2, .inr here.2⟩)
    (fun _ _ after => after)) (fun _ => ?_)
  refine showTriple (stableCaught lagStarting) (fun _ here => coreSound here.1) (fun _ => rfl) ?_
  intro w ⟨core, honest, _⟩
  exact ⟨⟨core.alive, core.first, core.second, core.listed, core.quit, core.served⟩, honest, .inl rfl⟩

theorem startNetworkThreadTriple :
    Triple (threads host) (duty host) (fun w => Settled host w ∧ w.networkSwitch.state = .idle)
      (startNetworkThread host) (fun _ => Settled host) := by
  have settledIdle : Stable (threads host) (fun w => Settled host w ∧ w.networkSwitch.state = .idle) :=
    stableSwitch (fun _ here => coreSound here.1.core)
      (fun _ _ _ ends here => ⟨settledEnds ends here.1, endsIdle ends here.1.core.alive here.2⟩)
  refine tripleBind (Q := fun v w => Listed host v.interfaces ∧ Settled host w ∧ w.networkSwitch.state = .idle)
    (tripleRead settledIdle (fun w here => actsSame rfl (coreSound here.1.core)) (fun w here => ⟨here.1.core.listed, here⟩)) ?_
  refine fun v => tripleGiven (fun listed => ?_)
  refine tripleIte (fun _ => triplePure (fun _ here => here.1)) (fun _ => ?_)
  refine tripleIte (fun _ => triplePure (fun _ here => here.1)) (fun apart => ?_)
  split
  · rename_i first second at1 at2
    have different : first ≠ second := by
      rintro rfl
      have bound := (List.getElem?_eq_some_iff.mp at1).1
      exact apart ((List.getElem?_inj bound listed.1).mp (at1.trans at2.symm))
    exact launchTriple (listed.2 first (List.mem_of_getElem? at1)) (listed.2 second (List.mem_of_getElem? at2)) different
  · exact triplePure (fun _ here => here.1)

end Launch

section Rest
variable {host : Host}

theorem lagNone : Lag host (fun _ => False) := ⟨fun _ _ _ _ _ => id, fun _ _ => id, fun _ _ never => never.elim⟩

theorem settledRefresh : Triple (threads host) (duty host) (Settled host) (refreshUi host) (fun _ => Settled host) := by
  refine tripleMono (refreshTriple lagNone) (fun _ here => ⟨here.core, .inl here.honest, .inl here.fresh⟩) ?_
  exact fun _ _ here => ⟨here.1, here.2.1, here.2.2.resolve_right id⟩

def restless (w : MainWindow) : MainWindow := w.onSwitch (fun s => { s with restThread := none })

structure Between (host : Host) (w : MainWindow) : Prop where
  core : Core host (restless w)
  busy : Busy w
  opened : Opened w
  handle : ∃ port, w.networkSwitch.restThread = some ⟨port, false⟩

theorem betweenSound {w : MainWindow} (between : Between host w) : Sound w.networkSwitch := by
  have sound := coreSound between.core
  refine ⟨?_, ?_, ?_, sound.waited⟩
  · intro p h found living
    exact sound.network p h (by cases p <;> exact found) living
  · intro p q h k foundP foundQ
    exact sound.different p q h k (by cases p <;> exact foundP) (by cases q <;> exact foundQ)
  · intro h found living
    obtain ⟨port, handle⟩ := between.handle
    cases Option.some.inj (handle.symm.trans found)
    contradiction

theorem endsRestless {s t : NetworkSwitch} (ends : Ends s t) :
    Ends { s with restThread := none } { t with restThread := none } where
  handles p := by
    have same := ends.handles p
    cases p <;> exact same
  tells p h found := by
    obtain ⟨k, there, same, alive, tells⟩ := ends.tells p h (by cases p <;> exact found)
    exact ⟨k, by cases p <;> exact there, same, alive, tells⟩
  keys := ends.keys
  running := ends.running
  served := rfl
  restLive := by
    rintro ⟨h, found, _⟩
    contradiction
  restTells off := ends.restRunning.trans off
  restRunning := ends.restRunning
  orphans := ends.orphans

theorem stableBetween : Stable (threads host) (Between host) := by
  refine stableSwitch (fun _ => betweenSound) (fun w s clock ends between => ?_)
  obtain ⟨port, handle⟩ := between.handle
  have core : Core host (restless { w with system := ⟨s, clock⟩ }) := coreEnds (w := restless w) (endsRestless ends) between.core
  have served : s.restThread.isSome := by
    rw [ends.served, handle]
    rfl
  obtain ⟨⟨other, alive⟩, there⟩ := Option.isSome_iff_exists.mp served
  have dead : alive = false := by
    by_contra living
    obtain ⟨⟨h, found, before⟩, _⟩ := ends.restLive ⟨_, there, by simpa using living⟩
    cases Option.some.inj (handle.symm.trans found)
    contradiction
  subst dead
  exact ⟨core, between.busy, openedEnds w s clock ends between.opened, other, there⟩

theorem resetRestTriple (port : Int) :
    Triple (threads host) (duty host)
      (fun w => Core host w ∧ Busy w ∧ Opened w ∧ w.storage.restThread.running = false) (resetRest port)
      (fun _ => Between host) := by
  have stable : Stable (threads host)
      (fun w => Core host w ∧ Busy w ∧ Opened w ∧ w.storage.restThread.running = false) :=
    stableBusy (fun w s clock _ ends both => ⟨openedEnds w s clock ends both.1, ends.restRunning.trans both.2⟩)
  have between : ∀ w, Core host w ∧ Busy w ∧ Opened w ∧ w.storage.restThread.running = false →
      (!(w.networkSwitch.restThread.any (·.alive))) = true →
      Between host (w.onSwitch (fun s => { s with
        restThread := some ⟨port, false⟩
        orphans := s.orphans + (s.restThread.any (·.alive)).toNat })) := by
    intro w ⟨core, busy, opened, off⟩ ended
    have waited : w.networkSwitch.orphans + (w.networkSwitch.restThread.any (·.alive)).toNat = 0 :=
      (noOrphan ended).trans core.alive.waited
    refine ⟨⟨⟨networkFrame (s := w.networkSwitch) rfl rfl rfl core.alive.network, off, waited⟩, core.first, core.second,
      core.listed, ?_, ?_⟩, busy, opened, port, rfl⟩
    · rintro ⟨h, found, _⟩
      contradiction
    · intro served
      contradiction
  refine tripleAwait stable ?_ ?_ between
  · intro w ⟨core, _, _, off⟩ late
    have live : w.networkSwitch.RestLive := by
      cases found : w.networkSwitch.restThread with
      | none => simp [found] at late
      | some h => exact ⟨h, found, by simpa [found] using late⟩
    exact ⟨live, core.quit live off⟩
  · exact fun w here ended => actsSilent rfl (betweenSound (between w here ended))

theorem startRestCore {w : MainWindow} (between : Between host w) : Core host (w.onSwitch (fun s => { s with
    storage := RestHandle.start s.storage
    restThread := s.restThread.map (fun h => { h with alive := true }) })) := by
  obtain ⟨core, _, opened, port, handle⟩ := between
  have there : w.system.switch.restThread = some ⟨port, false⟩ := handle
  refine ⟨⟨networkFrame (s := (restless w).networkSwitch) rfl rfl rfl core.alive.network, ?_, core.alive.waited⟩,
    core.first, core.second, core.listed, ?_, fun _ => ?_⟩
  · simp only [RestTells, networkSwitch, onSwitch, there, Option.map_some, RestHandle.start]
    rfl
  · intro _ off
    contradiction
  · obtain ⟨⟨net1, first⟩, net2, second⟩ := opened
    obtain ⟨h1, found1, _⟩ := Option.map_eq_some_iff.mp first
    obtain ⟨h2, found2, _⟩ := Option.map_eq_some_iff.mp second
    exact ⟨Option.isSome_iff_exists.mpr ⟨h1, found1⟩, Option.isSome_iff_exists.mpr ⟨h2, found2⟩⟩

theorem startRestTriple (port : Int) :
    Triple (threads host) (duty host) (fun w => Core host w ∧ Busy w) (startRest port) (fun _ w => Core host w ∧ Busy w) := by
  have busy : Stable (threads host) (fun w => Core host w ∧ Busy w) := stableWith (fun _ _ _ _ _ here => here)
  refine unlessTriple (Q := fun w => Core host w ∧ Busy w ∧ Opened w ∧ w.storage.restThread.running = false)
    busy (fun _ here => coreSound here.1) ?_ (fun _ here _ => here) ?_
  · intro w ⟨core, busy⟩ running
    obtain ⟨off, handles⟩ := runningNetworkStarted core.alive running
    exact ⟨core, busy, openedOf handles, off⟩
  · refine tripleBind (resetRestTriple (int16 port)) (fun _ => ?_)
    refine tripleBind (Q := fun _ => Between host) ?_ (fun _ => ?_)
    · refine showTriple stableBetween (fun _ => betweenSound) (fun _ => rfl) ?_
      intro w ⟨core, busy, opened, handle⟩
      refine ⟨⟨core.alive, core.first, core.second, core.listed, ?_, core.served⟩, busy, opened, handle⟩
      rintro ⟨h, found, _⟩
      contradiction
    · refine tripleWrite stableBetween ?_ (fun w here => ⟨startRestCore here, here.busy⟩)
      exact fun w here => actsOne .startRest trivial rfl rfl rfl rfl (coreSound (startRestCore here))

theorem startRestThreadTriple :
    Triple (threads host) (duty host) (fun w => Core host w ∧ Busy w) (startRestThread host) (fun _ => Settled host) := by
  have busy : Stable (threads host) (fun w => Core host w ∧ Busy w) := stableWith (fun _ _ _ _ _ here => here)
  refine tripleBind (Q := fun _ w => Core host w ∧ Busy w)
    (tripleRead busy (fun w here => actsSame rfl (coreSound here.1)) (fun _ here => here)) (fun port => ?_)
  refine tripleBind (startRestTriple port) (fun _ => ?_)
  exact tripleMono settledRefresh (fun _ here => settledBusy here.1 here.2) (fun _ _ after => after)

end Rest
end MainWindow
end PsipSwitch
