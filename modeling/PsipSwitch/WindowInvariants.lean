import PsipSwitch.MainWindow
import PsipSwitch.Refinement

/-! What the window program can rely on between two acts of the main thread. The other
threads only ever end: they write tables and their own flag, and no handle. -/
namespace PsipSwitch
namespace MainWindow
open NetworkSwitch SharedStorage Lifecycle
open Program (Stable)

structure Sound (s : NetworkSwitch) : Prop where
  network : ∀ p h, s.handleAt p = some h → h.alive = true → s.storage.Registered h.interface ∧ Tells s.storage h
  different : ∀ p q h k, s.handleAt p = some h → s.handleAt q = some k → h.alive = true → k.alive = true →
    h.interface = k.interface → p = q
  rest : ∀ h, s.restThread = some h → h.alive = true → s.storage.restThread.finished = false
  waited : s.orphans = 0

theorem soundAlive {s : NetworkSwitch} (alive : Alive s) : Sound s := by
  refine ⟨fun p h found _ => portStarted alive found, ?_, ?_, alive.waited⟩
  · intro p q h k foundP foundQ _ _ same
    rcases alive.network with unstarted | ⟨h1, h2, started⟩
    · exact nomatch (unstartedHandle unstarted p).symm.trans foundP
    · have first : s.handleAt .first = some h1 := started.first
      have second : s.handleAt .second = some h2 := started.second
      cases p <;> cases q <;> first | rfl | skip
      · rw [first] at foundP
        rw [second] at foundQ
        cases foundP
        cases foundQ
        exact absurd same started.different
      · rw [second] at foundP
        rw [first] at foundQ
        cases foundP
        cases foundQ
        exact absurd same.symm started.different
  · intro h found living
    have rest := alive.rest
    simp only [RestTells, found, living] at rest
    exact rest

structure Ends (s t : NetworkSwitch) : Prop where
  handles : ∀ p, (t.handleAt p).map (·.interface) = (s.handleAt p).map (·.interface)
  tells : ∀ p h, s.handleAt p = some h → ∃ k, t.handleAt p = some k ∧ k.interface = h.interface ∧
    (k.alive = true → h.alive = true) ∧ (Tells s.storage h → Tells t.storage k)
  keys : t.storage.interfaces.keys = s.storage.interfaces.keys
  running : ∀ net, (t.storage.interface net).control.running = (s.storage.interface net).control.running
  served : t.restThread.isSome = s.restThread.isSome
  restLive : t.RestLive → s.RestLive ∧ t.storage.restThread.finished = s.storage.restThread.finished
  restTells : RestTells s → RestTells t
  restRunning : t.storage.restThread.running = s.storage.restThread.running
  orphans : t.orphans = s.orphans

theorem endsSame {s : NetworkSwitch} {t : SharedStorage} (same : SameControl s.storage t) :
    Ends s { s with storage := t } where
  handles _ := rfl
  tells p h found := ⟨h, found, rfl, id, tellsSame same⟩
  keys := same.keys
  running net := by rw [same.control]
  served := rfl
  restLive live := ⟨live, by rw [same.rest]⟩
  restTells tells := by
    simp only [RestTells] at tells ⊢
    rw [same.rest]
    exact tells
  restRunning := by rw [same.rest]
  orphans := rfl

theorem finishRunning (s : SharedStorage) (net other : Interface) :
    ((NetworkHandle.finish net s).interface other).control.running = (s.interface other).control.running := by
  by_cases here : other = net
  · rw [here, NetworkHandle.finish, setInterfaceSame]
  · simp only [NetworkHandle.finish, SharedStorage.interface, setInterfaceFindOther s _ here]

theorem buryStorage (s : NetworkSwitch) (p : Port) : (s.bury p).storage = s.storage := by cases p <;> rfl

theorem buryRest (s : NetworkSwitch) (p : Port) : (s.bury p).restThread = s.restThread := by cases p <;> rfl

theorem buryOrphans (s : NetworkSwitch) (p : Port) : (s.bury p).orphans = s.orphans := by cases p <;> rfl

theorem buryAt (s : NetworkSwitch) (p q : Port) :
    (s.bury p).handleAt q = if q = p then (s.handleAt q).map (fun h => { h with alive := false }) else s.handleAt q := by
  cases p <;> cases q <;> rfl

/- Where both handles are of one interface, only one of the two threads lives, and the flag
that goes up tells the truth of the other as well. -/
theorem exitTells {s : NetworkSwitch} {p q : Port} {h k : NetworkThreadHandle} (sound : Sound s)
    (found : s.handleAt p = some h) (living : h.alive = true) (there : s.handleAt q = some k) (other : q ≠ p)
    (tells : Tells s.storage k) : Tells (NetworkHandle.finish h.interface s.storage) k := by
  by_cases twin : k.interface = h.interface
  · have dead : k.alive = false := by
      by_contra alive
      exact other (sound.different q p k h there found (by simpa using alive) living twin)
    rw [Tells, dead, twin]
    exact setFinishedTells h
  · exact setFinishedOther twin tells

theorem endsExit {s : NetworkSwitch} {p : Port} {h : NetworkThreadHandle} (sound : Sound s)
    (found : s.handleAt p = some h) (living : h.alive = true) :
    Ends s ((s.onInterface p NetworkHandle.finish).bury p) := by
  have same (q : Port) : ({ s with storage := NetworkHandle.finish h.interface s.storage } : NetworkSwitch).handleAt q =
      s.handleAt q := by cases q <;> rfl
  rw [onInterfaceAt _ found]
  constructor
  case handles =>
    intro q
    rw [buryAt, same]
    split
    · rw [Option.map_map]
      rfl
    · rfl
  case tells =>
    intro q k there
    rw [buryAt, buryStorage, same, there]
    by_cases here : q = p
    · subst here
      cases Option.some.inj (found.symm.trans there)
      rw [if_pos rfl]
      exact ⟨{ h with alive := false }, rfl, rfl, fun never => (nomatch never), fun _ => setFinishedTells h⟩
    · rw [if_neg here]
      exact ⟨k, rfl, rfl, id, exitTells sound found living there here⟩
  case keys =>
    rw [buryStorage]
    exact setInterfaceKeys _ (sound.network p h found living).1
  case running =>
    rw [buryStorage]
    exact finishRunning s.storage h.interface
  case served => rw [buryRest]
  case restLive =>
    rintro ⟨k, there, alive⟩
    rw [buryRest] at there
    rw [buryStorage]
    exact ⟨⟨k, there, alive⟩, rfl⟩
  case restTells =>
    simp only [RestTells, buryRest, buryStorage]
    exact id
  case restRunning =>
    rw [buryStorage]
    rfl
  case orphans => rw [buryOrphans]

theorem endsRest {s : NetworkSwitch} : Ends s { s with
    storage := RestHandle.finish s.storage
    restThread := s.restThread.map (fun h => { h with alive := false }) } where
  handles p := by cases p <;> rfl
  tells p h found := ⟨h, found, rfl, id, id⟩
  keys := rfl
  running _ := rfl
  served := by simp
  restLive := by
    rintro ⟨h, found, alive⟩
    obtain ⟨old, _, rfl⟩ := Option.map_eq_some_iff.mp found
    contradiction
  restTells := by
    simp only [RestTells]
    cases s.restThread with
    | none => exact id
    | some h => exact fun _ => rfl
  restRunning := rfl
  orphans := rfl

theorem endsBack {s t : NetworkSwitch} (ends : Ends s t) {p : Port} {k : NetworkThreadHandle}
    (found : t.handleAt p = some k) : ∃ h, s.handleAt p = some h ∧ k.interface = h.interface ∧
      (k.alive = true → h.alive = true) ∧ (Tells s.storage h → Tells t.storage k) := by
  have handles := ends.handles p
  rw [found, Option.map_some] at handles
  obtain ⟨h, there, _⟩ := Option.map_eq_some_iff.mp handles.symm
  obtain ⟨k', found', same, alive, tells⟩ := ends.tells p h there
  cases Option.some.inj (found.symm.trans found')
  exact ⟨h, there, same, alive, tells⟩

theorem endsRegistered {s t : NetworkSwitch} (ends : Ends s t) (net : Interface) :
    t.storage.Registered net ↔ s.storage.Registered net := by
  rw [Registered, Registered, ends.keys]

theorem endsSound {s t : NetworkSwitch} (ends : Ends s t) (sound : Sound s) : Sound t := by
  refine ⟨?_, ?_, ?_, ends.orphans.trans sound.waited⟩
  · intro p k found living
    obtain ⟨h, there, same, alive, tells⟩ := endsBack ends found
    obtain ⟨registered, told⟩ := sound.network p h there (alive living)
    rw [same, endsRegistered ends]
    exact ⟨registered, tells told⟩
  · intro p q k l foundP foundQ livingP livingQ same
    obtain ⟨h, thereP, sameP, aliveP, _⟩ := endsBack ends foundP
    obtain ⟨i, thereQ, sameQ, aliveQ, _⟩ := endsBack ends foundQ
    exact sound.different p q h i thereP thereQ (aliveP livingP) (aliveQ livingQ) (sameP.symm.trans (same.trans sameQ))
  · intro k found living
    obtain ⟨⟨h, there, alive⟩, finished⟩ := ends.restLive ⟨k, found, living⟩
    rw [finished]
    exact sound.rest h there alive

theorem endsAlive {s t : NetworkSwitch} (ends : Ends s t) (alive : Alive s) : Alive t := by
  refine ⟨?_, ends.restTells alive.rest, ends.orphans.trans alive.waited⟩
  rcases alive.network with ⟨one, two, keys⟩ | ⟨h1, h2, started⟩
  · have first := ends.handles .first
    have second := ends.handles .second
    simp only [handleAt, one, two, Option.map_none, Option.map_eq_none_iff] at first second
    exact .inl ⟨first, second, ends.keys.trans keys⟩
  · obtain ⟨k1, first, same1, _, tells1⟩ := ends.tells .first h1 started.first
    obtain ⟨k2, second, same2, _, tells2⟩ := ends.tells .second h2 started.second
    refine .inr ⟨k1, k2, first, second, ?_, ?_, tells1 started.tells1, tells2 started.tells2⟩
    · rw [same1, same2]
      exact started.different
    · intro net
      rw [same1, same2, endsRegistered ends]
      exact started.table net

theorem endsLive {s t : NetworkSwitch} (ends : Ends s t) (live : SomeLive t) : SomeLive s := by
  rcases live with ⟨p, k, found, living⟩ | rest | left
  · obtain ⟨h, there, _, alive, _⟩ := endsBack ends found
    exact .inl ⟨p, h, there, alive living⟩
  · exact .inr (.inl (ends.restLive rest).1)
  · exact .inr (.inr (ends.orphans ▸ left))

theorem threadEnds {host : Host} {s : NetworkSwitch} {e : Event} (thread : ofThread e) (possible : s.possible e)
    (sound : Sound s) : Ends s (s.react host e) := by
  cases e with
  | receive p now packet =>
    obtain ⟨h, found, living⟩ := possible
    simp only [react, onInterfaceAt _ found]
    exact endsSame (receiveControl host now packet (sound.network p h found living).1)
  | request now draws request => exact endsSame (requestControl host now draws request s.storage)
  | exitNetwork p =>
    obtain ⟨h, found, living⟩ := possible
    exact endsExit sound found living
  | exitRest => exact endsRest
  | _ => exact thread.elim

theorem stableSwitch {host : Host} {P : MainWindow → Prop} (sound : ∀ w, P w → Sound w.networkSwitch)
    (keep : ∀ (w : MainWindow) s clock, Ends w.networkSwitch s → P w → P { w with system := ⟨s, clock⟩ }) :
    Stable (threads host) P := by
  intro w e ready here
  exact keep w _ _ (threadEnds ready.1 ready.2.2 (sound w here)) here

theorem idleIff {s : NetworkSwitch} (alive : Alive s) :
    s.state = .idle ↔ s.storage.restThread.running = false ∧ ¬ SomeLive s := by
  constructor
  · intro idle
    refine ⟨?_, idleQuiet alive idle⟩
    by_contra running
    rw [NetworkSwitch.state, if_pos (by simpa using running)] at idle
    contradiction
  · rintro ⟨running, quiet⟩
    have network := (scanLive alive).mpr (fun live => quiet (.inl live))
    have rest : ¬ (s.restThread.isSome ∧ s.storage.restThread.finished = false) :=
      fun unfinished => quiet (.inr (.inl ((restLive alive).mp unfinished)))
    simp only [NetworkSwitch.state, running, Bool.false_eq_true, if_false, network, true_and, if_neg rest]

theorem endsIdle {s t : NetworkSwitch} (ends : Ends s t) (alive : Alive s) (idle : s.state = .idle) : t.state = .idle := by
  obtain ⟨running, quiet⟩ := (idleIff alive).mp idle
  refine (idleIff (endsAlive ends alive)).mpr ⟨?_, fun live => quiet (endsLive ends live)⟩
  rw [ends.restRunning]
  exact running

theorem runningNetworkStarted {s : NetworkSwitch} (alive : Alive s) (running : s.state = .runningNetwork) :
    s.storage.restThread.running = false ∧ s.interface1.isSome ∧ s.interface2.isSome := by
  have off : ¬ s.storage.restThread.running = true := by
    intro on
    rw [NetworkSwitch.state, if_pos on] at running
    contradiction
  refine ⟨by simpa using off, ?_⟩
  rcases alive.network with ⟨_, _, keys⟩ | ⟨h1, h2, started⟩
  · have empty : s.storage.interfaces.entries = [] := List.map_eq_nil_iff.mp keys
    simp only [NetworkSwitch.state, if_neg off, empty, scan] at running
    split at running <;> contradiction
  · simp [started.first, started.second]

theorem scanNoRest (es : List (Interface × InterfaceEntry)) : scan es ≠ some .runningRest := by
  induction es with
  | nil => simp [scan]
  | cons it rest ih =>
    simp only [scan]
    split
    · simp
    · split
      · simp
      · exact ih

theorem runningRestServed {s : NetworkSwitch} (alive : Alive s) (running : s.state = .runningRest) :
    s.restThread.isSome := by
  have rest := alive.rest
  simp only [RestTells] at rest
  cases served : s.restThread with
  | some h => rfl
  | none =>
    rw [served] at rest
    have idle : ¬ s.storage.restThread.running = true := by simp [rest]
    simp only [NetworkSwitch.state, if_neg idle, served] at running
    split at running
    · rename_i found answer
      exact absurd answer (running ▸ scanNoRest s.storage.interfaces.entries)
    · simp at running

end MainWindow
end PsipSwitch
