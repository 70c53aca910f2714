import PsipSwitch.Shutdown
import PsipSwitch.WindowInvariants

/-! The loop of a network thread. It ends when its callback answers that the thread is no longer
to run, and the callback is asked only when a frame comes in. So a thread ends on no other
occasion than a stop, and it takes one more frame to end it. -/
namespace PsipSwitch
open NetworkSwitch (Port System Event)

structure Sniffing where
  system : System
  looping : Port → Bool

namespace Sniffing
open NetworkSwitch SharedStorage Lifecycle Shutdown
open MainWindow (Sound soundAlive ofThread threadEnds buryAt)

def answer (host : Host) (s : NetworkSwitch) (p : Port) (now : Int) (packet : Frame) : Bool :=
  match s.handleAt p with
  | some h => (NetworkHandle.receive host h.interface now packet s.storage).running
  | none => false

def loops (host : Host) (s : Sniffing) : Event → Port → Bool
  | .startNetwork _ _, p => s.looping p || decide (s.system.switch.state = .idle)
  | .receive q now packet, p => if p = q then answer host s.system.switch q now packet else s.looping p
  | _, p => s.looping p

/- Frames are taken inside of the loop, and the thread ends behind it. -/
def placed (s : Sniffing) : Event → Prop
  | .receive p _ _ => s.looping p = true
  | .exitNetwork p => s.looping p = false
  | _ => True

def sniffing (host : Host) : Machine Sniffing Event where
  enabled s e := (operated host).enabled s.system e ∧ s.placed e
  step s e := ⟨(operated host).step s.system e, s.loops host e⟩

def Initial (s : Sniffing) : Prop := NetworkSwitch.Initial s.system ∧ ∀ p, s.looping p = false

def Starts (s : NetworkSwitch) : Event → Prop
  | .startNetwork _ _ => s.state = .idle
  | _ => False

section Events
variable {host : Host} {s : NetworkSwitch} {e : Event}

theorem handleKept {p : Port} (alive : Alive s) (busy : ¬ Starts s e) (other : e ≠ .exitNetwork p) :
    (s.react host e).handleAt p = s.handleAt p := by
  cases e with
  | startNetwork name1 name2 => rw [react, startNetworkBusy busy]
  | startRest port =>
    simp only [react, NetworkSwitch.startRest]
    split <;> cases p <;> rfl
  | stopRest =>
    simp only [react, stopRest]
    split <;> cases p <;> rfl
  | interfaces => rw [react, interfacesAlive alive]
  | receive q now packet =>
    simp only [react, onInterface]
    split <;> cases p <;> rfl
  | exitNetwork q =>
    have apart : p ≠ q := fun same => other (congrArg Event.exitNetwork same.symm)
    rw [react, buryAt, if_neg apart, onInterface]
    split <;> cases p <;> rfl
  | _ => cases p <;> rfl

theorem stopDown {net : Interface} {t : SharedStorage} (handle : Option NetworkThreadHandle)
    (down : (t.interface net).control.running = false) : ((stopHandle handle t).interface net).control.running = false := by
  unfold stopHandle
  split
  · exact stoppedRunning t _ net (.inr down)
  · exact down

theorem downKept {net : Interface} (alive : Alive s) (possible : s.possible e) (busy : ¬ Starts s e)
    (down : (s.storage.interface net).control.running = false) :
    ((s.react host e).storage.interface net).control.running = false := by
  have thread (own : ofThread e) : ((s.react host e).storage.interface net).control.running = false := by
    rw [(threadEnds own possible (soundAlive alive)).running]
    exact down
  cases e with
  | startNetwork name1 name2 =>
    rw [react, startNetworkBusy busy]
    exact down
  | startRest port =>
    simp only [react, NetworkSwitch.startRest]
    split
    · exact down
    · simpa only [SharedStorage.interface, RestHandle.start, joinRestInterfaces] using down
  | stopNetwork => exact stopDown _ (stopDown _ down)
  | stopRest =>
    simp only [react, stopRest]
    split <;> exact down
  | interfaces =>
    rw [react, interfacesAlive alive]
    exact down
  | maintain m =>
    rw [react, (maintainControl m s.storage).control]
    exact down
  | receive p now packet => exact thread trivial
  | request now draws request => exact thread trivial
  | exitNetwork p => exact thread trivial
  | exitRest => exact thread trivial

end Events

def Told (s : Sniffing) : Prop := ∀ p h, s.system.switch.handleAt p = some h → h.alive = true → s.looping p = false →
  (s.system.switch.storage.interface h.interface).control.running = false

def Inside (s : Sniffing) : Prop := ∀ p, s.looping p = true → s.system.switch.NetworkLive p

structure Kept (s : Sniffing) : Prop where
  alive : Alive s.system.switch
  told : Told s
  inside : Inside s

section Runs
variable {host : Host}

theorem answered {s : Sniffing} {p : Port} {h : NetworkThreadHandle} (found : s.system.switch.handleAt p = some h)
    (now : Int) (packet : Frame) : answer host s.system.switch p now packet =
      ((s.system.switch.react host (.receive p now packet)).storage.interface h.interface).control.running := by
  rw [answer, found, react, onInterfaceAt _ found]
  rfl

theorem stepTold {s : Sniffing} {e : Event} (ready : (sniffing host).enabled s e) (kept : Kept s) :
    Told ((sniffing host).step s e) := by
  obtain ⟨⟨⟨_, possible⟩, _⟩, _⟩ := ready
  intro p k found living out
  change (s.system.switch.react host e).handleAt p = some k at found
  change s.loops host e p = false at out
  by_cases start : Starts s.system.switch e
  · cases e with
    | startNetwork name1 name2 =>
      have idle : s.system.switch.state = .idle := start
      simp [loops, idle] at out
    | _ => exact start.elim
  · by_cases last : e = .exitNetwork p
    · subst last
      rw [react, buryAt, if_pos rfl] at found
      obtain ⟨_, _, rfl⟩ := Option.map_eq_some_iff.mp found
      contradiction
    · rw [handleKept kept.alive start last] at found
      have quiet : s.looping p = false → ((s.system.switch.react host e).storage.interface k.interface).control.running = false :=
        fun before => downKept kept.alive possible start (kept.told p k found living before)
      cases e with
      | receive q now packet =>
        by_cases here : p = q
        · subst here
          simp only [loops, if_true] at out
          exact (answered found now packet).symm.trans out
        · simp only [loops, if_neg here] at out
          exact quiet out
      | startNetwork name1 name2 =>
        have before : s.looping p = false := (Bool.or_eq_false_iff.mp out).1
        exact quiet before
      | _ => exact quiet out

theorem loopsBack {s : Sniffing} {e : Event} {p : Port} (placed : s.placed e) (busy : ¬ Starts s.system.switch e)
    (looping : s.loops host e p = true) : s.looping p = true := by
  cases e with
  | startNetwork name1 name2 =>
    have running : s.system.switch.state ≠ .idle := busy
    simpa [loops, running] using looping
  | receive q now packet =>
    by_cases here : p = q
    · subst here
      exact placed
    · simpa [loops, here] using looping
  | _ => exact looping

theorem stepInside {s : Sniffing} {e : Event} (ready : (sniffing host).enabled s e) (kept : Kept s) :
    Inside ((sniffing host).step s e) := by
  obtain ⟨⟨_, named⟩, placed⟩ := ready
  intro p looping
  change (s.system.switch.react host e).NetworkLive p
  by_cases start : Starts s.system.switch e
  · cases e with
    | startNetwork name1 name2 =>
      obtain ⟨net1, net2, named1, named2, _⟩ := named
      rw [react, startNetworkIdle start named1 named2]
      cases p with
      | first => exact ⟨⟨net1, true⟩, rfl, rfl⟩
      | second => exact ⟨⟨net2, true⟩, rfl, rfl⟩
    | _ => exact start.elim
  · have before := loopsBack placed start looping
    have other : e ≠ .exitNetwork p := by
      rintro rfl
      exact absurd (before.symm.trans placed) (by decide)
    obtain ⟨h, found, living⟩ := kept.inside p before
    exact ⟨h, (handleKept kept.alive start other).trans found, living⟩

theorem stepKept {s : Sniffing} {e : Event} (ready : (sniffing host).enabled s e) (kept : Kept s) :
    Kept ((sniffing host).step s e) :=
  ⟨reactAlive ready.1.1.2 ready.1.2 kept.alive, stepTold ready kept, stepInside ready kept⟩

theorem reachableKept {s : Sniffing} (reached : (sniffing host).Reachable Initial s) : Kept s := by
  refine Machine.reachableInvariant (fun s e => stepKept) (fun s start => ?_) reached
  have none : ∀ p, s.system.switch.handleAt p = none := by
    intro p
    rw [start.1]
    cases p <;> rfl
  refine ⟨?_, fun p h found => absurd ((none p).symm.trans found) nofun, fun p looping => ?_⟩
  · rw [start.1]
    exact initialAlive
  · exact absurd ((start.2 p).symm.trans looping) (by decide)

theorem endsOnlyTold {s : Sniffing} {p : Port} (reached : (sniffing host).Reachable Initial s)
    (ready : (sniffing host).enabled s (.exitNetwork p)) :
    ∃ h, s.system.switch.handleAt p = some h ∧ h.alive = true ∧
      (s.system.switch.storage.interface h.interface).control.running = false := by
  obtain ⟨⟨⟨_, h, found, living⟩, _⟩, out⟩ := ready
  exact ⟨h, found, living, (reachableKept reached).told p h found living out⟩

def Stopped (s : NetworkSwitch) : Prop := ∀ net, (s.storage.interface net).control.running = false

def ending (host : Host) : Machine Sniffing Event := (sniffing host).restrict (fun s e => ¬ Starts s.system.switch e)

def onPort (p : Port) : Event → Bool
  | .receive q _ _ => decide (q = p)
  | _ => false

theorem receiveLooping {s : Sniffing} {p : Port} {now : Int} {packet : Frame} :
    ((sniffing host).step s (.receive p now packet)).looping p = answer host s.system.switch p now packet := if_pos rfl

theorem answerStopped {s : Sniffing} {p : Port} {now : Int} {packet : Frame} (kept : Kept s)
    (stopped : Stopped s.system.switch) (live : s.system.switch.NetworkLive p) :
    answer host s.system.switch p now packet = false := by
  obtain ⟨h, found, living⟩ := live
  rw [answered found now packet]
  exact downKept kept.alive ⟨h, found, living⟩ id (stopped h.interface)

theorem stepCount {s : Sniffing} {e : Event} {p : Port} (ready : (ending host).enabled s e) (kept : Kept s)
    (stopped : Stopped s.system.switch) :
    (if onPort p e then 1 else 0) + (s.loops host e p).toNat = (s.looping p).toNat := by
  obtain ⟨⟨⟨⟨_, possible⟩, _⟩, placed⟩, busy⟩ := ready
  cases e with
  | startNetwork name1 name2 =>
    have running : s.system.switch.state ≠ .idle := busy
    simp [onPort, loops, running]
  | receive q now packet =>
    by_cases here : p = q
    · subst here
      have inside : s.looping p = true := placed
      simp [onPort, loops, answerStopped kept stopped possible, inside]
    · simp [onPort, loops, here, Ne.symm here]
  | _ => exact Nat.zero_add _

theorem stepStopped {s : Sniffing} {e : Event} (ready : (ending host).enabled s e) (kept : Kept s)
    (stopped : Stopped s.system.switch) : Stopped ((ending host).step s e).system.switch :=
  fun net => downKept kept.alive ready.1.1.1.2 ready.2 (stopped net)

theorem runCount {s t : Sniffing} {es : List Event} (run : (ending host).Run s es t) (kept : Kept s)
    (stopped : Stopped s.system.switch) (p : Port) : es.countP (onPort p) + (t.looping p).toNat = (s.looping p).toNat ∧
      Kept t ∧ Stopped t.system.switch := by
  induction run with
  | nil s => exact ⟨Nat.zero_add _, kept, stopped⟩
  | @cons s e es t ready rest ih =>
    have here := stepCount (p := p) ready kept stopped
    obtain ⟨later, ended⟩ := ih (stepKept ready.1 kept) (stepStopped ready kept stopped)
    refine ⟨?_, ended⟩
    change es.countP (onPort p) + (t.looping p).toNat = (s.loops host e p).toNat at later
    rw [List.countP_cons]
    omega

theorem stopNetworkStopped {s : NetworkSwitch} (alive : Alive s) (possible : s.possible .stopNetwork) :
    Stopped s.stopNetwork := by
  intro net
  have quiet := (stoppedQuiet alive possible).network net
  unfold stopRest at quiet
  split at quiet <;> exact quiet

/- After a stop a thread takes one frame more. As long as none comes in the thread does not
end and the switch is not idle; and any frame at all will do. -/
theorem oneFrameMore {s t : Sniffing} {es : List Event} (reached : (sniffing host).Reachable Initial s)
    (run : (ending host).Run s (.stopNetwork :: es) t) (p : Port) :
    es.countP (onPort p) ≤ 1 ∧
    (s.looping p = true → es.countP (onPort p) = 0 → t.system.switch.NetworkLive p ∧ t.system.switch.state ≠ .idle) ∧
    (t.system.switch.NetworkLive p → t.looping p = true → ∀ now packet, t.system.clock ≤ now →
      (sniffing host).enabled t (.receive p now packet) ∧
      (sniffing host).enabled ((sniffing host).step t (.receive p now packet)) (.exitNetwork p)) := by
  have before := reachableKept reached
  obtain ⟨count, kept, down⟩ : es.countP (onPort p) + (t.looping p).toNat = (s.looping p).toNat ∧ Kept t ∧
      Stopped t.system.switch := by
    cases run with
    | cons ready rest =>
      exact runCount rest (stepKept ready.1 before) (stopNetworkStopped before.alive ready.1.1.1.2) p
  refine ⟨?_, fun looping silent => ?_, fun live looping now packet order => ?_⟩
  · have few : (s.looping p).toNat ≤ 1 := Bool.toNat_le _
    omega
  · have still : t.looping p = true := by
      rw [silent, looping, Nat.zero_add] at count
      cases out : t.looping p with
      | true => rfl
      | false =>
        rw [out] at count
        contradiction
    have live := kept.inside p still
    exact ⟨live, fun idle => idleQuiet kept.alive idle (.inl ⟨p, live⟩)⟩
  · have ready : (sniffing host).enabled t (.receive p now packet) := ⟨⟨⟨order, live⟩, trivial⟩, looping⟩
    have out : ((sniffing host).step t (.receive p now packet)).looping p = false :=
      receiveLooping.trans (answerStopped kept down live)
    obtain ⟨h, found, living⟩ := live
    have there : (t.system.switch.react host (.receive p now packet)).handleAt p = some h :=
      (handleKept kept.alive id (by simp)).trans found
    exact ⟨ready, ⟨⟨le_refl _, h, there, living⟩, trivial⟩, out⟩

def Leaving (packet : Frame) : Event → Prop
  | .receive _ _ m => m = packet
  | .exitNetwork _ | .exitRest => True
  | _ => False

def living (handle : Option NetworkThreadHandle) : Nat := (handle.any (·.alive)).toNat

def portLeft (s : Sniffing) (p : Port) : Nat := (s.looping p).toNat + living (s.system.switch.handleAt p)

def restLeft (s : NetworkSwitch) : Nat := (s.restThread.any (·.alive)).toNat

def left (s : Sniffing) : Nat := portLeft s .first + portLeft s .second + restLeft s.system.switch

theorem leftLess {s t : Sniffing} {p : Port} (less : portLeft t p < portLeft s p)
    (others : ∀ q, q ≠ p → portLeft t q = portLeft s q) (rest : restLeft t.system.switch = restLeft s.system.switch) :
    left t < left s := by
  unfold left
  cases p with
  | first =>
    have other := others .second (by decide)
    omega
  | second =>
    have other := others .first (by decide)
    omega

theorem receiveLess {s : Sniffing} {p : Port} {now : Int} {packet : Frame} (alive : Alive s.system.switch)
    (looping : s.looping p = true) (ends : answer host s.system.switch p now packet = false) :
    left ((sniffing host).step s (.receive p now packet)) < left s := by
  have handles (q : Port) : (s.system.switch.react host (.receive p now packet)).handleAt q = s.system.switch.handleAt q :=
    handleKept alive id (by simp)
  refine leftLess (p := p) ?_ (fun q other => ?_) ?_
  · have out : ((sniffing host).step s (.receive p now packet)).looping p = false := receiveLooping.trans ends
    unfold portLeft
    change _ + living ((s.system.switch.react host (.receive p now packet)).handleAt p) < _
    rw [out, handles, looping]
    exact Nat.add_lt_add_right (by decide) _
  · have kept : ((sniffing host).step s (.receive p now packet)).looping q = s.looping q := if_neg other
    unfold portLeft
    change _ + living ((s.system.switch.react host (.receive p now packet)).handleAt q) = _
    rw [kept, handles]
  · change restLeft (s.system.switch.onInterface p _) = _
    unfold onInterface
    split <;> rfl

theorem exitLess {s : Sniffing} {p : Port} {h : NetworkThreadHandle} (found : s.system.switch.handleAt p = some h)
    (alive : h.alive = true) : left ((sniffing host).step s (.exitNetwork p)) < left s := by
  have handles (q : Port) : (s.system.switch.onInterface p NetworkHandle.finish).handleAt q = s.system.switch.handleAt q := by
    rw [onInterfaceAt _ found]
    cases q <;> rfl
  refine leftLess (p := p) ?_ (fun q other => ?_) ?_
  · unfold portLeft
    change (s.looping p).toNat + living ((s.system.switch.react host (.exitNetwork p)).handleAt p) < _
    rw [react, buryAt, if_pos rfl, handles, found]
    simp [living, alive]
  · unfold portLeft
    change (s.looping q).toNat + living ((s.system.switch.react host (.exitNetwork p)).handleAt q) = _
    rw [react, buryAt, if_neg other, handles]
  · change restLeft ((s.system.switch.onInterface p _).bury p) = _
    rw [onInterfaceAt _ found]
    cases p <;> rfl

theorem exitRestLess {s : Sniffing} {h : RestThreadHandle} (found : s.system.switch.restThread = some h)
    (alive : h.alive = true) : left ((sniffing host).step s .exitRest) < left s := by
  have before : restLeft s.system.switch = 1 := by simp [restLeft, found, alive]
  have after : restLeft (s.system.switch.react host .exitRest) = 0 := by simp [restLeft, react, found]
  unfold left
  change portLeft s .first + portLeft s .second + restLeft (s.system.switch.react host .exitRest) < _
  rw [before, after]
  exact Nat.lt_succ_self _

theorem someLess {s : Sniffing} (kept : Kept s) (closed : Closing s.system.switch) (live : SomeLive s.system.switch)
    (packet : Frame) : ∃ e, (sniffing host).enabled s e ∧ Leaving packet e ∧ Closing (s.system.switch.react host e) ∧
      left ((sniffing host).step s e) < left s := by
  rcases (someLiveIff closed.alive.waited).mp live with ⟨p, h, found, alive⟩ | ⟨h, found, alive⟩
  · have possible : s.system.switch.NetworkLive p := ⟨h, found, alive⟩
    cases place : s.looping p with
    | true =>
      have ready : (closing host).enabled s.system (.receive p s.system.clock packet) :=
        ⟨⟨le_refl _, possible⟩, trivial⟩
      have ends : answer host s.system.switch p s.system.clock packet = false :=
        answerStopped kept closed.quiet.network possible
      exact ⟨_, ⟨ready, place⟩, rfl, (reactClosing ready closed).1, receiveLess kept.alive place ends⟩
    | false =>
      have ready : (closing host).enabled s.system (.exitNetwork p) := ⟨⟨le_refl _, possible⟩, trivial⟩
      exact ⟨.exitNetwork p, ⟨ready, place⟩, trivial, (reactClosing ready closed).1, exitLess found alive⟩
  · have ready : (closing host).enabled s.system .exitRest := ⟨⟨le_refl _, h, found, alive⟩, trivial⟩
    exact ⟨.exitRest, ⟨ready, trivial⟩, trivial, (reactClosing ready closed).1, exitRestLess found alive⟩

theorem stoppable {s : Sniffing} (reached : (sniffing host).Reachable Initial s)
    (opened : s.system.switch.possible .stopNetwork) (packet : Frame) :
    ∃ es t, (sniffing host).Run s (.stopNetwork :: .stopRest :: es) t ∧ t.system.switch.state = .idle ∧
      (∀ e ∈ es, Leaving packet e) ∧ ∀ p, es.countP (onPort p) = (s.looping p).toNat := by
  have first : (sniffing host).enabled s .stopNetwork := ⟨⟨⟨le_refl _, opened⟩, trivial⟩, trivial⟩
  have second : (sniffing host).enabled ((sniffing host).step s .stopNetwork) .stopRest :=
    ⟨⟨⟨le_refl _, trivial⟩, trivial⟩, trivial⟩
  have before := reachableKept reached
  have kept := stepKept second (stepKept first before)
  have quiet := stoppedQuiet before.alive opened
  obtain ⟨es, t, run, ⟨ended, closed⟩, none⟩ := Machine.runsDown
    (m := (sniffing host).restrict (fun _ e => Leaving packet e)) (Q := fun s => ¬ SomeLive s.system.switch)
    (P := fun s => Kept s ∧ Closing s.system.switch) left (fun s here live => by
      obtain ⟨e, ready, leaving, closing, less⟩ := someLess here.1 here.2 (not_not.mp live) packet
      exact ⟨e, ⟨ready, leaving⟩, ⟨stepKept ready here.1, closing⟩, less⟩) ⟨kept, kept.alive, quiet⟩
  have leaving := Machine.runGuarded run
  have busy : (ending host).Run _ es t := Machine.runRestrict _ (Machine.runUnrestrict run) (fun _ e member starts => by
    have leaves := leaving e member
    cases e with
    | startNetwork name1 name2 => exact leaves
    | _ => exact starts)
  refine ⟨es, t, .cons first (.cons second (Machine.runUnrestrict run)), (stateQuiet closed.alive closed.quiet).2 none,
    leaving, fun p => ?_⟩
  have count := (runCount busy kept quiet.network p).1
  have out : t.looping p = false := Bool.eq_false_of_not_eq_true (fun looping => none (.inl ⟨p, ended.inside p looping⟩))
  rw [out] at count
  exact count

def benchStarted : Sniffing :=
  (sniffing bench).step ⟨⟨initial, 0⟩, fun _ => false⟩ (.startNetwork (text "eth1") (text "eth2"))

def benchStopped : Sniffing := (sniffing bench).step benchStarted .stopNetwork

def benchTaken : Sniffing := (sniffing bench).step benchStopped (.receive .first 5 (benchFrame 9 7))

theorem benchStartedReached : (sniffing bench).Reachable Initial benchStarted :=
  ⟨⟨⟨initial, 0⟩, fun _ => false⟩, [.startNetwork (text "eth1") (text "eth2")], ⟨rfl, fun _ => rfl⟩,
    .cons ⟨⟨⟨le_refl _, trivial⟩, benchNamed⟩, trivial⟩ (.nil _)⟩

theorem endsOnlyToldBench : ∃ h, benchTaken.system.switch.handleAt .first = some h ∧ h.alive = true ∧
    (benchTaken.system.switch.storage.interface h.interface).control.running = false := by
  have stopping : (sniffing bench).enabled benchStarted .stopNetwork := ⟨⟨⟨le_refl _, by decide, by decide⟩, trivial⟩, trivial⟩
  have taking : (sniffing bench).enabled benchStopped (.receive .first 5 (benchFrame 9 7)) :=
    ⟨⟨⟨by decide, ⟨⟨1⟩, true⟩, by decide, rfl⟩, trivial⟩, rfl⟩
  have reached : (sniffing bench).Reachable Initial benchTaken :=
    Machine.reachableStep (Machine.reachableStep benchStartedReached stopping) taking
  exact endsOnlyTold reached ⟨⟨⟨le_refl _, ⟨⟨1⟩, true⟩, by decide, rfl⟩, trivial⟩, rfl⟩

theorem oneFrameMoreBench : benchTaken.system.switch.state ≠ .idle := by
  have run : (ending bench).Run benchStarted [.stopNetwork, .receive .first 5 (benchFrame 9 7)] benchTaken :=
    .cons ⟨⟨⟨⟨le_refl _, by decide, by decide⟩, trivial⟩, trivial⟩, id⟩
      (.cons ⟨⟨⟨⟨by decide, ⟨⟨1⟩, true⟩, by decide, rfl⟩, trivial⟩, rfl⟩, id⟩ (.nil _))
  exact ((oneFrameMore benchStartedReached run .second).2.1 rfl rfl).2

theorem stoppableBench : ∃ es t, (sniffing bench).Run benchStarted (.stopNetwork :: .stopRest :: es) t ∧
    t.system.switch.state = .idle ∧ es.countP (onPort .first) = 1 ∧ es.countP (onPort .second) = 1 := by
  obtain ⟨es, t, run, idle, _, count⟩ := stoppable benchStartedReached ⟨by decide, by decide⟩ (benchFrame 9 7)
  exact ⟨es, t, run, idle, count .first, count .second⟩

end Runs
end Sniffing
end PsipSwitch
