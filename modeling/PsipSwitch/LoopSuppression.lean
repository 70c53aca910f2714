import PsipSwitch.NetworkSwitch
import PsipSwitch.RestSteps

/-! A frame the switch has passed on stays in the set of sent packets, with the time
it was passed on, until it expires. Every copy that comes back before that, on any
interface, is dropped without a trace. -/
namespace PsipSwitch
namespace LoopSuppression
open NetworkHandle NetworkSwitch

def Passed (calls : List Call) : Prop := Call.broadcast ∈ calls ∨ ∃ destination, Call.send destination ∈ calls

def Held (q : Packet) (s : SharedStorage) : Prop := q ∈ s.sentPackets.packets

theorem leaveHolds (host : Host) (me : Interface) (now : Int) (packet : Frame) (s : SharedStorage)
    (exit : Exit) : (leave host me now packet (s, exit)).1.sentPackets =
      if exit = .skip then s.sentPackets else s.sentPackets.insert (.ofPdu packet now) := by
  cases exit with
  | skip => rfl
  | send destination =>
    simp only [leave, send]
    split <;> rfl
  | broadcast =>
    simp only [leave, broadcast, outputAll]
    rfl

theorem receiveSent (host : Host) (now : Int) (packet : Frame) {me : Interface} {s : SharedStorage}
    (registered : s.Registered me) : (receive host me now packet s).storage.sentPackets =
      if (select host me now packet s).2 = .skip then s.sentPackets else s.sentPackets.insert (.ofPdu packet now) := by
  rw [← (selectKeeps host now packet registered).1]
  exact leaveHolds host me now packet _ _

theorem passedIff {host : Host} {me : Interface} {now : Int} {packet : Frame} {s : SharedStorage} :
    Passed (receive host me now packet s).calls ↔ (select host me now packet s).2 ≠ .skip := by
  simp only [receive]
  rcases select host me now packet s with ⟨t, exit⟩
  cases exit with
  | skip => simp [Passed, leave]
  | send destination =>
    simp only [Passed, leave, send]
    split <;> simp
  | broadcast => simp [Passed, leave, broadcast]

theorem receiveHeld {host : Host} {me : Interface} {now : Int} {packet : Frame} {s : SharedStorage}
    (registered : s.Registered me) {q : Packet} (held : Held q s) :
    Held q (receive host me now packet s).storage := by
  rw [Held, receiveSent host now packet registered]
  split
  · exact held
  · exact PacketTable.insertKeeps held

/- A frame is recorded anew each time it is passed on, never on top of an old entry. -/
theorem passedHeld {host : Host} {me : Interface} {now : Int} {packet : Frame} {s : SharedStorage}
    (registered : s.Registered me) (passed : Passed (receive host me now packet s).calls) :
    Held (.ofPdu packet now) (receive host me now packet s).storage := by
  have accepted : Accepts me now packet s := by
    by_contra no
    rw [(refusedReceive registered no).1] at passed
    simp [Passed] at passed
  have fresh : s.sentPackets.count (.ofPdu packet now) ≠ 1 := by simpa [duplicate] using accepted.2.2
  rw [Held, receiveSent host now packet registered, if_neg (passedIff.mp passed), PacketTable.insertFresh fresh]
  exact List.mem_cons_self

theorem receiveRecorded {host : Host} {me : Interface} {now : Int} {packet : Frame} {s : SharedStorage}
    (registered : s.Registered me) {q : Packet} (held : Held q (receive host me now packet s).storage) :
    Held q s ∨ q = .ofPdu packet now ∧ Passed (receive host me now packet s).calls := by
  rw [Held, receiveSent host now packet registered] at held
  split at held
  · exact .inl held
  · rename_i leaves
    exact (PacketTable.memInsert held).imp id (fun new => ⟨new, passedIff.mpr leaves⟩)

theorem heldSilent {host : Host} {me : Interface} {now : Int} {packet : Frame} {s : SharedStorage}
    (registered : s.Registered me) {q : Packet} (held : Held q s) (bytes : packet.serialize = q.data) :
    (receive host me now packet s).calls = [] ∧ (receive host me now packet s).storage = s := by
  refine refusedReceive registered ?_
  intro accepted
  have hit : duplicate packet now s = true := duplicateIff.mpr ⟨q, held, bytes.symm⟩
  exact absurd accepted.2.2 (by simp [hit])

theorem maintainHeld {q : Packet} {s : SharedStorage} (m : Maintenance) (held : Held q s) {limit : Int}
    (ends : ∀ last, m.ends = some last → last ≤ limit) (fresh : q.expiration.expired limit = false) :
    Held q (maintain m s) := by
  cases m with
  | updatePackets r =>
    refine Sweep.sweepKeeps held ?_
    intro k
    exact Timeout.expiredMono ((r.bounded k).trans (ends r.last rfl)) fresh
  | _ => exact held

theorem stepHeld {host : Host} {q : Packet} {s : Store} {op : Operation} (ready : (session host).enabled s op)
    (held : Held q s.storage) (fresh : q.expiration.expired ((session host).step s op).clock = false) :
    Held q ((session host).step s op).storage := by
  cases op with
  | reset => exact absurd trivial ready.2
  | receive me now packet => exact receiveHeld ready.1.2 held
  | request now draws request =>
    exact RestHandle.respondKeeps (P := Held q) host now draws request (fun _ => held) (fun _ _ _ => held)
      (fun _ => held)
  | maintain m =>
    refine maintainHeld m held ?_ fresh
    intro last ends
    change last ≤ m.ends.getD s.clock
    rw [ends, Option.getD_some]
  | _ => exact held

theorem runHeld {host : Host} {q : Packet} {s t : Store} {ops : List Operation}
    (run : (session host).Run s ops t) (held : Held q s.storage)
    (fresh : q.expiration.expired t.clock = false) : Held q t.storage := by
  induction run with
  | nil => exact held
  | cons ready rest ih =>
    have order := clockRun (Machine.runUnrestrict rest)
    exact ih (stepHeld ready held (Timeout.expiredMono order fresh)) fresh

def Recorded (host : Host) (q : Packet) (s : SharedStorage) : Operation → Prop
  | .receive me now packet => q = .ofPdu packet now ∧ Passed (receive host me now packet s).calls
  | _ => False

theorem stepRecorded {host : Host} {q : Packet} {s : Store} {op : Operation}
    (ready : (sections host).enabled s op) (held : Held q ((sections host).step s op).storage) :
    Held q s.storage ∨ Recorded host q s.storage op := by
  cases op with
  | reset => contradiction
  | receive me now packet => exact receiveRecorded ready.2 held
  | request now draws request =>
    refine .inl ?_
    exact RestHandle.respondKeeps (P := fun t => Held q t → Held q s.storage) host now draws request
      (fun _ => id) (fun _ _ _ => id) (fun _ => id) held
  | maintain m =>
    cases m with
    | updatePackets r => exact .inl ((Sweep.sweepSublist _ _ _ _).subset held)
    | _ => exact .inl held
  | _ => exact .inl held

theorem runRecorded {host : Host} {q : Packet} {s t : Store} {ops : List Operation}
    (run : (sections host).Run s ops t) (held : Held q t.storage) :
    Held q s.storage ∨ ∃ u op, (sections host).Moment s ops u op ∧ Recorded host q u.storage op := by
  induction run with
  | nil => exact .inl held
  | cons ready rest ih =>
    rcases ih held with before | ⟨u, op, moment, recorded⟩
    · rcases stepRecorded ready before with before | recorded
      · exact .inl before
      · exact .inr ⟨_, _, .inl ⟨rfl, rfl⟩, recorded⟩
    · exact .inr ⟨u, op, .inr moment, recorded⟩

theorem sentTimeoutExact {now : Int} (past : 0 ≤ now) (future : now + 300000000000 < 9223372036854775808) :
    timePlus now Settings.defaultSentPacketTimeout = now + 300000000000 := by
  have span : nanoseconds Settings.defaultSentPacketTimeout = 300000000000 := by decide
  rw [timePlus, span]
  exact int64Exact (by omega) future

theorem copiesSuppressed {host : Host} {at1 at2 : Store} {between : List Operation}
    {me1 me2 : Interface} {now1 now2 : Int} {frame copy : Frame}
    (ready1 : (session host).enabled at1 (.receive me1 now1 frame))
    (passed : Passed (receive host me1 now1 frame at1.storage).calls)
    (run : (session host).Run ((session host).step at1 (.receive me1 now1 frame)) between at2)
    (ready2 : (session host).enabled at2 (.receive me2 now2 copy))
    (bytes : copy.serialize = frame.serialize) :
    (now2 ≤ timePlus now1 Settings.defaultSentPacketTimeout →
      (receive host me2 now2 copy at2.storage).calls = [] ∧
      (receive host me2 now2 copy at2.storage).storage = at2.storage) ∧
    (Passed (receive host me2 now2 copy at2.storage).calls →
      timePlus now1 Settings.defaultSentPacketTimeout < now2) ∧
    (0 ≤ now1 → now1 + 300000000000 < 9223372036854775808 →
      timePlus now1 Settings.defaultSentPacketTimeout = now1 + 300000000000) := by
  have suppressed : now2 ≤ timePlus now1 Settings.defaultSentPacketTimeout →
      (receive host me2 now2 copy at2.storage).calls = [] ∧
      (receive host me2 now2 copy at2.storage).storage = at2.storage := by
    intro soon
    have order : at2.clock ≤ now2 := ready2.1.1
    have fresh : (Packet.ofPdu frame now1).expiration.expired at2.clock = false := by
      exact Timeout.expiredMono order (decide_eq_false (not_lt.mpr soon))
    have held := runHeld run (passedHeld ready1.1.2 passed) fresh
    exact heldSilent ready2.1.2 held bytes
  refine ⟨suppressed, ?_, sentTimeoutExact⟩
  intro again
  by_contra late
  rw [(suppressed (not_lt.mp late)).1] at again
  simp [Passed] at again

def benchPassed : Store := (session bench).step benchStore (.receive ⟨1⟩ 5 (benchFrame 9 7))

def benchSwept : Store := (session bench).step benchPassed (.maintain (.updatePackets (.still 10)))

theorem copiesSuppressedBench : (receive bench ⟨2⟩ 20 (benchFrame 9 7) benchSwept.storage).calls = [] := by
  have passing : (session bench).enabled benchStore (.receive ⟨1⟩ 5 (benchFrame 9 7)) :=
    ⟨⟨by decide, by decide⟩, id⟩
  have sweeping : (session bench).enabled benchPassed (.maintain (.updatePackets (.still 10))) :=
    ⟨⟨by decide, trivial⟩, id⟩
  have returning : (session bench).enabled benchSwept (.receive ⟨2⟩ 20 (benchFrame 9 7)) :=
    ⟨⟨by decide, by decide⟩, id⟩
  have run : (session bench).Run benchPassed [.maintain (.updatePackets (.still 10))] benchSwept :=
    .cons sweeping (.nil _)
  have passed : Passed (receive bench ⟨1⟩ 5 (benchFrame 9 7) benchStore.storage).calls := .inl (by decide)
  exact ((copiesSuppressed passing passed run returning rfl).1 (by decide)).1

end LoopSuppression
end PsipSwitch
