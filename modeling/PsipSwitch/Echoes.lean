import PsipSwitch.Accounting

/-! Frames that are skipped as duplicates. The set of sent packets is one for all
interfaces: what is skipped has been passed on before, not necessarily to where it
comes from now. -/
namespace PsipSwitch
namespace Echoes
open NetworkHandle NetworkSwitch SharedStorage Forwarding LoopSuppression Accounting

def Skips (me : Interface) (now : Int) (packet : Frame) (s : SharedStorage) : Prop :=
  packet.ethernet?.isSome = true ∧ (s.interface me).up = true ∧ duplicate packet now s = true

structure Original (host : Host) (s : Store) (ops : List Operation) (packet : Frame) (u : Store) (me : Interface)
    (now : Int) (frame : Frame) : Prop where
  received : Received host s ops u me now frame
  bytes : frame.serialize = packet.serialize

theorem heldPassed {host : Host} {s t : Store} {ops : List Operation} (run : (sections host).Run s ops t)
    (fresh : s.storage.sentPackets = .empty) {packet : Frame} {now : Int}
    (hit : duplicate packet now t.storage = true) :
    ∃ u me earlier frame, Original host s ops packet u me earlier frame ∧
      Passed (receive host me earlier frame u.storage).calls := by
  obtain ⟨q, held, bytes⟩ := duplicateIff.mp hit
  rcases runRecorded run held with before | ⟨u, op, moment, recorded⟩
  · rw [Held, fresh] at before
    contradiction
  · cases op with
    | receive me earlier frame =>
      obtain ⟨rfl, passed⟩ := recorded
      exact ⟨u, me, earlier, frame, ⟨moment, bytes⟩, passed⟩
    | _ => exact recorded.elim

theorem namesAt {host : Host} {s t u : Store} {ops : List Operation} {op : Operation}
    (run : (sections host).Run s ops t) (empty : s.storage.macTable = .empty)
    (moment : (sections host).Moment s ops u op) : MacNames u.storage := by
  obtain ⟨_, _, _, head, _, _⟩ := Machine.momentSplit run moment
  refine Machine.runInvariant (P := fun s : Store => MacNames s.storage) (fun _ _ ready => stepMacNames ready) head ?_
  intro mac entry found
  rw [empty] at found
  contradiction

theorem skippedPassed {host : Host} {s t : Store} {ops : List Operation} (run : (session host).Run s ops t)
    (fresh : s.storage.sentPackets = .empty) (empty : s.storage.macTable = .empty) {i : Interface} {now : Int}
    {packet : Frame} (skips : Skips i now packet t.storage) :
    ∃ u me earlier frame, Original host s ops packet u me earlier frame ∧
      Passed (receive host me earlier frame u.storage).calls ∧
      ((∃ other, u.storage.Registered other ∧ other ≠ me) → Deliverable host me earlier frame u.storage →
        ∃ net, net ≠ me ∧ net ∈ transmitted (receive host me earlier frame u.storage).calls) := by
  have whole := Machine.runUnrestrict run
  obtain ⟨u, me, earlier, frame, original, passed⟩ := heldPassed whole fresh skips.2.2
  refine ⟨u, me, earlier, frame, original, passed, ?_⟩
  intro accompanied deliverable
  have registered : u.storage.Registered me := (Machine.momentEnabled whole original.received).2
  have accounted := (accountedIff registered accompanied).mpr deliverable
  obtain ⟨net, member⟩ := List.exists_mem_of_ne_nil _ (passedDelivered registered accounted passed)
  have sound := receiveSound host earlier frame registered (namesAt whole empty original.received)
  refine ⟨net, ?_, member⟩
  rintro rfl
  exact sound.horizon member

def benchOnce : Store := (session bench).step benchStore (.receive ⟨1⟩ 1 (benchFrame 9 7))

theorem benchOnceReady : (session bench).enabled benchStore (.receive ⟨1⟩ 1 (benchFrame 9 7)) :=
  ⟨⟨by decide, by decide⟩, id⟩

theorem benchSkips : Skips ⟨1⟩ 2 (benchFrame 9 7) benchOnce.storage := ⟨rfl, by decide, by decide⟩

theorem skippedPassedBench : ∃ u me earlier frame,
    Original bench benchStore [.receive ⟨1⟩ 1 (benchFrame 9 7)] (benchFrame 9 7) u me earlier frame ∧
    Passed (receive bench me earlier frame u.storage).calls := by
  obtain ⟨u, me, earlier, frame, original, passed, _⟩ :=
    skippedPassed (.cons benchOnceReady (.nil _)) rfl rfl benchSkips
  exact ⟨u, me, earlier, frame, original, passed⟩

/- The second copy is skipped on interface 1, where the first one never went out. -/
theorem repeatedSkipped : ¬ ∀ (host : Host) (s t : Store) (ops : List Operation) (i : Interface) (now : Int)
    (packet : Frame), (session host).Run s ops t → s.storage.sentPackets = .empty → s.storage.macTable = .empty →
    Skips i now packet t.storage → ∃ u me earlier frame, Original host s ops packet u me earlier frame ∧
      i ∈ transmitted (receive host me earlier frame u.storage).calls := by
  intro claim
  obtain ⟨u, me, earlier, frame, original, sent⟩ := claim bench benchStore benchOnce [.receive ⟨1⟩ 1 (benchFrame 9 7)]
    ⟨1⟩ 2 (benchFrame 9 7) (.cons benchOnceReady (.nil _)) rfl rfl benchSkips
  rcases original.received with ⟨rfl, same⟩ | later
  · cases same
    exact absurd sent (by decide)
  · exact later.elim

end Echoes
end PsipSwitch
