import PsipSwitch.Bridging
import PsipSwitch.WindowRuns

/-! The whole program is a learning bridge: whatever the windows do meanwhile, every frame goes
out where the bridge would send it, in the same order and at the same moments. -/
namespace PsipSwitch
namespace WindowBridging
open MainWindow NetworkSwitch SharedStorage Lifecycle Bridging
open NetworkHandle (transmitted receive)
open LearningBridge (Action Notice Passage bridge blank)
open Program (dutifulActs)

variable {host : Host}

def seen (host : Host) (t : Program.Thread MainWindow) : Program.Turn Event Call → List (Passage Interface Frame)
  | .other (.receive p now packet) => (t.shared.networkSwitch.handleAt p).toList.map (fun h =>
      ⟨h.interface, now, packet, {net | net ∈ transmitted (receive host h.interface now packet t.shared.storage).calls}⟩)
  | _ => []

def passing (host : Host) (s : Store) (op : Operation) : List (Passage Interface Frame) :=
  (notices host s op).filterMap Notice.passage?

theorem quietPassing {op : Operation} (quiet : Quiet op) (s : Store) : passing host s op = [] := by
  cases op with
  | receive me now packet => exact quiet.elim
  | request now draws request =>
    simp only [passing, notices, requested]
    split
    · split <;> rfl
    · split <;> rfl
    · rfl
  | maintain m => cases m <;> rfl
  | _ => rfl

theorem quietSeen {s : Store} {ops : List Operation} (quiet : ∀ op ∈ ops, Quiet op) :
    (sections host).trace (passing host) s ops = [] := by
  induction ops generalizing s with
  | nil => rfl
  | cons op ops ih =>
    rw [Machine.trace, quietPassing (quiet op List.mem_cons_self), ih (fun op member => quiet op (List.mem_cons_of_mem _ member))]
    rfl

theorem threadSeen (t : Program.Thread MainWindow) (e : Event) :
    (sections host).trace (passing host) (Refinement.view t.shared.system) (sectionsOf t.shared e) = seen host t (.other e) := by
  cases e with
  | receive p now packet =>
    simp only [sectionsOf, seen]
    cases t.shared.networkSwitch.handleAt p <;> rfl
  | exitNetwork p =>
    simp only [sectionsOf, seen]
    cases t.shared.networkSwitch.handleAt p <;> rfl
  | _ => exact quietSeen (by simp [sectionsOf, Quiet])

theorem turnSeen {t : Program.Thread MainWindow} {turn : Program.Turn Event Call} (ready : (program host).enabled t turn)
    (kept : Kept host t) : ∃ ops, (sections host).Run (Refinement.view t.shared.system) ops
      (Refinement.view ((program host).step t turn).shared.system) ∧
      (sections host).trace (passing host) (Refinement.view t.shared.system) ops = seen host t turn := by
  cases turn with
  | own =>
    obtain ⟨⟨_, ops, follows, quiet⟩, _⟩ := dutifulActs ready kept.1
    exact ⟨ops, follows, quietSeen quiet⟩
  | other e => exact ⟨sectionsOf t.shared e, threadFollows ready kept.2, threadSeen t e⟩
  | call c => exact ⟨[], .nil _, rfl⟩

theorem programSeen {t u : Program.Thread MainWindow} {turns : List (Program.Turn Event Call)}
    (run : (program host).Run t turns u) (kept : Kept host t) :
    ∃ ops, (sections host).Run (Refinement.view t.shared.system) ops (Refinement.view u.shared.system) ∧
      (sections host).trace (passing host) (Refinement.view t.shared.system) ops =
        (program host).trace (seen host) t turns := by
  have start : Refinement.view t.shared.system = Refinement.view t.shared.system ∧ Kept host t := ⟨rfl, kept⟩
  obtain ⟨ops, s, follows, ended, same⟩ := Machine.simulationTrace (n := sections host) (passing host)
    (R := fun t s => s = Refinement.view t.shared.system ∧ Kept host t) (fun t s turn ready related => by
      obtain ⟨rfl, kept⟩ := related
      obtain ⟨ops, follows, shown⟩ := turnSeen ready kept
      exact ⟨ops, _, follows, ⟨rfl, keptStep ready kept⟩, shown⟩) run start
  obtain ⟨rfl, _⟩ := ended
  exact ⟨ops, follows, same⟩

/- Frames are handled as a bridge handles them that has seen the whole run, and the tables
come to what that bridge knows. What it does otherwise is what the sections of the run do. -/
theorem programBridged {t u : Program.Thread MainWindow} {turns : List (Program.Turn Event Call)} (start : Initial t)
    (run : (program host).Run t turns u) :
    ∃ ops acts, (sections host).Run (Refinement.view t.shared.system) ops (Refinement.view u.shared.system) ∧
      (bridge (setting host)).Run (blank (setting host) t.shared.system.clock) acts
        (bridgeOf (Refinement.view u.shared.system)) ∧
      (bridge (setting host)).trace LearningBridge.shows (blank (setting host) t.shared.system.clock) acts =
        (sections host).trace (notices host) (Refinement.view t.shared.system) ops ∧
      ((bridge (setting host)).trace LearningBridge.shows (blank (setting host) t.shared.system.clock) acts).filterMap
        Notice.passage? = (program host).trace (seen host) t turns := by
  obtain ⟨ops, follows, shown⟩ := programSeen run (initialKept start)
  obtain ⟨clock, rfl⟩ := start
  have stamped : Stamped (initial clock).storage := fun _ member => absurd member List.not_mem_nil
  obtain ⟨acts, matched, same⟩ := sectionsBridged follows stamped
  refine ⟨ops, acts, follows, matched, same, ?_⟩
  rw [← shown]
  refine Eq.trans (congrArg (List.filterMap Notice.passage?) same) ?_
  exact (Machine.traceFilterMap (notices host) Notice.passage? _ ops).symm

theorem programBridgedBench : ∃ clock acts b, (bridge (setting bench)).Run (blank (setting bench) clock) acts b ∧
    ⟨⟨1⟩, 5, benchFrame 9 7, {net | net ∈ [⟨2⟩]}⟩ ∈
      ((bridge (setting bench)).trace LearningBridge.shows (blank (setting bench) clock) acts).filterMap Notice.passage? := by
  obtain ⟨first, turns, start, run⟩ := benchStartedReached
  have ready : (program bench).enabled ⟨benchStarted, .done ()⟩ (.other (.receive .first 5 (benchFrame 9 7))) :=
    ⟨trivial, by decide, ⟨⟨1⟩, true⟩, rfl, rfl⟩
  obtain ⟨_, acts, _, matched, _, same⟩ := programBridged start (Machine.runSnoc run ready)
  refine ⟨_, acts, _, matched, ?_⟩
  rw [same, Machine.traceAppend run]
  refine List.mem_append_right _ ?_
  have out : transmitted (receive bench ⟨1⟩ 5 (benchFrame 9 7) benchStarted.storage).calls = [⟨2⟩] := by decide
  rw [← out]
  exact List.mem_cons_self

end WindowBridging
end PsipSwitch
