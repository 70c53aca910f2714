import PsipSwitch.Lib.Observations
import PsipSwitch.Lib.Program

/-! Threads that share a state behind one mutex. A section of a thread is a program, which the
thread begins when it has the mutex and goes through act by act; between two acts the others may
ask for the mutex, and wait. What they show is shown by a machine that takes each section whole. -/
namespace Mutex
open Program (alone Ready)
variable {ι σ κ α : Type}

inductive Place (σ κ α : Type) where
  | outside
  | waiting (c : κ)
  | inside (c : κ) (rest : Program σ α)

structure Threads (ι σ κ α : Type) where
  shared : σ
  holder : Option ι
  place : ι → Place σ κ α

inductive Turn (ι κ : Type) where
  | ask (i : ι) (c : κ)
  | lock (i : ι)
  | own (i : ι)
  | unlock (i : ι)

namespace Threads

def opened (s : σ) : Threads ι σ κ α := ⟨s, none, fun _ => .outside⟩

def Inside (t : Threads ι σ κ α) (i : ι) : Prop := ∃ c p, t.place i = .inside c p

def move [DecidableEq ι] (t : Threads ι σ κ α) (i : ι) (p : Place σ κ α) : Threads ι σ κ α :=
  { t with place := fun j => if j = i then p else t.place j }

end Threads

def proceed (p : Program σ α) (s : σ) : σ × Program σ α := match p with
  | .act _ next rest => (next s, rest s)
  | _ => (s, p)

theorem aloneProceed {p : Program σ α} {s : σ} (ready : p.Ready s) :
    alone (proceed p s).2 (proceed p s).1 = alone p s := by
  cases p with
  | done a => exact ready.elim
  | fault => exact ready.elim
  | act test next rest =>
    have now : test s = true := ready
    simp only [proceed, alone, now, if_true]

open Threads

def Exclusive (t : Threads ι σ κ α) : Prop := ∀ i, t.Inside i ↔ t.holder = some i

theorem openedExclusive (s : σ) : Exclusive (opened s : Threads ι σ κ α) :=
  fun _ => ⟨fun ⟨_, _, inside⟩ => (nomatch inside), fun held => (nomatch held)⟩

/- Seen whole, the section that is under way has not begun: it will do to `s` what its rest does
to the state there is. -/
structure Settles (allowed : σ → κ → Prop) (body : κ → Program σ α) (t : Threads ι σ κ α) (s : σ) : Prop where
  exclusive : Exclusive t
  free : t.holder = none → t.shared = s
  rest : ∀ i c p, t.place i = .inside c p → allowed s c ∧ alone p t.shared = alone (body c) s

theorem settlesOpened {allowed : σ → κ → Prop} {body : κ → Program σ α} (s : σ) :
    Settles allowed body (opened s : Threads ι σ κ α) s :=
  ⟨openedExclusive s, fun _ => rfl, fun _ _ _ inside => nomatch inside⟩

theorem insideOnly {t : Threads ι σ κ α} {i j : ι} (exclusive : Exclusive t) (first : t.Inside i) (second : t.Inside j) :
    j = i :=
  Option.some.inj (((exclusive j).mp second).symm.trans ((exclusive i).mp first))

variable [DecidableEq ι]

def locking (allowed : σ → κ → Prop) (body : κ → Program σ α) : Machine (Threads ι σ κ α) (Turn ι κ) where
  enabled t turn := match turn with
    | .ask i _ => t.place i = .outside
    | .lock i => t.holder = none ∧ ∃ c, t.place i = .waiting c ∧ allowed t.shared c
    | .own i => ∃ c p, t.place i = .inside c p ∧ p.Ready t.shared
    | .unlock i => ∃ c a, t.place i = .inside c (.done a)
  step t turn := match turn with
    | .ask i c => t.move i (.waiting c)
    | .lock i => match t.place i with
      | .waiting c => { t.move i (.inside c (body c)) with holder := some i }
      | _ => t
    | .own i => match t.place i with
      | .inside c p => { t.move i (.inside c (proceed p t.shared).2) with shared := (proceed p t.shared).1 }
      | _ => t
    | .unlock i => { t.move i .outside with holder := none }

def whole (allowed : σ → κ → Prop) (body : κ → Program σ α) : Machine σ (ι × κ) where
  enabled s e := allowed s e.2
  step s e := ((alone (body e.2) s).map Prod.snd).getD s

def gives (body : κ → Program σ α) (s : σ) (e : ι × κ) : List ((ι × κ) × α) :=
  ((alone (body e.2) s).map (fun result => (e, result.1))).toList

def given (t : Threads ι σ κ α) : Turn ι κ → List ((ι × κ) × α)
  | .unlock i => match t.place i with
    | .inside c (.done a) => [((i, c), a)]
    | _ => []
  | _ => []

section Serial
variable {allowed : σ → κ → Prop} {body : κ → Program σ α}

theorem insideMove {t : Threads ι σ κ α} {i j : ι} {p : Place σ κ α} (other : j ≠ i) :
    (t.move i p).Inside j ↔ t.Inside j := by
  simp only [Inside, move, if_neg other]

theorem insideSelf {t : Threads ι σ κ α} {i : ι} {p : Place σ κ α} : (t.move i p).Inside i ↔ ∃ c q, p = .inside c q := by
  simp only [Inside, move, if_true]

theorem stepExclusive {t : Threads ι σ κ α} {turn : Turn ι κ} (ready : (locking allowed body).enabled t turn)
    (before : Exclusive t) : Exclusive ((locking allowed body).step t turn) := by
  intro j
  cases turn with
  | ask i c =>
    by_cases here : j = i
    · subst here
      have out : t.place j = .outside := ready
      have free : ¬ t.Inside j := by
        rintro ⟨c', p, inside⟩
        exact nomatch out.symm.trans inside
      refine insideSelf.trans ⟨fun ⟨c', p, inside⟩ => (nomatch inside), fun held => ?_⟩
      exact absurd ((before j).mpr held) free
    · exact (insideMove here).trans (before j)
  | lock i =>
    obtain ⟨free, c, waits, _⟩ := ready
    simp only [locking, waits]
    by_cases here : j = i
    · subst here
      exact ⟨fun _ => rfl, fun _ => insideSelf.mpr ⟨c, body c, rfl⟩⟩
    · refine (insideMove (t := t) here).trans ((before j).trans ?_)
      rw [free]
      exact ⟨fun never => (nomatch never), fun held => absurd (Option.some.inj held).symm here⟩
  | own i =>
    obtain ⟨c, p, inside, _⟩ := ready
    simp only [locking, inside]
    by_cases here : j = i
    · subst here
      exact ⟨fun _ => (before j).mp ⟨c, p, inside⟩, fun _ => insideSelf.mpr ⟨c, _, rfl⟩⟩
    · exact (insideMove (t := t) here).trans (before j)
  | unlock i =>
    obtain ⟨c, a, inside⟩ := ready
    have held := (before i).mp ⟨c, _, inside⟩
    by_cases here : j = i
    · subst here
      exact insideSelf.trans ⟨fun ⟨c', p, never⟩ => (nomatch never), fun never => (nomatch never)⟩
    · refine (insideMove (t := t) here).trans ((before j).trans ?_)
      rw [held]
      exact ⟨fun same => absurd (Option.some.inj same).symm here, fun never => (nomatch never)⟩

theorem insideMoved {t : Threads ι σ κ α} {i j : ι} {place : Place σ κ α} {c : κ} {p : Program σ α}
    (there : (t.move i place).place j = .inside c p) :
    (j = i ∧ place = .inside c p) ∨ (j ≠ i ∧ t.place j = .inside c p) := by
  by_cases here : j = i
  · exact .inl ⟨here, (if_pos here).symm.trans there⟩
  · exact .inr ⟨here, (if_neg here).symm.trans there⟩

theorem settlesAsk {t : Threads ι σ κ α} {s : σ} {i : ι} {c : κ}
    (ready : (locking allowed body).enabled t (.ask i c)) (settles : Settles allowed body t s) :
    Settles allowed body ((locking allowed body).step t (.ask i c)) s := by
  refine ⟨stepExclusive ready settles.exclusive, settles.free, fun j c' p there => ?_⟩
  rcases insideMoved there with ⟨_, never⟩ | ⟨_, inside⟩
  · contradiction
  · exact settles.rest j c' p inside

theorem settlesLock {t : Threads ι σ κ α} {s : σ} {i : ι}
    (ready : (locking allowed body).enabled t (.lock i)) (settles : Settles allowed body t s) :
    Settles allowed body ((locking allowed body).step t (.lock i)) s := by
  have exclusive := stepExclusive ready settles.exclusive
  obtain ⟨free, c, waits, able⟩ := ready
  have same := settles.free free
  simp only [locking, waits] at exclusive ⊢
  refine ⟨exclusive, fun never => (nomatch never), fun j c' p there => ?_⟩
  rcases insideMoved there with ⟨_, begun⟩ | ⟨_, inside⟩
  · cases begun
    exact ⟨same ▸ able, congrArg (alone (body c)) same⟩
  · exact nomatch free.symm.trans ((settles.exclusive j).mp ⟨c', p, inside⟩)

theorem settlesOwn {t : Threads ι σ κ α} {s : σ} {i : ι}
    (ready : (locking allowed body).enabled t (.own i)) (settles : Settles allowed body t s) :
    Settles allowed body ((locking allowed body).step t (.own i)) s := by
  have exclusive := stepExclusive ready settles.exclusive
  obtain ⟨c, p, inside, able⟩ := ready
  have held := (settles.exclusive i).mp ⟨c, p, inside⟩
  obtain ⟨possible, will⟩ := settles.rest i c p inside
  simp only [locking, inside] at exclusive ⊢
  refine ⟨exclusive, fun free => (nomatch held.symm.trans free), fun j c' q there => ?_⟩
  rcases insideMoved there with ⟨_, further⟩ | ⟨other, also⟩
  · cases further
    exact ⟨possible, (aloneProceed able).trans will⟩
  · exact absurd (insideOnly settles.exclusive ⟨c, p, inside⟩ ⟨c', q, also⟩) other

/- The section counts as taken when the mutex is given back. -/
theorem settlesUnlock {t : Threads ι σ κ α} {s : σ} {i : ι} {c : κ} {a : α}
    (inside : t.place i = .inside c (.done a)) (settles : Settles allowed body t s) :
    Settles allowed body ((locking allowed body).step t (.unlock i)) ((whole allowed body).step s (i, c)) ∧
      gives body s (i, c) = [((i, c), a)] := by
  obtain ⟨_, will⟩ := settles.rest i c _ inside
  have done : (whole allowed body).step s (i, c) = t.shared := by
    simp only [whole, ← will, alone, Option.map_some, Option.getD_some]
  rw [done]
  refine ⟨⟨stepExclusive ⟨c, a, inside⟩ settles.exclusive, fun _ => rfl, fun j c' q there => ?_⟩, ?_⟩
  · rcases insideMoved there with ⟨_, never⟩ | ⟨other, also⟩
    · contradiction
    · exact absurd (insideOnly settles.exclusive ⟨c, _, inside⟩ ⟨c', q, also⟩) other
  · simp only [gives, ← will, alone, Option.map_some, Option.toList_some]

theorem settlesFollow {t : Threads ι σ κ α} {s : σ} {turn : Turn ι κ}
    (ready : (locking allowed body).enabled t turn) (settles : Settles allowed body t s) :
    ∃ es u, (whole allowed body).Run s es u ∧ Settles allowed body ((locking allowed body).step t turn) u ∧
      Machine.trace (whole allowed body) (gives body) s es = given t turn := by
  cases turn with
  | ask i c => exact ⟨[], s, .nil s, settlesAsk ready settles, rfl⟩
  | lock i => exact ⟨[], s, .nil s, settlesLock ready settles, rfl⟩
  | own i => exact ⟨[], s, .nil s, settlesOwn ready settles, rfl⟩
  | unlock i =>
    obtain ⟨c, a, inside⟩ := ready
    obtain ⟨after, shown⟩ := settlesUnlock inside settles
    refine ⟨[(i, c)], _, .cons (settles.rest i c _ inside).1 (.nil _), after, ?_⟩
    rw [Machine.trace, shown]
    simp only [Machine.trace, given, inside, List.append_nil]

theorem serial {s : σ} {t : Threads ι σ κ α} {turns : List (Turn ι κ)}
    (run : (locking allowed body).Run (opened s) turns t) :
    ∃ es u, (whole allowed body).Run s es u ∧ Settles allowed body t u ∧
      Machine.trace (whole allowed body) (gives body) s es =
        Machine.trace (locking allowed body) given (opened s) turns :=
  Machine.simulationTrace (gives body) (fun _ _ _ ready settles => settlesFollow ready settles) run (settlesOpened s)

end Serial

section Whole
variable {allowed : σ → κ → Prop} {body : κ → Program σ α}

def Whole (allowed : σ → κ → Prop) (body : κ → Program σ α) : Prop :=
  ∀ s c, allowed s c → ∃ result, alone (body c) s = some result

theorem moveMove (t : Threads ι σ κ α) (i : ι) (p q : Place σ κ α) : (t.move i p).move i q = t.move i q := by
  simp only [move, Threads.mk.injEq, true_and]
  funext j
  split <;> rfl

theorem moveSame {t : Threads ι σ κ α} {i : ι} {p : Place σ κ α} (there : t.place i = p) : t.move i p = t := by
  obtain ⟨shared, holder, place⟩ := t
  simp only [move, Threads.mk.injEq, true_and]
  funext j
  split
  · rename_i here
    rw [here]
    exact there.symm
  · rfl

theorem ownRuns (allowed : σ → κ → Prop) (body : κ → Program σ α) {t u : Threads ι σ κ α} {i : ι} {c : κ}
    {p : Program σ α} {a : α} {v : σ} (inside : t.place i = .inside c p) (ends : alone p t.shared = some (a, v))
    (last : u = { t.move i (.inside c (.done a)) with shared := v }) :
    ∃ n, (locking allowed body).Run t (List.replicate n (.own i)) u ∧
      Machine.trace (locking allowed body) given t (List.replicate n (.own i)) = [] := by
  subst last
  induction p generalizing t with
  | done b =>
    cases ends
    exact ⟨0, by rw [moveSame inside]; exact .nil t, rfl⟩
  | fault => contradiction
  | act ready next rest ih =>
    simp only [alone] at ends
    split at ends
    · rename_i now
      have able : (locking allowed body).enabled t (.own i) := ⟨c, _, inside, now⟩
      have moved : (locking allowed body).step t (.own i) =
          { t.move i (.inside c (rest t.shared)) with shared := next t.shared } := by
        simp only [locking, inside, proceed]
      obtain ⟨n, run, silent⟩ := ih t.shared (t := { t.move i (.inside c (rest t.shared)) with shared := next t.shared })
        (if_pos rfl) ends
      have same : ({ ({ t.move i (.inside c (rest t.shared)) with shared := next t.shared } : Threads ι σ κ α).move i
          (.inside c (.done a)) with shared := v } : Threads ι σ κ α) = { t.move i (.inside c (.done a)) with shared := v } :=
        congrArg (fun w : Threads ι σ κ α => { w with shared := v }) (moveMove t i _ _)
      rw [same] at run
      refine ⟨n + 1, .cons able (moved ▸ run), ?_⟩
      rw [List.replicate_succ, Machine.trace, moved, silent]
      rfl
    · contradiction

theorem releases (allowed : σ → κ → Prop) (body : κ → Program σ α) {t : Threads ι σ κ α} {i : ι} {c : κ}
    {p : Program σ α} {a : α} {v : σ} (inside : t.place i = .inside c p) (ends : alone p t.shared = some (a, v)) :
    ∃ n, (locking allowed body).Run t (List.replicate n (.own i) ++ [.unlock i])
        { t.move i .outside with shared := v, holder := none } ∧
      Machine.trace (locking allowed body) given t (List.replicate n (.own i) ++ [.unlock i]) = [((i, c), a)] := by
  obtain ⟨n, run, silent⟩ := ownRuns allowed body inside ends rfl
  have there : (t.move i (.inside c (.done a))).place i = .inside c (.done a) := if_pos rfl
  have able : (locking allowed body).enabled { t.move i (.inside c (.done a)) with shared := v } (.unlock i) :=
    ⟨c, a, there⟩
  have moved : (locking allowed body).step { t.move i (.inside c (.done a)) with shared := v } (.unlock i) =
      { t.move i .outside with shared := v, holder := none } :=
    congrArg (fun w : Threads ι σ κ α => { w with shared := v, holder := none }) (moveMove t i _ _)
  refine ⟨n, moved ▸ Machine.runSnoc run able, ?_⟩
  rw [Machine.traceAppend run, silent]
  simp only [Machine.trace, given, there, List.nil_append, List.append_nil]

/- No deadlock: whoever has the mutex can give it back, whatever the others do or wait for. -/
theorem frees (total : Whole allowed body) {s : σ} {t : Threads ι σ κ α} {i : ι} (settles : Settles allowed body t s)
    (held : t.holder = some i) :
    ∃ n u, (locking allowed body).Run t (List.replicate n (.own i) ++ [.unlock i]) u ∧ u.holder = none ∧
      ∀ j, j ≠ i → u.place j = t.place j := by
  obtain ⟨c, p, inside⟩ := (settles.exclusive i).mpr held
  obtain ⟨possible, will⟩ := settles.rest i c p inside
  obtain ⟨result, ends⟩ := total s c possible
  obtain ⟨n, run, _⟩ := releases allowed body inside (will.trans ends)
  exact ⟨n, _, run, rfl, fun j other => if_neg other⟩

theorem takesOne (total : Whole allowed body) {s : σ} {e : ι × κ} (able : allowed s e.2) :
    ∃ turns t, (locking allowed body).Run (opened s) turns t ∧ t = opened ((whole allowed body).step s e) ∧
      Machine.trace (locking allowed body) given (opened s) turns = gives body s e := by
  obtain ⟨i, c⟩ := e
  obtain ⟨⟨a, v⟩, ends⟩ := total s c able
  have asked : (locking allowed body).enabled (opened s) (.ask i c) := rfl
  have waits : ((opened s : Threads ι σ κ α).move i (.waiting c)).place i = .waiting c := if_pos rfl
  have locked : (locking allowed body).enabled ((opened s).move i (.waiting c)) (.lock i) := ⟨rfl, c, waits, able⟩
  have taken : (locking allowed body).step ((opened s).move i (.waiting c)) (.lock i) =
      { (opened s).move i (.inside c (body c)) with holder := some i } := by
    simp only [locking, waits]
    exact congrArg (fun w : Threads ι σ κ α => { w with holder := some i }) (moveMove _ i _ _)
  obtain ⟨n, run, shown⟩ := releases allowed body (ι := ι)
    (t := { (opened s).move i (.inside c (body c)) with holder := some i }) (if_pos rfl) ends
  have first : (locking allowed body).Run (opened s) [.ask i c, .lock i]
      { (opened s).move i (.inside c (body c)) with holder := some i } :=
    .cons asked (.cons locked (taken ▸ .nil _))
  refine ⟨_, _, Machine.runAppend first run, ?_, ?_⟩
  · have last : (whole allowed body).step s (i, c) = v := by
      simp only [whole, ends, Option.map_some, Option.getD_some]
    rw [last]
    simp only [opened, move, Threads.mk.injEq, true_and]
    funext j
    split <;> rfl
  · rw [Machine.traceAppend first, shown]
    simp only [Machine.trace, given, gives, ends, Option.map_some, Option.toList_some, List.nil_append]

theorem realised (total : Whole allowed body) {s u : σ} {es : List (ι × κ)} (run : (whole allowed body).Run s es u) :
    ∃ turns, (locking allowed body).Run (opened s : Threads ι σ κ α) turns (opened u) ∧
      Machine.trace (locking allowed body) given (opened s) turns = Machine.trace (whole allowed body) (gives body) s es := by
  obtain ⟨turns, t, other, same, shown⟩ := Machine.simulationTrace (n := locking allowed body) (given (ι := ι))
    (R := fun s t => t = opened s) (fun s t e ready same => by
      subst same
      exact takesOne total ready) run rfl
  exact ⟨turns, same ▸ other, shown⟩

end Whole
end Mutex
