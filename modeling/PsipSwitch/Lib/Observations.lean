import Mathlib.Algebra.BigOperators.Group.List.Basic
import Mathlib.Algebra.Order.Ring.Int
import Mathlib.Data.List.Forall2
import PsipSwitch.Lib.Machine

/-! Machines that are watched. An observer writes down what each step shows. A step may be
left out of a run where it shows nothing and what is shown later does not depend on it, and
a second machine accounts for a first one where it shows the same, step for run. -/
namespace Machine
variable {σ τ ε δ γ : Type} {m : Machine σ ε} {n : Machine τ δ}

def trace (m : Machine σ ε) (shows : σ → ε → List γ) : σ → List ε → List γ
  | _, [] => []
  | s, e :: es => shows s e ++ trace m shows (m.step s e) es

theorem traceAppend {shows : σ → ε → List γ} {s t : σ} {es fs : List ε} (run : m.Run s es t) :
    trace m shows s (es ++ fs) = trace m shows s es ++ trace m shows t fs := by
  induction run with
  | nil s => rfl
  | cons ready rest ih => simp only [List.cons_append, trace, ih, List.append_assoc]

theorem traceRestrict (guard : σ → ε → Prop) (shows : σ → ε → List γ) (s : σ) (es : List ε) :
    trace (m.restrict guard) shows s es = trace m shows s es := by
  induction es generalizing s with
  | nil => rfl
  | cons e es ih => exact congrArg (shows s e ++ ·) (ih _)

theorem traceFilterMap {η : Type} (shows : σ → ε → List γ) (g : γ → Option η) (s : σ) (es : List ε) :
    trace m (fun s e => (shows s e).filterMap g) s es = (trace m shows s es).filterMap g := by
  induction es generalizing s with
  | nil => rfl
  | cons e es ih => simp only [trace, List.filterMap_append, ih]

/- A count of what is shown, against a level that each step has to pay it from. `us` is what is
still to come. -/
theorem amortised {P : σ → Prop} {shows : σ → ε → List γ} {weight : γ → Int} (level : σ → Int) {s t : σ} {es : List ε}
    (pays : ∀ u e us, m.enabled u e → m.Run (m.step u e) us t → P u →
      P (m.step u e) ∧ level u + ((shows u e).map weight).sum ≤ level (m.step u e))
    (run : m.Run s es t) (start : P s) : P t ∧ level s + ((trace m shows s es).map weight).sum ≤ level t := by
  induction run with
  | nil s => exact ⟨start, le_of_eq (Int.add_zero _)⟩
  | @cons s e es t ready rest ih =>
    obtain ⟨still, paid⟩ := pays s e es ready rest start
    obtain ⟨ended, later⟩ := ih pays still
    refine ⟨ended, ?_⟩
    simp only [trace, List.map_append, List.sum_append]
    omega

/- `R` is what the other run still has in common with the first one. Where a step is not left
out it may be taken in a way that is only like it. -/
theorem purgeLike {visible : ε → Bool} {like : ε → ε → Prop} {shows : σ → ε → List γ} {R : σ → σ → Prop}
    (hidden : ∀ s t e, m.enabled s e → visible e = false → R s t → shows s e = [] ∧ R (m.step s e) t)
    (kept : ∀ s t e, m.enabled s e → visible e = true → R s t →
      ∃ d, like e d ∧ m.enabled t d ∧ shows t d = shows s e ∧ R (m.step s e) (m.step t d))
    {s t u : σ} {es : List ε} (run : m.Run s es u) (start : R s t) :
    ∃ ds v, List.Forall₂ like (es.filter visible) ds ∧ m.Run t ds v ∧ R u v ∧ trace m shows t ds = trace m shows s es := by
  induction run generalizing t with
  | nil s => exact ⟨[], t, .nil, .nil t, start, rfl⟩
  | @cons s e es u ready rest ih =>
    cases seen : visible e with
    | false =>
      obtain ⟨silent, still⟩ := hidden s t e ready seen start
      obtain ⟨ds, v, alike, other, related, same⟩ := ih still
      rw [List.filter_cons_of_neg (by simp [seen])]
      exact ⟨ds, v, alike, other, related, by rw [same, trace, silent, List.nil_append]⟩
    | true =>
      obtain ⟨d, like, enabled, shown, still⟩ := kept s t e ready seen start
      obtain ⟨ds, v, alike, other, related, same⟩ := ih still
      rw [List.filter_cons_of_pos seen]
      exact ⟨d :: ds, v, .cons like alike, .cons enabled other, related, by rw [trace, trace, same, shown]⟩

theorem purge {visible : ε → Bool} {shows : σ → ε → List γ} {R : σ → σ → Prop}
    (hidden : ∀ s t e, m.enabled s e → visible e = false → R s t → shows s e = [] ∧ R (m.step s e) t)
    (kept : ∀ s t e, m.enabled s e → visible e = true → R s t →
      m.enabled t e ∧ shows t e = shows s e ∧ R (m.step s e) (m.step t e))
    {s t u : σ} {es : List ε} (run : m.Run s es u) (start : R s t) :
    ∃ v, m.Run t (es.filter visible) v ∧ R u v ∧ trace m shows t (es.filter visible) = trace m shows s es := by
  have same (s t : σ) (e : ε) (ready : m.enabled s e) (seen : visible e = true) (related : R s t) :
      ∃ d, e = d ∧ m.enabled t d ∧ shows t d = shows s e ∧ R (m.step s e) (m.step t d) :=
    ⟨e, rfl, kept s t e ready seen related⟩
  obtain ⟨ds, v, alike, rest⟩ := purgeLike hidden same run start
  have equal : es.filter visible = ds := List.forall₂_eq_eq_eq ▸ alike
  rw [equal]
  exact ⟨v, rest⟩

theorem simulationTrace {shows : σ → ε → List γ} (tells : τ → δ → List γ) {R : σ → τ → Prop}
    (follow : ∀ s t e, m.enabled s e → R s t →
      ∃ fs u, n.Run t fs u ∧ R (m.step s e) u ∧ trace n tells t fs = shows s e)
    {s s' : σ} {es : List ε} (run : m.Run s es s') {t : τ} (start : R s t) :
    ∃ fs t', n.Run t fs t' ∧ R s' t' ∧ trace n tells t fs = trace m shows s es := by
  induction run generalizing t with
  | nil s => exact ⟨[], t, .nil t, start, rfl⟩
  | @cons s e es s' ready rest ih =>
    obtain ⟨head, u, first, related, shown⟩ := follow s t e ready start
    obtain ⟨tail, t', later, ended, told⟩ := ih related
    exact ⟨head ++ tail, t', runAppend first later, ended, by rw [traceAppend first, shown, told, trace]⟩

end Machine
