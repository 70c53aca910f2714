import Mathlib.Order.Basic
import Mathlib.Algebra.GroupWithZero.Nat

/-! Guarded deterministic machines. Every nondeterministic choice is part of the
label, so a run is its start state and its list of labels. -/
structure Machine (σ ε : Type) where
  enabled : σ → ε → Prop
  step : σ → ε → σ

namespace Machine
variable {σ ε τ δ γ : Type} (m : Machine σ ε)

inductive Run : σ → List ε → σ → Prop where
  | nil (s) : Run s [] s
  | cons {s e es t} (ready : m.enabled s e) (rest : Run (m.step s e) es t) : Run s (e :: es) t

def Reachable (initial : σ → Prop) (t : σ) : Prop := ∃ s es, initial s ∧ Run m s es t

variable {m}

theorem runAppend {s t u es fs} (first : Run m s es t) (second : Run m t fs u) :
    Run m s (es ++ fs) u := by
  induction first with
  | nil => exact second
  | cons ready rest ih => exact .cons ready (ih second)

theorem runSplit {s u es fs} (run : Run m s (es ++ fs) u) : ∃ t, Run m s es t ∧ Run m t fs u := by
  induction es generalizing s with
  | nil => exact ⟨s, .nil s, run⟩
  | cons e es ih =>
    cases run with
    | cons ready rest =>
      obtain ⟨t, head, tail⟩ := ih rest
      exact ⟨t, .cons ready head, tail⟩

theorem runAt {s u es e fs} (run : Run m s (es ++ e :: fs) u) :
    ∃ t, Run m s es t ∧ m.enabled t e ∧ Run m (m.step t e) fs u := by
  obtain ⟨t, head, tail⟩ := runSplit run
  cases tail with
  | cons ready rest => exact ⟨t, head, ready, rest⟩

theorem runSnoc {s t es e} (run : Run m s es t) (ready : m.enabled t e) :
    Run m s (es ++ [e]) (m.step t e) :=
  runAppend run (.cons ready (.nil _))

theorem runInvariant {P : σ → Prop} {s t es} (keep : ∀ s e, m.enabled s e → P s → P (m.step s e))
    (run : Run m s es t) (start : P s) : P t := by
  induction run with
  | nil => exact start
  | cons ready rest ih => exact ih (keep _ _ ready start)

theorem reachableInvariant {initial P : σ → Prop} {t}
    (keep : ∀ s e, m.enabled s e → P s → P (m.step s e)) (start : ∀ s, initial s → P s)
    (reached : Reachable m initial t) : P t := by
  obtain ⟨s, es, first, run⟩ := reached
  exact runInvariant keep run (start s first)

theorem runsDown {P Q : σ → Prop} (size : σ → Nat)
    (down : ∀ s, P s → ¬ Q s → ∃ e, m.enabled s e ∧ P (m.step s e) ∧ size (m.step s e) < size s) {s} (start : P s) :
    ∃ es t, Run m s es t ∧ P t ∧ Q t := by
  induction left : size s using Nat.strongRecOn generalizing s with
  | ind n ih =>
    by_cases done : Q s
    · exact ⟨[], s, .nil s, start, done⟩
    · obtain ⟨e, ready, kept, less⟩ := down s start done
      obtain ⟨es, t, run, ended⟩ := ih _ (left ▸ less) kept rfl
      exact ⟨e :: es, t, .cons ready run, ended⟩

theorem reachableStep {initial : σ → Prop} {s e} (reached : Reachable m initial s)
    (ready : m.enabled s e) : Reachable m initial (m.step s e) := by
  obtain ⟨first, es, start, run⟩ := reached
  exact ⟨first, es ++ [e], start, runSnoc run ready⟩

section Restrict

def restrict (m : Machine σ ε) (guard : σ → ε → Prop) : Machine σ ε where
  enabled s e := m.enabled s e ∧ guard s e
  step := m.step

theorem runUnrestrict {guard : σ → ε → Prop} {s es t} (run : Run (restrict m guard) s es t) :
    Run m s es t := by
  induction run with
  | nil s => exact .nil s
  | cons ready rest ih => exact .cons ready.1 ih

theorem runRestrict (guard : σ → ε → Prop) {s es t} (run : Run m s es t) (all : ∀ u, ∀ e ∈ es, guard u e) :
    Run (restrict m guard) s es t := by
  induction run with
  | nil s => exact .nil s
  | @cons s e es t ready rest ih =>
    exact .cons ⟨ready, all s e List.mem_cons_self⟩ (ih (fun u d member => all u d (List.mem_cons_of_mem _ member)))

theorem runGuarded {guard : ε → Prop} {s es t} (run : Run (restrict m (fun _ e => guard e)) s es t) :
    ∀ e ∈ es, guard e := by
  induction run with
  | nil => exact fun _ member => absurd member List.not_mem_nil
  | cons ready rest ih => exact List.forall_mem_cons.mpr ⟨ready.2, ih⟩

end Restrict

/-! What an observer writes down while a run goes on. The observer sees the state
before each step and its label, never the state after it. -/
section Observe

def observe (m : Machine σ ε) (record : σ → ε → γ → γ) : σ → List ε → γ → γ
  | _, [], g => g
  | s, e :: es, g => observe m record (m.step s e) es (record s e g)

theorem observeInvariant {record : σ → ε → γ → γ} {R : σ → γ → Prop} {s t es g}
    (keep : ∀ s e g, m.enabled s e → R s g → R (m.step s e) (record s e g))
    (run : Run m s es t) (start : R s g) : R t (observe m record s es g) := by
  induction run generalizing g with
  | nil => exact start
  | cons ready rest ih => exact ih (keep _ _ _ ready start)

def tally (m : Machine σ ε) (count : σ → ε → Nat) (s : σ) (es : List ε) : Nat :=
  observe m (fun s e n => n + count s e) s es 0

theorem observeFrom (count : σ → ε → Nat) (s : σ) (es : List ε) (n : Nat) :
    observe m (fun s e k => k + count s e) s es n = n + tally m count s es := by
  induction es generalizing s n with
  | nil => rfl
  | cons e es ih =>
    simp only [tally, observe]
    rw [ih, ih (n := 0 + count s e)]
    omega

theorem tallyCons (count : σ → ε → Nat) (s : σ) (e : ε) (es : List ε) :
    tally m count s (e :: es) = count s e + tally m count (m.step s e) es := by
  simp only [tally, observe]
  rw [observeFrom, tally, Nat.zero_add]

theorem tallyZero (s : σ) (es : List ε) : tally m (fun _ _ => 0) s es = 0 := by
  induction es generalizing s with
  | nil => rfl
  | cons e es ih => rw [tallyCons, ih]

theorem tallyAdd (f g : σ → ε → Nat) (s : σ) (es : List ε) :
    tally m (fun s e => f s e + g s e) s es = tally m f s es + tally m g s es := by
  induction es generalizing s with
  | nil => rfl
  | cons e es ih =>
    simp only [tallyCons, ih]
    omega

theorem tallySum {κ : Type} (count : κ → σ → ε → Nat) (ks : List κ) (s : σ) (es : List ε) :
    (ks.map (fun k => tally m (count k) s es)).sum = tally m (fun s e => (ks.map (fun k => count k s e)).sum) s es := by
  induction ks with
  | nil => exact (tallyZero s es).symm
  | cons k ks ih =>
    simp only [List.map_cons, List.sum_cons, ih]
    exact (tallyAdd _ _ s es).symm

theorem observeRestrict (guard : σ → ε → Prop) (record : σ → ε → γ → γ) (s : σ) (es : List ε) (g : γ) :
    observe (restrict m guard) record s es g = observe m record s es g := by
  induction es generalizing s g with
  | nil => rfl
  | cons e es ih => exact ih _ _

end Observe

/-! The moments of a run: a state on the way and the label taken there. The states
follow from the start and the labels. -/
section Moments

def Moment (m : Machine σ ε) : σ → List ε → σ → ε → Prop
  | _, [], _, _ => False
  | s, e :: es, t, d => (t = s ∧ d = e) ∨ Moment m (m.step s e) es t d

theorem momentSplit {s u es t d} (run : Run m s es u) (moment : Moment m s es t d) :
    ∃ before after, es = before ++ d :: after ∧ Run m s before t ∧ m.enabled t d ∧
      Run m (m.step t d) after u := by
  induction run with
  | nil => exact moment.elim
  | @cons s e es u ready rest ih =>
    rcases moment with ⟨rfl, rfl⟩ | later
    · exact ⟨[], es, rfl, .nil _, ready, rest⟩
    · obtain ⟨before, after, same, head, enabled, tail⟩ := ih later
      exact ⟨e :: before, after, by rw [same, List.cons_append], .cons ready head, enabled, tail⟩

theorem momentEnabled {s u es t d} (run : Run m s es u) (moment : Moment m s es t d) : m.enabled t d := by
  obtain ⟨_, _, _, _, enabled, _⟩ := momentSplit run moment
  exact enabled

theorem tallySame {f g : σ → ε → Nat} {s es} (same : ∀ t d, Moment m s es t d → f t d = g t d) :
    tally m f s es = tally m g s es := by
  induction es generalizing s with
  | nil => rfl
  | cons e es ih =>
    have here := same s e (.inl ⟨rfl, rfl⟩)
    have rest := ih (fun t d later => same t d (.inr later))
    rw [tallyCons, tallyCons, here, rest]

end Moments

/-! A machine whose every step is a run of a second one. `P` is what the first
machine's own invariant contributes to the enabledness of the second's steps. -/
section Simulation

theorem simulation {n : Machine τ δ} {view : σ → τ} {P : σ → Prop} {s t es}
    (keep : ∀ s e, m.enabled s e → P s → P (m.step s e))
    (follow : ∀ s e, m.enabled s e → P s → ∃ fs, Run n (view s) fs (view (m.step s e)))
    (run : Run m s es t) (start : P s) : ∃ fs, Run n (view s) fs (view t) := by
  induction run with
  | nil s => exact ⟨[], .nil _⟩
  | cons ready rest ih =>
    obtain ⟨head, first⟩ := follow _ _ ready start
    obtain ⟨tail, second⟩ := ih (keep _ _ ready start)
    exact ⟨head ++ tail, runAppend first second⟩

end Simulation
end Machine
