import Mathlib.Data.List.Basic
import PsipSwitch.Lib.Program
import PsipSwitch.Lib.Sweep

/-! Loops of a program over a container in the shared state. Each turn looks at the container
as it is then, and a loop takes no more turns than there were elements when it began. -/
namespace Program
variable {σ β γ ρ : Type}

/- `visit` may stop the loop; `i` is the place of the iterator. -/
def walkFrom (container : σ → List β) (visit : Nat → β → γ → Program σ (ForInStep γ)) :
    Nat → Nat → γ → Program σ γ
  | 0, _, c => pure c
  | n + 1, i, c => do
    match ← read (fun s => (container s)[i]?) with
    | none => pure c
    | some x =>
      match ← visit i x c with
      | .done d => pure d
      | .yield d => walkFrom container visit n (i + 1) d

def walk (container : σ → List β) (visit : Nat → β → γ → Program σ (ForInStep γ)) (c : γ) : Program σ γ := do
  let n ← read (fun s => (container s).length)
  walkFrom container visit n 0 c

def visited (visit : Nat → β → γ → Program σ (ForInStep γ)) : Nat → List β → γ → σ → Option (γ × σ)
  | _, [], c, s => some (c, s)
  | i, x :: xs, c, s => match alone (visit i x c) s with
    | some (.done d, t) => some (d, t)
    | some (.yield d, t) => visited visit (i + 1) xs d t
    | none => none

theorem atFront {container : σ → List β} {front rest : List β} {x : β} {s : σ} (here : container s = front ++ x :: rest) :
    (container s)[front.length]? = some x := by
  rw [here, List.getElem?_append_right (le_refl _), Nat.sub_self, List.getElem?_cons_zero]

section Walk
variable {container : σ → List β} {visit : Nat → β → γ → Program σ (ForInStep γ)}

theorem aloneWalkFrom
    (keeps : ∀ i x c s d t, x ∈ container s → alone (visit i x c) s = some (.yield d, t) → container t = container s)
    (front rest : List β) (c : γ) {s : σ} (here : container s = front ++ rest) :
    alone (walkFrom container visit rest.length front.length c) s = visited visit front.length rest c s := by
  induction rest generalizing front c s with
  | nil => rfl
  | cons x rest ih =>
    have found := atFront here
    have member : x ∈ container s := here ▸ List.mem_append_right _ List.mem_cons_self
    simp only [List.length_cons, walkFrom, aloneBind, aloneRead, Option.bind_some, found, visited]
    rcases ends : alone (visit front.length x c) s with - | ⟨d | d, t⟩
    · rfl
    · rfl
    · have same : container t = (front ++ [x]) ++ rest := by
        rw [keeps _ x c s d t member ends, here, List.append_assoc, List.singleton_append]
      have later := ih (front ++ [x]) d same
      rw [List.length_append, List.length_singleton] at later
      exact later

theorem aloneWalk
    (keeps : ∀ i x c s d t, x ∈ container s → alone (visit i x c) s = some (.yield d, t) → container t = container s)
    (c : γ) (s : σ) : alone (walk container visit c) s = visited visit 0 (container s) c s := by
  simp only [walk, aloneBind, aloneRead, Option.bind_some]
  exact aloneWalkFrom keeps [] (container s) c rfl

theorem visitedFold {f : γ → β → γ} {g : σ → β → σ}
    (step : ∀ i x c s, alone (visit i x c) s = some (.yield (f c x), g s x)) (i : Nat) (xs : List β) (c : γ) (s : σ) :
    visited visit i xs c s = some (xs.foldl f c, xs.foldl g s) := by
  induction xs generalizing i c s with
  | nil => rfl
  | cons x xs ih =>
    simp only [visited, step]
    exact ih (i + 1) (f c x) (g s x)

theorem visitedEach {f : γ → β → γ} {g : Nat → σ → β → σ}
    (step : ∀ i x c s, alone (visit i x c) s = some (.yield (f c x), g i s x)) (i : Nat) (xs : List β) (c : γ) (s : σ) :
    visited visit i xs c s = some (xs.foldl f c, Sweep.eachTurn g i xs s) := by
  induction xs generalizing i c s with
  | nil => rfl
  | cons x xs ih =>
    simp only [visited, step]
    exact ih (i + 1) (f c x) (g i s x)

theorem visitedFind (hit : β → Bool) (pass : ∀ i x c s, hit x = false → alone (visit i x c) s = some (.yield c, s))
    (stop : ∀ i x c s, hit x = true → ∃ d t, alone (visit i x c) s = some (.done d, t)) (i : Nat) (xs : List β) (c : γ)
    (s : σ) : visited visit i xs c s = match xs.find? hit with
      | none => some (c, s)
      | some x => (alone (visit (i + xs.findIdx hit) x c) s).map (fun result => (result.1.value, result.2)) := by
  induction xs generalizing i with
  | nil => rfl
  | cons x xs ih =>
    unfold visited
    simp only [List.find?_cons, List.findIdx_cons]
    cases here : hit x with
    | true =>
      obtain ⟨d, t, ends⟩ := stop i x c s here
      simp only [cond_true, Nat.add_zero, ends, Option.map_some, ForInStep.value_done]
    | false =>
      have shift : i + (xs.findIdx hit + 1) = i + 1 + xs.findIdx hit := by omega
      simp only [pass i x c s here, cond_false]
      rw [shift]
      exact ih (i + 1)

theorem aloneSearch (container : σ → List β) (hit : β → Bool) (found : β → γ) (c : γ) (s : σ) :
    alone (walk container (fun _ x c => if hit x then pure (.done (found x)) else pure (.yield c)) c) s =
      some ((((container s).find? hit).map found).getD c, s) := by
  rw [aloneWalk, visitedFind hit]
  · cases look : (container s).find? hit with
    | none => rfl
    | some x =>
      simp only [List.find?_some look, if_true]
      rfl
  · intro i x c s miss
    simp only [miss, Bool.false_eq_true, if_false]
    rfl
  · intro i x c s here
    simp only [here, if_true]
    exact ⟨_, _, rfl⟩
  · intro i x c s d t _ ends
    split at ends <;> cases ends
    rfl

end Walk

/-! A loop that erases where its iterator stands, or passes on. The test at the `k`-th turn is
made with the `k`-th reading of the clock. -/
section Erase
variable {erase : Nat → σ → σ} {expired : β → Int → Bool} {time : Nat → Int}

def eraseFrom (container : σ → List β) (erase : Nat → σ → σ) (expired : β → Int → Bool) (time : Nat → Int) :
    Nat → Nat → Nat → Program σ Unit
  | 0, _, _ => pure ()
  | n + 1, k, it => do
    match ← read (fun s => (container s)[it]?) with
    | none => pure ()
    | some x =>
      if expired x (time k) then
        write (erase it)
        eraseFrom container erase expired time n (k + 1) it
      else eraseFrom container erase expired time n (k + 1) (it + 1)

def eraseLoop (container : σ → List β) (erase : Nat → σ → σ) (expired : β → Int → Bool) (time : Nat → Int) :
    Program σ Unit := do
  let n ← read (fun s => (container s).length)
  eraseFrom container erase expired time n 0 0

theorem aloneEraseFrom (container : σ → List β) (expired : β → Int → Bool) (time : Nat → Int) {frame : σ → ρ}
    (erases : ∀ i s, container (erase i s) = (container s).eraseIdx i)
    (frames : ∀ i s, frame (erase i s) = frame s) (k : Nat) (kept rest : List β) {s : σ}
    (here : container s = kept ++ rest) :
    ∃ t, alone (eraseFrom container erase expired time rest.length k kept.length) s = some ((), t) ∧
      container t = kept ++ Sweep.sweep expired time k rest ∧ frame t = frame s := by
  induction rest generalizing k kept s with
  | nil => exact ⟨s, rfl, here, rfl⟩
  | cons x rest ih =>
    have found := atFront here
    simp only [List.length_cons, eraseFrom, aloneBind, aloneRead, Option.bind_some, found, Sweep.sweep]
    by_cases gone : expired x (time k) = true
    · have left : container (erase kept.length s) = kept ++ rest := by
        rw [erases, here, List.eraseIdx_append_of_length_le (le_refl _), Nat.sub_self, List.eraseIdx_cons_zero]
      obtain ⟨t, ends, container, frame⟩ := ih (k + 1) kept left
      simp only [if_pos gone, aloneBind, aloneWrite, Option.bind_some]
      exact ⟨t, ends, container, frame.trans (frames _ s)⟩
    · have same : container s = (kept ++ [x]) ++ rest := by
        rw [here, List.append_assoc, List.singleton_append]
      obtain ⟨t, ends, container, frame⟩ := ih (k + 1) (kept ++ [x]) same
      rw [List.length_append, List.length_singleton] at ends
      rw [List.append_assoc, List.singleton_append] at container
      simp only [if_neg gone]
      exact ⟨t, ends, container, frame⟩

theorem aloneErase {τ : Type} (table : σ → τ) (elements : τ → List β) (fill : σ → τ → σ)
    (whole : ∀ s, fill s (table s) = s)
    (erases : ∀ i s, elements (table (erase i s)) = (elements (table s)).eraseIdx i)
    (frames : ∀ i s, fill (erase i s) = fill s) {s : σ} {left : τ}
    (only : ∀ u, elements u = Sweep.sweep expired time 0 (elements (table s)) → u = left) :
    alone (eraseLoop (fun s => elements (table s)) erase expired time) s = some ((), fill s left) := by
  obtain ⟨t, ends, swept, frame⟩ := aloneEraseFrom (fun s => elements (table s)) expired time erases frames 0 [] _ (s := s) rfl
  simp only [eraseLoop, aloneBind, aloneRead, Option.bind_some]
  have last : t = fill s left := by rw [← whole t, frame, only (table t) swept]
  exact last ▸ ends

end Erase
end Program
