import PsipSwitch.Lib.Machine
import PsipSwitch.Lib.Sweep

/-! The loop behind a sweep, with its iterator: it stands on an element, which is either
erased, the iterator then being on the one that followed, or passed. -/
namespace Sweep
variable {α : Type}

/- The container as it is, the place of the iterator, how often the clock has been read, and
what has been looked at. -/
structure Loop (α : Type) where
  container : List α
  it : Nat
  reading : Nat
  examined : List α

def Loop.begin (xs : List α) : Loop α := ⟨xs, 0, 0, []⟩

def Loop.turn (expired : α → Int → Bool) (time : Nat → Int) (l : Loop α) : Loop α := match l.container[l.it]? with
  | none => l
  | some x =>
    if expired x (time l.reading) then ⟨l.container.eraseIdx l.it, l.it, l.reading + 1, l.examined ++ [x]⟩
    else ⟨l.container, l.it + 1, l.reading + 1, l.examined ++ [x]⟩

def loop (expired : α → Int → Bool) (time : Nat → Int) : Machine (Loop α) Unit where
  enabled l _ := l.it < l.container.length
  step l _ := l.turn expired time

theorem turnSpec (expired : α → Int → Bool) (time : Nat → Int) (kept rest seen : List α) (x : α) (n : Nat) :
    Loop.turn expired time ⟨kept ++ x :: rest, kept.length, n, seen⟩ =
      if expired x (time n) then ⟨kept ++ rest, kept.length, n + 1, seen ++ [x]⟩
      else ⟨kept ++ x :: rest, kept.length + 1, n + 1, seen ++ [x]⟩ := by
  have here : (kept ++ x :: rest)[kept.length]? = some x := by
    rw [List.getElem?_append_right (le_refl _), Nat.sub_self, List.getElem?_cons_zero]
  have erased : (kept ++ x :: rest).eraseIdx kept.length = kept ++ rest := by
    rw [List.eraseIdx_append_of_length_le (le_refl _), Nat.sub_self, List.eraseIdx_cons_zero]
  simp only [Loop.turn, here, erased]

/- Between two turns: `kept` is what has stayed, and `rest` is what is still to come. -/
theorem loopRun (expired : α → Int → Bool) (time : Nat → Int) (kept rest seen : List α) (n : Nat) :
    (loop expired time).Run ⟨kept ++ rest, kept.length, n, seen⟩ (List.replicate rest.length ())
      ⟨kept ++ sweep expired time n rest, (kept ++ sweep expired time n rest).length, n + rest.length, seen ++ rest⟩ := by
  induction rest generalizing kept seen n with
  | nil =>
    simp only [sweep, List.append_nil, List.length_nil, List.replicate_zero, Nat.add_zero]
    exact .nil _
  | cons x rest ih =>
    have ready : (loop expired time).enabled ⟨kept ++ x :: rest, kept.length, n, seen⟩ () := by
      simp only [loop, List.length_append, List.length_cons]
      omega
    have turned : (loop expired time).step ⟨kept ++ x :: rest, kept.length, n, seen⟩ () = _ :=
      turnSpec expired time kept rest seen x n
    refine .cons ready ?_
    rw [turned]
    have count : n + (x :: rest).length = n + 1 + rest.length := by
      rw [List.length_cons]
      omega
    rw [sweep, count, List.append_cons seen x rest]
    split
    · exact ih kept (seen ++ [x]) (n + 1)
    · have later := ih (kept ++ [x]) (seen ++ [x]) (n + 1)
      simpa only [List.append_assoc, List.singleton_append, List.length_append, List.length_singleton] using later

theorem loopWhole (expired : α → Int → Bool) (time : Nat → Int) (xs : List α) :
    ∃ l, (loop expired time).Run (.begin xs) (List.replicate xs.length ()) l ∧ ¬ (loop expired time).enabled l () ∧
      l.examined = xs ∧ l.reading = xs.length ∧ l.container = sweep expired time 0 xs :=
  ⟨_, loopRun expired time [] xs [] 0, Nat.lt_irrefl _, rfl, Nat.zero_add _, rfl⟩

theorem loopEnds {expired : α → Int → Bool} {time : Nat → Int} {l m : Loop α} {turns : List Unit}
    (run : (loop expired time).Run l turns m) :
    turns.length + (m.container.length - m.it) = l.container.length - l.it := by
  induction run with
  | nil => exact Nat.zero_add _
  | @cons l _ turns m ready rest ih =>
    have here : l.it < l.container.length := ready
    have nearer : (l.turn expired time).container.length - (l.turn expired time).it + 1 =
        l.container.length - l.it := by
      simp only [Loop.turn, List.getElem?_eq_getElem here]
      split
      · simp only [List.length_eraseIdx_of_lt here]
        omega
      · simp only
        omega
    have later : turns.length + (m.container.length - m.it) =
        (l.turn expired time).container.length - (l.turn expired time).it := ih
    rw [List.length_cons]
    omega

def survivors (expired : α → Int → Bool) (time : Nat → Int) (n : Nat) (xs : List α) : List (α × Nat) :=
  (xs.zipIdx n).filter (fun it => !expired it.1 (time it.2))

theorem sweepSurvivors (expired : α → Int → Bool) (time : Nat → Int) (n : Nat) (xs : List α) :
    sweep expired time n xs = (survivors expired time n xs).map Prod.fst := by
  induction xs generalizing n with
  | nil => rfl
  | cons x rest ih =>
    have tail := ih (n + 1)
    simp only [survivors, sweep, List.zipIdx_cons, List.filter_cons] at tail ⊢
    cases gone : expired x (time n) with
    | true => exact tail
    | false => exact congrArg (x :: ·) tail

theorem sweepTimeless (p : α → Bool) (time : Nat → Int) (n : Nat) (xs : List α) :
    sweep (fun x _ => p x) time n xs = xs.filter (fun x => !p x) := by
  induction xs generalizing n with
  | nil => rfl
  | cons x rest ih =>
    simp only [sweep, List.filter_cons, ih]
    cases p x <;> rfl

structure Swept (expired : α → Int → Bool) (time : Nat → Int) (before after : List α) : Prop where
  ends : ∀ {turns l}, (loop expired time).Run (.begin before) turns l → turns.length ≤ before.length
  examines : ∃ l, (loop expired time).Run (.begin before) (List.replicate before.length ()) l ∧
    ¬ (loop expired time).enabled l () ∧ l.examined = before ∧ l.reading = before.length ∧ l.container = after
  order : ∃ left : List (α × Nat), left.Sublist before.zipIdx ∧ after = left.map Prod.fst ∧
    (∀ it ∈ before.zipIdx, expired it.1 (time (before.length - 1)) = false → it ∈ left) ∧
    (∀ it ∈ left, expired it.1 (time 0) = false) ∧
    (∀ it ∈ before.zipIdx, it ∉ left → expired it.1 (time it.2) = true)

theorem sweptSweep {expired : α → Int → Bool} {time : Nat → Int}
    (lasting : ∀ {x n m}, n ≤ m → expired x (time m) = false → expired x (time n) = false) (xs : List α) :
    Swept expired time xs (sweep expired time 0 xs) where
  ends := by
    intro turns l run
    have whole := loopEnds run
    have start : xs.length - 0 = turns.length + (l.container.length - l.it) := whole.symm
    omega
  examines := loopWhole expired time xs
  order := by
    refine ⟨survivors expired time 0 xs, List.filter_sublist, sweepSurvivors expired time 0 xs, ?_, ?_, ?_⟩
    · intro it member fresh
      have place : it.2 ≤ xs.length - 1 := by
        have bound := (List.mem_zipIdx (x := it.1) (i := it.2) member).2.1
        omega
      exact List.mem_filter.mpr ⟨member, by rw [lasting place fresh]; rfl⟩
    · intro it member
      have fresh := (List.mem_filter.mp member).2
      exact lasting (Nat.zero_le it.2) (by simpa using fresh)
    · intro it member gone
      by_contra fresh
      exact gone (List.mem_filter.mpr ⟨member, by simpa using fresh⟩)

end Sweep
