import Mathlib.Data.List.Basic
import PsipSwitch.Lib.OrderedTable

/-! Loops that erase from the container they walk over, or write to it, with a clock that is
read anew at every element. -/
namespace Sweep

/- The readings of a clock that never goes back, one for each element. -/
structure Readings where
  time : Nat → Int
  ordered : ∀ {n m}, n ≤ m → time n ≤ time m
  last : Int
  bounded : ∀ n, time n ≤ last

def Readings.first (r : Readings) : Int := r.time 0

theorem Readings.firstLeLast (r : Readings) : r.first ≤ r.last := r.bounded 0

def Readings.still (now : Int) : Readings := ⟨fun _ => now, fun _ => Int.le_refl _, now, fun _ => Int.le_refl _⟩

def Readings.after (clock : Int) (r : Readings) : Readings where
  time n := clock + r.time n
  ordered order := Int.add_le_add_left (r.ordered order) clock
  last := clock + r.last
  bounded n := Int.add_le_add_left (r.bounded n) clock

variable {α : Type}

def sweep (expired : α → Int → Bool) (time : Nat → Int) : Nat → List α → List α
  | _, [] => []
  | n, x :: rest =>
      if expired x (time n) then sweep expired time (n + 1) rest
      else x :: sweep expired time (n + 1) rest

theorem sweepSublist (expired : α → Int → Bool) (time : Nat → Int) (n : Nat) (xs : List α) :
    (sweep expired time n xs).Sublist xs := by
  induction xs generalizing n with
  | nil => exact .slnil
  | cons x rest ih =>
    simp only [sweep]
    split
    · exact (ih (n + 1)).cons x
    · exact (ih (n + 1)).cons_cons x

theorem sweepKeeps {expired : α → Int → Bool} {time : Nat → Int} {n : Nat} {xs : List α} {x : α}
    (member : x ∈ xs) (fresh : ∀ k, expired x (time k) = false) : x ∈ sweep expired time n xs := by
  induction xs generalizing n with
  | nil => simp at member
  | cons y rest ih =>
    simp only [sweep]
    rcases List.mem_cons.mp member with rfl | inside
    · simp [fresh n]
    · split
      · exact ih inside
      · exact List.mem_cons_of_mem _ (ih inside)

theorem sweepPlaced {expired : α → Int → Bool} {time : Nat → Int} {n : Nat} {xs : List α} {x : α}
    (kept : x ∈ sweep expired time n xs) : ∃ k, xs[k]? = some x ∧ expired x (time (n + k)) = false := by
  induction xs generalizing n with
  | nil => simp [sweep] at kept
  | cons y rest ih =>
    have later (inside : x ∈ sweep expired time (n + 1) rest) :
        ∃ k, (y :: rest)[k]? = some x ∧ expired x (time (n + k)) = false := by
      obtain ⟨k, here, fresh⟩ := ih inside
      rw [Nat.add_assoc, Nat.add_comm 1 k] at fresh
      exact ⟨k + 1, here, fresh⟩
    simp only [sweep] at kept
    split at kept
    · exact later kept
    · rename_i fresh
      rcases List.mem_cons.mp kept with rfl | inside
      · exact ⟨0, rfl, by simpa using fresh⟩
      · exact later inside

def touch (f : α → Int → α) (time : Nat → Int) : Nat → List α → List α
  | _, [] => []
  | n, x :: rest => f x (time n) :: touch f time (n + 1) rest

theorem touchMap {β : Type} {g : α → β} {f : α → Int → α} (kept : ∀ x now, g (f x now) = g x) (time : Nat → Int) (n : Nat)
    (xs : List α) : (touch f time n xs).map g = xs.map g := by
  induction xs generalizing n with
  | nil => rfl
  | cons x rest ih => rw [touch, List.map_cons, List.map_cons, kept, ih]

def eachTurn {σ β : Type} (turn : Nat → σ → β → σ) : Nat → List β → σ → σ
  | _, [], s => s
  | n, x :: rest, s => eachTurn turn (n + 1) rest (turn n s x)

def removed (expired : α → Int → Bool) (time : Nat → Int) (p : α → Bool) : Nat → List α → Nat
  | _, [] => 0
  | n, x :: rest =>
      (if expired x (time n) && p x then 1 else 0) + removed expired time p (n + 1) rest

theorem sweepCount (expired : α → Int → Bool) (time : Nat → Int) (p : α → Bool) (n : Nat) (xs : List α) :
    (sweep expired time n xs).countP p + removed expired time p n xs = xs.countP p := by
  induction xs generalizing n with
  | nil => rfl
  | cons x rest ih =>
    have tail := ih (n + 1)
    simp only [sweep, removed, List.countP_cons]
    by_cases gone : expired x (time n) = true
    · simp only [gone, if_true, Bool.true_and]
      omega
    · simp only [gone, Bool.false_and, List.countP_cons, Bool.false_eq_true, if_false]
      omega

theorem findKeySweep {κ : Type} [DecidableEq κ] (key : α → κ) (expired : α → Int → Bool) (time : Nat → Int) (k : κ)
    (n : Nat) {xs : List α} (distinct : xs.Pairwise (fun a b => key a ≠ key b)) :
    (sweep expired time n xs).find? (fun x => key x = k) = (xs.find? (fun x => key x = k)).filter
      (fun x => !expired x (time (n + xs.findIdx (fun x => key x = k)))) := by
  induction xs generalizing n with
  | nil => rfl
  | cons x rest ih =>
    obtain ⟨apart, tail⟩ := List.pairwise_cons.mp distinct
    have later := ih (n + 1) tail
    by_cases here : key x = k
    · have absent : rest.find? (fun y => key y = k) = none := by
        refine List.find?_eq_none.mpr (fun y member same => ?_)
        exact apart y member (here.trans (of_decide_eq_true same).symm)
      rw [absent] at later
      simp only [sweep, List.find?_cons, List.findIdx_cons, here, decide_true, cond_true, Nat.add_zero, Option.filter_some]
      split
      · rename_i gone
        simp [later, gone]
      · rename_i fresh
        simp [here, fresh]
    · have shift : n + (rest.findIdx (fun x => key x = k) + 1) = n + 1 + rest.findIdx (fun x => key x = k) := by omega
      simp only [sweep, List.find?_cons, List.findIdx_cons, here, decide_false, cond_false]
      rw [shift, ← later]
      split
      · rfl
      · simp [here]

/-! Two containers that agree on the elements that meet a test can be swept so that they still
agree: the other loop makes its readings at other places, between the same two moments. -/
section Retimed
variable {expired : α → Int → Bool} {p : α → Bool}

def readingsAt (p : α → Bool) (time : Nat → Int) : Nat → List α → List Int
  | _, [] => []
  | n, x :: rest => if p x then time n :: readingsAt p time (n + 1) rest else readingsAt p time (n + 1) rest

def remaining (expired : α → Int → Bool) (es : List (α × Int)) : List α :=
  (es.filter (fun e => !expired e.1 e.2)).map Prod.fst

theorem filterSweep (time : Nat → Int) (n : Nat) (xs : List α) :
    (sweep expired time n xs).filter p = remaining expired ((xs.filter p).zip (readingsAt p time n xs)) := by
  induction xs generalizing n with
  | nil => rfl
  | cons x rest ih =>
    have later := ih (n + 1)
    unfold sweep readingsAt
    by_cases meets : p x = true
    · rw [List.filter_cons_of_pos meets, if_pos meets, List.zip_cons_cons]
      by_cases gone : expired x (time n) = true
      · rw [if_pos gone, later]
        simp [remaining, gone]
      · rw [if_neg gone, List.filter_cons_of_pos meets, later]
        simp [remaining, gone]
    · rw [List.filter_cons_of_neg meets, if_neg meets, ← later]
      split
      · rfl
      · exact List.filter_cons_of_neg meets

theorem readingsLength (time : Nat → Int) (n : Nat) (xs : List α) :
    (readingsAt p time n xs).length = (xs.filter p).length := by
  induction xs generalizing n with
  | nil => rfl
  | cons x rest ih =>
    unfold readingsAt
    rw [List.filter_cons]
    split
    · exact congrArg (· + 1) (ih (n + 1))
    · exact ih (n + 1)

theorem readingsInside (r : Readings) (n : Nat) (xs : List α) :
    ∀ now ∈ readingsAt p r.time n xs, r.time n ≤ now ∧ now ≤ r.last := by
  induction xs generalizing n with
  | nil => exact fun _ member => absurd member List.not_mem_nil
  | cons x rest ih =>
    have later (now : Int) (member : now ∈ readingsAt p r.time (n + 1) rest) : r.time n ≤ now ∧ now ≤ r.last := by
      obtain ⟨low, high⟩ := ih (n + 1) now member
      exact ⟨(r.ordered (Nat.le_succ n)).trans low, high⟩
    unfold readingsAt
    split
    · intro now member
      rcases List.mem_cons.mp member with rfl | inside
      · exact ⟨Int.le_refl _, r.bounded n⟩
      · exact later now inside
    · exact later

theorem readingsAscend (r : Readings) (n : Nat) (xs : List α) : (readingsAt p r.time n xs).Pairwise (· ≤ ·) := by
  induction xs generalizing n with
  | nil => exact .nil
  | cons x rest ih =>
    unfold readingsAt
    split
    · refine List.pairwise_cons.mpr ⟨fun now member => ?_, ih (n + 1)⟩
      exact (r.ordered (Nat.le_succ n)).trans (readingsInside r (n + 1) rest now member).1
    · exact ih (n + 1)

def Readings.lead (first : Int) (r : Readings) (order : first ≤ r.first) : Readings where
  time n := if n = 0 then first else r.time (n - 1)
  ordered := by
    intro n m sooner
    by_cases start : n = 0
    · rw [if_pos start]
      split
      · exact Int.le_refl _
      · exact order.trans (r.ordered (Nat.zero_le _))
    · rw [if_neg start, if_neg (by omega)]
      exact r.ordered (Nat.sub_le_sub_right sooner 1)
  last := r.last
  bounded n := by
    split
    · exact order.trans r.firstLeLast
    · exact r.bounded _

theorem readingsLead {first : Int} {r : Readings} (order : first ≤ r.first) (n : Nat) (xs : List α) :
    readingsAt p (r.lead first order).time (n + 1) xs = readingsAt p r.time n xs := by
  induction xs generalizing n with
  | nil => rfl
  | cons x rest ih =>
    unfold readingsAt
    rw [ih (n + 1)]
    rfl

theorem readingsExist {low high : Int} (span : low ≤ high) {times : List Int} {ys : List α}
    (fits : times.length = (ys.filter p).length) (ascend : times.Pairwise (· ≤ ·))
    (inside : ∀ now ∈ times, low ≤ now ∧ now ≤ high) :
    ∃ r : Readings, low ≤ r.first ∧ r.last = high ∧ readingsAt p r.time 0 ys = times := by
  induction ys generalizing low times with
  | nil =>
    have none : times = [] := List.eq_nil_of_length_eq_zero fits
    exact ⟨⟨fun _ => low, fun _ => Int.le_refl _, high, fun _ => span⟩, Int.le_refl _, rfl, none.symm⟩
  | cons y rest ih =>
    by_cases meets : p y = true
    · rw [List.filter_cons_of_pos meets] at fits
      obtain ⟨now, times, rfl⟩ := List.exists_cons_of_length_eq_add_one fits
      obtain ⟨sooner, later⟩ := List.pairwise_cons.mp ascend
      obtain ⟨begun, ended⟩ := inside now List.mem_cons_self
      obtain ⟨r, order, last, same⟩ := ih ended (Nat.succ.inj fits) later
        (fun next member => ⟨sooner next member, (inside next (List.mem_cons_of_mem _ member)).2⟩)
      refine ⟨r.lead now order, begun, last, ?_⟩
      rw [readingsAt, if_pos meets, readingsLead, same]
      rfl
    · rw [List.filter_cons_of_neg meets] at fits
      obtain ⟨r, order, last, same⟩ := ih span fits ascend inside
      refine ⟨r.lead low order, Int.le_refl _, last, ?_⟩
      rw [readingsAt, if_neg meets, readingsLead, same]

theorem reread (r : Readings) {xs ys : List α} (same : xs.filter p = ys.filter p) :
    ∃ r' : Readings, r.first ≤ r'.first ∧ r'.last = r.last ∧ readingsAt p r'.time 0 ys = readingsAt p r.time 0 xs := by
  have fits : (readingsAt p r.time 0 xs).length = (ys.filter p).length := by rw [readingsLength, same]
  exact readingsExist r.firstLeLast fits (readingsAscend r 0 xs) (readingsInside r 0 xs)

theorem retimed (expired : α → Int → Bool) (r : Readings) {xs ys : List α} (same : xs.filter p = ys.filter p) :
    ∃ r' : Readings, r.first ≤ r'.first ∧ r'.last = r.last ∧
      (sweep expired r.time 0 xs).filter p = (sweep expired r'.time 0 ys).filter p := by
  obtain ⟨r', first, last, again⟩ := reread r same
  exact ⟨r', first, last, by rw [filterSweep, filterSweep, same, again]⟩

theorem filterTouch {f : α → Int → α} (kept : ∀ x now, p (f x now) = p x) (time : Nat → Int) (n : Nat) (xs : List α) :
    (touch f time n xs).filter p = List.zipWith f (xs.filter p) (readingsAt p time n xs) := by
  induction xs generalizing n with
  | nil => rfl
  | cons x rest ih =>
    have later := ih (n + 1)
    unfold touch readingsAt
    rw [List.filter_cons, List.filter_cons, kept, later]
    split <;> rfl

theorem retouched {f : α → Int → α} (kept : ∀ x now, p (f x now) = p x) (r : Readings) {xs ys : List α}
    (same : xs.filter p = ys.filter p) : ∃ r' : Readings, r.first ≤ r'.first ∧ r'.last = r.last ∧
      (touch f r.time 0 xs).filter p = (touch f r'.time 0 ys).filter p := by
  obtain ⟨r', first, last, again⟩ := reread r same
  exact ⟨r', first, last, by rw [filterTouch kept, filterTouch kept, same, again]⟩

end Retimed

/-! Loops over the entries of an ordered table: each key is looked at once, at the
reading that belongs to its place. -/
section Table
variable {κ ρ ν : Type} [LinearOrder ρ] {rank : κ → ρ}

def place (rank : κ → ρ) (k : κ) (es : List (κ × ν)) : Nat := es.findIdx (fun e => rank e.1 = rank k)

theorem findInSweep (gone : ν → Int → Bool) (time : Nat → Int) (k : κ) (n : Nat) {es : List (κ × ν)}
    (sorted : es.Pairwise (fun a b => rank a.1 < rank b.1)) :
    OrderedTable.findIn rank k (sweep (fun e now => gone e.2 now) time n es) =
      (OrderedTable.findIn rank k es).filter (fun v => !gone v (time (n + place rank k es))) := by
  induction es generalizing n with
  | nil => rfl
  | cons e rest ih =>
    obtain ⟨below, tail⟩ := List.pairwise_cons.mp sorted
    have later := ih (n + 1) tail
    simp only [sweep, place, List.findIdx_cons] at later ⊢
    by_cases here : rank e.1 = rank k
    · have absent : OrderedTable.findIn rank k rest = none := by
        refine OrderedTable.findInAbove ?_
        intro d member
        rw [← here]
        exact below d member
      rw [absent] at later
      simp only [OrderedTable.findIn, here, decide_true, cond_true, Nat.add_zero, if_true, Option.filter_some]
      split
      · rename_i expired
        simp [later, expired]
      · rename_i fresh
        simp [OrderedTable.findIn, here, fresh]
    · simp only [OrderedTable.findIn, here, decide_false, cond_false, if_false]
      rw [show n + (rest.findIdx (fun e => decide (rank e.1 = rank k)) + 1) =
        n + 1 + rest.findIdx (fun e => decide (rank e.1 = rank k)) by omega, ← later]
      split
      · rfl
      · simp [OrderedTable.findIn, here]

theorem findSweep (t : OrderedTable rank ν) (gone : ν → Int → Bool) (time : Nat → Int) (k : κ) :
    (t.shrink (sweep (fun e now => gone e.2 now) time 0 t.entries) (sweepSublist _ _ _ _)).find? k =
      (t.find? k).filter (fun v => !gone v (time (place rank k t.entries))) := by
  have found := findInSweep gone time k 0 t.ascending
  rw [Nat.zero_add] at found
  exact found

def touchEntry (g : ν → Int → ν) (e : κ × ν) (now : Int) : κ × ν := (e.1, g e.2 now)

def touchTable (g : ν → Int → ν) (time : Nat → Int) (t : OrderedTable rank ν) : OrderedTable rank ν where
  entries := touch (touchEntry g) time 0 t.entries
  ascending := by
    have ranks : (touch (touchEntry g) time 0 t.entries).map (fun e => rank e.1) = t.entries.map (fun e => rank e.1) :=
      touchMap (f := touchEntry g) (fun _ _ => rfl) _ _ _
    have sorted : (t.entries.map (fun e => rank e.1)).Pairwise (· < ·) := List.pairwise_map.mpr t.ascending
    rw [← ranks] at sorted
    exact List.pairwise_map.mp sorted

theorem findInTouch (g : ν → Int → ν) (time : Nat → Int) (k : κ) (n : Nat) (es : List (κ × ν)) :
    OrderedTable.findIn rank k (touch (touchEntry g) time n es) =
      (OrderedTable.findIn rank k es).map (fun v => g v (time (n + place rank k es))) := by
  induction es generalizing n with
  | nil => rfl
  | cons e rest ih =>
    have later := ih (n + 1)
    simp only [touch, touchEntry, place, List.findIdx_cons, OrderedTable.findIn] at later ⊢
    by_cases here : rank e.1 = rank k
    · simp only [here, decide_true, cond_true, Nat.add_zero, if_true, Option.map_some]
    · have shift : n + (rest.findIdx (fun e => decide (rank e.1 = rank k)) + 1) =
          n + 1 + rest.findIdx (fun e => decide (rank e.1 = rank k)) := by omega
      simp only [here, decide_false, cond_false, if_false]
      rw [shift]
      exact later

theorem findTouch (g : ν → Int → ν) (time : Nat → Int) (t : OrderedTable rank ν) (k : κ) :
    (touchTable g time t).find? k = (t.find? k).map (fun v => g v (time (place rank k t.entries))) := by
  unfold OrderedTable.find?
  rw [touchTable, findInTouch, Nat.zero_add]

theorem touchKeys (g : ν → Int → ν) (d : ν) (time : Nat → Int) (t : OrderedTable rank ν) :
    eachTurn (fun n u k => u.update k (fun old => g (old.getD d) (time n))) 0 t.keys t = touchTable g time t := by
  have passes : ∀ (rest front : List (κ × ν)) (n : Nat) (u : OrderedTable rank ν), u.entries = front ++ rest →
      (eachTurn (fun n u k => u.update k (fun old => g (old.getD d) (time n))) n (rest.map Prod.fst) u).entries =
        front ++ touch (touchEntry g) time n rest := by
    intro rest
    induction rest with
    | nil => exact fun front n u here => here
    | cons e rest ih =>
      intro front n u here
      have below : ∀ x ∈ front, rank x.1 < rank e.1 := by
        have sorted := here ▸ u.ascending
        exact fun x member => (List.pairwise_append.mp sorted).2.2 x member e List.mem_cons_self
      have moved : (u.update e.1 (fun old => g (old.getD d) (time n))).entries =
          (front ++ [(e.1, g e.2 (time n))]) ++ rest := by
        simp only [OrderedTable.update, here, OrderedTable.updateInAt _ below, Option.getD_some, List.append_assoc,
          List.singleton_append]
      have later := ih _ (n + 1) _ moved
      rw [List.append_assoc, List.singleton_append] at later
      exact later
  exact OrderedTable.ext (passes t.entries [] 0 t rfl)

end Table
end Sweep
