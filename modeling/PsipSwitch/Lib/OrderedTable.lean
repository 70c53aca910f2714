import Mathlib.Order.Basic
import Mathlib.Order.Lattice
import Mathlib.Data.List.Basic

/-! Ordered association tables, in the manner of `std::map` with a comparator that
compares the ranks of two keys. Keys of one rank are one key to the table: the
entry keeps the key it was inserted with. -/
structure OrderedTable {κ ρ : Type} [LinearOrder ρ] (rank : κ → ρ) (ν : Type) where
  entries : List (κ × ν)
  ascending : entries.Pairwise (fun a b => rank a.1 < rank b.1)

namespace OrderedTable
variable {κ ρ ν : Type} [LinearOrder ρ] {rank : κ → ρ}

@[ext] theorem ext {s t : OrderedTable rank ν} (same : s.entries = t.entries) : s = t := by
  cases s; cases t; cases same; rfl

instance [DecidableEq κ] [DecidableEq ν] : DecidableEq (OrderedTable rank ν) := fun s t =>
  decidable_of_iff (s.entries = t.entries) ⟨ext, congrArg entries⟩

def empty : OrderedTable rank ν := ⟨[], .nil⟩

instance : Inhabited (OrderedTable rank ν) := ⟨empty⟩

def keys (t : OrderedTable rank ν) : List κ := t.entries.map Prod.fst

def findIn (rank : κ → ρ) (k : κ) : List (κ × ν) → Option ν
  | [] => none
  | e :: rest => if rank e.1 = rank k then some e.2 else findIn rank k rest

def find? (t : OrderedTable rank ν) (k : κ) : Option ν := findIn rank k t.entries

def contains (t : OrderedTable rank ν) (k : κ) : Bool := (t.find? k).isSome

/- `f` on what `operator[]` refers to, which it first inserts where there is none. -/
def updateIn (rank : κ → ρ) (k : κ) (f : Option ν → ν) : List (κ × ν) → List (κ × ν)
  | [] => [(k, f none)]
  | e :: rest =>
      if rank k < rank e.1 then (k, f none) :: e :: rest
      else if rank k = rank e.1 then (e.1, f (some e.2)) :: rest
      else e :: updateIn rank k f rest

theorem updateInRanks {k : κ} {f : Option ν → ν} {es : List (κ × ν)} {e : κ × ν}
    (member : e ∈ updateIn rank k f es) : rank e.1 = rank k ∨ ∃ d ∈ es, rank e.1 = rank d.1 := by
  induction es with
  | nil =>
    have same : e = (k, f none) := by simpa [updateIn] using member
    exact .inl (by rw [same])
  | cons d rest ih =>
    simp only [updateIn] at member
    split at member
    · rcases List.mem_cons.mp member with same | inside
      · exact .inl (by rw [same])
      · exact .inr ⟨e, inside, rfl⟩
    · split at member
      · rename_i same
        rcases List.mem_cons.mp member with here | inside
        · exact .inl (by rw [here, same])
        · exact .inr ⟨e, List.mem_cons_of_mem _ inside, rfl⟩
      · rcases List.mem_cons.mp member with here | inside
        · exact .inr ⟨d, List.mem_cons_self, by rw [here]⟩
        · rcases ih inside with same | ⟨d', present, same⟩
          · exact .inl same
          · exact .inr ⟨d', List.mem_cons_of_mem _ present, same⟩

theorem updateInAscending {k : κ} {f : Option ν → ν} {es : List (κ × ν)}
    (sorted : es.Pairwise (fun a b => rank a.1 < rank b.1)) :
    (updateIn rank k f es).Pairwise (fun a b => rank a.1 < rank b.1) := by
  induction es with
  | nil => simp [updateIn]
  | cons d rest ih =>
    obtain ⟨below, tail⟩ := List.pairwise_cons.mp sorted
    simp only [updateIn]
    split
    · rename_i less
      refine List.pairwise_cons.mpr ⟨?_, sorted⟩
      intro e member
      rcases List.mem_cons.mp member with rfl | inside
      · exact less
      · exact less.trans (below e inside)
    · split
      · exact List.pairwise_cons.mpr ⟨below, tail⟩
      · rename_i notLess different
        refine List.pairwise_cons.mpr ⟨?_, ih tail⟩
        intro e member
        rcases updateInRanks member with same | ⟨d', present, same⟩
        · rw [same]
          exact lt_of_le_of_ne (not_lt.mp notLess) (Ne.symm different)
        · rw [same]
          exact below d' present

def update (t : OrderedTable rank ν) (k : κ) (f : Option ν → ν) : OrderedTable rank ν :=
  ⟨updateIn rank k f t.entries, updateInAscending t.ascending⟩

def shrink (t : OrderedTable rank ν) (es : List (κ × ν)) (sub : es.Sublist t.entries) :
    OrderedTable rank ν :=
  ⟨es, t.ascending.sublist sub⟩

def filter (t : OrderedTable rank ν) (p : κ × ν → Bool) : OrderedTable rank ν :=
  t.shrink (t.entries.filter p) List.filter_sublist

def mapValues (t : OrderedTable rank ν) (g : ν → ν) : OrderedTable rank ν :=
  ⟨t.entries.map (fun e => (e.1, g e.2)), List.pairwise_map.mpr t.ascending⟩

/- The table of an initializer list: a key that is there already is not replaced. -/
def ofList (es : List (κ × ν)) : OrderedTable rank ν :=
  es.foldl (fun t e => t.update e.1 (fun old => old.getD e.2)) empty

@[simp] theorem emptyKeys : (empty : OrderedTable rank ν).keys = [] := rfl

theorem findInAbove {k : κ} {es : List (κ × ν)} (high : ∀ e ∈ es, rank k < rank e.1) :
    findIn rank k es = none := by
  induction es with
  | nil => rfl
  | cons d rest ih =>
    simp only [findIn, if_neg (ne_of_gt (high d List.mem_cons_self))]
    exact ih (fun e member => high e (List.mem_cons_of_mem _ member))

theorem findInBelow {k : κ} {d : κ × ν} {rest : List (κ × ν)} (less : rank k < rank d.1)
    (sorted : (d :: rest).Pairwise (fun a b => rank a.1 < rank b.1)) :
    findIn rank k (d :: rest) = none := by
  apply findInAbove
  intro e member
  rcases List.mem_cons.mp member with rfl | inside
  · exact less
  · exact less.trans ((List.pairwise_cons.mp sorted).1 e inside)

theorem findInUpdateSame {k k' : κ} (f : Option ν → ν) (same : rank k' = rank k) {es : List (κ × ν)}
    (sorted : es.Pairwise (fun a b => rank a.1 < rank b.1)) :
    findIn rank k' (updateIn rank k f es) = some (f (findIn rank k es)) := by
  induction es with
  | nil => simp [updateIn, findIn, same]
  | cons d rest ih =>
    obtain ⟨_, tail⟩ := List.pairwise_cons.mp sorted
    simp only [updateIn]
    split
    · rename_i less
      rw [findInBelow less sorted]
      simp [findIn, same]
    · split
      · rename_i here
        simp [findIn, same, here]
      · rename_i different
        have ne : rank d.1 ≠ rank k := Ne.symm different
        have ne' : rank d.1 ≠ rank k' := by rw [same]; exact ne
        simp only [findIn, if_neg ne, if_neg ne']
        exact ih tail

theorem findInUpdateOther {k k' : κ} (f : Option ν → ν) (other : rank k' ≠ rank k) (es : List (κ × ν)) :
    findIn rank k' (updateIn rank k f es) = findIn rank k' es := by
  induction es with
  | nil => simp [updateIn, findIn, Ne.symm other]
  | cons d rest ih =>
    simp only [updateIn]
    split
    · simp [findIn, Ne.symm other]
    · split
      · rename_i here
        have ne : rank d.1 ≠ rank k' := by rw [← here]; exact Ne.symm other
        simp [findIn, ne]
      · simp only [findIn, ih]

theorem findSame (t : OrderedTable rank ν) {k k' : κ} (same : rank k' = rank k) : t.find? k' = t.find? k := by
  have search : ∀ es : List (κ × ν), findIn rank k' es = findIn rank k es := by
    intro es
    induction es with
    | nil => rfl
    | cons d rest ih => simp only [findIn, same, ih]
  exact search t.entries

theorem findUpdateSame (t : OrderedTable rank ν) {k k' : κ} (f : Option ν → ν) (same : rank k' = rank k) :
    (t.update k f).find? k' = some (f (t.find? k)) := findInUpdateSame f same t.ascending

theorem findUpdateOther (t : OrderedTable rank ν) {k k' : κ} (f : Option ν → ν)
    (other : rank k' ≠ rank k) : (t.update k f).find? k' = t.find? k' :=
  findInUpdateOther f other t.entries

@[simp] theorem findUpdateSelf (t : OrderedTable rank ν) (k : κ) (f : Option ν → ν) :
    (t.update k f).find? k = some (f (t.find? k)) := t.findUpdateSame f rfl

theorem findOfEntry {t : OrderedTable rank ν} {e : κ × ν} (member : e ∈ t.entries) {k : κ}
    (same : rank e.1 = rank k) : t.find? k = some e.2 := by
  have found : ∀ es : List (κ × ν), es.Pairwise (fun a b => rank a.1 < rank b.1) → e ∈ es →
      findIn rank k es = some e.2 := by
    intro es sorted member
    induction es with
    | nil => simp at member
    | cons d rest ih =>
      obtain ⟨below, tail⟩ := List.pairwise_cons.mp sorted
      rcases List.mem_cons.mp member with rfl | inside
      · simp [findIn, same]
      · have ne : rank d.1 ≠ rank k := by rw [← same]; exact ne_of_lt (below e inside)
        simp only [findIn, if_neg ne]
        exact ih tail inside
  exact found t.entries t.ascending member

theorem entryOfFind {t : OrderedTable rank ν} {k : κ} {v : ν} (found : t.find? k = some v) :
    ∃ k', (k', v) ∈ t.entries ∧ rank k' = rank k := by
  have search : ∀ es : List (κ × ν), findIn rank k es = some v →
      ∃ k', (k', v) ∈ es ∧ rank k' = rank k := by
    intro es found
    induction es with
    | nil => simp [findIn] at found
    | cons d rest ih =>
      simp only [findIn] at found
      split at found
      · rename_i same
        cases Option.some.inj found
        exact ⟨d.1, List.mem_cons_self, same⟩
      · obtain ⟨k', present, same⟩ := ih found
        exact ⟨k', List.mem_cons_of_mem _ present, same⟩
  exact search t.entries found

theorem findIff {t : OrderedTable rank ν} {k : κ} {v : ν} :
    t.find? k = some v ↔ ∃ k', (k', v) ∈ t.entries ∧ rank k' = rank k :=
  ⟨entryOfFind, fun ⟨_, present, same⟩ => findOfEntry present same⟩

theorem containsIff {t : OrderedTable rank ν} {k : κ} :
    t.contains k = true ↔ ∃ k' ∈ t.keys, rank k' = rank k := by
  simp only [contains, Option.isSome_iff_exists, findIff, keys, List.mem_map]
  constructor
  · rintro ⟨v, k', present, same⟩
    exact ⟨k', ⟨_, present, rfl⟩, same⟩
  · rintro ⟨k', ⟨e, present, rfl⟩, same⟩
    exact ⟨e.2, e.1, present, same⟩

theorem findOfKey {t : OrderedTable rank ν} {k : κ} (member : k ∈ t.keys) : ∃ v, t.find? k = some v :=
  Option.isSome_iff_exists.mp (containsIff.mpr ⟨k, member, rfl⟩)

theorem updateInKeys {k : κ} (f : Option ν → ν) {es : List (κ × ν)} (present : findIn rank k es ≠ none)
    (sorted : es.Pairwise (fun a b => rank a.1 < rank b.1)) :
    (updateIn rank k f es).map Prod.fst = es.map Prod.fst := by
  induction es with
  | nil => simp [findIn] at present
  | cons d rest ih =>
    obtain ⟨_, tail⟩ := List.pairwise_cons.mp sorted
    simp only [updateIn]
    split
    · rename_i less
      exact absurd (findInBelow less sorted) present
    · split
      · rfl
      · rename_i different
        simp only [findIn, if_neg (Ne.symm different)] at present
        simp only [List.map_cons, ih present tail]

theorem updateKeys {t : OrderedTable rank ν} {k : κ} (f : Option ν → ν) (present : t.contains k = true) :
    (t.update k f).keys = t.keys := by
  refine updateInKeys f ?_ t.ascending
  intro absent
  simp only [contains, find?, absent, Option.isSome_none, Bool.false_eq_true] at present

theorem keysUpdate {t : OrderedTable rank ν} {k x : κ} {f : Option ν → ν}
    (member : x ∈ (t.update k f).keys) : x = k ∨ x ∈ t.keys := by
  have search : ∀ es : List (κ × ν), x ∈ (updateIn rank k f es).map Prod.fst →
      x = k ∨ x ∈ es.map Prod.fst := by
    intro es member
    induction es with
    | nil => exact .inl (by simpa [updateIn] using member)
    | cons d rest ih =>
      simp only [updateIn] at member
      split at member
      · simpa using member
      · split at member
        · exact .inr (by simpa using member)
        · rcases List.mem_cons.mp member with here | inside
          · exact .inr (by simp [here])
          · rcases ih inside with same | old
            · exact .inl same
            · exact .inr (List.mem_cons_of_mem _ old)
  exact search t.entries member

theorem keysKept {t : OrderedTable rank ν} {k x : κ} (f : Option ν → ν) (member : x ∈ t.keys) :
    x ∈ (t.update k f).keys := by
  have search : ∀ es : List (κ × ν), x ∈ es.map Prod.fst → x ∈ (updateIn rank k f es).map Prod.fst := by
    intro es member
    induction es with
    | nil => simp at member
    | cons d rest ih =>
      simp only [updateIn]
      split
      · exact List.mem_cons_of_mem _ member
      · split
        · simpa using member
        · rcases List.mem_cons.mp member with here | inside
          · simp [here]
          · exact List.mem_cons_of_mem _ (ih inside)
  exact search t.entries member

theorem updateIdle {t : OrderedTable rank ν} {k : κ} {f : Option ν → ν} {v : ν}
    (found : t.find? k = some v) (idle : f (some v) = v) : t.update k f = t := by
  have search : ∀ es : List (κ × ν), es.Pairwise (fun a b => rank a.1 < rank b.1) →
      findIn rank k es = some v → updateIn rank k f es = es := by
    intro es sorted found
    induction es with
    | nil => simp [findIn] at found
    | cons d rest ih =>
      obtain ⟨_, tail⟩ := List.pairwise_cons.mp sorted
      simp only [updateIn]
      split
      · rename_i less
        rw [findInBelow less sorted] at found
        contradiction
      · split
        · rename_i same
          simp only [findIn, if_pos same.symm, Option.some.injEq] at found
          rw [found, idle, ← found]
        · rename_i different
          simp only [findIn, if_neg (Ne.symm different)] at found
          rw [ih tail found]
  exact ext (search t.entries t.ascending found)

theorem updateInTwice (k : κ) (f g : Option ν → ν) (es : List (κ × ν)) :
    updateIn rank k g (updateIn rank k f es) = updateIn rank k (fun old => g (some (f old))) es := by
  induction es with
  | nil => simp only [updateIn, lt_irrefl, if_false, if_true]
  | cons d rest ih =>
    rcases lt_trichotomy (rank k) (rank d.1) with less | same | more
    · simp only [updateIn, if_pos less, lt_irrefl, if_false, if_true]
    · simp only [updateIn, same, lt_irrefl, if_false, if_true]
    · simp only [updateIn, if_neg (lt_asymm more), if_neg (ne_of_gt more), ih]

theorem updateTwice (t : OrderedTable rank ν) (k : κ) (f g : Option ν → ν) :
    (t.update k f).update k g = t.update k (fun old => g (some (f old))) := ext (updateInTwice k f g t.entries)

theorem updateInComm {a b : κ} (f g : Option ν → ν) (different : rank a ≠ rank b) (es : List (κ × ν)) :
    updateIn rank a f (updateIn rank b g es) = updateIn rank b g (updateIn rank a f es) := by
  induction es with
  | nil =>
    rcases lt_or_gt_of_ne different with less | less
    · simp only [updateIn, if_pos less, if_neg (lt_asymm less), if_neg different.symm]
    · simp only [updateIn, if_pos less, if_neg (lt_asymm less), if_neg different]
  | cons d rest ih =>
    rcases lt_trichotomy (rank a) (rank d.1) with lowA | sameA | highA <;>
    rcases lt_trichotomy (rank b) (rank d.1) with lowB | sameB | highB
    all_goals grind [updateIn]

theorem updateComm (t : OrderedTable rank ν) {a b : κ} (f g : Option ν → ν) (different : rank a ≠ rank b) :
    (t.update a f).update b g = (t.update b g).update a f :=
  ext (updateInComm g f different.symm t.entries)

theorem findShrink {t : OrderedTable rank ν} {es : List (κ × ν)} {sub : es.Sublist t.entries} {k : κ} {v : ν}
    (found : (t.shrink es sub).find? k = some v) : t.find? k = some v := by
  obtain ⟨k', present, same⟩ := entryOfFind found
  exact findOfEntry (sub.subset present) same

theorem findMapValues (t : OrderedTable rank ν) (g : ν → ν) (k : κ) :
    (t.mapValues g).find? k = (t.find? k).map g := by
  have search : ∀ es : List (κ × ν),
      findIn rank k (es.map (fun e => (e.1, g e.2))) = (findIn rank k es).map g := by
    intro es
    induction es with
    | nil => rfl
    | cons d rest ih =>
      simp only [List.map_cons, findIn]
      split
      · rfl
      · exact ih
  exact search t.entries

theorem mapValuesUpdate (t : OrderedTable rank ν) {k : κ} {f h : Option ν → ν} {g : ν → ν}
    (same : ∀ old, g (f old) = h (old.map g)) : (t.update k f).mapValues g = (t.mapValues g).update k h := by
  have search : ∀ es : List (κ × ν), (updateIn rank k f es).map (fun e => (e.1, g e.2)) =
      updateIn rank k h (es.map (fun e => (e.1, g e.2))) := by
    intro es
    induction es with
    | nil => simp only [updateIn, List.map_cons, List.map_nil, same, Option.map_none]
    | cons d rest ih =>
      simp only [updateIn, List.map_cons]
      split
      · simp only [List.map_cons, same, Option.map_none]
      · split
        · simp only [List.map_cons, same, Option.map_some]
        · simp only [List.map_cons, ih]
  exact ext (search t.entries)

theorem updateInFirst {k : κ} (f : Option ν → ν) {es : List (κ × ν)} (above : ∀ e ∈ es, rank k < rank e.1) :
    updateIn rank k f es = (k, f none) :: es := by
  cases es with
  | nil => rfl
  | cons e rest => rw [updateIn, if_pos (above e List.mem_cons_self)]

section Part
variable {part : κ → Bool} (ranked : ∀ k k', rank k = rank k' → part k = part k')
include ranked

theorem findInPart {k : κ} (inside : part k = true) (es : List (κ × ν)) :
    findIn rank k (es.filter (fun e => part e.1)) = findIn rank k es := by
  induction es with
  | nil => rfl
  | cons e rest ih =>
    rw [List.filter_cons]
    split
    · rw [findIn, findIn, ih]
    · rename_i away
      have other : rank e.1 ≠ rank k := fun same => away ((ranked _ _ same).trans inside)
      rw [ih, findIn, if_neg other]

theorem findPart (t : OrderedTable rank ν) {k : κ} (inside : part k = true) :
    (t.filter (fun e => part e.1)).find? k = t.find? k := findInPart ranked inside t.entries

theorem updateInOutside {k : κ} (f : Option ν → ν) (outside : part k = false) (es : List (κ × ν)) :
    (updateIn rank k f es).filter (fun e => part e.1) = es.filter (fun e => part e.1) := by
  induction es with
  | nil => simp [updateIn, outside]
  | cons e rest ih =>
    simp only [updateIn]
    split
    · exact List.filter_cons_of_neg (by simp [outside])
    · split
      · rename_i same
        have away : part e.1 = false := (ranked _ _ same).symm.trans outside
        simp [away]
      · rw [List.filter_cons, List.filter_cons, ih]

theorem updateInInside {k : κ} (f : Option ν → ν) (inside : part k = true) {es : List (κ × ν)}
    (sorted : es.Pairwise (fun a b => rank a.1 < rank b.1)) :
    (updateIn rank k f es).filter (fun e => part e.1) = updateIn rank k f (es.filter (fun e => part e.1)) := by
  induction es with
  | nil => simp [updateIn, inside]
  | cons e rest ih =>
    obtain ⟨below, tail⟩ := List.pairwise_cons.mp sorted
    have later := ih tail
    simp only [updateIn]
    split
    · rename_i less
      have above : ∀ d ∈ (e :: rest).filter (fun e => part e.1), rank k < rank d.1 := by
        intro d member
        rcases List.mem_cons.mp (List.mem_filter.mp member).1 with rfl | further
        · exact less
        · exact less.trans (below d further)
      rw [updateInFirst f above]
      exact List.filter_cons_of_pos inside
    · rename_i notLess
      split
      · rename_i same
        have here : part e.1 = true := (ranked _ _ same).symm.trans inside
        simp [here, updateIn, same]
      · rename_i different
        rw [List.filter_cons, List.filter_cons, later]
        split
        · rw [updateIn, if_neg notLess, if_neg different]
        · rfl

theorem updateInside (t : OrderedTable rank ν) {k : κ} (f : Option ν → ν) (inside : part k = true) :
    (t.update k f).filter (fun e => part e.1) = (t.filter (fun e => part e.1)).update k f :=
  ext (updateInInside ranked f inside t.ascending)

theorem updateOutside (t : OrderedTable rank ν) {k : κ} (f : Option ν → ν) (outside : part k = false) :
    (t.update k f).filter (fun e => part e.1) = t.filter (fun e => part e.1) :=
  ext (updateInOutside ranked f outside t.entries)

end Part

theorem updateInLast {k : κ} (f : Option ν → ν) {es : List (κ × ν)} (below : ∀ e ∈ es, rank e.1 < rank k) :
    updateIn rank k f es = es ++ [(k, f none)] := by
  induction es with
  | nil => rfl
  | cons d rest ih =>
    have first := below d List.mem_cons_self
    simp only [updateIn, if_neg (lt_asymm first), if_neg (ne_of_gt first), List.cons_append]
    rw [ih (fun e member => below e (List.mem_cons_of_mem _ member))]

theorem ofListAscending {es : List (κ × ν)} (sorted : es.Pairwise (fun a b => rank a.1 < rank b.1)) :
    (ofList es : OrderedTable rank ν).entries = es := by
  have grows : ∀ (es : List (κ × ν)) (t : OrderedTable rank ν),
      (t.entries ++ es).Pairwise (fun a b => rank a.1 < rank b.1) →
      (es.foldl (fun t e => t.update e.1 (fun old => old.getD e.2)) t).entries = t.entries ++ es := by
    intro es
    induction es with
    | nil => exact fun t _ => (List.append_nil _).symm
    | cons e rest ih =>
      intro t sorted
      have below : ∀ d ∈ t.entries, rank d.1 < rank e.1 := by
        intro d member
        exact (List.pairwise_append.mp sorted).2.2 d member e List.mem_cons_self
      have appended : (t.update e.1 (fun old => old.getD e.2)).entries = t.entries ++ [e] := updateInLast _ below
      rw [List.foldl_cons, ih _ (by rw [appended]; simpa using sorted), appended, List.append_assoc,
        List.singleton_append]
  exact grows es empty sorted

theorem updateInAt {k : κ} {v : ν} (f : Option ν → ν) {front rest : List (κ × ν)}
    (below : ∀ e ∈ front, rank e.1 < rank k) :
    updateIn rank k f (front ++ (k, v) :: rest) = front ++ (k, f (some v)) :: rest := by
  induction front with
  | nil => simp only [List.nil_append, updateIn, lt_irrefl, if_false, if_true]
  | cons d front ih =>
    have first := below d List.mem_cons_self
    simp only [List.cons_append, updateIn, if_neg (lt_asymm first), if_neg (ne_of_gt first)]
    rw [ih (fun e member => below e (List.mem_cons_of_mem _ member))]

theorem keysNodup (t : OrderedTable rank ν) : t.keys.Nodup :=
  List.pairwise_map.mpr (t.ascending.imp (fun less same => ne_of_lt less (congrArg rank same)))

end OrderedTable
