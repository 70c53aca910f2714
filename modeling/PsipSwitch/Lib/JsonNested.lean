import PsipSwitch.Lib.Json

/-! Texts within texts. A text that can be read on its own is read in an array or an object
as the same value, whatever white space it has around it, and so an array or an object of
such texts is the array or the object of their values. -/
namespace Json

theorem nextBehind {blank : Bytes} (empty : next blank = none) (rest : Bytes) : next (blank ++ rest) = next rest := by
  have drops : blank.dropWhile isSpace = [] := by
    simp only [next] at empty
    split at empty
    · assumption
    · contradiction
  have spaces : ∀ c ∈ blank, isSpace c = true := List.dropWhile_eq_nil_iff.mp drops
  simp only [next, List.dropWhile_append_of_pos spaces]

def Within {α : Type} (read : Nat → Reader α) (text : Bytes) (a : α) : Prop :=
  ∃ n blank, next blank = none ∧ ∀ m, n ≤ m → ∀ c rest, inToken c = false →
    read m (text ++ c :: rest) = some (a, blank ++ c :: rest)

theorem withinOfParses {text : Bytes} {v : Value} (parses : Parses text v) : Within value text v := by
  obtain ⟨n, blank, reads, empty⟩ := parses
  refine ⟨n, blank, empty, fun m large c rest outside => ?_⟩
  exact valueBy (by rintro _ ⟨⟩; exact outside) large _ _ reads

theorem withinMember {key text : Bytes} {v : Value} (clean : Clean key) (reads : Within value text v) :
    Within (fun n => member (value n)) (literal key ++ ':' :: text) (key, v) := by
  obtain ⟨n, blank, empty, reads⟩ := reads
  refine ⟨n, blank, empty, fun m large c rest outside => ?_⟩
  simp only [List.append_assoc, List.cons_append, member, nameClean clean, Option.bind_some, reads m large c rest outside,
    Option.map_some]

section Lists
variable {α : Type} {read : Nat → Reader α} {close : Char}

theorem readsItems (visible : isSpace close = false) (outside : inToken close = false) (other : close ≠ ',')
    {texts : List Bytes} {as : List α} (each : List.Forall₂ (Within read) texts as) (more : texts ≠ []) (rest : Bytes) :
    ∃ n, ∀ m k, n ≤ m → n ≤ k → items close (read m) k (closed close texts ++ rest) = some (as, rest) := by
  have comma : isSpace ',' = false := rfl
  induction each with
  | nil => contradiction
  | cons first others ih =>
    rename_i text a texts as
    obtain ⟨n, blank, empty, reads⟩ := first
    by_cases last : texts = []
    · subst last
      cases others
      refine ⟨n + 1, fun m k large enough => ?_⟩
      obtain ⟨k, rfl⟩ := Nat.exists_eq_succ_of_ne_zero (by omega : k ≠ 0)
      have front : closed close [text] ++ rest = text ++ close :: rest := by
        simp only [closed, List.append_assoc, List.cons_append, List.nil_append]
      simp only [front, items, reads m (by omega) close rest outside, Option.bind_some, nextBehind empty,
        nextVisible visible, if_neg other, if_true]
    · obtain ⟨n', readOthers⟩ := ih last
      refine ⟨n + n' + 1, fun m k large enough => ?_⟩
      obtain ⟨k, rfl⟩ := Nat.exists_eq_succ_of_ne_zero (by omega : k ≠ 0)
      have front : closed close (text :: texts) ++ rest = text ++ ',' :: (closed close texts ++ rest) := by
        simp only [closedCons last, List.append_assoc, List.cons_append]
      simp only [front, items, reads m (by omega) ',' _ rfl, Option.bind_some, nextBehind empty, nextVisible comma,
        if_true, readOthers m k (by omega) (by omega), Option.map_some]

theorem readsListed (visible : isSpace close = false) (outside : inToken close = false) (other : close ≠ ',')
    (begins : ∀ {m input a}, read m input = some a → ∃ c rest, next input = some (c, rest) ∧ c ≠ close)
    {texts : List Bytes} {as : List α} (each : List.Forall₂ (Within read) texts as) :
    ∃ n, ∀ m, n ≤ m → listed close (read m) m (closed close texts) = some (as, []) := by
  cases each with
  | nil =>
    refine ⟨0, fun m _ => ?_⟩
    simp only [closed, listed, nextVisible visible, Option.bind_some, if_true]
  | cons first others =>
    rename_i text a texts as
    obtain ⟨n, reads⟩ := readsItems visible outside other (.cons first others) (List.cons_ne_nil _ _) []
    refine ⟨n + 1, fun m large => ?_⟩
    have inside := reads m m (by omega) (by omega)
    rw [List.append_nil] at inside
    obtain ⟨m, rfl⟩ := Nat.exists_eq_succ_of_ne_zero (by omega : m ≠ 0)
    have item := inside
    simp only [items] at item
    obtain ⟨read, head, _⟩ := Option.bind_eq_some_iff.mp item
    obtain ⟨c, rest, starts, differs⟩ := begins head
    simp only [listed, starts, Option.bind_some, if_neg differs, inside]

end Lists

theorem valueBegins {m : Nat} {input : Bytes} {read : Value × Bytes} (reads : value m input = some read) :
    ∃ c rest, next input = some (c, rest) ∧ c ≠ ']' := by
  cases m with
  | zero => contradiction
  | succ m =>
    simp only [value] at reads
    obtain ⟨⟨c, rest⟩, first, reads⟩ := Option.bind_eq_some_iff.mp reads
    refine ⟨c, rest, first, ?_⟩
    rintro rfl
    have noQuote : ']' ≠ quote := by decide
    have noBracket : ']' ≠ '[' := by decide
    have noBrace : ']' ≠ openBrace := by decide
    have outside : inToken ']' = false := rfl
    simp only [if_neg noQuote, if_neg noBracket, if_neg noBrace, scalar, List.takeWhile_cons, outside,
      Bool.false_eq_true, if_false] at reads
    contradiction

theorem memberBegins {read : Reader Value} {input : Bytes} {a : (Bytes × Value) × Bytes}
    (reads : member read input = some a) : ∃ c rest, next input = some (c, rest) ∧ c ≠ closeBrace := by
  simp only [member, name] at reads
  obtain ⟨key, first, _⟩ := Option.bind_eq_some_iff.mp reads
  obtain ⟨⟨c, rest⟩, head, named⟩ := Option.bind_eq_some_iff.mp first
  refine ⟨c, rest, head, ?_⟩
  rintro rfl
  have noQuote : closeBrace ≠ quote := by decide
  simp only [if_neg noQuote, reduceCtorEq] at named

theorem parsesArray {texts : List Bytes} {vs : List Value} (each : List.Forall₂ Parses texts vs) :
    Parses ('[' :: closed ']' texts) (.array vs) := by
  obtain ⟨n, reads⟩ := @readsListed _ value ']' rfl rfl (by decide) valueBegins _ _
    (each.imp (fun _ _ parses => withinOfParses parses))
  refine ⟨n + 1, [], ?_, rfl⟩
  have visible : isSpace '[' = false := rfl
  have noQuote : '[' ≠ quote := by decide
  simp only [value, nextVisible visible, Option.bind_some, if_neg noQuote, if_true, reads n (Nat.le_refl n),
    Option.map_some]

theorem parsesObject {members : List (Bytes × Bytes)} {vs : List (Bytes × Value)}
    (each : List.Forall₂ (fun e m => e.1 = m.1 ∧ Clean e.1 ∧ Parses e.2 m.2) members vs) :
    Parses (openBrace :: closed closeBrace (members.map (fun e => literal e.1 ++ ':' :: e.2))) (.object vs) := by
  have inside : List.Forall₂ (Within (fun n => member (value n)))
      (members.map (fun e => literal e.1 ++ ':' :: e.2)) vs := by
    refine List.forall₂_map_left_iff.mpr (each.imp ?_)
    rintro ⟨key, text⟩ ⟨_, v⟩ ⟨rfl, clean, parses⟩
    exact withinMember clean (withinOfParses parses)
  obtain ⟨n, reads⟩ := @readsListed _ _ closeBrace rfl rfl (by decide) memberBegins _ _ inside
  refine ⟨n + 1, [], ?_, rfl⟩
  have visible : isSpace openBrace = false := rfl
  have noQuote : openBrace ≠ quote := by decide
  have noBracket : openBrace ≠ '[' := by decide
  simp only [value, nextVisible visible, Option.bind_some, if_neg noQuote, if_neg noBracket, if_true,
    reads n (Nat.le_refl n), Option.map_some]

theorem parsesToken {token : Bytes} {v : Value} (denotes : scalarOf token = some v)
    (inside : token.all inToken = true) : Parses token v := by
  have reads := @valueToken token [] v denotes inside (by simp) 0
  rw [List.append_nil] at reads
  exact ⟨1, [], reads, rfl⟩

theorem parsesLiteral {content : Bytes} (clean : Clean content) : Parses (literal content) (.string content) := by
  refine ⟨1, [], ?_, rfl⟩
  rw [literal, valueString, stringClean clean, Option.map_some]

theorem parsesDecimal (n : Int) : Parses (decimal n) (.number (decimal n)) :=
  parsesToken (scalarOfDecimal n) (List.all_eq_true.mpr (fun _ member => decimalInside member))

end Json
