import Mathlib.Data.List.Forall2
import Mathlib.Data.List.TakeWhile
import PsipSwitch.Lib.JsonString

/-! JSON texts and their values. `Parses` is the grammar, read from left to right. What
is said of an encoder is said text by text: when the text reads back as what it shows,
and that it can be read as that in no other way. -/
namespace Json

inductive Value where
  | null
  | bool (b : Bool)
  | number (literal : Bytes)
  | string (content : Bytes)
  | array (items : List Value)
  | object (members : List (Bytes × Value))

def openBrace : Char := Char.ofNat 123
def closeBrace : Char := Char.ofNat 125

def isSpace (c : Char) : Bool := c == ' ' || c.toNat == 9 || c.toNat == 10 || c.toNat == 13

def next (input : Bytes) : Option (Char × Bytes) := match input.dropWhile isSpace with
  | [] => none
  | c :: rest => some (c, rest)

def isExponent : Bytes → Bool
  | [] => true
  | c :: rest =>
    (c == 'e' || c == 'E') &&
      (if rest.head? = some '+' ∨ rest.head? = some '-' then
        rest.tail ≠ [] && rest.tail.all Char.isDigit
      else rest ≠ [] && rest.all Char.isDigit)

def isFraction : Bytes → Bool
  | [] => true
  | c :: rest =>
    if c = '.' then rest.takeWhile Char.isDigit ≠ [] && isExponent (rest.dropWhile Char.isDigit)
    else isExponent (c :: rest)

def isUnsigned : Bytes → Bool
  | [] => false
  | c :: rest => c.isDigit && (if c = '0' then isFraction rest else isFraction (rest.dropWhile Char.isDigit))

def isNumber : Bytes → Bool
  | [] => false
  | c :: rest => if c = '-' then isUnsigned rest else isUnsigned (c :: rest)

def inToken (c : Char) : Bool := c.isAlphanum || c == '+' || c == '-' || c == '.'

def scalarOf (token : Bytes) : Option Value :=
  if token = ['t', 'r', 'u', 'e'] then some (.bool true)
  else if token = ['f', 'a', 'l', 's', 'e'] then some (.bool false)
  else if token = ['n', 'u', 'l', 'l'] then some .null
  else if isNumber token then some (.number token)
  else none

def scalar (input : Bytes) : Option (Value × Bytes) :=
  (scalarOf (input.takeWhile inToken)).map (fun v => (v, input.dropWhile inToken))

abbrev Reader (α : Type) := Bytes → Option (α × Bytes)

def items {α : Type} (close : Char) (read : Reader α) : Nat → Reader (List α)
  | 0, _ => none
  | n + 1, input =>
    (read input).bind (fun first => (next first.2).bind (fun after =>
      if after.1 = ',' then (items close read n after.2).map (fun others => (first.1 :: others.1, others.2))
      else if after.1 = close then some ([first.1], after.2)
      else none))

def listed {α : Type} (close : Char) (read : Reader α) (n : Nat) : Reader (List α) := fun input =>
  (next input).bind (fun head => if head.1 = close then some ([], head.2) else items close read n input)

def name (input : Bytes) : Option (Bytes × Bytes) :=
  (next input).bind (fun head =>
    if head.1 = quote then
      (string (.text []) head.2).bind (fun content => (next content.2).bind (fun after =>
        if after.1 = ':' then some (content.1, after.2) else none))
    else none)

def member (read : Reader Value) : Reader (Bytes × Value) := fun input =>
  (name input).bind (fun key => (read key.2).map (fun v => ((key.1, v.1), v.2)))

/- The first argument bounds the nesting and the number of items. -/
def value : Nat → Reader Value
  | 0, _ => none
  | n + 1, input => (next input).bind (fun head =>
      if head.1 = quote then (string (.text []) head.2).map (fun content => (.string content.1, content.2))
      else if head.1 = '[' then (listed ']' (value n) n head.2).map (fun list => (.array list.1, list.2))
      else if head.1 = openBrace then
        (listed closeBrace (member (value n)) n head.2).map (fun list => (.object list.1, list.2))
      else scalar (head.1 :: head.2))

def Parses (text : Bytes) (v : Value) : Prop := ∃ n rest, value n text = some (v, rest) ∧ next rest = none

/- What has been read is read again with a larger bound, and with more behind it that does
not go on with the last token. So a text has one value at most. -/

def Extends {α : Type} (small large : Reader α) : Prop :=
  ∀ input read, small input = some read → large input = some read

def ExtendsBy {α : Type} (behind : Bytes) (small large : Reader α) : Prop :=
  ∀ input read, small input = some read → large (input ++ behind) = some (read.1, read.2 ++ behind)

theorem nextIff {input rest : Bytes} {c : Char} :
    next input = some (c, rest) ↔ input.dropWhile isSpace = c :: rest := by
  simp only [next]
  split
  · rename_i none
    simp only [none, reduceCtorEq]
  · rename_i d others first
    simp only [first, Option.some.injEq, Prod.mk.injEq, List.cons.injEq]

theorem nextAppend {input : Bytes} {head : Char × Bytes} (first : next input = some head) (behind : Bytes) :
    next (input ++ behind) = some (head.1, head.2 ++ behind) := by
  have drops := nextIff.mp first
  rw [nextIff, List.dropWhile_append, drops]
  rfl

section Behind
variable {α : Type} {close : Char} {behind : Bytes} {n m : Nat}

theorem itemsBy {small large : Reader α} (grows : ExtendsBy behind small large) (more : n ≤ m) :
    ExtendsBy behind (items close small n) (items close large m) := by
  induction n generalizing m with
  | zero =>
    intro input read reads
    contradiction
  | succ n ih =>
    obtain ⟨m, rfl⟩ := Nat.exists_eq_succ_of_ne_zero (by omega : m ≠ 0)
    intro input read reads
    simp only [items] at reads ⊢
    obtain ⟨first, head, reads⟩ := Option.bind_eq_some_iff.mp reads
    obtain ⟨after, following, reads⟩ := Option.bind_eq_some_iff.mp reads
    simp only [grows _ _ head, Option.bind_some, nextAppend following]
    split at reads
    · rename_i comma
      obtain ⟨others, tail, same⟩ := Option.map_eq_some_iff.mp reads
      subst same
      simp only [if_pos comma, ih (by omega : n ≤ m) _ _ tail, Option.map_some]
    · rename_i other
      rw [if_neg other]
      split at reads
      · rename_i closes
        cases reads
        rw [if_pos closes]
      · contradiction

theorem listedBy {small large : Reader α} (grows : ExtendsBy behind small large) (more : n ≤ m) :
    ExtendsBy behind (listed close small n) (listed close large m) := by
  intro input read reads
  simp only [listed] at reads ⊢
  obtain ⟨head, first, reads⟩ := Option.bind_eq_some_iff.mp reads
  simp only [nextAppend first, Option.bind_some]
  split at reads
  · rename_i closed
    cases reads
    rw [if_pos closed]
  · rename_i other
    rw [if_neg other]
    exact itemsBy grows more _ _ reads

theorem nameAppend {input : Bytes} {key : Bytes × Bytes} (reads : name input = some key) :
    name (input ++ behind) = some (key.1, key.2 ++ behind) := by
  simp only [name] at reads ⊢
  obtain ⟨head, first, reads⟩ := Option.bind_eq_some_iff.mp reads
  simp only [nextAppend first, Option.bind_some]
  split at reads
  · rename_i quoted
    rw [if_pos quoted]
    obtain ⟨content, inside, reads⟩ := Option.bind_eq_some_iff.mp reads
    obtain ⟨after, following, reads⟩ := Option.bind_eq_some_iff.mp reads
    simp only [stringAppend inside, Option.bind_some, nextAppend following]
    split at reads
    · rename_i colon
      cases reads
      rw [if_pos colon]
    · contradiction
  · contradiction

theorem memberBy {small large : Reader Value} (grows : ExtendsBy behind small large) :
    ExtendsBy behind (member small) (member large) := by
  intro input read reads
  simp only [member] at reads ⊢
  obtain ⟨key, first, reads⟩ := Option.bind_eq_some_iff.mp reads
  obtain ⟨v, second, same⟩ := Option.map_eq_some_iff.mp reads
  subst same
  simp only [nameAppend first, Option.bind_some, grows _ _ second, Option.map_some]

theorem noToken {rest : Bytes} (ends : ∀ c ∈ rest.head?, inToken c = false) :
    rest.takeWhile inToken = [] ∧ rest.dropWhile inToken = rest := by
  cases rest with
  | nil => exact ⟨rfl, rfl⟩
  | cons c rest =>
    have outside := ends c rfl
    simp only [List.takeWhile_cons, List.dropWhile_cons, outside, Bool.false_eq_true, if_false, and_self]

theorem scalarBy (ends : ∀ c ∈ behind.head?, inToken c = false) : ExtendsBy behind scalar scalar := by
  intro input read reads
  simp only [scalar] at reads ⊢
  obtain ⟨v, token, same⟩ := Option.map_eq_some_iff.mp reads
  subst same
  have none := noToken ends
  have taken : (input ++ behind).takeWhile inToken = input.takeWhile inToken := by
    rw [List.takeWhile_append]
    split
    · rename_i whole
      rw [none.1, List.append_nil, List.IsPrefix.eq_of_length (List.takeWhile_prefix inToken) whole]
    · rfl
  have left : (input ++ behind).dropWhile inToken = input.dropWhile inToken ++ behind := by
    rw [List.dropWhile_append]
    split
    · rename_i empty
      rw [none.2, List.isEmpty_iff.mp empty, List.nil_append]
    · rfl
  rw [taken, token, left]
  rfl

theorem valueBy (ends : ∀ c ∈ behind.head?, inToken c = false) (more : n ≤ m) :
    ExtendsBy behind (value n) (value m) := by
  induction n generalizing m with
  | zero =>
    intro input read reads
    contradiction
  | succ n ih =>
    obtain ⟨m, rfl⟩ := Nat.exists_eq_succ_of_ne_zero (by omega : m ≠ 0)
    have less : n ≤ m := by omega
    intro input read reads
    simp only [value] at reads ⊢
    obtain ⟨head, first, reads⟩ := Option.bind_eq_some_iff.mp reads
    simp only [nextAppend first, Option.bind_some]
    split at reads
    · rename_i quoted
      rw [if_pos quoted]
      obtain ⟨content, inside, same⟩ := Option.map_eq_some_iff.mp reads
      subst same
      simp only [stringAppend inside, Option.map_some]
    · rename_i noString
      rw [if_neg noString]
      split at reads
      · rename_i bracket
        obtain ⟨list, inside, same⟩ := Option.map_eq_some_iff.mp reads
        subst same
        simp only [if_pos bracket, listedBy (ih less) less _ _ inside, Option.map_some]
      · rename_i noBracket
        rw [if_neg noBracket]
        split at reads
        · rename_i brace
          obtain ⟨list, inside, same⟩ := Option.map_eq_some_iff.mp reads
          subst same
          simp only [if_pos brace, listedBy (memberBy (ih less)) less _ _ inside, Option.map_some]
        · rename_i noBrace
          rw [if_neg noBrace]
          exact scalarBy ends _ _ reads

end Behind

theorem extendsValue {n m : Nat} (more : n ≤ m) : Extends (value n) (value m) := by
  intro input read reads
  have extended := @valueBy [] n m (by simp) more _ _ reads
  simpa only [List.append_nil] using extended

theorem parsesUnique {text : Bytes} {v w : Value} (first : Parses text v) (second : Parses text w) : v = w := by
  obtain ⟨n, _, reads, _⟩ := first
  obtain ⟨m, _, again, _⟩ := second
  have left := extendsValue (Nat.le_max_left n m) _ _ reads
  have right := extendsValue (Nat.le_max_right n m) _ _ again
  cases left.symm.trans right
  rfl

/-! One text in front of another. `shown` is what a value has to show, and `clean` is
when the text shows it. -/

structure Piece (α : Type) where
  text : Bytes
  shown : α → Prop
  clean : Prop

def Closing (input : Bytes) : Prop :=
  ∀ c rest, next input = some (c, rest) → c = ',' ∨ c = ']' ∨ c = closeBrace

/- A clean piece in front of `rest` is read as something it shows. Whatever is read that
shows what it should, the piece is clean and all of `rest` is left. -/
structure Faithful {α : Type} (read : Nat → Reader α) (piece : Piece α) (rest : Bytes) : Prop where
  forth : piece.clean → ∃ a, piece.shown a ∧ ∃ n, ∀ m, n ≤ m → read m (piece.text ++ rest) = some (a, rest)
  back : ∀ {m a after}, read m (piece.text ++ rest) = some (a, after) → piece.shown a → Closing after →
    piece.clean ∧ after = rest

theorem documentIff {piece : Piece Value} (faithful : Faithful value piece []) :
    (∃ v, Parses piece.text v ∧ piece.shown v) ↔ piece.clean := by
  constructor
  · rintro ⟨v, ⟨n, after, reads, ends⟩, shows⟩
    have closing : Closing after := by
      intro c rest more
      rw [ends] at more
      contradiction
    rw [← List.append_nil piece.text] at reads
    exact (faithful.back reads shows closing).1
  · intro clean
    obtain ⟨v, shows, n, reads⟩ := faithful.forth clean
    have read := reads n (Nat.le_refl n)
    rw [List.append_nil] at read
    exact ⟨v, ⟨n, [], read, rfl⟩, shows⟩

def Reads (text : Bytes) (shown : Value → Prop) : Prop :=
  (∃ v, Parses text v) ∧ ∀ v, Parses text v → shown v

theorem readsIff {piece : Piece Value} {shown : Value → Prop} (faithful : Faithful value piece [])
    (same : ∀ v, piece.shown v ↔ shown v) : Reads piece.text shown ↔ piece.clean := by
  rw [← documentIff faithful]
  constructor
  · rintro ⟨⟨v, parses⟩, shows⟩
    exact ⟨v, parses, (same v).mpr (shows v parses)⟩
  · rintro ⟨v, parses, shows⟩
    refine ⟨⟨v, parses⟩, ?_⟩
    intro w again
    rw [← parsesUnique parses again]
    exact (same v).mp shows

theorem nextVisible {c : Char} {rest : Bytes} (visible : isSpace c = false) : next (c :: rest) = some (c, rest) := by
  simp only [next, List.dropWhile_cons, visible, Bool.false_eq_true, if_false]

theorem closingVisible {c : Char} {rest : Bytes} (visible : isSpace c = false) :
    Closing (c :: rest) ↔ c = ',' ∨ c = ']' ∨ c = closeBrace := by
  constructor
  · intro closing
    exact closing c rest (nextVisible visible)
  · intro known d more first
    cases (nextVisible visible).symm.trans first
    exact known

def literal (content : Bytes) : Bytes := quote :: (content ++ [quote])

theorem literalAppend (content rest : Bytes) : literal content ++ rest = quote :: (content ++ quote :: rest) := by
  simp only [literal, List.cons_append, List.append_assoc, List.nil_append]

theorem valueString (n : Nat) (input : Bytes) :
    value (n + 1) (quote :: input) = (string (.text []) input).map (fun content => (.string content.1, content.2)) := by
  have visible : isSpace quote = false := rfl
  simp only [value, nextVisible visible, Option.bind_some, if_true]

def stringPiece (content : Bytes) : Piece Value := ⟨literal content, (· = .string content), Clean content⟩

theorem stringFaithful {content more : Bytes} (goes : ¬ Closing more) :
    Faithful value (stringPiece content) (',' :: quote :: more) where
  forth clean := by
    refine ⟨.string content, rfl, 1, fun m large => ?_⟩
    obtain ⟨m, rfl⟩ := Nat.exists_eq_succ_of_ne_zero (by omega : m ≠ 0)
    simp only [stringPiece, literalAppend, Nat.succ_eq_add_one, valueString, stringClean clean, Option.map_some]
  back := by
    intro m v after reads shows closing
    cases m with
    | zero => contradiction
    | succ m =>
      simp only [stringPiece, literalAppend, valueString] at reads
      obtain ⟨content', read, same⟩ := Option.map_eq_some_iff.mp reads
      obtain ⟨rfl, rfl⟩ := Prod.mk.inj same
      cases Value.string.inj shows
      rcases contentExact read with exact_ | late
      · exact exact_
      · rw [late] at closing
        exact absurd closing goes

def plainPiece (text : Bytes) : Piece Value := ⟨text, fun _ => True, True⟩

theorem plainFaithful {text rest : Bytes} {v : Value}
    (reads : ∀ n, value (n + 1) (text ++ rest) = some (v, rest)) : Faithful value (plainPiece text) rest where
  forth _ := by
    refine ⟨v, trivial, 1, fun m large => ?_⟩
    obtain ⟨m, rfl⟩ := Nat.exists_eq_succ_of_ne_zero (by omega : m ≠ 0)
    exact reads m
  back := by
    intro m w after read _ _
    cases m with
    | zero => contradiction
    | succ m =>
      cases (reads m).symm.trans read
      exact ⟨trivial, rfl⟩

theorem literalFaithful {content : Bytes} (clean : Clean content) (rest : Bytes) :
    Faithful value (plainPiece (literal content)) rest := by
  refine plainFaithful (v := .string content) (fun n => ?_)
  simp only [literalAppend, valueString, stringClean clean, Option.map_some]

theorem valueToken {token rest : Bytes} {v : Value} (denotes : scalarOf token = some v)
    (inside : token.all inToken = true) (ends : ∀ c ∈ rest.head?, inToken c = false) (n : Nat) :
    value (n + 1) (token ++ rest) = some (v, rest) := by
  have inside := List.all_eq_true.mp inside
  cases token with
  | nil => contradiction
  | cons c token =>
    have first := inside c List.mem_cons_self
    have differs {d : Char} (outside : inToken d = false) : c ≠ d := by
      rintro rfl
      exact Bool.noConfusion (first.symm.trans outside)
    have visible : isSpace c = false := by
      simp only [isSpace, Bool.or_eq_false_iff, beq_eq_false_iff_ne]
      have code {k : Nat} (valid : (Char.ofNat k).toNat = k) (outside : inToken (Char.ofNat k) = false) :
          c.toNat ≠ k := by
        rintro rfl
        rw [Char.ofNat_toNat] at outside
        exact differs outside rfl
      exact ⟨⟨⟨differs rfl, code rfl rfl⟩, code rfl rfl⟩, code rfl rfl⟩
    have stops := noToken ends
    have scanned : scalar (c :: token ++ rest) = some (v, rest) := by
      simp only [scalar, List.takeWhile_append_of_pos inside, List.dropWhile_append_of_pos inside, stops.1,
        stops.2, List.append_nil, denotes, Option.map_some]
    simp only [List.cons_append] at scanned ⊢
    simp only [value, nextVisible visible, Option.bind_some, if_neg (differs (d := quote) rfl),
      if_neg (differs (d := '[') rfl), if_neg (differs (d := openBrace) rfl), scanned]

theorem scalarFaithful {token rest : Bytes} {v : Value} (denotes : scalarOf token = some v)
    (inside : token.all inToken = true) (ends : ∀ c ∈ rest.head?, inToken c = false) :
    Faithful value (plainPiece token) rest :=
  plainFaithful (v := v) (valueToken denotes inside ends)

def decimal (n : Int) : Bytes := (toString n).toList

theorem decimalEq (n : Int) :
    decimal n = if 0 ≤ n then Nat.toDigits 10 n.toNat else '-' :: Nat.toDigits 10 (-n).toNat := by
  simp only [decimal, Int.toString_eq_repr, Int.repr_eq_if]
  split
  · exact Nat.toList_repr
  · rw [String.toList_append, Nat.toList_repr]
    rfl

theorem digitOfMem {n : Nat} {c : Char} (member : c ∈ Nat.toDigits 10 n) : c.isDigit = true :=
  Nat.isDigit_of_mem_toDigits (by decide) (by decide) member

theorem digitsLead {n : Nat} (positive : 0 < n) : ∃ c rest, Nat.toDigits 10 n = c :: rest ∧ c ≠ '0' := by
  induction n using Nat.strongRecOn with
  | ind n ih =>
    by_cases small : n < 10
    · refine ⟨n.digitChar, [], Nat.toDigits_of_lt_base small, ?_⟩
      intro zero
      have none := Nat.digitChar_eq_zero.mp zero
      omega
    · obtain ⟨c, rest, digits, nonzero⟩ := ih (n / 10) (by omega) (by omega)
      refine ⟨c, rest ++ [(n % 10).digitChar], ?_, nonzero⟩
      rw [Nat.toDigits_of_base_le (by decide) (by omega), digits, List.cons_append]

theorem unsignedDigits (n : Nat) : isUnsigned (Nat.toDigits 10 n) = true := by
  by_cases zero : n = 0
  · subst zero
    rfl
  · obtain ⟨c, rest, digits, nonzero⟩ := digitsLead (Nat.pos_of_ne_zero zero)
    have all : ∀ d ∈ rest, d.isDigit = true := by
      intro d member
      exact digitOfMem (n := n) (by rw [digits]; exact List.mem_cons_of_mem _ member)
    have first : c.isDigit = true := digitOfMem (n := n) (by rw [digits]; exact List.mem_cons_self)
    have none : rest.dropWhile Char.isDigit = [] := List.dropWhile_eq_nil_iff.mpr all
    simp only [digits, isUnsigned, first, if_neg nonzero, none, isFraction, Bool.and_self]

theorem decimalFirst (n : Int) : ∃ c rest, decimal n = c :: rest ∧ (c = '-' ∨ c.isDigit = true) := by
  rw [decimalEq]
  split
  · obtain ⟨c, rest, digits⟩ := List.exists_cons_of_ne_nil (Nat.toDigits_ne_nil (n := n.toNat) (b := 10))
    exact ⟨c, rest, digits, .inr (digitOfMem (n := n.toNat) (by rw [digits]; exact List.mem_cons_self))⟩
  · exact ⟨'-', _, rfl, .inl rfl⟩

theorem decimalNumber (n : Int) : isNumber (decimal n) = true := by
  rw [decimalEq]
  split
  · have unsigned := unsignedDigits n.toNat
    obtain ⟨c, rest, digits⟩ := List.exists_cons_of_ne_nil (Nat.toDigits_ne_nil (n := n.toNat) (b := 10))
    have digit : c.isDigit = true := digitOfMem (n := n.toNat) (by rw [digits]; exact List.mem_cons_self)
    have noMinus : c ≠ '-' := by
      rintro rfl
      contradiction
    rw [digits] at unsigned ⊢
    simp only [isNumber, if_neg noMinus, unsigned]
  · simp only [isNumber, if_true, unsignedDigits]

theorem decimalInside {n : Int} {c : Char} (member : c ∈ decimal n) : inToken c = true := by
  have digit {d : Char} (digit : d.isDigit = true) : inToken d = true := by
    simp only [inToken, Char.isAlphanum, digit, Bool.or_true, Bool.true_or]
  rw [decimalEq] at member
  split at member
  · exact digit (digitOfMem member)
  · rcases List.mem_cons.mp member with rfl | member
    · rfl
    · exact digit (digitOfMem member)

theorem scalarOfDecimal (n : Int) : scalarOf (decimal n) = some (.number (decimal n)) := by
  obtain ⟨c, rest, first, known⟩ := decimalFirst n
  have differs {d : Char} {others : Bytes} (minus : d ≠ '-') (digit : d.isDigit = false) : decimal n ≠ d :: others := by
    rw [first]
    intro same
    cases List.head_eq_of_cons_eq same
    rcases known with rfl | yes
    · exact minus rfl
    · exact Bool.noConfusion (yes.symm.trans digit)
  have t : decimal n ≠ ['t', 'r', 'u', 'e'] := differs (by decide) rfl
  have f : decimal n ≠ ['f', 'a', 'l', 's', 'e'] := differs (by decide) rfl
  have u : decimal n ≠ ['n', 'u', 'l', 'l'] := differs (by decide) rfl
  simp only [scalarOf, if_neg t, if_neg f, if_neg u, decimalNumber, if_true]

def wholeOf : Bytes → Int
  | [] => 0
  | c :: rest => if c = '-' then -(Nat.ofDigitChars 10 rest 0 : Int) else Nat.ofDigitChars 10 (c :: rest) 0

theorem wholeOfDecimal (n : Int) : wholeOf (decimal n) = n := by
  rw [decimalEq]
  split
  · obtain ⟨c, rest, digits⟩ := List.exists_cons_of_ne_nil (Nat.toDigits_ne_nil (n := n.toNat) (b := 10))
    have noMinus : c ≠ '-' := by
      rintro rfl
      exact absurd (digitOfMem (n := n.toNat) (by rw [digits]; exact List.mem_cons_self)) (by decide)
    rw [digits, wholeOf, if_neg noMinus, ← digits, Nat.ofDigitChars_ten_toDigits]
    omega
  · rw [wholeOf, if_pos rfl, Nat.ofDigitChars_ten_toDigits]
    omega

theorem decimalFaithful {rest : Bytes} (ends : ∀ c ∈ rest.head?, inToken c = false) (n : Int) :
    Faithful value (plainPiece (decimal n)) rest :=
  scalarFaithful (scalarOfDecimal n) (List.all_eq_true.mpr (fun _ member => decimalInside member)) ends

def memberPiece (key : Bytes) (piece : Piece Value) : Piece (Bytes × Value) :=
  ⟨literal key ++ ':' :: piece.text, fun m => m.1 = key ∧ piece.shown m.2, piece.clean⟩

theorem nameClean {key : Bytes} (clean : Clean key) (rest : Bytes) :
    name (literal key ++ ':' :: rest) = some (key, rest) := by
  have visible : isSpace quote = false := rfl
  have colon : isSpace ':' = false := rfl
  simp only [name, literalAppend, nextVisible visible, Option.bind_some, if_true, stringClean clean, nextVisible colon]

theorem memberFaithful {key rest : Bytes} {piece : Piece Value} (clean : Clean key) (faithful : Faithful value piece rest) :
    Faithful (fun n => member (value n)) (memberPiece key piece) rest where
  forth shows := by
    obtain ⟨v, intended, n, reads⟩ := faithful.forth shows
    refine ⟨(key, v), ⟨rfl, intended⟩, n, fun m large => ?_⟩
    simp only [memberPiece, List.append_assoc, List.cons_append, member, nameClean clean, Option.bind_some,
      reads m large, Option.map_some]
  back := by
    intro m a after reads shows closing
    simp only [memberPiece, List.append_assoc, List.cons_append, member, nameClean clean, Option.bind_some] at reads
    obtain ⟨v, read, same⟩ := Option.map_eq_some_iff.mp reads
    cases same
    exact faithful.back read shows.2 closing

def closed (close : Char) : List Bytes → Bytes
  | [] => [close]
  | [text] => text ++ [close]
  | text :: others => text ++ ',' :: closed close others

theorem closedCons {close : Char} {text : Bytes} {others : List Bytes} (more : others ≠ []) :
    closed close (text :: others) = text ++ ',' :: closed close others := by
  cases others with
  | nil => contradiction
  | cons second others => rfl

def listPiece {α : Type} (close : Char) (pieces : List (Piece α)) : Piece (List α) :=
  ⟨closed close (pieces.map Piece.text), fun as => List.Forall₂ (fun a piece => piece.shown a) as pieces,
    ∀ piece ∈ pieces, piece.clean⟩

inductive Chain {α : Type} (read : Nat → Reader α) (close : Char) (rest : Bytes) : List (Piece α) → Prop where
  | last {piece} (faithful : Faithful read piece (close :: rest)) : Chain read close rest [piece]
  | cons {piece others} (faithful : Faithful read piece (',' :: ((listPiece close others).text ++ rest)))
      (chain : Chain read close rest others) : Chain read close rest (piece :: others)

section Lists
variable {α : Type} {read : Nat → Reader α} {close : Char} {rest : Bytes}

theorem Chain.nonempty {pieces : List (Piece α)} (chain : Chain read close rest pieces) : pieces ≠ [] := by
  cases chain <;> simp

theorem listPieceCons {piece : Piece α} {others : List (Piece α)} (more : others ≠ []) (rest : Bytes) :
    (listPiece close (piece :: others)).text ++ rest = piece.text ++ ',' :: ((listPiece close others).text ++ rest) := by
  have more : others.map Piece.text ≠ [] := by simpa using more
  simp only [listPiece, List.map_cons, closedCons more, List.append_assoc, List.cons_append]

theorem listPieceLast (piece : Piece α) (rest : Bytes) :
    (listPiece close [piece]).text ++ rest = piece.text ++ close :: rest := by
  simp only [listPiece, List.map_cons, List.map_nil, closed, List.append_assoc, List.cons_append, List.nil_append]

theorem listPieceFront (close : Char) (piece : Piece α) (others : List (Piece α)) (rest : Bytes) :
    ∃ tail, (listPiece close (piece :: others)).text ++ rest = piece.text ++ tail := by
  by_cases more : others = []
  · subst more
    exact ⟨_, listPieceLast piece rest⟩
  · exact ⟨_, listPieceCons more rest⟩

theorem itemsForth (visible : isSpace close = false) (other : close ≠ ',') {pieces : List (Piece α)}
    (chain : Chain read close rest pieces) (clean : (listPiece close pieces).clean) :
    ∃ as, (listPiece close pieces).shown as ∧ ∃ n, ∀ m k, n ≤ m → n ≤ k →
      items close (read m) k ((listPiece close pieces).text ++ rest) = some (as, rest) := by
  have comma : isSpace ',' = false := rfl
  induction chain with
  | last faithful =>
    obtain ⟨a, shows, n, reads⟩ := faithful.forth (clean _ List.mem_cons_self)
    refine ⟨[a], .cons shows .nil, n + 1, ?_⟩
    intro m k large enough
    obtain ⟨k, rfl⟩ := Nat.exists_eq_succ_of_ne_zero (by omega : k ≠ 0)
    simp only [listPieceLast, items, reads m (by omega), Option.bind_some, nextVisible visible, if_neg other, if_true]
  | cons faithful chain ih =>
    obtain ⟨a, shows, n, reads⟩ := faithful.forth (clean _ List.mem_cons_self)
    obtain ⟨as, others, n', readOthers⟩ := ih (fun piece member => clean piece (List.mem_cons_of_mem _ member))
    refine ⟨a :: as, .cons shows others, n + n' + 1, ?_⟩
    intro m k large enough
    obtain ⟨k, rfl⟩ := Nat.exists_eq_succ_of_ne_zero (by omega : k ≠ 0)
    simp only [listPieceCons chain.nonempty, items, reads m (by omega), Option.bind_some, nextVisible comma, if_true,
      readOthers m k (by omega) (by omega), Option.map_some]

inductive ItemsRead (close : Char) (item : Reader α) (n : Nat) (input after : Bytes) : List α → Prop where
  | more {a as mid tail} (first : item input = some (a, mid)) (comma : next mid = some (',', tail))
      (others : items close item n tail = some (as, after)) : ItemsRead close item n input after (a :: as)
  | done {a mid} (first : item input = some (a, mid)) (closes : next mid = some (close, after)) :
      ItemsRead close item n input after [a]

theorem itemsSpec {item : Reader α} {n : Nat} {input after : Bytes} {as : List α}
    (reads : items close item (n + 1) input = some (as, after)) : ItemsRead close item n input after as := by
  simp only [items] at reads
  obtain ⟨⟨a, mid⟩, first, later⟩ := Option.bind_eq_some_iff.mp reads
  obtain ⟨⟨d, tail⟩, behind, last⟩ := Option.bind_eq_some_iff.mp later
  clear reads later
  split at last
  · rename_i comma
    cases comma
    obtain ⟨others, read, same⟩ := Option.map_eq_some_iff.mp last
    cases same
    exact .more first behind read
  · split at last
    · rename_i closes
      obtain rfl : d = close := closes
      obtain ⟨rfl, rfl⟩ := Prod.mk.inj (Option.some.inj last)
      exact .done first behind
    · contradiction

theorem closingNext {d : Char} {mid tail : Bytes} (behind : next mid = some (d, tail))
    (known : d = ',' ∨ d = ']' ∨ d = closeBrace) : Closing mid := by
  intro c rest first
  cases behind.symm.trans first
  exact known

theorem itemsBack (visible : isSpace close = false) (other : close ≠ ',') (closes : close = ']' ∨ close = closeBrace)
    {pieces : List (Piece α)} (chain : Chain read close rest pieces) {m k : Nat} {as : List α} {after : Bytes}
    (reads : items close (read m) k ((listPiece close pieces).text ++ rest) = some (as, after))
    (shows : (listPiece close pieces).shown as) : (listPiece close pieces).clean ∧ after = rest := by
  have comma : isSpace ',' = false := rfl
  induction chain generalizing k as with
  | last faithful =>
    cases k with
    | zero => contradiction
    | succ k =>
      rw [listPieceLast] at reads
      cases itemsSpec reads with
      | more first behind others =>
        have single := faithful.back first (List.forall₂_cons.mp shows).1 (closingNext behind (.inl rfl))
        rw [single.2, nextVisible visible] at behind
        exact absurd (Prod.mk.inj (Option.some.inj behind)).1 other
      | done first behind =>
        have single := faithful.back first (List.forall₂_cons.mp shows).1 (closingNext behind (.inr closes))
        rw [single.2, nextVisible visible] at behind
        cases behind
        exact ⟨fun piece member => (List.mem_singleton.mp member).symm ▸ single.1, rfl⟩
  | cons faithful chain ih =>
    cases k with
    | zero => contradiction
    | succ k =>
      rw [listPieceCons chain.nonempty] at reads
      cases itemsSpec reads with
      | more first behind others =>
        have head := faithful.back first (List.forall₂_cons.mp shows).1 (closingNext behind (.inl rfl))
        rw [head.2, nextVisible comma] at behind
        cases behind
        have tail := ih others (List.forall₂_cons.mp shows).2
        exact ⟨List.forall_mem_cons.mpr ⟨head.1, tail.1⟩, tail.2⟩
      | done first behind =>
        have head := faithful.back first (List.forall₂_cons.mp shows).1 (closingNext behind (.inr closes))
        rw [head.2, nextVisible comma] at behind
        exact absurd (Prod.mk.inj (Option.some.inj behind)).1.symm other

theorem listedFaithful (visible : isSpace close = false) (other : close ≠ ',')
    (closes : close = ']' ∨ close = closeBrace) {pieces : List (Piece α)}
    (chain : pieces = [] ∨ Chain read close rest pieces)
    (begins : ∀ piece ∈ pieces.head?, ∃ c more, piece.text = c :: more ∧ isSpace c = false ∧ c ≠ close) :
    Faithful (fun n => listed close (read n) n) (listPiece close pieces) rest := by
  rcases chain with rfl | chain
  · have empty (m : Nat) : listed close (read m) m ((listPiece close ([] : List (Piece α))).text ++ rest) =
        some ([], rest) := by
      simp only [listPiece, List.map_nil, closed, List.cons_append, List.nil_append, listed, nextVisible visible,
        Option.bind_some, if_true]
    refine ⟨fun _ => ⟨[], .nil, 0, fun m _ => empty m⟩, ?_⟩
    intro m as after reads _ _
    cases (empty m).symm.trans reads
    exact ⟨fun _ member => absurd member List.not_mem_nil, rfl⟩
  · have skips (m : Nat) : listed close (read m) m ((listPiece close pieces).text ++ rest) =
        items close (read m) m ((listPiece close pieces).text ++ rest) := by
      obtain ⟨piece, others, rfl⟩ := List.exists_cons_of_ne_nil chain.nonempty
      obtain ⟨c, more, starts, seen, differs⟩ := begins piece rfl
      obtain ⟨tail, front⟩ := listPieceFront close piece others rest
      simp only [front, starts, List.cons_append, listed, nextVisible seen, Option.bind_some, if_neg differs]
    refine ⟨fun clean => ?_, ?_⟩
    · obtain ⟨as, shows, n, reads⟩ := itemsForth visible other chain clean
      exact ⟨as, shows, n, fun m large => (skips m).trans (reads m m large large)⟩
    · intro m as after reads shows _
      exact itemsBack visible other closes chain ((skips m).symm.trans reads) shows

end Lists

def arrayPiece (pieces : List (Piece Value)) : Piece Value :=
  ⟨'[' :: (listPiece ']' pieces).text, fun v => ∃ vs, v = .array vs ∧ (listPiece ']' pieces).shown vs,
    (listPiece ']' pieces).clean⟩

def objectPiece (pieces : List (Piece (Bytes × Value))) : Piece Value :=
  ⟨openBrace :: (listPiece closeBrace pieces).text,
    fun v => ∃ ms, v = .object ms ∧ (listPiece closeBrace pieces).shown ms, (listPiece closeBrace pieces).clean⟩

theorem enclosedFaithful {α : Type} {read : Nat → Reader (List α)} {piece : Piece (List α)} {rest : Bytes} {c : Char}
    {wrap : List α → Value} (injective : ∀ as bs, wrap as = wrap bs → as = bs)
    (enclosed : ∀ n input, value (n + 1) (c :: input) = (read n input).map (fun list => (wrap list.1, list.2)))
    (faithful : Faithful read piece rest) :
    Faithful value ⟨c :: piece.text, fun v => ∃ as, v = wrap as ∧ piece.shown as, piece.clean⟩ rest where
  forth clean := by
    obtain ⟨as, shows, n, reads⟩ := faithful.forth clean
    refine ⟨wrap as, ⟨as, rfl, shows⟩, n + 1, fun m large => ?_⟩
    obtain ⟨m, rfl⟩ := Nat.exists_eq_succ_of_ne_zero (by omega : m ≠ 0)
    simp only [List.cons_append, Nat.succ_eq_add_one, enclosed, reads m (by omega), Option.map_some]
  back := by
    rintro m v after reads ⟨as, intended, shows⟩ closing
    cases m with
    | zero => contradiction
    | succ m =>
      simp only [List.cons_append, enclosed] at reads
      obtain ⟨list, read, same⟩ := Option.map_eq_some_iff.mp reads
      obtain ⟨wrapped, rfl⟩ := Prod.mk.inj same
      cases injective _ _ (wrapped.trans intended)
      exact faithful.back read shows closing

theorem arrayFaithful {pieces : List (Piece Value)} {rest : Bytes} (chain : pieces = [] ∨ Chain value ']' rest pieces)
    (begins : ∀ piece ∈ pieces.head?, ∃ c more, piece.text = c :: more ∧ isSpace c = false ∧ c ≠ ']') :
    Faithful value (arrayPiece pieces) rest := by
  refine enclosedFaithful (fun as bs same => Value.array.inj same) (fun n input => ?_)
    (listedFaithful rfl (by decide) (.inl rfl) chain begins)
  have visible : isSpace '[' = false := rfl
  have noQuote : '[' ≠ quote := by decide
  simp only [value, nextVisible visible, Option.bind_some, if_neg noQuote, if_true]

theorem objectFaithful {key rest : Bytes} {piece : Piece Value} {others : List (Piece (Bytes × Value))}
    (chain : Chain (fun n => member (value n)) closeBrace rest (memberPiece key piece :: others)) :
    Faithful value (objectPiece (memberPiece key piece :: others)) rest := by
  have quoted : ∀ first ∈ (memberPiece key piece :: others).head?,
      ∃ c more, first.text = c :: more ∧ isSpace c = false ∧ c ≠ closeBrace := by
    rintro _ ⟨⟩
    exact ⟨quote, _, rfl, rfl, by decide⟩
  refine enclosedFaithful (fun as bs same => Value.object.inj same) (fun n input => ?_)
    (listedFaithful rfl (by decide) (.inr rfl) (.inr chain) quoted)
  have visible : isSpace openBrace = false := rfl
  have noQuote : openBrace ≠ quote := by decide
  have noBracket : openBrace ≠ '[' := by decide
  simp only [value, nextVisible visible, Option.bind_some, if_neg noQuote, if_neg noBracket, if_true]

theorem stringMember {content key rest : Bytes} {c : Char} {piece : Piece Value} {others : List (Piece (Bytes × Value))}
    (visible : isSpace c = false) (goes : ¬ (c = ',' ∨ c = ']' ∨ c = closeBrace)) :
    Faithful value (stringPiece content)
      (',' :: ((listPiece closeBrace (memberPiece (c :: key) piece :: others)).text ++ rest)) := by
  obtain ⟨tail, front⟩ := listPieceFront closeBrace (memberPiece (c :: key) piece) others rest
  rw [front]
  exact stringFaithful (fun closing => goes ((closingVisible visible).mp closing))

theorem cleanNil {α : Type} (close : Char) : (listPiece close ([] : List (Piece α))).clean ↔ True :=
  iff_true_intro (fun _ member => absurd member List.not_mem_nil)

theorem cleanCons {α : Type} {close : Char} {piece : Piece α} {others : List (Piece α)} :
    (listPiece close (piece :: others)).clean ↔ piece.clean ∧ (listPiece close others).clean :=
  List.forall_mem_cons

theorem shownNil {α : Type} (close : Char) (as : List α) : (listPiece close []).shown as ↔ as = [] :=
  List.forall₂_nil_right_iff

theorem shownMember {close : Char} {key : Bytes} {piece : Piece Value} {others : List (Piece (Bytes × Value))}
    {ms : List (Bytes × Value)} :
    (listPiece close (memberPiece key piece :: others)).shown ms ↔
      ∃ v, piece.shown v ∧ ∃ rest, (listPiece close others).shown rest ∧ ms = (key, v) :: rest := by
  constructor
  · intro shows
    obtain ⟨⟨name, v⟩, rest, ⟨rfl, first⟩, shown, rfl⟩ := List.forall₂_cons_right_iff.mp shows
    exact ⟨v, first, rest, shown, rfl⟩
  · rintro ⟨v, first, rest, shown, rfl⟩
    exact .cons ⟨rfl, first⟩ shown

end Json
