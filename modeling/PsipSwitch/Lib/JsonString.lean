import Mathlib.Data.Char
import Mathlib.Data.List.Basic

/-! String literals of JSON, over the bytes of a UTF-8 text with one character for each.
The reader takes a literal byte by byte: what it still has to see of an escape, or of a
character of several bytes, is its state. -/
namespace Json

abbrev Bytes := List Char

def quote : Char := Char.ofNat 34
def backslash : Char := Char.ofNat 92

abbrev Awaited := List (Nat × Nat)

def continues (range : Nat × Nat) (c : Char) : Bool :=
  128 + range.1 ≤ c.toNat && c.toNat ≤ 128 + range.2

/- What has to follow a byte that stands for itself or begins a longer character:
surrogates, overlong forms and what lies beyond U+10FFFF are left out. -/
def opening (c : Char) : Option Awaited :=
  if c = quote ∨ c = backslash ∨ c.toNat < 32 then none
  else if c.toNat < 128 then some []
  else if c.toNat < 194 then none
  else if c.toNat < 224 then some [(0, 63)]
  else if c.toNat = 224 then some [(32, 63), (0, 63)]
  else if c.toNat = 237 then some [(0, 31), (0, 63)]
  else if c.toNat < 240 then some [(0, 63), (0, 63)]
  else if c.toNat = 240 then some [(16, 63), (0, 63), (0, 63)]
  else if c.toNat < 244 then some [(0, 63), (0, 63), (0, 63)]
  else if c.toNat = 244 then some [(0, 15), (0, 63), (0, 63)]
  else none

def cleanFrom : Awaited → Bytes → Bool
  | [], [] => true
  | _ :: _, [] => false
  | [], c :: rest => match opening c with
    | some awaited => cleanFrom awaited rest
    | none => false
  | range :: more, c :: rest => continues range c && cleanFrom more rest

def Clean (content : Bytes) : Prop := cleanFrom [] content = true

instance (content : Bytes) : Decidable (Clean content) := inferInstanceAs (Decidable (_ = true))

def utf8 (code : Nat) : Bytes :=
  if code < 128 then [Char.ofNat code]
  else if code < 2048 then [Char.ofNat (192 + code / 64), Char.ofNat (128 + code % 64)]
  else if code < 65536 then
    [Char.ofNat (224 + code / 4096), Char.ofNat (128 + code / 64 % 64), Char.ofNat (128 + code % 64)]
  else
    [Char.ofNat (240 + code / 262144), Char.ofNat (128 + code / 4096 % 64),
      Char.ofNat (128 + code / 64 % 64), Char.ofNat (128 + code % 64)]

theorem utf8Length (code : Nat) : (utf8 code).length ≤ 4 := by
  unfold utf8
  split_ifs <;> simp

def hexValue (c : Char) : Option Nat :=
  if 48 ≤ c.toNat ∧ c.toNat ≤ 57 then some (c.toNat - 48)
  else if 65 ≤ c.toNat ∧ c.toNat ≤ 70 then some (c.toNat - 55)
  else if 97 ≤ c.toNat ∧ c.toNat ≤ 102 then some (c.toNat - 87)
  else none

def shortEscape (c : Char) : Option Char :=
  if c = quote ∨ c = backslash ∨ c = '/' then some c
  else if c = 'b' then some (Char.ofNat 8)
  else if c = 'f' then some (Char.ofNat 12)
  else if c = 'n' then some (Char.ofNat 10)
  else if c = 'r' then some (Char.ofNat 13)
  else if c = 't' then some (Char.ofNat 9)
  else none

/- Within a literal: between characters or within one, behind a backslash, with `left`
digits of a code still to come, and behind the first half of a surrogate pair. -/
inductive Pending where
  | text (awaited : Awaited)
  | escape
  | code (high : Option Nat) (left value : Nat)
  | half (high : Nat)
  | halfEscape (high : Nat)
  deriving DecidableEq, Repr

def complete (high : Option Nat) (code : Nat) : Option (Bytes × Pending) :=
  match high with
  | none =>
    if 55296 ≤ code ∧ code < 56320 then some ([], .half code)
    else if 56320 ≤ code ∧ code < 57344 then none
    else some (utf8 code, .text [])
  | some high =>
    if 56320 ≤ code ∧ code < 57344 then
      some (utf8 (65536 + (high - 55296) * 1024 + (code - 56320)), .text [])
    else none

def stepString : Pending → Char → Option (Bytes × Pending)
  | .text [], c =>
    if c = backslash then some ([], .escape) else (opening c).map (fun awaited => ([c], .text awaited))
  | .text (range :: more), c => if continues range c then some ([c], .text more) else none
  | .escape, c =>
    if c = 'u' then some ([], .code none 4 0) else (shortEscape c).map (fun d => ([d], .text []))
  | .code high left value, c => (hexValue c).bind (fun digit =>
      if left ≤ 1 then complete high (16 * value + digit)
      else some ([], .code high (left - 1) (16 * value + digit)))
  | .half high, c => if c = backslash then some ([], .halfEscape high) else none
  | .halfEscape high, c => if c = 'u' then some ([], .code (some high) 4 0) else none

def string : Pending → Bytes → Option (Bytes × Bytes)
  | _, [] => none
  | p, c :: rest =>
    if p = .text [] ∧ c = quote then some ([], rest)
    else match stepString p c with
      | some (out, next) => (string next rest).map (fun read => (out ++ read.1, read.2))
      | none => none

example : string (.text []) [backslash, 'u', '0', '0', 'e', '9', quote] =
    some ([Char.ofNat 195, Char.ofNat 169], []) := by decide

theorem stringAppend {p : Pending} {input behind : Bytes} {content : Bytes × Bytes}
    (reads : string p input = some content) : string p (input ++ behind) = some (content.1, content.2 ++ behind) := by
  induction input generalizing p content with
  | nil => contradiction
  | cons c rest ih =>
    simp only [List.cons_append, string] at reads ⊢
    split at reads
    · rename_i ends
      cases reads
      rw [if_pos ends]
    · rename_i goesOn
      rw [if_neg goesOn]
      split at reads
      · obtain ⟨read, later, same⟩ := Option.map_eq_some_iff.mp reads
        subst same
        simp only [ih later, Option.map_some]
      · contradiction

theorem stringClean {awaited : Awaited} {content rest : Bytes} (clean : cleanFrom awaited content = true) :
    string (.text awaited) (content ++ quote :: rest) = some (content, rest) := by
  induction content generalizing awaited with
  | nil =>
    cases awaited with
    | nil => rfl
    | cons range more => contradiction
  | cons c content ih =>
    cases awaited with
    | nil =>
      simp only [cleanFrom] at clean
      split at clean
      · rename_i awaited opened
        have ordinary : c ≠ quote ∧ c ≠ backslash := by
          constructor <;> (rintro rfl; contradiction)
        simp only [List.cons_append, string, ordinary.1, and_false, if_false, stepString,
          if_neg ordinary.2, opened, Option.map_some, ih clean, List.nil_append]
      · contradiction
    | cons range more =>
      simp only [cleanFrom, Bool.and_eq_true] at clean
      have other : ¬ (Pending.text (range :: more) = .text [] ∧ c = quote) := by simp
      simp only [List.cons_append, string, if_neg other, stepString, clean.1, if_true, ih clean.2,
        Option.map_some, List.nil_append]

def Pending.spent : Pending → Nat
  | .text _ => 0
  | .escape => 1
  | .code _ left _ => 6 - left
  | .half _ => 1
  | .halfEscape _ => 1

inductive Stepped (c : Char) : Pending → Bytes → Pending → Prop where
  | taken {awaited rest} (same : ∀ content, cleanFrom awaited (c :: content) = cleanFrom rest content) :
      Stepped c (.text awaited) [c] (.text rest)
  | begun {p next} (later : ∀ awaited, next ≠ .text awaited) (few : next.spent ≤ p.spent + 1) : Stepped c p [] next
  | ended {p out} (fewer : out.length < p.spent + 1) : Stepped c p out (.text [])

theorem completeStepped {c : Char} {p : Pending} {high : Option Nat} {code : Nat} {out : Bytes} {next : Pending}
    (long : 5 ≤ p.spent) (completed : complete high code = some (out, next)) : Stepped c p out next := by
  have short (code : Nat) : (utf8 code).length < p.spent + 1 := by
    have bound := utf8Length code
    omega
  cases high with
  | none =>
    simp only [complete] at completed
    split at completed
    · cases completed
      exact .begun (fun _ => by simp) (by simp [Pending.spent])
    · split at completed
      · contradiction
      · cases completed
        exact .ended (short _)
  | some high =>
    simp only [complete] at completed
    split at completed
    · obtain ⟨rfl, rfl⟩ := Prod.mk.inj (Option.some.inj completed)
      exact .ended (short _)
    · contradiction

theorem stepStringSpec {p next : Pending} {c : Char} {out : Bytes} (stepped : stepString p c = some (out, next)) :
    Stepped c p out next := by
  cases p with
  | text awaited =>
    cases awaited with
    | nil =>
      simp only [stepString] at stepped
      split at stepped
      · cases stepped
        exact .begun (fun _ => by simp) (by simp [Pending.spent])
      · obtain ⟨awaited, opened, same⟩ := Option.map_eq_some_iff.mp stepped
        cases same
        exact .taken (fun content => by simp only [cleanFrom, opened])
    | cons range more =>
      simp only [stepString] at stepped
      split at stepped
      · rename_i inside
        cases stepped
        exact .taken (fun content => by simp only [cleanFrom, inside, Bool.true_and])
      · contradiction
  | escape =>
    simp only [stepString] at stepped
    split at stepped
    · cases stepped
      exact .begun (fun _ => by simp) (by simp [Pending.spent])
    · obtain ⟨d, short, same⟩ := Option.map_eq_some_iff.mp stepped
      cases same
      exact .ended (by simp [Pending.spent])
  | code high left value =>
    simp only [stepString] at stepped
    obtain ⟨digit, hex, rest⟩ := Option.bind_eq_some_iff.mp stepped
    split at rest
    · rename_i last
      exact completeStepped (by simp only [Pending.spent]; omega) rest
    · cases rest
      exact .begun (fun _ => by simp) (by simp only [Pending.spent]; omega)
  | half high =>
    simp only [stepString] at stepped
    split at stepped
    · cases stepped
      exact .begun (fun _ => by simp) (by simp [Pending.spent])
    · contradiction
  | halfEscape high =>
    simp only [stepString] at stepped
    split at stepped
    · cases stepped
      exact .begun (fun _ => by simp) (by simp [Pending.spent])
    · contradiction

/- What a literal can be read as whose content is followed by a quote, a comma and another
quote: the content itself, something shorter, or content that runs up to the second quote. -/
inductive ReadAs (more : Bytes) (p : Pending) (content out rest : Bytes) : Prop where
  | itself {awaited} (ordinary : p = .text awaited) (clean : cleanFrom awaited content = true) (same : out = content)
      (ends : rest = ',' :: quote :: more) : ReadAs more p content out rest
  | shorter (fewer : out.length < content.length + p.spent) : ReadAs more p content out rest
  | beyond (late : rest = more) : ReadAs more p content out rest

theorem readStep {c : Char} {p next : Pending} {more content out tail rest : Bytes} (stepped : Stepped c p out next)
    (later : ReadAs more next content tail rest) : ReadAs more p (c :: content) (out ++ tail) rest := by
  cases stepped with
  | taken alike =>
    cases later with
    | itself ordinary clean same ends =>
      cases ordinary
      exact .itself rfl ((alike _).trans clean) (by rw [same, List.singleton_append]) ends
    | shorter fewer =>
      refine .shorter ?_
      simp only [Pending.spent, List.singleton_append, List.length_cons] at fewer ⊢
      omega
    | beyond late => exact .beyond late
  | begun waits few =>
    cases later with
    | itself ordinary clean same ends => exact absurd ordinary (waits _)
    | shorter fewer =>
      refine .shorter ?_
      rw [List.nil_append, List.length_cons]
      omega
    | beyond late => exact .beyond late
  | ended saved =>
    cases later with
    | itself ordinary clean same ends =>
      refine .shorter ?_
      rw [same, List.length_append, List.length_cons]
      omega
    | shorter fewer =>
      have none : (Pending.text []).spent = 0 := rfl
      refine .shorter ?_
      rw [none] at fewer
      rw [List.length_append, List.length_cons]
      omega
    | beyond late => exact .beyond late

theorem stepQuote {p next : Pending} {out : Bytes} (stepped : stepString p quote = some (out, next)) :
    p = .escape ∧ next = .text [] := by
  cases p with
  | text awaited =>
    cases awaited with
    | nil => contradiction
    | cons range more =>
      have below : continues range quote = false := by
        simp only [continues, Bool.and_eq_false_iff, decide_eq_false_iff_not]
        have code : quote.toNat = 34 := rfl
        omega
      simp only [stepString, below, Bool.false_eq_true, if_false] at stepped
      contradiction
  | escape =>
    have known : stepString .escape quote = some ([quote], .text []) := rfl
    cases known.symm.trans stepped
    exact ⟨rfl, rfl⟩
  | code high left value => contradiction
  | half high => contradiction
  | halfEscape high => contradiction

theorem stringExact {p : Pending} {content more out rest : Bytes}
    (read : string p (content ++ quote :: ',' :: quote :: more) = some (out, rest)) :
    ReadAs more p content out rest := by
  induction content generalizing p out with
  | nil =>
    simp only [List.nil_append, string] at read
    split at read
    · rename_i closed
      cases read
      exact .itself closed.1 rfl rfl rfl
    · split at read
      · rename_i stepped
        obtain ⟨rfl, rfl⟩ := stepQuote stepped
        obtain ⟨tail, reads, same⟩ := Option.map_eq_some_iff.mp read
        have second : string (.text []) (',' :: quote :: more) = some ([','], more) := rfl
        cases second.symm.trans reads
        exact .beyond (Prod.mk.inj same).2.symm
      · contradiction
  | cons c content ih =>
    simp only [List.cons_append, string] at read
    split at read
    · rename_i closed
      cases read
      refine .shorter ?_
      simp only [List.length_nil, List.length_cons]
      omega
    · split at read
      · rename_i stepped
        obtain ⟨⟨tail, last⟩, reads, same⟩ := Option.map_eq_some_iff.mp read
        obtain ⟨rfl, rfl⟩ := Prod.mk.inj same
        exact readStep (stepStringSpec stepped) (ih reads)
      · contradiction

theorem contentExact {content more rest : Bytes}
    (read : string (.text []) (content ++ quote :: ',' :: quote :: more) = some (content, rest)) :
    (Clean content ∧ rest = ',' :: quote :: more) ∨ rest = more := by
  cases stringExact read with
  | itself ordinary clean same ends =>
    cases ordinary
    exact .inl ⟨clean, ends⟩
  | shorter fewer =>
    simp only [Pending.spent] at fewer
    omega
  | beyond late => exact .inr late

end Json
