import Mathlib.Data.Fintype.BigOperators
import Mathlib.Algebra.BigOperators.Fin
import PsipSwitch.NetworkSwitch
import PsipSwitch.RestSteps

/-! How the tokens of sessions are spread. The generator draws one of 65 numbers for each
character and has 64 characters for them, so that a dash comes twice as often as any other. -/
namespace PsipSwitch
namespace Tokens
open RestHandle (respond holds rightCredentials)

def drawing (c : Char) : Finset (Fin 65) := Finset.univ.filter (fun result => tokenChar result.val = c)

def drawn (now : Int) (token : Text) : Finset Draws :=
  Finset.univ.filter (fun draws => (Session.create draws now).getToken = token)

def alphabet : Text := text "0123456789abcdefghijklmnopqrstuvwxyzABCDEFGHIJKLMNOPQRSTUVWXYZ-_"

def spelled (token : Text) : Bool := token.length == Settings.tokenLength && token.all alphabet.contains

theorem drawnInside (result : Fin 65) : alphabet.contains (tokenChar result.val) = true := by
  revert result
  decide +kernel

theorem drawingCard (c : Char) :
    (drawing c).card = if alphabet.contains c then if c = '-' then 2 else 1 else 0 := by
  cases written : alphabet.contains c with
  | true =>
    have all : (alphabet.all (fun c => (drawing c).card == if c = '-' then 2 else 1)) = true := by decide +kernel
    have here := List.all_eq_true.mp all c (List.contains_iff_mem.mp written)
    rw [if_pos rfl]
    exact beq_iff_eq.mp here
  | false =>
    have none : drawing c = ∅ := by
      unfold drawing
      refine Finset.filter_eq_empty_iff.mpr (fun result _ same => ?_)
      exact absurd ((same ▸ drawnInside result).symm.trans written) (by decide)
    rw [none]
    rfl

theorem spelledCard {α β : Type} [Fintype α] [DecidableEq α] [DecidableEq β] (g : α → β) {n : Nat} (v : Fin n → β) :
    (Finset.univ.filter (fun f : Fin n → α => (List.ofFn f).map g = List.ofFn v)).card =
      ((List.ofFn v).map (fun b => (Finset.univ.filter (fun a => g a = b)).card)).prod := by
  have places : Finset.univ.filter (fun f : Fin n → α => (List.ofFn f).map g = List.ofFn v) =
      Fintype.piFinset (fun i => Finset.univ.filter (fun a => g a = v i)) := by
    ext f
    simp only [List.map_ofFn, List.ofFn_inj, Finset.mem_filter, Finset.mem_univ, true_and, Fintype.mem_piFinset,
      funext_iff, Function.comp_apply]
  rw [places, Fintype.card_piFinset, List.map_ofFn, List.prod_ofFn]
  rfl

theorem charsProd (token : Text) : (token.map (fun c => (drawing c).card)).prod =
    if token.all alphabet.contains then 2 ^ token.count '-' else 0 := by
  induction token with
  | nil => rfl
  | cons c token ih =>
    rw [List.map_cons, List.prod_cons, ih, drawingCard, List.all_cons, List.count_cons]
    cases here : alphabet.contains c with
    | false => exact Nat.zero_mul _
    | true =>
      cases later : token.all alphabet.contains with
      | false => exact Nat.mul_zero _
      | true =>
        by_cases dash : c = '-'
        · simp [dash, Nat.pow_succ, Nat.mul_comm]
        · simp [dash]

theorem drawnCard (now : Int) (token : Text) :
    (drawn now token).card = if spelled token then 2 ^ token.count '-' else 0 := by
  by_cases long : token.length = Settings.tokenLength
  · obtain ⟨v, same⟩ : ∃ v : Fin Settings.tokenLength → Char, List.ofFn v = token :=
      long ▸ ⟨token.get, List.ofFn_get token⟩
    have places := spelledCard (fun result : Fin 65 => tokenChar result.val) v
    have whole : spelled token = token.all alphabet.contains := by
      unfold spelled
      rw [beq_iff_eq.mpr long, Bool.true_and]
    rw [same] at places
    rw [whole, ← charsProd]
    exact places
  · have none : drawn now token = ∅ := by
      unfold drawn
      refine Finset.filter_eq_empty_iff.mpr (fun draws _ same => long ?_)
      rw [← same]
      simp only [Session.create, Session.getToken, List.length_map, List.length_ofFn]
    have short : spelled token = false := by
      unfold spelled
      rw [beq_eq_false_iff_ne.mpr long, Bool.false_and]
    rw [none, short]
    rfl

def guessing (host : Host) (now : Int) (params : Text × Text) (token : Text) (s : SharedStorage) : Finset Draws :=
  Finset.univ.filter (fun draws => holds token (respond host now draws (.login (.ok params)) s).2.sessions = true)

theorem guesses (host : Host) (now : Int) {params : Text × Text} {token : Text} {s : SharedStorage}
    (right : rightCredentials params = true) (fresh : holds token s.sessions = false) :
    (guessing host now params token s).card = (if spelled token then 2 ^ token.count '-' else 0) ∧
    (guessing host now params token s).card ≤ 2 ^ Settings.tokenLength ∧
    Fintype.card Draws = 65 ^ Settings.tokenLength := by
  have same : guessing host now params token s = drawn now token := by
    ext draws
    have pushed : (respond host now draws (.login (.ok params)) s).2.sessions =
        s.sessions ++ [Session.create draws now] := by
      simp only [respond, RestHandle.handle, RestHandle.execLogin, right, if_true, RestHandle.pushSession]
    have either : holds token (s.sessions ++ [Session.create draws now]) =
        (holds token s.sessions || (Session.create draws now).getToken == token) := by
      simp only [holds, List.any_append, List.any_cons, List.any_nil, Bool.or_false]
    simp only [guessing, drawn, Finset.mem_filter, pushed, either, fresh, Bool.false_or, beq_iff_eq]
  refine ⟨by rw [same, drawnCard], ?_, by rw [Fintype.card_fun, Fintype.card_fin, Fintype.card_fin]⟩
  rw [same, drawnCard]
  split
  · rename_i written
    have long : token.length = Settings.tokenLength := beq_iff_eq.mp (Bool.and_eq_true_iff.mp written).1
    exact Nat.pow_le_pow_right (by decide) (long ▸ List.count_le_length)
  · exact Nat.zero_le _

/- Four thousand million draws make the token of dashes, one makes the token of zeros. -/
theorem guessesBench :
    (guessing NetworkSwitch.bench 1 (text "root", text "root") (List.replicate 32 '-') .initial).card = 2 ^ 32 ∧
    (guessing NetworkSwitch.bench 1 (text "root", text "root") NetworkSwitch.benchToken .initial).card = 1 := by
  have right : rightCredentials (text "root", text "root") = true := by decide
  have unused (token : Text) : holds token SharedStorage.initial.sessions = false := rfl
  have dashes := (guesses NetworkSwitch.bench 1 right (unused (List.replicate 32 '-'))).1
  have zeros := (guesses NetworkSwitch.bench 1 right (unused NetworkSwitch.benchToken)).1
  refine ⟨dashes.trans (by decide), zeros.trans (by decide)⟩

end Tokens
end PsipSwitch
