import PsipSwitch.InterfaceEdits
import PsipSwitch.JsonTrees

/-! GET /interface beside GET /interface/{id}. The list has an element for each registered
interface, in the order of their numbers, and what the other route answers is the element
with the number that is asked for. -/
namespace PsipSwitch
namespace InterfaceViews
open RestHandle SharedStorage InterfaceEdits
open Json (Clean Parses)
open Fallible (exec)

def list (host : Host) (now : Int) (authorization : Text) (s : SharedStorage) : Outcome × SharedStorage :=
  exec (getInterfaces host now authorization) s

def elements (host : Host) (s : SharedStorage) : List Text :=
  s.interfaces.entries.map (fun it => encodeInterface host it.1 it.2)

/- The number in an element. The 36 characters before it are those of the member "address"
and of the name of the member "id": an address is written in 17. -/
def elementId (element : Text) : Int := Json.wholeOf ((element.drop 36).takeWhile Json.inToken)

section Answers
variable {host : Host} {now : Int} {authorization : Text} {s : SharedStorage}

theorem listAnswer (authorised : Authorised authorization s)
    (there : ∀ net, s.Registered net → host.present now net = true) :
    list host now authorization s = (.ok (listReply (elements host s)), s) := by
  rw [list, execInterfaces, authorised, repliesSpec, if_pos (List.all_eq_true.mpr there)]
  rfl

theorem listFails (authorised : Authorised authorization s) {net : Interface} (registered : s.Registered net)
    (gone : host.present now net = false) : list host now authorization s = (.error .invalidInterface, s) := by
  have some : ¬ s.interfaces.keys.all (host.present now) = true := by
    intro all
    rw [List.all_eq_true.mp all net registered] at gone
    contradiction
  rw [list, execInterfaces, authorised, repliesSpec, if_neg some]
  rfl

theorem listThere {body : Text} (authorised : Authorised authorization s)
    (answered : (list host now authorization s).1 = .ok body) : ∀ net, s.Registered net → host.present now net = true := by
  intro net registered
  by_contra gone
  rw [listFails authorised registered (Bool.eq_false_iff.mpr gone)] at answered
  contradiction

end Answers

theorem elementBegins (host : Host) (net : Interface) (entry : InterfaceEntry) :
    ∃ rest, (encodeInterface host net entry).drop 36 = Json.decimal net.id.toInt32.toInt ++ ',' :: rest := by
  rw [Replies.interfaceText]
  exact ⟨_, rfl⟩

theorem elementIdSpec (host : Host) (net : Interface) (entry : InterfaceEntry) :
    elementId (encodeInterface host net entry) = net.id.toInt32.toInt := by
  obtain ⟨rest, begins⟩ := elementBegins host net entry
  have comma : Json.inToken ',' = false := rfl
  have token : (Json.decimal net.id.toInt32.toInt ++ ',' :: rest).takeWhile Json.inToken =
      Json.decimal net.id.toInt32.toInt := by
    rw [List.takeWhile_append_of_pos (fun _ member => Json.decimalInside member), List.takeWhile_cons, comma]
    exact List.append_nil _
  rw [elementId, begins, token, Json.wholeOfDecimal]

theorem smallId {id : UInt32} (small : id.toNat < 2147483648) : id.toInt32.toInt = id.toNat := by
  have double : 2 * id.toBitVec.toNat < 2 ^ 32 := by
    rw [UInt32.toNat_toBitVec]
    omega
  exact BitVec.toInt_eq_toNat_of_lt double

section Elements
variable {host : Host} {s : SharedStorage}

theorem elementIds (small : ∀ net, s.Registered net → net.id.toNat < 2147483648) :
    (elements host s).map elementId = s.interfaces.keys.map (fun net => (net.id.toNat : Int)) := by
  simp only [elements, OrderedTable.keys, List.map_map]
  refine List.map_congr_left (fun it member => ?_)
  have registered : s.Registered it.1 := List.mem_map.mpr ⟨it, member, rfl⟩
  simp only [Function.comp_apply, elementIdSpec, smallId (small it.1 registered)]

theorem idsAscending : (s.interfaces.keys.map (fun net => (net.id.toNat : Int))).Pairwise (· < ·) := by
  refine List.pairwise_map.mpr (List.pairwise_map.mpr (s.interfaces.ascending.imp ?_))
  intro a b less
  exact Int.ofNat_lt.mpr less

theorem registeredId {id : UInt32} :
    s.Registered ⟨id⟩ ↔ (id.toNat : Int) ∈ s.interfaces.keys.map (fun net => (net.id.toNat : Int)) := by
  constructor
  · exact fun registered => List.mem_map.mpr ⟨⟨id⟩, registered, rfl⟩
  · intro listed
    obtain ⟨net, member, same⟩ := List.mem_map.mp listed
    have here : net = ⟨id⟩ := Interface.rankInjective (Int.ofNat_inj.mp same)
    exact here ▸ member

theorem elementViewed {now : Int} {authorization element : Text} {id : UInt32} (authorised : Authorised authorization s)
    (small : ∀ net, s.Registered net → net.id.toNat < 2147483648) (there : ∀ net, s.Registered net → host.present now net = true)
    (member : element ∈ elements host s) (numbered : elementId element = id.toNat) :
    view host now authorization id s = (.ok element, s) := by
  obtain ⟨it, inside, rfl⟩ := List.mem_map.mp member
  have registered : s.Registered it.1 := List.mem_map.mpr ⟨it, inside, rfl⟩
  rw [elementIdSpec, smallId (small it.1 registered)] at numbered
  have here : it.1 = ⟨id⟩ := Interface.rankInjective (Int.ofNat_inj.mp numbered)
  have entry : s.interface ⟨id⟩ = it.2 := by
    simp only [SharedStorage.interface, ← here, OrderedTable.findOfEntry inside rfl, Option.getD_some]
  rw [viewRegistered authorised (here ▸ registered), entry, replyInterface, if_pos (there _ (here ▸ registered)), here]

end Elements

def interfaceValue (host : Host) (net : Interface) (entry : InterfaceEntry) : Json.Value :=
  .object [
    (text "address", .string (host.hwAddress net).toText),
    (text "id", .number (Json.decimal net.id.toInt32.toInt)),
    (text "name", .string entry.name),
    (text "up", .bool entry.up)]

theorem elementParses (host : Host) (net : Interface) {entry : InterfaceEntry} (clean : Clean entry.name) :
    Parses (encodeInterface host net entry) (interfaceValue host net entry) := by
  refine JsonTrees.objectParses (.cons ⟨rfl, rfl, ?_⟩ (.cons ⟨rfl, rfl, ?_⟩
    (.cons ⟨rfl, rfl, ?_⟩ (.cons ⟨rfl, rfl, ?_⟩ .nil))))
  · exact Json.parsesLiteral (Replies.cleanMac _)
  · exact Json.parsesDecimal _
  · exact Json.parsesLiteral clean
  · exact JsonTrees.boolParses _

theorem elementsParse {host : Host} {s : SharedStorage} (clean : ∀ it ∈ s.interfaces.entries, Clean it.2.name) :
    List.Forall₂ Parses (elements host s) (s.interfaces.entries.map (fun it => interfaceValue host it.1 it.2)) := by
  have each : ∀ es : List (Interface × InterfaceEntry), (∀ it ∈ es, Clean it.2.name) →
      List.Forall₂ Parses (es.map (fun it => encodeInterface host it.1 it.2))
        (es.map (fun it => interfaceValue host it.1 it.2)) := by
    intro es clean
    induction es with
    | nil => exact .nil
    | cons it others ih =>
      have first := elementParses host it.1 (clean it List.mem_cons_self)
      exact .cons first (ih (fun other member => clean other (List.mem_cons_of_mem _ member)))
  exact each s.interfaces.entries clean

theorem listParses {host : Host} {s : SharedStorage} (clean : ∀ it ∈ s.interfaces.entries, Clean it.2.name) :
    Parses (listReply (elements host s)) (.object [(text "interfaces",
      .array (s.interfaces.entries.map (fun it => interfaceValue host it.1 it.2)))]) := by
  have array := JsonTrees.listParses (@elementsParse host s clean)
  exact JsonTrees.objectParses (.cons ⟨rfl, rfl, array⟩ .nil)

theorem viewsListed {host : Host} {now : Int} {authorization : Text} {s : SharedStorage}
    (authorised : Authorised authorization s) (small : ∀ net, s.Registered net → net.id.toNat < 2147483648)
    (there : ∀ net, s.Registered net → host.present now net = true) (id : UInt32) :
    ((∃ body, (view host now authorization id s).1 = .ok body) ↔
      ∃ element ∈ elements host s, elementId element = id.toNat) ∧
    (∀ element ∈ elements host s, elementId element = id.toNat → view host now authorization id s = (.ok element, s)) ∧
    ((∀ element ∈ elements host s, elementId element ≠ id.toNat) →
      view host now authorization id s = (.error noInterface, s)) := by
  have viewed : ∀ element ∈ elements host s, elementId element = id.toNat →
      view host now authorization id s = (.ok element, s) :=
    fun _ member numbered => elementViewed authorised small there member numbered
  have missing (none : ∀ element ∈ elements host s, elementId element ≠ id.toNat) :
      view host now authorization id s = (.error noInterface, s) := by
    have unknown : ¬ s.Registered ⟨id⟩ := by
      rw [registeredId, ← @elementIds host s small]
      intro listed
      obtain ⟨element, member, numbered⟩ := List.mem_map.mp listed
      exact none element member numbered
    rw [view, execInterface, authorised]
    simp only [byIdUnknown unknown]
  refine ⟨?_, viewed, missing⟩
  constructor
  · rintro ⟨body, answered⟩
    by_contra none
    rw [missing (fun element member numbered => none ⟨element, member, numbered⟩)] at answered
    contradiction
  · rintro ⟨element, member, numbered⟩
    exact ⟨element, by rw [viewed element member numbered]⟩

end InterfaceViews
end PsipSwitch
