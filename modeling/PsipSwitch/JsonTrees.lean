import PsipSwitch.Lib.JsonNested
import PsipSwitch.Replies

/-! Trees of JSON. What the encoders make of well-formed texts is well formed, and it has
the values of those texts in it, so a tree built with them is read back as it was. -/
namespace PsipSwitch
namespace JsonTrees
open RestHandle
open Json (Clean Parses)

theorem listParses {texts : List Text} {vs : List Json.Value} (each : List.Forall₂ Parses texts vs) :
    Parses (encodeJsonList texts) (.array vs) := by
  rw [Replies.listText]
  exact Json.parsesArray each

theorem objectParses {data : JsonMap} {vs : List (Text × Json.Value)}
    (each : List.Forall₂ (fun e m => e.1 = m.1 ∧ Clean e.1 ∧ Parses e.2 m.2) data.entries vs) :
    Parses (encodeJsonObject data) (.object vs) := by
  rw [Replies.objectText]
  exact Json.parsesObject each

theorem boolParses (data : Bool) : Parses (encodeJsonBool data) (.bool data) := by
  cases data with
  | true => exact Json.parsesToken rfl rfl
  | false => exact Json.parsesToken rfl rfl

inductive Tree where
  | int (data : Int)
  | long (data : Int)
  | bool (data : Bool)
  | list (data : List Tree)
  | object (data : List (Text × Tree))

mutual

def Tree.Mapped : Tree → Prop
  | .int _ => True
  | .long _ => True
  | .bool _ => True
  | .list data => ItemsMapped data
  | .object data => data.Pairwise (fun a b => a.1 < b.1) ∧ MembersMapped data

def ItemsMapped : List Tree → Prop
  | [] => True
  | item :: others => item.Mapped ∧ ItemsMapped others

def MembersMapped : List (Text × Tree) → Prop
  | [] => True
  | (key, item) :: others => Clean key ∧ item.Mapped ∧ MembersMapped others

end

mutual

def encode : Tree → Text
  | .int data => encodeJsonInt data
  | .long data => encodeJsonLong data
  | .bool data => encodeJsonBool data
  | .list data => encodeJsonList (encodeItems data)
  | .object data => encodeJsonObject (.ofList (encodeMembers data))

def encodeItems : List Tree → List Text
  | [] => []
  | item :: others => encode item :: encodeItems others

def encodeMembers : List (Text × Tree) → List (Text × Text)
  | [] => []
  | (key, item) :: others => (key, encode item) :: encodeMembers others

end

mutual

def treeOf : Json.Value → Option Tree
  | .null => none
  | .bool b => some (.bool b)
  | .number literal =>
    if Json.decimal (Json.wholeOf literal) = literal then some (.long (Json.wholeOf literal)) else none
  | .string _ => none
  | .array items => (itemsOf items).map .list
  | .object members => (membersOf members).map .object

def itemsOf : List Json.Value → Option (List Tree)
  | [] => some []
  | v :: others => (treeOf v).bind (fun item => (itemsOf others).map (item :: ·))

def membersOf : List (Text × Json.Value) → Option (List (Text × Tree))
  | [] => some []
  | (key, v) :: others => (treeOf v).bind (fun item => (membersOf others).map ((key, item) :: ·))

end

mutual

def Tree.widen : Tree → Tree
  | .int data => .long data
  | .long data => .long data
  | .bool data => .bool data
  | .list data => .list (widenItems data)
  | .object data => .object (widenMembers data)

def widenItems : List Tree → List Tree
  | [] => []
  | item :: others => item.widen :: widenItems others

def widenMembers : List (Text × Tree) → List (Text × Tree)
  | [] => []
  | (key, item) :: others => (key, item.widen) :: widenMembers others

end

theorem numberOf (n : Int) : treeOf (.number (Json.decimal n)) = some (.long n) := by
  simp only [treeOf, Json.wholeOfDecimal, if_true]

theorem membersKeys (members : List (Text × Tree)) : (encodeMembers members).map Prod.fst = members.map Prod.fst := by
  induction members with
  | nil => rfl
  | cons first others ih =>
    obtain ⟨key, item⟩ := first
    simp only [encodeMembers, List.map_cons, ih]

theorem membersAscending {members : List (Text × Tree)} (sorted : members.Pairwise (fun a b => a.1 < b.1)) :
    (OrderedTable.ofList (encodeMembers members) : JsonMap).entries = encodeMembers members := by
  apply OrderedTable.ofListAscending
  have keys : (members.map Prod.fst).Pairwise (· < ·) := List.pairwise_map.mpr sorted
  rw [← membersKeys] at keys
  exact List.pairwise_map.mp keys

mutual

theorem treeParses : ∀ tree : Tree, tree.Mapped → ∃ v, Parses (encode tree) v ∧ treeOf v = some tree.widen
  | .int data, _ => ⟨_, Json.parsesDecimal data, numberOf data⟩
  | .long data, _ => ⟨_, Json.parsesDecimal data, numberOf data⟩
  | .bool data, _ => ⟨_, boolParses data, rfl⟩
  | .list data, mapped => by
    obtain ⟨vs, each, back⟩ := itemsParse data mapped
    refine ⟨.array vs, listParses each, ?_⟩
    simp only [treeOf, back, Option.map_some, Tree.widen]
  | .object data, mapped => by
    obtain ⟨vs, each, back⟩ := membersParse data mapped.2
    refine ⟨.object vs, objectParses ?_, ?_⟩
    · rw [membersAscending mapped.1]
      exact each
    · simp only [treeOf, back, Option.map_some, Tree.widen]

theorem itemsParse : ∀ items : List Tree, ItemsMapped items →
    ∃ vs, List.Forall₂ Parses (encodeItems items) vs ∧ itemsOf vs = some (widenItems items)
  | [], _ => ⟨[], .nil, rfl⟩
  | item :: others, mapped => by
    obtain ⟨v, parses, first⟩ := treeParses item mapped.1
    obtain ⟨vs, each, back⟩ := itemsParse others mapped.2
    refine ⟨v :: vs, .cons parses each, ?_⟩
    simp only [itemsOf, first, back, Option.bind_some, Option.map_some, widenItems]

theorem membersParse : ∀ members : List (Text × Tree), MembersMapped members →
    ∃ vs, List.Forall₂ (fun e m => e.1 = m.1 ∧ Clean e.1 ∧ Parses e.2 m.2) (encodeMembers members) vs ∧
      membersOf vs = some (widenMembers members)
  | [], _ => ⟨[], .nil, rfl⟩
  | (key, item) :: others, mapped => by
    obtain ⟨v, parses, first⟩ := treeParses item mapped.2.1
    obtain ⟨vs, each, back⟩ := membersParse others mapped.2.2
    refine ⟨(key, v) :: vs, .cons ⟨rfl, mapped.1, parses⟩ each, ?_⟩
    simp only [membersOf, first, back, Option.bind_some, Option.map_some, widenMembers]

end

theorem membersZip {entries : List (Text × Text)} {vs : List Json.Value}
    (clean : ∀ key ∈ entries.map Prod.fst, Clean key) (each : List.Forall₂ Parses (entries.map Prod.snd) vs) :
    List.Forall₂ (fun e m => e.1 = m.1 ∧ Clean e.1 ∧ Parses e.2 m.2) entries ((entries.map Prod.fst).zip vs) := by
  induction entries generalizing vs with
  | nil => exact .nil
  | cons e others ih =>
    obtain ⟨v, rest, parses, tail, rfl⟩ := List.forall₂_cons_left_iff.mp each
    refine .cons ⟨rfl, clean e.1 List.mem_cons_self, parses⟩ ?_
    exact ih (fun key member => clean key (List.mem_cons_of_mem _ member)) tail

theorem encodersCompose :
    (∀ texts vs, List.Forall₂ Parses texts vs → ∀ v, Parses (encodeJsonList texts) v ↔ v = .array vs) ∧
    (∀ (data : JsonMap) vs, (∀ key ∈ data.keys, Clean key) →
      List.Forall₂ Parses (data.entries.map Prod.snd) vs →
      data.keys.Pairwise (· < ·) ∧ ∀ v, Parses (encodeJsonObject data) v ↔ v = .object (data.keys.zip vs)) ∧
    (∀ tree : Tree, tree.Mapped →
      (∃ v, Parses (encode tree) v) ∧ ∀ v, Parses (encode tree) v → treeOf v = some tree.widen) := by
  have exactly {text : Text} {w : Json.Value} (parses : Parses text w) (v : Json.Value) : Parses text v ↔ v = w :=
    ⟨fun again => Json.parsesUnique again parses, fun same => same ▸ parses⟩
  refine ⟨fun texts vs each => exactly (listParses each), ?_, ?_⟩
  · intro data vs clean each
    refine ⟨List.pairwise_map.mpr data.ascending, exactly (objectParses ?_)⟩
    exact membersZip clean each
  · intro tree mapped
    obtain ⟨w, parses, back⟩ := treeParses tree mapped
    refine ⟨⟨w, parses⟩, fun v again => ?_⟩
    rw [Json.parsesUnique again parses, back]

def benchTree : Tree := .object [(text "a", .list [.bool true, .list []]), (text "b", .object [])]

theorem benchTreeBack :
    Parses (encodeJsonList [text "true", text "false"]) (.array [.bool true, .bool false]) ∧
    Parses (encodeJsonObject (.ofList [(text "up", text "true")])) (.object [(text "up", .bool true)]) ∧
    ∃ v, Parses (encode benchTree) v ∧ treeOf v = some benchTree := by
  have yes : Parses (text "true") (.bool true) := boolParses true
  have no : Parses (text "false") (.bool false) := boolParses false
  have mapped : benchTree.Mapped := ⟨by decide, by decide, ⟨trivial, trivial, trivial⟩, by decide, ⟨.nil, trivial⟩, trivial⟩
  have ⟨⟨v, parses⟩, back⟩ := encodersCompose.2.2 benchTree mapped
  refine ⟨(encodersCompose.1 _ _ (.cons yes (.cons no .nil)) _).mpr rfl, ?_, v, parses, back v parses⟩
  exact ((encodersCompose.2.1 (.ofList [(text "up", text "true")]) _ (by decide) (.cons yes .nil)).2 _).mpr rfl

end JsonTrees
end PsipSwitch
