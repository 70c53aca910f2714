import PsipSwitch.Lib.Json
import PsipSwitch.NetworkSwitch
import PsipSwitch.RestSteps

/-! Strings in the replies of the REST thread. The encoder of strings escapes nothing, so
a reply shows the strings it carries when all of them are clean, and in no other case. -/
namespace PsipSwitch
namespace Replies
open NetworkSwitch RestHandle
open Json (Clean Faithful Chain Piece literal closed closeBrace openBrace)

theorem commaPopped (close : Char) {texts : List Text} (more : texts ≠ []) (start : Text) :
    popComma (texts.foldl (fun output entry => output ++ entry ++ text ",") start) ++ [close] =
      start ++ closed close texts := by
  induction texts generalizing start with
  | nil => contradiction
  | cons entry others ih =>
    by_cases last : others = []
    · subst last
      have comma : text "," = [','] := rfl
      have popped : popComma (start ++ entry ++ [',']) = start ++ entry := by
        simp only [popComma, List.getLast?_concat, if_true, List.dropLast_concat]
      rw [List.foldl_cons, List.foldl_nil, comma, popped, closed, List.append_assoc]
    · have comma : text "," = [','] := rfl
      rw [List.foldl_cons, ih last, Json.closedCons last, comma]
      simp only [List.append_assoc, List.cons_append, List.nil_append]

def memberText (entry : Text × Text) : Text := literal entry.1 ++ ':' :: entry.2

theorem objectText (data : JsonMap) :
    encodeJsonObject data = openBrace :: closed closeBrace (data.entries.map memberText) := by
  have step : (fun (output : Text) (entry : Text × Text) =>
      output ++ text "\"" ++ entry.1 ++ text "\":" ++ entry.2 ++ text ",") =
      fun output entry => output ++ memberText entry ++ text "," := by
    funext output entry
    have quoted : text "\"" = [Json.quote] := rfl
    have colon : text "\":" = [Json.quote, ':'] := rfl
    simp only [memberText, Json.literalAppend, quoted, colon, List.append_assoc, List.cons_append, List.nil_append]
  rw [encodeJsonObject, step]
  by_cases none : data.entries = []
  · rw [none]
    rfl
  · have texts : data.entries.map memberText ≠ [] := by simpa using none
    have popped := commaPopped closeBrace texts [openBrace]
    rw [List.foldl_map] at popped
    exact popped

theorem listText (data : List Text) : encodeJsonList data = '[' :: closed ']' data := by
  by_cases none : data = []
  · subst none
    rfl
  · exact commaPopped ']' none ['[']

theorem cleanMac (address : MacAddress) : Clean address.toText := by
  have low (index : Nat) : MacAddress.octet address index % 16 < 16 := Nat.mod_lt _ (by decide)
  have high (index : Nat) : MacAddress.octet address index / 16 < 16 := by
    have bound : MacAddress.octet address index < 256 := Nat.mod_lt _ (by decide)
    omega
  have digits : ∀ n < 16, Json.opening (MacAddress.hexDigit n) = some [] := by decide
  have colon : Json.opening ':' = some [] := rfl
  have colons : text ":" = [':'] := rfl
  simp only [Clean, MacAddress.toText, MacAddress.octetText, colons, List.cons_append, List.nil_append,
    Json.cleanFrom, digits _ (low _), digits _ (high _), colon]

def ShowsDevice (hostname : Text) (v : Json.Value) : Prop :=
  ∃ timeout, v = .object [(text "hostname", .string hostname), (text "timeout", timeout)]

def ShowsInterface (name : Text) (v : Json.Value) : Prop :=
  ∃ address id up, v = .object [(text "address", address), (text "id", id), (text "name", .string name), (text "up", up)]

def ShowsInterfaces (names : List Text) (v : Json.Value) : Prop :=
  ∃ vs, v = .object [(text "interfaces", .array vs)] ∧ List.Forall₂ (fun v name => ShowsInterface name v) vs names

def devicePiece (info : DeviceInfo) : Piece Json.Value :=
  Json.objectPiece [
    Json.memberPiece (text "hostname") (Json.stringPiece info.hostname),
    Json.memberPiece (text "timeout") (Json.plainPiece (Json.decimal (info.defaultMacTimeout.tdiv 1000)))]

theorem deviceText (info : DeviceInfo) : encodeDevice info = (devicePiece info).text :=
  objectText _

theorem endsToken {close : Char} (outside : Json.inToken close = false) (rest : Text) :
    ∀ c ∈ (close :: rest).head?, Json.inToken c = false := by
  rintro _ ⟨⟩
  exact outside

theorem deviceFaithful (info : DeviceInfo) (rest : Text) : Faithful Json.value (devicePiece info) rest := by
  refine Json.objectFaithful (.cons ?_ (.last ?_))
  · exact Json.memberFaithful (by decide) (Json.stringMember rfl (by decide))
  · exact Json.memberFaithful (by decide) (Json.decimalFaithful (endsToken rfl _) _)

def interfacePiece (host : Host) (net : Interface) (entry : InterfaceEntry) : Piece Json.Value :=
  Json.objectPiece [
    Json.memberPiece (text "address") (Json.plainPiece (literal (host.hwAddress net).toText)),
    Json.memberPiece (text "id") (Json.plainPiece (Json.decimal net.id.toInt32.toInt)),
    Json.memberPiece (text "name") (Json.stringPiece entry.name),
    Json.memberPiece (text "up") (Json.plainPiece (encodeJsonBool entry.up))]

theorem interfaceText (host : Host) (net : Interface) (entry : InterfaceEntry) :
    encodeInterface host net entry = (interfacePiece host net entry).text := objectText _

theorem boolFaithful {rest : Text} (ends : ∀ c ∈ rest.head?, Json.inToken c = false) (up : Bool) :
    Faithful Json.value (Json.plainPiece (encodeJsonBool up)) rest := by
  cases up with
  | true => exact Json.scalarFaithful (v := .bool true) rfl rfl ends
  | false => exact Json.scalarFaithful (v := .bool false) rfl rfl ends

theorem interfaceFaithful (host : Host) (net : Interface) (entry : InterfaceEntry) (rest : Text) :
    Faithful Json.value (interfacePiece host net entry) rest := by
  refine Json.objectFaithful (.cons ?_ (.cons ?_ (.cons ?_ (.last ?_))))
  · exact Json.memberFaithful (by decide) (Json.literalFaithful (cleanMac _) _)
  · exact Json.memberFaithful (by decide) (Json.decimalFaithful (endsToken rfl _) _)
  · exact Json.memberFaithful (by decide) (Json.stringMember rfl (by decide))
  · exact Json.memberFaithful (by decide) (boolFaithful (endsToken rfl _) _)

def interfacesPiece (host : Host) (entries : List (Interface × InterfaceEntry)) : Piece Json.Value :=
  Json.objectPiece [
    Json.memberPiece (text "interfaces") (Json.arrayPiece (entries.map (fun it => interfacePiece host it.1 it.2)))]

theorem interfacesText (host : Host) (entries : List (Interface × InterfaceEntry)) :
    encodeJsonObject (.ofList [
      (text "interfaces", encodeJsonList (entries.map (fun it => encodeInterface host it.1 it.2)))]) =
    (interfacesPiece host entries).text := by
  have texts : entries.map (fun it => encodeInterface host it.1 it.2) =
      (entries.map (fun it => interfacePiece host it.1 it.2)).map Piece.text := by
    simp only [List.map_map, interfaceText, Function.comp_def]
  rw [listText, texts]
  exact objectText _

theorem interfacesChain (host : Host) (rest : Text) {entries : List (Interface × InterfaceEntry)} (more : entries ≠ []) :
    Chain Json.value ']' rest (entries.map (fun it => interfacePiece host it.1 it.2)) := by
  induction entries with
  | nil => contradiction
  | cons it others ih =>
    by_cases last : others = []
    · subst last
      exact .last (interfaceFaithful host it.1 it.2 _)
    · exact .cons (interfaceFaithful host it.1 it.2 _) (ih last)

theorem interfacesFaithful (host : Host) (entries : List (Interface × InterfaceEntry)) (rest : Text) :
    Faithful Json.value (interfacesPiece host entries) rest := by
  refine Json.objectFaithful (.last (Json.memberFaithful (by decide) (Json.arrayFaithful ?_ ?_)))
  · by_cases none : entries = []
    · exact .inl (by rw [none]; rfl)
    · exact .inr (interfacesChain host _ none)
  · intro piece first
    obtain ⟨it, _, rfl⟩ := List.mem_map.mp (List.mem_of_mem_head? first)
    exact ⟨openBrace, _, rfl, rfl, by decide⟩

theorem deviceShown (info : DeviceInfo) (v : Json.Value) : (devicePiece info).shown v ↔ ShowsDevice info.hostname v := by
  simp only [devicePiece, Json.objectPiece, Json.shownMember, Json.shownNil, Json.stringPiece, Json.plainPiece,
    ShowsDevice, true_and, exists_eq_left]
  constructor
  · rintro ⟨_, rfl, _, ⟨timeout, rfl⟩, rfl⟩
    exact ⟨timeout, rfl⟩
  · rintro ⟨timeout, rfl⟩
    exact ⟨_, rfl, _, ⟨timeout, rfl⟩, rfl⟩

theorem interfaceShown (host : Host) (net : Interface) (entry : InterfaceEntry) (v : Json.Value) :
    (interfacePiece host net entry).shown v ↔ ShowsInterface entry.name v := by
  simp only [interfacePiece, Json.objectPiece, Json.shownMember, Json.shownNil, Json.stringPiece, Json.plainPiece,
    ShowsInterface, true_and, exists_eq_left]
  constructor
  · rintro ⟨_, rfl, address, _, ⟨id, _, ⟨_, ⟨up, rfl⟩, rfl⟩, rfl⟩, rfl⟩
    exact ⟨address, id, up, rfl⟩
  · rintro ⟨address, id, up, rfl⟩
    exact ⟨_, rfl, address, _, ⟨id, _, ⟨_, ⟨up, rfl⟩, rfl⟩, rfl⟩, rfl⟩

theorem interfacesShown (host : Host) (entries : List (Interface × InterfaceEntry)) (v : Json.Value) :
    (interfacesPiece host entries).shown v ↔ ShowsInterfaces (entries.map (fun it => it.2.name)) v := by
  have each (vs : List Json.Value) :
      (Json.listPiece ']' (entries.map (fun it => interfacePiece host it.1 it.2))).shown vs ↔
        List.Forall₂ (fun v name => ShowsInterface name v) vs (entries.map (fun it => it.2.name)) := by
    simp only [Json.listPiece, List.forall₂_map_right_iff, interfaceShown]
  simp only [interfacesPiece, Json.objectPiece, Json.shownMember, Json.shownNil, Json.arrayPiece, exists_eq_left,
    ShowsInterfaces, each]
  constructor
  · rintro ⟨_, rfl, _, ⟨vs, rfl, shows⟩, rfl⟩
    exact ⟨vs, rfl, shows⟩
  · rintro ⟨vs, rfl, shows⟩
    exact ⟨_, rfl, _, ⟨vs, rfl, shows⟩, rfl⟩

theorem deviceReads (info : DeviceInfo) :
    Json.Reads (encodeDevice info) (ShowsDevice info.hostname) ↔ Clean info.hostname := by
  rw [deviceText, Json.readsIff (deviceFaithful info []) (deviceShown info)]
  simp only [devicePiece, Json.objectPiece, Json.cleanCons, Json.cleanNil, Json.memberPiece, Json.stringPiece,
    Json.plainPiece, and_true]

theorem interfaceClean (host : Host) (net : Interface) (entry : InterfaceEntry) :
    (interfacePiece host net entry).clean ↔ Clean entry.name := by
  simp only [interfacePiece, Json.objectPiece, Json.cleanCons, Json.cleanNil, Json.memberPiece, Json.stringPiece,
    Json.plainPiece, and_true, true_and]

theorem interfaceReads (host : Host) (net : Interface) (entry : InterfaceEntry) :
    Json.Reads (encodeInterface host net entry) (ShowsInterface entry.name) ↔ Clean entry.name := by
  rw [interfaceText, Json.readsIff (interfaceFaithful host net entry []) (interfaceShown host net entry)]
  exact interfaceClean host net entry

theorem interfacesReads (host : Host) (entries : List (Interface × InterfaceEntry)) :
    Json.Reads (encodeJsonObject (.ofList [
      (text "interfaces", encodeJsonList (entries.map (fun it => encodeInterface host it.1 it.2)))]))
      (ShowsInterfaces (entries.map (fun it => it.2.name))) ↔ ∀ it ∈ entries, Clean it.2.name := by
  rw [interfacesText, Json.readsIff (interfacesFaithful host entries []) (interfacesShown host entries)]
  simp only [interfacesPiece, Json.objectPiece, Json.cleanCons, Json.cleanNil, Json.memberPiece, Json.arrayPiece,
    and_true]
  simp only [Json.listPiece, List.forall_mem_map, interfaceClean]

end Replies
end PsipSwitch
