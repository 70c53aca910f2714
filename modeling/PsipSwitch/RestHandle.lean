import Mathlib.Data.List.Lex
import Mathlib.Data.Char
import PsipSwitch.Lib.Fallible
import PsipSwitch.SharedStorage

/-! The REST thread: JSON encoders and the handlers of the nine routes. Each handler
takes the mutex once, so a request is one step. What lithium parses is part of the
request: either values or the `http_error` that its parser throws. -/
namespace PsipSwitch
namespace RestHandle

abbrev JsonMap := OrderedTable (fun key : Text => key) Text

def popComma (output : Text) : Text := if output.getLast? = some ',' then output.dropLast else output

def encodeJsonObject (data : JsonMap) : Text :=
  popComma (data.entries.foldl
    (fun output entry => output ++ text "\"" ++ entry.1 ++ text "\":" ++ entry.2 ++ text ",") (text "\x7b")) ++
  text "\x7d"

def encodeJsonList (data : List Text) : Text :=
  popComma (data.foldl (fun output entry => output ++ entry ++ text ",") (text "[")) ++ text "]"

def encodeJsonInt (data : Int) : Text := text (toString data)

def encodeJsonLong (data : Int) : Text := text (toString data)

def encodeJsonString (data : Text) : Text := text "\"" ++ data ++ text "\""

def encodeJsonBool (data : Bool) : Text := if data then text "true" else text "false"

/- Failures of a handler: `li::http_error` thrown by it or by the parser of its
parameters, `std::out_of_range` thrown by `substr`, and `Tins::invalid_interface` thrown
by `hw_address()`. -/
inductive Failure where
  | forbidden (message : String)
  | notFound (message : String)
  | parameters (message : Text)
  | outOfRange
  | invalidInterface
  deriving DecidableEq, Repr

abbrev Handler := Fallible Failure SharedStorage

abbrev Parsed (α : Type) := Except Text α

def parameters {α : Type} (params : Parsed α) : Handler α :=
  Fallible.ofExcept (params.mapError .parameters)

def refusal : Failure := .forbidden "Invalid auth token."

def substr (content : Text) (pos : Nat) : Except Failure Text :=
  if content.length < pos then .error .outOfRange else .ok (content.drop pos)

def bearerToken (authorization : Text) : Except Failure Text :=
  if authorization.take 6 ≠ text "Bearer" then .error refusal else substr authorization 7

def holds (token : Text) (sessions : List Session) : Bool := sessions.any (fun it => it.getToken == token)

/- The check loop five handlers share. -/
def checkSession (token : Text) : Handler Unit := do
  let guard ← get
  if holds token guard.sessions then pure () else throw refusal

def authenticated (authorization : Text) : Handler Unit := do
  let token ← Fallible.ofExcept (bearerToken authorization)
  checkSession token

def encodeInterface (host : Host) (net : Interface) (entry : InterfaceEntry) : Text :=
  encodeJsonObject (.ofList [
    (text "id", encodeJsonInt net.id.toInt32.toInt),
    (text "name", encodeJsonString entry.name),
    (text "up", encodeJsonBool entry.up),
    (text "address", encodeJsonString (host.hwAddress net).toText)])

/- The address is asked for while the reply is put together. -/
def replyInterface (host : Host) (now : Int) (net : Interface) (entry : InterfaceEntry) : Except Failure Text :=
  if host.present now net then .ok (encodeInterface host net entry) else .error .invalidInterface

def encodeDevice (info : DeviceInfo) : Text :=
  encodeJsonObject (.ofList [
    (text "hostname", encodeJsonString info.hostname),
    (text "timeout", encodeJsonLong (info.defaultMacTimeout.tdiv 1000))])

def indexReply : Text :=
  encodeJsonObject (.ofList [
    (text "hello", encodeJsonString (text "world")),
    (text "test", encodeJsonList [encodeJsonInt 1, encodeJsonInt 2])])

def getIndex : Handler Text := pure indexReply

def rightCredentials (params : Text × Text) : Bool :=
  params.1 == Settings.restUsername && params.2 == Settings.restPassword

def pushSession (session : Session) (s : SharedStorage) : SharedStorage :=
  { s with sessions := s.sessions ++ [session] }

def loginReply (session : Session) : Text :=
  encodeJsonObject (.ofList [(text "token", encodeJsonString session.token)])

/- `sessions.back()` is the session that was pushed just before. -/
def postLogin (now : Int) (draws : Draws) (params : Parsed (Text × Text)) : Handler Text := do
  let params ← parameters params
  if rightCredentials params then
    modify (pushSession (.create draws now))
    return loginReply (.create draws now)
  else throw (.forbidden "Invalid username or password.")

def authReply (known : Bool) : Text := encodeJsonObject (.ofList [(text "auth", encodeJsonBool known)])

def getAuth (authorization : Text) : Handler Text := do
  let token ← Fallible.ofExcept (bearerToken authorization)
  let guard ← get
  if holds token guard.sessions then return authReply true else return authReply false

def dropSession (token : Text) (s : SharedStorage) : SharedStorage :=
  { s with sessions := s.sessions.eraseP (fun it => it.getToken == token) }

def postLogout (authorization : Text) : Handler Text := do
  let token ← Fallible.ofExcept (bearerToken authorization)
  let guard ← get
  if holds token guard.sessions then
    modify (dropSession token)
    return encodeJsonObject (.ofList [])
  else throw refusal

def listReply (interfaces : List Text) : Text :=
  encodeJsonObject (.ofList [(text "interfaces", encodeJsonList interfaces)])

def replyInterfaces (host : Host) (now : Int) (s : SharedStorage) : Except Failure (List Text) :=
  s.interfaces.entries.mapM (fun it => replyInterface host now it.1 it.2)

def getInterfaces (host : Host) (now : Int) (authorization : Text) : Handler Text := do
  authenticated authorization
  let guard ← get
  let interfaces ← Fallible.ofExcept (replyInterfaces host now guard)
  return listReply interfaces

def byId (id : UInt32) (s : SharedStorage) : Option (Interface × InterfaceEntry) :=
  s.interfaces.entries.find? (fun it => it.1.id == id)

def noInterface : Failure := .notFound "No such interface."

def getInterface (host : Host) (now : Int) (authorization : Text) (id : Parsed UInt32) : Handler Text := do
  authenticated authorization
  let id ← parameters id
  let guard ← get
  match byId id guard with
  | some it => Fallible.ofExcept (replyInterface host now it.1 it.2)
  | none => throw noInterface

structure InterfaceConfig where
  name : Option Text
  up : Option Int
  deriving DecidableEq, Repr

def editEntry (config : InterfaceConfig) (entry : InterfaceEntry) : InterfaceEntry :=
  { entry with
    name := config.name.getD entry.name
    up := match config.up with
      | some up => up != 0
      | none => entry.up }

def putInterfaceEdit (host : Host) (now : Int) (authorization : Text) (id : Parsed UInt32)
    (config : Parsed InterfaceConfig) : Handler Text := do
  authenticated authorization
  let id ← parameters id
  let config ← parameters config
  let guard ← get
  match byId id guard with
  | some it =>
    modify (fun s => s.setInterface it.1 (editEntry config))
    Fallible.ofExcept (replyInterface host now it.1 (editEntry config it.2))
  | none => throw noInterface

def getDevice (authorization : Text) : Handler Text := do
  authenticated authorization
  let guard ← get
  return encodeDevice guard.deviceInfo

structure DeviceConfig where
  hostname : Option Text
  timeout : Option Int
  deriving DecidableEq, Repr

def milliseconds (seconds : Int) : Int := int64 (seconds * 1000)

def editDevice (config : DeviceConfig) (s : SharedStorage) : SharedStorage :=
  { s with deviceInfo :=
    { hostname := config.hostname.getD s.deviceInfo.hostname
      defaultMacTimeout := match config.timeout with
        | some seconds => milliseconds seconds
        | none => s.deviceInfo.defaultMacTimeout } }

def putDeviceEdit (authorization : Text) (config : Parsed DeviceConfig) : Handler Text := do
  authenticated authorization
  let config ← parameters config
  modify (editDevice config)
  let guard ← get
  return encodeDevice guard.deviceInfo

inductive Request where
  | index
  | login (params : Parsed (Text × Text))
  | auth (authorization : Text)
  | logout (authorization : Text)
  | interfaces (authorization : Text)
  | interface (authorization : Text) (id : Parsed UInt32)
  | editInterface (authorization : Text) (id : Parsed UInt32) (config : Parsed InterfaceConfig)
  | device (authorization : Text)
  | editDevice (authorization : Text) (config : Parsed DeviceConfig)

def Request.authorization? : Request → Option Text
  | .index => none
  | .login _ => none
  | .auth authorization => some authorization
  | .logout authorization => some authorization
  | .interfaces authorization => some authorization
  | .interface authorization _ => some authorization
  | .editInterface authorization _ _ => some authorization
  | .device authorization => some authorization
  | .editDevice authorization _ => some authorization

def handle (host : Host) (now : Int) (draws : Draws) : Request → Handler Text
  | .index => getIndex
  | .login params => postLogin now draws params
  | .auth authorization => getAuth authorization
  | .logout authorization => postLogout authorization
  | .interfaces authorization => getInterfaces host now authorization
  | .interface authorization id => getInterface host now authorization id
  | .editInterface authorization id config => putInterfaceEdit host now authorization id config
  | .device authorization => getDevice authorization
  | .editDevice authorization config => putDeviceEdit authorization config

abbrev Outcome := Except Failure Text

def respond (host : Host) (now : Int) (draws : Draws) (request : Request) (s : SharedStorage) :
    Outcome × SharedStorage := Fallible.exec (handle host now draws request) s

def start (s : SharedStorage) : SharedStorage :=
  { s with restThread := { running := true, finished := false } }

def signalStop (s : SharedStorage) : SharedStorage :=
  { s with restThread := { s.restThread with running := false } }

def finish (s : SharedStorage) : SharedStorage :=
  { s with restThread := { s.restThread with finished := true } }

end RestHandle
end PsipSwitch
