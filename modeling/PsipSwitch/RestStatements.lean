import PsipSwitch.Statements

/-! The handlers of the REST thread, statement by statement. What a handler throws ends it, and
leaves what was written before. -/
namespace PsipSwitch
namespace Statements
open NetworkSwitch (Store)
open RestHandle (Failure Parsed Request Outcome InterfaceConfig DeviceConfig bearerToken refusal noInterface authReply
  loginReply listReply replyInterface holds encodeJsonObject encodeDevice editEntry editDevice milliseconds byId)
open Program (alone walk visited)

abbrev Handler := ExceptT Failure Body

def ofExcept {α : Type} (result : Except Failure α) : Handler α := ExceptT.mk (pure result)

def here {α : Type} (statement : Body α) : Handler α := ExceptT.lift statement

def parameters {α : Type} (params : Parsed α) : Handler α := ofExcept (params.mapError .parameters)

def known (token : Text) : Body Bool :=
  walk (fun s => s.storage.sessions) (fun _ it auth =>
    if it.getToken == token then pure (.done true) else pure (.yield auth)) false

def authenticated (authorization : Text) : Handler Unit := do
  let token ← ofExcept (bearerToken authorization)
  if ← here (known token) then pure () else throw refusal

def getIndex : Handler Text := pure RestHandle.indexReply

def postLogin (at_ : Int) (draws : Draws) (params : Parsed (Text × Text)) : Handler Text := do
  let params ← parameters params
  if RestHandle.rightCredentials params then
    here (put (RestHandle.pushSession (.create draws at_)))
    let session ← here (.deref (fun s => s.storage.sessions.getLast?))
    return loginReply session
  else throw (.forbidden "Invalid username or password.")

def getAuth (authorization : Text) : Handler Text := do
  let token ← ofExcept (bearerToken authorization)
  here (walk (fun s => s.storage.sessions) (fun _ it reply =>
    if it.getToken == token then pure (.done (authReply true)) else pure (.yield reply)) (authReply false))

def logoutAt (token : Text) (i : Nat) (it : Session) (reply : Option Text) : Body (ForInStep (Option Text)) := do
  if it.getToken == token then
    put (fun s => { s with sessions := s.sessions.eraseIdx i })
    return .done (some (encodeJsonObject (.ofList [])))
  else return .yield reply

def postLogout (authorization : Text) : Handler Text := do
  let token ← ofExcept (bearerToken authorization)
  match ← here (walk (fun s => s.storage.sessions) (logoutAt token) none) with
  | some reply => return reply
  | none => throw refusal

def pushInterface (host : Host) (now : Int) (it : Interface × InterfaceEntry) (interfaces : Except Failure (List Text)) :
    Body (ForInStep (Except Failure (List Text))) :=
  match replyInterface host now it.1 it.2 with
  | .ok reply => pure (.yield (interfaces.map (· ++ [reply])))
  | .error failure => pure (.done (.error failure))

def getInterfaces (host : Host) (now : Int) (authorization : Text) : Handler Text := do
  authenticated authorization
  let interfaces ← here (walk (fun s => s.storage.interfaces.entries) (fun _ => pushInterface host now) (.ok []))
  let interfaces ← ofExcept interfaces
  return listReply interfaces

def getInterface (host : Host) (now : Int) (authorization : Text) (id : Parsed UInt32) : Handler Text := do
  authenticated authorization
  let id ← parameters id
  match ← here (walk (fun s => s.storage.interfaces.entries) (fun _ it reply =>
      if it.1.id == id then pure (.done (some (replyInterface host now it.1 it.2))) else pure (.yield reply)) none) with
  | some reply => ofExcept reply
  | none => throw noInterface

def writeName (net : Interface) (name : Text) : Body Unit := put (·.setInterface net (fun entry => { entry with name := name }))

def writeUp (net : Interface) (up : Int) : Body Unit := put (·.setInterface net (fun entry => { entry with up := up != 0 }))

def editInterface (net : Interface) (config : InterfaceConfig) : Body Unit := do
  match config.name with
  | some name => writeName net name
  | none => pure ()
  match config.up with
  | some up => writeUp net up
  | none => pure ()

def editAt (host : Host) (now : Int) (id : UInt32) (config : InterfaceConfig) (it : Interface × InterfaceEntry)
    (reply : Option (Except Failure Text)) : Body (ForInStep (Option (Except Failure Text))) := do
  if it.1.id == id then
    editInterface it.1 config
    let entry ← look (·.interface it.1)
    return .done (some (replyInterface host now it.1 entry))
  else return .yield reply

def putInterfaceEdit (host : Host) (now : Int) (authorization : Text) (id : Parsed UInt32)
    (config : Parsed InterfaceConfig) : Handler Text := do
  authenticated authorization
  let id ← parameters id
  let config ← parameters config
  match ← here (walk (fun s => s.storage.interfaces.entries) (fun _ => editAt host now id config) none) with
  | some reply => ofExcept reply
  | none => throw noInterface

def readDevice : Body Text := do
  let hostname ← look (·.deviceInfo.hostname)
  let timeout ← look (·.deviceInfo.defaultMacTimeout)
  return encodeDevice ⟨hostname, timeout⟩

def getDevice (authorization : Text) : Handler Text := do
  authenticated authorization
  here readDevice

def writeDevice (config : DeviceConfig) : Body Unit := do
  match config.hostname with
  | some hostname => put (fun s => { s with deviceInfo := { s.deviceInfo with hostname := hostname } })
  | none => pure ()
  match config.timeout with
  | some seconds => put (fun s => { s with deviceInfo := { s.deviceInfo with defaultMacTimeout := milliseconds seconds } })
  | none => pure ()

def putDeviceEdit (authorization : Text) (config : Parsed DeviceConfig) : Handler Text := do
  authenticated authorization
  let config ← parameters config
  here (writeDevice config)
  here readDevice

def handle (host : Host) (at_ : Int) (draws : Draws) : Request → Handler Text
  | .index => getIndex
  | .login params => postLogin at_ draws params
  | .auth authorization => getAuth authorization
  | .logout authorization => postLogout authorization
  | .interfaces authorization => getInterfaces host at_ authorization
  | .interface authorization id => getInterface host at_ authorization id
  | .editInterface authorization id config => putInterfaceEdit host at_ authorization id config
  | .device authorization => getDevice authorization
  | .editDevice authorization config => putDeviceEdit authorization config

def respond (host : Host) (at_ : Int) (draws : Draws) (request : Request) : Body Outcome :=
  (handle host at_ draws request).run

theorem aloneHere {α β : Type} (q : Body α) (k : α → Handler β) (s : Store) :
    alone (here q >>= k).run s = (alone q s).bind (fun result => alone (k result.1).run result.2) := by
  change alone ((q >>= fun a => pure (Except.ok a)) >>= ExceptT.bindCont k) s = _
  rw [Program.aloneBind, Program.aloneBind]
  cases alone q s <;> rfl

theorem aloneLast {α : Type} (q : Body α) (s : Store) :
    alone (here q).run s = (alone q s).map (fun result => (.ok result.1, result.2)) := by
  change alone (q >>= fun a => pure (Except.ok a)) s = _
  rw [Program.aloneBind]
  cases alone q s <;> rfl

/-! A handler does what the operation does that is taken as one: same answer, same storage. -/

def Computes {α : Type} (m : Handler α) (h : RestHandle.Handler α) : Prop :=
  ∀ s : Store, alone m.run s = some ((Fallible.exec h s.storage).1, { s with storage := (Fallible.exec h s.storage).2 })

section Computes
variable {α β : Type}

theorem computesPure (a : α) : Computes (pure a) (pure a) := fun _ => rfl

theorem computesThrow (e : Failure) : Computes (throw e : Handler α) (throw e) := fun _ => rfl

theorem computesOfExcept (result : Except Failure α) : Computes (ofExcept result) (Fallible.ofExcept result) := by
  intro s
  rw [Fallible.execOfExcept]
  rfl

theorem computesBind {m : Handler α} {h : RestHandle.Handler α} {k : α → Handler β} {l : α → RestHandle.Handler β}
    (first : Computes m h) (next : ∀ a, Computes (k a) (l a)) : Computes (m >>= k) (h >>= l) := by
  intro s
  change alone (m.run >>= ExceptT.bindCont k) s = _
  rw [Program.aloneBind, first s, Fallible.execBind]
  rcases Fallible.exec h s.storage with ⟨a | a, t⟩
  · rfl
  · exact next a { s with storage := t }

theorem computesLook {q : Body α} {g : SharedStorage → α} {k : α → Handler β} {l : SharedStorage → RestHandle.Handler β}
    (reads : ∀ s : Store, alone q s = some (g s.storage, s)) (next : ∀ storage, Computes (k (g storage)) (l storage)) :
    Computes (here q >>= k) (get >>= l) := by
  intro s
  rw [aloneHere, reads, Fallible.execBind, Fallible.execGet]
  exact next s.storage s

theorem computesIte {c : Prop} [Decidable c] {m n : Handler α} {h i : RestHandle.Handler α} (yes : Computes m h)
    (no : Computes n i) : Computes (if c then m else n) (if c then h else i) := by
  split
  · exact yes
  · exact no

end Computes

section Handlers
variable {host : Host} {at_ : Int} {draws : Draws}

theorem searched {α : Type} (token : Text) (sessions : List Session) (yes no : α) :
    ((sessions.find? (fun it => it.getToken == token)).map (fun _ => yes)).getD no =
      if holds token sessions then yes else no := by
  induction sessions with
  | nil => rfl
  | cons it rest ih =>
    by_cases hit : (it.getToken == token) = true
    · simp [holds, hit]
    · simp only [holds, List.find?_cons, List.any_cons, hit, Bool.false_or] at ih ⊢
      exact ih

theorem aloneKnown (token : Text) (s : Store) : alone (known token) s = some (holds token s.storage.sessions, s) := by
  refine (Program.aloneSearch (fun s : Store => s.storage.sessions) (fun it => it.getToken == token) (fun _ => true)
    false s).trans ?_
  rw [searched]
  cases holds token s.storage.sessions <;> rfl

theorem computesAuthenticated (authorization : Text) :
    Computes (authenticated authorization) (RestHandle.authenticated authorization) := by
  refine computesBind (computesOfExcept _) (fun token => ?_)
  exact computesLook (aloneKnown token) (fun _ => computesIte (computesPure ()) (computesThrow _))

theorem computesLogin (params : Parsed (Text × Text)) :
    Computes (postLogin at_ draws params) (RestHandle.postLogin at_ draws params) := by
  refine computesBind (computesOfExcept _) (fun params => computesIte ?_ (computesThrow _))
  intro s
  have last : (s.storage.sessions ++ [Session.create draws at_]).getLast? = some (.create draws at_) := by simp
  have back : alone (.deref (fun s => s.storage.sessions.getLast?) : Body Session)
      { s with storage := RestHandle.pushSession (.create draws at_) s.storage } = some (.create draws at_, _) :=
    Program.aloneDeref last
  rw [aloneHere, alonePut, Option.bind_some, aloneHere, back]
  rfl

theorem computesSearch {β : Type} (container : SharedStorage → List β) {hit : β → Bool}
    {reply : β → Except Failure Text} {refused : Failure} {l : SharedStorage → RestHandle.Handler Text}
    (found : ∀ storage x, (container storage).find? hit = some x → l storage = Fallible.ofExcept (reply x))
    (missed : ∀ storage, (container storage).find? hit = none → l storage = throw refused) :
    Computes (do
      match ← here (walk (fun s => container s.storage) (fun _ x c =>
        if hit x then pure (.done (some (reply x))) else pure (.yield c)) none) with
      | some reply => ofExcept reply
      | none => throw refused) (get >>= l) := by
  refine computesLook (g := fun storage => ((container storage).find? hit).map reply) (fun s => ?_) (fun storage => ?_)
  · refine (Program.aloneSearch (fun s : Store => container s.storage) hit (fun x => some (reply x)) none s).trans ?_
    cases (container s.storage).find? hit <;> rfl
  · cases look : (container storage).find? hit with
    | none =>
      rw [missed storage look]
      exact computesThrow refused
    | some x =>
      rw [found storage x look]
      exact computesOfExcept (reply x)

theorem computesAuth (authorization : Text) : Computes (getAuth authorization) (RestHandle.getAuth authorization) := by
  refine computesBind (computesOfExcept _) (fun token s => ?_)
  have look := Program.aloneSearch (fun s : Store => s.storage.sessions) (fun it => it.getToken == token)
    (fun _ => authReply true) (authReply false) s
  rw [searched] at look
  rw [aloneLast, look, Fallible.execBind, Fallible.execGet, Option.map_some]
  dsimp only
  split <;> rfl

theorem aloneLogoutAt (token : Text) (i : Nat) (it : Session) (reply : Option Text) (s : Store) :
    alone (logoutAt token i it reply) s = if it.getToken == token then
        some (.done (some (encodeJsonObject (.ofList []))),
          { s with storage := { s.storage with sessions := s.storage.sessions.eraseIdx i } })
      else some (.yield reply, s) := by
  unfold logoutAt
  split <;> rfl

theorem computesLogout (authorization : Text) :
    Computes (postLogout authorization) (RestHandle.postLogout authorization) := by
  refine computesBind (computesOfExcept _) (fun token s => ?_)
  have loop : alone (walk (fun s : Store => s.storage.sessions) (logoutAt token) none) s =
      if holds token s.storage.sessions then
        some (some (encodeJsonObject (.ofList [])), { s with storage := RestHandle.dropSession token s.storage })
      else some (none, s) := by
    rw [Program.aloneWalk, Program.visitedFind (fun it => it.getToken == token)]
    · rw [← searched token s.storage.sessions (some (_, _)) (some (none, s))]
      cases look : s.storage.sessions.find? (fun it => it.getToken == token) with
      | none => rfl
      | some it =>
        have hit : (it.getToken == token) = true := List.find?_some (p := fun it : Session => it.getToken == token) look
        have place := List.findIdx?_eq_some_of_exists (p := fun it : Session => it.getToken == token)
          ⟨it, List.mem_of_find?_eq_some look, hit⟩
        have dropped : s.storage.sessions.eraseIdx (s.storage.sessions.findIdx fun it => it.getToken == token) =
            s.storage.sessions.eraseP (fun it => it.getToken == token) := by
          rw [List.eraseP_eq_eraseIdx, place]
        simp only [aloneLogoutAt, hit, if_true, Nat.zero_add, dropped]
        rfl
    · intro i it reply s miss
      simp only [aloneLogoutAt, miss, Bool.false_eq_true, if_false]
    · intro i it reply s hit
      simp only [aloneLogoutAt, hit, if_true]
      exact ⟨_, _, rfl⟩
    · intro i it reply s d t _ ends
      rw [aloneLogoutAt] at ends
      split at ends <;> cases ends
      rfl
  rw [aloneHere, loop, Fallible.execBind, Fallible.execGet]
  dsimp only
  split <;> rfl

theorem pushedOnly (host : Host) (now : Int) (it : Interface × InterfaceEntry) (interfaces : Except Failure (List Text))
    (s : Store) : alone (pushInterface host now it interfaces) s = match replyInterface host now it.1 it.2 with
      | .ok reply => some (.yield (interfaces.map (· ++ [reply])), s)
      | .error failure => some (.done (.error failure), s) := by
  unfold pushInterface
  split <;> rfl

theorem pushedAll (host : Host) (now : Int) (i : Nat) (es : List (Interface × InterfaceEntry)) (replies : List Text)
    (s : Store) : visited (fun _ => pushInterface host now) i es (.ok replies) s =
      some ((es.mapM (fun it => replyInterface host now it.1 it.2)).map (replies ++ ·), s) := by
  induction es generalizing i replies with
  | nil =>
    rw [visited, List.mapM_nil]
    exact congrArg (fun all => some (Except.ok all, s)) (List.append_nil replies).symm
  | cons it others ih =>
    rw [visited, pushedOnly, List.mapM_cons]
    cases replyInterface host now it.1 it.2 with
    | error failure => rfl
    | ok reply =>
      simp only [Except.map]
      rw [ih]
      cases others.mapM (fun it => replyInterface host now it.1 it.2) with
      | error failure => rfl
      | ok more => exact congrArg (fun all => some (Except.ok all, s)) (List.append_assoc replies [reply] more)

theorem alonePushed (host : Host) (now : Int) (s : Store) :
    alone (walk (fun s : Store => s.storage.interfaces.entries) (fun _ => pushInterface host now) (.ok [])) s =
      some (RestHandle.replyInterfaces host now s.storage, s) := by
  rw [Program.aloneWalk, pushedAll]
  · rw [RestHandle.replyInterfaces]
    cases s.storage.interfaces.entries.mapM (fun it => replyInterface host now it.1 it.2) <;> rfl
  · intro i it interfaces s d t _ ends
    rw [pushedOnly] at ends
    split at ends <;> cases ends
    rfl

theorem computesInterfaces (now : Int) (authorization : Text) :
    Computes (getInterfaces host now authorization) (RestHandle.getInterfaces host now authorization) := by
  refine computesBind (computesAuthenticated authorization) (fun _ => ?_)
  exact computesLook (alonePushed host now) (fun _ => computesBind (computesOfExcept _) (fun _ => computesPure _))

theorem computesInterface (now : Int) (authorization : Text) (id : Parsed UInt32) :
    Computes (getInterface host now authorization id) (RestHandle.getInterface host now authorization id) := by
  refine computesBind (computesAuthenticated authorization) (fun _ => computesBind (computesOfExcept _) (fun id => ?_))
  refine computesSearch (fun storage => storage.interfaces.entries) (fun storage it look => ?_)
    (fun storage look => ?_)
  · simp only [byId, look]
  · simp only [byId, look]

theorem aloneReadDevice (s : Store) : alone readDevice s = some (encodeDevice s.storage.deviceInfo, s) := rfl

theorem computesDevice (authorization : Text) :
    Computes (getDevice authorization) (RestHandle.getDevice authorization) := by
  refine computesBind (computesAuthenticated authorization) (fun _ s => ?_)
  rw [aloneLast, aloneReadDevice]
  rfl

theorem aloneWriteDevice (config : DeviceConfig) (s : Store) :
    alone (writeDevice config) s = some ((), { s with storage := editDevice config s.storage }) := by
  obtain ⟨hostname, timeout⟩ := config
  cases hostname <;> cases timeout <;> rfl

theorem computesDeviceEdit (authorization : Text) (config : Parsed DeviceConfig) :
    Computes (putDeviceEdit authorization config) (RestHandle.putDeviceEdit authorization config) := by
  refine computesBind (computesAuthenticated authorization) (fun _ => computesBind (computesOfExcept _) (fun config s => ?_))
  rw [aloneHere, aloneWriteDevice, Option.bind_some, aloneLast, aloneReadDevice]
  rfl

theorem aloneEditInterface {net : Interface} (config : InterfaceConfig) {s : Store} (registered : s.storage.Registered net) :
    alone (editInterface net config) s =
      some ((), { s with storage := s.storage.setInterface net (editEntry config) }) := by
  obtain ⟨name, up⟩ := config
  have twice (f g : InterfaceEntry → InterfaceEntry) :
      (s.storage.setInterface net f).setInterface net g = s.storage.setInterface net (fun entry => g (f entry)) := by
    simp only [SharedStorage.setInterface, OrderedTable.updateTwice, Option.getD_some]
  cases name with
  | none =>
    cases up with
    | none =>
      have same := SharedStorage.touchRegistered registered
      change some ((), s) = some ((), { s with storage := s.storage.touch net })
      rw [same]
    | some up => rfl
  | some name =>
    cases up with
    | none => rfl
    | some up =>
      have both := twice (fun entry => { entry with name := name }) (fun entry => { entry with up := up != 0 })
      exact congrArg (fun storage => some ((), { s with storage := storage })) both

theorem editEnds (net : Interface) (config : InterfaceConfig) (s : Store) :
    ∃ t, alone (editInterface net config) s = some ((), t) := by
  obtain ⟨name, up⟩ := config
  cases name <;> cases up <;> exact ⟨_, rfl⟩

theorem editPassed {now : Int} {id : UInt32} {config : InterfaceConfig} {it : Interface × InterfaceEntry}
    {reply : Option (Except Failure Text)} {s : Store} (miss : (it.1.id == id) = false) :
    alone (editAt host now id config it reply) s = some (.yield reply, s) := by
  simp only [editAt, miss, Bool.false_eq_true, if_false]
  rfl

theorem editDone {now : Int} {id : UInt32} {config : InterfaceConfig} {it : Interface × InterfaceEntry}
    {reply : Option (Except Failure Text)} {s t : Store} (hit : (it.1.id == id) = true)
    (ends : alone (editInterface it.1 config) s = some ((), t)) : alone (editAt host now id config it reply) s =
      some (.done (some (replyInterface host now it.1 (t.storage.interface it.1))), t) := by
  simp only [editAt, hit, if_true, Program.aloneBind, ends, Option.bind_some, aloneLook]
  rfl

theorem aloneEdit (host : Host) (now : Int) (id : UInt32) (config : InterfaceConfig) (s : Store) :
    alone (walk (fun s : Store => s.storage.interfaces.entries) (fun _ => editAt host now id config) none) s =
      match byId id s.storage with
      | some it => some (some (replyInterface host now it.1 (editEntry config it.2)),
          { s with storage := s.storage.setInterface it.1 (editEntry config) })
      | none => some (none, s) := by
  rw [Program.aloneWalk, Program.visitedFind (fun it => it.1.id == id), byId]
  · cases look : s.storage.interfaces.entries.find? (fun it => it.1.id == id) with
    | none => rfl
    | some it =>
      have hit : (it.1.id == id) = true :=
        List.find?_some (p := fun it : Interface × InterfaceEntry => it.1.id == id) look
      have member := List.mem_of_find?_eq_some look
      have registered : s.storage.Registered it.1 := List.mem_map.mpr ⟨it, member, rfl⟩
      have there : s.storage.interface it.1 = it.2 := by
        rw [SharedStorage.interface, OrderedTable.findOfEntry member rfl, Option.getD_some]
      dsimp only
      rw [editDone hit (aloneEditInterface config registered)]
      simp only [Option.map_some, ForInStep.value_done, SharedStorage.setInterfaceSame, there]
  · exact fun _ _ _ _ => editPassed
  · intro i it reply s hit
    obtain ⟨t, ends⟩ := editEnds it.1 config s
    exact ⟨_, t, editDone hit ends⟩
  · intro i it reply s d t _ ends
    cases hit : it.1.id == id with
    | true =>
      obtain ⟨u, edited⟩ := editEnds it.1 config s
      cases (editDone hit edited).symm.trans ends
    | false =>
      cases (editPassed hit).symm.trans ends
      rfl

theorem computesInterfaceEdit (now : Int) (authorization : Text) (id : Parsed UInt32) (config : Parsed InterfaceConfig) :
    Computes (putInterfaceEdit host now authorization id config)
      (RestHandle.putInterfaceEdit host now authorization id config) := by
  refine computesBind (computesAuthenticated authorization) (fun _ => computesBind (computesOfExcept _) (fun id =>
    computesBind (computesOfExcept _) (fun config s => ?_)))
  rw [aloneHere, aloneEdit, Fallible.execBind, Fallible.execGet]
  dsimp only
  cases byId id s.storage with
  | none => rfl
  | some it =>
    change alone (ofExcept (replyInterface host now it.1 (editEntry config it.2))).run _ = _
    rw [Fallible.execBind, Fallible.execModify]
    exact computesOfExcept _ _

theorem computesHandle (request : Request) :
    Computes (handle host at_ draws request) (RestHandle.handle host at_ draws request) := by
  cases request with
  | index => exact computesPure _
  | login params => exact computesLogin params
  | auth authorization => exact computesAuth authorization
  | logout authorization => exact computesLogout authorization
  | interfaces authorization => exact computesInterfaces at_ authorization
  | interface authorization id => exact computesInterface at_ authorization id
  | editInterface authorization id config => exact computesInterfaceEdit at_ authorization id config
  | device authorization => exact computesDevice authorization
  | editDevice authorization config => exact computesDeviceEdit authorization config

theorem aloneRespond (request : Request) (s : Store) : alone (respond host at_ draws request) s =
    some ((RestHandle.respond host at_ draws request s.storage).1,
      { s with storage := (RestHandle.respond host at_ draws request s.storage).2 }) := computesHandle request s

end Handlers

end Statements
end PsipSwitch
