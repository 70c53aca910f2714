import PsipSwitch.RestHandle

/-! What the REST handlers do, said once: the session check without its monad, what
each request leaves of the storage, and when a request is refused. -/
namespace PsipSwitch
namespace RestHandle
open Fallible (exec execBind execBindOk execBindError)

def check (authorization : Text) (s : SharedStorage) : Except Failure Unit :=
  match bearerToken authorization with
  | .error e => .error e
  | .ok token => if holds token s.sessions then .ok () else .error refusal

theorem execAuthenticated (authorization : Text) (s : SharedStorage) :
    exec (authenticated authorization) s = (check authorization s, s) := by
  simp only [authenticated, checkSession, check, execBind, Fallible.execOfExcept]
  cases bearerToken authorization with
  | error e => rfl
  | ok token =>
    simp only [Fallible.execGet]
    split <;> rfl

theorem silentAuthenticated (authorization : Text) : Fallible.Silent (authenticated authorization) := by
  intro s
  rw [execAuthenticated]

theorem silentParameters {α : Type} (params : Parsed α) : Fallible.Silent (parameters params) :=
  Fallible.silentOfExcept _

theorem execParametersOk {α : Type} (a : α) (s : SharedStorage) :
    exec (parameters (.ok a)) s = (.ok a, s) := rfl

theorem execParametersError {α : Type} (e : Text) (s : SharedStorage) :
    exec (parameters (.error e : Parsed α)) s = (.error (.parameters e), s) := rfl

theorem bearerHeader (token : Text) : bearerToken (text "Bearer " ++ token) = .ok token := by
  have prefixed : (text "Bearer " ++ token).take 6 = text "Bearer" := rfl
  have long : ¬ (text "Bearer " ++ token).length < 7 := by
    simp only [List.length_append]
    have seven : (text "Bearer ").length = 7 := by decide
    omega
  simp only [bearerToken, prefixed, ne_eq, not_true_eq_false, if_false, substr, if_neg long]
  rfl

theorem byIdRegistered {id : UInt32} {s : SharedStorage} {it : Interface × InterfaceEntry}
    (found : byId id s = some it) : s.Registered it.1 ∧ it.1.id = id ∧ s.interface it.1 = it.2 := by
  have member := List.mem_of_find?_eq_some found
  have named : it.1.id = id := by simpa using List.find?_some found
  refine ⟨List.mem_map.mpr ⟨it, member, rfl⟩, named, ?_⟩
  simp only [SharedStorage.interface, OrderedTable.findOfEntry member rfl, Option.getD_some]

theorem byIdFind (id : UInt32) (s : SharedStorage) :
    byId id s = (s.interfaces.find? ⟨id⟩).map (fun entry => (⟨id⟩, entry)) := by
  have search (es : List (Interface × InterfaceEntry)) : es.find? (fun it => it.1.id == id) =
      (OrderedTable.findIn Interface.rank ⟨id⟩ es).map (fun entry => (⟨id⟩, entry)) := by
    induction es with
    | nil => rfl
    | cons it others ih =>
      obtain ⟨net, entry⟩ := it
      by_cases here : net.id = id
      · subst here
        simp only [List.find?_cons, beq_self_eq_true, OrderedTable.findIn, if_true, Option.map_some]
      · have other : net.rank ≠ Interface.rank ⟨id⟩ :=
          fun same => here (congrArg Interface.id (Interface.rankInjective same))
        simp only [List.find?_cons, beq_eq_false_iff_ne.mpr here, OrderedTable.findIn, if_neg other, ih]
  exact search s.interfaces.entries

theorem byIdKnown {id : UInt32} {s : SharedStorage} (registered : s.Registered ⟨id⟩) : byId id s = some (⟨id⟩, s.interface ⟨id⟩) := by
  rw [byIdFind, SharedStorage.registeredFind registered, Option.map_some]

theorem byIdUnknown {id : UInt32} {s : SharedStorage} (unknown : ¬ s.Registered ⟨id⟩) : byId id s = none := by
  rw [SharedStorage.registeredIff, OrderedTable.contains, Bool.not_eq_true, Option.isSome_eq_false_iff, Option.isNone_iff_eq_none]
    at unknown
  rw [byIdFind, unknown, Option.map_none]

inductive Effect (now : Int) (draws : Draws) (s : SharedStorage) : SharedStorage → Prop where
  | none : Effect now draws s s
  | login : Effect now draws s (pushSession (.create draws now) s)
  | logout (token : Text) : Effect now draws s (dropSession token s)
  | interface {net : Interface} (config : InterfaceConfig) (registered : s.Registered net) :
      Effect now draws s (s.setInterface net (editEntry config))
  | device (config : DeviceConfig) : Effect now draws s (RestHandle.editDevice config s)

theorem effectOfSilent {host : Host} {now : Int} {draws : Draws} {request : Request} {s : SharedStorage}
    (silent : Fallible.Silent (handle host now draws request)) :
    Effect now draws s (respond host now draws request s).2 := by
  have kept : (respond host now draws request s).2 = s := silent s
  rw [kept]
  exact .none

theorem silentAuth (authorization : Text) : Fallible.Silent (getAuth authorization) := by
  refine Fallible.silentBind (Fallible.silentOfExcept _) (fun token => ?_)
  refine Fallible.silentBind Fallible.silentGet (fun guard => ?_)
  split <;> exact Fallible.silentPure _

theorem silentInterfaces (host : Host) (now : Int) (authorization : Text) :
    Fallible.Silent (getInterfaces host now authorization) := by
  refine Fallible.silentBind (silentAuthenticated authorization) (fun _ => ?_)
  refine Fallible.silentBind Fallible.silentGet (fun guard => ?_)
  exact Fallible.silentBind (Fallible.silentOfExcept _) (fun _ => Fallible.silentPure _)

theorem silentInterface (host : Host) (now : Int) (authorization : Text) (id : Parsed UInt32) :
    Fallible.Silent (getInterface host now authorization id) := by
  refine Fallible.silentBind (silentAuthenticated authorization) (fun _ => ?_)
  refine Fallible.silentBind (silentParameters id) (fun id => ?_)
  refine Fallible.silentBind Fallible.silentGet (fun guard => ?_)
  split
  · exact Fallible.silentOfExcept _
  · exact Fallible.silentThrow _

theorem silentDevice (authorization : Text) : Fallible.Silent (getDevice authorization) := by
  refine Fallible.silentBind (silentAuthenticated authorization) (fun _ => ?_)
  exact Fallible.silentBind Fallible.silentGet (fun guard => Fallible.silentPure _)

theorem execLogin (now : Int) (draws : Draws) (params : Parsed (Text × Text)) (s : SharedStorage) :
    exec (postLogin now draws params) s = match params with
      | .error e => (.error (.parameters e), s)
      | .ok params =>
        if rightCredentials params then
          (.ok (loginReply (.create draws now)), pushSession (.create draws now) s)
        else (.error (.forbidden "Invalid username or password."), s) := by
  cases params with
  | error e => exact execBindError (execParametersError e s)
  | ok params =>
    refine (execBindOk (execParametersOk params s)).trans ?_
    simp only
    split <;> rfl

theorem execLogout (authorization : Text) (s : SharedStorage) :
    exec (postLogout authorization) s = match bearerToken authorization with
      | .error e => (.error e, s)
      | .ok token =>
        if holds token s.sessions then (.ok (encodeJsonObject (.ofList [])), dropSession token s)
        else (.error refusal, s) := by
  simp only [postLogout, execBind, Fallible.execOfExcept]
  cases bearerToken authorization with
  | error e => rfl
  | ok token =>
    simp only [Fallible.execGet]
    split <;> rfl

/- The loop comes to its end where all interfaces are there, and ends at the first one that
has left. -/
theorem repliesSpec (host : Host) (now : Int) (s : SharedStorage) :
    replyInterfaces host now s = if s.interfaces.keys.all (host.present now) then
      .ok (s.interfaces.entries.map (fun it => encodeInterface host it.1 it.2)) else .error .invalidInterface := by
  have each (es : List (Interface × InterfaceEntry)) :
      es.mapM (fun it => replyInterface host now it.1 it.2) = if (es.map Prod.fst).all (host.present now) then
        Except.ok (es.map (fun it => encodeInterface host it.1 it.2)) else .error .invalidInterface := by
    induction es with
    | nil => rfl
    | cons it others ih =>
      rw [List.mapM_cons, ih, replyInterface, List.map_cons, List.all_cons]
      cases host.present now it.1 with
      | false => rfl
      | true => cases (others.map Prod.fst).all (host.present now) <;> rfl
  exact each s.interfaces.entries

theorem execInterfaces (host : Host) (now : Int) (authorization : Text) (s : SharedStorage) :
    exec (getInterfaces host now authorization) s = match check authorization s with
      | .error e => (.error e, s)
      | .ok _ => ((replyInterfaces host now s).map listReply, s) := by
  simp only [getInterfaces, execBind, execAuthenticated]
  cases check authorization s with
  | error e => rfl
  | ok _ =>
    simp only [Fallible.execGet, Fallible.execOfExcept]
    cases replyInterfaces host now s <;> rfl

theorem execInterfaceEdit (host : Host) (now : Int) (authorization : Text) (id : Parsed UInt32)
    (config : Parsed InterfaceConfig) (s : SharedStorage) :
    exec (putInterfaceEdit host now authorization id config) s = match check authorization s, id, config with
      | .error e, _, _ => (.error e, s)
      | .ok _, .error e, _ => (.error (.parameters e), s)
      | .ok _, .ok _, .error e => (.error (.parameters e), s)
      | .ok _, .ok id, .ok config => match byId id s with
        | some it => (replyInterface host now it.1 (editEntry config it.2), s.setInterface it.1 (editEntry config))
        | none => (.error noInterface, s) := by
  simp only [putInterfaceEdit, execBind, execAuthenticated]
  cases check authorization s with
  | error e => rfl
  | ok _ =>
    cases id with
    | error e => rfl
    | ok id =>
      cases config with
      | error e => rfl
      | ok config =>
        simp only [execParametersOk, Fallible.execGet]
        cases byId id s with
        | none => rfl
        | some it => simp only [execBind, Fallible.execModify, Fallible.execOfExcept]

theorem execInterface (host : Host) (now : Int) (authorization : Text) (id : Parsed UInt32) (s : SharedStorage) :
    exec (getInterface host now authorization id) s = match check authorization s, id with
      | .error e, _ => (.error e, s)
      | .ok _, .error e => (.error (.parameters e), s)
      | .ok _, .ok id => match byId id s with
        | some it => (replyInterface host now it.1 it.2, s)
        | none => (.error noInterface, s) := by
  simp only [getInterface, execBind, execAuthenticated]
  cases check authorization s with
  | error e => rfl
  | ok _ =>
    cases id with
    | error e => rfl
    | ok id =>
      simp only [execParametersOk, Fallible.execGet]
      cases byId id s with
      | none => rfl
      | some it => simp only [Fallible.execOfExcept]

theorem execDeviceEdit (authorization : Text) (config : Parsed DeviceConfig) (s : SharedStorage) :
    exec (putDeviceEdit authorization config) s = match check authorization s, config with
      | .error e, _ => (.error e, s)
      | .ok _, .error e => (.error (.parameters e), s)
      | .ok _, .ok config =>
        (.ok (encodeDevice (editDevice config s).deviceInfo), editDevice config s) := by
  simp only [putDeviceEdit, execBind, execAuthenticated]
  cases check authorization s with
  | error e => rfl
  | ok _ =>
    cases config with
    | error e => rfl
    | ok config => rfl

theorem respondEffect (host : Host) (now : Int) (draws : Draws) (request : Request) (s : SharedStorage) :
    Effect now draws s (respond host now draws request s).2 := by
  cases request with
  | index => exact .none
  | login params =>
    simp only [respond, handle, execLogin]
    split
    · exact .none
    · split
      · exact .login
      · exact .none
  | auth authorization => exact effectOfSilent (silentAuth authorization)
  | logout authorization =>
    simp only [respond, handle, execLogout]
    split
    · exact .none
    · split
      · exact .logout _
      · exact .none
  | interfaces authorization => exact effectOfSilent (silentInterfaces host now authorization)
  | interface authorization id => exact effectOfSilent (silentInterface host now authorization id)
  | editInterface authorization id config =>
    simp only [respond, handle, execInterfaceEdit]
    split
    · exact .none
    · exact .none
    · exact .none
    · split
      · rename_i found
        exact .interface _ (byIdRegistered found).1
      · exact .none
  | device authorization => exact effectOfSilent (silentDevice authorization)
  | editDevice authorization config =>
    simp only [respond, handle, execDeviceEdit]
    split
    · exact .none
    · exact .none
    · exact .device _

theorem respondKeeps {P : SharedStorage → Prop} (host : Host) (now : Int) (draws : Draws) (request : Request)
    {s : SharedStorage} (sessions : ∀ list, P { s with sessions := list })
    (interface : ∀ net config, s.Registered net → P (s.setInterface net (editEntry config)))
    (device : ∀ info, P { s with deviceInfo := info }) : P (respond host now draws request s).2 := by
  have effect := respondEffect host now draws request s
  generalize (respond host now draws request s).2 = t at effect
  cases effect with
  | none => exact sessions s.sessions
  | login => exact sessions _
  | logout token => exact sessions _
  | interface config registered => exact interface _ config registered
  | device config => exact device _

def Authorised (authorization : Text) (s : SharedStorage) : Prop := check authorization s = .ok ()
instance (authorization s) : Decidable (Authorised authorization s) := by unfold Authorised; infer_instance

theorem execDevice {authorization : Text} {s : SharedStorage} (authorised : Authorised authorization s) :
    exec (getDevice authorization) s = (.ok (encodeDevice s.deviceInfo), s) := by
  have checked : exec (authenticated authorization) s = (.ok (), s) := by
    rw [execAuthenticated, authorised]
  exact execBindOk checked

theorem authorisedOfAnswer {authorization : Text} {s : SharedStorage} {body : Unit → Handler Text} {reply : Text}
    (answered : (exec (authenticated authorization >>= body) s).1 = .ok reply) :
    Authorised authorization s ∧ (exec (body ()) s).1 = .ok reply := by
  simp only [execBind, execAuthenticated] at answered
  unfold Authorised
  cases checked : check authorization s with
  | error e =>
    rw [checked] at answered
    contradiction
  | ok u =>
    rw [checked] at answered
    exact ⟨rfl, answered⟩

def EditsInterface (request : Request) (s : SharedStorage) (net : Interface) (config : InterfaceConfig) : Prop :=
  ∃ authorization, request = .editInterface authorization (.ok net.id) (.ok config) ∧ Authorised authorization s ∧
    s.Registered net

/- The edit is written before the reply is put together. -/
theorem respondEditsInterface (host : Host) (now : Int) (draws : Draws) {request : Request} {s : SharedStorage}
    {net : Interface} {config : InterfaceConfig} (edit : EditsInterface request s net config) :
    respond host now draws request s =
      (replyInterface host now net (editEntry config (s.interface net)), s.setInterface net (editEntry config)) := by
  obtain ⟨authorization, rfl, authorised, registered⟩ := edit
  simp only [respond, handle, execInterfaceEdit, Authorised] at authorised ⊢
  rw [authorised]
  simp only [byIdKnown registered]

def edits (request : Request) (s : SharedStorage) (config : DeviceConfig) : Prop :=
  ∃ authorization, request = .editDevice authorization (.ok config) ∧ Authorised authorization s

theorem respondEdits {host : Host} {now : Int} {draws : Draws} {request : Request} {s : SharedStorage}
    {config : DeviceConfig} (edit : edits request s config) :
    (respond host now draws request s).2 = RestHandle.editDevice config s := by
  obtain ⟨authorization, rfl, authorised⟩ := edit
  simp only [respond, handle, execDeviceEdit, Authorised] at authorised ⊢
  rw [authorised]

def Edit : Request → Prop
  | .editInterface _ _ _ | .editDevice _ _ => True
  | _ => False

theorem respondPlain {α : Type} {f : SharedStorage → α} {s : SharedStorage}
    (blind : ∀ list, f { s with sessions := list } = f s) (host : Host) (now : Int) (draws : Draws) {request : Request}
    (plain : ¬ Edit request) : f (respond host now draws request s).2 = f s := by
  cases request with
  | index => rfl
  | login params =>
    simp only [respond, handle, execLogin]
    split
    · rfl
    · split
      · exact blind _
      · rfl
  | auth authorization => exact congrArg f (silentAuth authorization s)
  | logout authorization =>
    simp only [respond, handle, execLogout]
    split
    · rfl
    · split
      · exact blind _
      · rfl
  | interfaces authorization => exact congrArg f (silentInterfaces host now authorization s)
  | interface authorization id => exact congrArg f (silentInterface host now authorization id s)
  | editInterface authorization id config => exact absurd trivial plain
  | device authorization => exact congrArg f (silentDevice authorization s)
  | editDevice authorization config => exact absurd trivial plain

theorem respondDevice (host : Host) (now : Int) (draws : Draws) {request : Request} {s : SharedStorage}
    (other : ∀ config, ¬ edits request s config) : (respond host now draws request s).2.deviceInfo = s.deviceInfo := by
  cases request with
  | editDevice authorization config =>
    simp only [respond, handle, execDeviceEdit]
    split
    · rfl
    · rfl
    · rename_i u config checked
      exact absurd ⟨authorization, rfl, checked⟩ (other config)
  | editInterface authorization id config =>
    simp only [respond, handle, execInterfaceEdit]
    split
    · rfl
    · rfl
    · rfl
    · split <;> rfl
  | _ => exact respondPlain (f := SharedStorage.deviceInfo) (fun _ => rfl) host now draws id

end RestHandle
end PsipSwitch
