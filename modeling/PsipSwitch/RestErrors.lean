import PsipSwitch.NetworkSwitch
import PsipSwitch.RestSteps

/-! Requests that fail. A handler that ends in an exception has written nothing, what a
client without a session gets to see depends on its request alone, and one header
makes a handler fail with an exception that lithium does not know. -/
namespace PsipSwitch
namespace RestErrors
open RestHandle
open Fallible (exec Refused FailsOnly)

theorem atomicLogin (now : Int) (draws : Draws) (params : Parsed (Text × Text)) :
    Fallible.Atomic (postLogin now draws params) := by
  refine Fallible.atomicBind (silentParameters params) (fun params => ?_)
  split
  · exact Fallible.atomicOfSure (Fallible.sureBind (Fallible.sureModify _) (fun _ => Fallible.surePure _))
  · exact Fallible.atomicOfSilent (Fallible.silentThrow _)

theorem atomicLogout (authorization : Text) : Fallible.Atomic (postLogout authorization) := by
  refine Fallible.atomicBind (Fallible.silentOfExcept _) (fun token => ?_)
  refine Fallible.atomicBind Fallible.silentGet (fun guard => ?_)
  split
  · exact Fallible.atomicOfSure (Fallible.sureBind (Fallible.sureModify _) (fun _ => Fallible.surePure _))
  · exact Fallible.atomicOfSilent (Fallible.silentThrow _)

theorem atomicDeviceEdit (authorization : Text) (config : Parsed DeviceConfig) :
    Fallible.Atomic (putDeviceEdit authorization config) := by
  refine Fallible.atomicBind (silentAuthenticated authorization) (fun _ => ?_)
  refine Fallible.atomicBind (silentParameters config) (fun config => ?_)
  refine Fallible.atomicOfSure (Fallible.sureBind (Fallible.sureModify _) (fun _ => ?_))
  exact Fallible.sureBind Fallible.sureGet (fun _ => Fallible.surePure _)

theorem atomicHandle (host : Host) (now : Int) (draws : Draws) {request : Request} {s : SharedStorage}
    (other : ∀ net config, ¬ EditsInterface request s net config) {failure : Failure}
    (failed : (respond host now draws request s).1 = .error failure) : (respond host now draws request s).2 = s := by
  cases request with
  | index => exact Fallible.atomicOfSilent (Fallible.silentPure _) s failure failed
  | login params => exact atomicLogin now draws params s failure failed
  | auth authorization => exact silentAuth authorization s
  | logout authorization => exact atomicLogout authorization s failure failed
  | interfaces authorization => exact silentInterfaces host now authorization s
  | interface authorization id => exact silentInterface host now authorization id s
  | editInterface authorization id config =>
    simp only [respond, handle, execInterfaceEdit]
    split
    · rfl
    · rfl
    · rfl
    · rename_i u id config checked
      cases found : byId id s with
      | none => rfl
      | some it =>
        obtain ⟨registered, rfl, _⟩ := byIdRegistered found
        exact absurd ⟨authorization, rfl, checked, registered⟩ (other it.1 config)
  | device authorization => exact silentDevice authorization s
  | editDevice authorization config => exact atomicDeviceEdit authorization config s failure failed

/- An edit is the one request that can fail when it has written, and does so when the
interface has left the host. -/
theorem errorsAtomic (host : Host) (now : Int) (draws : Draws) (request : Request) (s : SharedStorage) :
    (∀ failure, (respond host now draws request s).1 = .error failure → (respond host now draws request s).2 = s) ↔
      ∀ net config, EditsInterface request s net config →
        host.present now net = true ∨ editEntry config (s.interface net) = s.interface net := by
  constructor
  · intro atomic net config edit
    rw [respondEditsInterface host now draws edit] at atomic
    by_cases there : host.present now net = true
    · exact .inl there
    · have kept : s.setInterface net (editEntry config) = s := atomic .invalidInterface (if_neg there)
      have entry := SharedStorage.setInterfaceSame s net (editEntry config)
      rw [kept] at entry
      exact .inr entry.symm
  · intro harmless failure failed
    by_cases edit : ∃ net config, EditsInterface request s net config
    · obtain ⟨net, config, edit⟩ := edit
      rw [respondEditsInterface host now draws edit] at failed ⊢
      rcases harmless net config edit with there | idle
      · rw [replyInterface, if_pos there] at failed
        contradiction
      · obtain ⟨_, _, _, registered⟩ := edit
        exact SharedStorage.setInterfaceIdle registered idle
    · exact atomicHandle host now draws (fun net config edits => edit ⟨net, config, edits⟩) failed

def benchLogged : SharedStorage := pushSession ⟨text "abc", ⟨0, 30000⟩⟩ NetworkSwitch.benchStore.storage

def benchEdit (token : String) : Request :=
  .editInterface (text "Bearer " ++ text token) (.ok 7) (.ok ⟨some (text "lan"), some 0⟩)

def leaving : Host := { NetworkSwitch.bench with present := fun now net => net != ⟨2⟩ || decide (now < 5) }

def benchOpening : List NetworkSwitch.Operation :=
  [.reset, .start ⟨1⟩, .start ⟨2⟩, .startRest,
    .request 0 NetworkSwitch.benchDraws (.login (.ok (text "root", text "root")))]

def benchOpened : NetworkSwitch.Store := benchOpening.foldl (NetworkSwitch.sections leaving).step ⟨.initial, 0⟩

def benchRename : Request :=
  .editInterface (text "Bearer " ++ NetworkSwitch.benchToken) (.ok 2) (.ok ⟨some (text "lan"), none⟩)

theorem renamedFailing : ¬ ∀ (host : Host) (ops : List NetworkSwitch.Operation) (s : NetworkSwitch.Store) (now : Int)
    (draws : Draws) (request : Request) (failure : Failure),
    (NetworkSwitch.sections host).Run ⟨.initial, 0⟩ ops s →
    (NetworkSwitch.sections host).enabled s (.request now draws request) →
    (respond host now draws request s.storage).1 = .error failure →
    (respond host now draws request s.storage).2 = s.storage := by
  intro claim
  have run : (NetworkSwitch.sections leaving).Run ⟨.initial, 0⟩ benchOpening benchOpened :=
    .cons ⟨le_refl _, trivial⟩ (.cons ⟨le_refl _, trivial⟩ (.cons ⟨le_refl _, trivial⟩
      (.cons ⟨le_refl _, trivial⟩ (.cons ⟨le_refl _, trivial⟩ (.nil _)))))
  have ready : (NetworkSwitch.sections leaving).enabled benchOpened (.request 5 NetworkSwitch.benchDraws benchRename) :=
    ⟨by decide, trivial⟩
  have kept := claim leaving benchOpening benchOpened 5 NetworkSwitch.benchDraws benchRename .invalidInterface run ready
    (by decide)
  have written : ((respond leaving 5 NetworkSwitch.benchDraws benchRename benchOpened.storage).2.interface ⟨2⟩).name =
      text "lan" := by decide
  have blank : (benchOpened.storage.interface ⟨2⟩).name = [] := by decide
  rw [kept, blank] at written
  contradiction

structure Unauthenticated (request : Request) (s : SharedStorage) : Prop where
  login : ∀ params, request = .login (.ok params) → rightCredentials params = false
  token : ∀ authorization token, request.authorization? = some authorization →
    bearerToken authorization = .ok token → holds token s.sessions = false

def turnedAway (authorization : Text) : Failure := match bearerToken authorization with
  | .error failure => failure
  | .ok _ => refusal

def publicOutcome : Request → Outcome
  | .index => .ok indexReply
  | .login (.error message) => .error (.parameters message)
  | .login (.ok _) => .error (.forbidden "Invalid username or password.")
  | .auth authorization => (bearerToken authorization).map (fun _ => authReply false)
  | .logout authorization | .interfaces authorization | .interface authorization _
  | .editInterface authorization _ _ | .device authorization | .editDevice authorization _ =>
      .error (turnedAway authorization)

theorem refusedCheck {authorization : Text} {s : SharedStorage}
    (unknown : ∀ token, bearerToken authorization = .ok token → holds token s.sessions = false) :
    Refused (authenticated authorization) s (turnedAway authorization) := by
  simp only [Refused, execAuthenticated, check, turnedAway]
  cases sliced : bearerToken authorization with
  | error failure => rfl
  | ok token => simp only [unknown token sliced, Bool.false_eq_true, if_false]

theorem refusedAuth {authorization : Text} {s : SharedStorage}
    (unknown : ∀ token, bearerToken authorization = .ok token → holds token s.sessions = false) :
    Fallible.exec (getAuth authorization) s = ((bearerToken authorization).map (fun _ => authReply false), s) := by
  simp only [getAuth, Fallible.execBind, Fallible.execOfExcept]
  cases sliced : bearerToken authorization with
  | error failure => rfl
  | ok token =>
    simp only [Fallible.execGet, unknown token sliced, Bool.false_eq_true, if_false]
    rfl

theorem refusedLogout {authorization : Text} {s : SharedStorage}
    (unknown : ∀ token, bearerToken authorization = .ok token → holds token s.sessions = false) :
    Refused (postLogout authorization) s (turnedAway authorization) := by
  simp only [Refused, execLogout, turnedAway]
  cases sliced : bearerToken authorization with
  | error failure => rfl
  | ok token => simp only [unknown token sliced, Bool.false_eq_true, if_false]

theorem unauthenticatedOutcome {request : Request} {s : SharedStorage} (unknown : Unauthenticated request s)
    (host : Host) (now : Int) (draws : Draws) :
    respond host now draws request s = (publicOutcome request, s) := by
  cases request with
  | index => rfl
  | login params =>
    simp only [respond, handle, execLogin]
    cases params with
    | error message => rfl
    | ok params => simp only [unknown.login params rfl, Bool.false_eq_true, if_false, publicOutcome]
  | auth authorization => exact refusedAuth (unknown.token authorization · rfl)
  | logout authorization => exact refusedLogout (unknown.token authorization · rfl)
  | interfaces authorization => exact Fallible.refusedBind (refusedCheck (unknown.token authorization · rfl))
  | interface authorization id => exact Fallible.refusedBind (refusedCheck (unknown.token authorization · rfl))
  | editInterface authorization id config =>
    exact Fallible.refusedBind (refusedCheck (unknown.token authorization · rfl))
  | device authorization => exact Fallible.refusedBind (refusedCheck (unknown.token authorization · rfl))
  | editDevice authorization config =>
    exact Fallible.refusedBind (refusedCheck (unknown.token authorization · rfl))

theorem unauthenticatedAlike {host1 host2 : Host} {now1 now2 : Int} {draws1 draws2 : Draws} {request : Request}
    {s t : SharedStorage} (first : Unauthenticated request s) (second : Unauthenticated request t) :
    (respond host1 now1 draws1 request s).1 = (respond host2 now2 draws2 request t).1 ∧
    (respond host1 now1 draws1 request s).2 = s ∧ (respond host2 now2 draws2 request t).2 = t := by
  rw [unauthenticatedOutcome first, unauthenticatedOutcome second]
  exact ⟨rfl, rfl, rfl⟩

theorem unauthenticatedAlikeBench :
    (respond NetworkSwitch.bench 0 NetworkSwitch.benchDraws (benchEdit "xyz") benchLogged).1 =
      (respond NetworkSwitch.bench 0 NetworkSwitch.benchDraws (benchEdit "xyz") .initial).1 := by
  have header : ∀ authorization token, (benchEdit "xyz").authorization? = some authorization →
      bearerToken authorization = .ok token → token = text "xyz" := by
    rintro _ token ⟨rfl⟩ sliced
    rw [bearerHeader] at sliced
    exact (Except.ok.inj sliced).symm
  have noLogin : ∀ params, benchEdit "xyz" = .login (.ok params) → rightCredentials params = false := by
    intro params asked
    contradiction
  have logged : Unauthenticated (benchEdit "xyz") benchLogged := by
    refine ⟨noLogin, ?_⟩
    intro authorization token asked sliced
    rw [header authorization token asked sliced]
    decide
  have empty : Unauthenticated (benchEdit "xyz") .initial := ⟨noLogin, fun _ _ _ _ => rfl⟩
  exact (unauthenticatedAlike logged empty).1

def HttpError : Failure → Prop
  | .outOfRange | .invalidInterface => False
  | _ => True

def Contained (outcome : Outcome) : Prop := ∀ failure, outcome = .error failure → HttpError failure

/- `substr` at 7 is out of range for a header of six characters only: a shorter one is
not "Bearer". -/
theorem bearerHttp {authorization : Text} (other : authorization ≠ text "Bearer") {failure : Failure}
    (failed : bearerToken authorization = .error failure) : HttpError failure := by
  simp only [bearerToken] at failed
  split at failed
  · cases failed
    trivial
  · rename_i named
    have named : authorization.take 6 = text "Bearer" := by simpa using named
    have long : ¬ authorization.length < 7 := by
      intro short
      have all : authorization.take 6 = authorization := List.take_of_length_le (by omega)
      exact other (all.symm.trans named)
    simp [substr, if_neg long] at failed

theorem httpToken {authorization : Text} (other : authorization ≠ text "Bearer") :
    FailsOnly HttpError (Fallible.ofExcept (bearerToken authorization) : Handler Text) :=
  Fallible.failsOnlyOfExcept (fun _ failed => bearerHttp other failed)

theorem httpThrow {α : Type} {failure : Failure} (known : HttpError failure) :
    FailsOnly HttpError (throw failure : Handler α) := Fallible.failsOnlyThrow known

theorem httpParameters {α : Type} (params : Parsed α) : FailsOnly HttpError (parameters params) := by
  refine Fallible.failsOnlyOfExcept ?_
  intro failure failed
  cases params with
  | error message =>
    cases failed
    trivial
  | ok a => contradiction

theorem httpGet {α : Type} {body : SharedStorage → Handler α} (next : ∀ guard, FailsOnly HttpError (body guard)) :
    FailsOnly HttpError (do let guard ← get; body guard) :=
  Fallible.failsOnlyBind (Fallible.failsOnlyOfSure Fallible.sureGet) next

theorem httpReply (reply : Text) : FailsOnly HttpError (pure reply : Handler Text) :=
  Fallible.failsOnlyOfSure (Fallible.surePure _)

theorem httpWrite (f : SharedStorage → SharedStorage) {body : PUnit → Handler Text}
    (next : ∀ u, FailsOnly HttpError (body u)) : FailsOnly HttpError (do let u ← modify f; body u) :=
  Fallible.failsOnlyBind (Fallible.failsOnlyOfSure (Fallible.sureModify f)) next

theorem httpRefusal : HttpError refusal := trivial

theorem httpAuthenticated {authorization : Text} (other : authorization ≠ text "Bearer") :
    FailsOnly HttpError (authenticated authorization) := by
  refine Fallible.failsOnlyBind (httpToken other) (fun token => httpGet (fun guard => ?_))
  split
  · exact Fallible.failsOnlyOfSure (Fallible.surePure _)
  · exact httpThrow httpRefusal

theorem httpLogin (now : Int) (draws : Draws) (params : Parsed (Text × Text)) :
    FailsOnly HttpError (postLogin now draws params) := by
  refine Fallible.failsOnlyBind (httpParameters params) (fun params => ?_)
  split
  · exact httpWrite _ (fun _ => httpReply _)
  · exact httpThrow trivial

theorem httpAuth {authorization : Text} (other : authorization ≠ text "Bearer") :
    FailsOnly HttpError (getAuth authorization) := by
  refine Fallible.failsOnlyBind (httpToken other) (fun token => httpGet (fun guard => ?_))
  split <;> exact httpReply _

theorem httpLogout {authorization : Text} (other : authorization ≠ text "Bearer") :
    FailsOnly HttpError (postLogout authorization) := by
  refine Fallible.failsOnlyBind (httpToken other) (fun token => httpGet (fun guard => ?_))
  split
  · exact httpWrite _ (fun _ => httpReply _)
  · exact httpThrow httpRefusal

theorem httpDeviceEdit {authorization : Text} (other : authorization ≠ text "Bearer")
    (config : Parsed DeviceConfig) : FailsOnly HttpError (putDeviceEdit authorization config) := by
  refine Fallible.failsOnlyBind (httpAuthenticated other) (fun _ => ?_)
  refine Fallible.failsOnlyBind (httpParameters config) (fun config => ?_)
  exact httpWrite _ (fun _ => httpGet (fun guard => httpReply _))

theorem checkHttp {authorization : Text} {s : SharedStorage} (other : authorization ≠ text "Bearer") {failure : Failure}
    (failed : check authorization s = .error failure) : HttpError failure := by
  have known := httpAuthenticated other s failure
  rw [execAuthenticated] at known
  exact known failed

def asked (request : Request) (s : SharedStorage) : List Interface := match request with
  | .interfaces authorization => if Authorised authorization s then s.interfaces.keys else []
  | .interface authorization (.ok id) | .editInterface authorization (.ok id) (.ok _) =>
      if Authorised authorization s ∧ s.Registered ⟨id⟩ then [⟨id⟩] else []
  | _ => []

theorem httpInterfaces {host : Host} {now : Int} {authorization : Text} {s : SharedStorage} {failure : Failure}
    (other : authorization ≠ text "Bearer") (there : ∀ net ∈ asked (.interfaces authorization) s, host.present now net = true)
    (failed : (exec (getInterfaces host now authorization) s).1 = .error failure) : HttpError failure := by
  rw [execInterfaces, repliesSpec] at failed
  cases checked : check authorization s with
  | error e =>
    rw [checked] at failed
    cases failed
    exact checkHttp other checked
  | ok u =>
    have authorised : Authorised authorization s := checked
    rw [asked, if_pos authorised] at there
    rw [checked, if_pos (List.all_eq_true.mpr there)] at failed
    contradiction

theorem httpInterface {host : Host} {now : Int} {authorization : Text} {id : Parsed UInt32} {s : SharedStorage}
    {failure : Failure} (other : authorization ≠ text "Bearer")
    (there : ∀ net ∈ asked (.interface authorization id) s, host.present now net = true)
    (failed : (exec (getInterface host now authorization id) s).1 = .error failure) : HttpError failure := by
  rw [execInterface] at failed
  split at failed
  · rename_i checked
    cases failed
    exact checkHttp other checked
  · cases failed
    trivial
  · rename_i u id checked
    split at failed
    · rename_i it found
      obtain ⟨registered, rfl, _⟩ := byIdRegistered found
      rw [asked, if_pos ⟨checked, registered⟩] at there
      rw [replyInterface, if_pos (there it.1 List.mem_cons_self)] at failed
      contradiction
    · cases failed
      trivial

theorem httpInterfaceEdit {host : Host} {now : Int} {authorization : Text} {id : Parsed UInt32}
    {config : Parsed InterfaceConfig} {s : SharedStorage} {failure : Failure} (other : authorization ≠ text "Bearer")
    (there : ∀ net ∈ asked (.editInterface authorization id config) s, host.present now net = true)
    (failed : (exec (putInterfaceEdit host now authorization id config) s).1 = .error failure) : HttpError failure := by
  rw [execInterfaceEdit] at failed
  split at failed
  · rename_i checked
    cases failed
    exact checkHttp other checked
  · cases failed
    trivial
  · cases failed
    trivial
  · rename_i u id config checked
    split at failed
    · rename_i it found
      obtain ⟨registered, rfl, _⟩ := byIdRegistered found
      rw [asked, if_pos ⟨checked, registered⟩] at there
      rw [replyInterface, if_pos (there it.1 List.mem_cons_self)] at failed
      contradiction
    · cases failed
      trivial

theorem httpHandle (host : Host) (now : Int) (draws : Draws) {request : Request} {s : SharedStorage}
    (other : request.authorization? ≠ some (text "Bearer"))
    (there : ∀ net ∈ asked request s, host.present now net = true) : Contained (respond host now draws request s).1 := by
  have header : ∀ authorization, request.authorization? = some authorization → authorization ≠ text "Bearer" := by
    rintro authorization asked rfl
    exact other asked
  intro failure failed
  cases request with
  | index => exact httpReply _ s failure failed
  | login params => exact httpLogin now draws params s failure failed
  | auth authorization => exact httpAuth (header _ rfl) s failure failed
  | logout authorization => exact httpLogout (header _ rfl) s failure failed
  | interfaces authorization => exact httpInterfaces (header _ rfl) there failed
  | interface authorization id => exact httpInterface (header _ rfl) there failed
  | editInterface authorization id config => exact httpInterfaceEdit (header _ rfl) there failed
  | device authorization =>
    exact Fallible.failsOnlyBind (httpAuthenticated (header _ rfl)) (fun _ => httpGet (fun _ => httpReply _)) s failure failed
  | editDevice authorization config => exact httpDeviceEdit (header _ rfl) config s failure failed

theorem askedGone {host : Host} {now : Int} {draws : Draws} {request : Request} {s : SharedStorage} {net : Interface}
    (member : net ∈ asked request s) (gone : host.present now net ≠ true) :
    (respond host now draws request s).1 = .error .invalidInterface := by
  unfold asked at member
  split at member
  · split at member
    · rename_i authorization authorised
      have some : ¬ s.interfaces.keys.all (host.present now) = true :=
        fun all => gone (List.all_eq_true.mp all net member)
      simp only [respond, handle, execInterfaces, repliesSpec, if_neg some]
      rw [authorised]
      rfl
    · contradiction
  · split at member
    · rename_i id authorised
      cases List.mem_singleton.mp member
      simp only [respond, handle, execInterface]
      rw [authorised.1]
      simp only [byIdKnown authorised.2]
      exact if_neg gone
    · contradiction
  · split at member
    · rename_i id config authorised
      cases List.mem_singleton.mp member
      rw [respondEditsInterface host now draws ⟨_, rfl, authorised.1, authorised.2⟩]
      exact if_neg gone
    · contradiction
  · contradiction

/- With the bare scheme as its header no request has a token, so the storage plays no
part and the slice goes out of range on every route. -/
theorem bareScheme {request : Request} (bare : request.authorization? = some (text "Bearer"))
    (host : Host) (now : Int) (draws : Draws) (s : SharedStorage) :
    respond host now draws request s = (.error .outOfRange, s) := by
  have sliced : bearerToken (text "Bearer") = .error .outOfRange := rfl
  have unknown : Unauthenticated request s := by
    refine ⟨?_, ?_⟩
    · rintro params rfl
      contradiction
    · intro authorization token asked found
      cases Option.some.inj (bare.symm.trans asked)
      rw [sliced] at found
      contradiction
  rw [unauthenticatedOutcome unknown]
  cases request with
  | index => contradiction
  | login params => contradiction
  | auth authorization =>
    cases Option.some.inj bare
    rfl
  | _ authorization =>
    cases Option.some.inj bare
    rfl

theorem onlyHttpErrors (host : Host) (now : Int) (draws : Draws) (request : Request) (s : SharedStorage) :
    Contained (respond host now draws request s).1 ↔
      request.authorization? ≠ some (text "Bearer") ∧ ∀ net ∈ asked request s, host.present now net = true := by
  constructor
  · intro contained
    refine ⟨fun bare => ?_, fun net member => ?_⟩
    · rw [bareScheme bare] at contained
      exact contained .outOfRange rfl
    · by_contra gone
      exact contained .invalidInterface (askedGone member gone)
  · rintro ⟨other, there⟩
    exact httpHandle host now draws other there

theorem outOfRangeEscapes : ¬ ∀ (host : Host) (now : Int) (draws : Draws) (request : Request) (s : SharedStorage),
    Contained (respond host now draws request s).1 := by
  intro claim
  exact claim NetworkSwitch.bench 0 NetworkSwitch.benchDraws (.auth (text "Bearer")) .initial .outOfRange rfl

end RestErrors
end PsipSwitch
