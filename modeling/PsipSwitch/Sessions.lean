import PsipSwitch.NetworkSwitch
import PsipSwitch.RestSteps

/-! Sessions over whole runs. Each of the seven routes that look at a token asks the
same thing, whether a session with it is in the list; the list in turn is the ledger
of the tokens issued and revoked, in the order of their issue. -/
namespace PsipSwitch
namespace Sessions
open NetworkSwitch RestHandle
open Fallible (exec FailsOnly)

/- A request passes the session check: /auth answers true, /logout succeeds, and any
other route does not answer 403. -/
def Passes (host : Host) (now : Int) (draws : Draws) (request : Request) (s : SharedStorage) : Prop :=
  match request with
  | .auth _ => (respond host now draws request s).1 = .ok (authReply true)
  | .logout _ => (respond host now draws request s).1.isOk = true
  | _ => ∀ message, (respond host now draws request s).1 ≠ .error (.forbidden message)

def NotForbidden (failure : Failure) : Prop := ∀ message, failure ≠ .forbidden message

theorem openParameters {α : Type} (params : Parsed α) : FailsOnly NotForbidden (parameters params) := by
  refine Fallible.failsOnlyOfExcept ?_
  intro failure failed message forbidden
  subst forbidden
  cases params <;> simp [Except.mapError] at failed

theorem openReply (reply : Text) : FailsOnly NotForbidden (pure reply : Handler Text) :=
  Fallible.failsOnlyOfSure (Fallible.surePure _)

theorem openInterface (host : Host) (now : Int) (net : Interface) (entry : InterfaceEntry) :
    FailsOnly NotForbidden (Fallible.ofExcept (replyInterface host now net entry) : Handler Text) := by
  refine Fallible.failsOnlyOfExcept (fun failure failed message => ?_)
  simp only [replyInterface] at failed
  split at failed
  · contradiction
  · cases failed
    simp

theorem openInterfaces (host : Host) (now : Int) (s : SharedStorage) :
    FailsOnly NotForbidden (Fallible.ofExcept (replyInterfaces host now s) : Handler (List Text)) := by
  refine Fallible.failsOnlyOfExcept (fun failure failed message => ?_)
  rw [repliesSpec] at failed
  split at failed
  · contradiction
  · cases failed
    simp

theorem openNotFound : FailsOnly NotForbidden (throw noInterface : Handler Text) :=
  Fallible.failsOnlyThrow (fun _ => by simp [noInterface])

theorem openGet {body : SharedStorage → Handler Text} (next : ∀ guard, FailsOnly NotForbidden (body guard)) :
    FailsOnly NotForbidden (do let guard ← get; body guard) :=
  Fallible.failsOnlyBind (Fallible.failsOnlyOfSure Fallible.sureGet) next

theorem openModify {body : PUnit → Handler Text} (f : SharedStorage → SharedStorage)
    (next : ∀ u, FailsOnly NotForbidden (body u)) : FailsOnly NotForbidden (do let u ← modify f; body u) :=
  Fallible.failsOnlyBind (Fallible.failsOnlyOfSure (Fallible.sureModify f)) next

theorem checkHeld {authorization token : Text} {s : SharedStorage}
    (sliced : bearerToken authorization = .ok token) :
    check authorization s = if holds token s.sessions then .ok () else .error refusal := by
  simp only [check, sliced]

theorem routePasses {authorization token : Text} {s : SharedStorage} {body : Unit → Handler Text}
    (sliced : bearerToken authorization = .ok token) (rest : ∀ u, FailsOnly NotForbidden (body u)) :
    (∀ message, (exec (authenticated authorization >>= body) s).1 ≠ .error (.forbidden message)) ↔
      holds token s.sessions = true := by
  simp only [Fallible.execBind, execAuthenticated, checkHeld sliced]
  by_cases held : holds token s.sessions = true
  · simp only [held, if_true, iff_true]
    intro message forbidden
    exact rest () s _ forbidden message rfl
  · simp only [held, Bool.false_eq_true, if_false, iff_false]
    intro never
    exact never "Invalid auth token." rfl

theorem authPasses {authorization token : Text} {s : SharedStorage}
    (sliced : bearerToken authorization = .ok token) :
    (exec (getAuth authorization) s).1 = .ok (authReply true) ↔ holds token s.sessions = true := by
  have differ : authReply false ≠ authReply true := by decide
  simp only [getAuth, Fallible.execBind, Fallible.execOfExcept, sliced, Fallible.execGet]
  by_cases held : holds token s.sessions = true
  · simp only [held, if_true, iff_true]
    rfl
  · simp only [held, Bool.false_eq_true, if_false, iff_false]
    intro same
    exact differ (Except.ok.inj same)

theorem logoutPasses {authorization token : Text} {s : SharedStorage}
    (sliced : bearerToken authorization = .ok token) :
    (exec (postLogout authorization) s).1.isOk = true ↔ holds token s.sessions = true := by
  simp only [execLogout, sliced]
  by_cases held : holds token s.sessions = true
  · simp only [held, if_true, iff_true]
    rfl
  · simp only [held, Bool.false_eq_true, if_false, iff_false]
    intro ok
    contradiction

theorem passesIff {host : Host} {now : Int} {draws : Draws} {request : Request} {s : SharedStorage}
    {authorization token : Text} (header : request.authorization? = some authorization)
    (sliced : bearerToken authorization = .ok token) :
    Passes host now draws request s ↔ holds token s.sessions = true := by
  cases request with
  | index => contradiction
  | login params => contradiction
  | auth authorization =>
    cases Option.some.inj header
    exact authPasses sliced
  | logout authorization =>
    cases Option.some.inj header
    exact logoutPasses sliced
  | interfaces authorization =>
    cases Option.some.inj header
    exact routePasses sliced (fun _ => openGet (fun guard =>
      Fallible.failsOnlyBind (openInterfaces host now guard) (fun _ => openReply _)))
  | interface authorization id =>
    cases Option.some.inj header
    refine routePasses sliced (fun _ => Fallible.failsOnlyBind (openParameters id) (fun id => openGet ?_))
    intro guard
    split
    · exact openInterface host now _ _
    · exact openNotFound
  | editInterface authorization id config =>
    cases Option.some.inj header
    refine routePasses sliced (fun _ => Fallible.failsOnlyBind (openParameters id) (fun id => ?_))
    refine Fallible.failsOnlyBind (openParameters config) (fun config => openGet ?_)
    intro guard
    split
    · exact openModify _ (fun _ => openInterface host now _ _)
    · exact openNotFound
  | device authorization =>
    cases Option.some.inj header
    exact routePasses sliced (fun _ => openGet (fun guard => openReply _))
  | editDevice authorization config =>
    cases Option.some.inj header
    refine routePasses sliced (fun _ => Fallible.failsOnlyBind (openParameters config) (fun config => ?_))
    exact openModify _ (fun _ => openGet (fun guard => openReply _))

inductive Action where
  | clear
  | issue (session : Session)
  | revoke (token : Text)
  | sweep (r : Sweep.Readings)
  | nothing

def carries (token : Text) (session : Session) : Bool := session.getToken == token

def stale (session : Session) (now : Int) : Bool := session.expiration.expired now

def Action.apply : Action → List Session → List Session
  | .clear, _ => []
  | .issue session, sessions => sessions ++ [session]
  | .revoke token, sessions => sessions.eraseP (carries token)
  | .sweep r, sessions => Sweep.sweep stale r.time 0 sessions
  | .nothing, sessions => sessions

def action (host : Host) (s : SharedStorage) : Operation → Action
  | .reset | .maintain .clearSessions => .clear
  | .maintain (.updateSessions r) => .sweep r
  | .request now draws (.login (.ok params)) =>
      if rightCredentials params then .issue (.create draws now) else .nothing
  | .request now draws (.logout authorization) => match bearerToken authorization with
      | .ok token => if (respond host now draws (.logout authorization) s).1.isOk then .revoke token else .nothing
      | .error _ => .nothing
  | _ => .nothing

theorem keptBySilent {host : Host} {now : Int} {draws : Draws} {request : Request} {s : SharedStorage}
    (silent : Fallible.Silent (handle host now draws request)) :
    (respond host now draws request s).2.sessions = s.sessions := congrArg SharedStorage.sessions (silent s)

theorem respondSessions (host : Host) (now : Int) (draws : Draws) (request : Request) (s : SharedStorage) :
    (respond host now draws request s).2.sessions = (action host s (.request now draws request)).apply s.sessions := by
  cases request with
  | index => rfl
  | login params =>
    cases params with
    | error message => rfl
    | ok params =>
      simp only [respond, handle, execLogin, action]
      split <;> rfl
  | auth authorization => exact keptBySilent (silentAuth authorization)
  | logout authorization =>
    simp only [respond, handle, execLogout, action]
    cases bearerToken authorization with
    | error failure => rfl
    | ok token =>
      by_cases held : holds token s.sessions = true
      · simp only [held, if_true]
        rfl
      · simp only [held, Bool.false_eq_true, if_false]
        rfl
  | interfaces authorization => exact keptBySilent (silentInterfaces host now authorization)
  | interface authorization id => exact keptBySilent (silentInterface host now authorization id)
  | editInterface authorization id config =>
    simp only [respond, handle, execInterfaceEdit]
    split
    · rfl
    · rfl
    · rfl
    · split <;> rfl
  | device authorization => exact keptBySilent (silentDevice authorization)
  | editDevice authorization config =>
    simp only [respond, handle, execDeviceEdit]
    split <;> rfl

theorem performSessions {host : Host} {s : SharedStorage} {op : Operation} (ready : admitted s op) :
    (perform host op s).sessions = (action host s op).apply s.sessions := by
  cases op with
  | receive me now packet =>
    obtain ⟨_, _, _, same⟩ := NetworkHandle.receiveFrame host now packet ready
    simp only [perform, same]
    rfl
  | request now draws request => exact respondSessions host now draws request s
  | maintain m => cases m <;> rfl
  | _ => rfl

def Issues (op : Operation) (session : Session) : Prop :=
  ∃ now draws params, op = .request now draws (.login (.ok params)) ∧ rightCredentials params = true ∧
    session = .create draws now

/- Where an action comes from: sessions are issued by correct logins, and revoked by a
logout with a token that is in the list. -/
inductive Acted (s : SharedStorage) : Operation → Action → Prop where
  | clear {op} : Acted s op .clear
  | issue {op session} (issues : Issues op session) : Acted s op (.issue session)
  | revoke {op token} (held : holds token s.sessions = true) : Acted s op (.revoke token)
  | sweep {op r} : Acted s op (.sweep r)
  | nothing {op} : Acted s op .nothing

theorem actionSpec (host : Host) (s : SharedStorage) (op : Operation) : Acted s op (action host s op) := by
  cases op with
  | reset => exact .clear
  | request now draws request =>
    cases request with
    | login params =>
      cases params with
      | error message => exact .nothing
      | ok params =>
        simp only [action]
        split
        · rename_i right
          exact .issue ⟨now, draws, params, rfl, right, rfl⟩
        · exact .nothing
    | logout authorization =>
      simp only [action]
      split
      · rename_i sliced
        split
        · rename_i answered
          exact .revoke ((logoutPasses sliced).mp answered)
        · exact .nothing
      · exact .nothing
    | _ => exact .nothing
  | maintain m =>
    cases m with
    | clearSessions => exact .clear
    | updateSessions r => exact .sweep
    | _ => exact .nothing
  | _ => exact .nothing

theorem actionIssues {host : Host} {s : SharedStorage} {op : Operation} {session : Session}
    (issues : action host s op = .issue session) : Issues op session := by
  have acted := actionSpec host s op
  rw [issues] at acted
  cases acted with
  | issue issued => exact issued

theorem actionRevokes {host : Host} {s : SharedStorage} {op : Operation} {token : Text}
    (revokes : action host s op = .revoke token) : holds token s.sessions = true := by
  have acted := actionSpec host s op
  rw [revokes] at acted
  cases acted with
  | revoke held => exact held

end Sessions
end PsipSwitch
