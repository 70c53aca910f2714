import PsipSwitch.JsonTrees
import PsipSwitch.Sessions

/-! Issue, revocation and expiry over whole runs. The list of sessions balances with
the ledger of each token, it is ordered by the time of issue, and a sweep leaves no
session that had expired when it was looked at. -/
namespace PsipSwitch
namespace Sessions
open NetworkSwitch RestHandle
open Json (Parses)

def returned : Outcome → Option Text
  | .error _ => none
  | .ok reply => match Json.value 2 reply with
    | some (.object [(key, .string token)], rest) =>
      if key = text "token" ∧ Json.next rest = none then some token else none
    | _ => none

theorem returnedParses {outcome : Outcome} {token : Text} (returns : returned outcome = some token) :
    ∃ reply, outcome = .ok reply ∧ ∀ v, Parses reply v ↔ v = .object [(text "token", .string token)] := by
  cases outcome with
  | error failure => contradiction
  | ok reply =>
    simp only [returned] at returns
    split at returns
    · rename_i key carried rest reads
      split at returns
      · rename_i named
        obtain ⟨rfl, ends⟩ := named
        cases returns
        have parses : Parses reply (.object [(text "token", .string token)]) := ⟨2, rest, reads, ends⟩
        refine ⟨reply, rfl, fun v => ⟨fun again => Json.parsesUnique again parses, ?_⟩⟩
        rintro rfl
        exact parses
      · contradiction
    · contradiction

theorem tokenClean (draws : Draws) (now : Int) : Json.Clean (Session.create draws now).token := by
  have plain : ∀ result : Fin 65, Json.opening (tokenChar result.val) = some [] := by decide
  have spelled : ∀ results : List (Fin 65), Json.Clean (results.map (fun result => tokenChar result.val)) := by
    intro results
    induction results with
    | nil => rfl
    | cons result others ih =>
      simp only [Json.Clean, List.map_cons, Json.cleanFrom, plain]
      exact ih
  exact spelled _

theorem replyReturned {session : Session} (clean : Json.Clean session.token) :
    returned (.ok (loginReply session)) = some session.getToken := by
  have body : loginReply session = Json.openBrace :: Json.quote :: (text "token" ++ Json.quote :: ':' ::
      Json.quote :: (session.token ++ Json.quote :: [Json.closeBrace])) := by
    have marks : encodeJsonString session.token = Json.literal session.token := rfl
    have entries : (OrderedTable.ofList [(text "token", Json.literal session.token)] : JsonMap).entries =
      [(text "token", Json.literal session.token)] := rfl
    rw [loginReply, Replies.objectText, marks, entries]
    simp only [List.map_cons, List.map_nil, Replies.memberText, Json.closed, Json.literal,
      List.append_assoc, List.cons_append, List.nil_append]
  have key : Json.string (.text []) (text "token" ++ Json.quote :: ':' ::
      Json.quote :: (session.token ++ Json.quote :: [Json.closeBrace])) = some (text "token", ':' ::
      Json.quote :: (session.token ++ Json.quote :: [Json.closeBrace])) := Json.stringClean rfl
  have content : Json.string (.text []) (session.token ++ Json.quote :: [Json.closeBrace]) =
    some (session.token, [Json.closeBrace]) := Json.stringClean clean
  have brace : ∀ rest, Json.next (Json.openBrace :: rest) = some (Json.openBrace, rest) := fun rest => Json.nextVisible rfl
  have colon : ∀ rest, Json.next (':' :: rest) = some (':', rest) := fun rest => Json.nextVisible rfl
  have mark : ∀ rest, Json.next (Json.quote :: rest) = some (Json.quote, rest) := fun rest => Json.nextVisible rfl
  have reads : Json.value 2 (loginReply session) = some (.object [(text "token", .string session.token)], []) := by
    have literals : (Json.openBrace = Json.quote) = False ∧ (Json.openBrace = '[') = False ∧
        (Json.quote = Json.closeBrace) = False ∧ (Json.closeBrace = ',') = False := by decide
    have close : Json.next [Json.closeBrace] = some (Json.closeBrace, []) := rfl
    rw [body, Json.value, brace]
    simp [literals, Json.listed, Json.items, Json.member, Json.name, Json.value, mark, key, colon, content, close]
  simp only [returned, reads]
  rfl

theorem loginReturned (host : Host) (now : Int) (draws : Draws) {params : Text × Text}
    (right : rightCredentials params = true) (s : SharedStorage) :
    returned (respond host now draws (.login (.ok params)) s).1 = some (Session.create draws now).getToken := by
  simp only [respond, handle, execLogin, right, if_true]
  exact replyReturned (tokenClean draws now)

/- The ledger of a token since the last clear or reset. A login is entered under the token
that it returned. -/

structure Ledger where
  issued : Nat
  revoked : Nat
  deriving DecidableEq

def Ledger.blank : Ledger := ⟨0, 0⟩

def Ledger.enter (token : Text) (sessions : List Session) (answer : Option Text) : Action → Ledger → Ledger
  | .clear, _ => .blank
  | .issue _, l => if answer = some token then { l with issued := l.issued + 1 } else l
  | .revoke other, l => if other = token then { l with revoked := l.revoked + 1 } else l
  | .sweep r, l => { l with revoked := l.revoked + Sweep.removed stale r.time (carries token) 0 sessions }
  | .nothing, l => l

def answer (host : Host) (s : SharedStorage) : Operation → Option Text
  | .request now draws request => returned (respond host now draws request s).1
  | _ => none

def record (host : Host) (token : Text) (s : Store) (op : Operation) (l : Ledger) : Ledger :=
  l.enter token s.storage.sessions (answer host s.storage op) (action host s.storage op)

def ledger (host : Host) (token : Text) (s : Store) (ops : List Operation) : Ledger :=
  (sections host).observe (record host token) s ops .blank

def Balanced (token : Text) (sessions : List Session) (l : Ledger) : Prop :=
  sessions.countP (carries token) + l.revoked = l.issued

theorem holdsIff {token : Text} {sessions : List Session} :
    holds token sessions = true ↔ ∃ it ∈ sessions, it.getToken = token := by
  simp [holds]

theorem holdsCount {token : Text} {sessions : List Session} :
    holds token sessions = true ↔ 0 < sessions.countP (carries token) := by
  rw [holdsIff, List.countP_pos_iff]
  simp [carries]

theorem firstHeld {token : Text} {sessions : List Session} (held : holds token sessions = true) :
    ∃ earlier session later, sessions = earlier ++ session :: later ∧ session.getToken = token ∧
      (∀ it ∈ earlier, it.getToken ≠ token) ∧ sessions.eraseP (carries token) = earlier ++ later := by
  obtain ⟨it, member, carried⟩ := holdsIff.mp held
  obtain ⟨session, earlier, later, others, hit, found, rest⟩ :=
    List.exists_of_eraseP member (show carries token it = true by simp [carries, carried])
  refine ⟨earlier, session, later, found, by simpa [carries] using hit, ?_, rest⟩
  intro it member same
  exact others it member (by simp [carries, same])

theorem countRevoke (token : Text) {other : Text} {sessions : List Session} (held : holds other sessions = true) :
    (sessions.eraseP (carries other)).countP (carries token) + (if other = token then 1 else 0) =
      sessions.countP (carries token) := by
  obtain ⟨earlier, session, later, found, same, _, rest⟩ := firstHeld held
  rw [rest, found, List.countP_append, List.countP_append, List.countP_cons]
  by_cases here : other = token
  · have counted : carries token session = true := by simp [carries, same, here]
    simp only [here, if_true, counted]
    omega
  · have skipped : carries token session = false := by simp [carries, same, here]
    simp only [here, if_false, skipped, Bool.false_eq_true]
    omega

theorem issueAnswer {host : Host} {s : SharedStorage} {op : Operation} {session : Session}
    (issues : action host s op = .issue session) : answer host s op = some session.getToken := by
  obtain ⟨now, draws, params, rfl, right, rfl⟩ := actionIssues issues
  exact loginReturned host now draws right s

theorem enterBalanced {token : Text} {sessions : List Session} {l : Ledger} {a : Action} {answered : Option Text}
    (returns : ∀ session, a = .issue session → answered = some session.getToken)
    (held : ∀ other, a = .revoke other → holds other sessions = true) (before : Balanced token sessions l) :
    Balanced token (a.apply sessions) (l.enter token sessions answered a) := by
  unfold Balanced at before ⊢
  cases a with
  | clear => rfl
  | issue session =>
    have counts : answered = some token ↔ carries token session = true := by
      rw [returns session rfl, carries, beq_iff_eq, Option.some.injEq]
    simp only [Action.apply, Ledger.enter, List.countP_append, List.countP_singleton, counts]
    split
    · simp only
      omega
    · omega
  | revoke other =>
    have count := countRevoke token (held other rfl)
    simp only [Action.apply, Ledger.enter]
    split at count
    · rename_i here
      simp only [here, if_true] at count ⊢
      omega
    · rename_i different
      simp only [different, if_false]
      omega
  | sweep r =>
    have count := Sweep.sweepCount stale r.time (carries token) 0 sessions
    simp only [Action.apply, Ledger.enter]
    omega
  | nothing => exact before

theorem runBalanced {host : Host} (token : Text) {s t : Store} {ops : List Operation}
    (run : (sections host).Run s ops t) (empty : s.storage.sessions = []) :
    Balanced token t.storage.sessions (ledger host token s ops) := by
  refine Machine.observeInvariant (R := fun s l => Balanced token s.storage.sessions l) ?_ run ?_
  · intro s op l ready before
    change Balanced token (perform host op s.storage).sessions (record host token s op l)
    rw [performSessions ready.2]
    exact enterBalanced (fun session issues => issueAnswer issues) (fun other revokes => actionRevokes revokes) before
  · rw [empty]
    rfl

structure Dated (s : Store) : Prop where
  ordered : s.storage.sessions.Pairwise (fun a b => a.expiration.start ≤ b.expiration.start)
  past : ∀ it ∈ s.storage.sessions, it.expiration.start ≤ s.clock

theorem issueStart {op : Operation} {session : Session} (issues : Issues op session) :
    op.begins = some session.expiration.start ∧ op.ends = some session.expiration.start := by
  obtain ⟨now, draws, params, rfl, _, rfl⟩ := issues
  exact ⟨rfl, rfl⟩

theorem applyMember {a : Action} {sessions : List Session} {it : Session} (member : it ∈ a.apply sessions) :
    it ∈ sessions ∨ a = .issue it := by
  cases a with
  | clear => contradiction
  | issue session =>
    rcases List.mem_append.mp member with old | fresh
    · exact .inl old
    · cases List.mem_singleton.mp fresh
      exact .inr rfl
  | revoke token => exact .inl (List.mem_of_mem_eraseP member)
  | sweep r => exact .inl ((Sweep.sweepSublist _ _ _ _).subset member)
  | nothing => exact .inl member

theorem stepDated {host : Host} {s : Store} {op : Operation} (ready : (sections host).enabled s op)
    (before : Dated s) : Dated ((sections host).step s op) := by
  have forward := clockForward ready
  have after : ((sections host).step s op).storage.sessions = (action host s.storage op).apply s.storage.sessions :=
    performSessions ready.2
  have issued : ∀ session, action host s.storage op = .issue session →
      s.clock ≤ session.expiration.start ∧ ((sections host).step s op).clock = session.expiration.start := by
    intro session issues
    obtain ⟨begins, ends⟩ := issueStart (actionIssues issues)
    have order := ready.1
    rw [begins, Option.getD_some] at order
    refine ⟨order, ?_⟩
    change op.ends.getD s.clock = _
    rw [ends, Option.getD_some]
  refine ⟨?_, ?_⟩
  · rw [after]
    cases act : action host s.storage op with
    | clear => exact .nil
    | issue session =>
      refine List.pairwise_append.mpr ⟨before.ordered, List.pairwise_singleton _ _, ?_⟩
      intro old member fresh same
      cases List.mem_singleton.mp same
      exact (before.past old member).trans (issued _ act).1
    | revoke token => exact before.ordered.sublist List.eraseP_sublist
    | sweep r => exact before.ordered.sublist (Sweep.sweepSublist _ _ _ _)
    | nothing => exact before.ordered
  · intro it member
    rw [after] at member
    rcases applyMember member with old | issues
    · exact (before.past it old).trans forward
    · exact (issued it issues).2.ge

theorem runDated {host : Host} {s t : Store} {ops : List Operation} (run : (sections host).Run s ops t)
    (empty : s.storage.sessions = []) : Dated t := by
  refine Machine.runInvariant (fun s op ready before => stepDated ready before) run ⟨?_, ?_⟩
  · rw [empty]
    exact .nil
  · rw [empty]
    exact fun _ member => nomatch member

/- What one request does to the list: it adds at the end the session whose token it answers
with, takes the first session of a token, or leaves everything. -/
inductive Changed (now : Int) (draws : Draws) (request : Request) (outcome : Outcome) (before : List Session) :
    List Session → Prop where
  | login {params reply} (asked : request = .login (.ok params)) (right : rightCredentials params = true)
      (answered : outcome = .ok reply)
      (token : ∀ v, Parses reply v ↔ v = .object [(text "token", .string (Session.create draws now).getToken)]) :
      Changed now draws request outcome before (before ++ [.create draws now])
  | logout {authorization token session earlier later} (asked : request = .logout authorization)
      (sliced : bearerToken authorization = .ok token) (answered : outcome.isOk = true)
      (found : before = earlier ++ session :: later) (carried : session.getToken = token)
      (first : ∀ it ∈ earlier, it.getToken ≠ token)
      (oldest : ∀ it ∈ before, it.getToken = token → session.expiration.start ≤ it.expiration.start) :
      Changed now draws request outcome before (earlier ++ later)
  | kept (noLogin : ∀ params, request = .login (.ok params) → rightCredentials params = false)
      (noLogout : ∀ authorization, request = .logout authorization → outcome.isOk = false) :
      Changed now draws request outcome before before

theorem oldestFirst {s : Store} {earlier later : List Session} {session : Session} {token : Text} (dated : Dated s)
    (found : s.storage.sessions = earlier ++ session :: later) (first : ∀ it ∈ earlier, it.getToken ≠ token) :
    ∀ it ∈ s.storage.sessions, it.getToken = token → session.expiration.start ≤ it.expiration.start := by
  have ordered := dated.ordered
  rw [found] at ordered ⊢
  intro other member same
  rcases List.mem_append.mp member with before | after
  · exact absurd same (first other before)
  · rcases List.mem_cons.mp after with rfl | behind
    · exact le_refl _
    · exact (List.pairwise_cons.mp (List.pairwise_append.mp ordered).2.1).1 other behind

theorem respondChanged {host : Host} {now : Int} {draws : Draws} {request : Request} {s : Store}
    (dated : Dated s) : Changed now draws request (respond host now draws request s.storage).1
      s.storage.sessions (respond host now draws request s.storage).2.sessions := by
  rw [respondSessions]
  cases request with
  | login params =>
    cases params with
    | error message => exact .kept (by simp) (by simp)
    | ok params =>
      simp only [action]
      split
      · rename_i right
        obtain ⟨reply, answered, token⟩ := returnedParses (loginReturned host now draws right s.storage)
        exact .login rfl right answered token
      · rename_i wrong
        refine .kept ?_ (by simp)
        intro params asked
        cases asked
        simpa using wrong
  | logout authorization =>
    simp only [action]
    split
    · rename_i token sliced
      split
      · rename_i answered
        obtain ⟨earlier, session, later, found, carried, first, rest⟩ :=
          firstHeld ((logoutPasses sliced).mp answered)
        rw [Action.apply, rest]
        exact .logout rfl sliced answered found carried first (oldestFirst dated found first)
      · rename_i refused
        refine .kept (by simp) ?_
        intro authorization asked
        cases asked
        simpa using refused
    · rename_i failure sliced
      refine .kept (by simp) ?_
      intro authorization asked
      cases asked
      simp only [respond, handle, execLogout, sliced]
      rfl
  | _ => exact .kept (by simp) (by simp)

theorem sessionAuthority {host : Host} {clock : Int} {ops : List Operation} {s : Store}
    (run : (sections host).Run ⟨.initial, clock⟩ ops s) :
    (∀ token now draws request, request.authorization? = some (text "Bearer " ++ token) →
      (Passes host now draws request s.storage ↔
        (ledger host token ⟨.initial, clock⟩ ops).revoked < (ledger host token ⟨.initial, clock⟩ ops).issued)) ∧
    (∀ now draws request, Changed now draws request (respond host now draws request s.storage).1
      s.storage.sessions (respond host now draws request s.storage).2.sessions) := by
  constructor
  · intro token now draws request header
    have balanced := runBalanced token run rfl
    rw [passesIff header (bearerHeader token), holdsCount]
    unfold Balanced at balanced
    omega
  · intro now draws request
    exact respondChanged (runDated run rfl)

def benchLogin : Operation := .request 0 benchDraws (.login (.ok (text "root", text "root")))

def benchIssued : Store := (sections bench).step ⟨.initial, 0⟩ benchLogin

theorem benchIssuing : (sections bench).Run ⟨.initial, 0⟩ [benchLogin] benchIssued :=
  .cons ⟨le_refl _, trivial⟩ (.nil _)

theorem sessionAuthorityBench :
    Passes bench 5 benchDraws (.auth (text "Bearer " ++ benchToken)) benchIssued.storage := by
  have authority := (sessionAuthority benchIssuing).1 benchToken 5 benchDraws
    (.auth (text "Bearer " ++ benchToken)) rfl
  exact authority.mpr (by decide)

theorem stepOrigin {host : Host} {s : Store} {op : Operation} {it : Session}
    (ready : (sections host).enabled s op) (member : it ∈ ((sections host).step s op).storage.sessions) :
    it ∈ s.storage.sessions ∨ (Issues op it ∧ s.clock ≤ it.expiration.start) := by
  change it ∈ (perform host op s.storage).sessions at member
  rw [performSessions ready.2] at member
  rcases applyMember member with old | issues
  · exact .inl old
  · have issued := actionIssues issues
    have order := ready.1
    rw [(issueStart issued).1, Option.getD_some] at order
    exact .inr ⟨issued, order⟩

theorem runOrigin {host : Host} {s t : Store} {ops : List Operation} {it : Session}
    (run : (sections host).Run s ops t) (member : it ∈ t.storage.sessions) :
    it ∈ s.storage.sessions ∨ ((∃ op ∈ ops, Issues op it) ∧ s.clock ≤ it.expiration.start) := by
  induction run with
  | nil => exact .inl member
  | cons ready rest ih =>
    rcases ih member with old | ⟨⟨op, later, issued⟩, order⟩
    · rcases stepOrigin ready old with before | ⟨issued, order⟩
      · exact .inl before
      · exact .inr ⟨⟨_, List.mem_cons_self, issued⟩, order⟩
    · exact .inr ⟨⟨op, List.mem_cons_of_mem _ later, issued⟩, (clockForward ready).trans order⟩

/- A session that a sweep has let pass was issued after it, or had not expired at the
reading that the sweep made at its place. -/
theorem sweptSession {host : Host} {s t : Store} {before after : List Operation} {r : Sweep.Readings} {it : Session}
    (run : (sections host).Run s (before ++ .maintain (.updateSessions r) :: after) t)
    (member : it ∈ t.storage.sessions) :
    ∃ u, (sections host).Run s before u ∧ (r.last ≤ it.expiration.start ∨
      ∃ k, u.storage.sessions[k]? = some it ∧ stale it (r.time k) = false) := by
  obtain ⟨u, first, ready, rest⟩ := Machine.runAt run
  refine ⟨u, first, ?_⟩
  rcases runOrigin rest member with old | ⟨_, order⟩
  · obtain ⟨k, here, fresh⟩ := Sweep.sweepPlaced old
    rw [Nat.zero_add] at fresh
    exact .inr ⟨k, here, fresh⟩
  · exact .inl order

theorem authorisedUnswept {host : Host} {clock now : Int} {ops : List Operation} {s : Store} {draws : Draws}
    {request : Request} {authorization token : Text} (run : (sections host).Run ⟨.initial, clock⟩ ops s)
    (ready : (sections host).enabled s (.request now draws request))
    (header : request.authorization? = some authorization) (sliced : bearerToken authorization = .ok token)
    (passes : Passes host now draws request s.storage) :
    ∃ it ∈ s.storage.sessions, it.getToken = token ∧ (∃ op ∈ ops, Issues op it) ∧ it.expiration.start ≤ now ∧
      ∀ before r after, ops = before ++ .maintain (.updateSessions r) :: after →
        ∃ u, (sections host).Run ⟨.initial, clock⟩ before u ∧ (r.last ≤ it.expiration.start ∨
          ∃ k, u.storage.sessions[k]? = some it ∧
            r.time k ≤ timePlus it.expiration.start Settings.defaultSessionTimeout) := by
  obtain ⟨it, member, carried⟩ := holdsIff.mp ((passesIff header sliced).mp passes)
  rcases runOrigin run member with impossible | ⟨⟨op, inside, issued⟩, _⟩
  · contradiction
  · refine ⟨it, member, carried, ⟨op, inside, issued⟩, ?_, ?_⟩
    · exact ((runDated run rfl).past it member).trans ready.1
    · intro before r after same
      rw [same] at run
      obtain ⟨u, first, later | ⟨k, here, fresh⟩⟩ := sweptSession run member
      · exact ⟨u, first, .inl later⟩
      · obtain ⟨_, _, _, _, _, rfl⟩ := issued
        exact ⟨u, first, .inr ⟨k, here, not_lt.mp (of_decide_eq_false fresh)⟩⟩

def benchSweep : Operation := .maintain (.updateSessions (.still 10))

def benchSurvived : Store := (sections bench).step benchIssued benchSweep

theorem authorisedUnsweptBench :
    ∃ it ∈ benchSurvived.storage.sessions, it.getToken = benchToken ∧ it.expiration.start ≤ 20 := by
  have sweeping : (sections bench).enabled benchIssued benchSweep := ⟨by decide, trivial⟩
  have run : (sections bench).Run ⟨.initial, 0⟩ ([benchLogin] ++ [benchSweep]) benchSurvived :=
    Machine.runSnoc benchIssuing sweeping
  have ready : (sections bench).enabled benchSurvived
      (.request 20 benchDraws (.auth (text "Bearer " ++ benchToken))) := ⟨by decide, trivial⟩
  have passes : Passes bench 20 benchDraws (.auth (text "Bearer " ++ benchToken)) benchSurvived.storage :=
    (authPasses (bearerHeader _)).mpr (by decide)
  obtain ⟨it, member, carried, _, past, _⟩ := authorisedUnswept run ready rfl (bearerHeader benchToken) passes
  exact ⟨it, member, carried, past⟩

/- Thirty seconds and a nanosecond after the login, with no sweep in between. -/
theorem expiredAuthorised : ¬ ∀ (clock now : Int) (ops : List Operation) (s : Store) (draws : Draws)
    (request : Request) (authorization token : Text), (sections bench).Run ⟨.initial, clock⟩ ops s →
    (sections bench).enabled s (.request now draws request) → request.authorization? = some authorization →
    bearerToken authorization = .ok token → Passes bench now draws request s.storage →
    ∃ it ∈ s.storage.sessions, it.getToken = token ∧ it.expiration.expired now = false := by
  intro claim
  have ready : (sections bench).enabled benchIssued
      (.request 30000000001 benchDraws (.auth (text "Bearer " ++ benchToken))) := ⟨by decide, trivial⟩
  have passes : Passes bench 30000000001 benchDraws (.auth (text "Bearer " ++ benchToken))
      benchIssued.storage := (authPasses (bearerHeader _)).mpr (by decide)
  obtain ⟨it, member, _, fresh⟩ :=
    claim 0 30000000001 _ _ _ _ _ _ benchIssuing ready rfl (bearerHeader benchToken) passes
  have expired : ∀ it ∈ benchIssued.storage.sessions, it.expiration.expired 30000000001 = true := by decide
  rw [expired it member] at fresh
  contradiction

end Sessions
end PsipSwitch
