import RagEval.Api.Routes
import RagEval.Lib.Simulation

/-!
# Who is let through

Clients of the two routers know no tokens but those the service has issued: a token of theirs that
decodes came out of a login or of a refresh. What a route admits is then told from the history of
the service, and so is where its first authority comes from.

## Main definitions

- `Origin`, `Issue` — issued tokens and the permissions that stand behind them
- `Session`, `ClientStep` — a running service with what it has issued, and a request of a client
  that forges no token

## Main results

- `http_run_authorized` — what changes the user store presents a token with `admin:write`
- `admitted_iff` — a guarded route admits exactly the access tokens whose origin has the permission
- `root_of_trust` — before a login as the administrator of the environment nothing is ever
  admitted, created or issued
-/

namespace RagEval.Api
open RagEval.Lib RagEval.Core RagEval.Security

/-! ## What a guard lets through -/

section
variable {τ : Type} {dep : Deployment τ} {texts : Texts}

/-- A guard asks for one permission. -/
theorem callBearer_requirePermissions (user : BearerUser) (permission : String) :
    (requirePermissions [permission] true).callBearer user =
      (Except.mapError .python (user.hasPermission permission) >>= fun held =>
        if held then .ok user else .error (.http 403 "Insufficient permissions" [])) := by
  have hone : [permission].allM user.hasPermission = user.hasPermission permission := by
    rw [List.allM]
    cases user.hasPermission permission with
    | error exc => rfl
    | ok held => cases held <;> rfl
  simp only [PermissionChecker.callBearer, requirePermissions, if_true, hone]

theorem BearerUser.admit_ok_iff {user : BearerUser} {permission : String} :
    (∃ admitted, (requirePermissions [permission] true).callBearer user = .ok admitted) ↔
      user.hasPermission permission = .ok true := by
  rw [callBearer_requirePermissions]
  cases user.hasPermission permission with
  | error exc => simp [Except.mapError, bind, Except.bind]
  | ok held => cases held <;> simp [Except.mapError, bind, Except.bind]

/-- A guarded route admits the bearers of tokens that decode to the permission. -/
theorem HttpRequest.authorize_ok_iff {request : HttpRequest τ} {permission : String}
    (h : request.route.required = some permission) :
    request.authorize dep = .ok () ↔
      ∃ token claims, request.credentials = some token ∧
        decodeToken dep.jwt dep.settings token request.now = .ok claims ∧
        (BearerUser.ofPayload claims).hasPermission permission = .ok true := by
  simp only [HttpRequest.authorize, h]
  constructor
  · intro hauth
    obtain ⟨user, huser, hauth⟩ := bind_ok hauth
    obtain ⟨admitted, hadmitted, -⟩ := bind_ok hauth
    cases hcred : request.credentials with
    | none =>
      rw [HttpRequest.user, hcred] at huser
      cases huser
    | some token =>
      rw [HttpRequest.user, hcred] at huser
      obtain ⟨claims, hclaims, rfl⟩ := getCurrentUser_ok huser
      exact ⟨token, claims, rfl, hclaims, BearerUser.admit_ok_iff.mp ⟨admitted, hadmitted⟩⟩
  · rintro ⟨token, claims, hcred, hclaims, hheld⟩
    obtain ⟨admitted, hadmitted⟩ := BearerUser.admit_ok_iff.mpr hheld
    rw [HttpRequest.user, hcred, getCurrentUser_of_decode hclaims, ok_bind, hadmitted]
    rfl

/-- The calls that need no permission. -/
def Call.Public : Call τ → Prop
  | .login .. => True
  | .refreshToken .. => True
  | _ => False

theorem HttpRequest.required_of_operation {request : HttpRequest τ} {call : Call τ}
    (h : request.operation = some call) (hpublic : ¬call.Public) :
    request.route.required = some "admin:write" := by
  obtain ⟨credentials, now, route⟩ := request
  cases route <;> simp only [HttpRequest.operation, Option.some.injEq, reduceCtorEq] at h <;>
    subst h <;> first | rfl | exact absurd trivial hpublic

theorem HttpRequest.route_of_operation {request : HttpRequest τ} {body : RefreshRequest τ}
    {now : Nat} (h : request.operation = some (.refreshToken body now)) :
    request.route = .refreshToken body := by
  obtain ⟨credentials, moment, route⟩ := request
  cases route <;> simp only [HttpRequest.operation, Option.some.injEq, reduceCtorEq,
    Call.refreshToken.injEq] at h
  rw [h.1]

theorem Step.state_of_public {s s' : State} {e : Event τ} (h : Step dep s e s')
    (hpublic : e.call.Public) : s' = s := by
  cases h.effect with
  | rejected call exc => rfl
  | created => exact hpublic.elim
  | updated => exact hpublic.elim
  | deleted => exact hpublic.elim
  | reset => exact hpublic.elim
  | loggedIn => rfl
  | refreshed => rfl

/-- The request bears a token that decodes, at the moment of the request, to the permission. -/
def HttpRequest.Holds (dep : Deployment τ) (request : HttpRequest τ) (permission : String) : Prop :=
  ∃ token claims, request.credentials = some token ∧
    decodeToken dep.jwt dep.settings token request.now = .ok claims ∧
    (BearerUser.ofPayload claims).hasPermission permission = .ok true

/-- **Changes of the user store**: a run of requests leads where the operations lead that got
through, and if that is another store, one of the requests held `admin:write`. -/
theorem http_run_authorized {events : List (HttpEvent τ)} {s s' : State}
    (h : Run (HttpStep dep texts) s events s') :
    Run (Step dep) s (events.filterMap (HttpEvent.operation dep)) s' ∧
      (s' ≠ s → ∃ e ∈ events, e.request.Holds dep "admin:write") := by
  refine ⟨http_run h, fun hne => ?_⟩
  by_contra hnone
  have hkeep : ∀ e ∈ events, ¬e.request.Holds dep "admin:write" :=
    fun e he hholds => hnone ⟨e, he, hholds⟩
  refine hne (h.invariant_of_labels (I := fun t => t = s) ?_ hkeep rfl)
  intro t e t' hholds ht hstep
  cases hstep.served with
  | refused exc hrefused hreply hnone => exact ht
  | read hadmitted hnone => exact ht
  | operation call reply _ hadmitted hcall hsome hstep =>
    by_cases hpublic : call.Public
    · exact (hstep.state_of_public hpublic).trans ht
    · have hrequired := HttpRequest.required_of_operation hcall hpublic
      exact absurd ((HttpRequest.authorize_ok_iff hrequired).mp hadmitted) hholds

open Demo in
/-- The administrator of the environment logs in and creates Alice. -/
theorem http_run_authorized_alice :
    aliceState ≠ State.init ∧
      Run (Step deployment) State.init
        ([adminLogin, adminCreatesAlice].filterMap (HttpEvent.operation deployment)) aliceState ∧
      ∃ e ∈ [adminLogin, adminCreatesAlice], e.request.Holds deployment "admin:write" := by
  have hrun : Run (HttpStep deployment texts) State.init [adminLogin, adminCreatesAlice] aliceState :=
    .cons adminLogin_step (.single adminCreatesAlice_step)
  have hne : aliceState ≠ State.init := by
    intro h
    have hcreated : aliceState.created = [] := congrArg State.created h
    cases hcreated
  exact ⟨hne, (http_run_authorized hrun).1, (http_run_authorized hrun).2 hne⟩

end

/-! ## Issued tokens -/

/-- What stands behind issued tokens. -/
inductive Origin where
  | envAdmin
  | stored (user : User)
  | refreshed

/-- The permissions of an origin; a refresh grants those of the administrator. -/
def Origin.permissions : Origin → List String
  | .envAdmin => adminPermissions
  | .stored user => user.permissions
  | .refreshed => adminPermissions

def Origin.grants (origin : Origin) (permission : String) : Bool :=
  (CurrentUser.init none none (some origin.permissions) none).hasPermission permission

structure Issue (τ : Type) where
  origin : Origin
  response : TokenResponse τ

section
variable {τ : Type} (dep : Deployment τ) (texts : Texts)

/-- What an operation issues, with the user that a login found. -/
def Event.issue (s : State) (e : Event τ) : Option (Issue τ) :=
  match e.call, e.reply with
  | .login request _, .ok (.tokens response) =>
    if isEnvAdmin dep.settings request.username request.password then some ⟨.envAdmin, response⟩
    else (findUser dep.sha256 s.users request.username request.password).map fun user =>
      ⟨.stored user, response⟩
  | .refreshToken _ _, .ok (.tokens response) => some ⟨.refreshed, response⟩
  | _, _ => none

/-- The service and what it has issued, latest first. -/
structure Session (τ : Type) where
  state : State
  issues : List (Issue τ)

def Session.init : Session τ := ⟨State.init, []⟩

def Decodes (token : τ) : Prop :=
  ∃ now claims, decodeToken dep.jwt dep.settings token now = .ok claims

def Issue.Contains (i : Issue τ) (token : τ) : Prop :=
  token = i.response.accessToken ∨ token = i.response.refreshToken

/-- The tokens that a request presents as its own. -/
def HttpRequest.Presents (request : HttpRequest τ) (token : τ) : Prop :=
  request.credentials = some token ∨ request.route = .refreshToken ⟨token⟩

/-- Every token the request presents was issued, or does not decode at all. -/
def Unforged (issues : List (Issue τ)) (request : HttpRequest τ) : Prop :=
  ∀ token, request.Presents token → Decodes dep token → ∃ i ∈ issues, i.Contains token

/-- A request of a client that forges no token. -/
structure ClientStep (s : Session τ) (e : HttpEvent τ) (s' : Session τ) : Prop where
  served : HttpStep dep texts s.state e s'.state
  unforged : Unforged dep s.issues e.request
  issues : s'.issues = ((e.operation dep).bind (Event.issue dep s.state)).toList ++ s.issues

/-- The request logs in with the credentials of the environment. -/
def HttpEvent.AdminLogin (e : HttpEvent τ) : Prop :=
  ∃ request now response, e.operation dep = some ⟨.login request now, .ok (.tokens response)⟩ ∧
    isEnvAdmin dep.settings request.username request.password = true

/-- The tokens were issued with the permissions of their origin. -/
def Issue.Sound (i : Issue τ) : Prop :=
  ∃ userId email now, issueTokens dep.jwt dep.settings userId
    (userClaims email i.origin.permissions) now = .ok i.response

end

section
variable {τ : Type} {dep : Deployment τ} {texts : Texts}

theorem Event.issue_sound {s s' : State} {e : Event τ} {i : Issue τ} (hstep : Step dep s e s')
    (hi : e.issue dep s = some i) : i.Sound dep := by
  cases hstep.effect with
  | rejected call exc => cases call <;> cases hi
  | created => cases hi
  | updated => cases hi
  | deleted => cases hi
  | reset => cases hi
  | loggedIn request now response hlogin =>
    obtain ⟨data, userId, hdata, -, hissued⟩ := login_ok hlogin
    rw [authenticateUser] at hdata
    simp only [Event.issue] at hi
    split_ifs at hdata hi with hadmin
    · obtain rfl := Option.some.inj hdata
      obtain rfl := Option.some.inj hi
      exact ⟨userId, _, now, hissued⟩
    · obtain ⟨user, huser, rfl⟩ := Option.map_eq_some_iff.mp hdata
      rw [huser, Option.map_some] at hi
      obtain rfl := Option.some.inj hi
      exact ⟨userId, _, now, hissued⟩
  | refreshed request now response hrefresh =>
    obtain ⟨userId, -, hissued⟩ := refreshToken_ok hrefresh
    obtain rfl := Option.some.inj hi
    exact ⟨userId, _, now, hissued⟩

theorem ClientStep.sound {s s' : Session τ} {e : HttpEvent τ}
    (hs : ∀ i ∈ s.issues, i.Sound dep) (h : ClientStep dep texts s e s') :
    ∀ i ∈ s'.issues, i.Sound dep := by
  obtain ⟨state, issues⟩ := s
  obtain ⟨state', issues'⟩ := s'
  rw [h.issues, List.forall_mem_append]
  refine ⟨fun i hi => ?_, hs⟩
  rw [Option.mem_toList] at hi
  obtain ⟨op, hop, hissue⟩ := Option.bind_eq_some_iff.mp hi
  cases h.served.served with
  | refused exc hrefused hreply hnone =>
    rw [hnone] at hop
    cases hop
  | read hadmitted hnone =>
    rw [hnone] at hop
    cases hop
  | operation call reply _ hadmitted hcall hsome hstep =>
    rw [hsome] at hop
    obtain rfl := Option.some.inj hop
    exact Event.issue_sound hstep hissue

/-- What an issued access token holds is what its origin grants. -/
theorem Issue.Sound.access {i : Issue τ} (h : i.Sound dep) (hjwt : RoundTrips dep.jwt dep.settings)
    {now : Nat} {claims : Dict String Value}
    (hd : decodeToken dep.jwt dep.settings i.response.accessToken now = .ok claims)
    (permission : String) :
    (BearerUser.ofPayload claims).hasPermission permission = .ok (i.origin.grants permission) := by
  obtain ⟨userId, email, issued, hissued⟩ := h
  have hclaims := (issueTokens_claims hjwt hissued hd).2
  have hpermissions :
      (BearerUser.ofPayload claims).permissions = .list (i.origin.permissions.map .str) := by
    simp only [BearerUser.ofPayload, Dict.getD, hclaims, Option.getD_some]
    cases i.origin.permissions <;> rfl
  rw [BearerUser.hasPermission, hpermissions]
  exact grants_strings permission _

/-- An issued refresh token holds no permission. -/
theorem Issue.Sound.refresh {i : Issue τ} (h : i.Sound dep)
    (hjwt : RoundTrips dep.jwt dep.settings) {now : Nat} {claims : Dict String Value}
    (hd : decodeToken dep.jwt dep.settings i.response.refreshToken now = .ok claims)
    (permission : String) : (BearerUser.ofPayload claims).hasPermission permission = .ok false := by
  obtain ⟨userId, email, issued, hissued⟩ := h
  have hclaims : claims.get? "permissions" = none :=
    decodeToken_createRefreshToken hjwt (issueTokens_ok hissued).2 hd "permissions"
  have hpermissions : (BearerUser.ofPayload claims).permissions = .list [] := by
    simp only [BearerUser.ofPayload, Dict.getD, hclaims]
    rfl
  rw [BearerUser.hasPermission, hpermissions]
  rfl

/-- Over sound issues a guard admits the access tokens whose origin has the permission. -/
theorem HttpRequest.authorize_ok_iff_issued (hjwt : RoundTrips dep.jwt dep.settings)
    {issues : List (Issue τ)} (hsound : ∀ i ∈ issues, i.Sound dep) {request : HttpRequest τ}
    (hunforged : Unforged dep issues request) {permission : String}
    (hrequired : request.route.required = some permission) :
    request.authorize dep = .ok () ↔
      ∃ i ∈ issues, request.credentials = some i.response.accessToken ∧
        (∃ claims, decodeToken dep.jwt dep.settings i.response.accessToken request.now =
          .ok claims) ∧ i.origin.grants permission = true := by
  rw [HttpRequest.authorize_ok_iff hrequired]
  constructor
  · rintro ⟨token, claims, hcred, hclaims, hheld⟩
    obtain ⟨i, hi, rfl | rfl⟩ := hunforged token (.inl hcred) ⟨request.now, claims, hclaims⟩
    · rw [(hsound i hi).access hjwt hclaims, Except.ok.injEq] at hheld
      exact ⟨i, hi, hcred, ⟨claims, hclaims⟩, hheld⟩
    · rw [(hsound i hi).refresh hjwt hclaims] at hheld
      cases hheld
  · rintro ⟨i, hi, hcred, ⟨claims, hclaims⟩, hgrants⟩
    exact ⟨_, claims, hcred, hclaims, by rw [(hsound i hi).access hjwt hclaims, hgrants]⟩

theorem ClientStep.sound_of_run {events : List (HttpEvent τ)} {s : Session τ}
    (h : Run (ClientStep dep texts) Session.init events s) : ∀ i ∈ s.issues, i.Sound dep :=
  h.invariant (fun hs hstep => hstep.sound hs) (List.forall_mem_nil _)

/-- **Who is admitted.** After every run of clients that forge no token, a guarded route admits a
request exactly if it bears an access token that the service issued, that still decodes, and whose
origin grants the permission. -/
theorem admitted_iff (hjwt : RoundTrips dep.jwt dep.settings) {events : List (HttpEvent τ)}
    {s : Session τ} (h : Run (ClientStep dep texts) Session.init events s) {request : HttpRequest τ}
    (hunforged : Unforged dep s.issues request) {permission : String}
    (hrequired : request.route.required = some permission) :
    request.authorize dep = .ok () ↔
      ∃ i ∈ s.issues, request.credentials = some i.response.accessToken ∧
        (∃ claims, decodeToken dep.jwt dep.settings i.response.accessToken request.now =
          .ok claims) ∧ i.origin.grants permission = true := by
  have hsound : ∀ i ∈ s.issues, i.Sound dep := ClientStep.sound_of_run h
  exact HttpRequest.authorize_ok_iff_issued hjwt hsound hunforged hrequired

namespace Demo

theorem adminLogin_clientStep : ClientStep deployment Demo.texts Session.init adminLogin
    ⟨State.init, [⟨.envAdmin, adminTokens⟩]⟩ := by
  refine ⟨adminLogin_step, fun token hpresents => ?_, rfl⟩
  rcases hpresents with hcred | hroute
  · cases hcred
  · cases hroute

theorem unforged_adminCreatesAlice :
    Unforged deployment [⟨.envAdmin, adminTokens⟩] adminCreatesAlice.request := by
  rintro token (hcred | hroute) -
  · exact ⟨_, List.mem_singleton_self _, .inl (Option.some.inj hcred).symm⟩
  · cases hroute

end Demo

open Demo in
/-- The token of the administrator's login is let through to create Alice. -/
theorem admitted_adminCreatesAlice :
    Run (ClientStep deployment Demo.texts) Session.init [adminLogin]
        ⟨State.init, [⟨.envAdmin, adminTokens⟩]⟩ ∧
      adminCreatesAlice.request.authorize deployment = .ok () := by
  have hrun := Run.single adminLogin_clientStep
  refine ⟨hrun, (admitted_iff roundTrips hrun unforged_adminCreatesAlice rfl).mpr ?_⟩
  exact ⟨_, List.mem_singleton_self _, rfl, ⟨_, rfl⟩, by decide⟩

/-! ## The first authority -/

/-- With nothing issued a guarded route refuses everybody. -/
theorem authorize_of_nil {request : HttpRequest τ} {permission : String}
    (hunforged : Unforged dep [] request) (hrequired : request.route.required = some permission) :
    ∃ detail, request.authorize dep = .error (unauthorized detail) := by
  simp only [HttpRequest.authorize, hrequired, HttpRequest.user]
  cases hcred : request.credentials with
  | none => exact ⟨_, rfl⟩
  | some token =>
    cases hdecode : decodeToken dep.jwt dep.settings token request.now with
    | error exc =>
      refine ⟨"Invalid authentication token", ?_⟩
      simp only [getCurrentUser, validateToken, hdecode]
      rfl
    | ok claims =>
      obtain ⟨i, hi, -⟩ := hunforged token (.inl hcred) ⟨request.now, claims, hdecode⟩
      exact absurd hi List.not_mem_nil

/-- From the empty service an operation that needs no permission fails, unless it logs in the
administrator of the environment. -/
theorem Step.error_of_public {s' : State} {e : Event τ} (h : Step dep State.init e s')
    (hlogin : ∀ request now response, e = ⟨.login request now, .ok (.tokens response)⟩ →
      isEnvAdmin dep.settings request.username request.password ≠ true)
    (hrefresh : ∀ request now, e.call = .refreshToken request now →
      ¬Decodes dep request.refreshToken) (hpublic : e.call.Public) :
    ∃ exc, e.reply = .error exc := by
  cases h.effect with
  | rejected call exc => exact ⟨exc, rfl⟩
  | created => exact hpublic.elim
  | updated => exact hpublic.elim
  | deleted => exact hpublic.elim
  | reset => exact hpublic.elim
  | loggedIn request now response hok =>
    have hadmin := hlogin request now response rfl
    obtain ⟨data, userId, hdata, -⟩ := login_ok hok
    rw [authenticateUser, if_neg hadmin] at hdata
    cases hdata
  | refreshed request now response hok =>
    obtain ⟨userId, hverify, -⟩ := refreshToken_ok hok
    obtain ⟨claims, sub, hdecode, -⟩ := verifyToken_ok_iff.mp hverify
    exact absurd ⟨now, claims, hdecode⟩ (hrefresh request now rfl)

theorem ClientStep.init_of_not_adminLogin {s' : Session τ} {e : HttpEvent τ}
    (h : ClientStep dep texts Session.init e s') (hlogin : ¬e.AdminLogin dep) :
    s' = Session.init ∧ ∀ permission, e.request.route.required = some permission →
      ∃ detail, e.reply = .error (unauthorized detail) := by
  obtain ⟨state, issues⟩ := s'
  have hissues : issues = ((e.operation dep).bind (Event.issue dep State.init)).toList ++ [] :=
    h.issues
  cases h.served.served with
  | refused exc hrefused hreply hnone =>
    rw [hnone] at hissues
    refine ⟨congrArg (Session.mk State.init) hissues, fun permission hrequired => ?_⟩
    obtain ⟨detail, hdetail⟩ := authorize_of_nil h.unforged hrequired
    rw [hrefused] at hdetail
    exact ⟨detail, hreply.trans (congrArg _ (Except.error.inj hdetail))⟩
  | read hadmitted hnone =>
    rw [hnone] at hissues
    refine ⟨congrArg (Session.mk State.init) hissues, fun permission hrequired => ?_⟩
    obtain ⟨detail, hdetail⟩ := authorize_of_nil h.unforged hrequired
    rw [hadmitted] at hdetail
    cases hdetail
  | operation call reply _ hadmitted hcall hsome hstep =>
    have hguard : ∀ permission, e.request.route.required ≠ some permission := by
      intro permission hrequired
      obtain ⟨detail, hdetail⟩ := authorize_of_nil h.unforged hrequired
      rw [hadmitted] at hdetail
      cases hdetail
    have hpublic : call.Public := by
      by_contra hpublic
      exact hguard _ (HttpRequest.required_of_operation hcall hpublic)
    have hrefresh : ∀ request now, call = .refreshToken request now →
        ¬Decodes dep request.refreshToken := by
      -- a refresh token that decodes was issued, but nothing was
      rintro request now rfl hdecodes
      obtain ⟨i, hi, -⟩ := h.unforged request.refreshToken
        (.inr (HttpRequest.route_of_operation hcall)) hdecodes
      exact absurd hi List.not_mem_nil
    obtain ⟨exc, rfl⟩ : ∃ exc, reply = .error exc := by
      refine hstep.error_of_public (fun request now response heq hadmin => ?_) hrefresh hpublic
      exact hlogin ⟨request, now, response, hsome.trans (congrArg some heq), hadmin⟩
    have hnone : Event.issue dep State.init ⟨call, .error exc⟩ = none := by
      cases call <;> rfl
    rw [hsome, Option.bind_some, hnone] at hissues
    refine ⟨?_, fun permission hrequired => absurd hrequired (hguard permission)⟩
    rw [hissues, show state = State.init from hstep.state_of_public hpublic]
    rfl

/-- **The root of all authority.** In every run of clients that forge no token, as long as nobody
logs in with the credentials of the environment, the user store stays empty, no token is issued,
and every guarded route answers 401. -/
theorem root_of_trust {events : List (HttpEvent τ)} {s : Session τ}
    (h : Run (ClientStep dep texts) Session.init events s)
    (hlogin : ∀ e ∈ events, ¬e.AdminLogin dep) :
    s = Session.init ∧ ∀ e ∈ events, ∀ permission, e.request.route.required = some permission →
      ∃ detail, e.reply = .error (unauthorized detail) := by
  have hrun := h.with_labels hlogin
  have hstep : ∀ {s : Session τ} {e : HttpEvent τ} {s' : Session τ}, s = Session.init →
      ClientStep dep texts s e s' ∧ ¬e.AdminLogin dep →
      (∀ permission, e.request.route.required = some permission →
        ∃ detail, e.reply = .error (unauthorized detail)) ∧ s' = Session.init := by
    rintro s e s' rfl ⟨hstep, hnot⟩
    exact (hstep.init_of_not_adminLogin hnot).symm
  refine ⟨hrun.invariant (I := fun t => t = Session.init) (fun hs h => (hstep hs h).2) rfl, fun e he => ?_⟩
  exact hrun.forall_labels (I := fun t => t = Session.init)
    (P := fun e => ∀ permission, e.request.route.required = some permission →
      ∃ detail, e.reply = .error (unauthorized detail)) hstep rfl e he

open Demo in
/-- A guessed password and a request without a token get nowhere. -/
theorem root_of_trust_strangers :
    Run (ClientStep deployment Demo.texts) Session.init [wrongPassword, strangerListsUsers]
        Session.init ∧
      ∃ detail, strangerListsUsers.reply = .error (unauthorized detail) := by
  have hpresents : ∀ e ∈ [wrongPassword, strangerListsUsers], ∀ token,
      ¬e.request.Presents token := by
    simp [HttpRequest.Presents, wrongPassword, strangerListsUsers]
  have hrun : Run (ClientStep deployment Demo.texts) Session.init [wrongPassword, strangerListsUsers]
      Session.init := by
    refine .cons ⟨rfl, fun token hp => ?_, rfl⟩ (.single ⟨rfl, fun token hp => ?_, rfl⟩)
    · exact absurd hp (hpresents _ (List.mem_cons_self ..) token)
    · exact absurd hp (hpresents _ (List.mem_cons_of_mem _ (List.mem_singleton_self _)) token)
  have hlogin : ∀ e ∈ [wrongPassword, strangerListsUsers], ¬e.AdminLogin deployment := by
    rw [List.forall_mem_cons, List.forall_mem_singleton]
    constructor
    · rintro ⟨_, _, _, hoperation, -⟩
      cases hoperation
    · rintro ⟨_, _, _, hoperation, -⟩
      cases hoperation
  exact ⟨hrun, (root_of_trust hrun hlogin).2 strangerListsUsers
    (List.mem_cons_of_mem _ (List.mem_singleton_self _)) "admin:read" rfl⟩

end

end RagEval.Api
