import RagEval.Api.Authority
import RagEval.Api.Service

/-!
# No internal errors

Nothing guards the routes against what the claims of a token may hold, what the user store may
have for an id or what the clock may say; an exception of the interpreter is answered with 500.
To clients that forge no token this does not happen as long as the lifetimes of tokens end before
the last representable date.

## Main definitions

- `Expected`, `Answerable` — the exceptions that a route raises for its clients, and those that it
  raises behind its guard
- `HttpRequest.Verified` — a request with a token that decodes
- `Representable` — both lifetimes fit behind a moment
- `BearerUser.Typed` — a user whose claims have the types that responses need

## Main result

- `replies_expected` — every reply of every run is a result or an expected exception
-/

namespace RagEval.Api
open RagEval.Lib RagEval.Lib.Outcome RagEval.Core RagEval.Security

/-- The HTTP exceptions of the two routers and of their dependencies. -/
def Expected (exc : Raised) : Prop :=
  ∃ statusCode detail headers, exc = .http statusCode detail headers ∧
    statusCode ∈ [400, 401, 403, 404, 409]

/-- Those that a guarded route raises once its guard has let the request through. -/
def Answerable (exc : Raised) : Prop :=
  ∃ statusCode detail headers, exc = .http statusCode detail headers ∧ statusCode ∈ [400, 404, 409]

/-- The tokens issued at a moment expire at dates that exist. -/
def Representable (settings : Settings) (now : Nat) : Prop :=
  now + settings.jwtAccessTokenExpireMinutes * 60 * 1000000 ≤ maxDatetime ∧
    now + settings.jwtRefreshTokenExpireDays * 24 * 60 * 60 * 1000000 ≤ maxDatetime

/-- The claims of a user have the types that permission checks and responses need. -/
structure BearerUser.Typed (user : BearerUser) : Prop where
  userId : ∃ id, optionalStr? user.userId = some id
  email : ∃ email, optionalStr? user.email = some email
  permissions : ∃ permissions : List String, user.permissions = .list (permissions.map .str)

/-- What the service is deployed with: a key under which PyJWT encodes every payload. -/
structure Deployment.Issues {τ : Type} (dep : Deployment τ) (key : String) : Prop where
  secretKey : dep.settings.jwtSecretKey = some key
  encode : ∀ payload, ∃ token, dep.jwt.encode payload key dep.settings.jwtAlgorithm = .ok token

theorem expected_unauthorized (detail : String) : Expected (unauthorized detail) :=
  ⟨_, _, _, rfl, by decide⟩

theorem answerable_userNotFound (userId : String) : Answerable (userNotFound userId) :=
  ⟨_, _, _, rfl, by decide⟩

theorem Answerable.expected {exc : Raised} (h : Answerable exc) : Expected exc := by
  obtain ⟨statusCode, detail, headers, rfl, hstatus⟩ := h
  refine ⟨statusCode, detail, headers, rfl, ?_⟩
  simp only [List.mem_cons, List.not_mem_nil, or_false] at hstatus ⊢
  tauto

section
variable {τ : Type} {dep : Deployment τ} {texts : Texts} {key : String}

/-! ## Issuing -/

theorem issueTokens_succeeds (hkey : dep.Issues key) {now : Nat}
    (hnow : Representable dep.settings now) (userId : UUID) (claims : Dict String Value) :
    ∃ response, issueTokens dep.jwt dep.settings userId claims now = .ok response := by
  have hsecret : Security.secretKey dep.settings = .ok key := by
    rw [Security.secretKey, hkey.secretKey]
  obtain ⟨access, haccess⟩ := hkey.encode ((basePayload userId now
    (now + dep.settings.jwtAccessTokenExpireMinutes * 60 * 1000000) "access").update
      (claims.mapValues .value))
  obtain ⟨refresh, hrefresh⟩ := hkey.encode (basePayload userId now
    (now + dep.settings.jwtRefreshTokenExpireDays * 24 * 60 * 60 * 1000000) "refresh")
  refine ⟨⟨access, refresh, "bearer", dep.settings.jwtAccessTokenExpireMinutes * 60⟩, ?_⟩
  rw [issueTokens, createAccessToken, createAccessTokenOf, createRefreshToken, addTimedelta_of_le hnow.1,
    addTimedelta_of_le hnow.2, hsecret]
  simp only [ok_bind, haccess, hrefresh]
  rfl

theorem parse_adminUserId :
    UUID.parse adminUserId = .ok ⟨List.replicate 31 0 ++ [1], rfl⟩ := by
  decide

/-- Whoever logs in has an id that is a UUID. -/
theorem parse_authenticateUser {s : State} (hs : s.Inv) {username password : String}
    {data : UserData}
    (h : authenticateUser dep.settings dep.sha256 s.users username password = some data) :
    ∃ userId, UUID.parse data.userId = .ok userId := by
  rw [authenticateUser] at h
  split_ifs at h with hadmin
  · obtain rfl := Option.some.inj h
    exact ⟨⟨List.replicate 31 0 ++ [1], rfl⟩, parse_adminUserId⟩
  · obtain ⟨user, hfind, rfl⟩ := Option.map_eq_some_iff.mp h
    obtain ⟨⟨id, hget⟩, -⟩ := findUser_some hfind
    obtain ⟨uuid, hid⟩ := hs.drawn (hs.created hget)
    exact ⟨uuid.toUUID, by rw [show user.userId = uuid.str from (hs.userId hget).trans hid]; exact UUID.parse_str _⟩

theorem within_login (hkey : dep.Issues key) {s : State} (hs : s.Inv) (request : LoginRequest)
    {now : Nat} (hnow : Representable dep.settings now) :
    Within Expected (login dep.jwt dep.settings dep.sha256 s.users request now) := by
  unfold login
  cases hdata : authenticateUser dep.settings dep.sha256 s.users request.username
    request.password with
  | none => exact (within_error _ _).mpr (expected_unauthorized _)
  | some data =>
    obtain ⟨userId, hparse⟩ := parse_authenticateUser hs hdata
    obtain ⟨response, hissue⟩ :=
      issueTokens_succeeds hkey hnow userId (userClaims data.email data.permissions)
    have hbind : (UUID.parse data.userId >>= fun userId => issueTokens dep.jwt dep.settings userId
        (userClaims data.email data.permissions) now) = .ok response := by
      rw [hparse, ok_bind, hissue]
    show Within Expected (Except.mapError .python _)
    rw [hbind]
    exact within_ok _ _

theorem within_refreshToken (hkey : dep.Issues key) (request : RefreshRequest τ) {now : Nat}
    (hnow : Representable dep.settings now) :
    Within Expected (refreshToken dep.jwt dep.settings request now) := by
  rw [refreshToken]
  cases verifyRefreshToken dep.jwt dep.settings request.refreshToken now with
  | error exc => exact (within_error _ _).mpr (expected_unauthorized _)
  | ok userId =>
    obtain ⟨response, hissue⟩ :=
      issueTokens_succeeds hkey hnow userId (userClaims "admin@local" adminPermissions)
    simp only [hissue]
    exact within_ok _ _

/-- The operations on the user store that need a permission. -/
theorem within_exec_of_not_public {call : Call τ} (h : ¬call.Public) (s : State) :
    Within Answerable (exec dep s call).1 := by
  cases call with
  | createUser request tenantId uuid createdAt =>
    rw [exec, createUser]
    split_ifs
    · exact (within_error _ _).mpr ⟨_, _, _, rfl, by decide⟩
    · exact within_ok _ _
  | updateUser userId request =>
    rw [exec, updateUser]
    cases s.users.get? userId with
    | none => exact (within_error _ _).mpr (answerable_userNotFound userId)
    | some user => exact within_ok _ _
  | deleteUser userId =>
    rw [exec, deleteUser]
    split_ifs
    · exact within_ok _ _
    · exact (within_error _ _).mpr (answerable_userNotFound userId)
  | resetUserPassword userId tempPassword =>
    rw [exec, resetUserPassword]
    cases s.users.get? userId with
    | none => exact (within_error _ _).mpr (answerable_userNotFound userId)
    | some user => exact within_ok _ _
  | login request now => exact absurd trivial h
  | refreshToken request now => exact absurd trivial h

/-- Those that need none. -/
theorem within_exec_of_public (hkey : dep.Issues key) {s : State} (hs : s.Inv) {call : Call τ}
    (hpublic : call.Public) (hnow : ∀ now, (∃ request, call = .login request now) ∨
      (∃ request, call = .refreshToken request now) → Representable dep.settings now) :
    Within Expected (exec dep s call).1 := by
  cases call with
  | login request now =>
    exact within_map (within_login hkey hs request (hnow now (.inl ⟨request, rfl⟩)))
  | refreshToken request now =>
    exact within_map (within_refreshToken hkey request (hnow now (.inr ⟨request, rfl⟩)))
  | _ => exact hpublic.elim

/-! ## Bearers -/

/-- An issued token decodes to claims of the right types. -/
theorem Issue.Sound.typed {i : Issue τ} (h : i.Sound dep) (hjwt : RoundTrips dep.jwt dep.settings)
    {token : τ} (htoken : i.Contains token) {now : Nat} {claims : Dict String Value}
    (hd : decodeToken dep.jwt dep.settings token now = .ok claims) :
    (BearerUser.ofPayload claims).Typed := by
  obtain ⟨userId, email, issued, hissued⟩ := h
  obtain rfl | rfl := htoken
  · have hget := decodeToken_createAccessToken hjwt (issueTokens_ok hissued).1 hd
    have hsub : claims.get? "sub" = some (.str userId.str) := (hget "sub").trans rfl
    have hemail : claims.get? "email" = some (.str email) := (hget "email").trans rfl
    have hpermissions : claims.get? "permissions" =
        some (.list (i.origin.permissions.map .str)) := (hget "permissions").trans rfl
    refine ⟨⟨some userId.str, ?_⟩, ⟨some email, ?_⟩, i.origin.permissions, ?_⟩
    · simp only [BearerUser.ofPayload, Dict.getD, hsub, Option.getD_some, optionalStr?]
    · simp only [BearerUser.ofPayload, Dict.getD, hemail, Option.getD_some, optionalStr?]
    · simp only [BearerUser.ofPayload, Dict.getD, hpermissions, Option.getD_some]
      cases i.origin.permissions <;> rfl
  · have hget := decodeToken_createRefreshToken hjwt (issueTokens_ok hissued).2 hd
    have hsub : claims.get? "sub" = some (.str userId.str) := (hget "sub").trans rfl
    have hemail : claims.get? "email" = none := hget "email"
    have hpermissions : claims.get? "permissions" = none := hget "permissions"
    refine ⟨⟨some userId.str, ?_⟩, ⟨none, ?_⟩, [], ?_⟩
    · simp only [BearerUser.ofPayload, Dict.getD, hsub, Option.getD_some, optionalStr?]
    · simp only [BearerUser.ofPayload, Dict.getD, hemail, Option.getD_none, optionalStr?]
    · simp only [BearerUser.ofPayload, Dict.getD, hpermissions, Option.getD_none]
      rfl

/-- Of clients that forge no token a request has a bearer of the right types, or is refused. -/
theorem HttpRequest.user_typed (hjwt : RoundTrips dep.jwt dep.settings) {issues : List (Issue τ)}
    (hsound : ∀ i ∈ issues, i.Sound dep) {request : HttpRequest τ}
    (hunforged : Unforged dep issues request) :
    (∃ detail, request.user dep = .error (unauthorized detail)) ∨
      ∃ user, request.user dep = .ok user ∧ user.Typed := by
  rw [HttpRequest.user]
  cases hcred : request.credentials with
  | none => exact .inl ⟨_, rfl⟩
  | some token =>
    cases hdecode : decodeToken dep.jwt dep.settings token request.now with
    | error exc =>
      refine .inl ⟨"Invalid authentication token", ?_⟩
      simp only [getCurrentUser, validateToken, hdecode]
    | ok claims =>
      obtain ⟨i, hi, hcontains⟩ := hunforged token (.inl hcred) ⟨request.now, claims, hdecode⟩
      exact .inr ⟨_, getCurrentUser_of_decode hdecode, (hsound i hi).typed hjwt hcontains hdecode⟩

theorem BearerUser.Typed.hasPermission {user : BearerUser} (h : user.Typed) (permission : String) :
    ∃ held, user.hasPermission permission = .ok held := by
  obtain ⟨permissions, hpermissions⟩ := h.permissions
  rw [BearerUser.hasPermission, hpermissions]
  exact ⟨_, grants_strings permission permissions⟩

theorem stringList?_map_str (ss : List String) : stringList? (.list (ss.map .str)) = some ss := by
  rw [stringList?]
  induction ss with
  | nil => rfl
  | cons s ss ih =>
    rw [List.map_cons, List.mapM_cons]
    simp_all

/-- A user of the right types is told to the client under the id that the token names. -/
theorem BearerUser.Typed.userInfo {user : BearerUser} (h : user.Typed) (texts : Texts) :
    ∃ response, getCurrentUserInfo texts user = .ok response ∧
      optionalStr? user.userId = some response.userId := by
  obtain ⟨⟨id, hid⟩, ⟨email, hemail⟩, permissions, hpermissions⟩ := h
  rw [getCurrentUserInfo, hid, hemail, hpermissions, stringList?_map_str]
  exact ⟨_, rfl, rfl⟩

/-! ## Guards -/

/-- The request bears a token that decodes. -/
def HttpRequest.Verified (dep : Deployment τ) (request : HttpRequest τ) : Prop :=
  ∃ token claims, request.credentials = some token ∧
    decodeToken dep.jwt dep.settings token request.now = .ok claims

theorem HttpRequest.Verified.user {request : HttpRequest τ} (h : request.Verified dep) :
    ∃ user, request.user dep = .ok user := by
  obtain ⟨token, claims, hcred, hdecode⟩ := h
  rw [HttpRequest.user, hcred]
  exact ⟨_, getCurrentUser_of_decode hdecode⟩

theorem HttpRequest.verified_of_user {request : HttpRequest τ} {user : BearerUser}
    (h : request.user dep = .ok user) : request.Verified dep := by
  rw [HttpRequest.user] at h
  cases hcred : request.credentials with
  | none =>
    rw [hcred] at h
    cases h
  | some token =>
    rw [hcred] at h
    obtain ⟨claims, hdecode, -⟩ := getCurrentUser_ok h
    exact ⟨token, claims, hcred, hdecode⟩

/-- What a guard does: without a token that decodes it answers 401, to one without the permission
403, and otherwise it lets the request through. -/
theorem HttpRequest.authorize_cases (hjwt : RoundTrips dep.jwt dep.settings)
    {issues : List (Issue τ)} (hsound : ∀ i ∈ issues, i.Sound dep) {request : HttpRequest τ}
    (hunforged : Unforged dep issues request) {permission : String}
    (hrequired : request.route.required = some permission) :
    (¬request.Verified dep ∧ ∃ detail, request.authorize dep = .error (unauthorized detail)) ∨
      (request.Verified dep ∧
        request.authorize dep = .error (.http 403 "Insufficient permissions" [])) ∨
      (request.Verified dep ∧ request.authorize dep = .ok ()) := by
  simp only [HttpRequest.authorize, hrequired]
  obtain ⟨detail, huser⟩ | ⟨user, huser, htyped⟩ := HttpRequest.user_typed hjwt hsound hunforged
  · refine .inl ⟨fun hverified => ?_, detail, by rw [huser]; rfl⟩
    obtain ⟨user, hok⟩ := hverified.user
    rw [huser] at hok
    cases hok
  · obtain ⟨held, hheld⟩ := htyped.hasPermission permission
    have hverified := HttpRequest.verified_of_user huser
    rw [huser, ok_bind, callBearer_requirePermissions, hheld]
    cases held with
    | true => exact .inr (.inr ⟨hverified, rfl⟩)
    | false => exact .inr (.inl ⟨hverified, rfl⟩)

/-! ## Requests -/

theorem within_authorize (hjwt : RoundTrips dep.jwt dep.settings) {issues : List (Issue τ)}
    (hsound : ∀ i ∈ issues, i.Sound dep) {request : HttpRequest τ}
    (hunforged : Unforged dep issues request) : Within Expected (request.authorize dep) := by
  cases hrequired : request.route.required with
  | none =>
    rw [HttpRequest.authorize, hrequired]
    exact within_ok _ _
  | some permission =>
    obtain ⟨-, detail, hauth⟩ | ⟨-, hauth⟩ | ⟨-, hauth⟩ :=
      HttpRequest.authorize_cases hjwt hsound hunforged hrequired
    · rw [hauth]
      exact (within_error _ _).mpr (expected_unauthorized detail)
    · rw [hauth]
      exact (within_error _ _).mpr ⟨_, _, _, rfl, by decide⟩
    · rw [hauth]
      exact within_ok _ _

/-- A route that asks for the user of the request, and then does nothing unexpected. -/
theorem within_user_bind {α : Type} (hjwt : RoundTrips dep.jwt dep.settings)
    {issues : List (Issue τ)} (hsound : ∀ i ∈ issues, i.Sound dep) {request : HttpRequest τ}
    (hunforged : Unforged dep issues request) {f : BearerUser → Except Raised α}
    (hf : ∀ user, user.Typed → Within Expected (f user)) :
    Within Expected (request.user dep >>= f) := by
  obtain ⟨detail, huser⟩ | ⟨user, huser, htyped⟩ := HttpRequest.user_typed hjwt hsound hunforged
  · rw [huser]
    exact (within_error _ _).mpr (expected_unauthorized detail)
  · rw [huser]
    exact hf user htyped

theorem HttpRequest.now_of_operation {request : HttpRequest τ} {call : Call τ}
    (h : request.operation = some call) {now : Nat} (hcall : (∃ body, call = .login body now) ∨
      ∃ body, call = .refreshToken body now) : now = request.now := by
  obtain ⟨credentials, moment, route⟩ := request
  obtain ⟨body, rfl⟩ | ⟨body, rfl⟩ := hcall
  all_goals
    cases route <;> simp only [HttpRequest.operation, Option.some.injEq, reduceCtorEq,
      Call.login.injEq, Call.refreshToken.injEq] at h
    all_goals exact h.2.symm

theorem HttpRequest.not_public_of_required {request : HttpRequest τ} {call : Call τ}
    {permission : String} (h : request.operation = some call)
    (hrequired : request.route.required = some permission) : ¬call.Public := by
  obtain ⟨credentials, now, route⟩ := request
  cases route <;> simp only [HttpRequest.operation, Option.some.injEq, reduceCtorEq] at h <;>
    subst h <;> first | exact id | cases hrequired

theorem HttpRequest.public_of_required_eq_none {request : HttpRequest τ} {call : Call τ}
    (h : request.operation = some call) (hrequired : request.route.required = none) :
    call.Public := by
  by_contra hpublic
  rw [HttpRequest.required_of_operation h hpublic] at hrequired
  cases hrequired

/-- A guarded route, once the guard has let the request through. -/
theorem within_body_of_required {request : HttpRequest τ} {permission : String}
    (hrequired : request.route.required = some permission) (hverified : request.Verified dep)
    (s : State) : Within Answerable (request.body dep texts s).1 := by
  cases hcall : request.operation with
  | some call =>
    rw [HttpRequest.body_of_operation hcall, operate]
    exact within_map
      (within_exec_of_not_public (HttpRequest.not_public_of_required hcall hrequired) s)
  | none =>
    obtain ⟨user, huser⟩ := hverified.user
    obtain ⟨credentials, now, route⟩ := request
    cases route with
    | listUsers => exact within_ok _ _
    | getUser userId =>
      refine within_map ?_
      rw [getUser]
      cases s.users.get? userId with
      | none => exact (within_error _ _).mpr (answerable_userNotFound userId)
      | some user => exact within_ok _ _
    | getSystemStatus timestamp => exact within_ok _ _
    | getTokenConfig => exact within_ok _ _
    | adminValidateToken token =>
      simp only [HttpRequest.body, huser, ok_bind]
      exact within_ok _ _
    | triggerMaintenance task =>
      refine within_map ?_
      rw [triggerMaintenance]
      by_cases hallowed : task ∈ allowedTasks
      · rw [if_neg (not_not.mpr hallowed)]
        exact within_ok _ _
      · rw [if_pos hallowed]
        exact (within_error _ _).mpr ⟨_, _, _, rfl, by decide⟩
    | resetUserTokens userId resetTimestamp =>
      simp only [HttpRequest.body, huser, ok_bind]
      refine within_map ?_
      rw [resetUserTokens]
      cases s.users.get? userId with
      | none => exact (within_error _ _).mpr (answerable_userNotFound userId)
      | some user => exact within_ok _ _
    | createUser | updateUser | deleteUser | resetUserPassword => cases hcall
    | _ => cases hrequired

/-- A request of a client that forges no token, in a state that the service reaches. -/
theorem within_serve (hjwt : RoundTrips dep.jwt dep.settings) (hkey : dep.Issues key) {s : State}
    (hs : s.Inv) {issues : List (Issue τ)} (hsound : ∀ i ∈ issues, i.Sound dep)
    {request : HttpRequest τ} (hunforged : Unforged dep issues request)
    (hnow : Representable dep.settings request.now) :
    Within Expected (serve dep texts s request).1 := by
  rw [serve]
  cases hauth : request.authorize dep with
  | error exc =>
    exact (within_error _ _).mpr (within_authorize hjwt hsound hunforged exc hauth)
  | ok admitted =>
    show Within Expected (request.body dep texts s).1
    cases hrequired : request.route.required with
    | some permission =>
      obtain ⟨token, claims, hcred, hdecode, -⟩ :=
        (HttpRequest.authorize_ok_iff hrequired).mp hauth
      intro exc hexc
      exact (within_body_of_required hrequired ⟨token, claims, hcred, hdecode⟩ s exc hexc).expected
    | none =>
      cases hcall : request.operation with
      | some call =>
        rw [HttpRequest.body_of_operation hcall, operate]
        refine within_map (within_exec_of_public hkey hs
          (HttpRequest.public_of_required_eq_none hcall hrequired) fun now hissues => ?_)
        rwa [HttpRequest.now_of_operation hcall hissues]
      | none =>
        obtain ⟨credentials, now, route⟩ := request
        cases route with
        | validateToken token => exact within_ok _ _
        | getCurrentUserInfo =>
          refine within_user_bind hjwt hsound hunforged fun user htyped => within_map ?_
          obtain ⟨response, hresponse, -⟩ := htyped.userInfo texts
          rw [hresponse]
          exact within_ok _ _
        | logout => exact within_user_bind hjwt hsound hunforged fun _ _ => within_ok _ _
        | login | getToken | refreshToken => cases hcall
        | _ => cases hrequired

/-- What the routes rely on in every state: the ids of the users are UUIDs, and the issued tokens
hold claims of the right types. -/
structure Session.Inv (dep : Deployment τ) (s : Session τ) : Prop where
  state : s.state.Inv
  sound : ∀ i ∈ s.issues, i.Sound dep

theorem ClientStep.inv {s s' : Session τ} {e : HttpEvent τ} (hs : s.Inv dep)
    (h : ClientStep dep texts s e s') : s'.Inv dep := by
  refine ⟨?_, h.sound hs.sound⟩
  have hserved := h.served.served
  generalize s'.state = t at hserved
  cases hserved with
  | refused => exact hs.state
  | read => exact hs.state
  | operation call reply _ hadmitted hcall hsome hstep => exact hstep.change.inv hs.state

end

end RagEval.Api
