import RagEval.Api.BearerTokens
import RagEval.Api.UserAdministration

/-!
# The routes of the admin and the auth router

What stands before the operations on the user store: the permission that a route of
`app/api/routers/admin_router.py` requires of the bearer of a token, and the routes of
`admin_router.py` and `auth_router.py` that only read. The rate limits refuse nobody and are left
out, as are the two keys that `reset_user_tokens` writes and nobody reads.

## Main definitions

- `BearerUser.hasPermission`, `PermissionChecker.callBearer` — the checks over the claims of a token
- `Route`, `Route.required` — the routes, and the permissions their decorators ask for
- `serve`, `HttpStep` — a request to a running service
- `HttpEvent.operation` — the operation on the user store that a request got through to

## Main result

- `http_run` — a run of requests is a run of the operations that got through
-/

namespace RagEval.Api
open RagEval.Lib RagEval.Core RagEval.Security

/-! ## Permissions of a bearer -/

/-- The loop of `CurrentUser.has_permission`, over whatever a token has for permissions. -/
def grants (permission : String) : List Value → Except PyError Bool
  | [] => .ok false
  | .str userPerm :: rest =>
    if userPerm = permission then .ok true
    else if Text.endswith userPerm ":*" &&
        Text.startswith permission (Text.dropEnd userPerm 2 ++ ":") then .ok true
    else grants permission rest
  | userPerm :: _ =>
    .error (.attributeError ("'" ++ userPerm.typeName ++ "' object has no attribute 'endswith'"))

/-- `CurrentUser.has_permission`. -/
def BearerUser.hasPermission (self : BearerUser) (permission : String) : Except PyError Bool := do
  grants permission (← self.permissions.iter)

/-- `PermissionChecker.__call__`, on the bearer of a token. -/
def PermissionChecker.callBearer (self : PermissionChecker) (user : BearerUser) :
    Except Raised BearerUser := do
  let hasPermissions ← Except.mapError .python
    (if self.requireAll then self.requiredPermissions.allM user.hasPermission
    else self.requiredPermissions.anyM user.hasPermission)
  if hasPermissions then .ok user else .error (.http 403 "Insufficient permissions" [])

/-- On strings the loop decides what `CurrentUser.hasPermission` does. -/
theorem grants_strings (permission : String) (permissions : List String) :
    grants permission (permissions.map .str) =
      .ok ((CurrentUser.init none none (some permissions) none).hasPermission permission) := by
  simp only [CurrentUser.hasPermission, CurrentUser.init, Option.getD_some]
  induction permissions with
  | nil => rfl
  | cons userPerm permissions ih =>
    rw [List.map_cons, grants, List.any_cons, ih]
    split_ifs with hsame hwild
    · simp [hsame]
    · simp [hwild]
    · simp [hsame, hwild]

/-! ## Routes that read -/

structure UserListResponse where
  users : List UserResponse
  total : Nat

/-- `list_users`: the users of all tenants. -/
def listUsers (users : UserStore) : UserListResponse :=
  let userList := users.values.map User.response
  ⟨userList, userList.length⟩

/-- `get_user`. -/
def getUser (users : UserStore) (userId : String) : Except Raised UserResponse :=
  match users.get? userId with
  | none => .error (userNotFound userId)
  | some user => .ok user.response

def allowedTasks : List String := ["cleanup", "cache_clear", "stats_recalculation"]

/-- `trigger_maintenance`. -/
def triggerMaintenance (task : String) : Except Raised (Dict String String) :=
  if task ∉ allowedTasks then
    .error (.http 400 ("Unknown task '" ++ task ++
      "'. Allowed: ['cleanup', 'cache_clear', 'stats_recalculation']") [])
  else
    .ok (Dict.ofList
      [("message", "Maintenance task '" ++ task ++ "' has been triggered"), ("task", task)])

structure TokenResetResponse where
  message : String
  userId : String
  resetAt : String
  note : String

/-- `reset_user_tokens`, with the moment it draws. -/
def resetUserTokens (users : UserStore) (userId resetTimestamp : String) :
    Except Raised TokenResetResponse :=
  match users.get? userId with
  | none => .error (userNotFound userId)
  | some _ => .ok
    { message := "Tokens for user '" ++ userId ++ "' have been marked for reset"
      userId := userId
      resetAt := resetTimestamp
      note := "JWT is stateless - tokens remain valid until expiry. " ++
        "Client must discard tokens and re-authenticate. " ++
        "Consider implementing token blacklist (Redis) for production." }

/-- The texts of the interpreter and of pydantic: `str` of a value and of an exception, and what
the `ValidationError` of a response says; and the seconds from a moment to a timestamp,
`int((datetime.fromtimestamp(timestamp, tz=UTC) - now).total_seconds())`. -/
structure Texts where
  str : Value → String
  message : PyError → String
  validationError : List (String × Value) → String
  secondsUntil : Value → Nat → Except PyError Int

/-- `str(exc)`. -/
def Texts.ofRaised (texts : Texts) : Raised → String
  | .app message _ => message
  | .http status detail _ => toString status ++ ": " ++ detail
  | .python e => texts.message e

/-- A field of type `str | None`. -/
def optionalStr? : Value → Option (Option String)
  | .none => some none
  | .str s => some (some s)
  | _ => none

/-- A field of type `list[str]`. -/
def stringList? : Value → Option (List String)
  | .list xs => xs.mapM fun
    | .str s => some s
    | _ => none
  | _ => none

structure SystemStatusResponse where
  status : String
  version : String
  environment : String
  timestamp : String

/-- `get_system_status`, with the moment it draws. -/
def getSystemStatus (version environment timestamp : String) : SystemStatusResponse :=
  ⟨"healthy", version, environment, timestamp⟩

structure TokenConfigResponse where
  accessTokenExpireMinutes : Nat
  refreshTokenExpireDays : Nat
  confirmationTokenExpireMinutes : Nat
  algorithm : String

/-- `get_token_config`. -/
def getTokenConfig (settings : Settings) : TokenConfigResponse where
  accessTokenExpireMinutes := settings.jwtAccessTokenExpireMinutes
  refreshTokenExpireDays := settings.jwtRefreshTokenExpireDays
  confirmationTokenExpireMinutes := settings.jwtConfirmationTokenExpireMinutes
  algorithm := settings.jwtAlgorithm

structure TokenValidationResponse where
  valid : Bool
  userId : Option String := none
  expiresAt : Option String := none
  error : Option String := none

structure AdminTokenValidationResponse where
  valid : Bool
  tokenType : Option String := none
  userId : Option String := none
  email : Option String := none
  permissions : List String := []
  issuedAt : Option String := none
  expiresAt : Option String := none
  expiresInSeconds : Option Int := none
  error : Option String := none

structure UserInfoResponse where
  userId : Option String
  email : Option String
  permissions : List String

section
variable {τ : Type} (jwt : PyJwt τ) (settings : Settings) (texts : Texts)

/-- The route `validate_token`: every exception is caught, that of its own response included. -/
def validateTokenRoute (token : τ) (now : Nat) : TokenValidationResponse :=
  match decodeToken jwt settings token now with
  | .error exc => { valid := false, error := some (texts.ofRaised exc) }
  | .ok payload =>
    match optionalStr? (payload.getD "sub" .none) with
    | none =>
      let error := texts.validationError [("user_id", payload.getD "sub" .none)]
      { valid := false, error := some error }
    | some userId =>
      let expiresAt := texts.str (payload.getD "exp" .none)
      { valid := true, userId := userId, expiresAt := some expiresAt }

/-- The seconds until a token expires, not below zero; a token may say nothing of it. -/
def expiresIn (payload : Dict String Value) (now : Nat) : Except PyError (Option Int) :=
  let expTimestamp := payload.getD "exp" .none
  if truthy expTimestamp then do
    let expiresIn ← texts.secondsUntil expTimestamp now
    return some (if expiresIn < 0 then 0 else expiresIn)
  else .ok none

/-- `admin_validate_token`: every exception is caught, that of its own response included. -/
def adminValidateToken (token : τ) (now : Nat) : AdminTokenValidationResponse :=
  match decodeToken jwt settings token now with
  | .error exc => { valid := false, error := some (texts.ofRaised exc) }
  | .ok payload =>
    match expiresIn texts payload now with
    | .error exc => { valid := false, error := some (texts.message exc) }
    | .ok expiresIn =>
      let type := payload.getD "type" (.str "unknown")
      let sub := payload.getD "sub" .none
      let email := payload.getD "email" .none
      let permissions := payload.getD "permissions" (.list [])
      match optionalStr? type, optionalStr? sub, optionalStr? email, stringList? permissions with
      | some tokenType, some userId, some email, some permissions =>
        { valid := true
          tokenType := tokenType
          userId := userId
          email := email
          permissions := permissions
          issuedAt := some (texts.str (payload.getD "iat" .none))
          expiresAt := some (texts.str (payload.getD "exp" .none))
          expiresInSeconds := expiresIn }
      | _, _, _, _ =>
        let error := texts.validationError [("token_type", type), ("user_id", sub),
          ("email", email), ("permissions", permissions)]
        { valid := false, error := some error }

/-- `get_current_user_info`. -/
def getCurrentUserInfo (user : BearerUser) : Except Raised UserInfoResponse :=
  match optionalStr? user.userId, optionalStr? user.email, stringList? user.permissions with
  | some userId, some email, some permissions => .ok ⟨userId, email, permissions⟩
  | _, _, _ => .error (.python (.valueError (texts.validationError
      [("user_id", user.userId), ("email", user.email), ("permissions", user.permissions)])))

end

/-! ## Requests -/

inductive Route (τ : Type) where
  | createUser (request : CreateUserRequest) (tenantId : String) (uuid : UUID4) (createdAt : String)
  | listUsers
  | getUser (userId : String)
  | updateUser (userId : String) (request : UpdateUserRequest)
  | deleteUser (userId : String)
  | resetUserPassword (userId tempPassword : String)
  | getSystemStatus (timestamp : String)
  | triggerMaintenance (task : String)
  | getTokenConfig
  | adminValidateToken (token : τ)
  | resetUserTokens (userId resetTimestamp : String)
  | login (request : LoginRequest)
  | getToken (request : LoginRequest)
  | refreshToken (request : RefreshRequest τ)
  | validateToken (token : τ)
  | getCurrentUserInfo
  | logout

inductive Response (τ : Type) where
  | operation (reply : Reply τ)
  | users (response : UserListResponse)
  | user (response : UserResponse)
  | message (body : Dict String String)
  | systemStatus (response : SystemStatusResponse)
  | tokenConfig (response : TokenConfigResponse)
  | adminTokenValidation (response : AdminTokenValidationResponse)
  | tokenReset (response : TokenResetResponse)
  | tokenValidation (response : TokenValidationResponse)
  | userInfo (response : UserInfoResponse)

/-- A request at a moment, with the token of its `Authorization: Bearer` header. -/
structure HttpRequest (τ : Type) where
  credentials : Option τ
  now : Nat
  route : Route τ

/-- The permission that the decorator of a route requires. -/
def Route.required {τ : Type} : Route τ → Option String
  | .createUser .. => some "admin:write"
  | .listUsers => some "admin:read"
  | .getUser _ => some "admin:read"
  | .updateUser .. => some "admin:write"
  | .deleteUser _ => some "admin:write"
  | .resetUserPassword .. => some "admin:write"
  | .getSystemStatus _ => some "admin:read"
  | .triggerMaintenance _ => some "admin:write"
  | .getTokenConfig => some "admin:read"
  | .adminValidateToken _ => some "admin:read"
  | .resetUserTokens .. => some "admin:write"
  | .login _ => none
  | .getToken _ => none
  | .refreshToken _ => none
  | .validateToken _ => none
  | .getCurrentUserInfo => none
  | .logout => none

section
variable {τ : Type} (dep : Deployment τ) (texts : Texts)

/-- The user of the request, as `Depends(get_current_user)` gives it to a route. -/
def HttpRequest.user (request : HttpRequest τ) : Except Raised BearerUser :=
  getCurrentUser dep.jwt dep.settings request.credentials request.now

/-- The dependency of the decorator, solved before the body of the route runs. -/
def HttpRequest.authorize (request : HttpRequest τ) : Except Raised Unit :=
  match request.route.required with
  | none => .ok ()
  | some permission => do
    let user ← request.user dep
    let _ ← (requirePermissions [permission] true).callBearer user
    pure ()

/-- Run an operation on the user store. -/
def operate (s : State) (call : Call τ) : Except Raised (Response τ) × State :=
  let (reply, s') := exec dep s call
  (reply.map .operation, s')

/-- The body of a route. -/
def HttpRequest.body (request : HttpRequest τ) (s : State) :
    Except Raised (Response τ) × State :=
  match request.route with
  | .createUser body tenantId uuid createdAt =>
    operate dep s (.createUser body tenantId uuid createdAt)
  | .listUsers => (.ok (.users (listUsers s.users)), s)
  | .getUser userId => ((getUser s.users userId).map .user, s)
  | .updateUser userId body => operate dep s (.updateUser userId body)
  | .deleteUser userId => operate dep s (.deleteUser userId)
  | .resetUserPassword userId tempPassword => operate dep s (.resetUserPassword userId tempPassword)
  | .getSystemStatus timestamp =>
    (.ok (.systemStatus (getSystemStatus dep.appVersion dep.environment timestamp)), s)
  | .triggerMaintenance task => ((triggerMaintenance task).map .message, s)
  | .getTokenConfig => (.ok (.tokenConfig (getTokenConfig dep.settings)), s)
  | .adminValidateToken token =>
    ((do let _ ← request.user dep
         pure (.adminTokenValidation
           (adminValidateToken dep.jwt dep.settings texts token request.now))), s)
  | .resetUserTokens userId resetTimestamp =>
    ((do let _ ← request.user dep
         (resetUserTokens s.users userId resetTimestamp).map .tokenReset), s)
  | .login body => operate dep s (.login body request.now)
  -- `get_token` awaits `login`
  | .getToken body => operate dep s (.login body request.now)
  | .refreshToken body => operate dep s (.refreshToken body request.now)
  | .validateToken token =>
    (.ok (.tokenValidation (validateTokenRoute dep.jwt dep.settings texts token request.now)), s)
  | .getCurrentUserInfo =>
    ((do let user ← request.user dep
         (getCurrentUserInfo texts user).map .userInfo), s)
  | .logout =>
    ((do let _ ← request.user dep
         pure (.message (Dict.ofList
           [("message", "Successfully logged out. Discard tokens on client side.")]))), s)

/-- Answer one request: the reply and the state after it. -/
def serve (s : State) (request : HttpRequest τ) : Except Raised (Response τ) × State :=
  match request.authorize dep with
  | .error exc => (.error exc, s)
  | .ok () => request.body dep texts s

/-- A request and its reply. -/
structure HttpEvent (τ : Type) where
  request : HttpRequest τ
  reply : Except Raised (Response τ)

def HttpStep (s : State) (e : HttpEvent τ) (s' : State) : Prop :=
  serve dep texts s e.request = (e.reply, s')

/-- The operation on the user store that a request is for. -/
def HttpRequest.operation (request : HttpRequest τ) : Option (Call τ) :=
  match request.route with
  | .createUser body tenantId uuid createdAt => some (.createUser body tenantId uuid createdAt)
  | .updateUser userId body => some (.updateUser userId body)
  | .deleteUser userId => some (.deleteUser userId)
  | .resetUserPassword userId tempPassword => some (.resetUserPassword userId tempPassword)
  | .login body => some (.login body request.now)
  | .getToken body => some (.login body request.now)
  | .refreshToken body => some (.refreshToken body request.now)
  | _ => none

/-- The operation that the request got through to, with what it returned or raised. -/
def HttpEvent.operation (e : HttpEvent τ) : Option (Event τ) :=
  match e.request.authorize dep, e.request.operation, e.reply with
  | .ok (), some call, .ok (.operation reply) => some ⟨call, .ok reply⟩
  | .ok (), some call, .error exc => some ⟨call, .error exc⟩
  | _, _, _ => none

end

section
variable {τ : Type} {dep : Deployment τ} {texts : Texts}

/-- What a request does: it is refused, it reads, or it gets through to an operation. -/
inductive Served (dep : Deployment τ) (s : State) (e : HttpEvent τ) : State → Prop
  | refused (exc : Raised) (hrefused : e.request.authorize dep = .error exc)
      (hreply : e.reply = .error exc) (hnone : e.operation dep = none) : Served dep s e s
  | read (hadmitted : e.request.authorize dep = .ok ()) (hnone : e.operation dep = none) :
      Served dep s e s
  | operation (call : Call τ) (reply : Except Raised (Reply τ)) (s' : State)
      (hadmitted : e.request.authorize dep = .ok ()) (hcall : e.request.operation = some call)
      (hsome : e.operation dep = some ⟨call, reply⟩) (hstep : Step dep s ⟨call, reply⟩ s') :
      Served dep s e s'

theorem HttpRequest.body_of_operation {request : HttpRequest τ} {call : Call τ}
    (h : request.operation = some call) (s : State) :
    request.body dep texts s = operate dep s call := by
  unfold HttpRequest.operation at h
  unfold HttpRequest.body
  split at h <;> cases h <;> simp_all only

theorem HttpRequest.body_of_operation_eq_none (dep : Deployment τ) (texts : Texts)
    {request : HttpRequest τ} (h : request.operation = none) (s : State) :
    (request.body dep texts s).2 = s := by
  obtain ⟨credentials, now, route⟩ := request
  cases route <;> simp only [HttpRequest.operation, reduceCtorEq] at h <;> rfl

theorem HttpStep.served {s s' : State} {e : HttpEvent τ} (h : HttpStep dep texts s e s') :
    Served dep s e s' := by
  rw [HttpStep, serve] at h
  cases hauth : e.request.authorize dep with
  | error exc =>
    simp only [hauth, Prod.mk.injEq] at h
    obtain ⟨hreply, rfl⟩ := h
    exact .refused exc hauth hreply.symm (by simp only [HttpEvent.operation, hauth])
  | ok u =>
    simp only [hauth] at h
    cases hcall : e.request.operation with
    | none =>
      have hsame := HttpRequest.body_of_operation_eq_none dep texts hcall s
      rw [h] at hsame
      obtain rfl : s' = s := hsame
      exact .read hauth (by simp only [HttpEvent.operation, hauth, hcall])
    | some call =>
      rw [HttpRequest.body_of_operation hcall, operate] at h
      generalize hexec : exec dep s call = result at h
      obtain ⟨reply, t⟩ := result
      obtain ⟨hreply, rfl⟩ := Prod.mk.inj h
      refine .operation call reply _ hauth hcall ?_ hexec
      cases reply <;> simp only [HttpEvent.operation, hauth, hcall, ← hreply, Except.map]

/-- A run of requests is a run of the operations that got through. -/
theorem http_run {events : List (HttpEvent τ)} {s s' : State}
    (h : Run (HttpStep dep texts) s events s') :
    Run (Step dep) s (events.filterMap (HttpEvent.operation dep)) s' := by
  induction h with
  | nil s => exact .nil s
  | cons head tail ih =>
    rename_i s t u e events
    cases head.served with
    | refused exc hrefused hreply hnone => rwa [List.filterMap_cons_none hnone]
    | read hadmitted hnone => rwa [List.filterMap_cons_none hnone]
    | operation call reply s' hadmitted hcall hsome hstep =>
      rw [List.filterMap_cons_some hsome]
      exact .cons hstep ih

end

namespace Demo

def texts : Texts := ⟨fun _ => "", fun _ => "", fun _ => "", fun _ _ => .ok 0⟩

/-- What a login as the administrator of the environment issues at the epoch. -/
def adminTokens : TokenResponse SignedToken :=
  issuedTokens adminId "admin@local" adminPermissions 0

def adminLogin : HttpEvent SignedToken where
  request := ⟨none, 0, .login ⟨"admin", "admin"⟩⟩
  reply := .ok (.operation (.tokens adminTokens))

def adminCreatesAlice : HttpEvent SignedToken where
  request := ⟨some adminTokens.accessToken, 60000000,
    .createUser aliceRequest "default" aliceId "2026-01-01T00:00:00+00:00"⟩
  reply := .ok (.operation (.user alice.response))

/-- A guess at the administrator's password. -/
def wrongPassword : HttpEvent SignedToken where
  request := ⟨none, 0, .login ⟨"admin", "password"⟩⟩
  reply := .error (unauthorized "Invalid credentials")

def strangerListsUsers : HttpEvent SignedToken where
  request := ⟨none, 0, .listUsers⟩
  reply := .error (unauthorized "Authentication required")

theorem adminLogin_step : HttpStep deployment texts State.init adminLogin State.init := rfl

theorem adminCreatesAlice_step :
    HttpStep deployment texts State.init adminCreatesAlice aliceState := rfl

end Demo

end RagEval.Api
