import RagEval.Api.Routes
import RagEval.Api.Tenant
import RagEval.Middleware.ExceptionHandlers
import RagEval.Middleware.TokenIdentity

/-!
# The service over HTTP

The routes of the admin and the auth router behind the middlewares and the exception handlers, as
`create_app` in `app/main.py` assembles them under the prefix `/api`. The bodies of requests are
taken as parsed; JSON responses are rendered by a parameter.

## Main definitions

- `Service`, `Service.Laws` — a deployed service, and what the framework around it documents
- `Exchange` — a request to it with its response
- `Service.Step` — one exchange: what happens to the user store and to the audit log

## Main result

- `Service.Step.spec` — an exchange, told from what the route replies
-/

namespace RagEval.Api
open RagEval.Lib RagEval.Core RagEval.Security

/-! ## Requests -/

section
variable {τ : Type}

def Route.method : Route τ → String
  | .createUser .. => "POST"
  | .listUsers => "GET"
  | .getUser _ => "GET"
  | .updateUser .. => "PATCH"
  | .deleteUser _ => "DELETE"
  | .resetUserPassword .. => "POST"
  | .getSystemStatus _ => "GET"
  | .triggerMaintenance _ => "POST"
  | .getTokenConfig => "GET"
  | .adminValidateToken _ => "POST"
  | .resetUserTokens .. => "POST"
  | .login _ => "POST"
  | .getToken _ => "POST"
  | .refreshToken _ => "POST"
  | .validateToken _ => "POST"
  | .getCurrentUserInfo => "GET"
  | .logout => "POST"

def Route.path : Route τ → String
  | .createUser .. => "/admin/users"
  | .listUsers => "/admin/users"
  | .getUser userId => "/admin/users/" ++ userId
  | .updateUser userId _ => "/admin/users/" ++ userId
  | .deleteUser userId => "/admin/users/" ++ userId
  | .resetUserPassword userId _ => "/admin/users/" ++ userId ++ "/reset-password"
  | .getSystemStatus _ => "/admin/system/status"
  | .triggerMaintenance _ => "/admin/system/maintenance"
  | .getTokenConfig => "/admin/tokens/config"
  | .adminValidateToken _ => "/admin/tokens/validate"
  | .resetUserTokens userId _ => "/admin/users/" ++ userId ++ "/tokens/reset"
  | .login _ => "/auth/login"
  | .getToken _ => "/auth/token"
  | .refreshToken _ => "/auth/refresh"
  | .validateToken _ => "/auth/validate"
  | .getCurrentUserInfo => "/auth/me"
  | .logout => "/auth/logout"

/-- The status of a response that a route returns. -/
def Route.statusCode : Route τ → Nat
  | .createUser .. => 201
  | .deleteUser _ => 204
  | _ => 200

/-- The tenant that `Depends(get_tenant_id)` gives to the one route that uses it. -/
def Route.forTenant (tenantId : String) : Route τ → Route τ
  | .createUser request _ uuid createdAt => .createUser request tenantId uuid createdAt
  | route => route

end

/-! ## Responses -/

def optionalText : Option String → Value
  | some s => .str s
  | none => .none

def messageContent (body : Dict String String) : Value :=
  .dict (body.items.map fun kv => (kv.1, .str kv.2))

def UserResponse.content (self : UserResponse) : Value := .dict
  [("user_id", .str self.userId), ("username", .str self.username), ("email", .str self.email),
   ("permissions", .list (self.permissions.map .str)), ("is_active", .bool self.isActive),
   ("created_at", optionalText self.createdAt)]

/-- The JSON document of a response, over the compact text of tokens; a deletion has none. -/
def Response.content {τ : Type} (compact : τ → String) : Response τ → Option Value
  | .operation (.user response) => some response.content
  | .operation .deleted => none
  | .operation (.passwordReset body) => some (messageContent body)
  | .operation (.tokens response) => some (.dict
      [("access_token", .str (compact response.accessToken)),
       ("refresh_token", .str (compact response.refreshToken)),
       ("token_type", .str response.tokenType), ("expires_in", .int response.expiresIn)])
  | .users response => some (.dict
      [("users", .list (response.users.map UserResponse.content)), ("total", .int response.total)])
  | .user response => some response.content
  | .message body => some (messageContent body)
  | .systemStatus response => some (.dict
      [("status", .str response.status), ("version", .str response.version),
       ("environment", .str response.environment), ("timestamp", .str response.timestamp)])
  | .tokenConfig response => some (.dict
      [("access_token_expire_minutes", .int response.accessTokenExpireMinutes),
       ("refresh_token_expire_days", .int response.refreshTokenExpireDays),
       ("confirmation_token_expire_minutes", .int response.confirmationTokenExpireMinutes),
       ("algorithm", .str response.algorithm)])
  | .adminTokenValidation response => some (.dict
      [("valid", .bool response.valid), ("token_type", optionalText response.tokenType),
       ("user_id", optionalText response.userId), ("email", optionalText response.email),
       ("permissions", .list (response.permissions.map .str)),
       ("issued_at", optionalText response.issuedAt),
       ("expires_at", optionalText response.expiresAt),
       ("expires_in_seconds", (response.expiresInSeconds.map Value.int).getD .none),
       ("error", optionalText response.error)])
  | .tokenReset response => some (.dict
      [("message", .str response.message), ("user_id", .str response.userId),
       ("reset_at", .str response.resetAt), ("note", .str response.note)])
  | .tokenValidation response => some (.dict
      [("valid", .bool response.valid), ("user_id", optionalText response.userId),
       ("expires_at", optionalText response.expiresAt), ("error", optionalText response.error)])
  | .userInfo response => some (.dict
      [("user_id", optionalText response.userId), ("email", optionalText response.email),
       ("permissions", .list (response.permissions.map .str))])

/-! ## The service -/

/-- A deployment behind its middlewares, with the parts of the framework and the texts of tokens
and of JSON; `httpBearer` is `HTTPBearer(auto_error=False)`, which reads the credentials off the
`Authorization` header. -/
structure Service (τ : Type) where
  dep : Deployment τ
  texts : Texts
  cors : Middleware.CORSMiddleware
  framework : Middleware.Framework
  httpBearer : Option String → Option String
  isProduction : Bool
  defaultTenantId : String := "default"
  parse : String → τ
  compact : τ → String
  json : Value → List UInt8
  typeName : Raised → String

/-- A request for a route, with what is drawn while it runs, and its response. -/
structure Exchange (τ : Type) where
  env : Middleware.Env
  request : Middleware.Request
  route : Route τ
  now : Nat
  response : Middleware.Response

/-- The user store and the audit log. -/
structure ServiceState where
  state : State
  log : List Middleware.AuditRecord

section
variable {τ : Type} (svc : Service τ)

/-- What a reply of a route is to the layers around it. -/
def Service.respond (route : Route τ) :
    Except Raised (Response τ) → Except Middleware.Escaped Middleware.Response
  | .ok response => .ok <|
    match response.content svc.compact with
    | some content => Middleware.jsonResponse svc.json route.statusCode content
    | none => ⟨route.statusCode, [], .bytes []⟩
  | .error (.http statusCode detail _) => .error (.http statusCode detail)
  | .error exc =>
    .error (.other (.mk (svc.typeName exc) (.ok (codePoints (svc.texts.ofRaised exc)))))

/-- The request that the router makes of what the middlewares hand it. -/
def Exchange.httpRequest (e : Exchange τ) (request : Middleware.Request) : HttpRequest τ where
  credentials := (svc.httpBearer (request.header "Authorization")).map svc.parse
  now := e.now
  route := e.route.forTenant (getTenantId svc.defaultTenantId request)

/-- The request as the route of the exchange receives it. -/
def Exchange.received (e : Exchange τ) : Middleware.Request :=
  Middleware.received e.env.decoding e.request

/-- What the route replies, and the state after it. -/
def Exchange.serve (e : Exchange τ) (s : State) : Except Raised (Response τ) × State :=
  Api.serve svc.dep svc.texts s (e.httpRequest svc e.received)

/-- The router has found the route of the exchange, and the middlewares read a path that they do
not exempt: with the `Host` of a URL it is the routed one. -/
structure Exchange.Routed (e : Exchange τ) : Prop where
  method : e.request.method = e.route.method
  path : e.request.path = "/api" ++ e.route.path
  guarded : e.request.Guarded

/-- One exchange, through every layer. -/
structure Service.Step (s : ServiceState) (e : Exchange τ) (s' : ServiceState) : Prop where
  routed : e.Routed
  answered : Middleware.createApp svc.json svc.framework e.env.decoding svc.cors svc.isProduction
      (fun request =>
        svc.respond e.route (Api.serve svc.dep svc.texts s.state (e.httpRequest svc request)).1)
      e.request s.log = .ok e.response s'.log
  state : s'.state = (e.serve svc s.state).2

/-- What the framework's CORS middleware keeps to: it answers `OPTIONS` requests only, and to
other responses it adds headers. -/
structure CORSLaws (cors : Middleware.CORSMiddleware) : Prop where
  preflight : ∀ request, request.method ≠ "OPTIONS" → cors.preflight request = none
  statusCode : ∀ request response, (cors.decorate request response).statusCode = response.statusCode

/-- `HTTPBearer` splits the header at its first blank and takes the scheme in any case. -/
def ReadsBearer (httpBearer : Option String → Option String) : Prop :=
  ∀ authorization credentials, httpBearer authorization = some credentials ↔
    ∃ scheme, authorization = some (scheme ++ " " ++ credentials) ∧ ' ' ∉ scheme.toList ∧
      Text.lower scheme = "bearer" ∧ credentials ≠ ""

/-- What the framework documents of its parts. -/
structure Service.Laws : Prop where
  cors : CORSLaws svc.cors
  framework : Middleware.FrameworkLaws svc.framework
  httpBearer : ReadsBearer svc.httpBearer

/-- The status of the response to a reply. -/
def Route.statusOf (route : Route τ) : Except Raised (Response τ) → Nat
  | .ok _ => route.statusCode
  | .error (.http statusCode _ _) => statusCode
  | .error _ => 500

/-- The audit records of an exchange, with the user and the tenant that the middlewares told. -/
def Exchange.records (e : Exchange τ) : List Middleware.AuditRecord :=
  Middleware.auditRecords e.env.decoding e.received e.response

end

section
variable {τ : Type} {svc : Service τ}

theorem isExempt_api (path : String) : Middleware.isExempt ("/api" ++ path) = false := by
  simp [Middleware.isExempt, Middleware.exemptPaths, Text.startswith, List.isPrefixOf]

/-- A URL whose path is the routed one. -/
theorem Exchange.routed_of_urlPath {e : Exchange τ} (hmethod : e.request.method = e.route.method)
    (hpath : e.request.path = "/api" ++ e.route.path)
    (hurl : e.request.urlPath = .ok e.request.path) : e.Routed := by
  refine ⟨hmethod, hpath, _, hurl, ?_⟩
  rw [hpath]
  exact isExempt_api _

theorem Route.method_ne_options (route : Route τ) : route.method ≠ "OPTIONS" := by
  cases route <;> simp only [Route.method] <;> decide

theorem statusCode_withLoggingHeaders (env : Middleware.Env) (request : Middleware.Request)
    (response : Middleware.Response) :
    (Middleware.withLoggingHeaders env request response).statusCode = response.statusCode := by
  rw [Middleware.withLoggingHeaders]
  split_ifs <;> rfl

theorem statusCode_of_handleError {includeDetails : Bool} {request : Middleware.Request}
    {exc : Middleware.Raised} {response : Middleware.Response}
    (h : Middleware.handleError includeDetails request exc = .ok response) :
    response.statusCode = 500 := by
  have herror : ∀ message requestId,
      Middleware.errorResponse message requestId = .ok response → response.statusCode = 500 := by
    intro message requestId hok
    rw [Middleware.errorResponse] at hok
    split_ifs at hok
    rw [← Except.ok.inj hok]
  obtain ⟨path, -, h⟩ := bind_ok h
  obtain ⟨error, -, h⟩ := bind_ok h
  exact herror _ _ h

theorem statusCode_of_errorResponse {json : Value → List UInt8} {request : Middleware.Request}
    {statusCode : Nat} {code detail : String} {extra : List (String × Value)}
    {response : Middleware.Response}
    (h : Middleware.ExceptionHandlers.errorResponse json request statusCode code detail extra =
      .ok response) : response.statusCode = statusCode := by
  obtain ⟨path, -, h⟩ := bind_ok h
  rw [← Except.ok.inj h]
  rfl

/-- Every layer keeps the status of what the route, a handler or the error middleware answers. -/
theorem statusCode_of_answers (hlaws : svc.Laws) {env : Middleware.Env}
    {request : Middleware.Request} {route : Route τ} {reply : Except Raised (Response τ)}
    {response : Middleware.Response}
    (h : Middleware.Answers svc.json env svc.cors svc.isProduction request
      (svc.respond route reply) response) : response.statusCode = route.statusOf reply := by
  have hkept : ∀ r, (Middleware.withLoggingHeaders env request
      (svc.cors.decorate request r)).statusCode = r.statusCode := fun r => by
    rw [statusCode_withLoggingHeaders, hlaws.cors.statusCode]
  cases reply with
  | ok r =>
    obtain ⟨answer, hok, rfl⟩ := h
    rw [hkept, ← Except.ok.inj hok]
    split <;> rfl
  | error exc =>
    cases exc with
    | http statusCode detail headers =>
      obtain ⟨answer, hok, rfl⟩ := h
      rw [hkept]
      exact statusCode_of_errorResponse hok
    | app message code => exact statusCode_of_handleError h
    | python exc => exact statusCode_of_handleError h

/-- The text of an exception of a route has no lone surrogates. -/
theorem renderable_of_respond {route : Route τ} {reply : Except Raised (Response τ)}
    {exc : Middleware.Raised} (h : svc.respond route reply = .error (.other exc)) :
    Middleware.Renderable svc.isProduction exc := by
  have htext : ∀ typeName text, Middleware.Renderable svc.isProduction
      (.mk typeName (.ok (codePoints text))) := fun _ text =>
    ⟨_, rfl, fun _ => encodable_codePoints text⟩
  cases reply with
  | ok r => cases h
  | error raised =>
    cases raised with
    | http statusCode detail headers => cases h
    | app message code =>
      cases h
      exact htext _ _
    | python e =>
      cases h
      exact htext _ _

/-- The stack around the route of an exchange. -/
theorem Exchange.Routed.returns_createApp (hlaws : svc.Laws) {e : Exchange τ}
    (h : e.Routed) (s : State) (log : List Middleware.AuditRecord)
    (post : Middleware.Response → List Middleware.AuditRecord → Prop) :
    Outcome.Returns (Middleware.createApp svc.json svc.framework e.env.decoding svc.cors svc.isProduction
        (fun request =>
          svc.respond e.route (Api.serve svc.dep svc.texts s (e.httpRequest svc request)).1)
        e.request) log post ↔
      ∃ response, Middleware.Answers svc.json e.env.decoding svc.cors svc.isProduction e.received
          (svc.respond e.route (e.serve svc s).1) response ∧
        post (Middleware.outerHeaders e.env.decoding e.request response)
          (log ++ Middleware.auditRecords e.env.decoding e.received response) := by
  have hpreflight : svc.cors.preflight (Middleware.received e.env.decoding e.request) = none := by
    apply hlaws.cors.preflight
    rw [Middleware.received_method, h.method]
    exact Route.method_ne_options _
  exact Middleware.returns_createApp hlaws.framework h.guarded hpreflight fun exc hexc =>
    renderable_of_respond hexc

/-- An exchange, told from what the route replies: the status of its response, the user store
after it and the audit records it adds. -/
theorem Service.Step.spec (hlaws : svc.Laws) {s s' : ServiceState} {e : Exchange τ}
    (h : svc.Step s e s') :
    e.response.statusCode = e.route.statusOf (e.serve svc s.state).1 ∧
      s'.state = (e.serve svc s.state).2 ∧ s'.log = s.log ++ e.records := by
  have hreturns := (Outcome.returns_of_ok h.answered fun response log' =>
    response = e.response ∧ log' = s'.log).mpr ⟨rfl, rfl⟩
  rw [h.routed.returns_createApp hlaws] at hreturns
  obtain ⟨response, hanswers, hresponse, hlog⟩ := hreturns
  have hsame : e.response.statusCode = response.statusCode := by
    rw [← hresponse]
    rfl
  refine ⟨hsame.trans (statusCode_of_answers hlaws hanswers), h.state, hlog.symm.trans ?_⟩
  rw [Exchange.records, Middleware.auditRecords, Middleware.auditRecords, hsame]

/-- Every routed request is answered. -/
theorem Service.exists_step (hlaws : svc.Laws) (s : ServiceState) {e : Exchange τ}
    (hrouted : e.Routed) :
    ∃ response s', svc.Step s { e with response := response } s' := by
  obtain ⟨path, hurl, -⟩ := hrouted.guarded
  have hreceived : e.received.urlPath = .ok path :=
    (Middleware.received_urlPath _ _).trans hurl
  have hanswers : ∃ response, Middleware.Answers svc.json e.env.decoding svc.cors svc.isProduction
      e.received (svc.respond e.route (e.serve svc s.state).1) response :=
    Middleware.exists_answers hreceived fun exc hexc => renderable_of_respond hexc
  obtain ⟨response, hanswer⟩ := hanswers
  obtain ⟨a, log', hok, -⟩ := (hrouted.returns_createApp hlaws s.state s.log fun _ _ => True).mpr
    ⟨response, hanswer, trivial⟩
  exact ⟨a, ⟨(e.serve svc s.state).2, log'⟩, ⟨hrouted.method, hrouted.path, hrouted.guarded⟩, hok, rfl⟩

end

end RagEval.Api
