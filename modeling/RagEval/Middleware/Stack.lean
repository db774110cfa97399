import RagEval.Lib.Outcome
import RagEval.Middleware.Layers

/-!
# What the stack answers

Each layer has one rule, which carries a postcondition of its response inwards to the application
it wraps. Composed in the order of `add_middlewares` they reduce the stack to the route, and to
what the error middleware makes of an exception of the route.
-/

namespace RagEval.Middleware
open RagEval.Lib RagEval.Lib.Outcome

/-! ## Headers -/

theorem headerValues_cons (name : String) (kv : String × String) (headers : List (String × String)) :
    headerValues name (kv :: headers) =
      if kv.1 = Text.lower name then kv.2 :: headerValues name headers
      else headerValues name headers := by
  rw [headerValues, headerValues, List.filter_cons]
  split <;> simp_all

/-- A header that was set has one value. -/
theorem headerValues_setHeader (name value : String) (headers : List (String × String)) :
    headerValues name (setHeader name value headers) = [value] := by
  induction headers with
  | nil => simp [setHeader, headerValues]
  | cons kv rest ih =>
    rw [setHeader]
    by_cases hkv : kv.1 = Text.lower name
    · rw [if_pos hkv, headerValues_cons, if_pos rfl]
      have hrest : headerValues name (rest.filter fun kv => kv.1 ≠ Text.lower name) = [] := by
        simp [headerValues, List.filter_filter]
      rw [hrest]
    · rw [if_neg hkv, headerValues_cons, if_neg hkv, ih]

/-- Setting a header keeps the others. -/
theorem headerValues_setHeader_of_ne {name other : String}
    (hne : Text.lower name ≠ Text.lower other) (value : String) (headers : List (String × String)) :
    headerValues name (setHeader other value headers) = headerValues name headers := by
  induction headers with
  | nil => simp [setHeader, headerValues, Ne.symm hne]
  | cons kv rest ih =>
    rw [setHeader]
    by_cases hkv : kv.1 = Text.lower other
    · have hkv' : kv.1 ≠ Text.lower name := fun h => hne (h.symm.trans hkv)
      rw [if_pos hkv, headerValues_cons, if_neg (Ne.symm hne), headerValues_cons, if_neg hkv']
      rw [headerValues, headerValues, List.filter_filter]
      congr 1
      apply List.filter_congr
      intro kv' _
      by_cases h : kv'.1 = Text.lower name
      · simp [h, hne]
      · simp [h]
    · rw [if_neg hkv, headerValues_cons, headerValues_cons, ih]

/-! ## Layers -/

variable {app : App} {request : Request} {log : List AuditRecord}
  {post : Response → List AuditRecord → Prop}

@[simp]
theorem returns_idMiddleware {headerName generated : String}
    {store : String → RequestState → RequestState} :
    Returns (idMiddleware headerName generated store app request) log post ↔
      Returns (app (request.withState
          (store (orElse (request.header headerName) generated) request.state))) log
        fun response log =>
          post (response.setHeader headerName (orElse (request.header headerName) generated)) log := by
  rw [idMiddleware, returns_bind]
  simp only [returns_pure]

@[simp]
theorem returns_liftExcept {α : Type} {x : Except Raised α} {post : α → List AuditRecord → Prop} :
    Returns (liftExcept x) log post ↔ ∃ a, x = .ok a ∧ post a log := by
  cases x <;> simp [liftExcept]

@[simp]
theorem raises_liftExcept {α : Type} {x : Except Raised α}
    {post : Raised → List AuditRecord → Prop} :
    Raises (liftExcept x) log post ↔ ∃ exc, x = .error exc ∧ post exc log := by
  cases x <;> simp [liftExcept]

/-- `request.url.path` can be read, and the middlewares do not exempt it. -/
def Request.Guarded (request : Request) : Prop :=
  ∃ path, request.urlPath = .ok path ∧ isExempt path = false

/-- `request.url.path` can be read, and the middlewares exempt it. -/
def Request.Exempted (request : Request) : Prop :=
  ∃ path, request.urlPath = .ok path ∧ isExempt path = true

theorem bind_of_guarded (h : request.Guarded)
    (skip run : EStateM Raised (List AuditRecord) Response) :
    (liftExcept request.urlPath >>= fun path => if isExempt path then skip else run) = run := by
  obtain ⟨path, hurl, hpath⟩ := h
  rw [hurl, liftExcept, pure_bind, hpath]
  rfl

theorem bind_of_exempted (h : request.Exempted)
    (skip run : EStateM Raised (List AuditRecord) Response) :
    (liftExcept request.urlPath >>= fun path => if isExempt path then skip else run) = skip := by
  obtain ⟨path, hurl, hpath⟩ := h
  rw [hurl, liftExcept, pure_bind, hpath]
  rfl

/-- The request as the applications inside `AuthMiddleware` see it. -/
def authenticated (env : Env) (request : Request) : Request :=
  let authHeader := orElse (request.header "Authorization") ""
  if authHeader = "" then request
  else request.withState (authState env authHeader request.state)

theorem authMiddleware_eq {env : Env} (hguarded : request.Guarded) :
    authMiddleware env app request = app (authenticated env request) := by
  rw [authMiddleware, bind_of_guarded hguarded, authenticated]
  dsimp only
  split <;> rfl

/-- The tenant of a request. -/
def resolvedTenant (defaultTenant : String) (request : Request) : String :=
  orElse (request.header "X-Tenant-ID") (orElse request.state.tenantIdFromJwt defaultTenant)

def withTenant (tenantId : String) (request : Request) : Request :=
  request.withState { request.state with tenantId := some tenantId, tenantHeader := some tenantId }

theorem returns_tenantMiddleware {defaultTenant : String} (hguarded : request.Guarded) :
    Returns (tenantMiddleware defaultTenant app request) log post ↔
      Returns (app (withTenant (resolvedTenant defaultTenant request) request)) log
        fun response log =>
          post (response.setHeader "X-Tenant-ID" (resolvedTenant defaultTenant request)) log := by
  rw [tenantMiddleware, bind_of_guarded hguarded, returns_bind]
  simp only [returns_pure]
  rfl

@[simp]
theorem returns_latencyTrackingMiddleware {env : Env} :
    Returns (latencyTrackingMiddleware env app request) log post ↔
      Returns (app request) log fun response log =>
        post (response.setHeader "X-Process-Time-Ms" env.latencyMs) log := by
  rw [latencyTrackingMiddleware, returns_bind]
  simp only [returns_pure]

/-- The records that auditing adds for a response. -/
def auditRecords (env : Env) (request : Request) (response : Response) : List AuditRecord :=
  if request.method ∈ auditMethods then [createAuditRecord env request response.statusCode] else []

theorem returns_auditMiddleware {env : Env} (hguarded : request.Guarded) :
    Returns (auditMiddleware env app request) log post ↔
      Returns (app request) log fun response log =>
        post response (log ++ auditRecords env request response) := by
  rw [auditMiddleware, bind_of_guarded hguarded, returns_bind]
  by_cases hmethod : request.method ∈ auditMethods
  · simp only [auditRecords, hmethod, if_true, logAudit, returns_bind, returns_modify, returns_pure]
  · simp only [auditRecords, hmethod, if_false, returns_pure, List.append_nil]

/-- The route, an application that logs no audit record. -/
def routeApp (route : Request → Except Raised Response) : App := fun request =>
  liftExcept (route request)

/-- What the layers inside the error middleware make of a request: the CORS middleware's own
response, or the decorated response of the route, or an exception of the route. -/
def answer (cors : CORSMiddleware) (route : Request → Except Raised Response) (request : Request) :
    Except Raised Response :=
  match cors.preflight request with
  | some response => .ok response
  | none => (route request).map (cors.decorate request)

theorem dispatch_routeApp {cors : CORSMiddleware} {route : Request → Except Raised Response} :
    cors.dispatch (routeApp route) request = liftExcept (answer cors route request) := by
  rw [CORSMiddleware.dispatch, answer]
  cases cors.preflight request with
  | some response => rfl
  | none => cases h : route request <;> simp only [routeApp, h] <;> rfl

/-- The headers of `LoggingContextMiddleware`. -/
def withLoggingHeaders (env : Env) (request : Request) (response : Response) : Response :=
  let requestId := orElse request.state.correlationId ""
  let response := if requestId = "" then response else
    (response.setHeader "X-Request-ID" requestId).setHeader "X-Correlation-ID" requestId
  response.setHeader "X-Process-Time-Ms" env.durationMs

theorem loggingContextMiddleware_eq {env : Env} {path : String} (hurl : request.urlPath = .ok path) :
    loggingContextMiddleware env app request =
      (app request >>= fun response => pure (withLoggingHeaders env request response)) := by
  rw [loggingContextMiddleware, tryCatch_throw, hurl, liftExcept, pure_bind]
  rfl

/-! ## The error middleware -/

/-- The error middleware can answer for the exception: its text can be taken and, where it becomes
part of the response, encoded. -/
def Renderable (isProduction : Bool) (exc : Raised) : Prop :=
  ∃ text, exc.str = .ok text ∧ (isProduction = false → encodable text = true)

theorem handleError_returns_iff {path : String} (hurl : request.urlPath = .ok path)
    {isProduction : Bool} {exc : Raised} :
    (∃ response, handleError (!isProduction) request exc = .ok response) ↔
      Renderable isProduction exc := by
  have herror : ∀ message requestId,
      (∃ response, errorResponse message requestId = .ok response) ↔ encodable message = true := by
    intro message requestId
    rw [errorResponse]
    split <;> simp_all
  rw [handleError, Renderable, hurl]
  cases hstr : exc.str with
  | error exc' => simp [bind, Except.bind]
  | ok text =>
    simp only [bind, Except.bind, herror, Except.ok.injEq, exists_eq_left']
    cases isProduction with
    -- the fixed text of production can always be encoded
    | true => simp [encodable_codePoints]
    | false => simp

theorem returns_errorMiddleware {includeDetails : Bool} :
    Returns (errorMiddleware includeDetails app request) log post ↔
      Returns (app request) log post ∨ Raises (app request) log fun exc log =>
        ∃ response, handleError includeDetails request exc = .ok response ∧ post response log := by
  rw [errorMiddleware, returns_tryCatch]
  simp only [returns_liftExcept]

/-! ## The stack -/

/-- The request under the state of the two id middlewares. -/
def withIds (env : Env) (request : Request) : Request :=
  request.withState { request.state with
    correlationId := some (orElse (request.header "X-Correlation-ID") env.correlationUuid)
    requestId := some (orElse (request.header "X-Request-ID") env.requestUuid) }

/-- The request under the state of the two id middlewares and of authentication. -/
def identified (env : Env) (request : Request) : Request := authenticated env (withIds env request)

/-- The request as the route receives it, under every layer's state. -/
def received (env : Env) (request : Request) : Request :=
  withTenant (resolvedTenant "default" request) (identified env request)

/-- The stack has answered a request: the response has the three ids, each once, and auditing has
added the records of this response. -/
structure Answered (env : Env) (request : Request) (log : List AuditRecord) (response : Response)
    (log' : List AuditRecord) : Prop where
  requestId : headerValues "X-Request-ID" response.headers =
    [orElse (request.header "X-Request-ID") env.requestUuid]
  correlationId : headerValues "X-Correlation-ID" response.headers =
    [orElse (request.header "X-Correlation-ID") env.correlationUuid]
  tenantId : headerValues "X-Tenant-ID" response.headers = [resolvedTenant "default" request]
  audited : request.method ∈ auditMethods →
    ∃ record, log' = log ++ [record] ∧ record.statusCode = response.statusCode
  notAudited : request.method ∉ auditMethods → log' = log

/-- Authentication changes the state only, and there not the tenant of the token. -/
theorem authenticated_eq (env : Env) (request : Request) :
    ∃ state, authenticated env request = request.withState state ∧
      state.tenantIdFromJwt = request.state.tenantIdFromJwt := by
  rw [authenticated]
  split
  · exact ⟨request.state, rfl, rfl⟩
  · refine ⟨_, rfl, ?_⟩
    rw [authState]
    split <;> rfl

theorem received_urlPath (env : Env) (request : Request) :
    (received env request).urlPath = request.urlPath := by
  obtain ⟨state, heq, -⟩ := authenticated_eq env (withIds env request)
  show (authenticated env (withIds env request)).urlPath = request.urlPath
  rw [heq]
  rfl

theorem received_method (env : Env) (request : Request) :
    (received env request).method = request.method := by
  obtain ⟨state, heq, -⟩ := authenticated_eq env (withIds env request)
  show (authenticated env (withIds env request)).method = request.method
  rw [heq]
  rfl

theorem resolvedTenant_authenticated (env : Env) (defaultTenant : String) (request : Request) :
    resolvedTenant defaultTenant (authenticated env request) =
      resolvedTenant defaultTenant request := by
  obtain ⟨state, heq, htenant⟩ := authenticated_eq env request
  rw [heq]
  show orElse _ (orElse state.tenantIdFromJwt _) = _
  rw [htenant]
  rfl

/-- The headers of the two id middlewares. -/
def withIdHeaders (env : Env) (request : Request) (response : Response) : Response :=
  (response.setHeader "X-Request-ID"
    (orElse (request.header "X-Request-ID") env.requestUuid)).setHeader "X-Correlation-ID"
    (orElse (request.header "X-Correlation-ID") env.correlationUuid)

/-- The headers that the layers around the error middleware set. -/
def outerHeaders (env : Env) (request : Request) (response : Response) : Response :=
  withIdHeaders env request
    ((response.setHeader "X-Process-Time-Ms" env.latencyMs).setHeader "X-Tenant-ID"
      (resolvedTenant "default" request))

/-- The layers from the error middleware inwards. -/
def innerStack (env : Env) (cors : CORSMiddleware) (isProduction : Bool) (app : App) : App :=
  errorMiddleware (!isProduction)
    (correlationTracingMiddleware (loggingContextMiddleware env (cors.dispatch app)))

/-- The two id middlewares, which look at no path. -/
theorem returns_addMiddlewares_ids {env : Env} {cors : CORSMiddleware} {isProduction : Bool} :
    Returns (addMiddlewares env cors isProduction app request) log post ↔
      Returns (authMiddleware env (tenantMiddleware "default" (latencyTrackingMiddleware env
          (auditMiddleware env (innerStack env cors isProduction app)))) (withIds env request)) log
        fun response log => post (withIdHeaders env request response) log := by
  show Returns (correlationIdMiddleware env (requestIdMiddleware env (authMiddleware env _))
    request) log post ↔ _
  rw [correlationIdMiddleware, returns_idMiddleware, requestIdMiddleware, returns_idMiddleware]
  rfl

/-- The layers around the error middleware, composed. -/
theorem returns_addMiddlewares {env : Env} {cors : CORSMiddleware} {isProduction : Bool}
    (hguarded : request.Guarded) :
    Returns (addMiddlewares env cors isProduction app request) log post ↔
      Returns (innerStack env cors isProduction app (received env request)) log
        fun response log => post (outerHeaders env request response)
          (log ++ auditRecords env (received env request) response) := by
  have hids : (withIds env request).Guarded := hguarded
  have hreceived : (received env request).Guarded := by
    rwa [Request.Guarded, received_urlPath]
  have hidentified : (identified env request).Guarded := hreceived
  have htenant : resolvedTenant "default" (identified env request) =
      resolvedTenant "default" request := by
    rw [identified, resolvedTenant_authenticated]
    rfl
  rw [returns_addMiddlewares_ids, authMiddleware_eq hids]
  show Returns (tenantMiddleware "default" _ (identified env request)) log _ ↔ _
  -- from here on the request is the one the route receives
  rw [returns_tenantMiddleware hidentified, htenant, returns_latencyTrackingMiddleware]
  show Returns (auditMiddleware env _ (received env request)) log _ ↔ _
  rw [returns_auditMiddleware hreceived]
  rfl

/-- On a request that they exempt, authentication, tenant and audit pass through. -/
theorem returns_addMiddlewares_of_exempted {env : Env} {cors : CORSMiddleware}
    {isProduction : Bool} (hexempted : request.Exempted) :
    Returns (addMiddlewares env cors isProduction app request) log post ↔
      Returns (innerStack env cors isProduction app (withIds env request)) log
        fun response log => post
          (withIdHeaders env request (response.setHeader "X-Process-Time-Ms" env.latencyMs)) log := by
  have hids : (withIds env request).Exempted := hexempted
  rw [returns_addMiddlewares_ids, authMiddleware, bind_of_exempted hids, tenantMiddleware,
    bind_of_exempted hids, returns_latencyTrackingMiddleware, auditMiddleware, bind_of_exempted hids]

/-- What `request.url.path` raises leaves the stack: it is read outside of the error middleware. -/
theorem not_returns_addMiddlewares {env : Env} {cors : CORSMiddleware} {isProduction : Bool}
    {exc : Raised} (hurl : request.urlPath = .error exc) :
    ¬Returns (addMiddlewares env cors isProduction app request) log post := by
  have hids : (withIds env request).urlPath = .error exc := hurl
  rw [returns_addMiddlewares_ids, authMiddleware, returns_bind, hids]
  simp

/-- What the error middleware makes of the layers inside it. -/
theorem returns_innerStack_routeApp {env : Env} {cors : CORSMiddleware} {isProduction : Bool}
    {route : Request → Except Raised Response} {path : String} (hurl : request.urlPath = .ok path) :
    Returns (innerStack env cors isProduction (routeApp route) request) log post ↔
      (∃ response, answer cors route request = .ok response ∧
        post (withLoggingHeaders env request response) log) ∨
      ∃ exc, answer cors route request = .error exc ∧
        ∃ response, handleError (!isProduction) request exc = .ok response ∧ post response log := by
  rw [innerStack, returns_errorMiddleware, correlationTracingMiddleware,
    loggingContextMiddleware_eq hurl, dispatch_routeApp]
  simp only [returns_bind, raises_bind, returns_liftExcept, raises_liftExcept, returns_pure,
    raises_pure, and_false, exists_false, or_false]

/-! ## What the stack answers -/

/-- Whatever response comes from inside, the stack completes it. -/
theorem answered_outerHeaders (env : Env) (log : List AuditRecord) (response : Response) :
    Answered env request log (outerHeaders env request response)
      (log ++ auditRecords env (received env request) response) where
  requestId := by
    rw [outerHeaders, withIdHeaders, Response.setHeader, headerValues_setHeader_of_ne (by decide)]
    exact headerValues_setHeader _ _ _
  correlationId := headerValues_setHeader _ _ _
  tenantId := by
    rw [outerHeaders, withIdHeaders, Response.setHeader, headerValues_setHeader_of_ne (by decide),
      Response.setHeader, headerValues_setHeader_of_ne (by decide)]
    exact headerValues_setHeader _ _ _
  audited := by
    intro hmethod
    rw [auditRecords, received_method, if_pos hmethod]
    exact ⟨_, rfl, rfl⟩
  notAudited := by
    intro hmethod
    rw [auditRecords, received_method, if_neg hmethod, List.append_nil]

/-- Where nothing is audited and no tenant is set, both have to be as they should be already. -/
theorem answered_withIdHeaders_iff (env : Env) (log : List AuditRecord) (response : Response) :
    Answered env request log
        (withIdHeaders env request (response.setHeader "X-Process-Time-Ms" env.latencyMs)) log ↔
      request.method ∉ auditMethods ∧
        headerValues "X-Tenant-ID" response.headers = [resolvedTenant "default" request] := by
  have htenant : headerValues "X-Tenant-ID" (withIdHeaders env request
      (response.setHeader "X-Process-Time-Ms" env.latencyMs)).headers =
      headerValues "X-Tenant-ID" response.headers := by
    rw [withIdHeaders, Response.setHeader, headerValues_setHeader_of_ne (by decide),
      Response.setHeader, headerValues_setHeader_of_ne (by decide), Response.setHeader,
      headerValues_setHeader_of_ne (by decide)]
  constructor
  · intro h
    refine ⟨fun hmethod => ?_, htenant ▸ h.tenantId⟩
    obtain ⟨record, hlog, -⟩ := h.audited hmethod
    simp at hlog
  · rintro ⟨hmethod, hresponse⟩
    refine ⟨?_, headerValues_setHeader _ _ _, htenant.trans hresponse,
      fun h => absurd h hmethod, fun _ => rfl⟩
    rw [withIdHeaders, Response.setHeader, headerValues_setHeader_of_ne (by decide)]
    exact headerValues_setHeader _ _ _

theorem headerValues_withLoggingHeaders (env : Env) (request' : Request) (response : Response) :
    headerValues "X-Tenant-ID" (withLoggingHeaders env request' response).headers =
      headerValues "X-Tenant-ID" response.headers := by
  rw [withLoggingHeaders, Response.setHeader, headerValues_setHeader_of_ne (by decide)]
  split
  · rfl
  · rw [Response.setHeader, headerValues_setHeader_of_ne (by decide), Response.setHeader,
      headerValues_setHeader_of_ne (by decide)]

/-- The error middleware's own response names no tenant. -/
theorem headerValues_of_handleError {includeDetails : Bool} {exc : Raised} {response : Response}
    (h : handleError includeDetails request exc = .ok response) :
    headerValues "X-Tenant-ID" response.headers = [] := by
  have herror : ∀ message requestId, errorResponse message requestId = .ok response →
      headerValues "X-Tenant-ID" response.headers = [] := by
    intro message requestId hok
    rw [errorResponse] at hok
    split_ifs at hok
    rw [← Except.ok.inj hok]
    show headerValues "X-Tenant-ID" [_, _] = []
    simp only [headerValues_cons]
    rw [if_neg (by decide), if_neg (by decide)]
    rfl
  rw [handleError] at h
  cases hurl : request.urlPath with
  | error exc' =>
    rw [hurl] at h
    cases h
  | ok path =>
    cases hstr : exc.str with
    | error exc' =>
      rw [hurl, hstr] at h
      cases h
    | ok text =>
      rw [hurl, hstr] at h
      exact herror _ _ h

/-- The stack answers a request exactly if `request.url.path` can be read and, where the
middlewares do not exempt it, an exception of the route, if there is one, is renderable; where
they do, though only `Host` makes it exempt, the response inside has to name the tenant, and the
request must not be one to audit. -/
theorem addMiddlewares_answers_iff (env : Env) (cors : CORSMiddleware) (isProduction : Bool)
    (route : Request → Except Raised Response) (request : Request) (log : List AuditRecord) :
    (∃ response log', addMiddlewares env cors isProduction (routeApp route) request log =
        .ok response log' ∧ Answered env request log response log') ↔
      ∃ path, request.urlPath = .ok path ∧
        if isExempt path then
          request.method ∉ auditMethods ∧ ∃ response,
            answer cors route (withIds env request) = .ok response ∧
            headerValues "X-Tenant-ID" response.headers = [resolvedTenant "default" request]
        else
          ∀ exc, cors.preflight (received env request) = none →
            route (received env request) = .error exc → Renderable isProduction exc := by
  show Returns _ log _ ↔ _
  cases hurl : request.urlPath with
  | error exc => simp [not_returns_addMiddlewares hurl]
  | ok path =>
    simp only [Except.ok.injEq, exists_eq_left']
    split
    case isTrue hexempt =>
      have hids : (withIds env request).urlPath = .ok path := hurl
      rw [returns_addMiddlewares_of_exempted ⟨path, hurl, hexempt⟩, returns_innerStack_routeApp hids]
      simp only [answered_withIdHeaders_iff, headerValues_withLoggingHeaders]
      constructor
      · rintro (⟨response, hanswer, hmethod, htenant⟩ | ⟨exc, -, response, herror, -, htenant⟩)
        · exact ⟨hmethod, response, hanswer, htenant⟩
        · rw [headerValues_of_handleError herror] at htenant
          cases htenant
      · rintro ⟨hmethod, response, hanswer, htenant⟩
        exact .inl ⟨response, hanswer, hmethod, htenant⟩
    case isFalse hexempt =>
      have hreceived : (received env request).urlPath = .ok path :=
        (received_urlPath env request).trans hurl
      rw [returns_addMiddlewares ⟨path, hurl, Bool.eq_false_of_not_eq_true hexempt⟩,
        returns_innerStack_routeApp hreceived]
      simp only [answered_outerHeaders, and_true]
      simp only [← handleError_returns_iff hreceived, answer]
      cases cors.preflight (received env request) with
      | some response => simp
      | none => cases route (received env request) <;> simp [Except.map]

/-- Without an `Origin` header the CORS middleware passes requests and responses on. -/
def passThrough : CORSMiddleware where
  preflight _ := none
  decorate _ response := response

def demoEnv : Env where
  correlationUuid := "5a0c52b5-6d0a-4d8e-9f36-0e7c5b1d2a10"
  requestUuid := "c1e1b8f0-93f0-4b8e-8f5e-2f6f1c9a7d21"
  now := "2025-01-01T00:00:00+00:00"
  latencyMs := "1.25"
  durationMs := "1.2"
  decodePayload _ := none

def demoRequest : Request where
  method := "POST"
  url := "http://testserver/api/v1/ingest"
  path := "/api/v1/ingest"
  headers := [("x-request-id", "req-1"), ("x-tenant-id", "acme")]

/-- `Host: [` makes a URL that `urlsplit` refuses. -/
def unreadableRequest : Request where
  method := "POST"
  url := "http://[/api/v1/ingest"
  path := "/api/v1/ingest"
  urlPath := .error (.mk "ValueError" (.ok (codePoints "Invalid IPv6 URL")))
  headers := [("host", "["), ("x-tenant-id", "acme")]

/-- An exception whose text holds a lone surrogate leaves the stack as another exception, and no
audit record is logged; and so does what `request.url.path` raises, whatever the route does. -/
theorem addMiddlewares_raises :
    isExempt demoRequest.path = false ∧ isExempt unreadableRequest.path = false ∧
      addMiddlewares demoEnv passThrough false
          (routeApp fun _ => .error (.mk "ValueError" (.ok [0xD800]))) demoRequest [] =
        .error unicodeEncodeError [] ∧
      (¬ ∃ response log', addMiddlewares demoEnv passThrough false
          (routeApp fun _ => .error (.mk "ValueError" (.ok [0xD800]))) demoRequest [] =
            .ok response log' ∧ Answered demoEnv demoRequest [] response log') ∧
      ∀ route, ¬ ∃ response log', addMiddlewares demoEnv passThrough false (routeApp route)
          unreadableRequest [] = .ok response log' ∧
            Answered demoEnv unreadableRequest [] response log' := by
  refine ⟨by decide, by decide, rfl, ?_, fun route => not_returns_addMiddlewares rfl⟩
  rintro ⟨response, log', hok, -⟩
  have hraises : addMiddlewares demoEnv passThrough false
      (routeApp fun _ => .error (.mk "ValueError" (.ok [0xD800]))) demoRequest [] =
        .error unicodeEncodeError [] := rfl
  rw [hraises] at hok
  cases hok

end RagEval.Middleware
