import RagEval.Lib.CodePoints
import RagEval.Lib.Dict
import RagEval.Lib.Operators

/-!
# The middlewares

`app/core/middleware/`, the logging context of `app/core/config/logging.py` and the stack that
`add_middlewares` in `app/main.py` assembles from them. An application takes a request to a
response or raises; on the way it may log audit records. A middleware wraps an application, and
the last one added is the outermost.

Python texts may hold lone surrogates, so the text of an exception is a list of code points;
`str(exc)` may itself raise.
-/

namespace RagEval.Middleware
open RagEval.Lib

/-- An exception: `type(exc).__name__` and what `str(exc)` does. -/
inductive Raised where
  | mk (typeName : String) (str : Except Raised CodePoints)

def Raised.str : Raised → Except Raised CodePoints
  | mk _ str => str

def unicodeEncodeError : Raised :=
  .mk "UnicodeEncodeError" (.ok (codePoints "'utf-8' codec can't encode character: surrogates not allowed"))

/-! ## Requests and responses -/

/-- `request.state`. -/
structure RequestState where
  correlationId : Option String := none
  requestId : Option String := none
  authorization : Option String := none
  userId : Value := .none
  userEmail : Value := .none
  userPermissions : Value := .none
  tenantIdFromJwt : Option String := none
  tenantId : Option String := none
  tenantHeader : Option String := none

/-- A request; header names are in lower case, as the server delivers them. The router matches
`path`. `url` is `str(request.url)`, which the framework builds with the `Host` header, and
`urlPath` is `request.url.path`: what `urlsplit` reads of that text, or the exception it raises. -/
structure Request where
  method : String
  url : String
  path : String
  urlPath : Except Raised String := .ok path
  queryParams : List (String × String) := []
  client : Option String := none
  headers : List (String × String) := []
  state : RequestState := {}

/-- Middlewares store into the state; nothing else of a request changes. -/
def Request.withState (request : Request) (state : RequestState) : Request :=
  { request with state := state }

/-- `request.headers.get(name)`. -/
def Request.header (request : Request) (name : String) : Option String :=
  (request.headers.find? fun kv => kv.1 = Text.lower name).map Prod.snd

inductive Body where
  | bytes (content : List UInt8)
  | internalError (message : CodePoints) (requestId : String)

structure Response where
  statusCode : Nat
  headers : List (String × String) := []
  body : Body

/-- All values a header has. -/
def headerValues (name : String) (headers : List (String × String)) : List String :=
  (headers.filter fun kv => kv.1 = Text.lower name).map Prod.snd

/-- Replace the first value of a header and remove the others, or add the header. -/
def setHeader (name value : String) : List (String × String) → List (String × String)
  | [] => [(Text.lower name, value)]
  | kv :: rest =>
    if kv.1 = Text.lower name then
      (Text.lower name, value) :: rest.filter fun kv => kv.1 ≠ Text.lower name
    else kv :: setHeader name value rest

/-- `response.headers[name] = value`. -/
def Response.setHeader (response : Response) (name value : String) : Response :=
  { response with headers := Middleware.setHeader name value response.headers }

structure AuditRecord where
  timestamp : String
  method : String
  path : String
  queryParams : List (String × String)
  clientIp : Option String
  userAgent : Option String
  requestId : Option String
  correlationId : Option String
  tenantId : Option String
  userId : Value
  statusCode : Nat

/-! ## Applications -/

/-- An application, over the audit records logged so far. -/
abbrev App := Request → EStateM Raised (List AuditRecord) Response

/-- A middleware: the dispatch around the application it wraps. -/
abbrev Layer := App → App

/-- What comes from outside: the generated ids, the clock, and the payload of a token, decoded
from Base64, UTF-8 and JSON, unless that raises. -/
structure Env where
  correlationUuid : String
  requestUuid : String
  now : String
  latencyMs : String
  durationMs : String
  decodePayload : String → Option Value

/-- A header's value, unless it is missing or empty. -/
def orElse (value : Option String) (fallback : String) : String :=
  match value with
  | some v => if v = "" then fallback else v
  | none => fallback

/-- The dispatch of the middlewares that keep an id, which they take from a header or generate,
in the request state and put it into the response. -/
def idMiddleware (headerName generated : String) (store : String → RequestState → RequestState) :
    Layer := fun callNext request => do
  let id := orElse (request.header headerName) generated
  let response ← callNext (request.withState (store id request.state))
  return response.setHeader headerName id

/-- `CorrelationIdMiddleware.dispatch`. -/
def correlationIdMiddleware (env : Env) : Layer :=
  idMiddleware "X-Correlation-ID" env.correlationUuid fun id state =>
    { state with correlationId := some id }

/-- `RequestIdMiddleware.dispatch`. -/
def requestIdMiddleware (env : Env) : Layer :=
  idMiddleware "X-Request-ID" env.requestUuid fun id state => { state with requestId := some id }

def exemptPaths : List String := ["/health", "/docs", "/redoc", "/openapi.json"]

def isExempt (path : String) : Bool := exemptPaths.any fun exempt => Text.startswith path exempt

/-- `_extract_user_from_token`. -/
def extractUserFromToken (env : Env) (authHeader : String) : Option Value :=
  if Text.startswith authHeader "Bearer " then
    match Text.split (Text.dropFirst authHeader 7) '.' with
    | [_, payload, _] =>
      -- up to the next multiple of four
      let padding := 4 - payload.length % 4
      env.decodePayload (if padding ≠ 4 then payload ++ String.ofList (List.replicate padding '=')
        else payload)
    | _ => none
  else none

/-- What `AuthMiddleware` makes of the state. A payload that is no object raises
`AttributeError`, which is caught, before anything is stored. -/
def authState (env : Env) (authHeader : String) (state : RequestState) : RequestState :=
  let state := { state with authorization := some authHeader }
  match extractUserFromToken env authHeader with
  | some (.dict (kv :: kvs)) =>
    let userInfo := fun key dflt => (Assoc.get key (kv :: kvs)).getD dflt
    { state with
      userId := userInfo "sub" .none
      userEmail := userInfo "email" .none
      userPermissions := userInfo "permissions" (.list []) }
  | _ => state

/-- Run a computation that logs no audit record. -/
def liftExcept {α : Type} (x : Except Raised α) : EStateM Raised (List AuditRecord) α :=
  match x with
  | .ok a => pure a
  | .error exc => throw exc

/-- `AuthMiddleware.dispatch`. -/
def authMiddleware (env : Env) : Layer := fun callNext request => do
  let path ← liftExcept request.urlPath
  if isExempt path then callNext request
  else
    let authHeader := orElse (request.header "Authorization") ""
    if authHeader = "" then callNext request
    else callNext (request.withState (authState env authHeader request.state))

/-- `TenantMiddleware.dispatch`. -/
def tenantMiddleware (defaultTenant : String) : Layer := fun callNext request => do
  let path ← liftExcept request.urlPath
  if isExempt path then callNext request
  else
    let tenantId := orElse (request.header "X-Tenant-ID")
      (orElse request.state.tenantIdFromJwt defaultTenant)
    let response ← callNext (request.withState
      { request.state with tenantId := some tenantId, tenantHeader := some tenantId })
    return response.setHeader "X-Tenant-ID" tenantId

/-- `LatencyTrackingMiddleware.dispatch`; when the application raises there is no response to set
the header of, and the exception goes on. Slow requests are only logged, with the path that
`AuthMiddleware` has read. -/
def latencyTrackingMiddleware (env : Env) : Layer := fun callNext request => do
  let response ← callNext request
  return response.setHeader "X-Process-Time-Ms" env.latencyMs

def auditMethods : List String := ["POST", "PUT", "PATCH", "DELETE"]

/-- `_create_audit_record`, completed with the status and the time of logging. -/
def createAuditRecord (env : Env) (request : Request) (statusCode : Nat) : AuditRecord where
  timestamp := env.now
  method := request.method
  path := request.url
  queryParams := request.queryParams
  clientIp := request.client
  userAgent := request.header "User-Agent"
  requestId := request.state.requestId
  correlationId := request.state.correlationId
  tenantId := request.state.tenantId
  userId := request.state.userId
  statusCode := statusCode

/-- `_log_audit`. -/
def logAudit (record : AuditRecord) : EStateM Raised (List AuditRecord) Unit :=
  modify fun log => log ++ [record]

/-- `AuditMiddleware.dispatch`. -/
def auditMiddleware (env : Env) : Layer := fun callNext request => do
  let path ← liftExcept request.urlPath
  if isExempt path then callNext request
  else
    let response ← callNext request
    if request.method ∈ auditMethods then
      logAudit (createAuditRecord env request response.statusCode)
    return response

/-- `JSONResponse` with an error as its content; its text is encoded in UTF-8. -/
def errorResponse (message : CodePoints) (requestId : String) : Except Raised Response :=
  if encodable message then
    .ok ⟨500, [("x-request-id", requestId), ("content-type", "application/json")],
      .internalError message requestId⟩
  else .error unicodeEncodeError

/-- The `except Exception` block of `ErrorMiddleware`: the path of the request and the text of the
exception are taken for the log, the text again for the response if details are included. -/
def handleError (includeDetails : Bool) (request : Request) (exc : Raised) :
    Except Raised Response := do
  let requestId := request.state.requestId.getD "unknown"
  -- neither these nor the response are guarded: what they raise leaves the middleware
  let _ ← request.urlPath
  let error ← exc.str
  let detail := if includeDetails then error else codePoints "Internal server error"
  errorResponse detail requestId

/-- `ErrorMiddleware.dispatch`. -/
def errorMiddleware (includeDetails : Bool) : Layer := fun callNext request =>
  tryCatch (callNext request) fun exc => liftExcept (handleError includeDetails request exc)

/-- `CorrelationTracingMiddleware.dispatch`: it sets attributes of the current span only. -/
def correlationTracingMiddleware : Layer := fun callNext request => callNext request

/-- `LoggingContextMiddleware.dispatch`: the path of the request is bound to the logging context;
an exception of the application is logged and raised again. -/
def loggingContextMiddleware (env : Env) : Layer := fun callNext request => do
  let _ ← liftExcept request.urlPath
  tryCatch
    (do
      let response ← callNext request
      let requestId := orElse request.state.correlationId ""
      let response := if requestId = "" then response else
        (response.setHeader "X-Request-ID" requestId).setHeader "X-Correlation-ID" requestId
      return response.setHeader "X-Process-Time-Ms" env.durationMs)
    fun exc => throw exc

/-- The framework's CORS middleware: it answers preflight requests itself and adds headers to the
other responses. -/
structure CORSMiddleware where
  preflight : Request → Option Response
  decorate : Request → Response → Response

def CORSMiddleware.dispatch (cors : CORSMiddleware) : Layer := fun callNext request =>
  match cors.preflight request with
  | some response => pure response
  | none => do
    let response ← callNext request
    return cors.decorate request response

/-- The middlewares in the order in which `add_middlewares` adds them; details are included
unless in production. -/
def middlewares (env : Env) (cors : CORSMiddleware) (isProduction : Bool) : List Layer :=
  -- the innermost first
  [cors.dispatch,
   loggingContextMiddleware env,
   correlationTracingMiddleware,
   errorMiddleware (!isProduction),
   auditMiddleware env,
   latencyTrackingMiddleware env,
   tenantMiddleware "default",
   authMiddleware env,
   requestIdMiddleware env,
   correlationIdMiddleware env]

/-- `add_middlewares`: each one wraps those added before it. -/
def addMiddlewares (env : Env) (cors : CORSMiddleware) (isProduction : Bool) (app : App) : App :=
  (middlewares env cors isProduction).foldl (fun app middleware => middleware app) app

end RagEval.Middleware
