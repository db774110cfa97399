import RagEval.Middleware.Stack

/-!
# Exception handlers

`app/core/config/exceptions.py` and where the framework runs the handlers it registers: those of
application and HTTP exceptions inside all middlewares, that of every other exception outside of
them. `create_app` in `app/main.py` puts the three parts together.

## Main definitions

- `Escaped` — what leaves a route, by the handler it finds
- `Framework`, `FrameworkLaws` — the innermost and the outermost layer, and what is known of them
- `createApp` — the middlewares between them

## Main result

- `returns_createApp` — what the application answers
-/

namespace RagEval.Middleware
open RagEval.Lib RagEval.Lib.Outcome

/-- `AppException` of `app/core/config/exceptions.py`, as its handler reads it. -/
structure AppException where
  code : String := "APP_ERROR"
  statusCode : Nat := 500
  detail : String
  extra : List (String × Value) := []

/-- An exception that leaves a route. -/
inductive Escaped where
  | app (exc : AppException)
  | http (statusCode : Nat) (detail : String)
  | other (exc : Raised)

/-- The handlers of application exceptions, of HTTP exceptions and of every other exception. -/
structure Handlers where
  app : Request → AppException → Except Raised Response
  http : Request → Nat → String → Except Raised Response
  other : Request → Except Raised Response

/-- What becomes of a route's outcome, by the handler that an exception finds. -/
def Handlers.handle (handlers : Handlers) (request : Request) :
    Except Escaped Response → Except Raised Response
  | .ok response => .ok response
  | .error (.app exc) => handlers.app request exc
  | .error (.http statusCode detail) => handlers.http request statusCode detail
  | .error (.other exc) => .error exc

/-- The framework around an application: `ExceptionMiddleware`, which it puts around the routes,
and `ServerErrorMiddleware`, which it puts around everything else. -/
structure Framework where
  exceptionMiddleware : Handlers → (Request → Except Escaped Response) → Request →
    Except Raised Response
  serverErrorMiddleware : Handlers → Layer

/-- What the framework documents: the handlers of application and of HTTP exceptions answer for
the routes, and a response passes the outermost layer. -/
structure FrameworkLaws (framework : Framework) : Prop where
  handled : ∀ handlers route request, framework.exceptionMiddleware handlers route request =
    handlers.handle request (route request)
  passed : ∀ handlers (app : App) request log response log', app request log = .ok response log' →
    framework.serverErrorMiddleware handlers app request log = .ok response log'

section
variable (json : Value → List UInt8)

/-- A `JSONResponse`, over the rendering of its content. -/
def jsonResponse (statusCode : Nat) (content : Value) : Response :=
  ⟨statusCode, [("content-type", "application/json")], .bytes (json content)⟩

/-- `error_response`. -/
def ExceptionHandlers.errorResponse (request : Request) (statusCode : Nat) (code detail : String)
    (extra : List (String × Value)) : Except Raised Response := do
  let path ← request.urlPath
  let error := [("code", .str code), ("detail", .str detail), ("path", .str path)]
  return jsonResponse json statusCode
    (.dict [("error", .dict (if extra.isEmpty then error else error ++ [("extra", .dict extra)]))])

/-- `app_exception_handler`. -/
def appExceptionHandler (request : Request) (exc : AppException) : Except Raised Response :=
  ExceptionHandlers.errorResponse json request exc.statusCode exc.code exc.detail exc.extra

/-- `http_exception_handler`; the headers of the exception are not passed on. -/
def httpExceptionHandler (request : Request) (statusCode : Nat) (detail : String) :
    Except Raised Response :=
  ExceptionHandlers.errorResponse json request statusCode "HTTP_ERROR" detail []

/-- `unhandled_exception_handler`. -/
def unhandledExceptionHandler (request : Request) : Except Raised Response :=
  ExceptionHandlers.errorResponse json request 500 "INTERNAL_SERVER_ERROR" "Internal server error." []

/-- `register_exception_handlers`. -/
def registerExceptionHandlers : Handlers where
  app := appExceptionHandler json
  http := httpExceptionHandler json
  other := unhandledExceptionHandler json

/-- The application of `create_app`, around the routes. -/
def createApp (framework : Framework) (env : Env) (cors : CORSMiddleware) (isProduction : Bool)
    (route : Request → Except Escaped Response) : App :=
  framework.serverErrorMiddleware (registerExceptionHandlers json)
    (addMiddlewares env cors isProduction
      (routeApp (framework.exceptionMiddleware (registerExceptionHandlers json) route)))

/-- What the error middleware and those inside it make of the outcome of a route. -/
def Answers (env : Env) (cors : CORSMiddleware) (isProduction : Bool) (request : Request) :
    Except Escaped Response → Response → Prop
  | .error (.other exc), answer => handleError (!isProduction) request exc = .ok answer
  | outcome, answer => ∃ response,
    (registerExceptionHandlers json).handle request outcome = .ok response ∧
      answer = withLoggingHeaders env request (cors.decorate request response)

end

section
variable {json : Value → List UInt8} {framework : Framework} {env : Env} {cors : CORSMiddleware}
  {isProduction : Bool} {route : Request → Except Escaped Response} {request : Request}
  {log : List AuditRecord} {post : Response → List AuditRecord → Prop}

/-- The handlers return: they only read the path again. -/
theorem ExceptionHandlers.errorResponse_ok {path : String} (hurl : request.urlPath = .ok path)
    (statusCode : Nat) (code detail : String) (extra : List (String × Value)) :
    ∃ response, ExceptionHandlers.errorResponse json request statusCode code detail extra =
      .ok response := by
  rw [ExceptionHandlers.errorResponse, hurl]
  exact ⟨_, rfl⟩

/-- The layers from the error middleware inwards, on a request that is no preflight. -/
theorem returns_innerStack_exceptionMiddleware (hframework : FrameworkLaws framework)
    {path : String} (hurl : request.urlPath = .ok path)
    (hpreflight : cors.preflight request = none) :
    Returns (innerStack env cors isProduction
        (routeApp (framework.exceptionMiddleware (registerExceptionHandlers json) route)) request)
        log post ↔
      ∃ response, Answers json env cors isProduction request (route request) response ∧
        post response log := by
  rw [returns_innerStack_routeApp hurl]
  simp only [answer, hpreflight, hframework.handled]
  cases route request with
  | ok response => simp [Except.map, Answers, Handlers.handle]
  | error exc =>
    cases exc with
    | app exc =>
      obtain ⟨response, hok⟩ := @ExceptionHandlers.errorResponse_ok json _ _ hurl
        exc.statusCode exc.code exc.detail exc.extra
      simp [Except.map, Answers, Handlers.handle, registerExceptionHandlers, appExceptionHandler, hok]
    | http statusCode detail =>
      obtain ⟨response, hok⟩ := @ExceptionHandlers.errorResponse_ok json _ _ hurl
        statusCode "HTTP_ERROR" detail []
      simp [Except.map, Answers, Handlers.handle, registerExceptionHandlers, httpExceptionHandler, hok]
    | other exc => simp [Except.map, Answers, Handlers.handle]

/-- There is an answer unless an exception is left that cannot be rendered. -/
theorem exists_answers {path : String} (hurl : request.urlPath = .ok path)
    {outcome : Except Escaped Response}
    (hrender : ∀ exc, outcome = .error (.other exc) → Renderable isProduction exc) :
    ∃ response, Answers json env cors isProduction request outcome response := by
  cases outcome with
  | ok response => exact ⟨_, response, rfl, rfl⟩
  | error exc =>
    cases exc with
    | app exc =>
      obtain ⟨response, hok⟩ := @ExceptionHandlers.errorResponse_ok json _ _ hurl
        exc.statusCode exc.code exc.detail exc.extra
      exact ⟨_, response, hok, rfl⟩
    | http statusCode detail =>
      obtain ⟨response, hok⟩ := @ExceptionHandlers.errorResponse_ok json _ _ hurl
        statusCode "HTTP_ERROR" detail []
      exact ⟨_, response, hok, rfl⟩
    | other exc => exact (handleError_returns_iff hurl).mpr (hrender exc rfl)

/-- **Every request is answered** whose path the middlewares can read and do not exempt, if the
error middleware can render the exception, if any, that no handler takes. -/
theorem returns_createApp (hframework : FrameworkLaws framework) (hguarded : request.Guarded)
    (hpreflight : cors.preflight (received env request) = none)
    (hrender : ∀ exc, route (received env request) = .error (.other exc) →
      Renderable isProduction exc) :
    Returns (createApp json framework env cors isProduction route request) log post ↔
      ∃ response, Answers json env cors isProduction (received env request)
          (route (received env request)) response ∧
        post (outerHeaders env request response)
          (log ++ auditRecords env (received env request) response) := by
  obtain ⟨path, hurl, hpath⟩ := hguarded
  have hreceived : (received env request).urlPath = .ok path :=
    (received_urlPath env request).trans hurl
  have hreturns : ∀ post', Returns (addMiddlewares env cors isProduction (routeApp
      (framework.exceptionMiddleware (registerExceptionHandlers json) route)) request) log post' ↔ _ :=
    fun post' => (returns_addMiddlewares ⟨path, hurl, hpath⟩).trans
      (returns_innerStack_exceptionMiddleware hframework hreceived hpreflight)
  obtain ⟨response, hanswer⟩ := exists_answers hreceived hrender
  obtain ⟨a, log', hok, -⟩ := (hreturns fun _ _ => True).mpr ⟨response, hanswer, trivial⟩
  rw [createApp, returns_of_ok (hframework.passed _ _ _ _ _ _ hok)]
  exact (returns_of_ok hok post).symm.trans (hreturns post)

end

end RagEval.Middleware
