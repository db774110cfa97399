import RagEval.Api.Accountability
import RagEval.Lib.Simulation

/-!
# Nothing tells tenants apart

`app/api/deps/tenant.py` tells a route the tenant of its request, `create_user` stores it, and the
audit log records it. Apart from the logging nothing reads it: the routes of the admin and the auth
router serve the users of all tenants alike, under whatever tenant a request comes.

## Main definitions

- `ServiceState.untenanted` — users and audit records with their tenants forgotten
- `Exchange.Agree` — the same request, up to the tenant that it names
- `Service.replies` — the replies of the routes to a sequence of exchanges

## Main results

- `serve_untenanted` — forgetting the tenants commutes with every request
- `tenant_blind` — runs that differ in tenants at most, go on so
-/

namespace RagEval.Api
open RagEval.Lib RagEval.Core RagEval.Security

def User.untenanted (user : User) : User := { user with tenantId := "" }

def State.untenanted (s : State) : State := ⟨s.users.mapValues User.untenanted, s.created⟩

/-- An audit record with its tenant forgotten. -/
def auditUntenanted (record : Middleware.AuditRecord) : Middleware.AuditRecord :=
  { record with tenantId := none }

def ServiceState.untenanted (s : ServiceState) : ServiceState :=
  ⟨s.state.untenanted, s.log.map auditUntenanted⟩

section
variable {τ : Type}

def Call.untenanted : Call τ → Call τ
  | .createUser request _ uuid createdAt => .createUser request "" uuid createdAt
  | call => call

def HttpRequest.untenanted (request : HttpRequest τ) : HttpRequest τ :=
  { request with route := request.route.forTenant "" }

/-- The same request, up to the tenant that it names. -/
structure Exchange.Agree (e e' : Exchange τ) : Prop where
  env : e.env = e'.env
  route : e.route = e'.route
  now : e.now = e'.now
  method : e.request.method = e'.request.method
  url : e.request.url = e'.request.url
  queryParams : e.request.queryParams = e'.request.queryParams
  client : e.request.client = e'.request.client
  header : ∀ name, Text.lower name ≠ "x-tenant-id" → e.request.header name = e'.request.header name
  userId : e.request.state.userId = e'.request.state.userId

/-- The replies of the routes to a sequence of exchanges. -/
def Service.replies (svc : Service τ) : State → List (Exchange τ) → List (Except Raised (Response τ))
  | _, [] => []
  | s, e :: exchanges => (e.serve svc s).1 :: svc.replies (e.serve svc s).2 exchanges

end

section
variable {τ : Type} {dep : Deployment τ} {texts : Texts}

/-! ## The operations -/

theorem findUser_untenanted (users : UserStore) (username password : String) :
    findUser dep.sha256 (users.mapValues User.untenanted) username password =
      (findUser dep.sha256 users username password).map User.untenanted := by
  rw [findUser, findUser, Dict.values_mapValues, List.find?_map]
  rfl

theorem authenticateUser_untenanted (users : UserStore) (username password : String) :
    authenticateUser dep.settings dep.sha256 (users.mapValues User.untenanted) username password =
      authenticateUser dep.settings dep.sha256 users username password := by
  rw [authenticateUser, authenticateUser, findUser_untenanted, Option.map_map]
  rfl

/-- Forgetting the tenants commutes with the operations on the user store. -/
theorem exec_untenanted (s : State) (call : Call τ) :
    exec dep s.untenanted call.untenanted =
      ((exec dep s call).1, (exec dep s call).2.untenanted) := by
  have hget : ∀ id, s.untenanted.users.get? id = (s.users.get? id).map User.untenanted := fun id =>
    Dict.get?_mapValues _ _ _
  cases call with
  | createUser request tenantId uuid createdAt =>
    have htaken : (s.untenanted.users.values.any fun user => user.username = request.username) =
        s.users.values.any fun user => user.username = request.username := by
      rw [State.untenanted, Dict.values_mapValues, List.any_map]
      rfl
    rw [Call.untenanted, exec, exec, createUser, createUser, htaken]
    split_ifs
    · rfl
    · simp only [State.untenanted, Dict.mapValues_set]
      rfl
  | updateUser userId request =>
    show exec dep s.untenanted (.updateUser userId request) = _
    rw [exec, exec, updateUser, updateUser, hget]
    cases s.users.get? userId with
    | none => rfl
    | some user =>
      simp only [Option.map_some, State.untenanted, Dict.mapValues_set]
      rfl
  | deleteUser userId =>
    have hkeys : s.untenanted.users.keys = s.users.keys := Dict.keys_mapValues _ _
    show exec dep s.untenanted (.deleteUser userId) = _
    rw [exec, exec, deleteUser, deleteUser, hkeys]
    split_ifs
    · simp only [State.untenanted, Dict.mapValues_erase]
    · rfl
  | resetUserPassword userId tempPassword =>
    show exec dep s.untenanted (.resetUserPassword userId tempPassword) = _
    rw [exec, exec, resetUserPassword, resetUserPassword, hget]
    cases s.users.get? userId with
    | none => rfl
    | some user =>
      simp only [Option.map_some, State.untenanted, Dict.mapValues_set]
      rfl
  | login request now =>
    show exec dep s.untenanted (.login request now) = _
    rw [exec, exec, login, login, State.untenanted, authenticateUser_untenanted]
  | refreshToken request now => rfl

theorem listUsers_untenanted (s : State) : listUsers s.untenanted.users = listUsers s.users := by
  rw [listUsers, listUsers, State.untenanted, Dict.values_mapValues, List.map_map]
  rfl

theorem getUser_untenanted (s : State) (userId : String) :
    getUser s.untenanted.users userId = getUser s.users userId := by
  rw [getUser, getUser, State.untenanted, Dict.get?_mapValues]
  cases s.users.get? userId <;> rfl

theorem resetUserTokens_untenanted (s : State) (userId resetTimestamp : String) :
    resetUserTokens s.untenanted.users userId resetTimestamp =
      resetUserTokens s.users userId resetTimestamp := by
  rw [resetUserTokens, resetUserTokens, State.untenanted, Dict.get?_mapValues]
  cases s.users.get? userId <;> rfl

/-! ## Requests -/

theorem HttpRequest.authorize_untenanted (request : HttpRequest τ) :
    request.untenanted.authorize dep = request.authorize dep := by
  obtain ⟨credentials, now, route⟩ := request
  cases route <;> rfl

/-- Forgetting the tenants commutes with every request. -/
theorem serve_untenanted (s : State) (request : HttpRequest τ) :
    serve dep texts s.untenanted request.untenanted =
      ((serve dep texts s request).1, (serve dep texts s request).2.untenanted) := by
  rw [serve, serve, HttpRequest.authorize_untenanted]
  cases request.authorize dep with
  | error exc => rfl
  | ok admitted =>
    show request.untenanted.body dep texts s.untenanted =
      ((request.body dep texts s).1, (request.body dep texts s).2.untenanted)
    have hoperate : ∀ call : Call τ, operate dep s.untenanted call.untenanted =
        ((operate dep s call).1, (operate dep s call).2.untenanted) := by
      intro call
      rw [operate, operate, exec_untenanted]
    obtain ⟨credentials, now, route⟩ := request
    cases route with
    | createUser body tenantId uuid createdAt =>
      exact hoperate (.createUser body tenantId uuid createdAt)
    | updateUser userId body => exact hoperate (.updateUser userId body)
    | deleteUser userId => exact hoperate (.deleteUser userId)
    | resetUserPassword userId tempPassword => exact hoperate (.resetUserPassword userId tempPassword)
    | login body => exact hoperate (.login body now)
    | getToken body => exact hoperate (.login body now)
    | refreshToken body => exact hoperate (.refreshToken body now)
    | listUsers =>
      show (Except.ok (Response.users (listUsers s.untenanted.users)), s.untenanted) = _
      rw [listUsers_untenanted]
      rfl
    | getUser userId =>
      show ((getUser s.untenanted.users userId).map Response.user, s.untenanted) = _
      rw [getUser_untenanted]
      rfl
    | resetUserTokens userId resetTimestamp =>
      show (_, s.untenanted) = _
      simp only [HttpRequest.body, HttpRequest.untenanted, Route.forTenant]
      rw [resetUserTokens_untenanted]
    | getSystemStatus timestamp => rfl
    | triggerMaintenance task => rfl
    | getTokenConfig => rfl
    | adminValidateToken token => rfl
    | validateToken token => rfl
    | getCurrentUserInfo => rfl
    | logout => rfl

end

/-! ## Exchanges -/

section
variable {env : Middleware.Env}

theorem authState_ids (authHeader : String) (state : Middleware.RequestState) :
    (Middleware.authState env authHeader state).requestId = state.requestId ∧
      (Middleware.authState env authHeader state).correlationId = state.correlationId := by
  rw [Middleware.authState]
  split <;> exact ⟨rfl, rfl⟩

theorem authState_userId (authHeader : String) {state state' : Middleware.RequestState}
    (h : state.userId = state'.userId) :
    (Middleware.authState env authHeader state).userId =
      (Middleware.authState env authHeader state').userId := by
  rw [Middleware.authState, Middleware.authState]
  split
  · rfl
  · exact h

theorem authenticated_state {request request' : Middleware.Request}
    (hheader : request.header "Authorization" = request'.header "Authorization")
    (hrequest : request.state.requestId = request'.state.requestId)
    (hcorrelation : request.state.correlationId = request'.state.correlationId)
    (huser : request.state.userId = request'.state.userId) :
    (Middleware.authenticated env request).state.requestId =
        (Middleware.authenticated env request').state.requestId ∧
      (Middleware.authenticated env request).state.correlationId =
        (Middleware.authenticated env request').state.correlationId ∧
      (Middleware.authenticated env request).state.userId =
        (Middleware.authenticated env request').state.userId := by
  rw [Middleware.authenticated, Middleware.authenticated, hheader]
  split_ifs
  · exact ⟨hrequest, hcorrelation, huser⟩
  · refine ⟨?_, ?_, authState_userId _ huser⟩
    · exact (authState_ids _ _).1.trans (hrequest.trans (authState_ids _ _).1.symm)
    · exact (authState_ids _ _).2.trans (hcorrelation.trans (authState_ids _ _).2.symm)

end

section
variable {τ : Type} {svc : Service τ} {e e' : Exchange τ}

theorem Route.forTenant_forTenant (tenantId tenantId' : String) (route : Route τ) :
    (route.forTenant tenantId).forTenant tenantId' = route.forTenant tenantId' := by
  cases route <;> rfl

/-- The routes cannot tell the two requests apart, but for their tenants. -/
theorem Exchange.Agree.httpRequest (h : e.Agree e') :
    (e.httpRequest svc e.received).untenanted = (e'.httpRequest svc e'.received).untenanted := by
  have hheader : e.received.header "Authorization" = e'.received.header "Authorization" := by
    rw [Exchange.received, Exchange.received, received_header, received_header]
    exact h.header _ (by decide)
  rw [Exchange.httpRequest, Exchange.httpRequest, hheader, HttpRequest.untenanted,
    HttpRequest.untenanted, Route.forTenant_forTenant, Route.forTenant_forTenant, h.now, h.route]

theorem Exchange.Agree.received_state (h : e.Agree e') :
    e.received.state.requestId = e'.received.state.requestId ∧
      e.received.state.correlationId = e'.received.state.correlationId ∧
      e.received.state.userId = e'.received.state.userId := by
  rw [Exchange.received, Exchange.received, ← h.env]
  refine authenticated_state (h.header "Authorization" (by decide)) ?_ ?_ h.userId
  · exact congrArg (fun id => some (Middleware.orElse id _)) (h.header "X-Request-ID" (by decide))
  · exact congrArg (fun id => some (Middleware.orElse id _)) (h.header "X-Correlation-ID" (by decide))

/-- Auditing cannot tell them apart either, but for the tenant it records. -/
theorem Exchange.Agree.records (h : e.Agree e')
    (hstatus : e.response.statusCode = e'.response.statusCode) :
    e.records.map auditUntenanted = e'.records.map auditUntenanted := by
  obtain ⟨hrequestId, hcorrelationId, huserId⟩ := h.received_state
  have hreceived : ∀ e : Exchange τ, ∃ state, e.received = e.request.withState state := fun e =>
    received_eq e.env.decoding e.request
  obtain ⟨state, heq⟩ := hreceived e
  obtain ⟨state', heq'⟩ := hreceived e'
  rw [heq, heq'] at hrequestId hcorrelationId huserId
  have hrecord : ∀ statusCode,
      auditUntenanted (Middleware.createAuditRecord e.env.decoding (e.request.withState state)
        statusCode) = auditUntenanted (Middleware.createAuditRecord e'.env.decoding
          (e'.request.withState state') statusCode) := by
    intro statusCode
    have hagent : (e.request.withState state).header "User-Agent" =
        (e'.request.withState state').header "User-Agent" := h.header "User-Agent" (by decide)
    rw [Middleware.createAuditRecord, Middleware.createAuditRecord, auditUntenanted,
      auditUntenanted, hagent, hrequestId, hcorrelationId, huserId, h.env]
    show Middleware.AuditRecord.mk _ e.request.method e.request.url e.request.queryParams
      e.request.client _ _ _ _ _ _ = _
    rw [h.method, h.url, h.queryParams, h.client]
    rfl
  have hmethod : (e.request.withState state).method = (e'.request.withState state').method := h.method
  rw [Exchange.records, Exchange.records, Middleware.auditRecords, Middleware.auditRecords, heq, heq',
    hmethod, hstatus]
  split_ifs
  · rw [List.map_singleton, List.map_singleton, hrecord]
  · rfl

/-! ## Runs -/

theorem Exchange.Agree.serve (h : e.Agree e') (svc : Service τ) {s s' : State}
    (hs : s.untenanted = s'.untenanted) :
    (e.serve svc s).1 = (e'.serve svc s').1 ∧
      (e.serve svc s).2.untenanted = (e'.serve svc s').2.untenanted := by
  have hserve : Api.serve svc.dep svc.texts s.untenanted (e.httpRequest svc e.received).untenanted =
      ((e.serve svc s).1, (e.serve svc s).2.untenanted) := serve_untenanted s _
  rw [hs, h.httpRequest, serve_untenanted] at hserve
  obtain ⟨hreply, hstate⟩ := Prod.mk.inj hserve
  exact ⟨hreply.symm, hstate.symm⟩

theorem Service.replies_eq {exchanges exchanges' : List (Exchange τ)}
    (hsame : List.Forall₂ Exchange.Agree exchanges exchanges') {s s' : State}
    (hs : s.untenanted = s'.untenanted) : svc.replies s exchanges = svc.replies s' exchanges' := by
  induction hsame generalizing s s' with
  | nil => rfl
  | cons hagree hsame ih =>
    obtain ⟨hreply, hstate⟩ := hagree.serve svc hs
    rw [Service.replies, Service.replies, hreply, ih hstate]

/-- One exchange each: the two services answer alike and stay alike. -/
theorem Service.Step.agree (hlaws : svc.Laws) {s s' t t' : ServiceState}
    (hs : s.untenanted = t.untenanted) (hagree : e.Agree e') (h : svc.Step s e s')
    (h' : svc.Step t e' t') :
    e.response.statusCode = e'.response.statusCode ∧ s'.untenanted = t'.untenanted := by
  obtain ⟨hstatus, hstate, hlog⟩ := h.spec hlaws
  obtain ⟨hstatus', hstate', hlog'⟩ := h'.spec hlaws
  obtain ⟨hstart, hstartLog⟩ := ServiceState.mk.inj hs
  obtain ⟨hreply, hend⟩ := hagree.serve svc hstart
  have hsame : e.response.statusCode = e'.response.statusCode := by
    rw [hstatus, hstatus', hreply, hagree.route]
  refine ⟨hsame, ?_⟩
  rw [ServiceState.untenanted, ServiceState.untenanted, hstate, hstate', hlog, hlog', List.map_append,
    List.map_append, hstartLog, hagree.records hsame, hend]

/-- **Nothing tells tenants apart.** Two runs of the service, from users and records that differ
in their tenants at most, of requests that do: every route replies alike, the responses have the
same statuses, and users and records again differ in their tenants at most. -/
theorem tenant_blind (hlaws : svc.Laws) {exchanges exchanges' : List (Exchange τ)}
    {s s' t t' : ServiceState} (h : Run svc.Step s exchanges s') (h' : Run svc.Step t exchanges' t')
    (hstart : s.untenanted = t.untenanted)
    (hsame : List.Forall₂ Exchange.Agree exchanges exchanges') :
    svc.replies s.state exchanges = svc.replies t.state exchanges' ∧
      List.Forall₂ (fun e e' : Exchange τ => e.response.statusCode = e'.response.statusCode)
        exchanges exchanges' ∧
      s'.untenanted = t'.untenanted := by
  refine ⟨Service.replies_eq hsame (ServiceState.mk.inj hstart).1, ?_⟩
  refine Run.lockstep (R := fun s t : ServiceState => s.untenanted = t.untenanted)
    ?_ h h' hstart hsame
  exact fun hs hagree hleft hright => Service.Step.agree hlaws hs hagree hleft hright

end

/-! ## Two tenants of a small service -/

namespace Demo

/-- The administrator creates Alice for a tenant. -/
def createAliceFor (tenantId : String) (response : Middleware.Response) : Exchange SignedToken :=
  let exchange := createAliceOverHttp response
  { exchange with request :=
      { exchange.request with
        headers := [("authorization", "Bearer " ++ adminText), ("x-tenant-id", tenantId)] } }

theorem createAliceFor_agree (tenantId tenantId' : String) (response response' : Middleware.Response) :
    (createAliceFor tenantId response).Agree (createAliceFor tenantId' response') where
  env := rfl
  route := rfl
  now := rfl
  method := rfl
  url := rfl
  queryParams := rfl
  client := rfl
  userId := rfl
  header name hname := by
    have hheader : ∀ tenantId response, (createAliceFor tenantId response).request.header name =
        if "authorization" = Text.lower name then some ("Bearer " ++ adminText) else none := by
      intro tenantId response
      show Option.map _ (List.find? _ [_, _]) = _
      by_cases hauth : "authorization" = Text.lower name
      · rw [if_pos hauth, List.find?_cons_of_pos (by exact decide_eq_true hauth)]
        rfl
      · rw [if_neg hauth, List.find?_cons_of_neg (by simpa using hauth),
          List.find?_cons_of_neg (by simpa using Ne.symm hname)]
        rfl
    rw [hheader, hheader]

end Demo

open Demo in
/-- Creating Alice for the one tenant or for the other. -/
theorem tenant_blind_alice :
    ∃ response response' s s',
      Run service.Step ⟨State.init, []⟩ [createAliceFor "acme" response] s ∧
      Run service.Step ⟨State.init, []⟩ [createAliceFor "globex" response'] s' ∧
      response.statusCode = response'.statusCode ∧ s.untenanted = s'.untenanted := by
  obtain ⟨response, s, hstep⟩ := service.exists_step laws_service ⟨State.init, []⟩
    (e := createAliceFor "acme" ⟨201, [], .bytes []⟩) (Exchange.routed_of_urlPath rfl rfl rfl)
  obtain ⟨response', s', hstep'⟩ := service.exists_step laws_service ⟨State.init, []⟩
    (e := createAliceFor "globex" ⟨201, [], .bytes []⟩) (Exchange.routed_of_urlPath rfl rfl rfl)
  have hrun : Run service.Step ⟨State.init, []⟩ [createAliceFor "acme" response] s := .single hstep
  have hrun' : Run service.Step ⟨State.init, []⟩ [createAliceFor "globex" response'] s' :=
    .single hstep'
  obtain ⟨-, hstatus, hend⟩ := tenant_blind laws_service hrun hrun' rfl
    (.cons (createAliceFor_agree "acme" "globex" response response') .nil)
  cases hstatus with
  | cons hstatus _ => exact ⟨response, response', s, s', hrun, hrun', hstatus, hend⟩

end RagEval.Api
