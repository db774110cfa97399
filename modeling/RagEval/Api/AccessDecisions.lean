import RagEval.Api.HandledReplies
import RagEval.Api.Accountability

/-!
# The status tells the decision

The guards of the routes seen from outside: what a client reads off the status of a response, after
every middleware and every handler. A guard answers 401 or 403, and once it has let a request
through, nothing behind it does.

## Main definitions

- `HttpSession`, `Service.ClientStep` — a running service with what it has issued, and an exchange
  with a client that forges no token
- `Exchange.Verified`, `Exchange.Granted` — what the `Authorization` header of a request is worth

## Main result

- `statuses_decide` — on guarded routes the status tells what the header was worth
-/

namespace RagEval.Api
open RagEval.Lib RagEval.Lib.Outcome RagEval.Core RagEval.Security

/-! ## Sessions -/

/-- The service and what it has issued, latest first. -/
structure HttpSession (τ : Type) where
  service : ServiceState
  issues : List (Issue τ)

section
variable {τ : Type}

def HttpSession.init : HttpSession τ := ⟨⟨State.init, []⟩, []⟩

/-- The session behind the middlewares. -/
def HttpSession.session (s : HttpSession τ) : Session τ := ⟨s.service.state, s.issues⟩

variable (svc : Service τ)

/-- The event of the routes in an exchange. -/
def Exchange.httpEvent (e : Exchange τ) (s : State) : HttpEvent τ :=
  ⟨e.httpRequest svc e.received, (e.serve svc s).1⟩

/-- An exchange with a client that forges no token. -/
structure Service.ClientStep (s : HttpSession τ) (e : Exchange τ) (s' : HttpSession τ) : Prop where
  step : svc.Step s.service e s'.service
  client : Api.ClientStep svc.dep svc.texts s.session (e.httpEvent svc s.service.state) s'.session

/-- The header holds a token that decodes at the moment of the request. -/
def Exchange.Verified (e : Exchange τ) : Prop :=
  ∃ text claims, svc.httpBearer (e.request.header "Authorization") = some text ∧
    decodeToken svc.dep.jwt svc.dep.settings (svc.parse text) e.now = .ok claims

/-- The header holds an issued access token that decodes, and whose origin has the permission. -/
def Exchange.Granted (e : Exchange τ) (issues : List (Issue τ)) (permission : String) : Prop :=
  ∃ text, svc.httpBearer (e.request.header "Authorization") = some text ∧
    ∃ i ∈ issues, svc.parse text = i.response.accessToken ∧
      (∃ claims, decodeToken svc.dep.jwt svc.dep.settings (svc.parse text) e.now = .ok claims) ∧
      i.origin.grants permission = true

end

section
variable {τ : Type} {svc : Service τ}

/-! ## One exchange -/

theorem Route.required_forTenant (tenantId : String) (route : Route τ) :
    (route.forTenant tenantId).required = route.required := by
  cases route <;> rfl

/-- Behind a guard nothing is answered with the statuses of guards. -/
theorem Route.statusOf_mem {route : Route τ} {reply : Except Raised (Response τ)}
    (h : Within Answerable reply) : route.statusOf reply ∈ [200, 201, 204, 400, 404, 409] := by
  cases reply with
  | ok response => cases route <;> simp [Route.statusOf, Route.statusCode]
  | error exc =>
    obtain ⟨statusCode, detail, headers, rfl, hstatus⟩ := h exc rfl
    exact List.mem_append_right [200, 201, 204] hstatus

theorem Exchange.httpRequest_credentials (e : Exchange τ) :
    (e.httpRequest svc e.received).credentials =
      (svc.httpBearer (e.request.header "Authorization")).map svc.parse := by
  show (svc.httpBearer (e.received.header "Authorization")).map svc.parse = _
  rw [Exchange.received, received_header]

theorem Exchange.verified_iff (e : Exchange τ) :
    (e.httpRequest svc e.received).Verified svc.dep ↔ e.Verified svc := by
  rw [HttpRequest.Verified, Exchange.httpRequest_credentials]
  constructor
  · rintro ⟨token, claims, hcred, hdecode⟩
    obtain ⟨text, htext, rfl⟩ := Option.map_eq_some_iff.mp hcred
    exact ⟨text, claims, htext, hdecode⟩
  · rintro ⟨text, claims, htext, hdecode⟩
    exact ⟨svc.parse text, claims, by rw [htext, Option.map_some], hdecode⟩

/-- A guard of the service, told from the outside. -/
theorem Exchange.authorize_iff (hjwt : RoundTrips svc.dep.jwt svc.dep.settings)
    {issues : List (Issue τ)} (hsound : ∀ i ∈ issues, i.Sound svc.dep) {e : Exchange τ}
    (hunforged : Unforged svc.dep issues (e.httpRequest svc e.received)) {permission : String}
    (hrequired : (e.httpRequest svc e.received).route.required = some permission) :
    (e.httpRequest svc e.received).authorize svc.dep = .ok () ↔
      e.Granted svc issues permission := by
  rw [HttpRequest.authorize_ok_iff_issued hjwt hsound hunforged hrequired,
    Exchange.httpRequest_credentials]
  constructor
  · rintro ⟨i, hi, hcred, hdecode, hgrants⟩
    obtain ⟨text, htext, hparse⟩ := Option.map_eq_some_iff.mp hcred
    exact ⟨text, htext, i, hi, hparse, by rw [hparse]; exact hdecode, hgrants⟩
  · rintro ⟨text, htext, i, hi, hparse, hdecode, hgrants⟩
    refine ⟨i, hi, by rw [htext, Option.map_some, hparse], ?_, hgrants⟩
    rw [← hparse]
    exact hdecode

/-! ## Runs -/

/-- The routes behind the middlewares run as they do without them. -/
theorem Service.ClientStep.run {exchanges : List (Exchange τ)} {s s' : HttpSession τ}
    (h : Run svc.ClientStep s exchanges s') :
    ∃ events, Run (Api.ClientStep svc.dep svc.texts) s.session events s'.session := by
  induction h with
  | nil s => exact ⟨[], .nil s.session⟩
  | cons head tail ih =>
    obtain ⟨events, hevents⟩ := ih
    exact ⟨_ :: events, .cons head.client hevents⟩

/-- **The status tells the decision.** After every run of the service with clients that forge no
token, on a route that requires a permission: 401 says that the request bore no token that decodes,
403 that it bore one that gives no access, and every other status that it bore an access token
issued to somebody who has the permission. Without one nothing changes. -/
theorem statuses_decide (hlaws : svc.Laws) (hjwt : RoundTrips svc.dep.jwt svc.dep.settings)
    {exchanges : List (Exchange τ)} {s s' : HttpSession τ} {e : Exchange τ} {permission : String}
    (h : Run svc.ClientStep HttpSession.init exchanges s) (hstep : svc.ClientStep s e s')
    (hrequired : e.route.required = some permission) :
    (e.response.statusCode = 401 ↔ ¬e.Verified svc) ∧
      (e.response.statusCode = 403 ↔
        e.Verified svc ∧ ¬e.Granted svc s.issues permission) ∧
      (e.response.statusCode ∈ [200, 201, 204, 400, 404, 409] ↔
        e.Granted svc s.issues permission) ∧
      (¬e.Granted svc s.issues permission → s'.service.state = s.service.state) := by
  obtain ⟨events, hrun⟩ := Service.ClientStep.run h
  have hsound : ∀ i ∈ s.issues, i.Sound svc.dep := ClientStep.sound_of_run hrun
  have hunforged : Unforged svc.dep s.issues (e.httpRequest svc e.received) := hstep.client.unforged
  have hguarded : (e.httpRequest svc e.received).route.required = some permission :=
    (Route.required_forTenant _ _).trans hrequired
  have hguard : (e.httpRequest svc e.received).authorize svc.dep = .ok () ↔
      e.Granted svc s.issues permission := Exchange.authorize_iff hjwt hsound hunforged hguarded
  obtain ⟨hstatus, hstate, -⟩ := hstep.step.spec hlaws
  rw [← e.verified_iff, ← hguard, hstatus, hstate, Exchange.serve, serve]
  obtain ⟨hverified, detail, hauth⟩ | ⟨hverified, hauth⟩ | ⟨hverified, hauth⟩ :=
    HttpRequest.authorize_cases hjwt hsound hunforged hguarded
  · simp [hauth, hverified, unauthorized, Route.statusOf]
  · simp [hauth, hverified, Route.statusOf]
  · have hmem : e.route.statusOf ((e.httpRequest svc e.received).body svc.dep svc.texts
        s.service.state).1 ∈ [200, 201, 204, 400, 404, 409] :=
      Route.statusOf_mem (within_body_of_required hguarded hverified s.service.state)
    have hne : ∀ statusCode ∈ [401, 403], e.route.statusOf ((e.httpRequest svc e.received).body
        svc.dep svc.texts s.service.state).1 ≠ statusCode := by
      rintro statusCode hcode rfl
      simp only [List.mem_cons, List.not_mem_nil, or_false] at hmem hcode
      omega
    simp only [hauth, hmem, hverified, hne 401 (by simp), hne 403 (by simp)]
    simp

end

/-! ## The administrator of a small service -/

namespace Demo

/-- The administrator of the environment logs in. -/
def loginOverHttp (response : Middleware.Response) : Exchange SignedToken where
  env := Middleware.demoEnv
  request :=
    { method := "POST"
      url := "http://testserver/api/auth/login"
      path := "/api/auth/login" }
  route := .login ⟨"admin", "admin"⟩
  now := 0
  response := response

theorem httpRequest_loginOverHttp (response : Middleware.Response) :
    (loginOverHttp response).httpRequest service (loginOverHttp response).received =
      adminLogin.request := by
  have hheader : (loginOverHttp response).received.header "Authorization" = none :=
    (received_header _ _ _).trans rfl
  rw [Exchange.httpRequest, hheader]
  rfl

theorem serve_loginOverHttp (response : Middleware.Response) :
    (loginOverHttp response).serve service State.init = (adminLogin.reply, State.init) := by
  rw [Exchange.serve, httpRequest_loginOverHttp]
  exact adminLogin_step

theorem granted_createAliceOverHttp (response : Middleware.Response) :
    (createAliceOverHttp response).Granted service [⟨.envAdmin, adminTokens⟩] "admin:write" := by
  refine ⟨adminText, readsBearer_splitBearer.bearer adminText_ne_empty, _, List.mem_singleton_self _,
    parse_adminText, ?_, by decide⟩
  rw [parse_adminText]
  exact ⟨_, rfl⟩

end Demo

open Demo in
/-- The administrator of the environment logs in and is let through to create Alice. -/
theorem statuses_decide_alice :
    ∃ login response s s',
      Run service.ClientStep HttpSession.init [loginOverHttp login] s ∧
      service.ClientStep s (createAliceOverHttp response) s' ∧
      response.statusCode ∈ [200, 201, 204, 400, 404, 409] := by
  obtain ⟨login, t, hlogin⟩ := service.exists_step laws_service ⟨State.init, []⟩
    (e := loginOverHttp ⟨200, [], .bytes []⟩) (Exchange.routed_of_urlPath rfl rfl rfl)
  have hstate : t.state = ((loginOverHttp login).serve service State.init).2 := hlogin.state
  have hfirst : service.ClientStep HttpSession.init (loginOverHttp login)
      ⟨t, [⟨.envAdmin, adminTokens⟩]⟩ := by
    refine ⟨hlogin, ?_⟩
    show ClientStep _ _ ⟨State.init, []⟩ ((loginOverHttp login).httpEvent service State.init)
      ⟨t.state, _⟩
    rw [hstate, Exchange.httpEvent, httpRequest_loginOverHttp, serve_loginOverHttp]
    exact adminLogin_clientStep
  obtain ⟨response, t', hcreate⟩ := service.exists_step laws_service t
    (e := createAliceOverHttp ⟨201, [], .bytes []⟩) (Exchange.routed_of_urlPath rfl rfl rfl)
  have hstate' : t'.state = ((createAliceOverHttp response).serve service t.state).2 := hcreate.state
  rw [serve_loginOverHttp] at hstate
  have hsecond : service.ClientStep ⟨t, [⟨.envAdmin, adminTokens⟩]⟩ (createAliceOverHttp response)
      ⟨t', [⟨.envAdmin, adminTokens⟩]⟩ := by
    refine ⟨hcreate, ?_⟩
    show ClientStep _ _ ⟨t.state, _⟩ ((createAliceOverHttp response).httpEvent service t.state)
      ⟨t'.state, _⟩
    rw [hstate', Exchange.httpEvent, hstate, httpRequest_createAliceOverHttp,
      serve_createAliceOverHttp]
    refine ⟨rfl, ?_, rfl⟩
    rintro token (hcred | hroute) -
    · exact ⟨_, List.mem_singleton_self _, .inl (Option.some.inj hcred).symm⟩
    · cases hroute
  have hrun : Run service.ClientStep HttpSession.init [loginOverHttp login]
      ⟨t, [⟨.envAdmin, adminTokens⟩]⟩ := .single hfirst
  obtain ⟨-, -, hadmitted, -⟩ := statuses_decide laws_service roundTrips hrun hsecond rfl
  exact ⟨login, response, _, _, hrun, hsecond, hadmitted.mpr (granted_createAliceOverHttp response)⟩

end RagEval.Api
