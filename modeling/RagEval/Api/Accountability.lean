import RagEval.Api.Authority
import RagEval.Api.Service

/-!
# Every change of a user is on record

The audit log of the service against its user store. Auditing sits outside of the routes and
knows neither the store nor the check of permissions, and it takes the user from a token that it
does not verify; that it nevertheless records every change, with the bearer that was verified, is
a property of all layers together.

## Main definitions

- `Service.ReadsPayload` — the middleware reads the claims that verification reads
- `Exchange.AccountsFor` — an audit record tells of a change of a user

## Main result

- `changes_accounted` — for every change in a run there is a record, and a new user belongs to the
  tenant that the record of its creation names
-/

namespace RagEval.Api
open RagEval.Lib RagEval.Core RagEval.Security

/-- The user whose record a call writes. -/
def Call.writes {τ : Type} : Call τ → Option String
  | .createUser _ _ uuid _ => some uuid.str
  | .updateUser userId _ => some userId
  | .deleteUser userId => some userId
  | .resetUserPassword userId _ => some userId
  | _ => none

/-- The user whose record a route writes. -/
def Route.writes {τ : Type} : Route τ → Option String
  | .createUser _ _ uuid _ => some uuid.str
  | .updateUser userId _ => some userId
  | .deleteUser userId => some userId
  | .resetUserPassword userId _ => some userId
  | _ => none

section
variable {τ : Type} (svc : Service τ)

/-- The payload of a token that verification accepts is what the middleware reads of it. -/
def Service.ReadsPayload : Prop :=
  ∀ (env : Middleware.Env) text now claims,
    decodeToken svc.dep.jwt svc.dep.settings (svc.parse text) now = .ok claims →
      Middleware.extractUserFromToken env.decoding ("Bearer " ++ text) = some (.dict claims.items)

/-- The record tells of a change that the exchange made to the record of a user: what was
requested, of which tenant, and, if the scheme of the credentials is spelled as the middleware
expects it, who was verified. -/
structure Exchange.AccountsFor (e : Exchange τ) (userId : String)
    (record : Middleware.AuditRecord) : Prop where
  writes : e.route.writes = some userId
  method : record.method = e.route.method
  path : record.path = e.request.url
  statusCode : record.statusCode = e.route.statusCode
  tenantId : record.tenantId = some (Middleware.resolvedTenant "default" e.request)
  bearer : ∃ text claims, svc.httpBearer (e.request.header "Authorization") = some text ∧
    decodeToken svc.dep.jwt svc.dep.settings (svc.parse text) e.now = .ok claims ∧
    (BearerUser.ofPayload claims).hasPermission "admin:write" = .ok true ∧
    record.userId = if e.request.header "Authorization" = some ("Bearer " ++ text) then
      claims.getD "sub" .none else e.request.state.userId

end

/-! ## The user in the state of a request -/

theorem ReadsBearer.bearer {httpBearer : Option String → Option String} (h : ReadsBearer httpBearer)
    {text : String} (hne : text ≠ "") : httpBearer (some ("Bearer " ++ text)) = some text :=
  (h _ _).mpr ⟨"Bearer", rfl, by decide, by decide, hne⟩

/-- The header is spelled as the middleware expects it, or the middleware reads nothing. -/
theorem ReadsBearer.eq_or_not_startswith {httpBearer : Option String → Option String}
    (h : ReadsBearer httpBearer) {header text : String} (hread : httpBearer (some header) = some text) :
    header = "Bearer " ++ text ∨ Text.startswith header "Bearer " = false := by
  cases hstarts : Text.startswith header "Bearer " with
  | false => exact .inr rfl
  | true =>
    obtain ⟨t, rfl⟩ := (Text.startswith_iff _ _).mp hstarts
    obtain ⟨scheme, heq, hscheme, -⟩ := (h _ _).mp hread
    -- both split the header at its first blank
    have hchars : "Bearer".toList ++ ' ' :: t.toList = scheme.toList ++ ' ' :: text.toList := by
      have hlist := congrArg String.toList (Option.some.inj heq)
      simpa [String.toList_append] using hlist
    have hblank : ∀ c ∈ scheme.toList, c ≠ ' ' := fun c hc h => hscheme (h ▸ hc)
    have hrest := congrArg (List.dropWhile (· ≠ ' ')) hchars
    rw [Double.dropWhile_append_cons (by simp), Double.dropWhile_append_cons hblank] at hrest
    left
    rw [String.toList_inj.mp (List.cons.inj hrest).2]

theorem received_userId (env : Middleware.Env) {request : Middleware.Request} {header : String}
    (h : request.header "Authorization" = some header) (hne : header ≠ "") :
    (Middleware.received env request).state.userId =
      match Middleware.extractUserFromToken env header with
      | some (.dict (kv :: kvs)) => (Assoc.get "sub" (kv :: kvs)).getD .none
      | _ => request.state.userId := by
  obtain ⟨ids, hids, huser⟩ : ∃ ids,
      Middleware.identified env request = Middleware.authenticated env (request.withState ids) ∧
        ids.userId = request.state.userId := ⟨_, rfl, rfl⟩
  have hheader : Middleware.orElse ((request.withState ids).header "Authorization") "" = header := by
    show Middleware.orElse (request.header "Authorization") "" = header
    rw [h]
    exact if_neg hne
  show (Middleware.identified env request).state.userId = _
  rw [hids, Middleware.authenticated, hheader, if_neg hne]
  show (Middleware.authState env header ids).userId = _
  rw [← huser]
  rw [Middleware.authState]
  -- a payload that is no object, or an empty one, says nothing
  cases Middleware.extractUserFromToken env header with
  | none => rfl
  | some payload =>
    cases payload with
    | dict kvs => cases kvs <;> rfl
    | _ => rfl

section
variable {τ : Type} {svc : Service τ}

/-- An audit record names the verified user exactly if the scheme is spelled `Bearer`. -/
theorem received_userId_of_decode (hlaws : svc.Laws) (hreads : svc.ReadsPayload)
    (env : Middleware.Env)
    {request : Middleware.Request} {text : String} {now : Nat} {claims : Dict String Value}
    (hbearer : svc.httpBearer (request.header "Authorization") = some text)
    (hdecode : decodeToken svc.dep.jwt svc.dep.settings (svc.parse text) now = .ok claims)
    (hne : claims.items ≠ []) :
    (Middleware.received env.decoding request).state.userId =
      if request.header "Authorization" = some ("Bearer " ++ text) then claims.getD "sub" .none
      else request.state.userId := by
  obtain ⟨scheme, hheader, -, -, htext⟩ := (hlaws.httpBearer _ _).mp hbearer
  generalize hwhole : scheme ++ " " ++ text = header at hheader
  have hempty : header ≠ "" := by
    rintro rfl
    simp at hwhole
  rw [hheader] at hbearer
  rw [received_userId _ hheader hempty, hheader]
  rcases hlaws.httpBearer.eq_or_not_startswith hbearer with rfl | hstarts
  · obtain ⟨kv, kvs, hitems⟩ := List.exists_cons_of_ne_nil hne
    rw [hreads env text now claims hdecode, hitems, if_pos rfl]
    show (Assoc.get "sub" (kv :: kvs)).getD .none = _
    rw [← hitems]
    rfl
  · have hother : some header ≠ some ("Bearer " ++ text) := by
      intro h
      rw [Option.some.inj h, (Text.startswith_iff _ _).mpr ⟨text, rfl⟩] at hstarts
      cases hstarts
    rw [if_neg hother, Middleware.extractUserFromToken, hstarts]
    rfl

theorem items_ne_nil_of_hasPermission {claims : Dict String Value} {permission : String}
    (h : (BearerUser.ofPayload claims).hasPermission permission = .ok true) : claims.items ≠ [] := by
  intro hempty
  obtain rfl : claims = Dict.empty := Dict.ext_items hempty
  cases h

/-! ## One exchange -/

theorem Route.writes_forTenant (tenantId : String) (route : Route τ) :
    (route.forTenant tenantId).writes = route.writes := by
  cases route <;> rfl

theorem HttpRequest.writes_of_operation {request : HttpRequest τ} {call : Call τ}
    (h : request.operation = some call) : request.route.writes = call.writes := by
  obtain ⟨credentials, now, route⟩ := request
  cases route <;> simp only [HttpRequest.operation, Option.some.injEq, reduceCtorEq] at h <;>
    subst h <;> rfl

/-- A step changes the record of a user only if it is a call that writes it and returns. -/
theorem Step.writes {dep : Deployment τ} {s s' : State} {call : Call τ}
    {reply : Except Raised (Reply τ)} (h : Step dep s ⟨call, reply⟩ s') {userId : String}
    (hne : s.users.get? userId ≠ s'.users.get? userId) :
    call.writes = some userId ∧ ∃ r, reply = .ok r := by
  have hset : ∀ id (user : User), s.users.get? userId ≠ (s.users.set id user).get? userId →
      some id = some userId := by
    intro id user hne
    by_contra hid
    rw [Dict.get?_set, if_neg fun h => hid (congrArg some h)] at hne
    exact hne rfl
  cases h.effect with
  | rejected call exc => exact absurd rfl hne
  | created request tenantId uuid createdAt user => exact ⟨hset _ _ hne, _, rfl⟩
  | updated id request user hget => exact ⟨hset _ _ hne, _, rfl⟩
  | reset id tempPassword user user' body hget => exact ⟨hset _ _ hne, _, rfl⟩
  | deleted id user hget =>
    refine ⟨?_, _, rfl⟩
    by_contra hid
    apply hne
    rw [Dict.get?_erase, if_neg fun h => hid (congrArg some h)]
  | loggedIn => exact absurd rfl hne
  | refreshed => exact absurd rfl hne

/-- The tenant of a stored user is that of the record before, or the call has created the user for
this tenant. -/
theorem Step.tenantId {dep : Deployment τ} {s s' : State} {call : Call τ}
    {reply : Except Raised (Reply τ)} (h : Step dep s ⟨call, reply⟩ s') {userId : String}
    {user : User} (hget : s'.users.get? userId = some user) :
    (∃ old, s.users.get? userId = some old ∧ old.tenantId = user.tenantId) ∨
      ∃ request uuid createdAt, call = .createUser request user.tenantId uuid createdAt := by
  have he : exec dep s call = (reply, s') := h
  have hset : ∀ {id : String} {old : User} (changed : User), s.users.get? id = some old →
      (s.users.set id changed).get? userId = some user → changed.tenantId = old.tenantId →
      ∃ old, s.users.get? userId = some old ∧ old.tenantId = user.tenantId := by
    intro id old changed hold hget htenant
    obtain ⟨rfl, rfl⟩ | ⟨-, hget⟩ := Dict.get?_set_cases hget
    · exact ⟨old, hold, htenant.symm⟩
    · exact ⟨user, hget, rfl⟩
  cases call with
  | createUser request tenantId uuid createdAt =>
    rw [exec, createUser] at he
    split_ifs at he with htaken
    · cases he
      exact .inl ⟨user, hget, rfl⟩
    · cases he
      obtain ⟨rfl, rfl⟩ | ⟨-, hget⟩ := Dict.get?_set_cases hget
      · exact .inr ⟨request, uuid, createdAt, rfl⟩
      · exact .inl ⟨user, hget, rfl⟩
  | updateUser id request =>
    rw [exec, updateUser] at he
    cases hold : s.users.get? id with
    | none =>
      rw [hold] at he
      cases he
      exact .inl ⟨user, hget, rfl⟩
    | some old =>
      rw [hold] at he
      cases he
      exact .inl (hset _ hold hget rfl)
  | deleteUser id =>
    rw [exec, deleteUser] at he
    split_ifs at he with hmem
    · cases he
      exact .inl ⟨user, Dict.get?_of_get?_erase hget, rfl⟩
    · cases he
      exact .inl ⟨user, hget, rfl⟩
  | resetUserPassword id tempPassword =>
    rw [exec, resetUserPassword] at he
    cases hold : s.users.get? id with
    | none =>
      rw [hold] at he
      cases he
      exact .inl ⟨user, hget, rfl⟩
    | some old =>
      rw [hold] at he
      cases he
      exact .inl (hset _ hold hget rfl)
  | login request now =>
    cases he
    exact .inl ⟨user, hget, rfl⟩
  | refreshToken request now =>
    cases he
    exact .inl ⟨user, hget, rfl⟩

/-! ## Exchanges -/

/-- What the route of an exchange does to the record of a user. -/
theorem Exchange.serve_of_change {e : Exchange τ} {s : State} {userId : String}
    (hne : s.users.get? userId ≠ (e.serve svc s).2.users.get? userId) :
    ∃ call r, e.route.writes = some userId ∧ call.writes = some userId ∧
      (e.httpRequest svc e.received).operation = some call ∧
      (e.httpRequest svc e.received).authorize svc.dep = .ok () ∧
      (e.serve svc s).1 = .ok r ∧ ∃ reply, Step svc.dep s ⟨call, reply⟩ (e.serve svc s).2 := by
  have hstep : HttpStep svc.dep svc.texts s ⟨e.httpRequest svc e.received, (e.serve svc s).1⟩
      (e.serve svc s).2 := rfl
  generalize htarget : (e.serve svc s).2 = t at hstep hne
  cases hstep.served with
  | refused => exact absurd rfl hne
  | read => exact absurd rfl hne
  | operation call reply _ hadmitted hcall hsome hstep' =>
    obtain ⟨hwrites, r, rfl⟩ := hstep'.writes hne
    have hroute := HttpRequest.writes_of_operation hcall
    rw [show (e.httpRequest svc e.received).route = e.route.forTenant _ from rfl,
      Route.writes_forTenant, hwrites] at hroute
    have hreply : (e.serve svc s).1 = .ok (.operation r) := by
      rw [Exchange.serve, Api.serve, hadmitted]
      show ((e.httpRequest svc e.received).body svc.dep svc.texts s).1 = _
      rw [HttpRequest.body_of_operation hcall, operate, show exec svc.dep s call = _ from hstep']
      rfl
    exact ⟨call, _, hroute, hwrites, hcall, hadmitted, hreply, _, hstep'⟩

theorem Route.method_of_writes {route : Route τ} {userId : String}
    (h : route.writes = some userId) : route.method ∈ Middleware.auditMethods := by
  cases route <;> first | (cases h; done) | simp [Route.method, Middleware.auditMethods]

theorem Call.not_public_of_writes {call : Call τ} {userId : String}
    (h : call.writes = some userId) : ¬call.Public := by
  cases call <;> first | exact id | cases h

/-- A change of a user leaves a record of it. -/
theorem Service.Step.accountsFor (hlaws : svc.Laws) (hreads : svc.ReadsPayload)
    {s s' : ServiceState} {e : Exchange τ} (h : svc.Step s e s') {userId : String}
    (hne : s.state.users.get? userId ≠ s'.state.users.get? userId) :
    ∃ record ∈ e.records, e.AccountsFor svc userId record := by
  obtain ⟨hstatus, hstate, -⟩ := h.spec hlaws
  rw [hstate] at hne
  obtain ⟨call, r, hwrites, hcallWrites, hcall, hadmitted, hreply, -⟩ := Exchange.serve_of_change hne
  rw [hreply] at hstatus
  have hmethod : e.received.method = e.route.method :=
    (Middleware.received_method _ _).trans h.routed.method
  have hrecords : e.records =
      [Middleware.createAuditRecord e.env.decoding e.received e.response.statusCode] := by
    rw [Exchange.records, Middleware.auditRecords, hmethod]
    exact if_pos (Route.method_of_writes hwrites)
  have hrequired : (e.httpRequest svc e.received).route.required = some "admin:write" :=
    HttpRequest.required_of_operation hcall (Call.not_public_of_writes hcallWrites)
  obtain ⟨token, claims, hcred, hdecode, hheld⟩ :=
    (HttpRequest.authorize_ok_iff hrequired).mp hadmitted
  obtain ⟨text, hbearer, rfl⟩ := Option.map_eq_some_iff.mp hcred
  have hheader : e.received.header "Authorization" = e.request.header "Authorization" :=
    received_header _ _ _
  rw [hheader] at hbearer
  have huser := received_userId_of_decode hlaws hreads e.env hbearer hdecode
    (items_ne_nil_of_hasPermission hheld)
  refine ⟨_, by rw [hrecords]; exact List.mem_singleton_self _, ?_⟩
  exact ⟨hwrites, hmethod, received_url _ _, hstatus, rfl, text, claims, hbearer, hdecode, hheld, huser⟩

theorem Exchange.of_createUser {e : Exchange τ} {request : CreateUserRequest} {tenantId : String}
    {uuid : UUID4} {createdAt : String} (h : (e.httpRequest svc e.received).operation =
      some (.createUser request tenantId uuid createdAt)) :
    e.route.statusCode = 201 ∧ tenantId = getTenantId svc.defaultTenantId e.received := by
  rw [HttpRequest.operation] at h
  generalize e.received = received at h ⊢
  obtain ⟨env, request', route, now, response⟩ := e
  cases route with
  | createUser =>
    cases h
    exact ⟨rfl, rfl⟩
  | _ => cases h

/-- A user is created for the tenant of the request. -/
theorem Service.Step.created (hlaws : svc.Laws) (hreads : svc.ReadsPayload)
    {s s' : ServiceState} {e : Exchange τ} (h : svc.Step s e s') {userId tenantId : String}
    (hbefore : ¬∃ user, s.state.users.get? userId = some user ∧ user.tenantId = tenantId)
    (hafter : ∃ user, s'.state.users.get? userId = some user ∧ user.tenantId = tenantId) :
    ∃ record ∈ e.records, e.AccountsFor svc userId record ∧ record.statusCode = 201 ∧
      record.tenantId = some tenantId := by
  obtain ⟨user, hget, rfl⟩ := hafter
  have hne : s.state.users.get? userId ≠ s'.state.users.get? userId := by
    intro hsame
    exact hbefore ⟨user, hsame.trans hget, rfl⟩
  obtain ⟨record, hrecord, haccounts⟩ := h.accountsFor hlaws hreads hne
  obtain ⟨-, hstate, -⟩ := h.spec hlaws
  rw [hstate] at hne hget
  obtain ⟨call, r, hwrites, -, hcall, -, -, reply, hstep⟩ := Exchange.serve_of_change hne
  obtain hold | ⟨request, uuid, createdAt, rfl⟩ := hstep.tenantId hget
  · exact absurd hold hbefore
  · obtain ⟨hcreated, htenant⟩ := Exchange.of_createUser hcall
    refine ⟨record, hrecord, haccounts, haccounts.statusCode.trans hcreated, ?_⟩
    rw [haccounts.tenantId, htenant]
    exact congrArg some (getTenantId_received _ _ _).symm

/-- **Every change is accounted for.** In every run of the service the audit log grows by the
records of the exchanges. For every user whose record differs after the run there is one of a
request for the change, which bore a verified token with `admin:write`; and a user that is new
belongs to the tenant that the record of the creation names. -/
theorem changes_accounted (hlaws : svc.Laws) (hreads : svc.ReadsPayload)
    {exchanges : List (Exchange τ)} {s s' : ServiceState} (h : Run svc.Step s exchanges s') :
    s'.log = s.log ++ exchanges.flatMap Exchange.records ∧ ∀ userId,
      (s.state.users.get? userId ≠ s'.state.users.get? userId →
        ∃ e ∈ exchanges, ∃ record ∈ e.records, e.AccountsFor svc userId record) ∧
      ∀ user, s.state.users.get? userId = none → s'.state.users.get? userId = some user →
        ∃ e ∈ exchanges, ∃ record ∈ e.records, e.AccountsFor svc userId record ∧
          record.statusCode = 201 ∧ record.tenantId = some user.tenantId := by
  refine ⟨?_, fun userId => ⟨fun hne => ?_, fun user hnone hsome => ?_⟩⟩
  · induction h with
    | nil s => exact (List.append_nil _).symm
    | cons head tail ih => rw [ih, (head.spec hlaws).2.2, List.flatMap_cons, List.append_assoc]
  · obtain ⟨e, he, u, v, hstep, hu, hv⟩ := h.exists_turn
      (P := fun t => s.state.users.get? userId ≠ t.state.users.get? userId) (fun h => h rfl) hne
    exact ⟨e, he, hstep.accountsFor hlaws hreads (not_not.mp hu ▸ hv)⟩
  · have hbefore : ¬∃ u, s.state.users.get? userId = some u ∧ u.tenantId = user.tenantId := by
      rintro ⟨u, hu, -⟩
      rw [hnone] at hu
      cases hu
    obtain ⟨e, he, u, v, hstep, hu, hv⟩ := h.exists_turn (P := fun t : ServiceState =>
      ∃ u, t.state.users.get? userId = some u ∧ u.tenantId = user.tenantId) hbefore ⟨user, hsome, rfl⟩
    exact ⟨e, he, hstep.created hlaws hreads hu hv⟩

end

/-! ## A small service -/

namespace Demo

/-- The claims of the administrator's token of the epoch. -/
def adminClaims : Dict String Value := adminTokens.accessToken.payload.mapValues Claim.decoded

/-- The compact text of the token. -/
def adminText : String :=
  Middleware.compactToken "eyJhbGciOiJIUzI1NiIsInR5cCI6IkpXVCJ9"
    (Json.dumpsWith .compact (.dict adminClaims.items)) "c2lnbmF0dXJl"

/-- The one token that verifies is the administrator's. -/
def parse (text : String) : SignedToken :=
  if text = adminText then adminTokens.accessToken else ⟨Dict.empty, "", "none"⟩

/-- `HTTPBearer(auto_error=False)`: the scheme before the first blank, the credentials behind. -/
def splitBearer (authorization : Option String) : Option String := do
  let chars := (← authorization).toList
  let scheme := String.ofList (chars.takeWhile (· ≠ ' '))
  let credentials := String.ofList ((chars.dropWhile (· ≠ ' ')).drop 1)
  if credentials ≠ "" ∧ Text.lower scheme = "bearer" then some credentials else none

/-- The framework's two layers: the handlers run where the routes raise, and the last one where
everything else does. -/
def framework : Middleware.Framework where
  exceptionMiddleware handlers route request := handlers.handle request (route request)
  serverErrorMiddleware handlers callNext request :=
    tryCatch (callNext request) fun _ => Middleware.liftExcept (handlers.other request)

/-- The deployment behind its middlewares. -/
def service : Service SignedToken where
  dep := deployment
  texts := Demo.texts
  cors := Middleware.passThrough
  framework := framework
  httpBearer := splitBearer
  isProduction := true
  parse := parse
  compact _ := adminText
  json _ := []
  typeName _ := "Exception"

/-- The administrator creates Alice for another tenant than the default one. -/
def createAliceOverHttp (response : Middleware.Response) : Exchange SignedToken where
  env := Middleware.demoEnv
  request :=
    { method := "POST"
      url := "http://testserver/api/admin/users"
      path := "/api/admin/users"
      headers := [("authorization", "Bearer " ++ adminText), ("x-tenant-id", "acme")] }
  route := .createUser aliceRequest "" aliceId "2026-01-01T00:00:00+00:00"
  now := 60000000
  response := response

theorem readsBearer_splitBearer : ReadsBearer splitBearer := by
  intro authorization credentials
  constructor
  · intro h
    obtain ⟨header, rfl, hif⟩ := Option.bind_eq_some_iff.mp h
    dsimp only at hif
    split_ifs at hif with hread
    obtain rfl := Option.some.inj hif
    obtain ⟨hne, hlower⟩ := hread
    refine ⟨_, ?_, ?_, hlower, hne⟩
    · have hhead := List.head?_dropWhile_not (fun c : Char => decide (c ≠ ' ')) header.toList
      have hsplit := @List.takeWhile_append_dropWhile _ (fun c : Char => decide (c ≠ ' ')) header.toList
      cases hrest : header.toList.dropWhile (· ≠ ' ') with
      | nil =>
        rw [hrest] at hne
        exact absurd rfl hne
      | cons c rest =>
        rw [hrest] at hhead hsplit
        obtain rfl : c = ' ' := by simpa using hhead
        rw [Option.some_inj, ← String.toList_inj]
        simpa [String.toList_append] using hsplit.symm
    · rw [String.toList_ofList]
      exact fun hmem => by simpa using List.mem_takeWhile_imp hmem
  · rintro ⟨scheme, rfl, hblank, hlower, hne⟩
    have hchars : (scheme ++ " " ++ credentials).toList = scheme.toList ++ ' ' :: credentials.toList := by
      simp [String.toList_append]
    have hscheme : ∀ c ∈ scheme.toList, c ≠ ' ' := fun c hc h => hblank (h ▸ hc)
    show (if _ then _ else _) = _
    rw [hchars, Double.takeWhile_append_cons hscheme, Double.dropWhile_append_cons hscheme,
      List.drop_succ_cons, List.drop_zero, String.ofList_toList, String.ofList_toList]
    exact if_pos ⟨hne, hlower⟩

theorem laws_service : service.Laws where
  cors := ⟨fun _ _ => rfl, fun _ _ => rfl⟩
  framework := ⟨fun _ _ _ => rfl, fun _ _ _ _ _ _ => Outcome.tryCatch_of_ok⟩
  httpBearer := readsBearer_splitBearer

theorem canonical_adminClaims : Json.Canonical (.dict adminClaims.items) := by
  have hitems : adminClaims.items =
      [("sub", .str adminUserId), ("iat", .int 0), ("exp", .int 1800), ("type", .str "access"),
        ("email", .str "admin@local"), ("permissions", .list (adminPermissions.map .str))] := rfl
  refine Json.canonical_dict adminClaims.nodup_keys ?_
  rw [hitems]
  simp only [List.forall_mem_cons]
  refine ⟨⟨trivial, rfl⟩, ⟨trivial, rfl⟩, ⟨trivial, rfl⟩, ⟨trivial, rfl⟩, ⟨trivial, rfl⟩, ?_,
    List.forall_mem_nil _⟩
  refine Json.canonical_list fun v hv => ?_
  obtain ⟨permission, -, rfl⟩ := List.mem_map.mp hv
  exact ⟨trivial, rfl⟩

theorem parse_eq {text : String} (h : text = adminText) : parse text = adminTokens.accessToken :=
  if_pos h

theorem parse_adminText : service.parse adminText = adminTokens.accessToken := by
  have hparse : service.parse = parse := rfl
  rw [hparse]
  exact parse_eq rfl

theorem decodeToken_adminText {now : Nat} {claims : Dict String Value}
    (h : decodeToken service.dep.jwt service.dep.settings (service.parse adminText) now = .ok claims) :
    claims = adminClaims := by
  have hkey : secretKey service.dep.settings = .ok "dev-change-me-in-production" := rfl
  rw [parse_adminText, decodeToken_ok_iff hkey] at h
  exact (symbolicJwt_roundTrip _ _).decode_eq rfl h

theorem readsPayload_service : service.ReadsPayload := by
  intro env text now claims hdecode
  by_cases htext : text = adminText
  · subst htext
    have hread : Middleware.extractUserFromToken env.decoding ("Bearer " ++ adminText) =
        Json.loads (Json.dumpsWith .compact (.dict adminClaims.items)) :=
      Middleware.extractUserFromToken_compactToken env _ (by simp) (by simp)
    rw [Json.loads_dumpsWith_of_canonical .compact canonical_adminClaims] at hread
    rw [decodeToken_adminText hdecode]
    exact hread
  · have hparse : parse text = ⟨Dict.empty, "", "none"⟩ := if_neg htext
    change decodeToken _ _ (parse text) now = _ at hdecode
    rw [hparse] at hdecode
    cases hdecode

theorem adminText_ne_empty : adminText ≠ "" := by
  intro hempty
  have hread := readsPayload_service Middleware.demoEnv adminText 60000000 adminClaims
    (by rw [parse_adminText]; rfl)
  rw [hempty] at hread
  cases hread

theorem httpRequest_createAliceOverHttp (response : Middleware.Response) :
    (createAliceOverHttp response).httpRequest service (createAliceOverHttp response).received =
      ⟨some adminTokens.accessToken, 60000000,
        .createUser aliceRequest "acme" aliceId "2026-01-01T00:00:00+00:00"⟩ := by
  have hheader : (createAliceOverHttp response).received.header "Authorization" =
      some ("Bearer " ++ adminText) := received_header _ _ _
  have htenant : getTenantId service.defaultTenantId (createAliceOverHttp response).received =
      "acme" := getTenantId_received _ _ _
  rw [Exchange.httpRequest, hheader, htenant, laws_service.httpBearer.bearer adminText_ne_empty, Option.map_some,
    parse_adminText]
  rfl

/-- The users once Alice is created for the tenant. -/
def acmeState : State :=
  ⟨Dict.empty.set aliceId.str { alice with tenantId := "acme" }, [aliceId.str]⟩

theorem serve_createAliceOverHttp (response : Middleware.Response) :
    (createAliceOverHttp response).serve service State.init =
      (.ok (.operation (.user alice.response)), acmeState) := by
  rw [Exchange.serve, httpRequest_createAliceOverHttp]
  rfl

end Demo

open Demo in
/-- Alice belongs to the tenant that the audit log names, beside the administrator. -/
theorem changes_accounted_alice :
    ∃ response s', Run service.Step ⟨State.init, []⟩ [createAliceOverHttp response] s' ∧
      s'.state.users.get? aliceId.str = some { alice with tenantId := "acme" } ∧
      ∃ record ∈ s'.log, record.statusCode = 201 ∧ record.tenantId = some "acme" ∧
        record.userId = .str adminUserId := by
  obtain ⟨response, s', hstep⟩ := service.exists_step laws_service ⟨State.init, []⟩
    (e := createAliceOverHttp ⟨201, [], .bytes []⟩) (Exchange.routed_of_urlPath rfl rfl rfl)
  have hrun : Run service.Step ⟨State.init, []⟩ [createAliceOverHttp response] s' := .single hstep
  have hget : s'.state.users.get? aliceId.str = some { alice with tenantId := "acme" } := by
    have hstate : s'.state = ((createAliceOverHttp response).serve service State.init).2 := hstep.state
    rw [hstate, serve_createAliceOverHttp, acmeState, Dict.get?_set, if_pos rfl]
  obtain ⟨hlog, hchanges⟩ := changes_accounted laws_service readsPayload_service hrun
  obtain ⟨e, he, record, hrecord, haccounts, hstatus, htenant⟩ :=
    (hchanges aliceId.str).2 _ rfl hget
  obtain rfl := List.mem_singleton.mp he
  obtain ⟨text, claims, hbearer, hdecode, -, huser⟩ := haccounts.bearer
  have hheader : (createAliceOverHttp response).request.header "Authorization" =
      some ("Bearer " ++ adminText) := rfl
  obtain rfl : adminText = text := by
    rw [hheader, laws_service.httpBearer.bearer adminText_ne_empty] at hbearer
    exact Option.some.inj hbearer
  rw [if_pos hheader, decodeToken_adminText hdecode] at huser
  refine ⟨response, s', hrun, hget, record, ?_, hstatus, htenant, huser⟩
  rw [hlog]
  exact List.mem_append_right _ (List.mem_flatMap.mpr ⟨_, he, hrecord⟩)

end RagEval.Api
