import RagEval.Middleware.Stack

/-!
# The tenant of a request

`app/api/deps/tenant.py`: the dependencies that tell a route its tenant. The settings of the
application hold a default tenant and no configurations of tenants.

## Main result

- `getTenantId_received` — a route is told the tenant that the tenant middleware resolved
-/

namespace RagEval.Api
open RagEval.Lib RagEval.Middleware

structure TenantConfig where
  name : String
  plan : String
  quotas : Dict String Nat
  features : List String

structure TenantContext where
  tenantId : String
  tenantName : String
  plan : String
  quotaLimits : Dict String Nat
  features : List String

/-- `_load_tenant_config`. -/
def loadTenantConfig (tenantId : String) : TenantConfig where
  name := "Tenant " ++ tenantId
  plan := "default"
  quotas := Dict.ofList [("evaluations_per_hour", 1000), ("workflows_per_hour", 100),
    ("llm_calls_per_hour", 10000)]
  features := ["eval:read", "eval:write", "workflow:read", "workflow:write"]

/-- `get_tenant_from_header`. -/
def getTenantFromHeader (request : Request) : Option String := request.header "X-Tenant-ID"

/-- `get_tenant_context`: the header, then the state of the request, then the setting
`DEFAULT_TENANT_ID`. -/
def getTenantContext (defaultTenantId : String) (request : Request) : TenantContext :=
  let tenantId := orElse (getTenantFromHeader request)
    (orElse request.state.tenantId defaultTenantId)
  let tenantConfig := loadTenantConfig tenantId
  ⟨tenantId, tenantConfig.name, tenantConfig.plan, tenantConfig.quotas, tenantConfig.features⟩

/-- `get_tenant_id`. -/
def getTenantId (defaultTenantId : String) (request : Request) : String :=
  (getTenantContext defaultTenantId request).tenantId

theorem orElse_ne_empty {value : Option String} {fallback : String} (h : fallback ≠ "") :
    orElse value fallback ≠ "" := by
  cases value with
  | none => exact h
  | some v =>
    rw [orElse]
    split_ifs with hv
    · exact h
    · exact hv

theorem resolvedTenant_ne_empty {defaultTenant : String} (h : defaultTenant ≠ "")
    (request : Request) : resolvedTenant defaultTenant request ≠ "" :=
  orElse_ne_empty (orElse_ne_empty h)

/-- The middlewares change the state of a request only. -/
theorem received_eq (env : Env) (request : Request) :
    ∃ state, received env request = request.withState state := by
  obtain ⟨state, heq, -⟩ := authenticated_eq env (withIds env request)
  exact ⟨_, by rw [received, identified, heq]; rfl⟩

theorem received_header (env : Env) (request : Request) (name : String) :
    (received env request).header name = request.header name := by
  obtain ⟨state, heq⟩ := received_eq env request
  rw [heq]
  rfl

theorem received_url (env : Env) (request : Request) : (received env request).url = request.url := by
  obtain ⟨state, heq⟩ := received_eq env request
  rw [heq]
  rfl

/-- The route and the middleware resolve the same tenant; the setting never comes into play. -/
theorem getTenantId_received (defaultTenantId : String) (env : Env) (request : Request) :
    getTenantId defaultTenantId (received env request) = resolvedTenant "default" request := by
  have hstate : (received env request).state.tenantId = some (resolvedTenant "default" request) := rfl
  have hne : resolvedTenant "default" request ≠ "" := resolvedTenant_ne_empty (by decide) request
  show orElse ((received env request).header "X-Tenant-ID") (orElse _ _) = _
  have hinner : orElse (some (resolvedTenant "default" request)) defaultTenantId =
      resolvedTenant "default" request := if_neg hne
  rw [received_header, hstate, hinner]
  -- a header that is missing or empty leaves both to what the middleware fell back on
  cases hheader : request.header "X-Tenant-ID" with
  | none => rfl
  | some v =>
    by_cases hv : v = ""
    · exact if_pos hv
    · rw [resolvedTenant, hheader]
      show (if v = "" then _ else v) = if v = "" then _ else v
      rw [if_neg hv, if_neg hv]

end RagEval.Api
