import Mathlib.Data.Finset.Basic
import RagEval.Lib.Text

/-!
# Permissions and roles

`app/core/security/permissions.py`: the permission catalogue, roles, and the
`PermissionChecker` behind `has_permission`.
-/

namespace RagEval.Security
open RagEval.Lib

inductive Permission where
  | evalRead | evalWrite | evalDelete | evalAdmin
  | workflowRead | workflowWrite | workflowPublish | workflowDelete
  | ragRead | ragWrite | ragIndex
  | agentRead | agentWrite | agentExecute
  | promptRead | promptWrite | promptPublish
  | adminRead | adminWrite | adminDelete | adminSuper
  deriving Repr, DecidableEq

/-- `Permission.value`. -/
def Permission.value : Permission → String
  | evalRead => "eval:read"
  | evalWrite => "eval:write"
  | evalDelete => "eval:delete"
  | evalAdmin => "eval:admin"
  | workflowRead => "workflow:read"
  | workflowWrite => "workflow:write"
  | workflowPublish => "workflow:publish"
  | workflowDelete => "workflow:delete"
  | ragRead => "rag:read"
  | ragWrite => "rag:write"
  | ragIndex => "rag:index"
  | agentRead => "agent:read"
  | agentWrite => "agent:write"
  | agentExecute => "agent:execute"
  | promptRead => "prompt:read"
  | promptWrite => "prompt:write"
  | promptPublish => "prompt:publish"
  | adminRead => "admin:read"
  | adminWrite => "admin:write"
  | adminDelete => "admin:delete"
  | adminSuper => "admin:*"

/-- A `Permission | str` argument. -/
inductive PermissionArg where
  | permission (p : Permission)
  | text (s : String)
  deriving Repr, DecidableEq

/-- `p.value if isinstance(p, Permission) else p`. -/
def PermissionArg.value : PermissionArg → String
  | .permission p => p.value
  | .text s => s

structure Role where
  name : String
  permissions : Finset String

/-- `Role.__init__`. -/
def Role.init (name : String) (permissions : List PermissionArg) : Role :=
  ⟨name, (permissions.map PermissionArg.value).toFinset⟩

/-- `Role.has_permission`. -/
def Role.hasPermission (self : Role) (permission : PermissionArg) : Bool :=
  decide (permission.value ∈ self.permissions) ||
    decide (Permission.adminSuper.value ∈ self.permissions)

structure PermissionChecker where
  permissions : Finset String

/-- `PermissionChecker.__init__`. -/
def PermissionChecker.init (permissions : List String) : PermissionChecker :=
  ⟨permissions.toFinset⟩

/-- `PermissionChecker._has_permission`. -/
def PermissionChecker.hasPermission (self : PermissionChecker) (permission : PermissionArg) :
    Bool :=
  let perm := permission.value
  -- super admin has all permissions
  if Permission.adminSuper.value ∈ self.permissions then true
  else
    match Text.rsplit perm ':' with
    | some (resource, _action) =>
      if resource ++ ":*" ∈ self.permissions then true else decide (perm ∈ self.permissions)
    | none => decide (perm ∈ self.permissions)

/-- The `required` argument of `check`: one permission or a list of them. -/
inductive Required where
  | one (p : PermissionArg)
  | all (ps : List PermissionArg)

/-- `PermissionChecker.check`. -/
def PermissionChecker.check (self : PermissionChecker) : Required → Bool
  | .one p => self.hasPermission p
  | .all ps => ps.all self.hasPermission

/-- `PermissionChecker.any_of`. -/
def PermissionChecker.anyOf (self : PermissionChecker) (options : List PermissionArg) : Bool :=
  options.any self.hasPermission

/-- The module function `has_permission`. -/
def hasPermission (userPermissions : List String) (required : Required) : Bool :=
  (PermissionChecker.init userPermissions).check required

end RagEval.Security
