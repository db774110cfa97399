import RagEval.Core.Settings
import RagEval.Lib.Dict
import RagEval.Lib.Text

/-!
# The authenticated user

`app/api/deps/auth.py`: the user context the API routes check permissions on, and how a
request without one is refused.
-/

namespace RagEval.Api
open RagEval.Lib RagEval.Core

def unauthorized (detail : String) : Raised :=
  .http 401 detail [("WWW-Authenticate", "Bearer")]

structure CurrentUser where
  userId : Option String
  email : Option String
  permissions : List String
  tokenPayload : Dict String Value

/-- `CurrentUser.__init__`; a missing list or payload becomes the empty one. -/
def CurrentUser.init (userId email : Option String) (permissions : Option (List String))
    (tokenPayload : Option (Dict String Value)) : CurrentUser :=
  ⟨userId, email, permissions.getD [], tokenPayload.getD Dict.empty⟩

/-- `CurrentUser.has_permission`: the loop over the granted permissions. -/
def CurrentUser.hasPermission (self : CurrentUser) (permission : String) : Bool :=
  self.permissions.any fun userPerm =>
    decide (userPerm = permission) ||
      -- wildcard patterns such as "admin:*"
      (Text.endswith userPerm ":*" &&
        Text.startswith permission (Text.dropEnd userPerm 2 ++ ":"))

/-- `CurrentUser.has_any_permission`. -/
def CurrentUser.hasAnyPermission (self : CurrentUser) (permissions : List String) : Bool :=
  permissions.any self.hasPermission

/-- The dependency that checks the permissions of the user of a request. -/
structure PermissionChecker where
  requiredPermissions : List String
  requireAll : Bool

/-- `PermissionChecker.__call__`. -/
def PermissionChecker.call (self : PermissionChecker) (user : CurrentUser) :
    Except Raised CurrentUser :=
  let hasPermissions :=
    if self.requireAll then self.requiredPermissions.all user.hasPermission
    else self.requiredPermissions.any user.hasPermission
  if hasPermissions then .ok user else .error (.http 403 "Insufficient permissions" [])

def requirePermissions (permissions : List String) (requireAll : Bool) : PermissionChecker :=
  ⟨permissions, requireAll⟩

def requireAdmin : PermissionChecker := requirePermissions ["admin:*"] false

end RagEval.Api
