import RagEval.Core.Settings
import RagEval.Lib.Dict
import RagEval.Lib.Uuid

/-!
# User administration

`app/api/routers/admin_router.py`: the in-memory user store and the four
operations on it. An operation returns its response or the exception it raises,
and the store after it; the operations run once their caller is admitted.
-/

namespace RagEval.Api
open RagEval.Lib RagEval.Core

/-- A stored user. -/
structure User where
  userId : String
  username : String
  email : String
  passwordHash : String
  permissions : List String
  isActive : Bool
  tenantId : String
  createdAt : String
  requiresPasswordChange : Bool

/-- The users by their ids. -/
abbrev UserStore := Dict String User

structure CreateUserRequest where
  username : String
  email : String
  password : String
  permissions : List String := []
  isActive : Bool := true
  username_length : 1 ≤ username.length ∧ username.length ≤ 100 := by decide
  password_length : 8 ≤ password.length := by decide

structure UpdateUserRequest where
  email : Option String := none
  password : Option String := none
  permissions : Option (List String) := none
  isActive : Option Bool := none
  password_length : ∀ p ∈ password, 8 ≤ p.length := by decide

/-- An update that leaves the password out. -/
theorem UpdateUserRequest.no_password : ∀ p ∈ (none : Option String), 8 ≤ p.length := by
  decide

structure UserResponse where
  userId : String
  username : String
  email : String
  permissions : List String
  isActive : Bool
  createdAt : Option String
  deriving DecidableEq

def User.response (user : User) : UserResponse :=
  ⟨user.userId, user.username, user.email, user.permissions, user.isActive, some user.createdAt⟩

/-- `_hash_password`, over the hexadecimal SHA-256 digest. A password is a text that can be
encoded: of a lone surrogate, for which `encode` raises, no `String` is made. -/
def hashPassword (sha256 : String → String) (password : String) : String :=
  sha256 (password ++ "dev-salt-change-in-production")

/-- `_verify_password`. -/
def verifyPassword (sha256 : String → String) (password hashed : String) : Bool :=
  hashPassword sha256 password = hashed

def usernameTaken (username : String) : Raised :=
  .http 409 ("User with username '" ++ username ++ "' already exists") []

def userNotFound (userId : String) : Raised :=
  .http 404 ("User with ID '" ++ userId ++ "' not found") []

section
variable (sha256 : String → String)

/-- `request.permissions or ["eval:read", "workflow:read"]`. -/
def initialPermissions (permissions : List String) : List String :=
  if permissions = [] then ["eval:read", "workflow:read"] else permissions

/-- `create_user`, with the id and the moment it draws. -/
def createUser (users : UserStore) (request : CreateUserRequest) (tenantId : String) (uuid : UUID4)
    (createdAt : String) : Except Raised UserResponse × UserStore :=
  if users.values.any fun user => user.username = request.username then
    (.error (usernameTaken request.username), users)
  else
    let user : User :=
      { userId := uuid.str
        username := request.username
        email := request.email
        passwordHash := hashPassword sha256 request.password
        permissions := initialPermissions request.permissions
        isActive := request.isActive
        tenantId := tenantId
        createdAt := createdAt
        requiresPasswordChange := false }
    (.ok user.response, users.set uuid.str user)

/-- The fields an update request provides. -/
def UpdateUserRequest.apply (request : UpdateUserRequest) (user : User) : User :=
  { user with
    email := request.email.getD user.email
    passwordHash := (request.password.map (hashPassword sha256)).getD user.passwordHash
    permissions := request.permissions.getD user.permissions
    isActive := request.isActive.getD user.isActive }

/-- `update_user`. -/
def updateUser (users : UserStore) (userId : String) (request : UpdateUserRequest) :
    Except Raised UserResponse × UserStore :=
  match users.get? userId with
  | none => (.error (userNotFound userId), users)
  | some user =>
    let updated := request.apply sha256 user
    (.ok updated.response, users.set userId updated)

/-- `delete_user`. -/
def deleteUser (users : UserStore) (userId : String) : Except Raised Unit × UserStore :=
  if userId ∈ users.keys then (.ok (), users.erase userId)
  else (.error (userNotFound userId), users)

/-- `reset_user_password`, with the password it draws. -/
def resetUserPassword (users : UserStore) (userId tempPassword : String) :
    Except Raised (Dict String String) × UserStore :=
  match users.get? userId with
  | none => (.error (userNotFound userId), users)
  | some user =>
    let reset : User :=
      { user with
        passwordHash := hashPassword sha256 tempPassword
        requiresPasswordChange := true }
    (.ok (Dict.ofList
      [("message", "Password has been reset. User must change password on next login."),
       ("temporary_password", tempPassword)]), users.set userId reset)

end

end RagEval.Api
