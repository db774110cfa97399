import RagEval.Api.AdminRouter
import RagEval.Api.Auth
import RagEval.Security.JwtService

/-!
# Login and token refresh

`app/api/routers/auth_router.py`: the two operations that issue tokens.
-/

namespace RagEval.Api
open RagEval.Lib RagEval.Core RagEval.Security

structure LoginRequest where
  username : String
  password : String

structure RefreshRequest (τ : Type) where
  refreshToken : τ

structure TokenResponse (τ : Type) where
  accessToken : τ
  refreshToken : τ
  tokenType : String
  expiresIn : Nat

/-- What `_authenticate_user` returns of a user. -/
structure UserData where
  userId : String
  email : String
  permissions : List String

/-- The permissions of the administrator of the environment. -/
def adminPermissions : List String := ["admin:*", "eval:*", "workflow:*"]

def adminUserId : String := "00000000-0000-0000-0000-000000000001"

/-- An empty password setting is falsy. -/
def adminPassword (settings : Settings) : String :=
  if settings.adminPassword = "" then "admin" else settings.adminPassword

/-- The administrator's credentials of the environment. -/
def isEnvAdmin (settings : Settings) (username password : String) : Bool :=
  username = settings.adminUsername && password = adminPassword settings

/-- The first stored user with these credentials. -/
def findUser (sha256 : String → String) (users : UserStore) (username password : String) :
    Option User :=
  users.values.find? fun user =>
    user.username = username && verifyPassword sha256 password user.passwordHash

/-- `_authenticate_user`: the administrator of the environment first, then the
user store. -/
def authenticateUser (settings : Settings) (sha256 : String → String) (users : UserStore)
    (username password : String) : Option UserData :=
  if isEnvAdmin settings username password then
    some ⟨adminUserId, username ++ "@local", adminPermissions⟩
  else
    (findUser sha256 users username password).map fun user =>
      ⟨user.userId, user.email, user.permissions⟩

/-- The claims that go into an access token beside the base ones. -/
def userClaims (email : String) (permissions : List String) : Dict String Value :=
  Dict.ofList [("email", .str email), ("permissions", .list (permissions.map .str))]

section
variable {τ : Type} (jwt : PyJwt τ) (settings : Settings)

/-- The pair of tokens both operations issue. -/
def issueTokens (userId : UUID) (claims : Dict String Value) (now : Nat) :
    Except PyError (TokenResponse τ) := do
  let accessToken ← createAccessToken jwt settings userId claims now
  let refreshToken ← createRefreshToken jwt settings userId now
  pure ⟨accessToken, refreshToken, "bearer", settings.jwtAccessTokenExpireMinutes * 60⟩

/-- `login`. -/
def login (sha256 : String → String) (users : UserStore) (request : LoginRequest) (now : Nat) :
    Except Raised (TokenResponse τ) :=
  match authenticateUser settings sha256 users request.username request.password with
  | none => .error (unauthorized "Invalid credentials")
  | some userData => Except.mapError .python do
    let userId ← UUID.parse userData.userId
    issueTokens jwt settings userId (userClaims userData.email userData.permissions) now

/-- `refresh_token`: the claims are those of the administrator, whoever the token
names. -/
def refreshToken (request : RefreshRequest τ) (now : Nat) : Except Raised (TokenResponse τ) :=
  match verifyRefreshToken jwt settings request.refreshToken now with
  | .error _ => .error (unauthorized "Invalid or expired refresh token")
  | .ok userId =>
    (issueTokens jwt settings userId (userClaims "admin@local" adminPermissions) now).mapError
      .python

end

end RagEval.Api
