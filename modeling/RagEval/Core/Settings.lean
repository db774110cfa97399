import RagEval.Lib.Value

/-!
# Settings and exceptions

`app/core/config/settings.py` and `app/core/exceptions.py`: the settings the
modelled functions read, with their defaults and bounds, and the exceptions they
raise.
-/

namespace RagEval.Core
open RagEval.Lib

structure Settings where
  jwtSecretKey : Option String := some "dev-change-me-in-production"
  jwtAlgorithm : String := "HS256"
  jwtAccessTokenExpireMinutes : Nat := 30
  jwtRefreshTokenExpireDays : Nat := 7
  jwtConfirmationTokenExpireMinutes : Nat := 10
  adminUsername : String := "admin"
  adminPassword : String := "admin"
  one_le_minutes : 1 ≤ jwtAccessTokenExpireMinutes := by decide
  one_le_days : 1 ≤ jwtRefreshTokenExpireDays := by decide

/-- The exceptions of the application, of the web framework and of the interpreter. -/
inductive Raised where
  | app (message code : String)
  | http (status : Nat) (detail : String) (headers : List (String × String))
  | python (e : PyError)
  deriving Repr, DecidableEq

def invalidTokenError : Raised := .app "Invalid token" "invalid_token"

def tokenExpiredError : Raised := .app "Token has expired" "token_expired"

end RagEval.Core
