import RagEval.Api.Auth
import RagEval.Security.JwtService

/-!
# The bearer of a token

`get_current_user` of `app/api/deps/auth.py`, which guards the API. It decodes the
token and asks neither for its type nor for a subject that is a user id, as
`verify_access_token` does.

## Main result

- `bearerAgrees_iff` — the tokens on which the two agree
-/

namespace RagEval.Api
open RagEval.Lib RagEval.Core RagEval.Security

/-- The attributes `CurrentUser` is given, as the claims of a token hold them. -/
structure BearerUser where
  userId : Value
  email : Value
  permissions : Value
  tokenPayload : Dict String Value

/-- `bool(v)`. -/
def truthy : Value → Bool
  | .none => false
  | .bool b => b
  | .int i => i ≠ 0
  -- the two zeros
  | .float bits => bits &&& 0x7FFFFFFFFFFFFFFF#64 ≠ 0
  | .str s => s ≠ ""
  | .list xs => !xs.isEmpty
  | .dict kvs => !kvs.isEmpty

/-- `CurrentUser(...)` of a decoded payload. -/
def BearerUser.ofPayload (payload : Dict String Value) : BearerUser where
  userId := payload.getD "sub" .none
  email := payload.getD "email" .none
  permissions :=
    let permissions := payload.getD "permissions" (.list [])
    if truthy permissions then permissions else .list []
  tokenPayload := payload

section
variable {τ : Type} (jwt : PyJwt τ) (settings : Settings)

/-- `JWTServiceImpl.validate_token`. -/
def validateToken (token : τ) (now : Nat) : Except Raised (Dict String Value) :=
  decodeToken jwt settings token now

/-- `get_current_user`; every exception of the validation is caught. -/
def getCurrentUser (credentials : Option τ) (now : Nat) : Except Raised BearerUser :=
  match credentials with
  | none => .error (unauthorized "Authentication required")
  | some token =>
    match validateToken jwt settings token now with
    | .ok payload => .ok (BearerUser.ofPayload payload)
    | .error _ => .error (unauthorized "Invalid authentication token")

/-- The user is the one with this id. -/
def BearerUser.Is (user : BearerUser) (userId : UUID) : Prop :=
  ∃ sub, user.userId = .str sub ∧ UUID.parse sub = .ok userId

/-- The dependency authenticates the bearer exactly when `verify_access_token` accepts the
token, and as the same user. -/
def BearerAgrees (token : τ) (now : Nat) : Prop :=
  (∀ user, getCurrentUser jwt settings (some token) now = .ok user →
    ∃ userId, verifyAccessToken jwt settings token now = .ok userId ∧ user.Is userId) ∧
  ∀ userId, verifyAccessToken jwt settings token now = .ok userId →
    ∃ user, getCurrentUser jwt settings (some token) now = .ok user ∧ user.Is userId

/-- The claims of an access token of some user. -/
def AccessClaims (payload : Dict String Value) : Prop :=
  payload.get? "type" = some (.str "access") ∧
    ∃ sub userId, payload.get? "sub" = some (.str sub) ∧ UUID.parse sub = .ok userId

end

section
variable {τ : Type} {jwt : PyJwt τ} {settings : Settings} {token : τ} {now : Nat}

theorem getCurrentUser_of_decode {payload : Dict String Value}
    (h : decodeToken jwt settings token now = .ok payload) :
    getCurrentUser jwt settings (some token) now = .ok (BearerUser.ofPayload payload) := by
  simp only [getCurrentUser, validateToken, h]

theorem getCurrentUser_ok {user : BearerUser}
    (h : getCurrentUser jwt settings (some token) now = .ok user) :
    ∃ payload, decodeToken jwt settings token now = .ok payload ∧
      user = BearerUser.ofPayload payload := by
  simp only [getCurrentUser, validateToken] at h
  split at h
  · next payload hpayload => exact ⟨payload, hpayload, (Except.ok.inj h).symm⟩
  · cases h

/-- **When the two agree on a token**: exactly when it does not decode at all, or decodes
to the claims of an access token of some user. -/
theorem bearerAgrees_iff :
    BearerAgrees jwt settings token now ↔
      ∀ payload, decodeToken jwt settings token now = .ok payload → AccessClaims payload := by
  constructor
  · rintro ⟨hverified, -⟩ payload hd
    obtain ⟨userId, hv, -⟩ := hverified _ (getCurrentUser_of_decode hd)
    obtain ⟨payload', sub, hd', htype, hsub, hparse⟩ := verifyToken_ok_iff.mp hv
    obtain rfl := Except.ok.inj (hd.symm.trans hd')
    exact ⟨htype, sub, userId, hsub, hparse⟩
  · intro haccess
    have his : ∀ payload sub userId, payload.get? "sub" = some (.str sub) →
        UUID.parse sub = .ok userId → (BearerUser.ofPayload payload).Is userId := by
      intro payload sub userId hsub hparse
      exact ⟨sub, by simp [BearerUser.ofPayload, Dict.getD, hsub], hparse⟩
    constructor
    · intro user hu
      obtain ⟨payload, hd, rfl⟩ := getCurrentUser_ok hu
      obtain ⟨htype, sub, userId, hsub, hparse⟩ := haccess payload hd
      refine ⟨userId, ?_, his payload sub userId hsub hparse⟩
      exact verifyToken_ok_iff.mpr ⟨payload, sub, hd, htype, hsub, hparse⟩
    · intro userId hv
      obtain ⟨payload, sub, hd, -, hsub, hparse⟩ := verifyToken_ok_iff.mp hv
      exact ⟨_, getCurrentUser_of_decode hd, his payload sub userId hsub hparse⟩

end

namespace Demo

def bearerId : UUID := ⟨List.replicate 32 5, rfl⟩

/-- A refresh token issued at the epoch. -/
def issuedRefreshToken : SignedToken where
  payload := basePayload bearerId 0 604800000000 "refresh"
  key := "dev-change-me-in-production"
  algorithm := "HS256"

end Demo

open Demo in
/-- The dependency takes a refresh token for the user's access token. -/
theorem bearer_disagrees :
    createRefreshToken symbolicJwt {} bearerId 0 = .ok issuedRefreshToken ∧
      (∃ user, getCurrentUser symbolicJwt {} (some issuedRefreshToken) 0 = .ok user ∧
        user.Is bearerId) ∧
      verifyAccessToken symbolicJwt {} issuedRefreshToken 0 = .error invalidTokenError ∧
      ¬BearerAgrees symbolicJwt {} issuedRefreshToken 0 := by
  have hd : decodeToken symbolicJwt {} issuedRefreshToken 0 =
      .ok (issuedRefreshToken.payload.mapValues Claim.decoded) := by
    have hkey : secretKey {} = .ok "dev-change-me-in-production" := rfl
    rw [decodeToken_ok_iff hkey]
    exact symbolicJwt_decode _ _ rfl rfl (by decide) (by decide)
  have hv : verifyAccessToken symbolicJwt {} issuedRefreshToken 0 = .error invalidTokenError := by
    refine verifyToken_of_type_ne hd ?_
    rw [Dict.get?_mapValues]
    simp [issuedRefreshToken, basePayload, Dict.ofList, Claim.decoded]
  refine ⟨rfl, ⟨_, getCurrentUser_of_decode hd, bearerId.str, rfl, UUID.parse_str _⟩, hv, ?_⟩
  rintro ⟨hverified, -⟩
  obtain ⟨userId, hok, -⟩ := hverified _ (getCurrentUser_of_decode hd)
  rw [hv] at hok
  cases hok

end RagEval.Api
