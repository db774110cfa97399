import RagEval.Core.EnvironmentRules
import RagEval.Security.JwtService

/-!
# The signing key

Settings refuse a placeholder as `SECRET_KEY` in production. The token functions sign and
verify with `JWT_SECRET_KEY`, a field of its own with a placeholder as its default.

## Main result

- `signsWithRealSecrets_iff` — what the production check says of `SECRET_KEY` holds of the
  keys of tokens exactly when it holds of `JWT_SECRET_KEY`
-/

namespace RagEval.Security
open RagEval.Lib RagEval.Core

/-- No token is created or decoded with a placeholder as its key. -/
def SignsWithRealSecrets (settings : Settings) : Prop :=
  (∀ userId extraClaims now token,
    createAccessToken symbolicJwt settings userId extraClaims now = .ok token →
      isPlaceholder token.key = false) ∧
  (∀ userId now token, createRefreshToken symbolicJwt settings userId now = .ok token →
    isPlaceholder token.key = false) ∧
  ∀ token now claims, decodeToken symbolicJwt settings token now = .ok claims →
    isPlaceholder token.key = false

section
variable {settings : Settings} {token : SignedToken} {key : String}

/-- An accepted signature was made with the key it is checked against. -/
theorem symbolicJwt_decode_key {algorithms : List String} {now : Nat} {claims : Dict String Value}
    (h : symbolicJwt.decode token key algorithms now = .ok claims) : token.key = key := by
  simp only [symbolicJwt] at h
  split_ifs at h with hkey
  by_contra hne
  exact hkey (.inl hne)

/-- A token with neither `iat` nor `exp` decodes under its own key at any moment. -/
theorem symbolicJwt_decode_empty (key algorithm : String) (now : Nat) :
    symbolicJwt.decode ⟨Dict.ofList [], key, algorithm⟩ key [algorithm] now =
      .ok ((Dict.ofList []).mapValues Claim.decoded) := by
  simp only [symbolicJwt, ne_eq, not_true_eq_false, List.mem_singleton, or_self, if_false]
  rfl

theorem key_of_createAccessToken {userId : UUID} {extraClaims : Dict String Value} {now : Nat}
    (h : createAccessToken symbolicJwt settings userId extraClaims now = .ok token) :
    settings.jwtSecretKey = some token.key := by
  obtain ⟨key, hkey, henc⟩ := createAccessTokenOf_ok h
  obtain rfl := Except.ok.inj henc
  exact secretKey_ok hkey

theorem key_of_createRefreshToken {userId : UUID} {now : Nat}
    (h : createRefreshToken symbolicJwt settings userId now = .ok token) :
    settings.jwtSecretKey = some token.key := by
  obtain ⟨key, hkey, henc⟩ := createRefreshToken_ok h
  obtain rfl := Except.ok.inj henc
  exact secretKey_ok hkey

theorem key_of_decodeToken {now : Nat} {claims : Dict String Value}
    (h : decodeToken symbolicJwt settings token now = .ok claims) :
    settings.jwtSecretKey = some token.key := by
  obtain ⟨key, hkey, hd⟩ := bind_ok h
  have hkey := mapError_ok hkey
  have hdec := (decodeToken_ok_iff hkey).mp h
  rw [symbolicJwt_decode_key hdec]
  exact secretKey_ok hkey

/-- The keys of tokens are `JWT_SECRET_KEY`, and it does get used when it is set. -/
theorem signsWithRealSecrets_iff_jwtSecretKey :
    SignsWithRealSecrets settings ↔
      ∀ key, settings.jwtSecretKey = some key → isPlaceholder key = false := by
  constructor
  · rintro ⟨-, -, hdec⟩ key hkey
    have hsecret : secretKey settings = .ok key := by rw [secretKey, hkey]
    exact hdec ⟨Dict.ofList [], key, settings.jwtAlgorithm⟩ 0 _
      ((decodeToken_ok_iff hsecret).mpr (symbolicJwt_decode_empty key _ 0))
  · intro hreal
    refine ⟨?_, ?_, ?_⟩
    · intro userId extraClaims now token h
      exact hreal _ (key_of_createAccessToken h)
    · intro userId now token h
      exact hreal _ (key_of_createRefreshToken h)
    · intro token now claims h
      exact hreal _ (key_of_decodeToken h)

end

/-- Accepted production settings have a real `SECRET_KEY`; their tokens have real keys
exactly when the `JWT_SECRET_KEY` they were given, if any, is real by the same rule. -/
theorem signsWithRealSecrets_iff (fields : SettingsFields) (settings : AppSettings)
    (hok : buildSettings fields = .ok settings) (hprod : settings.isProduction = true) :
    isPlaceholder settings.fields.secretKey = false ∧
      (SignsWithRealSecrets settings.fields.toSettings ↔
        ∀ key, fields.jwtSecretKey = some key → isPlaceholder key = false) := by
  refine ⟨isPlaceholder_of_isProduction hok hprod, ?_⟩
  rw [signsWithRealSecrets_iff_jwtSecretKey, buildSettings_ok hok]

namespace SigningDemo

/-- Production as it is deployed with a `SECRET_KEY` and token lifetimes of its own. -/
def production : SettingsFields :=
  { environment := "production", secretKey := "9b1deb4d3b7d4bad9bdd2b0d7b3dcb6d",
    jwtAccessTokenExpireMinutes := 15, jwtRefreshTokenExpireDays := 14 }

/-- The same with a `JWT_SECRET_KEY` as well. -/
def withJwtSecret : SettingsFields :=
  { production with jwtSecretKey := some "1b9d6bcdbbfd4b2d9b5dab8dfbbd4bed" }

end SigningDemo

open SigningDemo

theorem signsWithRealSecrets_iff_withJwtSecret :
    SignsWithRealSecrets (SettingsFields.toSettings withJwtSecret) := by
  have h := signsWithRealSecrets_iff withJwtSecret ⟨withJwtSecret, .production⟩ rfl rfl
  refine h.2.mpr ?_
  intro key hkey
  obtain rfl := Option.some.inj hkey
  decide

/-- Production accepts the default `JWT_SECRET_KEY`, and verifies tokens signed with it. -/
theorem signs_with_placeholder :
    ¬∀ (fields : SettingsFields) (settings : AppSettings), buildSettings fields = .ok settings →
      settings.isProduction = true → SignsWithRealSecrets settings.fields.toSettings := by
  intro h
  have hs := h production ⟨production, .production⟩ rfl rfl
  have hkey := signsWithRealSecrets_iff_jwtSecretKey.mp hs "dev-change-me-in-production" rfl
  exact absurd hkey (by decide)

end RagEval.Security
