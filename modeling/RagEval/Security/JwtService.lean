import RagEval.Core.Settings
import RagEval.Lib.Loop
import RagEval.Lib.Uuid

/-!
# Token creation and verification

`app/core/security/jwt_service.py`. The PyJWT package is a parameter: tokens are
of any type, and `PyJwt.RoundTrip` says that a token decodes to what was encoded
in it. Moments are microseconds since the epoch.
-/

namespace RagEval.Security
open RagEval.Lib RagEval.Core

/-- A value of a token payload before it is encoded. -/
inductive Claim where
  | datetime (microseconds : Nat)
  | value (v : Value)

/-- What a decoded token shows of a claim; datetimes become whole seconds. -/
def Claim.decoded : Claim → Value
  | .datetime microseconds => .int (microseconds / 1000000 : Nat)
  | .value v => v

inductive JwtError where
  | expiredSignature
  | invalidToken
  | other (e : PyError)
  deriving Repr, DecidableEq

/-- `jwt.encode(payload, key, algorithm)` and `jwt.decode(token, key, algorithms)`
at a moment. -/
structure PyJwt (τ : Type) where
  encode : Dict String Claim → String → String → Except PyError τ
  decode : τ → String → List String → Nat → Except JwtError (Dict String Value)

/-- The claims beside the subject that decoding checks: the times, the audience and the
token's id. -/
def checkedClaims : List String := ["iat", "exp", "nbf", "aud", "jti"]

/-- A payload whose registered claims are those every token here starts with: two times, a
string for the subject, and no other claim that decoding checks. -/
structure PlainPayload (payload : Dict String Claim) (iat exp : Nat) : Prop where
  iat_eq : payload.get? "iat" = some (.datetime iat)
  exp_eq : payload.get? "exp" = some (.datetime exp)
  sub_str : ∃ sub, payload.get? "sub" = some (.value (.str sub))
  get_eq_none : ∀ k ∈ checkedClaims, k ≠ "iat" → k ≠ "exp" → payload.get? k = none

/-- A token decodes to nothing but its payload; where the payload has no further claims for
decoding to check, it does decode from the moment of issue until it expires. -/
structure PyJwt.RoundTrip {τ : Type} (jwt : PyJwt τ) (key algorithm : String) : Prop where
  decode_eq : ∀ {payload token now claims}, jwt.encode payload key algorithm = .ok token →
    jwt.decode token key [algorithm] now = .ok claims → claims = payload.mapValues Claim.decoded
  decode_ok : ∀ {payload token iat exp now}, jwt.encode payload key algorithm = .ok token →
    PlainPayload payload iat exp → iat ≤ now → now < exp / 1000000 * 1000000 → ∃ claims,
      jwt.decode token key [algorithm] now = .ok claims

/-- `datetime.max`. -/
def maxDatetime : Nat := 253402300799999999

/-- `now + timedelta`. -/
def addTimedelta (now delta : Nat) : Except PyError Nat :=
  if now + delta ≤ maxDatetime then .ok (now + delta)
  else .error (.overflowError "date value out of range")

/-- `settings.JWT_SECRET_KEY.get_secret_value()`. -/
def secretKey (settings : Settings) : Except PyError String :=
  match settings.jwtSecretKey with
  | some key => .ok key
  | none => .error (.attributeError "'NoneType' object has no attribute 'get_secret_value'")

/-- The payload both kinds of tokens start from. -/
def basePayload (userId : UUID) (now exp : Nat) (type : String) : Dict String Claim := Dict.ofList
  [("sub", .value (.str userId.str)), ("iat", .datetime now), ("exp", .datetime exp),
   ("type", .value (.str type))]

section
variable {τ : Type} (jwt : PyJwt τ) (settings : Settings)

/-- `create_access_token`; there may be datetimes among the extra claims as well. -/
def createAccessTokenOf (userId : UUID) (extraClaims : Dict String Claim) (now : Nat) :
    Except PyError τ := do
  let exp ← addTimedelta now (settings.jwtAccessTokenExpireMinutes * 60 * 1000000)
  let payload := (basePayload userId now exp "access").update extraClaims
  let key ← secretKey settings
  jwt.encode payload key settings.jwtAlgorithm

/-- `create_access_token` on extra claims that are JSON values. -/
def createAccessToken (userId : UUID) (extraClaims : Dict String Value) (now : Nat) :
    Except PyError τ :=
  createAccessTokenOf jwt settings userId (extraClaims.mapValues .value) now

/-- `create_refresh_token`. -/
def createRefreshToken (userId : UUID) (now : Nat) : Except PyError τ := do
  let exp ← addTimedelta now (settings.jwtRefreshTokenExpireDays * 24 * 60 * 60 * 1000000)
  let payload := basePayload userId now exp "refresh"
  let key ← secretKey settings
  jwt.encode payload key settings.jwtAlgorithm

/-- `decode_token`. -/
def decodeToken (token : τ) (now : Nat) : Except Raised (Dict String Value) := do
  let key ← (secretKey settings).mapError .python
  match jwt.decode token key [settings.jwtAlgorithm] now with
  | .ok payload => .ok payload
  | .error .expiredSignature => .error tokenExpiredError
  | .error .invalidToken => .error invalidTokenError
  | .error (.other e) => .error (.python e)

/-- `UUID(payload["sub"])`. -/
def subject (payload : Dict String Value) : Except PyError UUID :=
  match payload.get? "sub" with
  | some (.str sub) => UUID.parse sub
  | some .none => .error (.typeError
      "one of the hex, bytes, bytes_le, fields, or int arguments must be given")
  | some _ => .error (.attributeError "object has no attribute 'replace'")
  | none => .error (.keyError "sub")

/-- The two `verify_*` functions, which differ in the type they ask for. -/
def verifyToken (type : String) (token : τ) (now : Nat) : Except Raised UUID := do
  let payload ← decodeToken jwt settings token now
  if (payload.getD "type" .none).inStrings [type] then (subject payload).mapError .python
  else .error invalidTokenError

/-- `verify_access_token`. -/
def verifyAccessToken (token : τ) (now : Nat) : Except Raised UUID :=
  verifyToken jwt settings "access" token now

/-- `verify_refresh_token`. -/
def verifyRefreshToken (token : τ) (now : Nat) : Except Raised UUID :=
  verifyToken jwt settings "refresh" token now

/-- The round trip of the deployment's key and algorithm. -/
def RoundTrips : Prop :=
  ∀ key, settings.jwtSecretKey = some key → jwt.RoundTrip key settings.jwtAlgorithm

end

section
variable {τ : Type} {jwt : PyJwt τ} {settings : Settings}

theorem addTimedelta_ok {now delta exp : Nat} (h : addTimedelta now delta = .ok exp) :
    exp = now + delta := by
  unfold addTimedelta at h
  split at h
  · exact (Except.ok.inj h).symm
  · cases h

theorem addTimedelta_of_le {now delta : Nat} (h : now + delta ≤ maxDatetime) :
    addTimedelta now delta = .ok (now + delta) :=
  if_pos h

theorem secretKey_ok {key : String} (h : secretKey settings = .ok key) :
    settings.jwtSecretKey = some key := by
  unfold secretKey at h
  split at h
  · next hk => rw [hk, Except.ok.inj h]
  · cases h

/-- What a created access token was made of. -/
theorem createAccessTokenOf_ok {userId : UUID} {extraClaims : Dict String Claim} {now : Nat}
    {token : τ} (h : createAccessTokenOf jwt settings userId extraClaims now = .ok token) :
    ∃ key, secretKey settings = .ok key ∧
      jwt.encode ((basePayload userId now
          (now + settings.jwtAccessTokenExpireMinutes * 60 * 1000000) "access").update extraClaims)
        key settings.jwtAlgorithm = .ok token := by
  obtain ⟨exp, hexp, h⟩ := bind_ok h
  obtain ⟨key, hkey, h⟩ := bind_ok h
  rw [addTimedelta_ok hexp] at h
  exact ⟨key, hkey, h⟩

theorem createRefreshToken_ok {userId : UUID} {now : Nat} {token : τ}
    (h : createRefreshToken jwt settings userId now = .ok token) :
    ∃ key, secretKey settings = .ok key ∧
      jwt.encode (basePayload userId now
        (now + settings.jwtRefreshTokenExpireDays * 24 * 60 * 60 * 1000000) "refresh")
        key settings.jwtAlgorithm = .ok token := by
  obtain ⟨exp, hexp, h⟩ := bind_ok h
  obtain ⟨key, hkey, h⟩ := bind_ok h
  rw [addTimedelta_ok hexp] at h
  exact ⟨key, hkey, h⟩

theorem decodeToken_ok_iff {token : τ} {now : Nat} {key : String} {claims : Dict String Value}
    (hkey : secretKey settings = .ok key) :
    decodeToken jwt settings token now = .ok claims ↔
      jwt.decode token key [settings.jwtAlgorithm] now = .ok claims := by
  simp only [decodeToken, hkey, Except.mapError, bind, Except.bind]
  split <;> simp_all

/-- A decoded access token shows the extra claims, and its own where there are none. -/
theorem decodeToken_createAccessTokenOf (hjwt : RoundTrips jwt settings) {userId : UUID}
    {extraClaims : Dict String Claim} {now now' : Nat} {token : τ} {claims : Dict String Value}
    (h : createAccessTokenOf jwt settings userId extraClaims now = .ok token)
    (hd : decodeToken jwt settings token now' = .ok claims) (k : String) :
    claims.get? k = ((extraClaims.get? k).or ((basePayload userId now
      (now + settings.jwtAccessTokenExpireMinutes * 60 * 1000000) "access").get? k)).map
        Claim.decoded := by
  obtain ⟨key, hkey, henc⟩ := createAccessTokenOf_ok h
  rw [decodeToken_ok_iff hkey] at hd
  rw [(hjwt key (secretKey_ok hkey)).decode_eq henc hd, Dict.get?_mapValues, Dict.get?_update]

theorem decodeToken_createAccessToken (hjwt : RoundTrips jwt settings) {userId : UUID}
    {extraClaims : Dict String Value} {now now' : Nat} {token : τ} {claims : Dict String Value}
    (h : createAccessToken jwt settings userId extraClaims now = .ok token)
    (hd : decodeToken jwt settings token now' = .ok claims) (k : String) :
    claims.get? k = (extraClaims.get? k).or (((basePayload userId now
      (now + settings.jwtAccessTokenExpireMinutes * 60 * 1000000) "access").get? k).map
        Claim.decoded) := by
  rw [decodeToken_createAccessTokenOf hjwt h hd, Dict.get?_mapValues]
  cases extraClaims.get? k <;> simp [Claim.decoded]

theorem decodeToken_createRefreshToken (hjwt : RoundTrips jwt settings) {userId : UUID}
    {now now' : Nat} {token : τ} {claims : Dict String Value}
    (h : createRefreshToken jwt settings userId now = .ok token)
    (hd : decodeToken jwt settings token now' = .ok claims) (k : String) :
    claims.get? k = ((basePayload userId now
      (now + settings.jwtRefreshTokenExpireDays * 24 * 60 * 60 * 1000000) "refresh").get? k).map
        Claim.decoded := by
  obtain ⟨key, hkey, henc⟩ := createRefreshToken_ok h
  rw [decodeToken_ok_iff hkey] at hd
  rw [(hjwt key (secretKey_ok hkey)).decode_eq henc hd, Dict.get?_mapValues]

theorem plainPayload_base (userId : UUID) (now exp : Nat) (type : String) :
    PlainPayload (basePayload userId now exp type) now exp where
  iat_eq := rfl
  exp_eq := rfl
  sub_str := ⟨_, rfl⟩
  get_eq_none := by
    intro k hk hiat hexp
    simp only [checkedClaims, List.mem_cons, List.not_mem_nil, or_false] at hk
    rcases hk with rfl | rfl | rfl | rfl | rfl
    · exact absurd rfl hiat
    · exact absurd rfl hexp
    all_goals rfl

/-- Extra claims other than the checked ones, with a string for a subject if any, leave a
payload plain. -/
theorem PlainPayload.update {payload extraClaims : Dict String Claim} {iat exp : Nat}
    (h : PlainPayload payload iat exp) (hnone : ∀ k ∈ checkedClaims, extraClaims.get? k = none)
    (hsub : ∀ c, extraClaims.get? "sub" = some c → ∃ sub, c = .value (.str sub)) :
    PlainPayload (payload.update extraClaims) iat exp where
  iat_eq := (Dict.get?_update_of_none (hnone "iat" (by decide))).trans h.iat_eq
  exp_eq := (Dict.get?_update_of_none (hnone "exp" (by decide))).trans h.exp_eq
  sub_str := by
    rw [Dict.get?_update]
    cases hc : extraClaims.get? "sub" with
    | none => exact h.sub_str
    | some c =>
      obtain ⟨sub, rfl⟩ := hsub c hc
      exact ⟨sub, rfl⟩
  get_eq_none k hk hiat hexp :=
    (Dict.get?_update_of_none (hnone k hk)).trans (h.get_eq_none k hk hiat hexp)

/-- From the moment of issue to the expiry, an access token decodes whose extra claims name
none of the checked ones. -/
theorem decodeToken_of_unexpired (hjwt : RoundTrips jwt settings) {userId : UUID}
    {extraClaims : Dict String Claim} {now now' : Nat} {token : τ}
    (hnone : ∀ k ∈ checkedClaims, extraClaims.get? k = none)
    (hsub : ∀ c, extraClaims.get? "sub" = some c → ∃ sub, c = .value (.str sub))
    (h : createAccessTokenOf jwt settings userId extraClaims now = .ok token) (hle : now ≤ now')
    (hlt : now' <
      (now + settings.jwtAccessTokenExpireMinutes * 60 * 1000000) / 1000000 * 1000000) :
    ∃ claims, decodeToken jwt settings token now' = .ok claims := by
  obtain ⟨key, hkey, henc⟩ := createAccessTokenOf_ok h
  obtain ⟨claims, hc⟩ := (hjwt key (secretKey_ok hkey)).decode_ok henc
    ((plainPayload_base userId now _ "access").update hnone hsub) hle hlt
  exact ⟨claims, (decodeToken_ok_iff hkey).mpr hc⟩

theorem verifyToken_of_decodeToken {type : String} {token : τ} {now : Nat}
    {claims : Dict String Value} {userId : UUID}
    (hd : decodeToken jwt settings token now = .ok claims)
    (htype : claims.get? "type" = some (.str type))
    (hsub : claims.get? "sub" = some (.str userId.str)) :
    verifyToken jwt settings type token now = .ok userId := by
  have ht : (claims.getD "type" .none).inStrings [type] = true := by
    simp [Dict.getD, htype, Value.inStrings]
  have hs : subject claims = .ok userId := by
    simp only [subject, hsub, UUID.parse_str]
  rw [verifyToken, hd, ok_bind, if_pos ht, hs]
  rfl

theorem inStrings_iff {v : Value} {s : String} : v.inStrings [s] = true ↔ v = .str s := by
  cases v <;> simp [Value.inStrings]

theorem subject_ok_iff {payload : Dict String Value} {userId : UUID} :
    subject payload = .ok userId ↔
      ∃ sub, payload.get? "sub" = some (.str sub) ∧ UUID.parse sub = .ok userId := by
  unfold subject
  split <;> simp_all

/-- A token verifies as a user exactly when it decodes to the type asked for and a subject
that reads as the user's id. -/
theorem verifyToken_ok_iff {type : String} {token : τ} {now : Nat} {userId : UUID} :
    verifyToken jwt settings type token now = .ok userId ↔
      ∃ payload sub, decodeToken jwt settings token now = .ok payload ∧
        payload.get? "type" = some (.str type) ∧ payload.get? "sub" = some (.str sub) ∧
        UUID.parse sub = .ok userId := by
  have htype : ∀ payload : Dict String Value, (payload.getD "type" .none).inStrings [type] = true ↔
      payload.get? "type" = some (.str type) := by
    intro payload
    rw [inStrings_iff, Dict.getD]
    cases payload.get? "type" <;> simp
  constructor
  · intro h
    obtain ⟨payload, hd, h⟩ := bind_ok h
    split at h
    · next ht =>
      obtain ⟨sub, hsub, hparse⟩ := subject_ok_iff.mp (mapError_ok h)
      exact ⟨payload, sub, hd, (htype payload).mp ht, hsub, hparse⟩
    · cases h
  · rintro ⟨payload, sub, hd, ht, hsub, hparse⟩
    rw [verifyToken, hd, ok_bind, if_pos ((htype payload).mpr ht),
      subject_ok_iff.mpr ⟨sub, hsub, hparse⟩]
    rfl

/-- A token of another type does not verify. -/
theorem verifyToken_of_type_ne {type : String} {token : τ} {now : Nat}
    {payload : Dict String Value} (hd : decodeToken jwt settings token now = .ok payload)
    (ht : payload.get? "type" ≠ some (.str type)) :
    verifyToken jwt settings type token now = .error invalidTokenError := by
  have hne : ¬(payload.getD "type" .none).inStrings [type] = true := by
    rw [inStrings_iff, Dict.getD]
    cases hg : payload.get? "type" with
    | none => simp
    | some v => simpa [hg] using ht
  rw [verifyToken, hd, ok_bind, if_neg hne]

end

/-! ## Symbolic tokens -/

/-- A token that is its payload, with the key and the algorithm of its signature. -/
structure SignedToken where
  payload : Dict String Claim
  key : String
  algorithm : String

/-- A whole-second claim is at or before `now`. -/
def reached (claim : Option Claim) (now : Nat) : Bool :=
  match claim with
  | some (.datetime moment) => moment / 1000000 * 1000000 ≤ now
  | _ => false

/-- PyJWT over symbolic tokens: a signature is valid under its own key and algorithm
only, `iat` must not lie ahead and `exp` must. -/
def symbolicJwt : PyJwt SignedToken where
  encode payload key algorithm := .ok ⟨payload, key, algorithm⟩
  decode token key algorithms now :=
    if token.key ≠ key ∨ token.algorithm ∉ algorithms then .error .invalidToken
    else if (token.payload.get? "iat").isSome ∧ !reached (token.payload.get? "iat") now then
      .error .invalidToken
    else if reached (token.payload.get? "exp") now then .error .expiredSignature
    else .ok (token.payload.mapValues Claim.decoded)

theorem symbolicJwt_decode {payload : Dict String Claim} {iat exp now : Nat} (key algorithm : String)
    (hiat : payload.get? "iat" = some (.datetime iat))
    (hexp : payload.get? "exp" = some (.datetime exp))
    (hle : iat ≤ now) (hlt : now < exp / 1000000 * 1000000) :
    symbolicJwt.decode ⟨payload, key, algorithm⟩ key [algorithm] now =
      .ok (payload.mapValues Claim.decoded) := by
  have hi : reached (payload.get? "iat") now = true := by
    simp only [reached, hiat, decide_eq_true_eq]
    omega
  have he : reached (payload.get? "exp") now = false := by
    simp only [reached, hexp, decide_eq_false_iff_not]
    omega
  simp [symbolicJwt, hi, he]

theorem symbolicJwt_roundTrip (key algorithm : String) : symbolicJwt.RoundTrip key algorithm := by
  constructor
  · intro payload token now claims henc hdec
    obtain rfl := Except.ok.inj henc
    simp only [symbolicJwt] at hdec
    split_ifs at hdec
    exact (Except.ok.inj hdec).symm
  · intro payload token iat exp now henc hplain hle hlt
    obtain rfl := Except.ok.inj henc
    exact ⟨_, symbolicJwt_decode key algorithm hplain.iat_eq hplain.exp_eq hle hlt⟩

end RagEval.Security
