import RagEval.Lib.Split
import RagEval.Lib.Value

/-!
# Keys of the rate limits

`RateLimitDep._get_key` in `app/api/deps/rate_limit.py`. A key is written from the strategy, the
text of the subject and the path with colons between them; the subject is of the client's making,
and both it and the path may have colons in them.

## Main definitions

- `RateLimitDep.getKey` — as in the source
- `subject` — whom a strategy counts, if the request says
- `Overlaps` — one subject goes on into the path of the other

## Main result

- `getKey_separates_iff` — when two requests with one key have the same subject and path
-/

namespace RagEval.Api
open RagEval.Lib

/-- What `_get_key` reads of a request. -/
structure LimitedRequest where
  /-- `request.client.host`. -/
  client : Option String := none
  /-- `request.url.path`. -/
  path : String
  /-- The header `X-API-Key`. -/
  apiKey : Option String := none
  /-- `request.state.tenant_id`, as the tenant middleware sets it. -/
  tenantId : Option String := none
  /-- `request.state.user_id`, the `sub` of a token that nobody has verified yet. -/
  userId : Option Value := none

structure RateLimitDep where
  requestsPerMinute : Int := 60
  keyFunc : String := "ip"

/-- The strategies that `_get_key` knows. -/
def keyStrategies : List String := ["ip", "tenant", "user", "api_key"]

section
variable (str : Value → String)

/-- `_get_key`; `str` is the interpreter's. -/
def RateLimitDep.getKey (self : RateLimitDep) (request : LimitedRequest) : String :=
  if self.keyFunc = "ip" then
    let clientHost := request.client.getD "unknown"
    "rate_limit:ip:" ++ clientHost ++ ":" ++ request.path
  else if self.keyFunc = "tenant" then
    let tenantId := request.tenantId.getD "unknown"
    "rate_limit:tenant:" ++ tenantId ++ ":" ++ request.path
  else if self.keyFunc = "user" then
    let userId := (request.userId.map str).getD "anonymous"
    "rate_limit:user:" ++ userId ++ ":" ++ request.path
  else if self.keyFunc = "api_key" then
    let apiKey := request.apiKey.getD "unknown"
    "rate_limit:api_key:" ++ apiKey ++ ":" ++ request.path
  else "rate_limit:default:" ++ request.path

/-! ## Subjects -/

/-- Whom the strategy counts, if the request says: the client's host, the tenant, the user or the
API key. -/
def subject (keyFunc : String) (request : LimitedRequest) : Option Value :=
  if keyFunc = "ip" then request.client.map .str
  else if keyFunc = "tenant" then request.tenantId.map .str
  else if keyFunc = "user" then request.userId
  else if keyFunc = "api_key" then request.apiKey.map .str
  else none

/-- The subject as it is written into the key; one that the request does not say has a name too. -/
def subjectText (keyFunc : String) (request : LimitedRequest) : String :=
  if keyFunc = "ip" then request.client.getD "unknown"
  else if keyFunc = "tenant" then request.tenantId.getD "unknown"
  else if keyFunc = "user" then (request.userId.map str).getD "anonymous"
  else request.apiKey.getD "unknown"

/-- The subject `s'` is `s`, a colon and a text `w`, and the path `p` is `w`, a colon and `p'`. -/
def Overlaps (s p s' p' : String) : Prop := ∃ w, s' = s ++ ":" ++ w ∧ p = w ++ ":" ++ p'

/-- A key is the strategy, the subject and the path, with colons between them. -/
theorem getKey_eq {self : RateLimitDep} (h : self.keyFunc ∈ keyStrategies)
    (request : LimitedRequest) :
    self.getKey str request = "rate_limit:" ++ self.keyFunc ++ ":" ++
      (subjectText str self.keyFunc request ++ ":" ++ request.path) := by
  obtain ⟨requests, keyFunc⟩ := self
  have happend : ∀ start s p : String, start ++ s ++ ":" ++ p = start ++ (s ++ ":" ++ p) := by
    intro start s p
    simp only [String.append_assoc]
  simp only [keyStrategies, List.mem_cons, List.not_mem_nil, or_false] at h
  obtain rfl | rfl | rfl | rfl := h <;> exact happend _ _ _

theorem Overlaps.path_ne {s p s' p' : String} (h : Overlaps s p s' p') : p ≠ p' := by
  obtain ⟨w, -, hp⟩ := h
  intro heq
  have hlength := congrArg String.length (heq.symm.trans hp)
  simp only [String.length_append] at hlength
  have hcolon : ":".length = 1 := rfl
  omega

/-- A subject and a path can be told from their text unless one subject goes on into the other's
path. -/
theorem append_colon_eq_iff {s p s' p' : String} :
    s ++ ":" ++ p = s' ++ ":" ++ p' ↔
      (s = s' ∧ p = p') ∨ Overlaps s p s' p' ∨ Overlaps s' p' s p := by
  have hlist : ∀ s p : String, (s ++ ":" ++ p).toList = s.toList ++ ':' :: p.toList := by
    intro s p
    simp
  have hoverlaps : ∀ s p s' p' : String, Overlaps s p s' p' ↔
      ∃ w, s'.toList = s.toList ++ ':' :: w ∧ p.toList = w ++ ':' :: p'.toList := by
    intro s p s' p'
    constructor
    · rintro ⟨w, rfl, rfl⟩
      exact ⟨w.toList, hlist s w, hlist w p'⟩
    · rintro ⟨w, hs, hp⟩
      refine ⟨String.ofList w, String.toList_inj.mp ?_, String.toList_inj.mp ?_⟩
      · rw [hlist, String.toList_ofList, hs]
      · rw [hlist, String.toList_ofList, hp]
  rw [← String.toList_inj, hlist, hlist, Split.append_cons_eq_append_cons_iff, hoverlaps,
    hoverlaps, String.toList_inj, String.toList_inj]

theorem getKey_eq_iff {self self' : RateLimitDep} (h : self.keyFunc ∈ keyStrategies)
    (hsame : self'.keyFunc = self.keyFunc) (request request' : LimitedRequest) :
    self.getKey str request = self'.getKey str request' ↔
      subjectText str self.keyFunc request ++ ":" ++ request.path =
        subjectText str self.keyFunc request' ++ ":" ++ request'.path := by
  rw [getKey_eq str h, getKey_eq str (hsame ▸ h), hsame, String.append_right_inj]

/-- Two requests that have one key have one subject and one path exactly if neither subject goes
on into the other's path, and no two subjects are written the same. -/
theorem getKey_separates_iff (str : Value → String) (self self' : RateLimitDep)
    (h : self.keyFunc ∈ keyStrategies) (hsame : self'.keyFunc = self.keyFunc)
    (request request' : LimitedRequest) :
    (self.getKey str request = self'.getKey str request' →
        subject self.keyFunc request = subject self.keyFunc request' ∧
          request.path = request'.path) ↔
      (¬Overlaps (subjectText str self.keyFunc request) request.path
          (subjectText str self.keyFunc request') request'.path ∧
        ¬Overlaps (subjectText str self.keyFunc request') request'.path
          (subjectText str self.keyFunc request) request.path) ∧
        (subjectText str self.keyFunc request = subjectText str self.keyFunc request' →
          request.path = request'.path →
            subject self.keyFunc request = subject self.keyFunc request') := by
  rw [getKey_eq_iff str h hsame, append_colon_eq_iff]
  constructor
  · intro hseparates
    refine ⟨⟨fun hoverlaps => ?_, fun hoverlaps => ?_⟩, fun htext hpath => ?_⟩
    · exact hoverlaps.path_ne (hseparates (.inr (.inl hoverlaps))).2
    · exact hoverlaps.path_ne (hseparates (.inr (.inr hoverlaps))).2.symm
    · exact (hseparates (.inl ⟨htext, hpath⟩)).1
  · rintro ⟨⟨hleft, hright⟩, hsubject⟩ (⟨htext, hpath⟩ | hoverlaps | hoverlaps)
    · exact ⟨hsubject htext hpath, hpath⟩
    · exact absurd hoverlaps hleft
    · exact absurd hoverlaps hright

end

/-- Python's `str` on strings. -/
def strOfStr : Value → String
  | .str s => s
  | _ => ""

/-- Two tenants on one path have two keys. -/
theorem getKey_separates_tenants :
    (⟨1000, "tenant"⟩ : RateLimitDep).getKey strOfStr
        { path := "/api/v1/eval", tenantId := some "acme" } ≠
      (⟨10, "tenant"⟩ : RateLimitDep).getKey strOfStr
        { path := "/api/v1/eval", tenantId := some "acme:eu" } := by
  intro hkeys
  have hsubject := ((getKey_separates_iff strOfStr ⟨1000, "tenant"⟩ ⟨10, "tenant"⟩ (by decide) rfl
    { path := "/api/v1/eval", tenantId := some "acme" }
    { path := "/api/v1/eval", tenantId := some "acme:eu" }).mpr
      ⟨⟨fun h => h.path_ne rfl, fun h => h.path_ne rfl⟩,
        fun htext _ => absurd htext (by decide)⟩ hkeys).1
  exact absurd (Value.str.inj (Option.some.inj hsubject)) (by decide)

/-- A tenant named `acme:/v1` on one path has the key of `acme` on another, and a request without
a user has that of a user named `anonymous`. -/
theorem getKey_collides :
    ((⟨60, "tenant"⟩ : RateLimitDep).getKey strOfStr
          { path := "/v1:/eval", tenantId := some "acme" } =
        (⟨60, "tenant"⟩ : RateLimitDep).getKey strOfStr
          { path := "/eval", tenantId := some "acme:/v1" } ∧
      subject "tenant" { path := "/v1:/eval", tenantId := some "acme" } ≠
        subject "tenant" { path := "/eval", tenantId := some "acme:/v1" }) ∧
    ((⟨100, "user"⟩ : RateLimitDep).getKey strOfStr { path := "/eval" } =
        (⟨100, "user"⟩ : RateLimitDep).getKey strOfStr
          { path := "/eval", userId := some (.str "anonymous") } ∧
      subject "user" { path := "/eval" } ≠
        subject "user" { path := "/eval", userId := some (.str "anonymous") }) := by
  refine ⟨⟨by decide, fun h => ?_⟩, by decide, fun h => ?_⟩
  · exact absurd (Value.str.inj (Option.some.inj h)) (by decide)
  · exact Option.some_ne_none _ h.symm

end RagEval.Api
