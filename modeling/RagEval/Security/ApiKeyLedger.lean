import RagEval.Lib.Runs
import RagEval.Security.ApiKeyCache

/-!
# The life of an API key

`generate_key` of `app/core/security/api_key_service.py`, the key stored with the repository's
`create`, and the calls of `validate_key` and `revoke_key` after it. Told from what the calls
returned alone, the live keys are a ledger: a key is entered when it has been created and struck out
when a revocation of it has returned `True`.

## Main definitions

- `generateKey`, `issueKey` — a key and its record
- `KeyRepository` — a repository with `create`
- `ledger` — the live keys, by what the calls returned

## Main result

- `validateKey_ledger` — the service validates the keys of the ledger, and as what was issued
-/

namespace RagEval.Security.ApiKeys
open RagEval.Lib

/-! ## Issuing keys -/

/-- The arguments of `generate_key` and what it draws. -/
structure KeyRequest where
  tenantId : String
  name : String
  permissions : Option (List String) := none
  randomPart : String
  keyId : String
  now : Nat

/-- `permissions or ["eval:read"]`. -/
def keyPermissions : Option (List String) → List String
  | none => ["eval:read"]
  | some [] => ["eval:read"]
  | some permissions => permissions

/-- `generate_key`: the plain key and its record. -/
def generateKey (sha256 : String → String) (request : KeyRequest) : String × APIKey :=
  let plainKey := "rag_eval_" ++ request.randomPart
  (plainKey,
    { keyId := request.keyId
      hashedKey := sha256 plainKey
      tenantId := request.tenantId
      name := request.name
      permissions := keyPermissions request.permissions
      createdAt := request.now
      expiresAt := none
      lastUsedAt := none
      isActive := true
      rateLimit := 1000 })

/-- A repository that also stores new keys. -/
structure KeyRepository (ρ ω : Type) extends APIKeyRepository ρ ω where
  create : ω → ρ → APIKey → Except PyError ρ

/-- A new key is stored under a digest that no key has, and changes nothing else; the record of a
revoked key is gone or no longer active. -/
structure KeyRepository.Lawful {ρ ω : Type} (repo : KeyRepository ρ ω) : Prop
    extends repo.toAPIKeyRepository.Lawful where
  create_fresh : ∀ {w r key r'}, repo.create w r key = .ok r' →
    repo.record r key.hashedKey = none
  record_create : ∀ {w r key r'}, repo.create w r key = .ok r' → ∀ hashed,
    repo.record r' hashed = if hashed = key.hashedKey then some key else repo.record r hashed
  record_revoked : ∀ {w r keyId r'}, repo.revoke w r keyId = .ok r' → ∀ {hashed key},
    repo.record r hashed = some key → key.keyId = keyId →
      (repo.record r' hashed).filter APIKey.isActive = none

/-- A call, and what it returned or raised. -/
inductive Reply where
  | issued (plainKey : String) (key : APIKey)
  | validated (hashed : String) (result : Option APIKey)
  | revoked (keyId : String) (success : Bool)
  | raised (e : PyError)

inductive KeyCall (ω : Type) where
  | issue (w : ω) (request : KeyRequest)
  | validate (w : ω) (now later : Nat) (key : String)
  | revoke (w : ω) (keyId : String)

section
variable {ρ ω : Type} (sha256 : String → String) (repo : KeyRepository ρ ω)

/-- Generate a key and store it. -/
def issueKey (w : ω) (request : KeyRequest) (s : Service ρ) : Reply × Service ρ :=
  let (plainKey, key) := generateKey sha256 request
  match repo.create w s.repository key with
  | .ok r => (.issued plainKey key, { s with repository := r })
  | .error e => (.raised e, s)

/-- One call, with what it replies and what it leaves behind. -/
def serve (s : Service ρ) : KeyCall ω → Reply × Service ρ
  | .issue w request => issueKey sha256 repo w request s
  | .validate w now later key =>
    match validateKey sha256 repo.toAPIKeyRepository w now later key s with
    | .ok (result, s') => (.validated (sha256 key) result, s')
    | .error e => (.raised e, s)
  | .revoke w keyId =>
    let (success, s') := revokeKey repo.toAPIKeyRepository w keyId s
    (.revoked keyId success, s')

def KeyStep (s : Service ρ) (reply : Reply) (s' : Service ρ) : Prop :=
  ∃ call, serve sha256 repo s call = (reply, s')

end

/-! ## The ledger -/

/-- The live keys by their digests. -/
abbrev Ledger := String → Option APIKey

/-- What a reply says of the live keys. -/
def Ledger.enter (live : Ledger) : Reply → Ledger
  | .issued _ key => Function.update live key.hashedKey (some key)
  | .revoked keyId true => fun hashed => (live hashed).filter fun key => key.keyId ≠ keyId
  | _ => live

/-- The live keys after these replies. -/
def ledger (replies : List Reply) : Ledger := replies.foldl Ledger.enter fun _ => none

section
variable {ρ ω : Type} {sha256 : String → String} {repo : KeyRepository ρ ω} {s s' : Service ρ}
  {live : Ledger}

/-- The service keeps the ledger: the active records of its repository are the live keys, but for
the time of their last use, none of them expires, and the cache mirrors the repository. -/
structure Keeps (repo : KeyRepository ρ ω) (s : Service ρ) (live : Ledger) : Prop where
  mirrors : Mirrors repo.toAPIKeyRepository s
  records : ∀ hashed, ((repo.record s.repository hashed).filter APIKey.isActive).map
    APIKey.untouched = (live hashed).map APIKey.untouched
  entries : ∀ {hashed key}, live hashed = some key → key.isActive = true ∧ key.expiresAt = none

theorem isActive_untouched (key : APIKey) : key.untouched.isActive = key.isActive := rfl

/-- Whether a key passes a test does not depend on when it was last used. -/
theorem filter_map_untouched {p : APIKey → Bool} (hp : ∀ key, p key.untouched = p key)
    (found : Option APIKey) :
    (found.filter p).map APIKey.untouched = (found.map APIKey.untouched).filter p := by
  cases found with
  | none => rfl
  | some key =>
    rw [Option.map_some, Option.filter_some, Option.filter_some, hp]
    split <;> rfl

/-- Of a live key the service accepts the record, of any other none. -/
theorem Keeps.accepts_eq (h : Keeps repo s live) (hashed : String) (now : Nat) :
    (accepts (repo.record s.repository hashed) now).map APIKey.untouched =
      (live hashed).map APIKey.untouched := by
  have hrecords := h.records hashed
  cases hrecord : repo.record s.repository hashed with
  | none =>
    rw [hrecord] at hrecords
    exact hrecords
  | some key =>
    rw [hrecord, Option.filter_some] at hrecords
    cases hactive : key.isActive with
    | false =>
      rw [hactive] at hrecords
      have hrefused : accepts (some key) now = none := by simp [accepts, hactive]
      rw [hrefused]
      exact hrecords
    | true =>
      rw [hactive, if_pos rfl, Option.map_some] at hrecords
      obtain ⟨entry, hentry, hsame⟩ := Option.map_eq_some_iff.mp hrecords.symm
      have hexpires : key.expiresAt = none := by
        have := congrArg APIKey.expiresAt hsame
        exact this.symm.trans (h.entries hentry).2
      have haccepted : accepts (some key) now = some key :=
        accepts_some_iff.mpr ⟨rfl, hactive, by rw [APIKey.expired, hexpires]⟩
      rw [haccepted]
      exact hrecords

/-! ## What a call does to the ledger -/

theorem Keeps.issue (h : Keeps repo s live) (hrepo : repo.Lawful) {w : ω} {request : KeyRequest}
    {reply : Reply} (hcall : issueKey sha256 repo w request s = (reply, s')) :
    Keeps repo s' (live.enter reply) := by
  unfold issueKey at hcall
  dsimp only at hcall
  split at hcall
  · next r hcreate =>
    obtain ⟨rfl, rfl⟩ := Prod.mk.inj hcall
    have hrecord := hrepo.record_create hcreate
    refine ⟨fun hashed key hget => ?_, fun hashed => ?_, fun {hashed key} hkey => ?_⟩
    · obtain ⟨hactive, hmirrored⟩ := h.mirrors hashed key hget
      refine ⟨hactive, ?_⟩
      rw [hrecord, if_neg]
      · exact hmirrored
      · -- what is cached is stored, the new digest is not
        rintro rfl
        rw [hrepo.create_fresh hcreate] at hmirrored
        cases hmirrored
    · rw [hrecord, Ledger.enter]
      by_cases hsame : hashed = (generateKey sha256 request).2.hashedKey
      · subst hsame
        rw [if_pos rfl, Function.update_self]
        rfl
      · rw [if_neg hsame, Function.update_of_ne hsame]
        exact h.records hashed
    · rw [Ledger.enter] at hkey
      by_cases hsame : hashed = (generateKey sha256 request).2.hashedKey
      · subst hsame
        rw [Function.update_self, Option.some.injEq] at hkey
        exact hkey ▸ ⟨rfl, rfl⟩
      · rw [Function.update_of_ne hsame] at hkey
        exact h.entries hkey
  · obtain ⟨rfl, rfl⟩ := Prod.mk.inj hcall
    exact h

theorem Keeps.validate (h : Keeps repo s live) (hrepo : repo.Lawful) {w : ω} {now later : Nat}
    {key : String} {result : Option APIKey}
    (hcall : validateKey sha256 repo.toAPIKeyRepository w now later key s = .ok (result, s')) :
    Keeps repo s' live := by
  refine ⟨h.mirrors.validate hrepo.toLawful hcall, fun hashed => ?_, h.entries⟩
  have huntouched : (repo.record s'.repository hashed).map APIKey.untouched =
      (repo.record s.repository hashed).map APIKey.untouched := by
    obtain ⟨-, -, -, rfl⟩ | ⟨-, -, -, ⟨-, rfl⟩ | ⟨apiKey, r, -, rfl, hr⟩⟩ :=
      validateKey_cases hcall
    · rfl
    · rfl
    · obtain rfl | hr := hr
      · rfl
      · exact hrepo.record_updateLastUsed hr hashed
  rw [filter_map_untouched isActive_untouched, huntouched,
    ← filter_map_untouched isActive_untouched]
  exact h.records hashed

theorem Keeps.revoke (h : Keeps repo s live) (hrepo : repo.Lawful) (w : ω) (keyId : String) :
    Keeps repo (revokeKey repo.toAPIKeyRepository w keyId s).2
      (live.enter (.revoked keyId (revokeKey repo.toAPIKeyRepository w keyId s).1)) := by
  have hmirrors := h.mirrors.revoke hrepo.toLawful w keyId
  revert hmirrors
  unfold revokeKey
  split
  · next r hr =>
    intro hmirrors
    refine ⟨hmirrors, fun hashed => ?_, fun {hashed key} hkey => ?_⟩
    · show ((repo.record r hashed).filter APIKey.isActive).map APIKey.untouched =
        ((live hashed).filter fun key => key.keyId ≠ keyId).map APIKey.untouched
      rw [filter_map_untouched (p := fun key => key.keyId ≠ keyId) (fun key => rfl), ← h.records,
        ← filter_map_untouched (fun key => rfl)]
      cases hrecord : repo.record s.repository hashed with
      | none =>
        rw [hrepo.record_revoke hr hashed (by simp [hrecord]), hrecord]
        rfl
      | some key =>
        by_cases hid : key.keyId = keyId
        · -- the revoked key itself
          have hstruck : ((some key).filter APIKey.isActive).filter
              (fun key => decide (key.keyId ≠ keyId)) = none := by
            cases hactive : key.isActive <;> simp [Option.filter_some, hactive, hid]
          rw [hstruck, hrepo.record_revoked hr hrecord hid]
        · rw [hrepo.record_revoke hr hashed, hrecord]
          · cases hactive : key.isActive <;> simp [Option.filter_some, hactive, hid]
          · intro key' hkey'
            rw [hrecord, Option.some.injEq] at hkey'
            exact hkey' ▸ hid
    · obtain ⟨hlive, -⟩ := Option.filter_eq_some_iff.mp (show (live hashed).filter _ = _ from hkey)
      exact h.entries hlive
  · exact fun _ => h

theorem KeyStep.keeps {reply : Reply} (h : KeyStep sha256 repo s reply s') (hrepo : repo.Lawful)
    (hs : Keeps repo s live) : Keeps repo s' (live.enter reply) := by
  obtain ⟨call, hcall⟩ := h
  cases call with
  | issue w request => exact hs.issue hrepo hcall
  | validate w now later key =>
    rw [serve] at hcall
    split at hcall
    · next result t hvalidate =>
      obtain ⟨rfl, rfl⟩ := Prod.mk.inj hcall
      exact hs.validate hrepo hvalidate
    · obtain ⟨rfl, rfl⟩ := Prod.mk.inj hcall
      exact hs
  | revoke w keyId =>
    obtain ⟨rfl, rfl⟩ := Prod.mk.inj hcall
    exact hs.revoke hrepo w keyId

end

/-! ## A repository in memory -/

/-- Store a record under a new id. -/
def Records.insert (r : Records) (key : APIKey)
    (hfresh : ∀ hashed key', r.byHash.get? hashed = some key' → key'.keyId ≠ key.keyId) :
    Records where
  byHash := r.byHash.set key.hashedKey key
  hash_unique := by
    intro hashed hashed' key₁ key₂ h₁ h₂ hid
    obtain ⟨rfl, rfl⟩ | ⟨-, h₁⟩ := Dict.get?_set_cases h₁
    · obtain ⟨rfl, -⟩ | ⟨-, h₂⟩ := Dict.get?_set_cases h₂
      · rfl
      · exact absurd hid.symm (hfresh _ _ h₂)
    · obtain ⟨rfl, rfl⟩ | ⟨-, h₂⟩ := Dict.get?_set_cases h₂
      · exact absurd hid (hfresh _ _ h₁)
      · exact r.hash_unique h₁ h₂ hid

theorem Records.fresh_of_all {r : Records} {keyId : String}
    (h : r.byHash.values.all fun key => key.keyId ≠ keyId) {hashed : String} {key : APIKey}
    (hget : r.byHash.get? hashed = some key) : key.keyId ≠ keyId := by
  rw [List.all_eq_true] at h
  simpa using h key ((Dict.mem_values_iff _ _).mpr ⟨hashed, hget⟩)

/-- The repository of `inMemory` with a `create` that refuses digests and ids it has. -/
def inMemoryKeys : KeyRepository Records (Nat × Bool) :=
  { inMemory with
    create := fun w r key =>
      if h : w.2 = true ∧ r.byHash.get? key.hashedKey = none ∧
          r.byHash.values.all fun stored => stored.keyId ≠ key.keyId then
        .ok (r.insert key fun _ _ hget => Records.fresh_of_all h.2.2 hget)
      else .error (.valueError "not stored") }

theorem inMemoryKeys_lawful : inMemoryKeys.Lawful where
  toLawful := inMemory_lawful
  create_fresh := by
    intro w r key r' h
    simp only [inMemoryKeys] at h
    split at h
    · next hfresh => exact hfresh.2.1
    · cases h
  record_create := by
    intro w r key r' h hashed
    simp only [inMemoryKeys] at h
    split at h
    · obtain rfl := Except.ok.inj h
      show (r.byHash.set key.hashedKey key).get? hashed = _
      rw [Dict.get?_set]
      simp only [eq_comm]
      rfl
    · cases h
  record_revoked := by
    intro w r keyId r' h hashed key hrecord hid
    simp only [inMemoryKeys, inMemory] at h hrecord
    split_ifs at h
    obtain rfl := Except.ok.inj h
    show ((r.modify keyId _ _).byHash.get? hashed).filter APIKey.isActive = none
    rw [Records.get?_modify, hrecord, Option.map_some, if_pos hid]
    rfl

namespace LedgerDemo
open CacheDemo

def noRecords : Records := ⟨Dict.empty, fun h => nomatch h⟩

def request : KeyRequest where
  tenantId := "default"
  name := "demo"
  randomPart := "0123456789"
  keyId := "0123456789abcdef0123456789abcdef"
  now := 0

def issuedKey : APIKey := (generateKey sha256 request).2

/-- The service after the key has been issued. -/
def issued : Service Records :=
  (serve sha256 inMemoryKeys ⟨noRecords, Dict.empty⟩ (.issue (10, true) request)).2

theorem issued_run : Run (KeyStep sha256 inMemoryKeys) ⟨noRecords, Dict.empty⟩
    [.issued "rag_eval_0123456789" issuedKey] issued :=
  .single ⟨.issue (10, true) request, rfl⟩

end LedgerDemo

end RagEval.Security.ApiKeys
