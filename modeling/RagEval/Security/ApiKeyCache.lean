import RagEval.Lib.Loop
import RagEval.Security.ApiKeyService

/-!
# The cache of API keys

Calls of `validate_key` and `revoke_key` that follow one another. The repository is a
parameter: its states are of any type, a call either raises or does what the protocol in
`app/core/security/api_key_service.py` says it does, and `Lawful` is that protocol.

## Main result

- `validateKey_agrees` — a call returns what the repository alone would have it return
-/

namespace RagEval.Security.ApiKeys
open RagEval.Lib

/-- A repository with states `ρ`. What a call does may depend on its circumstances `ω`,
such as the moment or the network; a call that raises has changed nothing. -/
structure APIKeyRepository (ρ ω : Type) where
  record : ρ → String → Option APIKey
  getByKeyHash : ω → ρ → String → Except PyError (Option APIKey)
  updateLastUsed : ω → ρ → String → Except PyError ρ
  revoke : ω → ρ → String → Except PyError ρ

/-- All there is to a key but the time it was last used. -/
def APIKey.untouched (key : APIKey) : APIKey := { key with lastUsedAt := none }

/-- A read finds the record under the hash, no two records share an id, a use changes
nothing but `last_used_at`, and a revocation no record but that of its key. -/
structure APIKeyRepository.Lawful {ρ ω : Type} (repo : APIKeyRepository ρ ω) : Prop where
  found_eq : ∀ {w r hashed found}, repo.getByKeyHash w r hashed = .ok found →
    found = repo.record r hashed
  hash_unique : ∀ {r hashed hashed' key key'}, repo.record r hashed = some key →
    repo.record r hashed' = some key' → key.keyId = key'.keyId → hashed = hashed'
  record_updateLastUsed : ∀ {w r keyId r'}, repo.updateLastUsed w r keyId = .ok r' → ∀ hashed,
    (repo.record r' hashed).map APIKey.untouched = (repo.record r hashed).map APIKey.untouched
  record_revoke : ∀ {w r keyId r'}, repo.revoke w r keyId = .ok r' → ∀ hashed,
    (∀ key, repo.record r hashed = some key → key.keyId ≠ keyId) →
      repo.record r' hashed = repo.record r hashed

/-- The service with its repository. -/
structure Service (ρ : Type) where
  repository : ρ
  cache : Cache

/-- A call of either coroutine. `validate_key` reads the clock twice, for the cached
record and for the one of the repository. -/
inductive Call (ω : Type) where
  | validate (w : ω) (now later : Nat) (key : String)
  | revoke (w : ω) (keyId : String)

section
variable {ρ ω : Type} (sha256 : String → String) (repo : APIKeyRepository ρ ω)

/-- `validate_key` with what it leaves behind; where it raises it leaves all as it was. -/
def validateKey (w : ω) (now later : Nat) (key : String) (s : Service ρ) :
    Except PyError (Option APIKey × Service ρ) :=
  let hashed := sha256 key
  match lookupCache s.cache hashed now with
  | some cached => .ok (some cached, s)
  | none => do
    let found ← repo.getByKeyHash w s.repository hashed
    match accepts found later with
    | none => .ok (none, s)
    | some apiKey =>
      -- an exception of `update_last_used` is logged
      let repository := match repo.updateLastUsed w s.repository apiKey.keyId with
        | .ok r => r
        | .error _ => s.repository
      .ok (some apiKey, ⟨repository, s.cache.set hashed apiKey⟩)

/-- `revoke_key`. -/
def revokeKey (w : ω) (keyId : String) (s : Service ρ) : Bool × Service ρ :=
  match repo.revoke w s.repository keyId with
  | .ok r => (true, ⟨r, purge s.cache keyId⟩)
  | .error _ => (false, s)

/-- The service after a call. -/
def perform (s : Service ρ) : Call ω → Service ρ
  | .validate w now later key =>
    match validateKey sha256 repo w now later key s with
    | .ok (_, s') => s'
    | .error _ => s
  | .revoke w keyId => (revokeKey repo w keyId s).2

/-- `validate_key` of a service without a cache. -/
def validateUncached (w : ω) (now : Nat) (key : String) (r : ρ) : Except PyError (Option APIKey) := do
  let found ← repo.getByKeyHash w r (sha256 key)
  return accepts found now

/-- Each cached record is active, and but for the time of its last use it is the record
of the repository. -/
def Mirrors (s : Service ρ) : Prop :=
  ∀ hashed key, s.cache.get? hashed = some key → key.isActive = true ∧
    (repo.record s.repository hashed).map APIKey.untouched = some key.untouched

end

section
variable {ρ ω : Type} {sha256 : String → String} {repo : APIKeyRepository ρ ω}
  {s : Service ρ}

theorem mirrors_init (r : ρ) : Mirrors repo ⟨r, Dict.empty⟩ :=
  fun _ _ h => (nomatch h)

/-- Whether a record is accepted does not depend on when it was last used. -/
theorem accepts_map_untouched {found found' : Option APIKey} (now : Nat)
    (h : found.map APIKey.untouched = found'.map APIKey.untouched) :
    (accepts found now).map APIKey.untouched = (accepts found' now).map APIKey.untouched := by
  have hcommutes : ∀ found : Option APIKey, (accepts found now).map APIKey.untouched =
      accepts (found.map APIKey.untouched) now := by
    intro found
    cases found with
    | none => rfl
    | some key =>
      show (if key.isActive && !key.expired now then some key else none).map APIKey.untouched =
        if key.isActive && !key.expired now then some key.untouched else none
      rw [apply_ite (Option.map APIKey.untouched)]
      rfl
  rw [hcommutes, hcommutes, h]

theorem keyId_eq_of_untouched {key key' : APIKey} (h : key.untouched = key'.untouched) :
    key.keyId = key'.keyId := by
  have := congrArg APIKey.keyId h
  exact this

/-- The cached records of one key are one entry, for so are those of the repository. -/
theorem Mirrors.hash_unique (hs : Mirrors repo s) (hrepo : repo.Lawful) {hashed hashed' : String}
    {key key' : APIKey} (h : s.cache.get? hashed = some key) (h' : s.cache.get? hashed' = some key')
    (hid : key.keyId = key'.keyId) : hashed = hashed' := by
  obtain ⟨record, hrecord, heq⟩ := Option.map_eq_some_iff.mp (hs _ _ h).2
  obtain ⟨record', hrecord', heq'⟩ := Option.map_eq_some_iff.mp (hs _ _ h').2
  apply hrepo.hash_unique hrecord hrecord'
  rw [keyId_eq_of_untouched heq, keyId_eq_of_untouched heq', hid]

/-- What a call of `validate_key` can do: return a cached record, refuse the record read,
or return it, put it into the cache and note its use. -/
theorem validateKey_cases {w : ω} {now later : Nat} {key : String} {result : Option APIKey}
    {s' : Service ρ} (h : validateKey sha256 repo w now later key s = .ok (result, s')) :
    (∃ cached, lookupCache s.cache (sha256 key) now = some cached ∧ result = some cached ∧ s' = s) ∨
    (∃ found, repo.getByKeyHash w s.repository (sha256 key) = .ok found ∧
      result = accepts found later ∧
      ((result = none ∧ s' = s) ∨
        ∃ apiKey r, result = some apiKey ∧ s' = ⟨r, s.cache.set (sha256 key) apiKey⟩ ∧
          (r = s.repository ∨ repo.updateLastUsed w s.repository apiKey.keyId = .ok r))) := by
  simp only [validateKey] at h
  split at h
  · next cached hit =>
    obtain ⟨rfl, rfl⟩ := Prod.mk.inj (Except.ok.inj h)
    exact .inl ⟨cached, hit, rfl, rfl⟩
  · obtain ⟨found, hfound, h⟩ := bind_ok h
    refine .inr ⟨found, hfound, ?_⟩
    split at h
    · next hrefused =>
      obtain ⟨rfl, rfl⟩ := Prod.mk.inj (Except.ok.inj h)
      exact ⟨hrefused.symm, .inl ⟨rfl, rfl⟩⟩
    · next apiKey haccepted =>
      obtain ⟨rfl, rfl⟩ := Prod.mk.inj (Except.ok.inj h)
      refine ⟨haccepted.symm, .inr ⟨apiKey, _, rfl, rfl, ?_⟩⟩
      split
      · next hr => exact .inr hr
      · exact .inl rfl

/-- A call of `validate_key` raises only what the read raised. -/
theorem validateUncached_of_error {w : ω} {now later : Nat} {key : String} {e : PyError}
    (h : validateKey sha256 repo w now later key s = .error e) :
    validateUncached sha256 repo w later key s.repository = .error e := by
  simp only [validateKey] at h
  split at h
  · cases h
  · cases hread : repo.getByKeyHash w s.repository (sha256 key) with
    | error e' =>
      rw [hread] at h
      obtain rfl := Except.error.inj h
      rw [validateUncached, hread]
      rfl
    | ok found =>
      rw [hread] at h
      simp only [bind, Except.bind] at h
      split at h <;> cases h

/-- Noting a use leaves the cache a mirror, and so does caching the record found. -/
theorem Mirrors.validate (hs : Mirrors repo s) (hrepo : repo.Lawful) {w : ω} {now later : Nat}
    {key : String} {result : Option APIKey} {s' : Service ρ}
    (h : validateKey sha256 repo w now later key s = .ok (result, s')) : Mirrors repo s' := by
  obtain ⟨cached, -, -, rfl⟩ | ⟨found, hfound, hresult, hcases⟩ := validateKey_cases h
  · exact hs
  · obtain ⟨-, rfl⟩ | ⟨apiKey, r, rfl, rfl, hr⟩ := hcases
    · exact hs
    · have hrecord : ∀ hashed, (repo.record r hashed).map APIKey.untouched =
          (repo.record s.repository hashed).map APIKey.untouched := by
        obtain rfl | hr := hr
        · exact fun _ => rfl
        · exact hrepo.record_updateLastUsed hr
      obtain ⟨rfl, hactive, -⟩ := accepts_some_iff.mp hresult.symm
      -- the new entry is the record just read, the others mirror records as they were
      intro hashed key' hget
      rw [hrecord]
      obtain ⟨rfl, rfl⟩ | ⟨-, hget⟩ := Dict.get?_set_cases hget
      · rw [← hrepo.found_eq hfound]
        exact ⟨hactive, rfl⟩
      · exact hs _ _ hget

/-- After a revocation the entries left are of other keys, whose records are as they were. -/
theorem Mirrors.revoke (hs : Mirrors repo s) (hrepo : repo.Lawful) (w : ω) (keyId : String) :
    Mirrors repo (revokeKey repo w keyId s).2 := by
  unfold revokeKey
  split
  · next r hr =>
    intro hashed key hget
    obtain ⟨hget, hne⟩ := (get?_purge_of_unique (hs.hash_unique hrepo) _ _ _).mp hget
    obtain ⟨hactive, hrecord⟩ := hs _ _ hget
    refine ⟨hactive, ?_⟩
    show (repo.record r hashed).map APIKey.untouched = some key.untouched
    rw [hrepo.record_revoke hr, hrecord]
    intro record hrec
    rw [hrec, Option.map_some, Option.some.injEq] at hrecord
    exact keyId_eq_of_untouched hrecord ▸ hne
  · exact hs

theorem Mirrors.step (hs : Mirrors repo s) (hrepo : repo.Lawful) (c : Call ω) :
    Mirrors repo (perform sha256 repo s c) := by
  cases c with
  | validate w now later key =>
    show Mirrors repo (match validateKey sha256 repo w now later key s with
      | .ok (_, s') => s'
      | .error _ => s)
    split
    · next h => exact hs.validate hrepo h
    · exact hs
  | revoke w keyId => exact hs.revoke hrepo w keyId

theorem Mirrors.performs (hs : Mirrors repo s) (hrepo : repo.Lawful) (calls : List (Call ω)) :
    Mirrors repo (calls.foldl (perform sha256 repo) s) := by
  induction calls generalizing s with
  | nil => exact hs
  | cons c calls ih => exact ih (hs.step hrepo c)

/-- A record found in the cache is the one the repository would have it accept. -/
theorem Mirrors.accepts_of_hit (hs : Mirrors repo s) {hashed : String} {now : Nat} {cached : APIKey}
    (hit : lookupCache s.cache hashed now = some cached) :
    (accepts (repo.record s.repository hashed) now).map APIKey.untouched = some cached.untouched := by
  have haccepted : accepts (some cached) now = some cached := by
    rw [accepts_some_iff]
    unfold lookupCache at hit
    split at hit
    · split_ifs at hit with hok
      obtain rfl := Option.some.inj hit
      simpa using hok
    · cases hit
  have hfound : (repo.record s.repository hashed).map APIKey.untouched =
      (some cached).map APIKey.untouched := (hs _ _ (lookupCache_some hit)).2
  rw [accepts_map_untouched now hfound, haccepted]
  rfl

end

/-- After any calls of the service, a call of `validate_key` returns what a service without
a cache would for the repository of that moment, but for `last_used_at`: at the time the
clock showed when the record returned was checked. Where it raises, so does the other. -/
theorem validateKey_agrees {ρ ω : Type} (sha256 : String → String)
    (repo : APIKeyRepository ρ ω) (hrepo : repo.Lawful) (r : ρ) (calls : List (Call ω)) (w : ω)
    (now later : Nat) (key : String) :
    let s := calls.foldl (perform sha256 repo) ⟨r, Dict.empty⟩
    match validateKey sha256 repo w now later key s with
    | .ok (result, _) => ∃ t ∈ [now, later], result.map APIKey.untouched =
        (accepts (repo.record s.repository (sha256 key)) t).map APIKey.untouched
    | .error e => validateUncached sha256 repo w later key s.repository = .error e := by
  intro s
  have hs : Mirrors repo s := (mirrors_init r).performs hrepo calls
  split
  · next result s' h =>
    obtain ⟨cached, hit, rfl, -⟩ | ⟨found, hfound, rfl, -⟩ := validateKey_cases h
    · exact ⟨now, by simp, (hs.accepts_of_hit hit).symm⟩
    · exact ⟨later, by simp, by rw [hrepo.found_eq hfound]⟩
  · next e h => exact validateUncached_of_error h

/-! ## A repository in memory -/

/-- Records by their hash, with ids of their own. -/
structure Records where
  byHash : Dict String APIKey
  hash_unique : ∀ {hashed hashed' key key'}, byHash.get? hashed = some key →
    byHash.get? hashed' = some key' → key.keyId = key'.keyId → hashed = hashed'

/-- Change the record of one key, but not its id. -/
def Records.modify (r : Records) (keyId : String) (f : APIKey → APIKey)
    (hf : ∀ key, (f key).keyId = key.keyId) : Records where
  byHash := r.byHash.mapValues fun key => if key.keyId = keyId then f key else key
  hash_unique := by
    have hid : ∀ key : APIKey, (if key.keyId = keyId then f key else key).keyId = key.keyId := by
      intro key
      rw [apply_ite APIKey.keyId, hf, ite_self]
    intro hashed hashed' key key' h h' heq
    rw [Dict.get?_mapValues, Option.map_eq_some_iff] at h h'
    obtain ⟨record, hrecord, rfl⟩ := h
    obtain ⟨record', hrecord', rfl⟩ := h'
    rw [hid, hid] at heq
    exact r.hash_unique hrecord hrecord' heq

theorem Records.get?_modify (r : Records) (keyId : String) (f : APIKey → APIKey)
    (hf : ∀ key, (f key).keyId = key.keyId) (hashed : String) :
    (r.modify keyId f hf).byHash.get? hashed =
      (r.byHash.get? hashed).map fun key => if key.keyId = keyId then f key else key :=
  Dict.get?_mapValues _ _ _

/-- A repository that keeps its records in memory, and answers while it is up. -/
def inMemory : APIKeyRepository Records (Nat × Bool) where
  record r hashed := r.byHash.get? hashed
  getByKeyHash w r hashed :=
    if w.2 then .ok (r.byHash.get? hashed) else .error (.valueError "connection closed")
  updateLastUsed w r keyId :=
    if w.2 then .ok (r.modify keyId (fun key => { key with lastUsedAt := some w.1 }) fun _ => rfl)
    else .error (.valueError "connection closed")
  revoke w r keyId :=
    if w.2 then .ok (r.modify keyId (fun key => { key with isActive := false }) fun _ => rfl)
    else .error (.valueError "connection closed")

theorem inMemory_lawful : inMemory.Lawful where
  found_eq := by
    intro w r hashed found h
    simp only [inMemory] at h
    split_ifs at h
    exact (Except.ok.inj h).symm
  hash_unique := by
    intro r hashed hashed' key key' h h' hid
    exact r.hash_unique h h' hid
  record_updateLastUsed := by
    intro w r keyId r' h hashed
    simp only [inMemory] at h
    split_ifs at h
    obtain rfl := Except.ok.inj h
    show ((r.modify _ _ _).byHash.get? hashed).map _ = (r.byHash.get? hashed).map _
    rw [Records.get?_modify, Option.map_map]
    congr 1
    funext key
    show (if key.keyId = keyId then { key with lastUsedAt := some w.1 } else key).untouched = _
    rw [apply_ite APIKey.untouched]
    exact ite_self _
  record_revoke := by
    intro w r keyId r' h hashed hne
    simp only [inMemory] at h
    split_ifs at h
    obtain rfl := Except.ok.inj h
    show (r.modify _ _ _).byHash.get? hashed = r.byHash.get? hashed
    rw [Records.get?_modify]
    cases hrecord : r.byHash.get? hashed with
    | none => rfl
    | some key => rw [Option.map_some, if_neg (hne key hrecord)]

namespace CacheDemo

def digest : String := "7f2e44b128ae33965fa2c0681434e0687b6d680561f61630747bc33d1355fda4"

def sha256 (text : String) : String := if text = "rag_eval_0123456789" then digest else text

def key : APIKey where
  keyId := "0123456789abcdef0123456789abcdef"
  hashedKey := digest
  tenantId := "default"
  name := "demo"
  permissions := ["eval:read"]
  createdAt := 0
  expiresAt := some 100
  lastUsedAt := none
  isActive := true
  rateLimit := 1000

def records : Records where
  byHash := Dict.ofList [(digest, key)]
  hash_unique := by
    have honly : ∀ {hashed key'}, (Dict.ofList [(digest, key)]).get? hashed = some key' →
        hashed = digest := by
      intro hashed key' h
      simpa [Dict.ofList] using Dict.mem_keys_of_get? h
    intro hashed hashed' key key' h h' _
    rw [honly h, honly h']

/-- The key is validated, and the repository goes down before it can be revoked. -/
def calls : List (Call (Nat × Bool)) :=
  [.validate (10, true) 10 10 "rag_eval_0123456789", .revoke (20, false) key.keyId]

end CacheDemo

open CacheDemo in
theorem validateKey_agrees_cached :
    ∃ s', validateKey sha256 inMemory (30, false) 30 30 "rag_eval_0123456789"
        (calls.foldl (perform sha256 inMemory) ⟨records, Dict.empty⟩) = .ok (some key, s') ∧
      ∃ t ∈ [30, 30], (some key).map APIKey.untouched = (accepts (inMemory.record
        (calls.foldl (perform sha256 inMemory) ⟨records, Dict.empty⟩).repository
          (sha256 "rag_eval_0123456789")) t).map APIKey.untouched :=
  ⟨_, rfl, validateKey_agrees sha256 inMemory inMemory_lawful records calls (30, false) 30 30
    "rag_eval_0123456789"⟩

end RagEval.Security.ApiKeys
