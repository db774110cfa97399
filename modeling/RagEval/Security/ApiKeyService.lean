import RagEval.Lib.Dict
import RagEval.Lib.Runs

/-!
# API keys

`app/core/security/api_key_service.py`: `validate_key` and `revoke_key` as coroutines
that share an in-memory cache and a repository. Each `await` on the repository is
two steps, one in which the call takes effect there and one in which the coroutine
goes on, and between any two steps the other calls may run.

The repository is outside the program: a read returns any record of the key asked
for, an inactive one once the key is revoked.

## Main definitions

- `lookupCache`, `accepts`, `purge` — what the coroutines do between awaits
- `Step` — one step of any of the running calls
-/

namespace RagEval.Security.ApiKeys
open RagEval.Lib

structure APIKey where
  keyId : String
  hashedKey : String
  tenantId : String
  name : String
  permissions : List String
  createdAt : Nat
  expiresAt : Option Nat
  lastUsedAt : Option Nat
  isActive : Bool
  rateLimit : Nat

/-- `key.expires_at and key.expires_at <= now`. -/
def APIKey.expired (key : APIKey) (now : Nat) : Bool :=
  match key.expiresAt with
  | some at' => at' ≤ now
  | none => false

/-- The digest and the ids of the stored keys; no two keys share an id. -/
structure Deployment where
  sha256 : String → String
  keyIdOf : String → String
  keyIdOf_injective : Function.Injective keyIdOf

abbrev Cache := Dict String APIKey

/-- The cache check of `validate_key`. -/
def lookupCache (cache : Cache) (hashed : String) (now : Nat) : Option APIKey :=
  match cache.get? hashed with
  | some cached => if cached.isActive && !cached.expired now then some cached else none
  | none => none

/-- The record read by `validate_key` is active and has not expired. -/
def accepts (found : Option APIKey) (now : Nat) : Option APIKey :=
  match found with
  | some key => if key.isActive && !key.expired now then some key else none
  | none => none

/-- The loop of `revoke_key` over the cache: the first entry of the key goes. -/
def purge (cache : Cache) (keyId : String) : Cache :=
  match cache.items.find? fun entry => entry.2.keyId = keyId with
  | some (hashed, _) => cache.erase hashed
  | none => cache

/-- Where a call of `validate_key` stands: awaiting the read, with the reply of the
read on its way, or awaiting `update_last_used`. -/
inductive ValidatePos where
  | reading
  | read (found : Option APIKey)
  | touching (key : APIKey)

/-- A running call of `validate_key`, with the ids whose revocation had returned
`True` when it started. -/
structure ValidateCall where
  hashed : String
  revokedBefore : List String
  pos : ValidatePos

/-- Where a call of `revoke_key` stands: before or after its effect on the repository. -/
inductive RevokeCall where
  | revoking (keyId : String)
  | revoked (keyId : String)

/-- The cache, the running calls, the ids revoked in the repository, and the ids whose
revocation returned `True`. -/
structure State where
  cache : Cache
  validating : List ValidateCall
  revoking : List RevokeCall
  revokedIds : List String
  returnedIds : List String

def State.init : State := ⟨Dict.empty, [], [], [], []⟩

/-- What a step shows: a call of `validate_key` with what it returned, a key put into
the cache, a call of `revoke_key` with what it returned, or nothing. -/
inductive Event where
  | cached (key : APIKey)
  | validated (hashed : String) (revokedBefore : List String) (result : Option APIKey)
  | revoked (keyId : String) (success : Bool)
  | internal

/-- What a read of the repository may find: a record of that key, inactive once the key
is revoked. -/
def Reads (dep : Deployment) (revokedIds : List String) (hashed : String) (found : Option APIKey) :
    Prop :=
  ∀ key, found = some key → key.keyId = dep.keyIdOf hashed ∧
    (key.keyId ∈ revokedIds → key.isActive = false)

/-- One step of a service with a repository. -/
inductive Step (dep : Deployment) : State → Event → State → Prop
  | validateHit {s : State} {plain : String} {now : Nat} {cached : APIKey}
      (hit : lookupCache s.cache (dep.sha256 plain) now = some cached) :
      Step dep s (.validated (dep.sha256 plain) s.returnedIds (some cached)) s
  | validateMiss {s : State} {plain : String} {now : Nat}
      (hmiss : lookupCache s.cache (dep.sha256 plain) now = none) :
      Step dep s .internal
        { s with validating := ⟨dep.sha256 plain, s.returnedIds, .reading⟩ :: s.validating }
  | repositoryRead {s : State} {before after : List ValidateCall} {hashed : String}
      {ids : List String} {found : Option APIKey}
      (hcall : s.validating = before ++ ⟨hashed, ids, .reading⟩ :: after)
      (hread : Reads dep s.revokedIds hashed found) :
      Step dep s .internal { s with validating := before ++ ⟨hashed, ids, .read found⟩ :: after }
  | repositoryRaised {s : State} {before after : List ValidateCall} {hashed : String}
      {ids : List String} (hcall : s.validating = before ++ ⟨hashed, ids, .reading⟩ :: after) :
      Step dep s .internal { s with validating := before ++ after }
  | validateRefused {s : State} {before after : List ValidateCall} {hashed : String}
      {ids : List String} {found : Option APIKey} {now : Nat}
      (hcall : s.validating = before ++ ⟨hashed, ids, .read found⟩ :: after)
      (hfound : accepts found now = none) :
      Step dep s (.validated hashed ids none) { s with validating := before ++ after }
  | validateAccepted {s : State} {before after : List ValidateCall} {hashed : String}
      {ids : List String} {found : Option APIKey} {key : APIKey} {now : Nat}
      (hcall : s.validating = before ++ ⟨hashed, ids, .read found⟩ :: after)
      (hfound : accepts found now = some key) :
      Step dep s (.cached key)
        { s with
          cache := s.cache.set hashed key
          validating := before ++ ⟨hashed, ids, .touching key⟩ :: after }
  -- `update_last_used` returned, or its exception was logged
  | validateReturned {s : State} {before after : List ValidateCall} {hashed : String}
      {ids : List String} {key : APIKey}
      (hcall : s.validating = before ++ ⟨hashed, ids, .touching key⟩ :: after) :
      Step dep s (.validated hashed ids (some key)) { s with validating := before ++ after }
  | revokeStarted {s : State} (keyId : String) :
      Step dep s .internal { s with revoking := .revoking keyId :: s.revoking }
  | repositoryRevoked {s : State} {before after : List RevokeCall} {keyId : String}
      (hcall : s.revoking = before ++ .revoking keyId :: after) :
      Step dep s .internal
        { s with
          revoking := before ++ .revoked keyId :: after
          revokedIds := keyId :: s.revokedIds }
  -- the repository raised, having revoked the key or not
  | revokeFailed {s : State} {before after : List RevokeCall} {keyId : String} (applied : Bool)
      (hcall : s.revoking = before ++ .revoking keyId :: after) :
      Step dep s (.revoked keyId false)
        { s with
          revoking := before ++ after
          revokedIds := if applied then keyId :: s.revokedIds else s.revokedIds }
  | revokeReturned {s : State} {before after : List RevokeCall} {keyId : String}
      (hcall : s.revoking = before ++ .revoked keyId :: after) :
      Step dep s (.revoked keyId true)
        { s with
          cache := purge s.cache keyId
          revoking := before ++ after
          returnedIds := keyId :: s.returnedIds }

theorem lookupCache_some {cache : Cache} {hashed : String} {now : Nat} {key : APIKey}
    (h : lookupCache cache hashed now = some key) : cache.get? hashed = some key := by
  unfold lookupCache at h
  split at h
  · split_ifs at h
    obtain rfl := Option.some.inj h
    assumption
  · cases h

theorem accepts_some_iff {found : Option APIKey} {now : Nat} {key : APIKey} :
    accepts found now = some key ↔
      found = some key ∧ key.isActive = true ∧ key.expired now = false := by
  unfold accepts
  split
  · next key' =>
    split_ifs with hactive
    · simp only [Bool.and_eq_true, Bool.not_eq_true'] at hactive
      constructor
      · intro h
        obtain rfl := Option.some.inj h
        exact ⟨rfl, hactive⟩
      · exact And.left
    · simp only [Bool.and_eq_true, Bool.not_eq_true', not_and] at hactive
      simp only [false_iff, Option.some.injEq]
      rintro ⟨rfl, ha, he⟩
      exact hactive ha he
  · simp

/-- The cached records carry the ids of their keys. -/
def CacheOk (dep : Deployment) (cache : Cache) : Prop :=
  ∀ hashed key, cache.get? hashed = some key → key.keyId = dep.keyIdOf hashed

/-- A purge takes out the only entry of the key, and no other. -/
theorem get?_purge_of_unique {cache : Cache}
    (hunique : ∀ {hashed hashed' : String} {key key' : APIKey}, cache.get? hashed = some key →
      cache.get? hashed' = some key' → key.keyId = key'.keyId → hashed = hashed')
    (keyId hashed : String) (key : APIKey) :
    (purge cache keyId).get? hashed = some key ↔
      cache.get? hashed = some key ∧ key.keyId ≠ keyId := by
  unfold purge
  split
  · next hashed' key' hfind =>
    have hmem := (Dict.get?_eq_some_iff _ _ _).mpr (List.mem_of_find?_eq_some hfind)
    have hid : key'.keyId = keyId := by simpa using List.find?_some hfind
    rw [Dict.get?_erase]
    split_ifs with heq
    · subst heq
      simp only [false_iff, not_and, not_not]
      intro hk
      rw [hmem, Option.some.injEq] at hk
      exact hk ▸ hid
    · refine ⟨fun hk => ⟨hk, fun hid' => heq ?_⟩, And.left⟩
      exact hunique hmem hk (hid.trans hid'.symm)
  · next hfind =>
    refine ⟨fun hk => ⟨hk, fun hid => ?_⟩, And.left⟩
    have := List.find?_eq_none.mp hfind (hashed, key) ((Dict.get?_eq_some_iff _ _ _).mp hk)
    simp [hid] at this

theorem get?_purge {dep : Deployment} {cache : Cache} (hcache : CacheOk dep cache) (keyId hashed : String)
    (key : APIKey) :
    (purge cache keyId).get? hashed = some key ↔
      cache.get? hashed = some key ∧ key.keyId ≠ keyId := by
  apply get?_purge_of_unique
  intro hashed hashed' key key' hk hk' hid
  apply dep.keyIdOf_injective
  rw [← hcache _ _ hk, ← hcache _ _ hk', hid]

end RagEval.Security.ApiKeys
