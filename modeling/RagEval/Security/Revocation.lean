import RagEval.Security.ApiKeyService

/-!
# Validation after a revocation

A call of `validate_key` that read an active record and is resumed after
`revoke_key` has purged the cache and returned puts the revoked key back into the
cache, where later calls find it. These steps are the only ones that break the
promise of a revocation.

## Main results

- `revoked_key_not_validated` — runs without such a step keep the promise
- `raced_step_unsafe` — every such step lets the next call break it
- `unraced_of_quiet` — no such step occurs when no active read is pending at a purge
-/

namespace RagEval.Security.ApiKeys
open RagEval.Lib

/-- A call for the plain key of an id that returned a record did not start after the
revocation of that id had returned `True`. -/
def Safe (dep : Deployment) : Event → Prop
  | .validated hashed revokedBefore (some _) => dep.keyIdOf hashed ∉ revokedBefore
  | _ => True

/-- The step does not put a key into the cache whose revocation has returned `True`. -/
def Unraced (s : State) : Event → Prop
  | .cached key => key.keyId ∉ s.returnedIds
  | _ => True

def UnracedStep (dep : Deployment) (s : State) (e : Event) (s' : State) : Prop :=
  Step dep s e s' ∧ Unraced s e

/-- The record a call has in hand. -/
def ValidatePos.key : ValidatePos → Option APIKey
  | .reading => none
  | .read found => found
  | .touching key => some key

/-- What holds of a running call in every run: it is for a plain key, what it has in
hand is a record of that key, and what was revoked before it is revoked now. -/
structure ValidateCall.Ok (dep : Deployment) (returnedIds : List String) (c : ValidateCall) :
    Prop where
  hashed : ∃ plain, c.hashed = dep.sha256 plain
  keyId : ∀ key, c.pos.key = some key → key.keyId = dep.keyIdOf c.hashed
  before : c.revokedBefore ⊆ returnedIds

/-- What holds of every run. -/
structure State.Inv (dep : Deployment) (s : State) : Prop where
  cache : CacheOk dep s.cache
  calls : ∀ c ∈ s.validating, c.Ok dep s.returnedIds

/-- What holds of the runs without a race: no cached key is revoked, and no call is
about to return a key that was revoked before it. -/
structure State.Fresh (s : State) : Prop where
  cache : ∀ hashed key, s.cache.get? hashed = some key → key.keyId ∉ s.returnedIds
  touching : ∀ c ∈ s.validating, ∀ key, c.pos = .touching key → key.keyId ∉ c.revokedBefore

theorem State.Inv.init (dep : Deployment) : State.init.Inv dep :=
  ⟨fun _ _ h => (nomatch h), fun _ h => (nomatch h)⟩

theorem State.Fresh.init : State.init.Fresh :=
  ⟨fun _ _ h => (nomatch h), fun _ h => (nomatch h)⟩

section
variable {dep : Deployment} {s s' : State} {e : Event}

/-- A record may be cached under the hash of its own key. -/
theorem CacheOk.set {cache : Cache} (h : CacheOk dep cache) {hashed : String} {key : APIKey}
    (hkey : key.keyId = dep.keyIdOf hashed) : CacheOk dep (cache.set hashed key) := by
  intro hashed' key' hget
  obtain ⟨rfl, rfl⟩ | ⟨-, hget⟩ := Dict.get?_set_cases hget
  · exact hkey
  · exact h _ _ hget

theorem State.Inv.step (h : Step dep s e s') (hs : s.Inv dep) : s'.Inv dep := by
  obtain ⟨hcache, hcalls⟩ := hs
  cases h with
  | validateHit => exact ⟨hcache, hcalls⟩
  | validateMiss =>
    refine ⟨hcache, ?_⟩
    rw [List.forall_mem_cons]
    exact ⟨⟨⟨_, rfl⟩, fun _ h => (nomatch h), List.Subset.refl _⟩, hcalls⟩
  | repositoryRead hcall hread =>
    rw [hcall] at hcalls
    exact ⟨hcache, forall_replace hcalls fun h => ⟨h.hashed, fun key hk => (hread key hk).1, h.before⟩⟩
  | repositoryRaised hcall | validateRefused hcall | validateReturned hcall =>
    rw [hcall] at hcalls
    exact ⟨hcache, forall_remove hcalls⟩
  | validateAccepted hcall hfound =>
    have hkey := (hcalls _ (mem_split hcall)).keyId _ (accepts_some_iff.mp hfound).1
    rw [hcall] at hcalls
    refine ⟨hcache.set hkey, forall_replace hcalls fun h => ⟨h.hashed, ?_, h.before⟩⟩
    intro key' hk
    obtain rfl := Option.some.inj hk
    exact hkey
  | revokeStarted | repositoryRevoked | revokeFailed => exact ⟨hcache, hcalls⟩
  | revokeReturned =>
    refine ⟨fun hashed key hget => hcache _ _ ((get?_purge hcache _ _ _).mp hget).1, ?_⟩
    exact fun c hc => ⟨(hcalls c hc).hashed, (hcalls c hc).keyId,
      List.subset_cons_of_subset _ (hcalls c hc).before⟩

/-- Without a race the fresh states go to fresh states, and show safe events. -/
theorem State.Fresh.step (h : UnracedStep dep s e s') (hs : s.Inv dep) (hfresh : s.Fresh) :
    Safe dep e ∧ s'.Fresh := by
  obtain ⟨hstep, hunraced⟩ := h
  obtain ⟨hcache, htouching⟩ := hfresh
  cases hstep with
  | validateHit hit =>
    have hget := lookupCache_some hit
    refine ⟨?_, hcache, htouching⟩
    rw [Safe, ← hs.cache _ _ hget]
    exact hcache _ _ hget
  | validateMiss =>
    refine ⟨trivial, hcache, ?_⟩
    rw [List.forall_mem_cons]
    exact ⟨fun _ h => (nomatch h), htouching⟩
  | repositoryRead hcall =>
    rw [hcall] at htouching
    exact ⟨trivial, hcache, forall_replace htouching fun _ _ h => (nomatch h)⟩
  | repositoryRaised hcall | validateRefused hcall =>
    rw [hcall] at htouching
    exact ⟨trivial, hcache, forall_remove htouching⟩
  | validateAccepted hcall hfound =>
    have hbefore := (hs.calls _ (mem_split hcall)).before
    rw [hcall] at htouching
    refine ⟨trivial, ?_, forall_replace htouching fun _ key' hpos => ?_⟩
    · intro hashed' key' hget
      obtain ⟨-, rfl⟩ | ⟨-, hget⟩ := Dict.get?_set_cases hget
      · exact hunraced
      · exact hcache _ _ hget
    · obtain rfl := ValidatePos.touching.inj hpos
      exact fun hmem => hunraced (hbefore hmem)
  | validateReturned hcall =>
    have hsafe := htouching _ (mem_split hcall) _ rfl
    have hkey := (hs.calls _ (mem_split hcall)).keyId _ rfl
    rw [hcall] at htouching
    refine ⟨?_, hcache, forall_remove htouching⟩
    rw [Safe, ← hkey]
    exact hsafe
  | revokeStarted | repositoryRevoked | revokeFailed => exact ⟨trivial, hcache, htouching⟩
  | revokeReturned =>
    refine ⟨trivial, fun hashed key hget hmem => ?_, htouching⟩
    obtain ⟨hold, hne⟩ := (get?_purge hs.cache _ _ _).mp hget
    rcases List.mem_cons.mp hmem with heq | hmem
    · exact hne heq
    · exact hcache _ _ hold hmem

/-- **Revocation is final without a race**: in a run in which no revoked key is put
back into the cache, no call of `validate_key` that starts after `revoke_key` returned
`True` returns the key. -/
theorem revoked_key_not_validated {trace : List Event}
    (hrun : Run (UnracedStep dep) State.init trace s) : ∀ e ∈ trace, Safe dep e := by
  refine hrun.forall_labels (I := fun t => t.Inv dep ∧ t.Fresh) ?_
    ⟨State.Inv.init dep, State.Fresh.init⟩
  rintro t l t' ⟨hinv, hfresh⟩ hstep
  obtain ⟨hsafe, hfresh'⟩ := hfresh.step hstep hinv
  exact ⟨hsafe, hinv.step hstep.1, hfresh'⟩

/-- A race breaks the promise at once: the next call finds the revoked key. -/
theorem raced_step_unsafe {trace : List Event} (hrun : Run (Step dep) State.init trace s)
    (h : Step dep s e s') (hraced : ¬Unraced s e) : ∃ e', Step dep s' e' s' ∧ ¬Safe dep e' := by
  have hs : s.Inv dep := hrun.invariant (fun hI hstep => hI.step hstep) (State.Inv.init dep)
  cases h with
  | @validateAccepted _ _ hashed ids found key now hcall hfound =>
    obtain ⟨hfound', hactive, hexpired⟩ := accepts_some_iff.mp hfound
    obtain ⟨⟨plain, rfl⟩, hkey, -⟩ := hs.calls _ (mem_split hcall)
    have hit : lookupCache (s.cache.set (dep.sha256 plain) key) (dep.sha256 plain) now =
        some key := by
      simp [lookupCache, hactive, hexpired]
    refine ⟨_, .validateHit hit, ?_⟩
    rw [Safe, ← hkey key hfound']
    exact hraced
  | validateHit | validateMiss | repositoryRead | repositoryRaised | validateRefused
  | validateReturned | revokeStarted | repositoryRevoked | revokeFailed | revokeReturned =>
    exact absurd trivial hraced

/-- When `revoke_key` returns, no call has an active record of its key in hand that it
has not put into the cache yet. -/
def QuietPurge (s : State) : Event → Prop
  | .revoked keyId true => ∀ c ∈ s.validating, ∀ key, c.pos = .read (some key) →
      key.keyId = keyId → key.isActive = false
  | _ => True

def QuietStep (dep : Deployment) (s : State) (e : Event) (s' : State) : Prop :=
  Step dep s e s' ∧ QuietPurge s e

/-- What holds of the runs with quiet purges: what has returned was revoked, and a read
still in hand is inactive or not revoked. -/
structure State.Linear (s : State) : Prop where
  returned : s.returnedIds ⊆ s.revokedIds
  revoked : ∀ keyId, .revoked keyId ∈ s.revoking → keyId ∈ s.revokedIds
  reads : ∀ c ∈ s.validating, ∀ key, c.pos = .read (some key) → key.isActive = true →
    key.keyId ∉ s.returnedIds

theorem State.Linear.step (h : QuietStep dep s e s') (hs : s.Linear) :
    Unraced s e ∧ s'.Linear := by
  obtain ⟨hstep, hquiet⟩ := h
  obtain ⟨hreturned, hrevoked, hreads⟩ := hs
  cases hstep with
  | validateHit => exact ⟨trivial, hreturned, hrevoked, hreads⟩
  | validateMiss =>
    refine ⟨trivial, hreturned, hrevoked, ?_⟩
    rw [List.forall_mem_cons]
    exact ⟨fun _ h => (nomatch h), hreads⟩
  | repositoryRead hcall hread =>
    rw [hcall] at hreads
    refine ⟨trivial, hreturned, hrevoked, forall_replace hreads fun _ key hpos hactive hmem => ?_⟩
    -- the repository is linearizable: a read after the revocation is inactive
    have := (hread key (ValidatePos.read.inj hpos)).2 (hreturned hmem)
    rw [hactive] at this
    cases this
  | repositoryRaised hcall | validateRefused hcall | validateReturned hcall =>
    rw [hcall] at hreads
    exact ⟨trivial, hreturned, hrevoked, forall_remove hreads⟩
  | validateAccepted hcall hfound =>
    obtain ⟨hfound', hactive, -⟩ := accepts_some_iff.mp hfound
    have hunraced := hreads _ (mem_split hcall) _ (congrArg ValidatePos.read hfound') hactive
    rw [hcall] at hreads
    exact ⟨hunraced, hreturned, hrevoked, forall_replace hreads fun _ _ h => (nomatch h)⟩
  | revokeStarted keyId =>
    refine ⟨trivial, hreturned, fun keyId' hmem => ?_, hreads⟩
    rcases List.mem_cons.mp hmem with heq | hmem
    · cases heq
    · exact hrevoked keyId' hmem
  | repositoryRevoked hcall =>
    refine ⟨trivial, fun _ h => List.mem_cons_of_mem _ (hreturned h), fun keyId' hmem => ?_, hreads⟩
    rw [hcall] at hrevoked
    rcases List.mem_append.mp hmem with hmem | hmem
    · exact List.mem_cons_of_mem _ (hrevoked keyId' (List.mem_append_left _ hmem))
    · rcases List.mem_cons.mp hmem with heq | hmem
      · rw [RevokeCall.revoked.inj heq]
        exact List.mem_cons_self ..
      · exact List.mem_cons_of_mem _
          (hrevoked keyId' (List.mem_append_right _ (List.mem_cons_of_mem _ hmem)))
  | @revokeFailed before after keyId applied hcall =>
    rw [hcall] at hrevoked
    have hsub : s.revokedIds ⊆ if applied then keyId :: s.revokedIds else s.revokedIds := by
      cases applied with
      | false => exact List.Subset.refl _
      | true => exact List.subset_cons_self ..
    refine ⟨trivial, fun _ h => hsub (hreturned h), fun keyId' hmem => ?_, hreads⟩
    exact hsub (hrevoked keyId' (mem_of_mem_removed hmem))
  | @revokeReturned before after keyId hcall =>
    have hnow := hrevoked keyId (mem_split hcall)
    rw [hcall] at hrevoked
    refine ⟨trivial, List.cons_subset.mpr ⟨hnow, hreturned⟩, fun keyId' hmem => ?_, ?_⟩
    · exact hrevoked keyId' (mem_of_mem_removed hmem)
    · intro c hc key hpos hactive hmem
      rcases List.mem_cons.mp hmem with heq | hmem
      · rw [hquiet c hc key hpos heq] at hactive
        cases hactive
      · exact hreads c hc key hpos hactive hmem

/-- **Races need a pending read**: no run races in which every purge finds no active
read of its key in hand. -/
theorem unraced_of_quiet {trace : List Event} (hrun : Run (QuietStep dep) State.init trace s) :
    Run (UnracedStep dep) State.init trace s := by
  refine hrun.of_invariant (I := State.Linear) (fun hs hstep => ?_)
    ⟨List.Subset.refl _, fun _ h => (nomatch h), fun _ h => (nomatch h)⟩
  obtain ⟨hunraced, hlinear⟩ := hs.step hstep
  exact ⟨⟨hstep.1, hunraced⟩, hlinear⟩

end

namespace Demo

def hashed : String := "08aaf8c8c1d68db64ba1a0871993ea6c4b71d42983217fb85216fad3e07cf551"

def dep : Deployment where
  sha256 text := if text = "rag_eval_demo" then hashed else text
  keyIdOf h := "key-of-" ++ h
  keyIdOf_injective _ _ h := String.append_right_inj "key-of-" |>.mp h

def key : APIKey where
  keyId := dep.keyIdOf hashed
  hashedKey := hashed
  tenantId := "default"
  name := "demo"
  permissions := ["eval:read"]
  createdAt := 0
  expiresAt := none
  lastUsedAt := none
  isActive := true
  rateLimit := 1000

/-- The stored record may be read until its key is revoked, its inactive copy always. -/
theorem reads_key : Reads dep [] hashed (some key) := by
  intro key' h
  obtain rfl := Option.some.inj h
  exact ⟨rfl, fun hmem => (nomatch hmem)⟩

theorem reads_inactive (ids : List String) :
    Reads dep ids hashed (some { key with isActive := false }) := by
  intro key' h
  obtain rfl := Option.some.inj h
  exact ⟨rfl, fun _ => rfl⟩

/-- A call is served and cached, the key is revoked, and the next call is refused. -/
def quietTrace : List Event :=
  [.internal, .internal, .cached key, .validated hashed [] (some key), .internal, .internal,
    .revoked key.keyId true, .internal, .internal, .validated hashed [key.keyId] none]

/-- The key is revoked between the read and the caching of a call; the next call finds it. -/
def racedTrace : List Event :=
  [.internal, .internal, .internal, .internal, .revoked key.keyId true, .cached key,
    .validated hashed [key.keyId] (some key)]

def quietEnd : State :=
  ⟨purge (Dict.empty.set hashed key) key.keyId, [], [], [key.keyId], [key.keyId]⟩

def racedEnd : State :=
  ⟨(purge Dict.empty key.keyId).set hashed key, [⟨hashed, [], .touching key⟩], [], [key.keyId],
    [key.keyId]⟩

/-- A call that misses the cache starts to read. -/
theorem miss_step {s : State} (h : s.cache.get? hashed = none) :
    Step dep s .internal { s with validating := ⟨hashed, s.returnedIds, .reading⟩ :: s.validating } := by
  have hmiss : lookupCache s.cache (dep.sha256 "rag_eval_demo") 0 = none := by
    have hsha : dep.sha256 "rag_eval_demo" = hashed := rfl
    simp [lookupCache, hsha, h]
  exact .validateMiss hmiss

/-- The only running call is refused. -/
theorem refused_step {s : State} {ids : List String} {found : Option APIKey}
    (h : s.validating = [⟨hashed, ids, .read found⟩]) (hfound : accepts found 0 = none) :
    Step dep s (.validated hashed ids none) { s with validating := [] } := by
  have hcall : s.validating = [] ++ ⟨hashed, ids, .read found⟩ :: [] := h
  have hstep : Step dep s (.validated hashed ids none) { s with validating := [] ++ [] } :=
    .validateRefused hcall hfound
  exact hstep

/-- A purge of the only entry leaves the cache without it. -/
theorem purged : (purge (Dict.empty.set hashed key) key.keyId).get? hashed = none := by
  rfl

end Demo

open Demo in
theorem revoked_key_not_validated_demo :
    Run (UnracedStep dep) State.init quietTrace quietEnd ∧ ∀ e ∈ quietTrace, Safe dep e := by
  have haccepted : accepts (some key) 0 = some key := rfl
  have hrefused : accepts (some { key with isActive := false }) 0 = none := rfl
  have hrun : Run (UnracedStep dep) State.init quietTrace quietEnd := by
    refine .cons ⟨miss_step rfl, trivial⟩ ?_
    refine .cons ⟨.repositoryRead (List.nil_append _).symm reads_key, trivial⟩ ?_
    refine .cons ⟨.validateAccepted (List.nil_append _).symm haccepted, fun h => nomatch h⟩ ?_
    refine .cons ⟨.validateReturned (List.nil_append _).symm, trivial⟩ ?_
    refine .cons ⟨.revokeStarted key.keyId, trivial⟩ ?_
    refine .cons ⟨.repositoryRevoked (List.nil_append _).symm, trivial⟩ ?_
    refine .cons ⟨.revokeReturned (List.nil_append _).symm, trivial⟩ ?_
    refine .cons ⟨miss_step purged, trivial⟩ ?_
    refine .cons ⟨.repositoryRead (List.nil_append _).symm (reads_inactive _), trivial⟩ ?_
    exact .single ⟨refused_step rfl hrefused, trivial⟩
  exact ⟨hrun, revoked_key_not_validated hrun⟩

open Demo in
/-- The call that read the key before its revocation puts it back into the cache. -/
theorem revoked_key_validated :
    Run (Step dep) State.init racedTrace racedEnd ∧
      ∃ e ∈ racedTrace, ¬Safe dep e := by
  have haccepted : accepts (some key) 0 = some key := rfl
  have hhit : lookupCache racedEnd.cache (dep.sha256 "rag_eval_demo") 0 = some key := rfl
  refine ⟨?_, _, List.mem_of_mem_getLast? rfl, fun h => h (List.mem_cons_self ..)⟩
  refine .cons (miss_step rfl) ?_
  refine .cons (.repositoryRead (List.nil_append _).symm reads_key) ?_
  refine .cons (.revokeStarted key.keyId) ?_
  refine .cons (.repositoryRevoked (List.nil_append _).symm) ?_
  refine .cons (.revokeReturned (List.nil_append _).symm) ?_
  refine .cons (.validateAccepted (List.nil_append _).symm haccepted) ?_
  exact .single (.validateHit hhit)

end RagEval.Security.ApiKeys
