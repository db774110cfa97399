import Mathlib.Logic.Function.Basic
import RagEval.Jobs.RedisJobStore
import RagEval.Lib.Runs

/-!
# Two updates of one job

`update_job` is a GET followed by a SET. Two calls on one job run in one of six
orders: one call after the other, or both GETs before both SETs. In the second case
the later SET writes back what it read, and drops the patch of the earlier one.

## Main results

- `run_cases` — the runs of two calls and the records they leave
- `concurrent_updates_iff` — exactly when no patch is lost
-/

namespace RagEval.Jobs
open RagEval.Lib

/-- Where a call of `update_job` stands: before its GET, before its SET with the
patched record in hand, or returned. -/
inductive UpdatePos where
  | get
  | set (data : Record)
  | done

/-- The next command of a call. -/
def UpdatePos.step (jobId : String) (fields : Record) (store : Store) :
    UpdatePos → Option (UpdatePos × Store)
  | .get =>
    match updateGet store jobId fields with
    | some data => some (.set data, store)
    | none => some (.done, store)
  | .set data => some (.done, updateSet store jobId data)
  | .done => none

inductive Caller where
  | first | second
  deriving DecidableEq

def Caller.other : Caller → Caller
  | .first => .second
  | .second => .first

@[simp] theorem Caller.other_other (c : Caller) : c.other.other = c := by
  cases c <;> rfl

@[simp] theorem Caller.other_ne (c : Caller) : c.other ≠ c := by
  cases c <;> decide

theorem Caller.eq_or_eq_other (c c' : Caller) : c' = c ∨ c' = c.other := by
  cases c <;> cases c' <;> decide

/-- The store and the positions of two calls. -/
structure Pair where
  store : Store
  pos : Caller → UpdatePos

/-- One of the calls runs its next command. -/
def PairStep (jobId : String) (fields : Caller → Record) (s : Pair) (c : Caller) (s' : Pair) : Prop :=
  ∃ pos, (s.pos c).step jobId (fields c) s.store = some (pos, s'.store) ∧
    s'.pos = Function.update s.pos c pos

/-- `x` is the position of `c`, `y` that of the other call. -/
def positions (c : Caller) (x y : UpdatePos) : Caller → UpdatePos := fun c' => if c' = c then x else y

theorem positions_other (c : Caller) (x y : UpdatePos) :
    positions c.other y x = positions c x y := by
  funext c'
  rcases c.eq_or_eq_other c' with rfl | rfl
  · simp [positions, (Caller.other_ne c').symm]
  · simp [positions]

/-- The record holds both patches, and is unchanged elsewhere. -/
def Merged (r : Record) (fields : Caller → Record) (final : Record) : Prop :=
  (∀ c k v, (fields c).get? k = some v → final.get? k = some v) ∧
    ∀ k, (∀ c, (fields c).get? k = none) → final.get? k = r.get? k

/-- One call returns before the other starts. -/
def Serial (trace : List Caller) : Prop := ∃ c : Caller, trace = [c, c, c.other, c.other]

/-- The patch only writes what is stored already. -/
def Rewrites (patch r : Record) : Prop := ∀ k v, patch.get? k = some v → r.get? k = some v

variable {jobId : String} {fields : Caller → Record} {store store' : Store} {trace : List Caller}

/-- A step from known positions: either call goes on. -/
theorem PairStep.cases {c l : Caller} {x y : UpdatePos} {s' : Pair}
    (h : PairStep jobId fields ⟨store, positions c x y⟩ l s') :
    (l = c ∧ ∃ x', x.step jobId (fields c) store = some (x', s'.store) ∧
      s' = ⟨s'.store, positions c x' y⟩) ∨
    (l = c.other ∧ ∃ y', y.step jobId (fields c.other) store = some (y', s'.store) ∧
      s' = ⟨s'.store, positions c x y'⟩) := by
  obtain ⟨pos, hstep, hpos⟩ := h
  obtain ⟨st, ps⟩ := s'
  simp only at hstep hpos
  subst hpos
  rcases c.eq_or_eq_other l with rfl | rfl
  · refine Or.inl ⟨rfl, pos, by simpa [positions] using hstep, ?_⟩
    congr 1
    funext c'
    by_cases hc : c' = l <;> simp [positions, hc]
  · refine Or.inr ⟨rfl, pos, by simpa [positions] using hstep, ?_⟩
    congr 1
    funext c'
    rcases c.eq_or_eq_other c' with rfl | rfl
    · simp [positions, (Caller.other_ne c').symm]
    · simp [positions]

theorem pairStep_positions {c : Caller} {x x' y : UpdatePos} {st : Store}
    (h : x.step jobId (fields c) store = some (x', st)) :
    PairStep jobId fields ⟨store, positions c x y⟩ c ⟨st, positions c x' y⟩ := by
  refine ⟨x', by simpa [positions] using h, ?_⟩
  funext c'
  by_cases hc : c' = c <;> simp [positions, hc]

/-- The end of a run of both calls. -/
abbrev Ends (jobId : String) (fields : Caller → Record) (s : Pair) (trace : List Caller)
    (store' : Store) : Prop :=
  Run (PairStep jobId fields) s trace ⟨store', fun _ => .done⟩

/-- A run from known positions is over, or either call goes on. -/
theorem ends_cases {c : Caller} {x y : UpdatePos}
    (h : Ends jobId fields ⟨store, positions c x y⟩ trace store') :
    (x = .done ∧ y = .done ∧ trace = [] ∧ store' = store) ∨
    (∃ x' st rest, x.step jobId (fields c) store = some (x', st) ∧ trace = c :: rest ∧
      Ends jobId fields ⟨st, positions c x' y⟩ rest store') ∨
    ∃ y' st rest, y.step jobId (fields c.other) store = some (y', st) ∧ trace = c.other :: rest ∧
      Ends jobId fields ⟨st, positions c x y'⟩ rest store' := by
  rcases h.head_cases with ⟨rfl, hs⟩ | ⟨l, t, rest, rfl, head, tail⟩
  · obtain ⟨hst, hpos⟩ := Pair.mk.inj hs
    have hx := congrFun hpos c
    have hy := congrFun hpos c.other
    simp only [positions, if_true, Caller.other_ne, if_false] at hx hy
    exact Or.inl ⟨hx, hy, rfl, hst.symm⟩
  · rcases head.cases with ⟨rfl, x', hx, hs'⟩ | ⟨rfl, y', hy, hs'⟩
    · exact Or.inr (Or.inl ⟨x', t.store, rest, hx, rfl, hs' ▸ tail⟩)
    · exact Or.inr (Or.inr ⟨y', t.store, rest, hy, rfl, hs' ▸ tail⟩)

theorem ends_set {c : Caller} {data : Record}
    (h : Ends jobId fields ⟨store, positions c (.set data) .done⟩ trace store') :
    trace = [c] ∧ store' = updateSet store jobId data := by
  rcases ends_cases h with ⟨hx, -⟩ | ⟨x', st, rest, hx, rfl, tail⟩ | ⟨y', st, rest, hy, -⟩
  · cases hx
  · obtain ⟨rfl, rfl⟩ := Prod.mk.inj (Option.some.inj hx)
    rcases ends_cases tail with ⟨-, -, rfl, hend⟩ | ⟨_, _, _, hx', -⟩ | ⟨_, _, _, hy', -⟩
    · exact ⟨rfl, hend⟩
    · cases hx'
    · cases hy'
  · cases hy

theorem step_get {r : Record} (hr : getJob store jobId = some r) (patch : Record) :
    UpdatePos.get.step jobId patch store = some (.set (r.update patch), store) := by
  simp [UpdatePos.step, updateGet, hr]

theorem ends_get {c : Caller} {r : Record} (hr : getJob store jobId = some r)
    (h : Ends jobId fields ⟨store, positions c .get .done⟩ trace store') :
    trace = [c, c] ∧ store' = updateSet store jobId (r.update (fields c)) := by
  rcases ends_cases h with ⟨hx, -⟩ | ⟨x', st, rest, hx, rfl, tail⟩ | ⟨y', st, rest, hy, -⟩
  · cases hx
  · rw [step_get hr, Option.some.injEq, Prod.mk.injEq] at hx
    obtain ⟨rfl, rfl⟩ := hx
    obtain ⟨rfl, hend⟩ := ends_set tail
    exact ⟨rfl, hend⟩
  · cases hy

/-- Both calls hold a patched record: the later SET wins. -/
theorem ends_set_set {c : Caller} {x y : Record}
    (h : Ends jobId fields ⟨store, positions c (.set x) (.set y)⟩ trace store') :
    (trace = [c, c.other] ∧ getJob store' jobId = some y) ∨
      (trace = [c.other, c] ∧ getJob store' jobId = some x) := by
  rcases ends_cases h with ⟨hx, -⟩ | ⟨x', st, rest, hx, rfl, tail⟩ | ⟨y', st, rest, hy, rfl, tail⟩
  · cases hx
  · obtain ⟨rfl, rfl⟩ := Prod.mk.inj (Option.some.inj hx)
    rw [← positions_other] at tail
    obtain ⟨rfl, rfl⟩ := ends_set tail
    exact Or.inl ⟨rfl, by simp⟩
  · obtain ⟨rfl, rfl⟩ := Prod.mk.inj (Option.some.inj hy)
    obtain ⟨rfl, rfl⟩ := ends_set tail
    exact Or.inr ⟨rfl, by simp⟩

/-- After the GET of `c`: it returns first, or the other GET comes before its SET. -/
theorem ends_set_get {c : Caller} {r x : Record} (hr : getJob store jobId = some r)
    (h : Ends jobId fields ⟨store, positions c (.set x) .get⟩ trace store') :
    (trace = [c, c.other, c.other] ∧ getJob store' jobId = some (x.update (fields c.other))) ∨
    (trace = [c.other, c, c.other] ∧ getJob store' jobId = some (r.update (fields c.other))) ∨
      (trace = [c.other, c.other, c] ∧ getJob store' jobId = some x) := by
  rcases ends_cases h with ⟨hx, -⟩ | ⟨x', st, rest, hx, rfl, tail⟩ | ⟨y', st, rest, hy, rfl, tail⟩
  · cases hx
  · obtain ⟨rfl, rfl⟩ := Prod.mk.inj (Option.some.inj hx)
    rw [← positions_other] at tail
    have hx' : getJob (updateSet store jobId x) jobId = some x := by simp
    obtain ⟨rfl, rfl⟩ := ends_get hx' tail
    exact Or.inl ⟨rfl, by simp⟩
  · rw [step_get hr, Option.some.injEq, Prod.mk.injEq] at hy
    obtain ⟨rfl, rfl⟩ := hy
    rcases ends_set_set tail with ⟨rfl, hend⟩ | ⟨rfl, hend⟩
    · exact Or.inr (Or.inl ⟨rfl, hend⟩)
    · exact Or.inr (Or.inr ⟨rfl, hend⟩)

/-- A run of both calls starts with a GET of one of them. -/
theorem ends_get_get {r : Record} (hr : getJob store jobId = some r)
    (h : Ends jobId fields ⟨store, fun _ => .get⟩ trace store') :
    ∃ c rest, trace = c :: rest ∧
      Ends jobId fields ⟨store, positions c (.set (r.update (fields c))) .get⟩ rest store' := by
  have hpos : ∀ c, (fun _ => UpdatePos.get : Caller → UpdatePos) = positions c .get .get := by
    intro c
    funext c'
    simp [positions]
  rcases h.head_cases with ⟨-, hs⟩ | ⟨l, t, rest, rfl, head, tail⟩
  · have := congrFun (Pair.mk.inj hs).2 .first
    cases this
  · rw [hpos l] at head
    rcases head.cases with ⟨-, x', hx, hs'⟩ | ⟨hl, -⟩
    · rw [step_get hr, Option.some.injEq, Prod.mk.injEq] at hx
      obtain ⟨rfl, hst⟩ := hx
      exact ⟨l, rest, rfl, by rw [hst]; exact hs' ▸ tail⟩
    · exact absurd hl.symm (Caller.other_ne l)

/-- **The runs of two calls.** The calls run one after the other and leave both
patches, or overlap and leave the patch of the later SET alone. -/
theorem run_cases {r : Record} (hr : getJob store jobId = some r)
    (h : Ends jobId fields ⟨store, fun _ => .get⟩ trace store') :
    ∃ c : Caller, (trace = [c, c, c.other, c.other] ∧
        getJob store' jobId = some ((r.update (fields c)).update (fields c.other))) ∨
      (trace.getLast? = some c ∧ ¬Serial trace ∧
        getJob store' jobId = some (r.update (fields c))) := by
  obtain ⟨l, rest, rfl, tail⟩ := ends_get_get hr h
  rcases ends_set_get hr tail with ⟨rfl, hend⟩ | ⟨rfl, hend⟩ | ⟨rfl, hend⟩
  · exact ⟨l, Or.inl ⟨rfl, hend⟩⟩
  · refine ⟨l.other, Or.inr ⟨rfl, ?_, hend⟩⟩
    rintro ⟨c, hc⟩
    cases l <;> cases c <;> simp [Caller.other] at hc
  · refine ⟨l, Or.inr ⟨rfl, ?_, hend⟩⟩
    rintro ⟨c, hc⟩
    cases l <;> cases c <;> simp [Caller.other] at hc

/-- **When no patch is lost**: exactly when one call returns before the other
starts, or the patch whose SET comes first writes nothing new. -/
theorem concurrent_updates_iff {r : Record} (hr : getJob store jobId = some r)
    (hdisjoint : ∀ k, ∃ c, (fields c).get? k = none)
    (hrun : Run (PairStep jobId fields) ⟨store, fun _ => .get⟩ trace ⟨store', fun _ => .done⟩) :
    (∃ final, getJob store' jobId = some final ∧ Merged r fields final) ↔
      Serial trace ∨ ∀ c, trace.getLast? = some c → Rewrites (fields c.other) r := by
  -- a key of one patch is not a key of the other
  have hother : ∀ c k v, (fields c).get? k = some v → (fields c.other).get? k = none := by
    intro c k v hv
    obtain ⟨c', hc'⟩ := hdisjoint k
    rcases c.eq_or_eq_other c' with rfl | rfl
    · simp [hv] at hc'
    · exact hc'
  obtain ⟨c, ⟨htrace, hend⟩ | ⟨hlast, hserial, hend⟩⟩ := run_cases hr hrun
  · refine iff_of_true ⟨_, hend, ?_, ?_⟩ (Or.inl ⟨c, htrace⟩)
    · intro c' k v hv
      rcases c.eq_or_eq_other c' with rfl | rfl
      · rw [Dict.get?_update_of_none (hother _ _ _ hv), Dict.get?_update_of_some hv]
      · rw [Dict.get?_update_of_some hv]
    · intro k hk
      rw [Dict.get?_update_of_none (hk _), Dict.get?_update_of_none (hk _)]
  · simp only [hend, Option.some.injEq, exists_eq_left', hserial, false_or, hlast, forall_eq']
    constructor
    · intro hm k v hv
      have hnone : (fields c).get? k = none := by
        have := hother _ _ _ hv
        rwa [Caller.other_other] at this
      rw [← hm.1 c.other k v hv, Dict.get?_update_of_none hnone]
    · refine fun hrw => ⟨?_, fun k hk => Dict.get?_update_of_none (hk c)⟩
      intro c' k v hv
      rcases c.eq_or_eq_other c' with rfl | rfl
      · exact Dict.get?_update_of_some hv
      · have hnone : (fields c).get? k = none := by
          have := hother _ _ _ hv
          rwa [Caller.other_other] at this
        rw [Dict.get?_update_of_none hnone]
        exact hrw k v hv

/-- Both calls read before either writes. -/
theorem overlap_run {r : Record} (hr : getJob store jobId = some r) (c : Caller) :
    Ends jobId fields ⟨store, fun _ => .get⟩ [c, c.other, c, c.other]
      (updateSet (updateSet store jobId (r.update (fields c))) jobId
        (r.update (fields c.other))) := by
  have hget : (fun _ => UpdatePos.get : Caller → UpdatePos) = positions c .get .get := by
    funext c'
    simp [positions]
  have hdone : (fun _ => UpdatePos.done : Caller → UpdatePos) = positions c.other .done .done := by
    funext c'
    simp [positions]
  unfold Ends
  rw [hget, hdone]
  refine .cons (pairStep_positions (step_get hr _)) ?_
  rw [← positions_other]
  refine .cons (pairStep_positions (step_get hr _)) ?_
  rw [positions_other]
  refine .cons (pairStep_positions rfl) ?_
  rw [← positions_other]
  exact .single (pairStep_positions rfl)

namespace Demo

def job : Record := newRecord "j" "ragas_single_turn" none "2026-01-01T00:00:00+00:00"

def pendingStore : Store :=
  createJob Dict.empty "j" "ragas_single_turn" none "2026-01-01T00:00:00+00:00"

/-- One call writes the start, the other an error. -/
def patches : Caller → Record
  | .first => Dict.ofList [("started_at", .str "2026-01-01T00:00:01+00:00")]
  | .second => Dict.ofList [("error", .str "timeout")]

theorem patches_disjoint (k : String) : ∃ c, (patches c).get? k = none := by
  by_cases hk : k = "error"
  · exact ⟨.first, by subst hk; rfl⟩
  · refine ⟨.second, ?_⟩
    rw [Dict.get?_eq_none_iff]
    simpa [patches, Dict.keys, Dict.ofList, Dict.set, Assoc.set, Dict.empty] using hk

/-- What the store holds when the call that writes the error comes last. -/
def lostStore : Store :=
  updateSet (updateSet pendingStore "j" (job.update (patches .first))) "j" (job.update (patches .second))

theorem getJob_pendingStore : getJob pendingStore "j" = some job := rfl

theorem lost_run : Run (PairStep "j" patches) ⟨pendingStore, fun _ => .get⟩
    [.first, .second, .first, .second] ⟨lostStore, fun _ => .done⟩ :=
  overlap_run getJob_pendingStore .first

end Demo

open Demo in
theorem concurrent_updates_iff_demo :
    (∃ final, getJob lostStore "j" = some final ∧ Merged job patches final) ↔
      Serial [Caller.first, .second, .first, .second] ∨
        ∀ c, [Caller.first, .second, .first, .second].getLast? = some c →
          Rewrites (patches c.other) job :=
  concurrent_updates_iff getJob_pendingStore patches_disjoint lost_run

open Demo in
/-- Both calls read the pending job; the start is lost under the error. -/
theorem concurrent_updates_lose :
    getJob pendingStore "j" = some job ∧ (∀ k, ∃ c, (patches c).get? k = none) ∧
      Run (PairStep "j" patches) ⟨pendingStore, fun _ => .get⟩ [.first, .second, .first, .second]
        ⟨lostStore, fun _ => .done⟩ ∧
      ¬∃ final, getJob lostStore "j" = some final ∧ Merged job patches final := by
  refine ⟨getJob_pendingStore, patches_disjoint, lost_run, ?_⟩
  rintro ⟨final, hfinal, hmerged⟩
  have hold : final.get? "started_at" = some .none := by
    obtain rfl := Option.some.inj hfinal
    rfl
  have hnew := hmerged.1 .first "started_at" _ rfl
  rw [hold] at hnew
  cases hnew

end RagEval.Jobs
