import RagEval.Jobs.RedisJobStore
import RagEval.Lib.Runs

/-!
# Records and the response schema

`app/schemas/job.py`: the response the polling endpoints build from a record. Any
number of updates may stand between their GET and their SET, lose each other's patch,
come twice, or write an expired record back; a record holds what it was created with,
and a patch of a worker in the fields that workers write.

## Main definitions

- `JobStatusResponse.ofRecord` — the response of a record, none if it does not validate
- `Creation.Fits` — what the fields of a record may hold

## Main result

- `stored_records_valid` — every stored record fits its creation and validates
-/

namespace RagEval.Jobs
open RagEval.Lib

inductive JobStatus where
  | pending | running | completed | failed
  deriving DecidableEq, Repr

def JobStatus.value : JobStatus → String
  | .pending => "pending"
  | .running => "running"
  | .completed => "completed"
  | .failed => "failed"

structure JobStatusResponse where
  jobId : String
  jobType : String
  status : JobStatus
  result : Option (List (String × Value))
  error : Option String
  idempotencyKey : Option String
  createdAt : String
  startedAt : Option String
  completedAt : Option String

/-! ## Validation -/

def readStr : Value → Option String
  | .str s => some s
  | _ => none

def readDict : Value → Option (List (String × Value))
  | .dict kvs => some kvs
  | _ => none

def readStatus : Value → Option JobStatus
  | .str "pending" => some .pending
  | .str "running" => some .running
  | .str "completed" => some .completed
  | .str "failed" => some .failed
  | _ => none

/-- A field that may be `None`. -/
def readNullable {α : Type} (read : Value → Option α) : Value → Option (Option α)
  | .none => some none
  | v => (read v).map some

/-- A required field. -/
def required {α : Type} (r : Record) (name : String) (read : Value → Option α) : Option α :=
  (r.get? name).bind read

/-- A field that is `None` by default. -/
def optional {α : Type} (r : Record) (name : String) (read : Value → Option α) :
    Option (Option α) :=
  match r.get? name with
  | some v => readNullable read v
  | none => some none

/-- `JobStatusResponse(**record)`. -/
def JobStatusResponse.ofRecord (r : Record) : Option JobStatusResponse := do
  let jobId ← required r "job_id" readStr
  let jobType ← required r "job_type" readStr
  let status ← required r "status" readStatus
  let result ← optional r "result" readDict
  let error ← optional r "error" readStr
  let idempotencyKey ← optional r "idempotency_key" readStr
  let createdAt ← required r "created_at" readStr
  let startedAt ← optional r "started_at" readStr
  let completedAt ← optional r "completed_at" readStr
  pure ⟨jobId, jobType, status, result, error, idempotencyKey, createdAt, startedAt, completedAt⟩

/-! ## Creations and patches -/

/-- The arguments of a call of `create_job`, its id and its moment. -/
structure Creation where
  jobId : String
  jobType : String
  idempotencyKey : Option String
  now : String

/-- The updates the workers make. -/
inductive WorkerPatch where
  | running (now : String)
  | completed (result : List (String × Value)) (now : String)
  | failed (error now : String)

def WorkerPatch.fields : WorkerPatch → Record
  | .running now => runningFields now
  | .completed result now => completedFields result now
  | .failed error now => failedFields error now

def recordFields : List String :=
  ["job_id", "job_type", "status", "idempotency_key", "result", "error", "created_at",
    "started_at", "completed_at"]

/-- `None` or a string. -/
def NullableStr (v : Value) : Prop := v = .none ∨ ∃ s, v = .str s

/-- What a field of a record of this creation may hold. -/
def Creation.Fits (c : Creation) (name : String) (v : Value) : Prop :=
  match name with
  | "job_id" => v = .str c.jobId
  | "job_type" => v = .str c.jobType
  | "idempotency_key" => v = (c.idempotencyKey.map .str).getD .none
  | "created_at" => v = .str c.now
  | "status" => ∃ status : JobStatus, v = .str status.value
  | "result" => v = .none ∨ ∃ kvs, v = .dict kvs
  | "error" => NullableStr v
  | "started_at" => NullableStr v
  | "completed_at" => NullableStr v
  | _ => True

/-- The record has all nine fields and fits its creation. -/
def Creation.Holds (c : Creation) (r : Record) : Prop :=
  ∀ name ∈ recordFields, ∃ v, r.get? name = some v ∧ c.Fits name v

/-! ## The store under all its clients -/

inductive StoreEvent where
  | created (c : Creation)
  | read (jobId : String) (patch : WorkerPatch)
  | written (jobId : String)
  | dropped (jobId : String)
  | expired (jobId : String)

/-- The store, the updates between their GET and their SET with the patched records,
and the creations so far. -/
structure StoreState where
  store : Store
  updates : List (String × Record)
  creations : List Creation

def StoreState.init : StoreState := ⟨Dict.empty, [], []⟩

/-- One command of any client, or the end of a record. -/
inductive StoreStep (s : StoreState) : StoreEvent → StoreState → Prop
  | created (c : Creation) (hfresh : ∀ c' ∈ s.creations, c'.jobId ≠ c.jobId) :
      StoreStep s (.created c)
        { s with
          store := createJob s.store c.jobId c.jobType c.idempotencyKey c.now
          creations := c :: s.creations }
  | read {jobId : String} {patch : WorkerPatch} {data : Record}
      (hget : updateGet s.store jobId patch.fields = some data) :
      StoreStep s (.read jobId patch) { s with updates := (jobId, data) :: s.updates }
  | missed {jobId : String} {patch : WorkerPatch}
      (hget : updateGet s.store jobId patch.fields = none) :
      StoreStep s (.read jobId patch) s
  | written {before after : List (String × Record)} {jobId : String} {data : Record}
      (hupdates : s.updates = before ++ (jobId, data) :: after) :
      StoreStep s (.written jobId)
        { s with store := updateSet s.store jobId data, updates := before ++ after }
  -- the client died or its connection did
  | dropped {before after : List (String × Record)} {jobId : String} {data : Record}
      (hupdates : s.updates = before ++ (jobId, data) :: after) :
      StoreStep s (.dropped jobId) { s with updates := before ++ after }
  | expired (jobId : String) :
      StoreStep s (.expired jobId) { s with store := expireJob s.store jobId }

/-- Every record, stored or about to be, is of a creation under its id. -/
structure StoreState.Ok (s : StoreState) : Prop where
  stored : ∀ id r, getJob s.store id = some r → ∃ c ∈ s.creations, c.jobId = id ∧ c.Holds r
  held : ∀ u ∈ s.updates, ∃ c ∈ s.creations, c.jobId = u.1 ∧ c.Holds u.2

/-! ## Records fit their creation -/

/-- The patches write the fields the creation leaves open, with values of their types. -/
theorem WorkerPatch.fits (patch : WorkerPatch) (c : Creation) {name : String} {v : Value}
    (h : patch.fields.get? name = some v) : c.Fits name v := by
  cases patch with
  | running now =>
    simp only [WorkerPatch.fields, runningFields, Dict.ofList, List.foldl_cons, List.foldl_nil,
      Dict.get?_set, Dict.get?_empty] at h
    split_ifs at h with hstarted hstatus <;> subst_vars <;> cases h
    · exact .inr ⟨now, rfl⟩
    · exact ⟨.running, rfl⟩
  | completed result now =>
    simp only [WorkerPatch.fields, completedFields, Dict.ofList, List.foldl_cons, List.foldl_nil,
      Dict.get?_set, Dict.get?_empty] at h
    split_ifs at h with hat hresult hstatus <;> subst_vars <;> cases h
    · exact .inr ⟨now, rfl⟩
    · exact .inr ⟨result, rfl⟩
    · exact ⟨.completed, rfl⟩
  | failed error now =>
    simp only [WorkerPatch.fields, failedFields, Dict.ofList, List.foldl_cons, List.foldl_nil,
      Dict.get?_set, Dict.get?_empty] at h
    split_ifs at h with hat herror hstatus <;> subst_vars <;> cases h
    · exact .inr ⟨now, rfl⟩
    · exact .inr ⟨error, rfl⟩
    · exact ⟨.failed, rfl⟩

/-- The keys are distinct, so the record is written as it stands. -/
theorem items_newRecord (jobId jobType : String) (idempotencyKey : Option String)
    (now : String) :
    (newRecord jobId jobType idempotencyKey now).items =
      [("job_id", .str jobId), ("job_type", .str jobType), ("status", .str "pending"),
       ("idempotency_key", (idempotencyKey.map .str).getD .none), ("result", .none),
       ("error", .none), ("created_at", .str now), ("started_at", .none),
       ("completed_at", .none)] :=
  rfl

theorem Creation.holds_newRecord (c : Creation) :
    c.Holds (newRecord c.jobId c.jobType c.idempotencyKey c.now) := by
  simp only [Creation.Holds, recordFields, List.forall_mem_cons, Dict.get?, items_newRecord]
  refine ⟨⟨_, rfl, rfl⟩, ⟨_, rfl, rfl⟩, ⟨_, rfl, .pending, rfl⟩, ⟨_, rfl, rfl⟩,
    ⟨_, rfl, .inl rfl⟩, ⟨_, rfl, .inl rfl⟩, ⟨_, rfl, rfl⟩, ⟨_, rfl, .inl rfl⟩,
    ⟨_, rfl, .inl rfl⟩, by simp⟩

theorem Creation.Holds.update {c : Creation} {r : Record} (h : c.Holds r) (patch : WorkerPatch) :
    c.Holds (r.update patch.fields) := by
  intro name hname
  cases hp : patch.fields.get? name with
  | some v => exact ⟨v, Dict.get?_update_of_some hp, patch.fits c hp⟩
  | none =>
    obtain ⟨v, hv, hfits⟩ := h name hname
    exact ⟨v, (Dict.get?_update_of_none hp).trans hv, hfits⟩

theorem readNullable_str {v : Value} (h : NullableStr v) : ∃ s, readNullable readStr v = some s := by
  rcases h with rfl | ⟨s, rfl⟩
  · exact ⟨none, rfl⟩
  · exact ⟨some s, rfl⟩

theorem required_eq {α : Type} {r : Record} {name : String} {v : Value} {read : Value → Option α}
    {a : α} (h : r.get? name = some v) (hread : read v = some a) : required r name read = some a := by
  rw [required, h, Option.bind_some, hread]

theorem optional_eq {α : Type} {r : Record} {name : String} {v : Value} {read : Value → Option α}
    {a : Option α} (h : r.get? name = some v) (hread : readNullable read v = some a) :
    optional r name read = some a := by
  simp only [optional, h, hread]

theorem readStr_str (s : String) : readStr (.str s) = some s := rfl

theorem readStatus_value (status : JobStatus) : readStatus (.str status.value) = some status := by
  cases status <;> rfl

/-- A record of a creation validates, and the response shows the creation. -/
theorem Creation.Holds.ofRecord {c : Creation} {r : Record} (h : c.Holds r) :
    ∃ response, JobStatusResponse.ofRecord r = some response ∧ response.jobId = c.jobId ∧
      response.jobType = c.jobType ∧ response.idempotencyKey = c.idempotencyKey ∧
      response.createdAt = c.now := by
  simp only [Creation.Holds, recordFields, List.forall_mem_cons] at h
  obtain ⟨⟨_, hid, rfl⟩, ⟨_, htype, rfl⟩, ⟨_, hstatus, status, rfl⟩, ⟨_, hkey, rfl⟩,
    ⟨result, hresult, hresult'⟩, ⟨error, herror, herror'⟩, ⟨_, hcreated, rfl⟩,
    ⟨startedAt, hstarted, hstarted'⟩, ⟨completedAt, hat, hat'⟩, -⟩ := h
  have hkey' : readNullable readStr ((c.idempotencyKey.map .str).getD .none) =
      some c.idempotencyKey := by
    cases c.idempotencyKey <;> rfl
  obtain ⟨result', hresult'⟩ : ∃ kvs, readNullable readDict result = some kvs := by
    rcases hresult' with rfl | ⟨kvs, rfl⟩
    · exact ⟨none, rfl⟩
    · exact ⟨some kvs, rfl⟩
  obtain ⟨error', herror'⟩ := readNullable_str herror'
  obtain ⟨startedAt', hstarted'⟩ := readNullable_str hstarted'
  obtain ⟨completedAt', hat'⟩ := readNullable_str hat'
  refine ⟨⟨c.jobId, c.jobType, status, result', error', c.idempotencyKey, c.now, startedAt',
    completedAt'⟩, ?_, rfl, rfl, rfl, rfl⟩
  rw [JobStatusResponse.ofRecord, required_eq hid (readStr_str _),
    required_eq htype (readStr_str _), required_eq hstatus (readStatus_value status),
    optional_eq hresult hresult', optional_eq herror herror', optional_eq hkey hkey',
    required_eq hcreated (readStr_str _), optional_eq hstarted hstarted',
    optional_eq hat hat']
  rfl

/-! ## Every command keeps them so -/

theorem StoreState.Ok.init : StoreState.init.Ok :=
  ⟨fun id r hr => by simp [StoreState.init, getJob] at hr, by simp [StoreState.init]⟩

theorem StoreState.Ok.step {s s' : StoreState} {e : StoreEvent} (hs : s.Ok)
    (h : StoreStep s e s') : s'.Ok := by
  obtain ⟨hstored, hheld⟩ := hs
  cases h with
  | created c hfresh =>
    refine ⟨fun id r hr => ?_, fun u hu => ?_⟩
    · rw [getJob_createJob] at hr
      split at hr
      · next hid =>
        obtain rfl := Option.some.inj hr
        exact ⟨c, List.mem_cons_self, hid, c.holds_newRecord⟩
      · obtain ⟨c', hc', hid, hholds⟩ := hstored id r hr
        exact ⟨c', List.mem_cons_of_mem _ hc', hid, hholds⟩
    · obtain ⟨c', hc', hid, hholds⟩ := hheld u hu
      exact ⟨c', List.mem_cons_of_mem _ hc', hid, hholds⟩
  | @read jobId patch data hget =>
    refine ⟨hstored, List.forall_mem_cons.mpr ⟨?_, hheld⟩⟩
    obtain ⟨old, hold, rfl⟩ := Option.map_eq_some_iff.mp hget
    obtain ⟨c, hc, hid, hholds⟩ := hstored jobId old hold
    exact ⟨c, hc, hid, hholds.update patch⟩
  | missed hget => exact ⟨hstored, hheld⟩
  | @written before after jobId data hupdates =>
    -- what was read and patched is stored even if the record has expired since
    have hdata := hheld _ (mem_split hupdates)
    rw [hupdates] at hheld
    refine ⟨fun id r hr => ?_, forall_remove hheld⟩
    rw [getJob_updateSet] at hr
    split at hr
    · next hid =>
      obtain rfl := Option.some.inj hr
      exact hid ▸ hdata
    · exact hstored id r hr
  | dropped hupdates =>
    rw [hupdates] at hheld
    exact ⟨hstored, forall_remove hheld⟩
  | expired jobId =>
    refine ⟨fun id r hr => ?_, hheld⟩
    rw [getJob_expireJob] at hr
    split at hr
    · cases hr
    · exact hstored id r hr

/-- **Stored records validate.** However the clients of the store interleave, a record
stored under an id has the id, all nine fields and a status, holds what it was created
with, and makes a response. -/
theorem stored_records_valid {trace : List StoreEvent} {s : StoreState}
    (h : Run StoreStep .init trace s) {id : String} {r : Record} (hr : getJob s.store id = some r) :
    ∃ c ∈ s.creations, c.jobId = id ∧ c.Holds r ∧
      ∃ response, JobStatusResponse.ofRecord r = some response ∧ response.jobId = id ∧
        response.jobType = c.jobType ∧ response.idempotencyKey = c.idempotencyKey ∧
        response.createdAt = c.now := by
  have hs : s.Ok := h.invariant (fun hI hstep => hI.step hstep) .init
  obtain ⟨c, hc, rfl, hholds⟩ := hs.stored id r hr
  exact ⟨c, hc, rfl, hholds, hholds.ofRecord⟩

namespace Demo

def creation : Creation := ⟨"j", "ragas_single_turn", none, "t0"⟩

/-- Two workers read the new record, it expires, and both write it back. -/
def resurrectedTrace : List StoreEvent :=
  [.created creation, .read "j" (.running "t1"), .read "j" (.failed "timeout" "t1"), .expired "j",
    .written "j", .written "j"]

def createdRecord : Record := newRecord "j" "ragas_single_turn" none "t0"

def failedRecord : Record := createdRecord.update (failedFields "timeout" "t1")

def runningRecord : Record := createdRecord.update (runningFields "t1")

def resurrectedStore : Store :=
  updateSet (updateSet (expireJob (createJob Dict.empty "j" "ragas_single_turn" none "t0") "j") "j"
    failedRecord) "j" runningRecord

theorem resurrected_run : Run StoreStep .init resurrectedTrace ⟨resurrectedStore, [], [creation]⟩ := by
  refine .cons (.created creation (by simp [StoreState.init])) ?_
  refine .cons (.read rfl) ?_
  refine .cons (.read rfl) ?_
  refine .cons (.expired "j") ?_
  refine .cons (@StoreStep.written _ [] [("j", runningRecord)] "j" failedRecord rfl) ?_
  exact .single (@StoreStep.written _ [] [] "j" runningRecord rfl)

end Demo

open Demo in
theorem stored_records_valid_resurrected :
    ∃ c ∈ [creation], c.jobId = "j" ∧ c.Holds runningRecord ∧
      ∃ response, JobStatusResponse.ofRecord runningRecord = some response ∧ response.jobId = "j" ∧
        response.jobType = c.jobType ∧ response.idempotencyKey = c.idempotencyKey ∧
        response.createdAt = c.now :=
  stored_records_valid resurrected_run rfl

end RagEval.Jobs
