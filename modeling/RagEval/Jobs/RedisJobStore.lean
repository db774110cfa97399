import RagEval.Lib.Dict
import RagEval.Lib.Value

/-!
# The job store

`app/infra/jobs/redis_job_store.py`. A job record is a JSON object; `update_job`
reads it with one command and writes it back with another, so between the two any
other client of the store may run.

## Main definitions

- `createJob`, `getJob`, `updateJob` — the operations
- `updateGet`, `updateSet` — the two commands `updateJob` is made of
-/

namespace RagEval.Jobs
open RagEval.Lib

abbrev Record := Dict String Value

/-- A stored record and the seconds it was given to live. -/
structure Entry where
  data : Record
  ttl : Nat

abbrev Store := Dict String Entry

def jobTtlSeconds : Nat := 3600

/-- `_key`. -/
def key (jobId : String) : String := "job:" ++ jobId

/-- The record `create_job` writes. -/
def newRecord (jobId jobType : String) (idempotencyKey : Option String) (now : String) : Record :=
  Dict.ofList
    [("job_id", .str jobId), ("job_type", .str jobType), ("status", .str "pending"),
     ("idempotency_key", (idempotencyKey.map .str).getD .none), ("result", .none), ("error", .none),
     ("created_at", .str now), ("started_at", .none), ("completed_at", .none)]

/-- `create_job`, with the id it draws. -/
def createJob (store : Store) (jobId jobType : String) (idempotencyKey : Option String)
    (now : String) : Store :=
  store.set (key jobId) ⟨newRecord jobId jobType idempotencyKey now, jobTtlSeconds⟩

/-- `get_job`. -/
def getJob (store : Store) (jobId : String) : Option Record :=
  (store.get? (key jobId)).map Entry.data

/-- The GET of `update_job`: the patched record, none for a missing job. -/
def updateGet (store : Store) (jobId : String) (fields : Record) : Option Record :=
  (getJob store jobId).map fun data => data.update fields

/-- The SET of `update_job`. -/
def updateSet (store : Store) (jobId : String) (data : Record) : Store :=
  store.set (key jobId) ⟨data, jobTtlSeconds⟩

/-- `update_job` with nothing in between its commands. -/
def updateJob (store : Store) (jobId : String) (fields : Record) : Store :=
  match updateGet store jobId fields with
  | none => store
  | some data => updateSet store jobId data

/-- The record outlives its time: the store drops it. -/
def expireJob (store : Store) (jobId : String) : Store := store.erase (key jobId)

/-- `get_job(job_id)["status"]`. -/
def status (store : Store) (jobId : String) : Option Value :=
  (getJob store jobId).bind fun data => data.get? "status"

/-! ## The patches of the workers -/

def runningFields (now : String) : Record :=
  Dict.ofList [("status", .str "running"), ("started_at", .str now)]

def completedFields (result : List (String × Value)) (now : String) : Record :=
  Dict.ofList [("status", .str "completed"), ("result", .dict result), ("completed_at", .str now)]

def failedFields (error now : String) : Record :=
  Dict.ofList [("status", .str "failed"), ("error", .str error), ("completed_at", .str now)]

/-! ## What the operations do to a record -/

theorem key_injective {id id' : String} (h : key id = key id') : id = id' :=
  String.append_right_inj "job:" |>.mp h

@[simp] theorem getJob_createJob (store : Store) (id id' jobType : String)
    (idempotencyKey : Option String) (now : String) :
    getJob (createJob store id jobType idempotencyKey now) id' =
      if id = id' then some (newRecord id jobType idempotencyKey now) else getJob store id' := by
  by_cases h : id = id'
  · simp [getJob, createJob, h]
  · have hk : key id ≠ key id' := fun hk => h (key_injective hk)
    simp [getJob, createJob, h, hk]

@[simp] theorem getJob_updateSet (store : Store) (id id' : String) (data : Record) :
    getJob (updateSet store id data) id' = if id = id' then some data else getJob store id' := by
  by_cases h : id = id'
  · simp [getJob, updateSet, h]
  · have hk : key id ≠ key id' := fun hk => h (key_injective hk)
    simp [getJob, updateSet, h, hk]

@[simp] theorem getJob_expireJob (store : Store) (id id' : String) :
    getJob (expireJob store id) id' = if id = id' then none else getJob store id' := by
  by_cases h : id = id'
  · simp [getJob, expireJob, Dict.get?_erase, h]
  · have hk : key id ≠ key id' := fun hk => h (key_injective hk)
    simp [getJob, expireJob, Dict.get?_erase, h, hk]

/-- An update patches the record of its own job, if there is one, and no other. -/
@[simp] theorem getJob_updateJob (store : Store) (id id' : String) (fields : Record) :
    getJob (updateJob store id fields) id' =
      if id = id' then (getJob store id).map fun data => data.update fields
      else getJob store id' := by
  unfold updateJob updateGet
  cases hg : getJob store id with
  | none =>
    split_ifs with h
    · subst h
      simpa using hg
    · rfl
  | some data => simp

theorem status_updateJob (store : Store) (id : String) {fields : Record} {v : Value}
    (h : fields.get? "status" = some v) :
    status (updateJob store id fields) id = (getJob store id).map fun _ => v := by
  simp only [status, getJob_updateJob, if_true]
  cases getJob store id with
  | none => rfl
  | some data => simp [Dict.get?_update, h]

@[simp] theorem status_expireJob (store : Store) (id : String) :
    status (expireJob store id) id = none := by
  simp [status]

theorem getJob_of_status {store : Store} {id : String} {v : Value} (h : status store id = some v) :
    ∃ data, getJob store id = some data := by
  unfold status at h
  cases hg : getJob store id with
  | none => simp [hg] at h
  | some data => exact ⟨data, rfl⟩

end RagEval.Jobs
