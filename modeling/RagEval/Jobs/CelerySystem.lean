import RagEval.Api.AsyncEndpoints
import RagEval.Jobs.IndependentJobs
import RagEval.Lib.Parties

/-!
# Requests and Celery workers side by side

The async endpoints of v1 and any number of Celery workers over one store and one broker. A
request creates its record with one SET, then its task is in the queue; a worker takes the task,
reads with the GET of an update and writes with its SET, and between the two any other party may
run. Tasks are acknowledged late: when a worker is lost its message goes back to the queue, with
the retries it came with, whatever the attempt had done. Records do not expire, and only an
evaluation raises.

## Main definitions

- `Celery.PartyStep` — the commands of one request, message or worker
- `Celery.protocol` — a request joins, or a party goes on

## Main result

- `Celery.protocol_separated` — a party changes the record of its own job only
-/

namespace RagEval.Jobs.Celery
open RagEval.Lib RagEval.Lib.Parties RagEval.Api

/-- The fields the update at this position of a task writes. -/
def taskFields (now : String) : TaskPos → Option Record
  | .markRunning => some (runningFields now)
  | .markCompleted result => some (completedFields result now)
  | .markFailed error => some (failedFields error now)
  | _ => none

/-- The task a request is handed to. -/
def task : EvalRequest → EvalTask
  | .singleTurn _ => ragasSingleTurnTask
  | .multiTurn _ => ragasMultiTurnTask

/-- The payload of the task. -/
def payload : EvalRequest → Payload
  | .singleTurn payload => payload.evalInput
  | .multiTurn payload => payload.evalInput

/-- How far the task of a job has come: its request has created the job and not yet called
`delay`, its message is in the queue with the retries made, a worker has it, or it is
acknowledged with its outcome. -/
inductive Stage where
  | requested
  | queued (retries : Nat)
  | running (retries : Nat) (pos : TaskPos) (held : Option OpenUpdate)
  | settled (outcome : Outcome)

structure Party where
  request : EvalRequest
  stage : Stage

inductive Action where
  | accepted (request : EvalRequest) (now : String)
  | delayed
  | delivered
  | read (now : String)
  | worked (e : WorkerEvent)
  | acknowledged
  | workerLost

/-- One command of a party on the store; where a task goes on is what `TaskState.next` says. -/
inductive PartyStep (service : EvaluationService) (store : Store) (jobId : String)
    (request : EvalRequest) : Stage → Action → Store → Stage → Prop
  | delayed : PartyStep service store jobId request .requested .delayed store (.queued 0)
  | delivered {retries : Nat} :
      PartyStep service store jobId request (.queued retries) .delivered store
        (.running retries .markRunning none)
  /-- The GET of an update that finds a record. -/
  | read {retries : Nat} {pos : TaskPos} {now : String} {fields data : Record}
      (hfields : taskFields now pos = some fields)
      (hget : updateGet store jobId fields = some data) :
      PartyStep service store jobId request (.running retries pos none) (.read now) store
        (.running retries pos (some ⟨now, data⟩))
  /-- The GET of an update that finds none: the update returns. -/
  | missed {retries : Nat} {pos : TaskPos} {now : String} {fields : Record} {s' : TaskState}
      (hfields : taskFields now pos = some fields)
      (hget : updateGet store jobId fields = none)
      (hnext : TaskState.next (task request) jobId ⟨store, retries, pos⟩ (.updated now) = some s') :
      PartyStep service store jobId request (.running retries pos none) (.read now) store
        (.running s'.retries s'.pos none)
  /-- The SET of an update. -/
  | written {retries : Nat} {pos : TaskPos} {held : OpenUpdate} {s' : TaskState}
      (hnext : TaskState.next (task request) jobId ⟨store, retries, pos⟩ (.updated held.now) =
        some s') :
      PartyStep service store jobId request (.running retries pos (some held))
        (.worked (.updated held.now)) (updateSet store jobId held.data)
        (.running s'.retries s'.pos none)
  | evaluated {retries : Nat} {e : WorkerEvent} {outcome : Outcome} {s' : TaskState}
      (hends : e.outcome = some outcome)
      (hallows : (task request).Allows service (payload request) e)
      (hnext : TaskState.next (task request) jobId ⟨store, retries, .evaluate⟩ e = some s') :
      PartyStep service store jobId request (.running retries .evaluate none) (.worked e) store
        (.running s'.retries s'.pos none)
  /-- `self.retry` puts a new message into the queue. -/
  | retried {retries : Nat} {error : String} {s' : TaskState}
      (hnext : TaskState.next (task request) jobId ⟨store, retries, .retry error⟩ .retried =
        some s')
      (hpos : s'.pos = .markRunning) :
      PartyStep service store jobId request (.running retries (.retry error) none)
        (.worked .retried) store (.queued s'.retries)
  /-- `self.retry` without retries left raises the exception; the task has failed. -/
  | gaveUp {retries : Nat} {error : String} {s' : TaskState}
      (hnext : TaskState.next (task request) jobId ⟨store, retries, .retry error⟩ .retried =
        some s')
      (hpos : s'.pos = .gaveUp error) :
      PartyStep service store jobId request (.running retries (.retry error) none)
        (.worked .retried) store (.settled (.error error))
  | acknowledged {retries : Nat} {result : Result} :
      PartyStep service store jobId request (.running retries (.returned result) none)
        .acknowledged store (.settled (.ok result))
  | workerLost {retries : Nat} {pos : TaskPos} {held : Option OpenUpdate} :
      PartyStep service store jobId request (.running retries pos held) .workerLost store
        (.queued retries)

/-- A request is accepted under a fresh id, or a party goes on. -/
def protocol (service : EvaluationService) : Protocol Store String Party Action where
  join store jobId action store' p := ∃ request now, getJob store jobId = none ∧
    action = .accepted request now ∧ store' = createJob store jobId request.jobType none now ∧
    p = ⟨request, .requested⟩
  step store jobId p action store' p' := p'.request = p.request ∧
    PartyStep service store jobId p.request p.stage action store' p'.stage

/-- The endpoints of v1 create the job and then call `delay` on the request's task. -/
theorem evaluateAsync_v1 (broker : Broker) (store : Store) (jobId now : String)
    (request : EvalRequest) :
    evaluateAsync broker store jobId now .v1 request =
      enqueue broker store request.jobType jobId now
        (.delay (task request) jobId (payload request)) := by
  cases request <;> rfl

/-! ## What a step leaves alone -/

section
variable {service : EvaluationService} {store store' : Store} {jobId : String}
  {request : EvalRequest} {stage stage' : Stage} {action : Action}

/-- A party writes the record of its own job only. -/
theorem PartyStep.frame (h : PartyStep service store jobId request stage action store' stage')
    {id : String} (hid : id ≠ jobId) : getJob store' id = getJob store id := by
  cases h with
  | written hnext => rw [getJob_updateSet, if_neg (Ne.symm hid)]
  | delayed | delivered | read | missed | evaluated | retried | gaveUp | acknowledged
  | workerLost => rfl

/-- The record of its job stays there. -/
theorem PartyStep.keeps_record
    (h : PartyStep service store jobId request stage action store' stage')
    (hr : ∃ r, getJob store jobId = some r) : ∃ r, getJob store' jobId = some r := by
  cases h with
  | @written _ _ held => exact ⟨held.data, by simp⟩
  | delayed | delivered | read | missed | evaluated | retried | gaveUp | acknowledged
  | workerLost => exact hr

/-- Every party owns the record of its job. -/
theorem protocol_separated (service : EvaluationService) :
    (protocol service).Separated getJob fun record => ∃ r, record = some r where
  join_unused := by
    rintro store id a store' p ⟨request, now, hfresh, -⟩ ⟨r, hr⟩
    cases hfresh.symm.trans hr
  join_used := by
    rintro store id a store' p ⟨request, now, -, -, rfl, -⟩
    exact ⟨_, by rw [getJob_createJob, if_pos rfl]⟩
  step_used := fun h => h.2.keeps_record
  join_frame := by
    rintro store id a store' p ⟨request, now, -, -, rfl, -⟩ other hother
    rw [getJob_createJob, if_neg (Ne.symm hother)]
  step_frame := fun h _ hother => h.2.frame hother

end

end RagEval.Jobs.Celery
