import RagEval.Api.EvalRouterV2
import RagEval.Jobs.EvalTasks

/-!
# Accepting an asynchronous evaluation

The four endpoints that answer with a job id: `app/api/v1/eval_router.py` hands the job
to a Celery task, `app/api/v2/eval_router.py` publishes it to Kafka. Each creates the
job first, and none takes it back when the second step raises.

## Main result

- `dispatch_raised` — what is left of a request whose dispatch raised
-/

namespace RagEval.Api
open RagEval.Lib RagEval.Jobs

def topicEvalRequested : String := "eval.requested"

/-- The two ways to hand a job over: `task.delay` and `publisher.publish`. -/
inductive Dispatch where
  | delay (task : EvalTask) (jobId : String) (payload : Payload)
  | publish (topic : String) (event : EvalRequestedEvent)

/-- What the brokers do with a job: take it, or raise. -/
abbrev Broker := Dispatch → Except String Unit

structure AsyncJobResponse where
  jobId : String
  status : String := "pending"
  message : String := "Job enqueued. Poll /jobs/{job_id} for status."

/-- The body the endpoints share, with the id and the moment `create_job` draws: what the
request returns or raises, and the store it leaves. -/
def enqueue (broker : Broker) (store : Store) (jobType jobId now : String) (dispatch : Dispatch) :
    Except String AsyncJobResponse × Store :=
  let store := createJob store jobId jobType none now
  match broker dispatch with
  | .ok () => (.ok { jobId }, store)
  | .error e => (.error e, store)

section
variable (broker : Broker) (store : Store) (jobId now : String)

/-- `evaluate_single_turn_async` of v1. -/
def evaluateSingleTurnAsync (payload : RagasSingleTurnRequest) :
    Except String AsyncJobResponse × Store :=
  enqueue broker store "ragas_single_turn" jobId now
    (.delay ragasSingleTurnTask jobId payload.evalInput)

/-- `evaluate_multi_turn_async` of v1. -/
def evaluateMultiTurnAsync (payload : RagasMultiTurnRequest) :
    Except String AsyncJobResponse × Store :=
  enqueue broker store "ragas_multi_turn" jobId now
    (.delay ragasMultiTurnTask jobId payload.evalInput)

/-- `evaluate_single_turn_v2`. -/
def evaluateSingleTurnV2 (payload : RagasSingleTurnRequest) :
    Except String AsyncJobResponse × Store :=
  enqueue broker store "ragas_single_turn" jobId now
    (.publish topicEvalRequested ((EvalRequest.singleTurn payload).event jobId))

/-- `evaluate_multi_turn_v2`. -/
def evaluateMultiTurnV2 (payload : RagasMultiTurnRequest) :
    Except String AsyncJobResponse × Store :=
  enqueue broker store "ragas_multi_turn" jobId now
    (.publish topicEvalRequested ((EvalRequest.multiTurn payload).event jobId))

end

inductive ApiVersion where
  | v1 | v2

/-- The endpoint of a version for a request. -/
def evaluateAsync (broker : Broker) (store : Store) (jobId now : String) :
    ApiVersion → EvalRequest → Except String AsyncJobResponse × Store
  | .v1, .singleTurn payload => evaluateSingleTurnAsync broker store jobId now payload
  | .v1, .multiTurn payload => evaluateMultiTurnAsync broker store jobId now payload
  | .v2, .singleTurn payload => evaluateSingleTurnV2 broker store jobId now payload
  | .v2, .multiTurn payload => evaluateMultiTurnV2 broker store jobId now payload

/-- How an endpoint hands a request over. -/
def dispatchOf (jobId : String) : ApiVersion → EvalRequest → Dispatch
  | .v1, .singleTurn payload => .delay ragasSingleTurnTask jobId payload.evalInput
  | .v1, .multiTurn payload => .delay ragasMultiTurnTask jobId payload.evalInput
  | .v2, request => .publish topicEvalRequested (request.event jobId)

/-- The four endpoints have one body. -/
theorem evaluateAsync_eq (broker : Broker) (store : Store) (jobId now : String)
    (version : ApiVersion) (request : EvalRequest) :
    evaluateAsync broker store jobId now version request =
      enqueue broker store request.jobType jobId now (dispatchOf jobId version request) := by
  cases version <;> cases request <;> rfl

/-- **A raised dispatch leaves the job behind.** The request raises what the broker raised;
the store has one more record, the new job's, pending and with its full time to live. -/
theorem dispatch_raised (broker : Broker) (store : Store) {jobId : String} (now : String)
    (version : ApiVersion) (request : EvalRequest) {e : String}
    (hraised : broker (dispatchOf jobId version request) = .error e) :
    ∃ store', evaluateAsync broker store jobId now version request = (.error e, store') ∧
      store'.get? (key jobId) =
        some ⟨newRecord jobId request.jobType none now, jobTtlSeconds⟩ ∧
      status store' jobId = some pending ∧
      ∀ id, id ≠ jobId → getJob store' id = getJob store id := by
  refine ⟨createJob store jobId request.jobType none now, ?_, ?_, ?_, fun id hid => ?_⟩
  · rw [evaluateAsync_eq, enqueue, hraised]
  · simp [createJob]
  · simp only [status, getJob_createJob, if_true, Option.bind_some]
    rfl
  · rw [getJob_createJob, if_neg (Ne.symm hid)]

namespace Demo

def payload : RagasSingleTurnRequest where
  userInput := "q"
  response := "a"
  retrievedContexts := ["c", "d"]
  referenceContexts := none
  retrievedContextIds := none
  referenceContextIds := none
  reference := none
  metricNames := ["answer_relevancy"]
  retrievedContexts_ne_nil := by simp
  metricNames_ne_nil := by simp

/-- No broker is there. -/
def brokerDown : Broker := fun _ => .error "broker down"

end Demo

open Demo in
theorem dispatch_raised_single_turn :
    ∃ store', evaluateAsync brokerDown Dict.empty "j" "t0" .v2 (.singleTurn payload) =
        (.error "broker down", store') ∧
      store'.get? (key "j") =
        some ⟨newRecord "j" "ragas_single_turn" none "t0", jobTtlSeconds⟩ ∧
      status store' "j" = some pending ∧
      ∀ id, id ≠ "j" → getJob store' id = getJob Dict.empty id :=
  dispatch_raised brokerDown Dict.empty "t0" .v2 (.singleTurn payload) rfl

open Demo in
/-- The store after the request is not the one before it. -/
theorem dispatch_raised_not_rolled_back :
    brokerDown (dispatchOf "j" .v2 (.singleTurn payload)) = .error "broker down" ∧
      (evaluateAsync brokerDown Dict.empty "j" "t0" .v2 (.singleTurn payload)).2 ≠ Dict.empty := by
  refine ⟨rfl, fun h => ?_⟩
  have hkeys := congrArg Dict.keys h
  cases hkeys

end RagEval.Api
