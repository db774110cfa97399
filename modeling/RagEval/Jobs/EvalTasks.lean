import RagEval.Jobs.Workers
import RagEval.Lib.Runs

/-!
# The Celery tasks

`app/workers/tasks/eval_tasks.py`: the two tasks differ in the evaluation they call.
An attempt marks the job running, evaluates, and marks it completed or failed; any
exception retries the task until its retries are used up.
-/

namespace RagEval.Jobs
open RagEval.Lib

structure EvalTask where
  name : String
  evalType : EvalType
  maxRetries : Nat

/-- `ragas_single_turn_task`. -/
def ragasSingleTurnTask : EvalTask := ⟨"eval.ragas_single_turn", .singleTurn, 3⟩

/-- `ragas_multi_turn_task`. -/
def ragasMultiTurnTask : EvalTask := ⟨"eval.ragas_multi_turn", .multiTurn, 3⟩

/-- What the task does next. -/
inductive TaskPos where
  | markRunning
  | evaluate
  | markCompleted (result : Result)
  | markFailed (error : String)
  | retry (error : String)
  | returned (result : Result)
  | gaveUp (error : String)
  deriving Repr

structure TaskState where
  store : Store
  retries : Nat
  pos : TaskPos

/-- The state in which a task is delivered. -/
def TaskState.init (store : Store) : TaskState := ⟨store, 0, .markRunning⟩

/-- What an event does to the task: `_eval()` with the `try` around it. -/
def TaskState.next (task : EvalTask) (jobId : String) (s : TaskState) (e : WorkerEvent) :
    Option TaskState :=
  match s.pos, e with
  | _, .expired => some { s with store := expireJob s.store jobId }
  | .markRunning, .updated now =>
    some { s with store := updateJob s.store jobId (runningFields now), pos := .evaluate }
  | .markRunning, .updateRaised applied error now =>
    some { s with
      store := updateJobIf applied s.store jobId (runningFields now)
      pos := .retry error }
  | .evaluate, .evaluated result => some { s with pos := .markCompleted result }
  | .evaluate, .evaluationRaised error => some { s with pos := .markFailed error }
  | .markCompleted result, .updated now =>
    some { s with
      store := updateJob s.store jobId (completedFields result now)
      pos := .returned result }
  | .markCompleted result, .updateRaised applied error now =>
    some { s with
      store := updateJobIf applied s.store jobId (completedFields result now)
      pos := .markFailed error }
  | .markFailed error, .updated now =>
    some { s with store := updateJob s.store jobId (failedFields error now), pos := .retry error }
  | .markFailed error, .updateRaised applied error' now =>
    some { s with
      store := updateJobIf applied s.store jobId (failedFields error now)
      pos := .retry error' }
  | .retry error, .retried =>
    if s.retries < task.maxRetries then
      some { s with retries := s.retries + 1, pos := .markRunning }
    else some { s with pos := .gaveUp error }
  | _, _ => none

/-- The service allows the outcome of the task's evaluation. -/
def EvalTask.Allows (task : EvalTask) (service : EvaluationService) (payload : Payload) :
    WorkerEvent → Prop
  | .evaluated result => service.returns task.evalType payload result
  | .evaluationRaised error => service.raises task.evalType payload error
  | _ => True

/-- One step of the task on a job. -/
def TaskStep (task : EvalTask) (service : EvaluationService) (jobId : String) (payload : Payload)
    (s : TaskState) (e : WorkerEvent) (s' : TaskState) : Prop :=
  s.next task jobId e = some s' ∧ task.Allows service payload e

/-- What a step of the task can do: an update at the task's position takes effect,
and then returns or raises, or raises without effect, or the store stays as it is. -/
inductive TaskStep.Effect (task : EvalTask) (jobId : String) (s : TaskState) (e : WorkerEvent)
    (s' : TaskState) : Prop
  | expired (hstore : s'.store = expireJob s.store jobId) (hpos : s'.pos = s.pos)
      (he : ¬e.Applies)
  | markedRunning (now : String) (hpos : s.pos = .markRunning)
      (hstore : s'.store = updateJob s.store jobId (runningFields now))
      (hnext : s'.pos = .evaluate ∨ e.Raises ∧ ∃ error, s'.pos = .retry error) (he : e.Applies)
  | notMarkedRunning (hpos : s.pos = .markRunning) (hstore : s'.store = s.store)
      (hnext : ∃ error, s'.pos = .retry error) (he : ¬e.Applies)
  | evaluated (hpos : s.pos = .evaluate) (hstore : s'.store = s.store)
      (hnext : ∃ result, s'.pos = .markCompleted result) (he : ¬e.Applies)
  | evaluationRaised (hpos : s.pos = .evaluate) (hstore : s'.store = s.store)
      (hnext : ∃ error, s'.pos = .markFailed error) (he : ¬e.Applies)
  | markedCompleted (result : Result) (now : String) (hpos : s.pos = .markCompleted result)
      (hstore : s'.store = updateJob s.store jobId (completedFields result now))
      (hnext : s'.pos = .returned result ∨ e.Raises ∧ ∃ error, s'.pos = .markFailed error)
      (he : e.Applies)
  | notMarkedCompleted (result : Result) (hpos : s.pos = .markCompleted result)
      (hstore : s'.store = s.store) (hnext : ∃ error, s'.pos = .markFailed error)
      (he : ¬e.Applies)
  | markedFailed (error now : String) (hpos : s.pos = .markFailed error)
      (hstore : s'.store = updateJob s.store jobId (failedFields error now))
      (hnext : ∃ error, s'.pos = .retry error) (he : e.Applies)
  | notMarkedFailed (error : String) (hpos : s.pos = .markFailed error) (hstore : s'.store = s.store)
      (hnext : ∃ error, s'.pos = .retry error) (he : ¬e.Applies)
  | retried (error : String) (he : e = .retried) (hpos : s.pos = .retry error)
      (hlt : s.retries < task.maxRetries) (hstore : s'.store = s.store)
      (hnext : s'.pos = .markRunning) (hna : ¬e.Applies)
  | gaveUp (error : String) (hpos : s.pos = .retry error) (hstore : s'.store = s.store)
      (hnext : s'.pos = .gaveUp error) (he : ¬e.Applies)

variable {task : EvalTask} {service : EvaluationService} {jobId : String} {payload : Payload}
  {s s' : TaskState} {e : WorkerEvent}

theorem TaskStep.effect (h : TaskStep task service jobId payload s e s') :
    TaskStep.Effect task jobId s e s' := by
  obtain ⟨h, -⟩ := h
  unfold TaskState.next at h
  split at h
  case h_10 error hpos =>
    split_ifs at h with hlt
    · obtain rfl := Option.some.inj h
      exact .retried error rfl hpos hlt rfl rfl id
    · obtain rfl := Option.some.inj h
      exact .gaveUp error hpos rfl rfl id
  case h_11 => cases h
  all_goals obtain rfl := Option.some.inj h
  case h_1 => exact .expired rfl rfl id
  case h_2 now hpos => exact .markedRunning now hpos rfl (.inl rfl) trivial
  case h_3 applied error now hpos =>
    cases applied with
    | false => exact .notMarkedRunning hpos rfl ⟨error, rfl⟩ Bool.false_ne_true
    | true => exact .markedRunning now hpos rfl (.inr ⟨trivial, error, rfl⟩) rfl
  case h_4 result hpos => exact .evaluated hpos rfl ⟨result, rfl⟩ id
  case h_5 error hpos => exact .evaluationRaised hpos rfl ⟨error, rfl⟩ id
  case h_6 result now hpos => exact .markedCompleted result now hpos rfl (.inl rfl) trivial
  case h_7 result applied error now hpos =>
    cases applied with
    | false => exact .notMarkedCompleted result hpos rfl ⟨error, rfl⟩ Bool.false_ne_true
    | true => exact .markedCompleted result now hpos rfl (.inr ⟨trivial, error, rfl⟩) rfl
  case h_8 error now hpos => exact .markedFailed error now hpos rfl ⟨error, rfl⟩ trivial
  case h_9 error applied error' now hpos =>
    cases applied with
    | false => exact .notMarkedFailed error hpos rfl ⟨error', rfl⟩ Bool.false_ne_true
    | true => exact .markedFailed error now hpos rfl ⟨error', rfl⟩ rfl

/-- The store after a step: untouched, without the record, or updated. -/
theorem TaskStep.store (h : TaskStep task service jobId payload s e s') :
    s'.store = s.store ∨ s'.store = expireJob s.store jobId ∨
      ∃ fields, s'.store = updateJob s.store jobId fields := by
  cases h.effect with
  | expired hstore => exact .inr (.inl hstore)
  | markedRunning _ _ hstore | markedCompleted _ _ _ hstore | markedFailed _ _ _ hstore =>
    exact .inr (.inr ⟨_, hstore⟩)
  | notMarkedRunning _ hstore | evaluated _ hstore | evaluationRaised _ hstore
  | notMarkedCompleted _ _ hstore | notMarkedFailed _ _ hstore | retried _ _ _ _ hstore
  | gaveUp _ _ hstore =>
    exact .inl hstore

/-- Retries are never given back. -/
theorem TaskStep.retries_le (h : TaskStep task service jobId payload s e s') :
    s.retries ≤ s'.retries := by
  obtain ⟨h, -⟩ := h
  unfold TaskState.next at h
  split at h
  case h_10 =>
    split_ifs at h with hlt
    · obtain rfl := Option.some.inj h
      exact Nat.le_succ _
    · obtain rfl := Option.some.inj h
      exact le_rfl
  case h_11 => cases h
  all_goals
    obtain rfl := Option.some.inj h
    exact le_rfl

end RagEval.Jobs
