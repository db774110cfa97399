import RagEval.Jobs.Workers
import RagEval.Lib.Runs

/-!
# The Kafka worker

`app/workers/eval_worker.py`: the handler of one `eval.requested` event. The first
update stands outside the `try`; an exception after the job was marked completed,
that of the publication included, marks it failed.
-/

namespace RagEval.Jobs
open RagEval.Lib

/-- The fields of an `EvalRequestedEvent` the handler reads. -/
structure EvalRequestedEvent where
  jobId : String
  evalType : String
  evalInput : Payload

/-- The service a worker calls, and the display of a string. -/
structure WorkerEnv where
  service : EvaluationService
  reprStr : String → String

/-- The evaluation an event names. -/
def EvalType.ofString : String → Option EvalType
  | "single_turn" => some .singleTurn
  | "multi_turn" => some .multiTurn
  | _ => none

/-- What the handler does next. -/
inductive HandlerPos where
  | markRunning
  | evaluate
  | markCompleted (result : Result)
  | publishCompleted (result : Result)
  | markFailed (error : String)
  | publishFailed (error : String)
  | returned
  | raised (error : String)
  deriving Repr

/-- The fields the update at this position writes. -/
def HandlerPos.fields (now : String) : HandlerPos → Option Record
  | .markRunning => some (runningFields now)
  | .markCompleted result => some (completedFields result now)
  | .markFailed error => some (failedFields error now)
  | _ => none

/-- Where the handler goes on after the `await` at this position. -/
def HandlerPos.next : HandlerPos → WorkerEvent → Option HandlerPos
  | .markRunning, .updated _ => some .evaluate
  | .markRunning, .updateRaised _ error _ => some (.raised error)
  | .evaluate, .evaluated result => some (.markCompleted result)
  | .evaluate, .evaluationRaised error => some (.markFailed error)
  | .markCompleted result, .updated _ => some (.publishCompleted result)
  | .markCompleted _, .updateRaised _ error _ => some (.markFailed error)
  | .publishCompleted _, .published => some .returned
  | .publishCompleted _, .publishRaised error => some (.markFailed error)
  | .markFailed error, .updated _ => some (.publishFailed error)
  | .markFailed _, .updateRaised _ error _ => some (.raised error)
  | .publishFailed _, .published => some .returned
  | .publishFailed _, .publishRaised error => some (.raised error)
  | _, _ => none

/-- The outcomes of the evaluation an event asks for; an unknown type raises. -/
def WorkerEnv.Allows (env : WorkerEnv) (event : EvalRequestedEvent) : WorkerEvent → Prop
  | .evaluated result => ∃ type, EvalType.ofString event.evalType = some type ∧
      env.service.returns type event.evalInput result
  | .evaluationRaised error =>
    match EvalType.ofString event.evalType with
    | some type => env.service.raises type event.evalInput error
    | none => error = "Unknown eval_type: " ++ env.reprStr event.evalType
  | _ => True

structure HandlerState where
  store : Store
  pos : HandlerPos

def HandlerState.init (store : Store) : HandlerState := ⟨store, .markRunning⟩

/-- What an event does to the store, at the position of the handler. -/
def HandlerState.write (jobId : String) (s : HandlerState) : WorkerEvent → Store
  | .updated now =>
    match s.pos.fields now with
    | some fields => updateJob s.store jobId fields
    | none => s.store
  | .updateRaised applied _ now =>
    match s.pos.fields now with
    | some fields => updateJobIf applied s.store jobId fields
    | none => s.store
  | _ => s.store

/-- What an event does to the handler. -/
def HandlerState.next (jobId : String) (s : HandlerState) (e : WorkerEvent) : Option HandlerState :=
  match e with
  | .expired => some { s with store := expireJob s.store jobId }
  | e => (s.pos.next e).map fun pos => ⟨s.write jobId e, pos⟩

/-- One step of the handler of an event. -/
def HandlerStep (env : WorkerEnv) (event : EvalRequestedEvent) (s : HandlerState) (e : WorkerEvent)
    (s' : HandlerState) : Prop :=
  s.next event.jobId e = some s' ∧ env.Allows event e

/-- What a step of the handler can do; an update takes effect, and then returns or
raises, or raises without effect. -/
inductive HandlerStep.Effect (jobId : String) (s : HandlerState) (e : WorkerEvent)
    (s' : HandlerState) : Prop
  | expired (hstore : s'.store = expireJob s.store jobId) (hpos : s'.pos = s.pos)
  | markedRunning (now : String) (hpos : s.pos = .markRunning)
      (hstore : s'.store = updateJob s.store jobId (runningFields now))
      (hnext : s'.pos = .evaluate ∨ e.Raises ∧ ∃ error, s'.pos = .raised error)
  | notMarkedRunning (hpos : s.pos = .markRunning) (hstore : s'.store = s.store)
      (hnext : ∃ error, s'.pos = .raised error)
  | evaluated (hpos : s.pos = .evaluate) (hstore : s'.store = s.store)
      (hnext : ∃ result, s'.pos = .markCompleted result)
  | evaluationRaised (hpos : s.pos = .evaluate) (hstore : s'.store = s.store)
      (hnext : ∃ error, s'.pos = .markFailed error)
  | markedCompleted (result : Result) (now : String) (hpos : s.pos = .markCompleted result)
      (hstore : s'.store = updateJob s.store jobId (completedFields result now))
      (hnext : s'.pos = .publishCompleted result ∨ e.Raises ∧ ∃ error, s'.pos = .markFailed error)
  | notMarkedCompleted (result : Result) (hpos : s.pos = .markCompleted result)
      (hstore : s'.store = s.store) (hnext : ∃ error, s'.pos = .markFailed error)
  | publishedCompleted (result : Result) (hpos : s.pos = .publishCompleted result)
      (hstore : s'.store = s.store)
      (hnext : s'.pos = .returned ∨ e.Raises ∧ ∃ error, s'.pos = .markFailed error)
  | markedFailed (error now : String) (hpos : s.pos = .markFailed error)
      (hstore : s'.store = updateJob s.store jobId (failedFields error now))
      (hnext : s'.pos = .publishFailed error ∨ ∃ error, s'.pos = .raised error)
  | notMarkedFailed (error : String) (hpos : s.pos = .markFailed error) (hstore : s'.store = s.store)
      (hnext : ∃ error, s'.pos = .raised error)
  | publishedFailed (error : String) (hpos : s.pos = .publishFailed error)
      (hstore : s'.store = s.store) (hnext : s'.pos = .returned ∨ ∃ error, s'.pos = .raised error)

theorem HandlerStep.effect {env : WorkerEnv} {event : EvalRequestedEvent} {s s' : HandlerState}
    {e : WorkerEvent} (h : HandlerStep env event s e s') :
    HandlerStep.Effect event.jobId s e s' := by
  obtain ⟨h, -⟩ := h
  unfold HandlerState.next at h
  split at h
  · obtain rfl := Option.some.inj h
    exact .expired rfl rfl
  · obtain ⟨pos, hnext, rfl⟩ := Option.map_eq_some_iff.mp h
    unfold HandlerPos.next at hnext
    split at hnext
    case h_13 => cases hnext
    all_goals obtain rfl := Option.some.inj hnext
    case h_1 now hpos _ =>
      exact .markedRunning now hpos (by simp [HandlerState.write, hpos, HandlerPos.fields]) (.inl rfl)
    case h_2 applied error now hpos _ =>
      cases applied with
      | false =>
        exact .notMarkedRunning hpos
          (by simp [HandlerState.write, hpos, HandlerPos.fields, updateJobIf]) ⟨error, rfl⟩
      | true =>
        exact .markedRunning now hpos
          (by simp [HandlerState.write, hpos, HandlerPos.fields, updateJobIf])
          (.inr ⟨trivial, error, rfl⟩)
    case h_3 result hpos _ => exact .evaluated hpos rfl ⟨result, rfl⟩
    case h_4 error hpos _ => exact .evaluationRaised hpos rfl ⟨error, rfl⟩
    case h_5 result now hpos _ =>
      exact .markedCompleted result now hpos
        (by simp [HandlerState.write, hpos, HandlerPos.fields]) (.inl rfl)
    case h_6 result applied error now hpos _ =>
      cases applied with
      | false =>
        exact .notMarkedCompleted result hpos
          (by simp [HandlerState.write, hpos, HandlerPos.fields, updateJobIf]) ⟨error, rfl⟩
      | true =>
        exact .markedCompleted result now hpos
          (by simp [HandlerState.write, hpos, HandlerPos.fields, updateJobIf])
          (.inr ⟨trivial, error, rfl⟩)
    case h_7 result hpos _ => exact .publishedCompleted result hpos rfl (.inl rfl)
    case h_8 result error hpos _ =>
      exact .publishedCompleted result hpos rfl (.inr ⟨trivial, error, rfl⟩)
    case h_9 error now hpos _ =>
      exact .markedFailed error now hpos
        (by simp [HandlerState.write, hpos, HandlerPos.fields]) (.inl rfl)
    case h_10 error applied error' now hpos _ =>
      cases applied with
      | false =>
        exact .notMarkedFailed error hpos
          (by simp [HandlerState.write, hpos, HandlerPos.fields, updateJobIf]) ⟨error', rfl⟩
      | true =>
        exact .markedFailed error now hpos
          (by simp [HandlerState.write, hpos, HandlerPos.fields, updateJobIf])
          (.inr ⟨error', rfl⟩)
    case h_11 error hpos _ => exact .publishedFailed error hpos rfl (.inl rfl)
    case h_12 error error' hpos _ => exact .publishedFailed error hpos rfl (.inr ⟨error', rfl⟩)

/-- The store after a step: untouched, without the record, or updated. -/
theorem HandlerStep.store {env : WorkerEnv} {event : EvalRequestedEvent} {s s' : HandlerState}
    {e : WorkerEvent} (h : HandlerStep env event s e s') :
    s'.store = s.store ∨ s'.store = expireJob s.store event.jobId ∨
      ∃ fields, s'.store = updateJob s.store event.jobId fields := by
  cases h.effect with
  | expired hstore => exact .inr (.inl hstore)
  | markedRunning _ _ hstore | markedCompleted _ _ _ hstore | markedFailed _ _ _ hstore =>
    exact .inr (.inr ⟨_, hstore⟩)
  | notMarkedRunning _ hstore | evaluated _ hstore | evaluationRaised _ hstore
  | notMarkedCompleted _ _ hstore | publishedCompleted _ _ hstore | notMarkedFailed _ _ hstore
  | publishedFailed _ _ hstore =>
    exact .inl hstore

end RagEval.Jobs
