import RagEval.Lib.Dict
import RagEval.Lib.Value

/-!
# Evaluating an answer

`app/application/evaluation/use_cases.py`: the use case evaluates and publishes one event on
success and one on failure. The evaluator and the publisher are ports
(`app/domain/evaluation/ports.py`), taken as parameters; the publisher may raise, before or
after it has recorded the event.

The success event is published inside the `try` whose handler publishes the failure event,
so an exception of the publisher is handled as one of the evaluator.

## Main result

- `execute_reports_iff` — when the events and the exception tell what the evaluator did
-/

namespace RagEval.Evaluation
open RagEval.Lib

/-- An exception: `type(exc).__name__`, `str(exc)`, and whether `except Exception` catches it. -/
structure Raised where
  typeName : String
  message : String
  isException : Bool := true
  deriving Repr, DecidableEq

structure EvaluationInput where
  question : String
  contexts : List String
  answer : String
  groundTruth : String
  requestId : Option String := none

structure EvaluationScore where
  metricName : String
  value : BitVec 64

structure EvaluationResult where
  scores : List EvaluationScore
  rawPayload : Dict String Value

abbrev EvaluatorPort := EvaluationInput → List String → Except Raised EvaluationResult

structure Event where
  eventName : String
  payload : Dict String Value

inductive PublishOutcome where
  | succeeds
  | raisesBefore (exc : Raised)
  | raisesAfter (exc : Raised)

def PublishOutcome.raised? : PublishOutcome → Option Raised
  | succeeds => none
  | raisesBefore exc => some exc
  | raisesAfter exc => some exc

/-- What a call does, given the calls before it. -/
abbrev EventPublisherPort := List Event → Event → PublishOutcome

/-- The calls of the publisher and the events it recorded. -/
structure Bus where
  calls : List Event
  recorded : List Event

/-- `publish`. -/
def publish (eventPublisher : EventPublisherPort) (event : Event) : EStateM Raised Bus Unit :=
  fun bus =>
    let called := bus.calls ++ [event]
    match eventPublisher bus.calls event with
    | .succeeds => .ok () ⟨called, bus.recorded ++ [event]⟩
    | .raisesBefore exc => .error exc ⟨called, bus.recorded⟩
    | .raisesAfter exc => .error exc ⟨called, bus.recorded ++ [event]⟩

def requestId (evaluationInput : EvaluationInput) : Value :=
  (evaluationInput.requestId.map Value.str).getD .none

def completedEvent (evaluationInput : EvaluationInput) (result : EvaluationResult) : Event where
  eventName := "evaluation.completed"
  payload := Dict.ofList
    [("request_id", requestId evaluationInput),
     ("question", .str evaluationInput.question),
     ("scores", .list (result.scores.map fun s => .dict [(s.metricName, .float s.value)]))]

def failedEvent (evaluationInput : EvaluationInput) (exc : Raised) : Event where
  eventName := "evaluation.failed"
  payload := Dict.ofList
    [("request_id", requestId evaluationInput),
     ("question", .str evaluationInput.question),
     ("error_type", .str exc.typeName),
     ("error_message", .str exc.message)]

namespace EvaluateAnswerUseCase

/-- The `try` block. -/
def tryExecute (evaluator : EvaluatorPort) (eventPublisher : EventPublisherPort)
    (evaluationInput : EvaluationInput) (metrics : List String) :
    EStateM Raised Bus EvaluationResult := do
  let result ← match evaluator evaluationInput metrics with
    | .ok result => pure result
    | .error exc => throw exc
  publish eventPublisher (completedEvent evaluationInput result)
  return result

/-- The `except Exception` block. -/
def handle (eventPublisher : EventPublisherPort) (evaluationInput : EvaluationInput)
    (exc : Raised) : EStateM Raised Bus EvaluationResult := do
  if exc.isException then
    publish eventPublisher (failedEvent evaluationInput exc)
    throw exc
  else throw exc

/-- `execute`. -/
def execute (evaluator : EvaluatorPort) (eventPublisher : EventPublisherPort)
    (evaluationInput : EvaluationInput) (metrics : List String) :
    EStateM Raised Bus EvaluationResult :=
  tryCatch (tryExecute evaluator eventPublisher evaluationInput metrics)
    (handle eventPublisher evaluationInput)

/-- How an execution ended, with its calls and the recorded events. -/
structure Execution where
  outcome : Except Raised EvaluationResult
  bus : Bus

/-- One execution. -/
def run (evaluator : EvaluatorPort) (eventPublisher : EventPublisherPort)
    (evaluationInput : EvaluationInput) (metrics : List String) : Execution :=
  match (execute evaluator eventPublisher evaluationInput metrics).run ⟨[], []⟩ with
  | .ok result bus => ⟨.ok result, bus⟩
  | .error exc bus => ⟨.error exc, bus⟩

/-- The events and the exception of an execution tell what the evaluator did. -/
structure Reports (evaluated : Except Raised EvaluationResult) (x : Execution) : Prop where
  failed_only : "evaluation.failed" ∈ x.bus.calls.map Event.eventName →
    ∃ exc, evaluated = .error exc
  not_both : ¬("evaluation.completed" ∈ x.bus.recorded.map Event.eventName ∧
    "evaluation.failed" ∈ x.bus.recorded.map Event.eventName)
  own_exception : ∀ exc, evaluated = .error exc → x.outcome = .error exc

/-- The one publication that follows on what the evaluator did raises nothing that changes
the course of the execution. -/
def PublishesQuietly (eventPublisher : EventPublisherPort) (evaluationInput : EvaluationInput) :
    Except Raised EvaluationResult → Prop
  | .ok result => ∀ exc,
      (eventPublisher [] (completedEvent evaluationInput result)).raised? = some exc →
        exc.isException = false
  | .error exc => exc.isException = true → ∀ exc',
      (eventPublisher [] (failedEvent evaluationInput exc)).raised? = some exc' → exc' = exc

section
variable {evaluator : EvaluatorPort} {eventPublisher : EventPublisherPort}
  {evaluationInput : EvaluationInput} {metrics : List String}

theorem publish_of_succeeds {event : Event} (bus : Bus)
    (h : (eventPublisher bus.calls event).raised? = none) :
    publish eventPublisher event bus = .ok () ⟨bus.calls ++ [event], bus.recorded ++ [event]⟩ := by
  unfold publish
  cases hout : eventPublisher bus.calls event with
  | succeeds => rfl
  | raisesBefore e =>
    rw [hout] at h
    cases h
  | raisesAfter e =>
    rw [hout] at h
    cases h

/-- A call that raises may or may not have recorded its event. -/
theorem publish_of_raises {event : Event} (bus : Bus) {exc : Raised}
    (h : (eventPublisher bus.calls event).raised? = some exc) :
    ∃ recorded, recorded ⊆ bus.recorded ++ [event] ∧
      publish eventPublisher event bus = .error exc ⟨bus.calls ++ [event], recorded⟩ := by
  unfold publish
  cases hout : eventPublisher bus.calls event with
  | succeeds =>
    rw [hout] at h
    cases h
  | raisesBefore e =>
    rw [hout] at h
    obtain rfl := Option.some.inj h
    exact ⟨bus.recorded, List.subset_append_left _ _, rfl⟩
  | raisesAfter e =>
    rw [hout] at h
    obtain rfl := Option.some.inj h
    exact ⟨bus.recorded ++ [event], List.Subset.refl _, rfl⟩

/-- The failure event is published for what `except Exception` catches. -/
theorem handle_apply (exc : Raised) (bus : Bus) :
    handle eventPublisher evaluationInput exc bus =
      if exc.isException then
        match publish eventPublisher (failedEvent evaluationInput exc) bus with
        | .ok _ bus' => .error exc bus'
        | .error exc' bus' => .error exc' bus'
      else .error exc bus := by
  unfold handle
  cases exc.isException with
  | false => rfl
  | true =>
    simp only [if_true, bind, EStateM.bind]
    cases publish eventPublisher (failedEvent evaluationInput exc) bus <;> rfl

theorem run_of_ok {result : EvaluationResult} {bus : Bus}
    (h : tryExecute evaluator eventPublisher evaluationInput metrics ⟨[], []⟩ = .ok result bus) :
    run evaluator eventPublisher evaluationInput metrics = ⟨.ok result, bus⟩ := by
  simp only [run, EStateM.run, execute, tryCatch, tryCatchThe, MonadExceptOf.tryCatch,
    EStateM.tryCatch, h]

/-- The handler starts where the `try` block raised. -/
theorem run_of_error {exc : Raised} {bus : Bus}
    (h : tryExecute evaluator eventPublisher evaluationInput metrics ⟨[], []⟩ = .error exc bus) :
    run evaluator eventPublisher evaluationInput metrics =
      match handle eventPublisher evaluationInput exc bus with
      | .ok result bus' => ⟨.ok result, bus'⟩
      | .error exc' bus' => ⟨.error exc', bus'⟩ := by
  simp only [run, EStateM.run, execute, tryCatch, tryCatchThe, MonadExceptOf.tryCatch,
    EStateM.tryCatch, h]
  rfl

theorem tryExecute_of_error {exc : Raised} (bus : Bus)
    (h : evaluator evaluationInput metrics = .error exc) :
    tryExecute evaluator eventPublisher evaluationInput metrics bus = .error exc bus := by
  simp only [tryExecute, h]
  rfl

theorem tryExecute_of_ok (eventPublisher : EventPublisherPort) {result : EvaluationResult}
    (bus : Bus) (h : evaluator evaluationInput metrics = .ok result) :
    tryExecute evaluator eventPublisher evaluationInput metrics bus =
      match publish eventPublisher (completedEvent evaluationInput result) bus with
      | .ok _ bus' => .ok result bus'
      | .error exc bus' => .error exc bus' := by
  simp only [tryExecute, h, bind, EStateM.bind, pure, EStateM.pure]
  cases publish eventPublisher (completedEvent evaluationInput result) bus <;> rfl

/-- The evaluator raised: the failure event is the only call. -/
theorem run_of_evaluator_error (eventPublisher : EventPublisherPort) {exc : Raised}
    (h : evaluator evaluationInput metrics = .error exc) :
    ∃ recorded, recorded ⊆ [failedEvent evaluationInput exc] ∧
      (run evaluator eventPublisher evaluationInput metrics).bus.recorded = recorded ∧
      (run evaluator eventPublisher evaluationInput metrics).outcome = .error
        (if exc.isException then
          ((eventPublisher [] (failedEvent evaluationInput exc)).raised?).getD exc else exc) := by
  rw [run_of_error (tryExecute_of_error _ h), handle_apply]
  cases exc.isException with
  | false => exact ⟨[], List.nil_subset _, rfl, rfl⟩
  | true =>
    cases hraised : (eventPublisher [] (failedEvent evaluationInput exc)).raised? with
    | none =>
      rw [if_pos rfl, publish_of_succeeds ⟨[], []⟩ hraised]
      exact ⟨_, List.Subset.refl _, rfl, rfl⟩
    | some exc' =>
      obtain ⟨recorded, hsub, hpublish⟩ := publish_of_raises ⟨[], []⟩ hraised
      rw [if_pos rfl, hpublish]
      exact ⟨recorded, hsub, rfl, rfl⟩

/-- The evaluator returned and so does the publisher. -/
theorem run_of_quiet {result : EvaluationResult} (h : evaluator evaluationInput metrics = .ok result)
    (hquiet : PublishesQuietly eventPublisher evaluationInput (.ok result)) :
    ∃ recorded outcome, recorded ⊆ [completedEvent evaluationInput result] ∧
      run evaluator eventPublisher evaluationInput metrics =
        ⟨outcome, [completedEvent evaluationInput result], recorded⟩ := by
  have htry := tryExecute_of_ok eventPublisher ⟨[], []⟩ h
  cases hraised : (eventPublisher [] (completedEvent evaluationInput result)).raised? with
  | none =>
    rw [publish_of_succeeds ⟨[], []⟩ hraised] at htry
    exact ⟨_, _, List.Subset.refl _, run_of_ok htry⟩
  | some exc =>
    obtain ⟨recorded, hsub, hpublish⟩ := publish_of_raises ⟨[], []⟩ hraised
    rw [hpublish] at htry
    refine ⟨recorded, .error exc, hsub, ?_⟩
    rw [run_of_error htry, handle_apply, hquiet exc hraised]
    rfl

/-- The evaluator returned and the publisher raised an `Exception`: the failure event is
published after all. -/
theorem failedEvent_mem_calls {result : EvaluationResult} {exc : Raised}
    (h : evaluator evaluationInput metrics = .ok result)
    (hraised : (eventPublisher [] (completedEvent evaluationInput result)).raised? = some exc)
    (hexc : exc.isException = true) :
    failedEvent evaluationInput exc ∈
      (run evaluator eventPublisher evaluationInput metrics).bus.calls := by
  have htry := tryExecute_of_ok eventPublisher ⟨[], []⟩ h
  obtain ⟨recorded, -, hpublish⟩ := publish_of_raises ⟨[], []⟩ hraised
  rw [hpublish] at htry
  rw [run_of_error htry, handle_apply, if_pos hexc]
  let bus : Bus := ⟨[] ++ [completedEvent evaluationInput result], recorded⟩
  cases hfailed : (eventPublisher bus.calls (failedEvent evaluationInput exc)).raised? with
  | none =>
    rw [publish_of_succeeds bus hfailed]
    exact List.mem_append_right _ (List.mem_singleton_self _)
  | some exc' =>
    obtain ⟨recorded', -, hpublish'⟩ := publish_of_raises bus hfailed
    rw [hpublish']
    exact List.mem_append_right _ (List.mem_singleton_self _)

theorem eventName_of_mem {event : Event} {recorded : List Event} {name : String}
    (hsub : recorded ⊆ [event]) (h : name ∈ recorded.map Event.eventName) :
    name = event.eventName := by
  obtain ⟨e, he, rfl⟩ := List.mem_map.mp h
  rw [List.mem_singleton.mp (hsub he)]

end

/-- The input of the unit test. -/
def sampleInput : EvaluationInput where
  question := "What is RAG?"
  contexts := ["RAG combines retrieval and generation."]
  answer := "RAG uses external context for generation."
  groundTruth := "RAG uses retrieval to ground generation."
  requestId := some "req-1"

/-- An evaluator that returns one score. -/
def returning : EvaluatorPort :=
  fun _ metrics => .ok ⟨[⟨metrics.headD "", 0x3FED1EB851EB851F#64⟩], Dict.ofList [("ok", .bool true)]⟩

def raising : EvaluatorPort := fun _ _ => .error { typeName := "RuntimeError", message := "evaluation failed" }

def connectionError : Raised := { typeName := "ConnectionError", message := "broker gone" }

/-- A broker that goes away once it has the success event. -/
def losesConnection : EventPublisherPort :=
  fun calls _ => if calls = [] then .raisesAfter connectionError else .succeeds

end EvaluateAnswerUseCase
end RagEval.Evaluation
