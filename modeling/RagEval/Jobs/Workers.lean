import RagEval.Jobs.RedisJobStore

/-!
# What the workers have in common

The evaluation service is a parameter: the dictionaries it may return and the texts
of the exceptions it may raise. What happens at each `await` of a worker is an event.
-/

namespace RagEval.Jobs
open RagEval.Lib

inductive EvalType where
  | singleTurn | multiTurn
  deriving DecidableEq, Repr

/-- The arguments of an evaluation, and its result. -/
abbrev Payload := List (String × Value)

abbrev Result := List (String × Value)

/-- What an evaluation of a payload may return, and what it may raise. -/
structure EvaluationService where
  returns : EvalType → Payload → Result → Prop
  raises : EvalType → Payload → String → Prop

/-- What happens at an `await`: a store update or a publication returns or raises,
having taken effect or not, an evaluation returns or raises. Apart from the worker, a
task can be retried and the store can drop the record. -/
inductive WorkerEvent where
  | updated (now : String)
  | updateRaised (applied : Bool) (error now : String)
  | evaluated (result : Result)
  | evaluationRaised (error : String)
  | published
  | publishRaised (error : String)
  | retried
  | expired
  deriving Repr

/-- The event raises an exception in the worker. -/
def WorkerEvent.Raises : WorkerEvent → Prop
  | .updateRaised .. => True
  | .evaluationRaised _ => True
  | .publishRaised _ => True
  | _ => False

/-- The event is an update that takes effect. -/
def WorkerEvent.Applies : WorkerEvent → Prop
  | .updated _ => True
  | .updateRaised applied .. => applied = true
  | _ => False

/-- An update that raised, before or after it took effect. -/
def updateJobIf (applied : Bool) (store : Store) (jobId : String) (fields : Record) : Store :=
  if applied then updateJob store jobId fields else store

def pending : Value := .str "pending"
def running : Value := .str "running"
def completed : Value := .str "completed"
def failed : Value := .str "failed"

end RagEval.Jobs
