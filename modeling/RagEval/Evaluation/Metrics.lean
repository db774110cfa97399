import Mathlib.Data.Rat.Defs
import RagEval.Lib.Counter
import RagEval.Lib.Value

/-!
# Classification metrics

`app/utils/evaluation_metrics.py` and `EvaluationService.evaluate_classification`. The numbers
are exact rationals where the code has doubles.
-/

namespace RagEval.Evaluation
open RagEval.Lib

/-- `_safe_divide`. -/
def safeDivide (numerator denominator : ℚ) : ℚ :=
  if denominator ≠ 0 then numerator / denominator else 0

structure ConfusionCounts where
  tp : Nat
  fp : Nat
  tn : Nat
  fn : Nat
  deriving DecidableEq

/-- `zip(xs, ys, strict=True)`, exhausted. -/
def zipStrict {α β : Type} (xs : List α) (ys : List β) : Except PyError (List (α × β)) :=
  if ys.length < xs.length then .error (.valueError "zip() argument 2 is shorter than argument 1")
  else if xs.length < ys.length then
    .error (.valueError "zip() argument 2 is longer than argument 1")
  else .ok (xs.zip ys)

/-- One round of the loop of `confusion_counts`: an actual and a predicted label. -/
def countPair (positiveLabel : String) (counts : ConfusionCounts) (pair : String × String) :
    ConfusionCounts :=
  if pair.2 = positiveLabel ∧ pair.1 = positiveLabel then { counts with tp := counts.tp + 1 }
  else if pair.2 = positiveLabel ∧ pair.1 ≠ positiveLabel then { counts with fp := counts.fp + 1 }
  else if pair.2 ≠ positiveLabel ∧ pair.1 ≠ positiveLabel then { counts with tn := counts.tn + 1 }
  else { counts with fn := counts.fn + 1 }

/-- `confusion_counts`. -/
def confusionCounts (actual predicted : List String) (positiveLabel : String) :
    Except PyError ConfusionCounts := do
  let pairs ← zipStrict actual predicted
  return pairs.foldl (countPair positiveLabel) ⟨0, 0, 0, 0⟩

structure ClassificationSummary extends ConfusionCounts where
  samples : Nat
  accuracy : ℚ
  precision : ℚ
  «recall» : ℚ
  f1 : ℚ
  deriving DecidableEq

/-- `classification_summary`. -/
def classificationSummary (actual predicted : List String) (positiveLabel : String) :
    Except PyError ClassificationSummary := do
  if actual.length ≠ predicted.length then
    throw (.valueError "actual and predicted lengths must match")
  else if actual = [] then
    throw (.valueError "at least one sample is required")
  else
    let counts ← confusionCounts actual predicted positiveLabel
    let pairs ← zipStrict actual predicted
    let correct := pairs.countP fun pair => pair.1 = pair.2
    let precision := safeDivide counts.tp (counts.tp + counts.fp : Nat)
    let «recall» := safeDivide counts.tp (counts.tp + counts.fn : Nat)
    let f1 := safeDivide (2 * precision * «recall») (precision + «recall»)
    let accuracy := safeDivide correct actual.length
    return { counts with samples := actual.length, accuracy, precision, «recall», f1 }

/-- `class_distribution`. -/
def classDistribution (labels : List String) : Dict String Nat := counter labels

/-- A field of the payload of an event. -/
inductive PayloadValue where
  | int (n : Nat)
  | str (s : String)
  | number (q : ℚ)
  | strs (xs : List String)

/-- An event of `InMemoryEventBus`. -/
structure BusEvent where
  eventName : String
  payload : Dict String PayloadValue

structure ClassificationResult where
  summary : ClassificationSummary
  actualDistribution : Dict String Nat
  predictedDistribution : Dict String Nat

/-- The event that reports a summary. -/
def classificationCompleted (summary : ClassificationSummary) (positiveLabel : String) :
    BusEvent where
  eventName := "evaluation.classification.completed"
  payload := Dict.ofList
    [("samples", .int summary.samples), ("positive_label", .str positiveLabel),
     ("accuracy", .number summary.accuracy)]

/-- `EvaluationService.evaluate_classification`, with the events published so far. -/
def evaluateClassification (events : List BusEvent) (actual predicted : List String)
    (positiveLabel : String) : Except PyError (ClassificationResult × List BusEvent) := do
  let summary ← classificationSummary actual predicted positiveLabel
  return (⟨summary, classDistribution actual, classDistribution predicted⟩,
    events ++ [classificationCompleted summary positiveLabel])

end RagEval.Evaluation
