import RagEval.Evaluation.Metrics
import RagEval.Evaluation.UseCases
import RagEval.Lib.Loop

/-!
# Scores of ragas metrics

`app/infra/evaluation/ragas_adapter.py`: what `run_single_turn` checks, which metric objects it
builds, and which scores it takes from the row that `aevaluate` returns. The packages `ragas`,
`datasets` and `yaml` are parameters.

The scores are those of the requested metrics that have a value in the row, under the metric's name
in the catalog. The others are missing, and only the count in the event of `EvaluationService` tells
that some are.

## Main definitions

- `Ragas` — what the adapter uses of the installed packages
- `RagasAdapter.evaluateMetrics` — the row of an evaluation
- `RagasAdapter.runSingleTurn` — the scores taken from it

## Main result

- `runSingleTurn_complete_iff` — when no requested metric is missing from the scores
-/

namespace RagEval.Evaluation
open RagEval.Lib

/-- An entry of the catalog; its texts for readers are left out. -/
structure MetricDefinition where
  name : String
  category : String

/-- `METRIC_CATALOG`. -/
def metricCatalog : List MetricDefinition :=
  [⟨"accuracy", "classification"⟩, ⟨"precision", "classification"⟩,
   ⟨"recall", "classification"⟩, ⟨"f1", "classification"⟩,
   ⟨"context_precision", "retrieval"⟩, ⟨"context_utilization", "retrieval"⟩,
   ⟨"non_llm_context_precision", "retrieval"⟩, ⟨"id_based_context_precision", "retrieval"⟩,
   ⟨"context_recall", "retrieval"⟩, ⟨"non_llm_context_recall", "retrieval"⟩,
   ⟨"id_based_context_recall", "retrieval"⟩, ⟨"context_entity_recall", "retrieval"⟩,
   ⟨"answer_relevancy", "generation"⟩, ⟨"faithfulness", "generation"⟩,
   ⟨"noise_sensitivity", "robustness"⟩, ⟨"topic_adherence", "agent"⟩,
   ⟨"tool_call_accuracy", "agent"⟩, ⟨"tool_call_f1", "agent"⟩, ⟨"agent_goal_accuracy", "agent"⟩]

structure SingleTurnSample where
  userInput : String
  response : String
  reference : String
  retrievedContexts : List String
  referenceContexts : List String
  retrievedContextIds : List String
  referenceContextIds : List String

/-- What the adapter uses of the interpreter and of the installed packages, whose objects are of
type `ω`. An attribute that is missing or `None` is `none`, and so is a cell that is `None`. -/
structure Ragas (ω : Type) where
  repr : String → String
  truthy : ω → Bool
  typeRepr : ω → String
  isType : ω → Bool
  /-- The parameters of `__init__`; none if its signature cannot be read. -/
  initParameters : ω → List String
  float : ω → Except Raised (BitVec 64)
  importYaml : Except Raised Unit
  importRagas : Except Raised Unit
  ragasMetrics : String → Option ω
  metricCollections : String → Option ω
  construct : ω → Dict String ω → Except Raised ω
  isMetric : ω → Bool
  /-- `LangChainEmbeddingsAdapter`. -/
  adaptEmbeddings : ω → ω
  /-- `Dataset.from_list` of the one sample. -/
  dataset : SingleTurnSample → Except Raised ω
  /-- The first row of the result, `dataset`, `metrics`, `llm` and `embeddings` given. -/
  aevaluate : ω → List ω → Option ω → Option ω → Except Raised (Dict String (Option ω))

def valueError (message : String) : Raised := ⟨"ValueError", message, true⟩

/-- `ExternalServiceError`. -/
def externalServiceError (service detail : String) : Raised where
  typeName := "ExternalServiceError"
  message := if detail = "" then service ++ " is unavailable." else service ++ ": " ++ detail

structure SingleTurnRequest where
  userInput : String
  response : String
  retrievedContexts : List String
  referenceContexts : Option (List String) := none
  retrievedContextIds : Option (List String) := none
  referenceContextIds : Option (List String) := none
  reference : Option String := none

namespace RagasAdapter

/-- `SUPPORTED_METRICS`. -/
def supportedMetrics : List String :=
  (metricCatalog.filter fun m =>
    m.category ∈ ["retrieval", "generation", "robustness", "agent"]).map MetricDefinition.name

/-- `MULTI_TURN_ONLY_METRICS`. -/
def multiTurnOnlyMetrics : List String :=
  ["topic_adherence", "tool_call_accuracy", "tool_call_f1", "agent_goal_accuracy"]

def supportedConstructorArgs : List String := ["llm", "embeddings"]

/-- The `metrics` of `ragas_metric_requirements.yaml`. -/
def requirementsYaml : Dict String Value :=
  let requires (args : List String) : Value :=
    .dict [("constructor_args", .list (args.map .str))]
  Dict.ofList
    [("context_precision", requires ["llm"]), ("context_utilization", requires ["llm"]),
     ("context_recall", requires ["llm"]), ("context_entity_recall", requires ["llm"]),
     ("noise_sensitivity", requires ["llm"]), ("answer_relevancy", requires ["llm", "embeddings"]),
     ("faithfulness", requires ["llm"]), ("non_llm_context_precision", requires []),
     ("id_based_context_precision", requires []), ("non_llm_context_recall", requires []),
     ("id_based_context_recall", requires [])]

/-- The supported ones of the arguments that an entry lists; an ill-formed entry is left out. -/
def normalizeRequirement : Value → Option (List String)
  | .dict metricCfg =>
    match Assoc.get "constructor_args" metricCfg with
    | none => some []
    | some (.list requiredArgs) => some (requiredArgs.filterMap fun
      | .str arg => if arg ∈ supportedConstructorArgs then some arg else none
      | _ => none)
    | some _ => none
  | _ => none

section
variable {ω : Type} (ragas : Ragas ω)

/-- `_load_metric_requirements_config`. -/
def loadMetricRequirementsConfig : Except Raised (Dict String (List String)) :=
  match ragas.importYaml with
  | .ok _ => return requirementsYaml.filterMap normalizeRequirement
  | .error exc => if exc.isException then return Dict.empty else throw exc

/-- `_infer_constructor_args_from_signature`. -/
def inferConstructorArgsFromSignature (metricClass : ω) : List String :=
  supportedConstructorArgs.filter (· ∈ ragas.initParameters metricClass)

def reprList (names : List String) : String :=
  "[" ++ ", ".intercalate (names.map ragas.repr) ++ "]"

def reprTuple : List String → String
  | [name] => "(" ++ ragas.repr name ++ ",)"
  | names => "(" ++ ", ".intercalate (names.map ragas.repr) ++ ")"

/-- The checks of the requested names. -/
def checkMetricNames (metricNames : List String) : Except Raised Unit := do
  let unsupported := metricNames.filter (· ∉ supportedMetrics)
  if unsupported ≠ [] then
    throw (valueError ("Unsupported ragas metrics: " ++ reprList ragas unsupported))
  let multiTurnRequested := metricNames.filter (· ∈ multiTurnOnlyMetrics)
  if multiTurnRequested ≠ [] then
    throw (valueError ("Metrics " ++ reprList ragas multiTurnRequested ++
      " require multi-turn conversation data and cannot be evaluated via the single-turn " ++
      "endpoint."))

def importPackages : Except Raised Unit :=
  match ragas.importRagas with
  | .ok _ => return
  | .error exc =>
    if exc.isException then
      throw (externalServiceError "ragas" ("ragas is not available: " ++ exc.message))
    else throw exc

/-- `_resolve_metric_class`. -/
def resolveMetricClass (classNames : List String) : Except Raised ω :=
  match classNames.findSome? fun className =>
      (ragas.ragasMetrics className).or (ragas.metricCollections className) with
  | some metricClass => return metricClass
  | none => throw (externalServiceError "ragas"
      ("ragas metric class not available: " ++ reprTuple ragas classNames))

/-- The metrics and the classes they are built with. -/
def metricClassNames : List (String × List String) :=
  [("context_precision", ["ContextPrecision"]), ("context_utilization", ["ContextUtilization"]),
   ("non_llm_context_precision", ["NonLLMContextPrecisionWithReference"]),
   ("id_based_context_precision", ["IDBasedContextPrecision"]),
   ("context_recall", ["ContextRecall"]), ("non_llm_context_recall", ["NonLLMContextRecall"]),
   ("id_based_context_recall", ["IDBasedContextRecall"]),
   ("context_entity_recall", ["ContextEntityRecall"]), ("answer_relevancy", ["AnswerRelevancy"]),
   ("faithfulness", ["Faithfulness"]), ("noise_sensitivity", ["NoiseSensitivity"]),
   ("topic_adherence", ["TopicAdherence"]), ("tool_call_accuracy", ["ToolCallAccuracy"]),
   ("tool_call_f1", ["ToolCallF1"]), ("agent_goal_accuracy", ["AgentGoalAccuracy"])]

/-- `metric_builders`: every class is resolved, whatever is requested. -/
def metricBuilders : Except Raised (Dict String ω) :=
  metricClassNames.foldlM (fun builders entry => do
    return builders.set entry.1 (← resolveMetricClass ragas entry.2)) Dict.empty

/-- Pass on a constructor argument that the metric requires. -/
def passArgument (metricName arg : String) (requiredArgs : List String) (value : Option ω)
    (constructorKwargs : Dict String ω) : Except Raised (Dict String ω) :=
  if arg ∈ requiredArgs then
    match value with
    | none => throw (valueError
        ("Metric '" ++ metricName ++ "' requires constructor argument: " ++ arg))
    | some value => return constructorKwargs.set arg value
  else return constructorKwargs

/-- One round of the loop over the requested metrics. -/
def buildMetric (requirements : Dict String (List String)) (builders : Dict String ω)
    (llm embeddings : Option ω) (metricName : String) : Except Raised ω := do
  let metricBuilder ← match builders.get? metricName with
    | some metricBuilder => pure metricBuilder
    | none => throw ⟨"KeyError", ragas.repr metricName, true⟩
  let requiredArgs := (requirements.get? metricName).getD
    (inferConstructorArgsFromSignature ragas metricBuilder)
  let constructorKwargs ← passArgument metricName "llm" requiredArgs llm Dict.empty
  let constructorKwargs ← passArgument metricName "embeddings" requiredArgs
    (embeddings.map ragas.adaptEmbeddings) constructorKwargs
  let metric ← if ragas.isType metricBuilder then ragas.construct metricBuilder constructorKwargs
    else pure metricBuilder
  if ragas.isMetric metric then return metric
  else throw (externalServiceError "ragas"
    ("Metric '" ++ metricName ++ "' resolved to invalid object " ++ ragas.typeRepr metric ++
      ". aevaluate requires initialized ragas.metrics.base.Metric objects."))

/-- The sample that is evaluated. -/
def SingleTurnSample.ofRequest (request : SingleTurnRequest) : SingleTurnSample where
  userInput := request.userInput
  response := request.response
  reference := request.reference.getD ""
  retrievedContexts := request.retrievedContexts
  referenceContexts := request.referenceContexts.getD []
  retrievedContextIds := request.retrievedContextIds.getD []
  referenceContextIds := request.referenceContextIds.getD []

/-- `run_single_turn` up to the row of the result. -/
def evaluateMetrics (request : SingleTurnRequest) (metricNames : List String)
    (llm embeddings : Option ω) : Except Raised (Dict String (Option ω)) := do
  checkMetricNames ragas metricNames
  importPackages ragas
  let builders ← metricBuilders ragas
  let dataset ← ragas.dataset (SingleTurnSample.ofRequest request)
  let requirements ← loadMetricRequirementsConfig ragas
  let metrics ← metricNames.mapM (buildMetric ragas requirements builders llm embeddings)
  ragas.aevaluate dataset metrics llm (embeddings.map ragas.adaptEmbeddings)

/-- The score of a metric, unless its column is missing or `None`. -/
def score? (row : Dict String (Option ω)) (metricName : String) :
    Except Raised (Option (BitVec 64)) :=
  match row.get? metricName with
  | some (some cell) => return some (← ragas.float cell)
  | _ => return none

/-- `run_single_turn`. -/
def runSingleTurn (request : SingleTurnRequest) (metricNames : List String)
    (llm embeddings : Option ω) : Except Raised (Dict String (BitVec 64)) := do
  let row ← evaluateMetrics ragas request metricNames llm embeddings
  metricNames.foldlM (collect (score? ragas row)) Dict.empty

end

section
variable {ω : Type} {ragas : Ragas ω}

/-- A cell with a value has a score, or raises. -/
theorem score?_ne_none {row : Dict String (Option ω)} {name : String} {cell : ω}
    (hcell : row.get? name = some (some cell)) : score? ragas row name ≠ .ok none := by
  rw [score?, hcell]
  intro h
  obtain ⟨x, -, hx⟩ := bind_ok h
  cases hx

theorem score?_eq_some_iff (row : Dict String (Option ω)) (name : String) (score : BitVec 64) :
    score? ragas row name = .ok (some score) ↔
      ∃ cell, row.get? name = some (some cell) ∧ ragas.float cell = .ok score := by
  rw [score?]
  match row.get? name with
  | none => simp [pure, Except.pure]
  | some none => simp [pure, Except.pure]
  | some (some cell) =>
    cases hf : ragas.float cell with
    | error e => simp [hf, bind, Except.bind]
    | ok x => simp [hf, bind, Except.bind, pure, Except.pure]

variable {request : SingleTurnRequest} {metricNames : List String} {llm embeddings : Option ω}
  {scores : Dict String (BitVec 64)}

/-- The scores that a comprehension over the requested metrics takes from a row. -/
theorem get?_scores {row : Dict String (Option ω)}
    (h : metricNames.foldlM (collect (score? ragas row)) Dict.empty = .ok scores) (name : String)
    (score : BitVec 64) :
    scores.get? name = some score ↔ name ∈ metricNames ∧
      ∃ cell, row.get? name = some (some cell) ∧ ragas.float cell = .ok score := by
  rw [get?_foldlM_collect h, score?_eq_some_iff, Dict.get?_empty]
  simp

theorem mem_keys_scores {row : Dict String (Option ω)}
    (h : metricNames.foldlM (collect (score? ragas row)) Dict.empty = .ok scores) (name : String) :
    name ∈ scores.keys ↔ name ∈ metricNames ∧ ∃ cell, row.get? name = some (some cell) := by
  rw [Dict.mem_keys_iff]
  constructor
  · rintro ⟨score, hscore⟩
    obtain ⟨hname, cell, hcell, -⟩ := (get?_scores h name score).mp hscore
    exact ⟨hname, cell, hcell⟩
  · rintro ⟨hname, cell, hcell⟩
    obtain ⟨o, ho⟩ := exists_of_foldlM_collect h name hname
    cases o with
    | none => exact absurd ho (score?_ne_none hcell)
    | some score =>
      have hfloat := (score?_eq_some_iff row name score).mp ho
      exact ⟨score, (get?_scores h name score).mpr ⟨hname, hfloat⟩⟩

/-- Scores that are returned are taken from a row. -/
theorem exists_row (h : runSingleTurn ragas request metricNames llm embeddings = .ok scores) :
    ∃ row, evaluateMetrics ragas request metricNames llm embeddings = .ok row ∧
      metricNames.foldlM (collect (score? ragas row)) Dict.empty = .ok scores :=
  bind_ok h

/-- A comprehension that raises has come to a value that has no float. -/
theorem exists_not_float {row : Dict String (Option ω)} {exc : Raised}
    (h : metricNames.foldlM (collect (score? ragas row)) Dict.empty = .error exc) :
    ∃ name ∈ metricNames, ∃ cell, row.get? name = some (some cell) ∧
      ragas.float cell = .error exc := by
  obtain ⟨before, name, after, s, rfl, -, hround⟩ := exists_of_foldlM_error h
  refine ⟨name, List.mem_append_right before List.mem_cons_self, ?_⟩
  rw [collect, score?] at hround
  match hget : row.get? name with
  | none =>
    rw [hget] at hround
    cases hround
  | some none =>
    rw [hget] at hround
    cases hround
  | some (some cell) =>
    refine ⟨cell, rfl, ?_⟩
    rw [hget] at hround
    dsimp only at hround
    cases hfloat : ragas.float cell with
    | error exc' =>
      rw [hfloat] at hround
      exact congrArg Except.error (Except.error.inj hround)
    | ok score =>
      rw [hfloat] at hround
      cases hround

/-- The number of scores tells whether one is missing. -/
theorem length_scores_eq_iff (h : runSingleTurn ragas request metricNames llm embeddings =
    .ok scores) :
    scores.keys.length = metricNames.dedup.length ↔ ∀ name ∈ metricNames, name ∈ scores.keys := by
  obtain ⟨row, -, hscores⟩ := exists_row h
  have hsub : scores.keys ⊆ metricNames.dedup := by
    intro name hname
    rw [List.mem_dedup]
    exact ((mem_keys_scores hscores name).mp hname).1
  have hsubperm := scores.keys_nodup.subperm hsub
  constructor
  · intro hlength name hname
    have hperm := hsubperm.perm_of_length_le (Nat.le_of_eq hlength.symm)
    rw [hperm.mem_iff, List.mem_dedup]
    exact hname
  · intro hall
    have hback : metricNames.dedup ⊆ scores.keys := fun name hname =>
      hall name (List.mem_dedup.mp hname)
    exact Nat.le_antisymm hsubperm.length_le
      ((List.nodup_dedup metricNames).subperm hback).length_le

end

end RagasAdapter

/-- `EvaluationService`: the evaluators it falls back to. -/
structure EvaluationService (ω : Type) where
  evaluatorLlm : Option ω
  evaluatorEmbeddings : Option ω

section
variable {ω : Type}

/-- `given or fallback`. -/
def Ragas.orElse (ragas : Ragas ω) (given fallback : Option ω) : Option ω :=
  if given.any ragas.truthy then given else fallback

/-- The event that reports scores. -/
def ragasCompleted (metricNames : List String) (scores : Dict String (BitVec 64)) : BusEvent where
  eventName := "evaluation.ragas.completed"
  payload := Dict.ofList
    [("metrics", .strs metricNames), ("score_count", .int scores.keys.length)]

/-- `evaluate_ragas_single_turn`, with the events published so far. -/
def evaluateRagasSingleTurn (ragas : Ragas ω) (service : EvaluationService ω)
    (events : List BusEvent) (request : SingleTurnRequest) (metricNames : List String)
    (llm embeddings : Option ω) :
    Except Raised (Dict String (BitVec 64) × List BusEvent) := do
  let scores ← RagasAdapter.runSingleTurn ragas request metricNames
    (ragas.orElse llm service.evaluatorLlm)
    (ragas.orElse embeddings service.evaluatorEmbeddings)
  return (scores, events ++ [ragasCompleted metricNames scores])

/-- **When no score is missing**: `run_single_turn` raises, or returns scores for exactly the
requested metrics, if and only if a row of numbers that `aevaluate` returns has a value under each of
their names. The response of the service does not show that one is missing, the published count
does. -/
theorem runSingleTurn_complete_iff (ragas : Ragas ω) (request : SingleTurnRequest)
    (metricNames : List String) (llm embeddings : Option ω) :
    (((∃ exc, RagasAdapter.runSingleTurn ragas request metricNames llm embeddings = .error exc) ∨
        ∃ scores, RagasAdapter.runSingleTurn ragas request metricNames llm embeddings = .ok scores ∧
          ∀ name, name ∈ scores.keys ↔ name ∈ metricNames) ↔
      ∀ row, RagasAdapter.evaluateMetrics ragas request metricNames llm embeddings = .ok row →
        (∀ name ∈ metricNames, ∀ cell, row.get? name = some (some cell) →
          ∃ score, ragas.float cell = .ok score) →
        ∀ name ∈ metricNames, ∃ cell, row.get? name = some (some cell)) ∧
    ∀ service events events' scores,
      evaluateRagasSingleTurn ragas service events request metricNames llm embeddings =
          .ok (scores, events') →
        events' = events ++ [ragasCompleted metricNames scores] ∧
          (scores.keys.length = metricNames.dedup.length ↔
            ∀ name, name ∈ scores.keys ↔ name ∈ metricNames) := by
  refine ⟨⟨?_, ?_⟩, ?_⟩
  · rintro (⟨exc, hrun⟩ | ⟨scores, hrun, hkeys⟩) row hrow hfloat name hname
    · rw [RagasAdapter.runSingleTurn, hrow, ok_bind] at hrun
      obtain ⟨other, hother, cell, hcell, herror⟩ := RagasAdapter.exists_not_float hrun
      obtain ⟨score, hscore⟩ := hfloat other hother cell hcell
      rw [herror] at hscore
      cases hscore
    · obtain ⟨row', hrow', hscores⟩ := RagasAdapter.exists_row hrun
      obtain rfl := Except.ok.inj (hrow.symm.trans hrow')
      exact ((RagasAdapter.mem_keys_scores hscores name).mp ((hkeys name).mpr hname)).2
  · intro hcomplete
    cases hrun : RagasAdapter.runSingleTurn ragas request metricNames llm embeddings with
    | error exc => exact .inl ⟨exc, rfl⟩
    | ok scores =>
      obtain ⟨row, hrow, hscores⟩ := RagasAdapter.exists_row hrun
      have hfloat : ∀ name ∈ metricNames, ∀ cell, row.get? name = some (some cell) →
          ∃ score, ragas.float cell = .ok score := by
        intro name hname cell hcell
        obtain ⟨score, hscore⟩ := (Dict.mem_keys_iff _ _).mp
          ((RagasAdapter.mem_keys_scores hscores name).mpr ⟨hname, cell, hcell⟩)
        obtain ⟨-, cell', hcell', hfloat⟩ := (RagasAdapter.get?_scores hscores name score).mp hscore
        obtain rfl : cell = cell' := Option.some.inj (Option.some.inj (hcell.symm.trans hcell'))
        exact ⟨score, hfloat⟩
      refine .inr ⟨scores, rfl, fun name => ?_⟩
      rw [RagasAdapter.mem_keys_scores hscores]
      exact and_iff_left_of_imp fun hname => hcomplete row hrow hfloat name hname
  · intro service events events' scores hservice
    obtain ⟨returned, hreturned, hpair⟩ := bind_ok hservice
    obtain ⟨rfl, rfl⟩ := Prod.mk.inj (Except.ok.inj hpair)
    refine ⟨rfl, (RagasAdapter.length_scores_eq_iff hreturned).trans ?_⟩
    obtain ⟨row, -, hscores⟩ := RagasAdapter.exists_row hreturned
    have hrequested : ∀ name ∈ returned.keys, name ∈ metricNames := fun name hname =>
      ((RagasAdapter.mem_keys_scores hscores name).mp hname).1
    exact ⟨fun hall name => ⟨hrequested name, hall name⟩, fun hiff name => (hiff name).mpr⟩

end

namespace Demo

/-- The column that a metric object names. -/
def column : String → String
  | "IDBasedContextPrecision()" => "id_based_context_precision"
  | "NonLLMContextPrecisionWithReference()" => "non_llm_context_precision_with_reference"
  | metric => metric

/-- Packages with all classes; every metric scores 1.0. -/
def installed : Ragas String where
  repr name := "'" ++ name ++ "'"
  truthy _ := true
  typeRepr metric := "<class '" ++ metric ++ "'>"
  isType _ := true
  initParameters _ := []
  float _ := .ok 0x3FF0000000000000
  importYaml := .ok ()
  importRagas := .ok ()
  ragasMetrics className := some className
  metricCollections className := some className
  construct metricClass _ := .ok (metricClass ++ "()")
  isMetric _ := true
  adaptEmbeddings embeddings := embeddings
  dataset sample := .ok sample.userInput
  aevaluate dataset metrics _ _ := .ok (Dict.ofList
    (("user_input", some dataset) :: metrics.map fun metric => (column metric, some "1.0")))

def request : SingleTurnRequest where
  userInput := "Who wrote it?"
  response := "Alice."
  retrievedContexts := ["Alice wrote it."]
  referenceContexts := some ["Alice wrote it."]
  retrievedContextIds := some ["doc-1"]
  referenceContextIds := some ["doc-1"]

def requested : List String := ["id_based_context_precision", "non_llm_context_precision"]

def scores : Dict String (BitVec 64) :=
  Dict.empty.set "id_based_context_precision" 0x3FF0000000000000

theorem runSingleTurn_installed :
    RagasAdapter.runSingleTurn installed request requested none none = .ok scores := by rfl

end Demo

/-- The column of a metric object has another name than the metric in the catalog. -/
theorem runSingleTurn_drops_metric :
    RagasAdapter.checkMetricNames Demo.installed Demo.requested = .ok () ∧
    ∃ scores, RagasAdapter.runSingleTurn Demo.installed Demo.request Demo.requested none none =
        .ok scores ∧
      "non_llm_context_precision" ∈ Demo.requested ∧
      "non_llm_context_precision" ∉ scores.keys :=
  ⟨by rfl, Demo.scores, Demo.runSingleTurn_installed, by decide, by decide⟩

end RagEval.Evaluation
