import RagEval.Workflows.AcceptedWorkflows
import RagEval.Workflows.Guardrails
import RagEval.Workflows.SplitterReturns

/-!
# What the nodes raise

The protocol declares `NodeExecutionError` only. Run with an override the validator accepts, on an
input with the types it expects, a node keeps to that exactly under a condition on the two.
-/

namespace RagEval.Workflows
open RagEval.Lib RagEval.Lib.Outcome WorkflowValidator

/-- The condition under which a node with an accepted configuration returns or raises the declared
exception. -/
def WorkflowNode.Survives (rt : Runtime) (node : WorkflowNode)
    (inputData config : Dict String Value) : Prop :=
  let text := textOf (inputData.getD "text" (.str ""))
  match node with
  | recursiveTextSplitter => text = "" ∨
    RecursiveTextSplitterNode.Splittable text (config.getD "chunk_size" (.int 1000))
      (config.getD "chunk_overlap" (.int 200))
      (config.getD "separators" RecursiveTextSplitterNode.defaultSeparators)
  | markdownHeaderSplitter => text = "" ∨
    HeadersUsable (config.getD "headers_to_split_on" (.list [.str "#", .str "##", .str "###"]))
  | openaiEmbedding => (textsToEmbed inputData).truthy = false ∨
    (config.getD "dimensions" (.int 1536)).index?.isSome = true
  | ollamaEmbedding => True
  | vectorRetrieval => LacksEmbedding inputData ∨ LimitUsable (config.getD "top_k" (.int 5)) 5
  | hybridRetrieval => LimitUsable (config.getD "top_k" (.int 5)) 5
  | crossEncoderReranker => ∀ docs, docs ≠ [] →
    getOr inputData "results" "documents" (.list []) = .list docs →
      LimitUsable (config.getD "top_k" (.int 5)) docs.length ∧ ScoresUsable docs
  | llmGeneration => True
  | ragasEval =>
    (config.getD "metrics" (.list [.str "faithfulness", .str "answer_relevancy"])).truthy = true ∨
      (inputData.getD "ground_truth" .none).truthy = false
  | inputGuardrail =>
    let maxLength := config.getD "max_length" (.int 10000)
    let patterns := config.getD "blocked_patterns" (.list [])
    let fields := config.getD "required_fields" (.list [])
    maxLength.isNumber = true ∧ PatternsUsable rt patterns ∧ FieldsUsable fields ∧
      (maxLength.index?.isSome = true ∨
        (config.getD "block_on_violation" (.bool true)).truthy = true ∧
          InputGuardrailNode.Violated rt inputData text maxLength patterns fields)
  | outputGuardrail => (config.getD "max_length" (.int 50000)).isNumber = true ∧
    PatternsUsable rt (config.getD "blocked_patterns" (.list []))

theorem getD_eq_textOf {v : Value} (h : IsText v) : v = .str (textOf v) := by
  obtain ⟨s, rfl⟩ := h
  rfl

theorem WorkflowNode.within_run_iff {rt : Runtime} {node : WorkflowNode}
    {inputData config : Dict String Value}
    (haccepted : node.validateConfig rt.toInterpreter config = .ok [])
    (hinput : node.InputTyped inputData) :
    Within NodeError.Declared (node.run rt inputData config) ↔
      node.Survives rt inputData config := by
  have htopK : ∀ {node : WorkflowNode}, "top_k" ∈ node.comparedKeys →
      node.validateConfig rt.toInterpreter config = .ok [] →
      (config.getD "top_k" (.int 5)).isNumber = true := fun hkey h =>
    (getD_isNumber_iff rfl).mpr ((wellTyped_of_validateConfig h).1 "top_k" hkey)
  cases node with
  | recursiveTextSplitter =>
    rw [InputTyped, inputFields, List.forall_mem_singleton] at hinput
    rw [run, within_liftM_iff, Survives]
    exact RecursiveTextSplitterNode.succeeds_run_iff haccepted
      (getD_eq_textOf (getD_of_typed hinput isText_empty))
  | markdownHeaderSplitter =>
    rw [InputTyped, inputFields, List.forall_mem_singleton] at hinput
    rw [run, within_liftM_iff, Survives]
    exact MarkdownHeaderSplitterNode.succeeds_run_iff
      (getD_eq_textOf (getD_of_typed hinput isText_empty))
  | openaiEmbedding =>
    simp only [InputTyped, inputFields, List.forall_mem_cons] at hinput
    rw [run, within_liftM_iff, Survives]
    exact OpenAIEmbeddingNode.succeeds_run_iff config hinput.1 hinput.2.1
  | ollamaEmbedding =>
    simp only [InputTyped, inputFields, List.forall_mem_cons] at hinput
    rw [run, within_liftM_iff, Survives]
    exact iff_of_true (OllamaEmbeddingNode.succeeds_run config hinput.1 hinput.2.1) trivial
  | vectorRetrieval => exact VectorRetrievalNode.within_run_iff inputData config
  | hybridRetrieval =>
    rw [InputTyped, inputFields, List.forall_mem_singleton] at hinput
    rw [run, within_liftM_iff, Survives]
    exact HybridRetrievalNode.succeeds_run_iff config hinput
  | crossEncoderReranker =>
    simp only [InputTyped, inputFields, List.forall_mem_cons] at hinput
    rw [run, within_liftM_iff, Survives]
    exact CrossEncoderRerankerNode.succeeds_run_iff (htopK (List.mem_singleton_self _) haccepted)
      hinput.1 hinput.2.1
  | llmGeneration =>
    simp only [InputTyped, inputFields, List.forall_mem_cons] at hinput
    rw [run, within_liftM_iff, Survives]
    obtain ⟨hquery, hquestion, hresults, hcontext, -⟩ := hinput
    exact iff_of_true (LLMGenerationNode.succeeds_run rt config hquery hquestion hresults hcontext)
      trivial
  | ragasEval =>
    simp only [InputTyped, inputFields, List.forall_mem_cons] at hinput
    exact RagasEvalNode.within_run_iff rt haccepted hinput.1 hinput.2.1
  | inputGuardrail =>
    rw [InputTyped, inputFields, List.forall_mem_singleton] at hinput
    exact InputGuardrailNode.within_run_iff rt config
      (getD_eq_textOf (getD_of_typed hinput isText_empty))
  | outputGuardrail =>
    simp only [InputTyped, inputFields, List.forall_mem_cons] at hinput
    exact OutputGuardrailNode.within_run_iff rt config hinput.1 hinput.2.1

/-- An accepted workflow has no override that its node's checks object to; those of an empty one
do not. -/
theorem validateConfig_of_accepted {py : Interpreter} {workflow : WorkflowDefinition}
    {step : WorkflowStep} {node : WorkflowNode} (hvalid : validate py workflow = .ok [])
    (hstep : step ∈ workflow.steps) (hnode : nodeRegistry.get step.implementation = some node) :
    node.validateConfig py step.configOverride = .ok [] := by
  by_cases hempty : step.configOverride.items = []
  · have hoverride : step.configOverride = Dict.empty := by
      generalize step.configOverride = override at hempty
      cases override with
      | mk items hnodup =>
        obtain rfl : items = [] := hempty
        rfl
    rw [hoverride]
    cases node <;> rfl
  · exact (valid_of_accepted hvalid).accepted step hstep hempty node hnode

/-- A registered node, run with an override of an accepted workflow on a well-typed input, returns
or raises `NodeExecutionError` exactly under its condition. -/
theorem run_within_declared_iff (rt : Runtime) (workflow : WorkflowDefinition)
    (step : WorkflowStep) (node : WorkflowNode) (inputData : Dict String Value)
    (hvalid : validate rt.toInterpreter workflow = .ok []) (hstep : step ∈ workflow.steps)
    (hnode : nodeRegistry.get step.implementation = some node)
    (hinput : node.InputTyped inputData) :
    Within NodeError.Declared (node.run rt inputData step.configOverride) ↔
      node.Survives rt inputData step.configOverride :=
  WorkflowNode.within_run_iff (validateConfig_of_accepted hvalid hstep hnode) hinput

/-- A runtime that matches patterns literally, as patterns without special characters match. -/
def literalRuntime : Runtime where
  toInterpreter := sortedInterpreter
  str
    | .str s => s
    | _ => "..."
  compiles _ := true
  search pattern text := Text.containsText (Text.lower text) (Text.lower pattern)
  sub _ _ text := text
  draw _ _ := 0x3FE999999999999A#64
  mean scores := scores.headD 0#64

theorem run_within_declared_iff_split :
    Within NodeError.Declared (WorkflowNode.recursiveTextSplitter.run literalRuntime
      (RecursiveTextSplitterNode.textInput "two words")
      (Dict.ofList [("chunk_size", .int 500)])) := by
  have hiff := run_within_declared_iff literalRuntime splitThenEmbed
    ⟨"split", .chunking, "recursive_text_splitter", none, Dict.ofList [("chunk_size", .int 500)],
      none, none, none, none⟩ .recursiveTextSplitter
    (RecursiveTextSplitterNode.textInput "two words") (by rfl) List.mem_cons_self (by rfl) (by
      rw [WorkflowNode.InputTyped, WorkflowNode.inputFields, List.forall_mem_singleton]
      rintro v ⟨⟩
      exact ⟨"two words", rfl⟩)
  exact hiff.mpr (.inr ⟨"\n\n", _, .first _ (by decide), .inl rfl⟩)

/-- Split at every character. -/
def characterStep : WorkflowStep where
  id := "split"
  type := .chunking
  implementation := "recursive_text_splitter"
  configOverride := Dict.ofList [("separators", .list [.str ""])]

def splitCharacters : WorkflowDefinition where
  id := "characters"
  version_pos := Nat.one_pos
  steps := [characterStep]

theorem run_characterStep :
    validate literalRuntime.toInterpreter splitCharacters = .ok [] ∧
      characterStep ∈ splitCharacters.steps ∧
      nodeRegistry.get characterStep.implementation = some .recursiveTextSplitter ∧
      WorkflowNode.recursiveTextSplitter.InputTyped
        (RecursiveTextSplitterNode.textInput "two words") ∧
      ¬Within NodeError.Declared (WorkflowNode.recursiveTextSplitter.run literalRuntime
        (RecursiveTextSplitterNode.textInput "two words") characterStep.configOverride) := by
  refine ⟨by rfl, List.mem_cons_self, by rfl, ?_, fun h => ?_⟩
  · rw [WorkflowNode.InputTyped, WorkflowNode.inputFields, List.forall_mem_singleton]
    rintro v ⟨⟩
    exact ⟨"two words", rfl⟩
  · exact h (.python (.valueError "empty separator")) (by rfl)

end RagEval.Workflows
