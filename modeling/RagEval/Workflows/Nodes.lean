import Mathlib.Data.Finset.Basic
import RagEval.Lib.Dict
import RagEval.Lib.Loop
import RagEval.Lib.Objects
import RagEval.Lib.Outcome

/-!
# Workflow nodes and their registry

`app/domain/workflows/nodes/` and `registry.py`: the registered nodes, their
default configurations and their `validate_config`, which is given whatever objects an
override holds.
-/

namespace RagEval.Workflows
open RagEval.Lib Outcome

/-- What the model takes from the interpreter: the display of a list, which fails for integers of
too many digits, for lists nested too deeply and where the objects' own displays do, and the
iteration order of a set of strings. -/
structure Interpreter (α : Type := Value) where
  reprList : List α → Except PyError String
  iterSet : Finset String → List String
  mem_iterSet : ∀ s x, x ∈ iterSet s ↔ x ∈ s

/-- A sequence of `if cond: errors.append(msg)`, in order. -/
def runChecks : List (Except PyError Bool × String) → Except PyError (List String)
  | [] => .ok []
  | (cond, msg) :: rest => do
    let failed ← cond
    let errors ← runChecks rest
    pure (if failed then msg :: errors else errors)

/-- The display of a list of texts without quotes and escapes. -/
def reprTexts (ss : List String) : String :=
  "[" ++ ", ".intercalate (ss.map fun s => "'" ++ s ++ "'") ++ "]"

variable {α : Type} [PyObject α]

/-- `lo <= value <= hi`. -/
def inside (lo hi : Int) (value : α) : Except PyError Bool :=
  PyObject.between (PyObject.ofValue (.int lo)) value (PyObject.ofValue (.int hi))

/-- `not (lo <= value <= hi)`. -/
def outside (lo hi : Int) (value : α) : Except PyError Bool := do
  let inside ← inside lo hi value
  pure (!inside)

namespace RecursiveTextSplitterNode

def defaultConfig : Dict String Value := Dict.ofList
  [("chunk_size", .int 1000), ("chunk_overlap", .int 200),
   ("separators", .list [.str "\n\n", .str "\n", .str ". ", .str " ", .str ""])]

def validateConfig (config : Dict String α) : Except PyError (List String) :=
  let int (i : Int) : α := PyObject.ofValue (.int i)
  let chunkSize := config.getD "chunk_size" (int 1000)
  let chunkOverlap := config.getD "chunk_overlap" (int 200)
  runChecks
    [(PyObject.lt chunkSize (int 100), "chunk_size must be at least 100"),
     (PyObject.gt chunkSize (int 10000), "chunk_size must be at most 10000"),
     (PyObject.ge chunkOverlap chunkSize, "chunk_overlap must be less than chunk_size"),
     (PyObject.lt chunkOverlap (int 0), "chunk_overlap must be non-negative")]

end RecursiveTextSplitterNode

namespace MarkdownHeaderSplitterNode

def defaultConfig : Dict String Value := Dict.ofList
  [("headers_to_split_on", .list [.str "#", .str "##", .str "###"]),
   ("return_each_line", .bool false)]

end MarkdownHeaderSplitterNode

namespace OpenAIEmbeddingNode

def defaultConfig : Dict String Value := Dict.ofList
  [("model", .str "text-embedding-3-small"), ("dimensions", .int 1536), ("batch_size", .int 100)]

def validModels : List String :=
  ["text-embedding-3-small", "text-embedding-3-large", "text-embedding-ada-002"]

/-- `model not in valid_models`. -/
def unknownModel (model : α) : Except PyError Bool := do
  let known ← PyObject.inStrings model validModels
  pure (!known)

def validateConfig (config : Dict String α) : Except PyError (List String) :=
  let model := config.getD "model" (PyObject.ofValue (defaultConfig.getD "model" .none))
  let dimensions := config.getD "dimensions" (PyObject.ofValue (.int 1536))
  runChecks
    [(unknownModel model, "model must be one of " ++ reprTexts validModels),
     (outside 256 3072 dimensions, "dimensions must be between 256 and 3072")]

end OpenAIEmbeddingNode

namespace OllamaEmbeddingNode

def defaultConfig : Dict String Value := Dict.ofList
  [("model", .str "nomic-embed-text"), ("base_url", .str "http://localhost:11434")]

end OllamaEmbeddingNode

/-- The `top_k` check shared by the retrieval and the reranking node. -/
def checkTopK (defaultConfig : Dict String Value) (config : Dict String α) :
    Except PyError (List String) :=
  let topK := config.getD "top_k" (PyObject.ofValue (defaultConfig.getD "top_k" .none))
  runChecks [(outside 1 100 topK, "top_k must be between 1 and 100")]

namespace VectorRetrievalNode

def defaultConfig : Dict String Value := Dict.ofList
  [("top_k", .int 5), ("collection_name", .str "default"), ("filter", .none)]

def validateConfig (config : Dict String α) : Except PyError (List String) :=
  checkTopK defaultConfig config

end VectorRetrievalNode

namespace HybridRetrievalNode

/-- The weights are the doubles `0.7` and `0.3`. -/
def defaultConfig : Dict String Value := Dict.ofList
  [("vector_weight", .float 0x3FE6666666666666#64),
   ("keyword_weight", .float 0x3FD3333333333333#64), ("top_k", .int 5)]

end HybridRetrievalNode

namespace CrossEncoderRerankerNode

def defaultConfig : Dict String Value := Dict.ofList
  [("model", .str "cross-encoder/ms-marco-MiniLM-L-6-v2"), ("top_k", .int 5),
   ("batch_size", .int 32)]

def validateConfig (config : Dict String α) : Except PyError (List String) :=
  checkTopK defaultConfig config

end CrossEncoderRerankerNode

namespace LLMGenerationNode

/-- The temperature is the double `0.7`. -/
def defaultConfig : Dict String Value := Dict.ofList
  [("model", .str "gpt-4o-mini"), ("temperature", .float 0x3FE6666666666666#64),
   ("max_tokens", .int 1000), ("system_prompt", .str "You are a helpful assistant.")]

def validateConfig (config : Dict String α) : Except PyError (List String) :=
  let temp := config.getD "temperature" (PyObject.ofValue (defaultConfig.getD "temperature" .none))
  let maxTokens :=
    config.getD "max_tokens" (PyObject.ofValue (defaultConfig.getD "max_tokens" .none))
  runChecks
    [(outside 0 2 temp, "temperature must be between 0 and 2"),
     (outside 1 32000 maxTokens, "max_tokens must be between 1 and 32000")]

end LLMGenerationNode

namespace RagasEvalNode

def defaultConfig : Dict String Value := Dict.ofList
  [("metrics", .list [.str "faithfulness", .str "answer_relevancy"]),
   ("llm_model", .str "gpt-4o-mini"), ("embedding_model", .str "text-embedding-3-small")]

def validMetrics : List String :=
  ["faithfulness", "answer_relevancy", "context_precision", "context_recall",
   "context_relevance", "hallucination"]

def validateConfig (py : Interpreter α) (config : Dict String α) :
    Except PyError (List String) := do
  let metrics ← PyObject.iter
    (config.getD "metrics" (PyObject.ofValue (defaultConfig.getD "metrics" .none)))
  let invalid ← PyObject.notIn validMetrics metrics
  if invalid.isEmpty then pure [] else do
    let shown ← py.reprList invalid
    pure ["Invalid metrics: " ++ shown ++ ". Valid: " ++ reprTexts validMetrics]

end RagasEvalNode

namespace InputGuardrailNode

def defaultConfig : Dict String Value := Dict.ofList
  [("max_length", .int 10000), ("blocked_patterns", .list []), ("required_fields", .list []),
   ("pii_detection", .bool false)]

end InputGuardrailNode

namespace OutputGuardrailNode

def defaultConfig : Dict String Value := Dict.ofList
  [("max_length", .int 50000), ("blocked_patterns", .list []), ("sensitive_topics", .list []),
   ("pii_redaction", .bool false)]

end OutputGuardrailNode

inductive WorkflowNode where
  | recursiveTextSplitter | markdownHeaderSplitter | openaiEmbedding | ollamaEmbedding
  | vectorRetrieval | hybridRetrieval | crossEncoderReranker | llmGeneration | ragasEval
  | inputGuardrail | outputGuardrail
  deriving Repr, DecidableEq

namespace WorkflowNode

def defaultConfig : WorkflowNode → Dict String Value
  | recursiveTextSplitter => RecursiveTextSplitterNode.defaultConfig
  | markdownHeaderSplitter => MarkdownHeaderSplitterNode.defaultConfig
  | openaiEmbedding => OpenAIEmbeddingNode.defaultConfig
  | ollamaEmbedding => OllamaEmbeddingNode.defaultConfig
  | vectorRetrieval => VectorRetrievalNode.defaultConfig
  | hybridRetrieval => HybridRetrievalNode.defaultConfig
  | crossEncoderReranker => CrossEncoderRerankerNode.defaultConfig
  | llmGeneration => LLMGenerationNode.defaultConfig
  | ragasEval => RagasEvalNode.defaultConfig
  | inputGuardrail => InputGuardrailNode.defaultConfig
  | outputGuardrail => OutputGuardrailNode.defaultConfig

/-- `validate_config`; a class that does not override it inherits the protocol's,
which finds no errors. -/
def validateConfig (py : Interpreter α) (node : WorkflowNode) (config : Dict String α) :
    Except PyError (List String) :=
  match node with
  | recursiveTextSplitter => RecursiveTextSplitterNode.validateConfig config
  | openaiEmbedding => OpenAIEmbeddingNode.validateConfig config
  | vectorRetrieval => VectorRetrievalNode.validateConfig config
  | crossEncoderReranker => CrossEncoderRerankerNode.validateConfig config
  | llmGeneration => LLMGenerationNode.validateConfig config
  | ragasEval => RagasEvalNode.validateConfig py config
  | _ => .ok []

end WorkflowNode

structure NodeRegistry where
  nodes : Dict String WorkflowNode

namespace NodeRegistry

/-- `register`. -/
def register (self : NodeRegistry) (name : String) (node : WorkflowNode) : NodeRegistry :=
  ⟨self.nodes.set name node⟩

/-- `get`. -/
def get (self : NodeRegistry) (name : String) : Option WorkflowNode := self.nodes.get? name

/-- `has`. -/
def has (self : NodeRegistry) (name : String) : Bool := decide (name ∈ self.nodes.keys)

/-- `list_nodes`. -/
def listNodes (self : NodeRegistry) : List String := self.nodes.keys

theorem has_iff (self : NodeRegistry) (name : String) :
    self.has name = true ↔ ∃ node, self.get name = some node := by
  rw [has, decide_eq_true_eq]
  exact Dict.mem_keys_iff self.nodes name

end NodeRegistry

/-- The global `NODE_REGISTRY` with its default nodes. -/
def nodeRegistry : NodeRegistry :=
  NodeRegistry.mk Dict.empty
    |>.register "recursive_text_splitter" .recursiveTextSplitter
    |>.register "markdown_header_splitter" .markdownHeaderSplitter
    |>.register "openai_embedding" .openaiEmbedding
    |>.register "ollama_embedding" .ollamaEmbedding
    |>.register "vector_retrieval" .vectorRetrieval
    |>.register "hybrid_retrieval" .hybridRetrieval
    |>.register "cross_encoder_reranker" .crossEncoderReranker
    |>.register "llm_generation" .llmGeneration
    |>.register "ragas_eval" .ragasEval
    |>.register "input_guardrail" .inputGuardrail
    |>.register "output_guardrail" .outputGuardrail

/-- The configuration keys whose values the node's checks compare with numbers. -/
def WorkflowNode.comparedKeys : WorkflowNode → List String
  | .recursiveTextSplitter => ["chunk_size", "chunk_overlap"]
  | .openaiEmbedding => ["dimensions"]
  | .vectorRetrieval => ["top_k"]
  | .crossEncoderReranker => ["top_k"]
  | .llmGeneration => ["temperature", "max_tokens"]
  | _ => []

/-- The configuration keys whose values the node's checks iterate over. -/
def WorkflowNode.iteratedKeys : WorkflowNode → List String
  | .ragasEval => ["metrics"]
  | _ => []

/-- The values under the compared keys are numbers, those under the iterated keys
are iterable. -/
def WorkflowNode.WellTyped (node : WorkflowNode) (config : Dict String Value) : Prop :=
  (∀ k ∈ node.comparedKeys, ∀ v, config.get? k = some v → v.isNumber = true) ∧
    ∀ k ∈ node.iteratedKeys, ∀ v, config.get? k = some v → ∃ xs, v.iter = .ok xs

/-- The invalid metrics, if there are any, can be displayed. -/
def WorkflowNode.Displayable (py : Interpreter) (config : Dict String Value) : WorkflowNode → Prop
  | .ragasEval => ∀ metrics,
    (config.getD "metrics" (RagasEvalNode.defaultConfig.getD "metrics" .none)).iter = .ok metrics →
      let invalid := metrics.filter fun m => !m.inStrings RagasEvalNode.validMetrics
      invalid ≠ [] → Succeeds (py.reprList invalid)
  | _ => True

/-- What the node's checks ask of the objects in a configuration returns: the comparisons, the
memberships, the iteration, and the display of the invalid metrics, if there are any. -/
def WorkflowNode.Checkable (py : Interpreter α) (config : Dict String α) (node : WorkflowNode) :
    Prop :=
  let int (i : Int) : α := PyObject.ofValue (.int i)
  let setting (key : String) : α :=
    config.getD key (PyObject.ofValue (node.defaultConfig.getD key .none))
  match node with
  | .recursiveTextSplitter =>
    Succeeds (PyObject.lt (setting "chunk_size") (int 100)) ∧
      Succeeds (PyObject.gt (setting "chunk_size") (int 10000)) ∧
      Succeeds (PyObject.ge (setting "chunk_overlap") (setting "chunk_size")) ∧
      Succeeds (PyObject.lt (setting "chunk_overlap") (int 0))
  | .openaiEmbedding =>
    Succeeds (PyObject.inStrings (setting "model") OpenAIEmbeddingNode.validModels) ∧
      Succeeds (inside 256 3072 (setting "dimensions"))
  | .vectorRetrieval => Succeeds (inside 1 100 (setting "top_k"))
  | .crossEncoderReranker => Succeeds (inside 1 100 (setting "top_k"))
  | .llmGeneration =>
    Succeeds (inside 0 2 (setting "temperature")) ∧
      Succeeds (inside 1 32000 (setting "max_tokens"))
  | .ragasEval => ∃ metrics, PyObject.iter (setting "metrics") = .ok metrics ∧
    ∃ invalid, PyObject.notIn RagasEvalNode.validMetrics metrics = .ok invalid ∧
      (invalid ≠ [] → Succeeds (py.reprList invalid))
  | _ => True

/-! ## When the checks return -/

theorem succeeds_runChecks_iff (checks : List (Except PyError Bool × String)) :
    Succeeds (runChecks checks) ↔ ∀ c ∈ checks, Succeeds c.1 := by
  induction checks with
  | nil => exact iff_of_true (succeeds_ok _) (List.forall_mem_nil _)
  | cons c rest ih =>
    obtain ⟨cond, msg⟩ := c
    rw [runChecks, succeeds_bind, List.forall_mem_cons, ← ih]
    simp only [succeeds_bind, succeeds_pure, and_true]
    constructor
    · rintro ⟨failed, hcond, errors, herrors⟩
      exact ⟨⟨failed, hcond⟩, errors, herrors⟩
    · rintro ⟨⟨failed, hcond⟩, errors, herrors⟩
      exact ⟨failed, hcond, errors, herrors⟩

theorem succeeds_outside_iff (lo hi : Int) (value : α) :
    Succeeds (outside lo hi value) ↔ Succeeds (inside lo hi value) := by
  rw [outside, succeeds_bind]
  simp only [succeeds_pure, and_true]
  rfl

theorem OpenAIEmbeddingNode.succeeds_unknownModel_iff (model : α) :
    Succeeds (unknownModel model) ↔ Succeeds (PyObject.inStrings model validModels) := by
  rw [unknownModel, succeeds_bind]
  simp only [succeeds_pure, and_true]
  rfl

theorem succeeds_checkTopK_iff (defaultConfig : Dict String Value) (config : Dict String α) :
    Succeeds (checkTopK defaultConfig config) ↔ Succeeds (inside 1 100
      (config.getD "top_k" (PyObject.ofValue (defaultConfig.getD "top_k" .none)))) := by
  rw [checkTopK, succeeds_runChecks_iff, List.forall_mem_singleton, succeeds_outside_iff]

theorem RagasEvalNode.succeeds_validateConfig_iff (py : Interpreter α) (config : Dict String α) :
    Succeeds (validateConfig py config) ↔ ∃ metrics, PyObject.iter
        (config.getD "metrics" (PyObject.ofValue (defaultConfig.getD "metrics" .none))) = .ok metrics ∧
      ∃ invalid, PyObject.notIn validMetrics metrics = .ok invalid ∧
        (invalid ≠ [] → Succeeds (py.reprList invalid)) := by
  rw [validateConfig, succeeds_bind]
  refine exists_congr fun metrics => and_congr_right fun _ => ?_
  rw [succeeds_bind]
  refine exists_congr fun invalid => and_congr_right fun _ => ?_
  cases invalid with
  | nil => exact iff_of_true (succeeds_pure _) fun h => absurd rfl h
  | cons m rest =>
    show Succeeds (py.reprList (m :: rest) >>= _) ↔ _
    rw [succeeds_bind]
    simp only [succeeds_pure, and_true]
    exact ⟨fun h _ => h, fun h => h (List.cons_ne_nil _ _)⟩

/-- A node's checks return exactly if the operations they make do. -/
theorem WorkflowNode.succeeds_validateConfig_iff (py : Interpreter α) (node : WorkflowNode)
    (config : Dict String α) :
    Succeeds (node.validateConfig py config) ↔ node.Checkable py config := by
  cases node with
  | recursiveTextSplitter =>
    rw [validateConfig, RecursiveTextSplitterNode.validateConfig, succeeds_runChecks_iff]
    simp only [List.forall_mem_cons]
    exact ⟨fun ⟨h₁, h₂, h₃, h₄, _⟩ => ⟨h₁, h₂, h₃, h₄⟩,
      fun ⟨h₁, h₂, h₃, h₄⟩ => ⟨h₁, h₂, h₃, h₄, List.forall_mem_nil _⟩⟩
  | openaiEmbedding =>
    rw [validateConfig, OpenAIEmbeddingNode.validateConfig, succeeds_runChecks_iff]
    simp only [List.forall_mem_cons, OpenAIEmbeddingNode.succeeds_unknownModel_iff,
      succeeds_outside_iff]
    exact ⟨fun ⟨h₁, h₂, _⟩ => ⟨h₁, h₂⟩, fun ⟨h₁, h₂⟩ => ⟨h₁, h₂, List.forall_mem_nil _⟩⟩
  | vectorRetrieval => exact succeeds_checkTopK_iff _ config
  | crossEncoderReranker => exact succeeds_checkTopK_iff _ config
  | llmGeneration =>
    rw [validateConfig, LLMGenerationNode.validateConfig, succeeds_runChecks_iff]
    simp only [List.forall_mem_cons, succeeds_outside_iff]
    exact ⟨fun ⟨h₁, h₂, _⟩ => ⟨h₁, h₂⟩, fun ⟨h₁, h₂⟩ => ⟨h₁, h₂, List.forall_mem_nil _⟩⟩
  | ragasEval => exact RagasEvalNode.succeeds_validateConfig_iff py config
  | _ => exact iff_of_true (succeeds_ok _) trivial

/-! ## When they return on JSON values -/

theorem succeeds_compareNum_iff (op : String) (f : Lib.Num → Lib.Num → Bool) (a b : Value) :
    Succeeds (Value.compareNum op f a b) ↔ a.isNumber = true ∧ b.isNumber = true :=
  ⟨fun ⟨_, h⟩ => Value.isNumber_of_compareNum h, fun ⟨ha, hb⟩ => Value.compareNum_ok op f ha hb⟩

theorem succeeds_inside_iff (lo hi : Int) (v : Value) :
    Succeeds (inside lo hi v) ↔ v.isNumber = true := by
  rw [inside, PyObject.between, succeeds_bind]
  constructor
  · rintro ⟨b, hle, -⟩
    -- the first of the two comparisons is always made
    exact (Value.isNumber_of_compareNum hle).2
  · intro hv
    obtain ⟨b, hle⟩ := Value.compareNum_ok "<=" Lib.Num.le (a := .int lo) rfl hv
    refine ⟨b, hle, ?_⟩
    cases b with
    | false => exact succeeds_pure _
    | true => exact Value.compareNum_ok "<=" Lib.Num.le hv rfl

theorem getD_isNumber_iff {config : Dict String Value} {k : String} {dflt : Value}
    (hd : dflt.isNumber = true) :
    (config.getD k dflt).isNumber = true ↔ ∀ v, config.get? k = some v → v.isNumber = true := by
  rw [Dict.getD]
  cases hk : config.get? k with
  | none => exact iff_of_true hd fun v hv => by cases hv
  | some v => exact ⟨fun h w hw => Option.some.inj hw ▸ h, fun h => h v rfl⟩

theorem WorkflowNode.wellTyped_iff (node : WorkflowNode) (config : Dict String Value) :
    node.WellTyped config ↔
      (∀ k ∈ node.comparedKeys, (config.getD k (node.defaultConfig.getD k .none)).isNumber = true) ∧
        ∀ k ∈ node.iteratedKeys, Succeeds (config.getD k (node.defaultConfig.getD k .none)).iter := by
  have hcompared : ∀ k ∈ node.comparedKeys, (node.defaultConfig.getD k .none).isNumber = true := by
    cases node <;> simp only [comparedKeys, List.forall_mem_cons] <;> decide
  have hiterated : ∀ k ∈ node.iteratedKeys, Succeeds (node.defaultConfig.getD k .none).iter := by
    cases node with
    | ragasEval => exact List.forall_mem_singleton.mpr ⟨_, rfl⟩
    | _ => exact List.forall_mem_nil _
  rw [WellTyped]
  refine and_congr (forall₂_congr fun k hk => ?_) (forall₂_congr fun k hk => ?_)
  · exact (getD_isNumber_iff (hcompared k hk)).symm
  · rw [Dict.getD]
    cases hget : config.get? k with
    | none => exact iff_of_true (fun v hv => by cases hv) (hiterated k hk)
    | some v => exact ⟨fun h => h v rfl, fun h w hw => Option.some.inj hw ▸ h⟩

/-- The splitter's checks of JSON values. -/
theorem RecursiveTextSplitterNode.validateConfig_values (config : Dict String Value) :
    let chunkSize := config.getD "chunk_size" (.int 1000)
    let chunkOverlap := config.getD "chunk_overlap" (.int 200)
    validateConfig config = runChecks
      [(Value.lt chunkSize (.int 100), "chunk_size must be at least 100"),
       (Value.gt chunkSize (.int 10000), "chunk_size must be at most 10000"),
       (Value.ge chunkOverlap chunkSize, "chunk_overlap must be less than chunk_size"),
       (Value.lt chunkOverlap (.int 0), "chunk_overlap must be non-negative")] := rfl

/-- On JSON values: the compared ones are numbers, the iterated ones iterable, and the invalid
metrics can be displayed. -/
theorem WorkflowNode.checkable_iff (py : Interpreter) (node : WorkflowNode)
    (config : Dict String Value) :
    node.Checkable py config ↔ node.WellTyped config ∧ node.Displayable py config := by
  rw [wellTyped_iff]
  cases node with
  | recursiveTextSplitter =>
    show Succeeds (Value.compareNum _ _ _ _) ∧ Succeeds (Value.compareNum _ _ _ _) ∧
      Succeeds (Value.compareNum _ _ _ _) ∧ Succeeds (Value.compareNum _ _ _ _) ↔ _
    simp only [succeeds_compareNum_iff, comparedKeys, iteratedKeys, Displayable,
      List.forall_mem_cons]
    exact ⟨fun ⟨⟨hsize, _⟩, _, ⟨hoverlap, _⟩, _⟩ =>
        ⟨⟨⟨hsize, hoverlap, List.forall_mem_nil _⟩, List.forall_mem_nil _⟩, trivial⟩,
      fun ⟨⟨⟨hsize, hoverlap, _⟩, _⟩, _⟩ =>
        ⟨⟨hsize, rfl⟩, ⟨hsize, rfl⟩, ⟨hoverlap, hsize⟩, hoverlap, rfl⟩⟩
  | openaiEmbedding =>
    show Succeeds (.ok _) ∧ Succeeds (inside 256 3072 _) ↔ _
    simp only [succeeds_inside_iff, comparedKeys, iteratedKeys, Displayable, List.forall_mem_cons]
    exact ⟨fun ⟨_, h⟩ => ⟨⟨⟨h, List.forall_mem_nil _⟩, List.forall_mem_nil _⟩, trivial⟩,
      fun ⟨⟨⟨h, _⟩, _⟩, _⟩ => ⟨succeeds_ok _, h⟩⟩
  | vectorRetrieval | crossEncoderReranker =>
    show Succeeds (inside 1 100 _) ↔ _
    simp only [succeeds_inside_iff, comparedKeys, iteratedKeys, Displayable, List.forall_mem_cons]
    exact ⟨fun h => ⟨⟨⟨h, List.forall_mem_nil _⟩, List.forall_mem_nil _⟩, trivial⟩,
      fun ⟨⟨⟨h, _⟩, _⟩, _⟩ => h⟩
  | llmGeneration =>
    show Succeeds (inside 0 2 _) ∧ Succeeds (inside 1 32000 _) ↔ _
    simp only [succeeds_inside_iff, comparedKeys, iteratedKeys, Displayable, List.forall_mem_cons]
    exact ⟨fun ⟨h, h'⟩ => ⟨⟨⟨h, h', List.forall_mem_nil _⟩, List.forall_mem_nil _⟩, trivial⟩,
      fun ⟨⟨⟨h, h', _⟩, _⟩, _⟩ => ⟨h, h'⟩⟩
  | ragasEval =>
    rw [Checkable]
    simp only [PyObject.notIn_values, Except.ok.injEq, exists_eq_left', comparedKeys, iteratedKeys,
      Displayable, List.forall_mem_singleton]
    constructor
    · rintro ⟨metrics, hmetrics, hshown⟩
      refine ⟨⟨List.forall_mem_nil _, metrics, hmetrics⟩, fun metrics' hmetrics' => ?_⟩
      obtain rfl := Except.ok.inj (hmetrics.symm.trans hmetrics')
      exact hshown
    · rintro ⟨⟨-, metrics, hmetrics⟩, hshown⟩
      exact ⟨metrics, hmetrics, hshown metrics hmetrics⟩
  | markdownHeaderSplitter | ollamaEmbedding | hybridRetrieval | inputGuardrail | outputGuardrail =>
    exact iff_of_true trivial ⟨⟨List.forall_mem_nil _, List.forall_mem_nil _⟩, trivial⟩

/-- A node's checks return on well-typed values only. -/
theorem WorkflowNode.wellTyped_of_validateConfig {py : Interpreter} {node : WorkflowNode}
    {config : Dict String Value} {errors : List String}
    (h : node.validateConfig py config = .ok errors) : node.WellTyped config :=
  ((node.checkable_iff py config).mp ((node.succeeds_validateConfig_iff py config).mp ⟨errors, h⟩)).1

/-- No errors are found exactly if no check fails. -/
theorem runChecks_nil_iff (checks : List (Except PyError Bool × String)) :
    runChecks checks = .ok [] ↔ ∀ c ∈ checks, c.1 = .ok false := by
  induction checks with
  | nil => exact iff_of_true rfl (by simp)
  | cons c rest ih =>
    obtain ⟨cond, msg⟩ := c
    rw [List.forall_mem_cons, ← ih]
    constructor
    · intro h
      obtain ⟨failed, hcond, h⟩ := bind_ok h
      obtain ⟨errors, hrest, h⟩ := bind_ok h
      cases failed with
      | true => exact absurd (Except.ok.inj h) (List.cons_ne_nil _ _)
      | false =>
        obtain rfl : errors = [] := Except.ok.inj h
        exact ⟨hcond, hrest⟩
    · rintro ⟨hcond, hrest⟩
      rw [runChecks, show cond = .ok false from hcond, ok_bind, hrest]
      rfl

/-- Every node's default configuration passes its own checks. -/
theorem WorkflowNode.validateConfig_defaultConfig (py : Interpreter) (node : WorkflowNode) :
    node.validateConfig py node.defaultConfig = .ok [] := by
  cases node <;> rfl

end RagEval.Workflows
