import RagEval.Lib.Alternation
import RagEval.Workflows.TextSplitter

/-!
# Running the nodes

The `run` methods in `app/domain/workflows/nodes/`. They read an untyped configuration over the
node's defaults, so an operation on a value of it may raise; `NodeExecutionError` is the only
exception the protocol declares. What they log does not change what they return.
-/

namespace RagEval.Workflows
open RagEval.Lib

/-- What running the nodes takes from outside: the display of the values of JSON documents,
regular expressions with `re.IGNORECASE`, and the mock scores. -/
structure Runtime extends Interpreter where
  /-- `str(v)`. -/
  str : Value → String
  /-- `re.compile(pattern)` returns. -/
  compiles : String → Bool
  /-- `re.search(pattern, text, re.IGNORECASE)`. -/
  search : String → String → Bool
  /-- `re.sub(pattern, repl, text)`. -/
  sub : String → String → String → String
  /-- The draws `round(random.uniform(0.6, 0.95), 2)` after `random.seed(hash(text) % 10000)`. -/
  draw : String → Nat → BitVec 64
  /-- `round(sum(scores) / len(scores), 2)`. -/
  mean : List (BitVec 64) → BitVec 64

inductive NodeError where
  | nodeExecution (nodeType : String) (nodeId : Value) (message : String)
      (details : Dict String Value)
  | python (e : PyError)
  /-- `re.error`. -/
  | regex (pattern : String)
  | unboundLocal (name : String)

instance : MonadLift (Except PyError) (Except NodeError) := ⟨Except.mapError NodeError.python⟩

/-- `input_data.get(first) or input_data.get(second, dflt)`. -/
def getOr (inputData : Dict String Value) (first second : String) (dflt : Value) : Value :=
  let value := inputData.getD first .none
  if value.truthy then value else inputData.getD second dflt

/-- `input_data.get(first, input_data.get(second, ""))`, used as a text. -/
def getText (inputData : Dict String Value) (first second : String) : Except PyError String :=
  asText (inputData.getD first (inputData.getD second (.str "")))

/-- `base - (i * step)`. -/
def descending (base step : BitVec 64) (i : Nat) : Value :=
  .float (Double.sub base (Double.mul (Double.ofDyadic false i 0) step))

namespace MarkdownHeaderSplitterNode

/-- `re.escape(h)`, which takes strings only. -/
def escape : Value → Except PyError String
  | .str h => .ok (Alternation.escape h)
  | v => .error (.typeError
      ("decoding to str: need a bytes-like object, " ++ v.typeName ++ " found"))

/-- `header_pattern` and `pattern`, of the escaped headers. -/
def pattern (escaped : List String) : String := "^(" ++ "|".intercalate escaped ++ ") "

/-- The variables of the loop over the lines; a chunk has a content and a header. -/
structure SplitState where
  chunks : List (String × String)
  currentChunk : String
  currentHeader : String

/-- `if current_chunk: chunks.append(...)`. -/
def SplitState.flush (s : SplitState) : List (String × String) :=
  if s.currentChunk = "" then s.chunks
  else s.chunks ++ [(Text.strip s.currentChunk, s.currentHeader)]

/-- One round of the loop. -/
def addLine (pattern : String) (s : SplitState) (line : String) : SplitState :=
  if Alternation.isMatch pattern line then ⟨s.flush, line ++ "\n", Text.strip line⟩
  else { s with currentChunk := s.currentChunk ++ (line ++ "\n") }

def chunkValue (chunk : String × String) : Value :=
  .dict [("content", .str chunk.1), ("header", .str chunk.2)]

def run (inputData config : Dict String Value) : Except PyError (Dict String Value) := do
  let merged := mergedConfig defaultConfig config
  let text ← asText (inputData.getD "text" (.str ""))
  if text = "" then
    return Dict.ofList [("chunks", .list []), ("headers", .list [])]
  else
    let headers ← getItem merged "headers_to_split_on"
    let headers ← headers.iter
    let escaped ← headers.mapM escape
    let chunks := ((Text.split text '\n').foldl (addLine (pattern escaped)) ⟨[], "", ""⟩).flush
    return Dict.ofList
      [("chunks", .list (chunks.map chunkValue)), ("chunk_count", .int chunks.length),
       ("headers", .list (((chunks.map Prod.snd).filter fun h => h ≠ "").map .str))]

end MarkdownHeaderSplitterNode

/-- The texts to embed: `if isinstance(texts, str): texts = [texts]`. -/
def textsToEmbed (inputData : Dict String Value) : Value :=
  match getOr inputData "texts" "chunks" (.list []) with
  | .str s => .list [.str s]
  | texts => texts

namespace OpenAIEmbeddingNode

def run (inputData config : Dict String Value) : Except PyError (Dict String Value) := do
  let merged := mergedConfig defaultConfig config
  let texts := textsToEmbed inputData
  let dimensions ← getItem merged "dimensions"
  if !texts.truthy then
    return Dict.ofList [("embeddings", .list []), ("dimensions", dimensions)]
  else
    let items ← texts.iter
    let embeddings ← items.mapM fun _ => Value.repeated (.float 0#64) dimensions
    let count ← texts.len
    let model ← getItem merged "model"
    return Dict.ofList
      [("embeddings", .list (embeddings.map .list)), ("dimensions", dimensions), ("model", model),
       ("count", .int count)]

end OpenAIEmbeddingNode

namespace OllamaEmbeddingNode

def run (inputData config : Dict String Value) : Except PyError (Dict String Value) := do
  let merged := mergedConfig defaultConfig config
  let texts := textsToEmbed inputData
  let model ← getItem merged "model"
  if !texts.truthy then
    return Dict.ofList [("embeddings", .list []), ("model", model)]
  else
    let count ← texts.len
    let items ← texts.iter
    let embeddings ← items.mapM fun _ => Value.repeated (.float 0#64) (.int 768)
    return Dict.ofList
      [("embeddings", .list (embeddings.map .list)), ("model", model), ("count", .int count)]

end OllamaEmbeddingNode

namespace VectorRetrievalNode

def mockResult (i : Nat) : Value :=
  .dict
    [("id", .str ("doc_" ++ toString i)), ("content", .str ("Retrieved document " ++ toString i)),
     ("score", descending 0x3FEE666666666666#64 0x3FA999999999999A#64 i),
     ("metadata", .dict [("source", .str "mock")])]

def run (inputData config : Dict String Value) : Except NodeError (Dict String Value) := do
  let merged := mergedConfig defaultConfig config
  let queryEmbedding := getOr inputData "query_embedding" "embedding" .none
  if !queryEmbedding.truthy ∧ "query" ∈ inputData.keys then
    throw (.nodeExecution "retrieval" (merged.getD "step_id" (.str "unknown"))
      "Query embedding required. Add embedding step before retrieval." Dict.empty)
  else
    let topK ← getItem merged "top_k"
    let _ ← getItem merged "collection_name"
    -- a `float` of at most 5 stays one, and is no argument of `range`
    let count ← topK.minInt 5
    let count ← count.index
    let results := (List.range count.toNat).map mockResult
    return Dict.ofList
      [("results", .list results), ("count", .int results.length),
       ("query_embedding", queryEmbedding)]

end VectorRetrievalNode

namespace HybridRetrievalNode

def mockResult (query : String) (i : Nat) : Value :=
  .dict
    [("id", .str ("hybrid_" ++ toString i)),
     ("content", .str ("Hybrid result " ++ toString i ++ " for: " ++
       String.ofList (query.toList.take 50) ++ "...")),
     ("vector_score", descending 0x3FECCCCCCCCCCCCD#64 0x3FA999999999999A#64 i),
     ("keyword_score", descending 0x3FEB333333333333#64 0x3FA999999999999A#64 i),
     ("combined_score", descending 0x3FEC28F5C28F5C29#64 0x3FA999999999999A#64 i)]

def run (inputData config : Dict String Value) : Except PyError (Dict String Value) := do
  let merged := mergedConfig defaultConfig config
  let query ← asText (inputData.getD "query" (.str ""))
  let topK ← getItem merged "top_k"
  let _ ← getItem merged "vector_weight"
  let limit ← topK.minInt 5
  let count ← limit.index
  return Dict.ofList
    [("results", .list ((List.range count.toNat).map (mockResult query))), ("count", limit)]

end HybridRetrievalNode

namespace CrossEncoderRerankerNode

/-- `x.get("score", 0) * 1.1`. -/
def boostedScore (doc : Value) : Except PyError (BitVec 64) := do
  let score ← doc.attrGet "score" (.int 0)
  score.timesFloat 0x3FF199999999999A#64

/-- The order of `sorted(..., reverse=True)`, which keeps the places of equals. -/
def scoreOrder (a b : BitVec 64 × Value) : Bool := !(Num.ofFloat a.1).lt (Num.ofFloat b.1)

/-- The two fields a document gets at its place. -/
def withRank (doc : Value) (i : Nat) : Value :=
  match doc with
  | .dict kvs => .dict (Assoc.set "rerank_position" (.int (i + 1))
      (Assoc.set "rerank_score" (descending 0x3FEE666666666666#64 0x3F947AE147AE147B#64 i) kvs))
  | doc => doc

def run (inputData config : Dict String Value) : Except PyError (Dict String Value) := do
  let merged := mergedConfig defaultConfig config
  let query := inputData.getD "query" (.str "")
  let documents := getOr inputData "results" "documents" (.list [])
  if !documents.truthy then
    return Dict.ofList [("results", .list []), ("query", query)]
  else
    let topK ← getItem merged "top_k"
    let count ← documents.len
    let topK ← topK.minInt count
    let model ← getItem merged "model"
    let docs ← documents.iter
    -- the keys of all documents, before any is dropped
    let scores ← docs.mapM boostedScore
    let stop ← Value.sliceStop docs.length topK
    let reranked := (((scores.zip docs).mergeSort scoreOrder).map Prod.snd).take stop
    let results := reranked.mapIdx fun i doc => withRank doc i
    return Dict.ofList
      [("results", .list results), ("count", .int results.length), ("query", query),
       ("model", model)]

end CrossEncoderRerankerNode

namespace LLMGenerationNode

/-- `f"Document {i+1}: {doc.get('content', str(doc))}"`. -/
def documentLine (rt : Runtime) (doc : Value) (i : Nat) : Except PyError String := do
  let content ← doc.attrGet "content" (.str (rt.str doc))
  return "Document " ++ toString (i + 1) ++ ": " ++ rt.str content

def run (rt : Runtime) (inputData config : Dict String Value) :
    Except PyError (Dict String Value) := do
  let merged := mergedConfig defaultConfig config
  let query ← getText inputData "query" "question"
  let contextDocs := inputData.getD "results" (inputData.getD "context" (.list []))
  let prompt ←
    if contextDocs.truthy then do
      let docs ← contextDocs.firstItems 5
      let lines ← docs.zipIdx.mapM fun doc => documentLine rt doc.1 doc.2
      pure ("Context:\n" ++ "\n\n".intercalate lines ++ "\n\nQuestion: " ++ query ++ "\n\nAnswer:")
    else pure query
  let model ← getItem merged "model"
  let temperature ← getItem merged "temperature"
  let maxTokens ← getItem merged "max_tokens"
  return Dict.ofList
    [("answer", .str ("Based on the context provided, I can answer: " ++
       String.ofList (query.toList.take 50) ++ "...")),
     ("prompt", .str prompt), ("model", model), ("temperature", temperature),
     ("max_tokens", maxTokens), ("finish_reason", .str "stop")]

end LLMGenerationNode

namespace RagasEvalNode

/-- The variables of the loop over the metrics: the scores, and the text whose hash `random` was
seeded with; `random` is unbound before its import in the first round. -/
structure ScoreState where
  scores : Dict String (BitVec 64)
  seed : Option String

/-- One round of the loop. -/
def addScore (rt : Runtime) (question : String) (s : ScoreState) :
    Value → Except PyError ScoreState
  | .str metric =>
    .ok ⟨s.scores.set metric (rt.draw (question ++ metric) 0), some (question ++ metric)⟩
  | metric => .error (.typeError
      ("can only concatenate str (not \"" ++ metric.typeName ++ "\") to str"))

/-- The loop over the metrics. -/
def scoreAll (rt : Runtime) (question : String) (metrics : List Value) :
    Except PyError ScoreState :=
  metrics.foldlM (addScore rt question) ⟨Dict.empty, none⟩

/-- The comparison with the ground truth, if there is one: one more draw. -/
def comparison (rt : Runtime) (s : ScoreState) (groundTruth : Value) :
    Except NodeError (List (String × Value)) :=
  if groundTruth.truthy then
    match s.seed with
    | some seed => .ok
        [("ground_truth_comparison", .dict [("answer_similarity", .float (rt.draw seed 1))])]
    | none => .error (.unboundLocal "random")
  else .ok []

def run (rt : Runtime) (inputData config : Dict String Value) :
    Except NodeError (Dict String Value) := do
  let merged := mergedConfig defaultConfig config
  let question ← getText inputData "question" "query"
  let groundTruth := inputData.getD "ground_truth" .none
  let metrics ← getItem merged "metrics"
  let items ← metrics.iter
  let s ← scoreAll rt question items
  let scores := s.scores.values
  let comparison ← comparison rt s groundTruth
  return Dict.ofList
    ([("scores", .dict (s.scores.mapValues .float).items), ("metrics", metrics),
      ("overall_score", if scores.isEmpty then .int 0 else .float (rt.mean scores)),
      ("passed", .bool (scores.all fun score =>
        (Num.ofFloat 0x3FE6666666666666#64).le (Num.ofFloat score)))] ++ comparison)

end RagasEvalNode

/-! ## Guardrails -/

/-- `hash(v)` for a lookup. -/
def checkHashable (v : Value) : Except PyError Unit :=
  if v.hashable then .ok () else .error (.typeError ("unhashable type: '" ++ v.typeName ++ "'"))

/-- `re.search(pattern, text, re.IGNORECASE)`; the pattern is looked up in the cache of `re`
before it is compiled. -/
def searchPattern (rt : Runtime) (text : String) (pattern : Value) : Except NodeError Bool :=
  match pattern with
  | .str p => if rt.compiles p then .ok (rt.search p text) else .error (.regex p)
  | v => do
    let _ ← checkHashable v
    throw (.python (.typeError "first argument must be string or compiled pattern"))

/-- The messages of the elements for which a check fails, in order. -/
def violationsOf (check : Value → Except NodeError Bool) (message : Value → String)
    (items : List Value) : Except NodeError (List String) := do
  let found ← items.mapM fun item => do
    return if ← check item then [message item] else []
  return found.flatten

namespace InputGuardrailNode

/-- `field not in input_data or not input_data[field]`. -/
def isMissing (inputData : Dict String Value) (field : Value) : Except NodeError Bool := do
  let _ ← checkHashable field
  match field with
  | .str f => return !(inputData.getD f .none).truthy
  | _ => return true

def run (rt : Runtime) (inputData config : Dict String Value) :
    Except NodeError (Dict String Value) := do
  let merged := mergedConfig defaultConfig config
  let text ← asText (inputData.getD "text" (.str ""))
  let maxLength ← getItem merged "max_length"
  let tooLong ← Value.gt (.int text.length) maxLength
  let patterns ← getItem merged "blocked_patterns"
  let patterns ← patterns.iter
  let blocked ← violationsOf (searchPattern rt text)
    (fun p => "Input contains blocked pattern: " ++ rt.str p) patterns
  let fields ← getItem merged "required_fields"
  let fields ← fields.iter
  let missing ← violationsOf (isMissing inputData)
    (fun f => "Required field missing: " ++ rt.str f) fields
  let violations :=
    (if tooLong then ["Input exceeds max length of " ++ rt.str maxLength] else []) ++
      blocked ++ missing
  if violations ≠ [] ∧ (merged.getD "block_on_violation" (.bool true)).truthy = true then
    throw (.nodeExecution "guardrails" (.str "input_guardrail")
      ("Input guardrail violations: " ++ "; ".intercalate violations)
      (Dict.ofList [("violations", .list (violations.map .str))]))
  else
    -- a `float` compares with a length but ends no slice
    let stop ← Value.sliceStop text.length maxLength
    return Dict.ofList
      [("passed", .bool violations.isEmpty), ("violations", .list (violations.map .str)),
       ("sanitized_text", .str (String.ofList (text.toList.take stop)))]

end InputGuardrailNode

namespace OutputGuardrailNode

def emailPattern : String := "\\b[A-Za-z0-9._%+-]+@[A-Za-z0-9.-]+\\.[A-Z|a-z]\x7b2,\x7d\\b"

def phonePattern : String := "\\b\\d\x7b3\x7d[-.]?\\d\x7b3\x7d[-.]?\\d\x7b4\x7d\\b"

def ssnPattern : String := "\\b\\d\x7b3\x7d-\\d\x7b2\x7d-\\d\x7b4\x7d\\b"

/-- `_redact_pii`. -/
def redactPii (rt : Runtime) (text : String) : String :=
  rt.sub ssnPattern "[SSN]" (rt.sub phonePattern "[PHONE]" (rt.sub emailPattern "[EMAIL]" text))

def run (rt : Runtime) (inputData config : Dict String Value) :
    Except NodeError (Dict String Value) := do
  let merged := mergedConfig defaultConfig config
  let answer ← getText inputData "answer" "text"
  let maxLength ← getItem merged "max_length"
  let tooLong ← Value.gt (.int answer.length) maxLength
  let patterns ← getItem merged "blocked_patterns"
  let patterns ← patterns.iter
  let blocked ← violationsOf (searchPattern rt answer)
    (fun _ => "Output contains blocked content") patterns
  let violations := (if tooLong then ["Output exceeds max length"] else []) ++ blocked
  let redaction ← getItem merged "pii_redaction"
  let redactedAnswer := if redaction.truthy then redactPii rt answer else answer
  return Dict.ofList
    [("passed", .bool violations.isEmpty), ("violations", .list (violations.map .str)),
     ("filtered_answer", .str redactedAnswer),
     ("was_modified", .bool (decide (redactedAnswer ≠ answer)))]

end OutputGuardrailNode

/-- `run`. -/
def WorkflowNode.run (rt : Runtime) (node : WorkflowNode) (inputData config : Dict String Value) :
    Except NodeError (Dict String Value) :=
  match node with
  | recursiveTextSplitter => liftM (RecursiveTextSplitterNode.run inputData config)
  | markdownHeaderSplitter => liftM (MarkdownHeaderSplitterNode.run inputData config)
  | openaiEmbedding => liftM (OpenAIEmbeddingNode.run inputData config)
  | ollamaEmbedding => liftM (OllamaEmbeddingNode.run inputData config)
  | vectorRetrieval => VectorRetrievalNode.run inputData config
  | hybridRetrieval => liftM (HybridRetrievalNode.run inputData config)
  | crossEncoderReranker => liftM (CrossEncoderRerankerNode.run inputData config)
  | llmGeneration => liftM (LLMGenerationNode.run rt inputData config)
  | ragasEval => RagasEvalNode.run rt inputData config
  | inputGuardrail => InputGuardrailNode.run rt inputData config
  | outputGuardrail => OutputGuardrailNode.run rt inputData config

end RagEval.Workflows
