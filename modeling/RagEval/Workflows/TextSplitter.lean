import RagEval.Lib.Operators
import RagEval.Workflows.Nodes

/-!
# The text splitter

`RecursiveTextSplitterNode.run` and `_split_recursive` in
`app/domain/workflows/nodes/chunking.py`. The parameters come from an untyped configuration,
so every operation on them may raise. Despite its name the function does not recurse: only
the first separator is used.
-/

namespace RagEval.Workflows
open RagEval.Lib

/-- `{**default_config, **config}`. -/
def mergedConfig (defaultConfig config : Dict String Value) : Dict String Value :=
  defaultConfig.update config

/-- A setting is the configuration's, or else the default. -/
theorem getItem_mergedConfig {defaultConfig config : Dict String Value} {k : String} {dflt : Value}
    (h : defaultConfig.get? k = some dflt) :
    getItem (mergedConfig defaultConfig config) k = .ok (config.getD k dflt) := by
  rw [getItem, mergedConfig, Dict.get?_update, h, Dict.getD]
  cases config.get? k <;> rfl

theorem getD_mergedConfig_of_none {defaultConfig config : Dict String Value} {k : String}
    (h : defaultConfig.get? k = none) (dflt : Value) :
    (mergedConfig defaultConfig config).getD k dflt = config.getD k dflt := by
  rw [Dict.getD, mergedConfig, Dict.get?_update, h, Dict.getD]
  cases config.get? k <;> rfl

/-- A field of the input that is used as a text; well-typed input holds nothing else. -/
def asText : Value → Except PyError String
  | .str s => .ok s
  | v => .error (.attributeError ("'" ++ v.typeName ++ "' object has no attribute 'split'"))

namespace RecursiveTextSplitterNode

/-- The variables of the loop over the parts. -/
structure SplitState where
  chunks : List String
  currentChunk : String

/-- `if current_chunk: chunks.append(current_chunk.strip())`. -/
def SplitState.flush (s : SplitState) : List String :=
  if s.currentChunk = "" then s.chunks else s.chunks ++ [Text.strip s.currentChunk]

/-- One round of the loop; `separator` is `separators[0] if separators else ""`. -/
def addPart (chunkSize chunkOverlap separator : Value) (s : SplitState) (part : String) :
    Except PyError SplitState := do
  if ← Value.le (.int (s.currentChunk.length + part.length)) chunkSize then
    let addition ← Text.concat part separator
    pure ⟨s.chunks, s.currentChunk ++ addition⟩
  else
    let overlapStart ← chunkOverlap.tailStart s.currentChunk.length
    let currentChunk ← Text.concat (Text.dropFirst s.currentChunk overlapStart ++ part) separator
    pure ⟨s.flush, currentChunk⟩

/-- `_split_recursive`. -/
def splitRecursive (text : String) (chunkSize chunkOverlap separators : Value) :
    Except PyError (List String) := do
  let separator ← separators.firstOr (.str "")
  let parts ← if separators.truthy then Text.splitValue text separator else pure [text]
  let s ← parts.foldlM (addPart chunkSize chunkOverlap separator) ⟨[], ""⟩
  pure s.flush

def output (chunks : List String) (chunkSize chunkOverlap : Value) : Dict String Value :=
  Dict.ofList
    [("chunks", .list (chunks.map .str)), ("chunk_count", .int chunks.length),
     ("chunk_size", chunkSize), ("chunk_overlap", chunkOverlap)]

/-- The output for an empty text. -/
def emptyOutput : Dict String Value :=
  Dict.ofList [("chunks", .list []), ("chunk_count", .int 0)]

/-- `run`. -/
def run (inputData config : Dict String Value) : Except PyError (Dict String Value) := do
  let merged := mergedConfig defaultConfig config
  let text ← asText (inputData.getD "text" (.str ""))
  if text = "" then
    return emptyOutput
  else
    let chunkSize ← getItem merged "chunk_size"
    let chunkOverlap ← getItem merged "chunk_overlap"
    let separators ← getItem merged "separators"
    let chunks ← splitRecursive text chunkSize chunkOverlap separators
    return output chunks chunkSize chunkOverlap

end RecursiveTextSplitterNode
end RagEval.Workflows
