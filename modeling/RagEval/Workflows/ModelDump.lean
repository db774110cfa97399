import RagEval.Lib.Json
import RagEval.Workflows.ModelValidate

/-!
# Dumped definitions

`WorkflowDefinition.compute_hash` in `app/domain/workflows/schemas.py` and the dump it
hashes. The digest is a parameter.
-/

namespace RagEval.Workflows
open RagEval.Lib

mutual
/-- A value declared as `Any`. -/
def dumpAny (pd : Pydantic) : Value → Value
  | .none => .none
  | .bool b => .bool b
  | .int i => .int i
  | .float x => match Num.ofFloat x with
    | .fin _ _ => .float x
    | _ => pd.dumpNonFinite x
  | .str s => .str s
  | .list vs => .list (dumpAnys pd vs)
  | .dict kvs => .dict (dumpAnyItems pd kvs)

def dumpAnys (pd : Pydantic) : List Value → List Value
  | [] => []
  | v :: vs => dumpAny pd v :: dumpAnys pd vs

def dumpAnyItems (pd : Pydantic) : List (String × Value) → List (String × Value)
  | [] => []
  | (k, v) :: kvs => (k, dumpAny pd v) :: dumpAnyItems pd kvs
end

def dumpOption {α : Type} (dump : α → Value) : Option α → Value
  | some a => dump a
  | none => .none

def dumpDict {α : Type} (dump : α → Value) (d : Dict String α) : Value :=
  .dict (d.mapValues dump).items

def WorkflowStep.modelDump (pd : Pydantic) (self : WorkflowStep) : Value := .dict
  [("id", .str self.id), ("type", .str self.type.value),
   ("implementation", .str self.implementation), ("config_ref", dumpOption .str self.configRef),
   ("config_override", dumpDict (dumpAny pd) self.configOverride),
   ("inputs", dumpOption (dumpDict .str) self.inputs),
   ("outputs", dumpOption (fun outputs => .list (outputs.map .str)) self.outputs),
   ("condition", dumpOption .str self.condition),
   ("retry_policy", dumpOption (dumpDict (dumpAny pd)) self.retryPolicy)]

/-- An edge by its aliases. -/
def WorkflowEdge.modelDump (self : WorkflowEdge) : Value := .dict
  [("from", .str self.fromStep), ("to", .str self.toStep),
   ("condition", dumpOption .str self.condition), ("priority", .int self.priority.val)]

namespace WorkflowDefinition

/-- The fields of `model_dump(by_alias=True, mode="json")`, less the excluded ones. -/
def modelDump (pd : Pydantic) (excluded : List String) (self : WorkflowDefinition) : Value :=
  .dict ([("id", .str self.id), ("version", .int self.version),
    ("name", dumpOption .str self.name), ("description", dumpOption .str self.description),
    ("input_schema", dumpOption .str self.inputSchema),
    ("output_schema", dumpOption .str self.outputSchema),
    ("steps", .list (self.steps.map (WorkflowStep.modelDump pd))),
    ("edges", .list (self.edges.map WorkflowEdge.modelDump)),
    ("quality_gates", dumpDict .float self.qualityGates),
    ("metadata", dumpDict (dumpAny pd) self.metadata),
    ("tenant_id", dumpOption .str self.tenantId),
    ("created_by", dumpOption .str self.createdBy)].filter fun kv => kv.1 ∉ excluded)

/-- `canonical_str`, where dumping does not raise. -/
def canonicalString (pd : Pydantic) (self : WorkflowDefinition) : String :=
  Json.dumps (self.modelDump pd ["metadata", "version"])

/-- The first 32 digits of a digest. -/
def truncated (sha256 : String → String) (text : String) : String :=
  String.ofList ((sha256 text).toList.take 32)

/-- `compute_hash`. -/
def computeHash (pd : Pydantic) (sha256 : String → String) (self : WorkflowDefinition) :
    Except PyError String :=
  match pd.dumpRaises self with
  | some e => .error e
  | none => .ok (truncated sha256 (self.canonicalString pd))

end WorkflowDefinition

end RagEval.Workflows
