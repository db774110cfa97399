import RagEval.Workflows.Schemas

/-!
# Definitions from dictionaries

`WorkflowDefinition.model_validate` on a JSON object. The models and their validators are
those of `app/domain/workflows/schemas.py`; what pydantic makes of a value that is not
already an integer or a float where one is declared is a parameter. Every field that is
wrong is reported, under the path to it. Keys that no field has are ignored.
-/

namespace RagEval.Workflows
open RagEval.Lib

inductive Refusal where
  | missing | stringType | intType | floatType | listType | dictType | modelType | enum
  | greaterThanEqual (bound : Int) | lessThanEqual (bound : Int)
  | validator (e : PyError)
  deriving Repr, DecidableEq

/-- Why a value was refused, and where it stands in the input. -/
structure FieldError where
  loc : List String
  reason : Refusal
  deriving Repr, DecidableEq

abbrev Validated (α : Type) := Except (List FieldError) α

/-- The pydantic package: what else it reads as an integer or a float, whether dumping a
definition raises and what it makes of a float that JSON cannot express; and the texts of
exceptions, its own and those of the interpreter. -/
structure Pydantic where
  coerceInt : Value → Option Int
  coerceFloat : Value → Option (BitVec 64)
  dumpRaises : WorkflowDefinition → Option PyError
  dumpNonFinite : BitVec 64 → Value
  errorText : List FieldError → String
  exceptionText : PyError → String

namespace Validated

def pure {α : Type} (a : α) : Validated α := .ok a

/-- Both parts are validated, and the errors of both are reported. -/
def ap {α β : Type} (f : Validated (α → β)) (x : Validated α) : Validated β :=
  match f, x with
  | .ok f, .ok a => .ok (f a)
  | .error e, .ok _ => .error e
  | .ok _, .error e => .error e
  | .error e, .error e' => .error (e ++ e')

def refuse {α : Type} (reason : Refusal) : Validated α := .error [⟨[], reason⟩]

/-- Report the errors as those of a part of the value. -/
def located {α : Type} (key : String) (x : Validated α) : Validated α :=
  x.mapError (List.map fun e => { e with loc := key :: e.loc })

theorem ap_ok {α β : Type} {f : Validated (α → β)} {x : Validated α} {b : β}
    (h : f.ap x = .ok b) : ∃ g a, f = .ok g ∧ x = .ok a ∧ g a = b := by
  cases f with
  | ok g =>
    cases x with
    | ok a => exact ⟨g, a, rfl, rfl, Except.ok.inj h⟩
    | error e => cases h
  | error e => cases x <;> cases h

theorem located_ok {α : Type} {key : String} {x : Validated α} {a : α}
    (h : located key x = .ok a) : x = .ok a :=
  mapError_ok h

theorem located_ok_iff {α : Type} {key : String} {x : Validated α} {a : α} :
    located key x = .ok a ↔ x = .ok a := by
  refine ⟨located_ok, ?_⟩
  rintro rfl
  rfl

end Validated

open Validated

/-! ## Fields -/

def readStr : Value → Validated String
  | .str s => .ok s
  | _ => refuse .stringType

def readInt (pd : Pydantic) : Value → Validated Int
  | .int i => .ok i
  | v => match pd.coerceInt v with
    | some i => .ok i
    | none => refuse .intType

def readFloat (pd : Pydantic) : Value → Validated (BitVec 64)
  | .float x => .ok x
  | v => match pd.coerceFloat v with
    | some x => .ok x
    | none => refuse .floatType

def readAny (v : Value) : Validated Value := .ok v

/-- `... | None`. -/
def nullable {α : Type} (read : Value → Validated α) : Value → Validated (Option α)
  | .none => .ok none
  | v => (read v).map some

/-- The items of a list from index `i` on. -/
def readItems {α : Type} (read : Value → Validated α) : Nat → List Value → Validated (List α)
  | _, [] => .ok []
  | i, v :: vs => Validated.pure List.cons
      |>.ap (located (toString i) (read v))
      |>.ap (readItems read (i + 1) vs)

def readList {α : Type} (read : Value → Validated α) : Value → Validated (List α)
  | .list vs => readItems read 0 vs
  | _ => refuse .listType

def readEntries {α : Type} (read : Value → Validated α) :
    List (String × Value) → Validated (List (String × α))
  | [] => .ok []
  | (k, v) :: kvs => Validated.pure (fun a rest => (k, a) :: rest)
      |>.ap (located k (read v))
      |>.ap (readEntries read kvs)

def readDict {α : Type} (read : Value → Validated α) : Value → Validated (Dict String α)
  | .dict kvs => (readEntries read kvs).map Dict.ofList
  | _ => refuse .dictType

/-- A field without a default. -/
def required {α : Type} (key : String) (read : Value → Validated α)
    (fields : List (String × Value)) : Validated α :=
  match Assoc.get key fields with
  | some v => located key (read v)
  | none => .error [⟨[key], .missing⟩]

/-- A field without a default and with an alias, which comes first. -/
def aliased {α : Type} (alias' name : String) (read : Value → Validated α)
    (fields : List (String × Value)) : Validated α :=
  match Assoc.get alias' fields with
  | some v => located alias' (read v)
  | none => match Assoc.get name fields with
    | some v => located name (read v)
    | none => .error [⟨[alias'], .missing⟩]

/-- A field with a default, which is not validated. -/
def optional {α : Type} (key : String) (dflt : α) (read : Value → Validated α)
    (fields : List (String × Value)) : Validated α :=
  match Assoc.get key fields with
  | some v => located key (read v)
  | none => .ok dflt

/-- A field with a default is the default or what is read under its key. -/
theorem optional_ok_iff {α : Type} {key : String} {dflt a : α} {read : Value → Validated α}
    {fields : List (String × Value)} :
    optional key dflt read fields = .ok a ↔
      (Assoc.get key fields = none ∧ a = dflt) ∨
        ∃ v, Assoc.get key fields = some v ∧ read v = .ok a := by
  unfold optional
  cases Assoc.get key fields with
  | none => simp [eq_comm]
  | some v => simp [located_ok_iff]

/-- `int` with `ge=1`. -/
def readVersion (pd : Pydantic) (v : Value) : Validated {n : Nat // 1 ≤ n} := do
  let i ← readInt pd v
  if h : 1 ≤ i then .ok ⟨i.toNat, by omega⟩ else refuse (.greaterThanEqual 1)

/-- `int` with `ge=0, le=100`. -/
def readPriority (pd : Pydantic) (v : Value) : Validated (Fin 101) := do
  let i ← readInt pd v
  if h : 0 ≤ i then
    if h' : i ≤ 100 then .ok ⟨i.toNat, by omega⟩ else refuse (.lessThanEqual 100)
  else refuse (.greaterThanEqual 0)

/-! ## Models -/

def NodeType.value : NodeType → String
  | chunking => "chunking"
  | embedding => "embedding"
  | retrieval => "retrieval"
  | reranking => "reranking"
  | generation => "generation"
  | evaluation => "evaluation"
  | guardrails => "guardrails"
  | tools => "tools"
  | mcp => "mcp"

def NodeType.all : List NodeType :=
  [chunking, embedding, retrieval, reranking, generation, evaluation, guardrails, tools, mcp]

def NodeType.modelValidate : Value → Validated NodeType
  | .str s => match NodeType.all.find? fun type => type.value = s with
    | some type => .ok type
    | none => refuse .enum
  | _ => refuse .enum

def WorkflowStep.modelValidate : Value → Validated WorkflowStep
  | .dict fields => Validated.pure WorkflowStep.mk
      |>.ap (required "id" readStr fields)
      |>.ap (required "type" NodeType.modelValidate fields)
      |>.ap (required "implementation" readStr fields)
      |>.ap (optional "config_ref" none (nullable readStr) fields)
      |>.ap (optional "config_override" Dict.empty (readDict readAny) fields)
      |>.ap (optional "inputs" none (nullable (readDict readStr)) fields)
      |>.ap (optional "outputs" none (nullable (readList readStr)) fields)
      |>.ap (optional "condition" none (nullable readStr) fields)
      |>.ap (optional "retry_policy" none (nullable (readDict readAny)) fields)
  | _ => refuse .modelType

def WorkflowEdge.modelValidate (pd : Pydantic) : Value → Validated WorkflowEdge
  | .dict fields => Validated.pure WorkflowEdge.mk
      |>.ap (aliased "from" "from_step" readStr fields)
      |>.ap (aliased "to" "to_step" readStr fields)
      |>.ap (optional "condition" none (nullable readStr) fields)
      |>.ap (optional "priority" 0 (readPriority pd) fields)
  | _ => refuse .modelType

/-- The outcome of a field validator. -/
def validator {α : Type} (x : Except PyError α) : Validated α :=
  x.mapError fun e => [⟨[], .validator e⟩]

namespace WorkflowDefinition

def readSteps (v : Value) : Validated (List WorkflowStep) := do
  let steps ← readList WorkflowStep.modelValidate v
  validator (validateStepsNotEmpty steps)

/-- The edges refer to the steps, where those are valid. -/
def readEdges (pd : Pydantic) (steps : Validated (List WorkflowStep)) (v : Value) :
    Validated (List WorkflowEdge) := do
  let edges ← readList (WorkflowEdge.modelValidate pd) v
  validator (validateEdgeReferences (steps.toOption.getD []) edges)

/-- The definition with the given fields. -/
def make (id : String) (version : {n : Nat // 1 ≤ n}) (name description inputSchema outputSchema :
    Option String) (steps : List WorkflowStep) (edges : List WorkflowEdge)
    (qualityGates : Dict String (BitVec 64)) (metadata : Dict String Value)
    (tenantId createdBy : Option String) : WorkflowDefinition where
  id := id
  version := version.1
  version_pos := version.2
  name := name
  description := description
  inputSchema := inputSchema
  outputSchema := outputSchema
  steps := steps
  edges := edges
  qualityGates := qualityGates
  metadata := metadata
  tenantId := tenantId
  createdBy := createdBy

/-- `model_validate`. -/
def modelValidate (pd : Pydantic) (definition : Dict String Value) : Validated WorkflowDefinition :=
  let fields := definition.items
  let steps := optional "steps" [] readSteps fields
  Validated.pure make
    |>.ap (required "id" readStr fields)
    |>.ap (optional "version" ⟨1, le_rfl⟩ (readVersion pd) fields)
    |>.ap (optional "name" none (nullable readStr) fields)
    |>.ap (optional "description" none (nullable readStr) fields)
    |>.ap (optional "input_schema" none (nullable readStr) fields)
    |>.ap (optional "output_schema" none (nullable readStr) fields)
    |>.ap steps
    |>.ap (optional "edges" [] (readEdges pd steps) fields)
    |>.ap (optional "quality_gates" Dict.empty (readDict (readFloat pd)) fields)
    |>.ap (optional "metadata" Dict.empty (readDict readAny) fields)
    |>.ap (optional "tenant_id" none (nullable readStr) fields)
    |>.ap (optional "created_by" none (nullable readStr) fields)

/-- Each field of the definition is what is read of the dictionary. -/
structure ReadFrom (pd : Pydantic) (fields : List (String × Value)) (d : WorkflowDefinition) :
    Prop where
  id : required "id" readStr fields = .ok d.id
  version : optional "version" ⟨1, le_rfl⟩ (readVersion pd) fields =
    .ok ⟨d.version, d.version_pos⟩
  name : optional "name" none (nullable readStr) fields = .ok d.name
  description : optional "description" none (nullable readStr) fields = .ok d.description
  inputSchema : optional "input_schema" none (nullable readStr) fields = .ok d.inputSchema
  outputSchema : optional "output_schema" none (nullable readStr) fields = .ok d.outputSchema
  steps : optional "steps" [] readSteps fields = .ok d.steps
  edges : optional "edges" [] (readEdges pd (.ok d.steps)) fields = .ok d.edges
  qualityGates : optional "quality_gates" Dict.empty (readDict (readFloat pd)) fields =
    .ok d.qualityGates
  metadata : optional "metadata" Dict.empty (readDict readAny) fields = .ok d.metadata
  tenantId : optional "tenant_id" none (nullable readStr) fields = .ok d.tenantId
  createdBy : optional "created_by" none (nullable readStr) fields = .ok d.createdBy

theorem readFrom_of_modelValidate {pd : Pydantic} {definition : Dict String Value}
    {d : WorkflowDefinition} (h : modelValidate pd definition = .ok d) :
    ReadFrom pd definition.items d := by
  obtain ⟨_, createdBy, h1, hcreatedBy, rfl⟩ := ap_ok h
  obtain ⟨_, tenantId, h2, htenantId, rfl⟩ := ap_ok h1
  obtain ⟨_, metadata, h3, hmetadata, rfl⟩ := ap_ok h2
  obtain ⟨_, qualityGates, h4, hqualityGates, rfl⟩ := ap_ok h3
  obtain ⟨_, edges, h5, hedges, rfl⟩ := ap_ok h4
  obtain ⟨_, steps, h6, hsteps, rfl⟩ := ap_ok h5
  obtain ⟨_, outputSchema, h7, houtputSchema, rfl⟩ := ap_ok h6
  obtain ⟨_, inputSchema, h8, hinputSchema, rfl⟩ := ap_ok h7
  obtain ⟨_, description, h9, hdescription, rfl⟩ := ap_ok h8
  obtain ⟨_, name, h10, hname, rfl⟩ := ap_ok h9
  obtain ⟨_, version, h11, hversion, rfl⟩ := ap_ok h10
  obtain ⟨_, id, h12, hid, rfl⟩ := ap_ok h11
  obtain rfl := Except.ok.inj h12
  rw [hsteps] at hedges
  exact ⟨hid, hversion, hname, hdescription, hinputSchema, houtputSchema, hsteps, hedges,
    hqualityGates, hmetadata, htenantId, hcreatedBy⟩

end WorkflowDefinition

end RagEval.Workflows
