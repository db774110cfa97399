import RagEval.Lib.Uuid
import RagEval.Workflows.ModelDump
import RagEval.Workflows.Validator

/-!
# The workflow service

`app/domain/workflows/service.py`: creating a version of a definition, validating it
without creating one, and the dry run.

## Main result

- `services_agree` — the three accept the same definitions
-/

namespace RagEval.Workflows
open RagEval.Lib

/-- What the service raises: the model's validation error, the validator's, or what
validating or hashing raised. -/
inductive ServiceError where
  | validationError (errors : List FieldError)
  | workflowValidationError (errors : List String)
  | python (e : PyError)

/-- `str(e)`. -/
def ServiceError.text (pd : Pydantic) : ServiceError → String
  | validationError errors => pd.errorText errors
  | workflowValidationError errors => "Workflow validation failed: " ++ "; ".intercalate errors
  | python e => pd.exceptionText e

inductive VersionStatus where
  | draft | published | archived
  deriving Repr, DecidableEq

/-- A workflow version record. -/
structure WorkflowVersion where
  id : UUID
  workflowId : UUID
  version : Int
  definition : WorkflowDefinition
  definitionHash : String
  status : VersionStatus := .draft
  createdBy : Option String := none
  changelog : Option String := none
  publishedAt : Option String := none

/-- What `validate_workflow` returns. -/
structure ValidationResult where
  valid : Bool
  errors : List String
  stepCount : Nat
  edgeCount : Nat
  definitionHash : Option String

/-- What `get_workflow_dry_run_result` returns; the last two keys are there on success. -/
structure DryRunResult where
  success : Bool
  validationErrors : List String
  estimatedSteps : Option Nat := none
  mockOutput : Option (Dict String Value) := none

/-- `UUID(int=0)`. -/
def nilUuid : UUID := ⟨List.replicate 32 0, List.length_replicate⟩

namespace WorkflowService

section
variable (py : Interpreter) (pd : Pydantic) (sha256 : String → String)

/-- `validate_strict`, for an already constructed definition. -/
def validateStrict (workflow : WorkflowDefinition) : Except ServiceError Unit := do
  let errors ← (WorkflowValidator.validate py workflow).mapError .python
  if errors ≠ [] then throw (.workflowValidationError errors)

/-- `create_workflow`; the version gets a fresh id. -/
def createWorkflow (id : UUID) (definition : Dict String Value) (_tenantId : String)
    (createdBy : Option String) : Except ServiceError WorkflowVersion := do
  let workflowDef ← (WorkflowDefinition.modelValidate pd definition).mapError .validationError
  validateStrict py workflowDef
  let definitionHash ← (workflowDef.computeHash pd sha256).mapError .python
  return { id, workflowId := nilUuid, version := 1, definition := workflowDef, definitionHash,
           createdBy, status := .draft }

/-- The `try` block of `validate_workflow`. -/
def tryValidate (definition : Dict String Value) : Except ServiceError ValidationResult := do
  let workflowDef ← (WorkflowDefinition.modelValidate pd definition).mapError .validationError
  let errors ← (WorkflowValidator.validate py workflowDef).mapError .python
  let definitionHash ← (workflowDef.computeHash pd sha256).mapError .python
  return { valid := errors.length = 0, errors, stepCount := workflowDef.steps.length,
           edgeCount := workflowDef.edges.length, definitionHash := some definitionHash }

/-- `validate_workflow`. -/
def validateWorkflow (definition : Dict String Value) : Except ServiceError ValidationResult :=
  tryCatch (tryValidate py pd sha256 definition) fun e =>
    pure { valid := false, errors := [e.text pd], stepCount := 0, edgeCount := 0,
           definitionHash := none }

/-- `get_workflow_dry_run_result`. -/
def getWorkflowDryRunResult (definition _testInput : Dict String Value) :
    Except ServiceError DryRunResult := do
  let validation ← validateWorkflow py pd sha256 definition
  if !validation.valid then
    return { success := false, validationErrors := validation.errors }
  else
    return { success := true, validationErrors := [],
             estimatedSteps := some validation.stepCount,
             mockOutput := some (Dict.ofList [("dry_run", .bool true)]) }

end

section
variable {py : Interpreter} {pd : Pydantic} {sha256 : String → String}
  {definition : Dict String Value}

/-- What each path has to get through. -/
structure Accepted (py : Interpreter) (pd : Pydantic) (sha256 : String → String)
    (definition : Dict String Value) (workflowDef : WorkflowDefinition) (hash : String) : Prop where
  modelValidate : WorkflowDefinition.modelValidate pd definition = .ok workflowDef
  validate : WorkflowValidator.validate py workflowDef = .ok []
  computeHash : workflowDef.computeHash pd sha256 = .ok hash

theorem validateStrict_ok_iff {workflow : WorkflowDefinition} :
    validateStrict py workflow = .ok () ↔ WorkflowValidator.validate py workflow = .ok [] := by
  unfold validateStrict
  cases WorkflowValidator.validate py workflow with
  | error e => simp [Except.mapError, bind, Except.bind]
  | ok errors =>
    cases errors with
    | nil => simp [Except.mapError, bind, Except.bind, pure, Except.pure]
    | cons err errors => simp [Except.mapError, bind, Except.bind, throw, throwThe, MonadExceptOf.throw]

theorem createWorkflow_ok_iff {id : UUID} {tenantId : String} {createdBy : Option String}
    {v : WorkflowVersion} :
    createWorkflow py pd sha256 id definition tenantId createdBy = .ok v ↔
      ∃ workflowDef hash, Accepted py pd sha256 definition workflowDef hash ∧
        v = { id, workflowId := nilUuid, version := 1, definition := workflowDef,
              definitionHash := hash, createdBy, status := .draft } := by
  constructor
  · intro h
    obtain ⟨workflowDef, hmodel, h⟩ := bind_ok h
    obtain ⟨_, hstrict, h⟩ := bind_ok h
    obtain ⟨hash, hhash, h⟩ := bind_ok h
    exact ⟨workflowDef, hash, ⟨mapError_ok hmodel, validateStrict_ok_iff.mp hstrict,
      mapError_ok hhash⟩, (Except.ok.inj h).symm⟩
  · rintro ⟨workflowDef, hash, ⟨hmodel, hvalidate, hhash⟩, rfl⟩
    rw [createWorkflow, hmodel, Except.mapError, ok_bind, validateStrict_ok_iff.mpr hvalidate,
      ok_bind, hhash]
    rfl

theorem tryValidate_of_accepted {workflowDef : WorkflowDefinition} {hash : String}
    (h : Accepted py pd sha256 definition workflowDef hash) :
    tryValidate py pd sha256 definition = .ok
      ⟨true, [], workflowDef.steps.length, workflowDef.edges.length, some hash⟩ := by
  rw [tryValidate, h.modelValidate, Except.mapError, ok_bind, h.validate, Except.mapError, ok_bind,
    h.computeHash]
  rfl

theorem accepted_of_tryValidate {r : ValidationResult}
    (h : tryValidate py pd sha256 definition = .ok r) (hvalid : r.valid = true) :
    ∃ workflowDef hash, Accepted py pd sha256 definition workflowDef hash := by
  obtain ⟨workflowDef, hmodel, h⟩ := bind_ok h
  obtain ⟨errors, hvalidate, h⟩ := bind_ok h
  obtain ⟨hash, hhash, h⟩ := bind_ok h
  obtain rfl := Except.ok.inj h
  obtain rfl := List.length_eq_zero_iff.mp (of_decide_eq_true hvalid)
  exact ⟨workflowDef, hash, mapError_ok hmodel, mapError_ok hvalidate, mapError_ok hhash⟩

/-- `validate_workflow` always returns, and finds valid what gets through all its steps. -/
theorem validateWorkflow_ok (py : Interpreter) (pd : Pydantic) (sha256 : String → String)
    (definition : Dict String Value) :
    ∃ r, validateWorkflow py pd sha256 definition = .ok r ∧
      (r.valid = true ↔ ∃ workflowDef hash, Accepted py pd sha256 definition workflowDef hash) ∧
      ∀ workflowDef hash, Accepted py pd sha256 definition workflowDef hash →
        r = ⟨true, [], workflowDef.steps.length, workflowDef.edges.length, some hash⟩ := by
  cases htry : tryValidate py pd sha256 definition with
  | ok r =>
    have haccepted : ∀ workflowDef hash, Accepted py pd sha256 definition workflowDef hash →
        r = ⟨true, [], workflowDef.steps.length, workflowDef.edges.length, some hash⟩ :=
      fun _ _ h => Except.ok.inj (htry.symm.trans (tryValidate_of_accepted h))
    refine ⟨r, by rw [validateWorkflow, htry]; rfl, ⟨accepted_of_tryValidate htry, ?_⟩, haccepted⟩
    rintro ⟨workflowDef, hash, h⟩
    rw [haccepted workflowDef hash h]
  | error e =>
    have hrefused : ∀ workflowDef hash, ¬Accepted py pd sha256 definition workflowDef hash :=
      fun _ _ h => nomatch htry.symm.trans (tryValidate_of_accepted h)
    refine ⟨_, by rw [validateWorkflow, htry]; rfl, ⟨?_, ?_⟩, ?_⟩
    · intro hvalid
      exact absurd hvalid Bool.false_ne_true
    · rintro ⟨workflowDef, hash, h⟩
      exact absurd h (hrefused workflowDef hash)
    · intro workflowDef hash h
      exact absurd h (hrefused workflowDef hash)

theorem getWorkflowDryRunResult_ok {r : ValidationResult} (testInput : Dict String Value)
    (h : validateWorkflow py pd sha256 definition = .ok r) :
    ∃ dry, getWorkflowDryRunResult py pd sha256 definition testInput = .ok dry ∧
      dry.success = r.valid := by
  rw [getWorkflowDryRunResult, h, ok_bind]
  cases r.valid with
  | true => exact ⟨_, rfl, rfl⟩
  | false => exact ⟨_, rfl, rfl⟩

end

/-- Whatever the dictionary, `validate_workflow` and the dry run return, and both accept it
exactly when `create_workflow` does. What is then reported is the hash and the numbers of
steps and edges of the created version's definition. -/
theorem services_agree (py : Interpreter) (pd : Pydantic) (sha256 : String → String)
    (definition testInput : Dict String Value) (id : UUID) (tenantId : String)
    (createdBy : Option String) :
    ∃ r dry, validateWorkflow py pd sha256 definition = .ok r ∧
      getWorkflowDryRunResult py pd sha256 definition testInput = .ok dry ∧
      (r.valid = true ↔ ∃ v, createWorkflow py pd sha256 id definition tenantId createdBy = .ok v) ∧
      (r.valid = true ↔ dry.success = true) ∧
      ∀ v, createWorkflow py pd sha256 id definition tenantId createdBy = .ok v →
        v.definition.computeHash pd sha256 = .ok v.definitionHash ∧
        r.definitionHash = some v.definitionHash ∧
        r.stepCount = v.definition.steps.length ∧ r.edgeCount = v.definition.edges.length := by
  obtain ⟨r, hr, hvalid, haccepted⟩ := validateWorkflow_ok py pd sha256 definition
  obtain ⟨dry, hdry, hsuccess⟩ := getWorkflowDryRunResult_ok testInput hr
  refine ⟨r, dry, hr, hdry, ?_, by rw [hsuccess], ?_⟩
  · rw [hvalid]
    constructor
    · rintro ⟨workflowDef, hash, h⟩
      exact ⟨_, createWorkflow_ok_iff.mpr ⟨workflowDef, hash, h, rfl⟩⟩
    · rintro ⟨v, hv⟩
      obtain ⟨workflowDef, hash, h, -⟩ := createWorkflow_ok_iff.mp hv
      exact ⟨workflowDef, hash, h⟩
  · intro v hv
    obtain ⟨workflowDef, hash, h, rfl⟩ := createWorkflow_ok_iff.mp hv
    rw [haccepted workflowDef hash h]
    exact ⟨h.computeHash, rfl, rfl, rfl⟩

end WorkflowService

end RagEval.Workflows
