import RagEval.Workflows.CanonicalHash
import RagEval.Workflows.Service
import RagEval.Workflows.ValidatorCorrect

/-!
# Whose workflow a version is, and which

`create_workflow` takes the tenant and the creator from the caller, and the definition from the
request. The definition may name a tenant and a version of its own, and both stay as they are;
the record has the version 1.

## Main result

- `createWorkflow_agrees_iff` — when a created version agrees with the request
-/

namespace RagEval.Workflows
open RagEval.Lib

/-- The record and its definition have one version, the definition is the tenant's, and the
hash is the definition's. -/
structure WorkflowVersion.Agrees (pd : Pydantic) (sha256 : String → String) (tenantId : String)
    (v : WorkflowVersion) : Prop where
  version : v.version = v.definition.version
  tenantId : v.definition.tenantId = some tenantId
  definitionHash : v.definition.computeHash pd sha256 = .ok v.definitionHash

/-- The dictionary has no version, or one that is read as 1. -/
def FirstVersion (pd : Pydantic) (definition : Dict String Value) : Prop :=
  definition.get? "version" = none ∨
    ∃ v, definition.get? "version" = some v ∧ readInt pd v = .ok 1

theorem readVersion_one_iff {pd : Pydantic} {v : Value} {n : {n : Nat // 1 ≤ n}}
    (h : readVersion pd v = .ok n) : n.1 = 1 ↔ readInt pd v = .ok 1 := by
  obtain ⟨i, hi, hn⟩ := bind_ok h
  split at hn
  · next hle =>
    obtain rfl := Except.ok.inj hn
    rw [hi, Except.ok.injEq]
    simp only
    omega
  · cases hn

namespace WorkflowDefinition
variable {pd : Pydantic} {definition : Dict String Value} {d : WorkflowDefinition}

theorem version_eq_one_iff (h : ReadFrom pd definition.items d) :
    d.version = 1 ↔ FirstVersion pd definition := by
  obtain ⟨hnone, hdflt⟩ | ⟨v, hget, hread⟩ := optional_ok_iff.mp h.version
  · exact iff_of_true (congrArg Subtype.val hdflt) (.inl hnone)
  · have hone := readVersion_one_iff hread
    constructor
    · exact fun hversion => .inr ⟨v, hget, hone.mp hversion⟩
    · rintro (hnone | ⟨w, hw, hread'⟩)
      · exact absurd (hget.symm.trans hnone) (Option.some_ne_none v)
      · obtain rfl := Option.some.inj (hget.symm.trans hw)
        exact hone.mpr hread'

theorem nullable_readStr_some_iff {v : Value} {s : String} :
    nullable readStr v = .ok (some s) ↔ v = .str s := by
  constructor
  · intro h
    have hread := nullable_ok h
    cases v with
    | str s' => exact congrArg Value.str (Except.ok.inj hread)
    | none | bool | int | float | list | dict => cases hread
  · rintro rfl
    rfl

theorem tenantId_eq_some_iff (h : ReadFrom pd definition.items d) (tenantId : String) :
    d.tenantId = some tenantId ↔ definition.get? "tenant_id" = some (.str tenantId) := by
  obtain ⟨hnone, hdflt⟩ | ⟨v, hget, hread⟩ := optional_ok_iff.mp h.tenantId
  · rw [hdflt, Dict.get?, hnone]
    exact iff_of_false (Option.some_ne_none tenantId).symm (Option.some_ne_none _).symm
  · rw [Dict.get?, hget, Option.some.injEq, ← nullable_readStr_some_iff, hread, Except.ok.injEq]

end WorkflowDefinition

namespace WorkflowService

/-- A created version agrees with the request exactly when the dictionary itself names the
calling tenant and the version 1. -/
theorem createWorkflow_agrees_iff (py : Interpreter) (pd : Pydantic) (sha256 : String → String)
    (id : UUID) (definition : Dict String Value) (tenantId : String) (createdBy : Option String)
    (v : WorkflowVersion)
    (h : createWorkflow py pd sha256 id definition tenantId createdBy = .ok v) :
    v.Agrees pd sha256 tenantId ↔
      FirstVersion pd definition ∧ definition.get? "tenant_id" = some (.str tenantId) := by
  obtain ⟨workflowDef, hash, haccepted, rfl⟩ := createWorkflow_ok_iff.mp h
  have hread := WorkflowDefinition.readFrom_of_modelValidate haccepted.modelValidate
  rw [← WorkflowDefinition.version_eq_one_iff hread,
    ← WorkflowDefinition.tenantId_eq_some_iff hread]
  constructor
  · intro hagrees
    have hversion : (1 : Int) = workflowDef.version := hagrees.version
    exact ⟨by omega, hagrees.tenantId⟩
  · rintro ⟨hversion, htenant⟩
    refine ⟨?_, htenant, haccepted.computeHash⟩
    show (1 : Int) = workflowDef.version
    omega

theorem createWorkflow_agrees_own :
    ∃ v, createWorkflow WorkflowValidator.sortedInterpreter HashDemo.strictPydantic HashDemo.sha256
        nilUuid (Dict.ofList [("id", .str "wf"), ("tenant_id", .str "tenant-a")]) "tenant-a" none =
          .ok v ∧ v.Agrees HashDemo.strictPydantic HashDemo.sha256 "tenant-a" := by
  obtain ⟨v, hv⟩ : ∃ v, createWorkflow WorkflowValidator.sortedInterpreter HashDemo.strictPydantic
      HashDemo.sha256 nilUuid (Dict.ofList [("id", .str "wf"), ("tenant_id", .str "tenant-a")])
      "tenant-a" none = .ok v := ⟨_, rfl⟩
  exact ⟨v, hv, (createWorkflow_agrees_iff _ _ _ _ _ _ _ v hv).mpr ⟨.inl rfl, rfl⟩⟩

/-- The caller is `tenant-a`; one definition names another tenant, one has the version 2. -/
theorem createWorkflow_disagrees :
    (∃ v, createWorkflow WorkflowValidator.sortedInterpreter HashDemo.strictPydantic
        HashDemo.sha256 nilUuid (Dict.ofList [("id", .str "wf"), ("tenant_id", .str "tenant-b")])
        "tenant-a" none = .ok v ∧ v.definition.tenantId = some "tenant-b" ∧
          ¬v.Agrees HashDemo.strictPydantic HashDemo.sha256 "tenant-a") ∧
      ∃ v, createWorkflow WorkflowValidator.sortedInterpreter HashDemo.strictPydantic
        HashDemo.sha256 nilUuid
        (Dict.ofList [("id", .str "wf"), ("version", .int 2), ("tenant_id", .str "tenant-a")])
        "tenant-a" none = .ok v ∧ v.version = 1 ∧ v.definition.version = 2 ∧
          ¬v.Agrees HashDemo.strictPydantic HashDemo.sha256 "tenant-a" := by
  constructor
  · refine ⟨_, rfl, rfl, fun hagrees => ?_⟩
    exact absurd hagrees.tenantId (by decide)
  · refine ⟨_, rfl, rfl, rfl, fun hagrees => ?_⟩
    exact absurd hagrees.version (by decide)

end WorkflowService

end RagEval.Workflows
