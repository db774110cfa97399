import RagEval.Workflows.ValidatorCorrect

/-!
# When the validator returns

`validate` promises a list of errors. It raises instead on an override value that a
node's check cannot compare or iterate over, and on an edge with an unknown endpoint:
`_validate_edges` has reported the edge by then, but the topological sort looks the
endpoint up and only its `ValueError` is caught.

## Main results

- `succeeds_validate_iff` — the inputs on which a list is returned, for overrides of any objects
- `validate_total_iff` — the same inputs, with every dangling edge named in the list
- `overrideCheckable_values_iff` — what that asks of overrides from JSON documents
-/

namespace RagEval.Workflows.WorkflowValidator
open RagEval.Lib Outcome RagEval.Lib.Digraph

variable {α : Type}

/-- The first unknown endpoint raises `KeyError`. -/
theorem foldlM_addEdge_raises (es : List WorkflowEdge) {g : Dict String (List String)}
    {d : Dict String Int} (h : ¬∀ e ∈ es, e.fromStep ∈ g.keys ∧ e.toStep ∈ d.keys) :
    ∃ key, es.foldlM WorkflowDefinition.addEdge (g, d) = .error (.keyError key) := by
  induction es generalizing g d with
  | nil => exact absurd (fun e he => nomatch he) h
  | cons e rest ih =>
    rw [List.forall_mem_cons] at h
    rw [List.foldlM_cons]
    cases hout : g.get? e.fromStep with
    | none => exact ⟨e.fromStep, by simp only [WorkflowDefinition.addEdge, getItem, hout]; rfl⟩
    | some out =>
      cases hdegree : d.get? e.toStep with
      | none =>
        exact ⟨e.toStep, by simp only [WorkflowDefinition.addEdge, getItem, hout, hdegree]; rfl⟩
      | some degree =>
        have hfrom : e.fromStep ∈ g.keys := Dict.mem_keys_of_get? hout
        have hto : e.toStep ∈ d.keys := Dict.mem_keys_of_get? hdegree
        obtain ⟨key, hkey⟩ := ih (g := g.set e.fromStep (out ++ [e.toStep]))
          (d := d.set e.toStep (degree + 1)) (by
            rw [Dict.keys_set_of_mem hfrom, Dict.keys_set_of_mem hto]
            exact fun hrest => h ⟨⟨hfrom, hto⟩, hrest⟩)
        exact ⟨key, by
          simp only [WorkflowDefinition.addEdge, getItem, hout, hdegree, ok_bind]
          exact hkey⟩

/-- A dangling edge is a `KeyError` of the sort. -/
theorem getStepOrder_raises {workflow : WorkflowDefinition α} (h : ¬workflow.EdgesKnown) :
    ∃ key, workflow.getStepOrder = .error (.keyError key) := by
  obtain ⟨key, hkey⟩ := foldlM_addEdge_raises workflow.edges
    (g := Dict.ofKeys workflow.stepIds []) (d := Dict.ofKeys workflow.stepIds 0) (by
      simpa only [Dict.mem_keys_ofKeys, WorkflowDefinition.EdgesKnown] using h)
  exact ⟨key, by rw [WorkflowDefinition.getStepOrder, hkey]; rfl⟩

theorem succeeds_cycleErrors_iff (workflow : WorkflowDefinition α) :
    Succeeds (cycleErrors workflow) ↔ workflow.EdgesKnown := by
  constructor
  · rintro ⟨errors, herrors⟩
    by_contra h
    obtain ⟨key, hkey⟩ := getStepOrder_raises h
    rw [cycleErrors, hkey] at herrors
    cases herrors
  · intro h
    obtain ⟨errors, herrors, -⟩ := cycleErrors_ok h
    exact ⟨errors, herrors⟩

/-- The search for unreachable steps returns on any edges. -/
theorem succeeds_unreachableErrors (py : Interpreter α) {workflow : WorkflowDefinition α}
    (hsteps : workflow.steps ≠ []) : Succeeds (unreachableErrors py workflow) := by
  by_cases he : workflow.edges = []
  · exact ⟨[], by rw [unreachableErrors, if_pos he]⟩
  · obtain ⟨first, rest, hcons⟩ := List.exists_cons_of_ne_nil hsteps
    obtain ⟨reachable, hreachable, -⟩ := getReachableSteps_spec workflow hcons
    exact ⟨_, by rw [unreachableErrors, if_neg he, hreachable]; rfl⟩

/-- Each edge with an unknown endpoint is reported under its number. -/
def NamesDanglingEdges (workflow : WorkflowDefinition α) (errors : List String) : Prop :=
  ∀ (i : Nat) (edge : WorkflowEdge), workflow.edges[i]? = some edge →
    (edge.fromStep ∉ workflow.stepIds →
      "Edge " ++ toString i ++ ": Source step '" ++ edge.fromStep ++ "' not found" ∈ errors) ∧
    (edge.toStep ∉ workflow.stepIds →
      "Edge " ++ toString i ++ ": Target step '" ++ edge.toStep ++ "' not found" ∈ errors)

theorem namesDanglingEdges_validateEdges (workflow : WorkflowDefinition α) :
    NamesDanglingEdges workflow (validateEdges workflow) := by
  intro i edge hedge
  have hmem : (edge, i) ∈ workflow.edges.zipIdx := List.mem_zipIdx_iff_getElem?.mpr hedge
  constructor
  · intro hunknown
    refine List.mem_flatMap.mpr ⟨(edge, i), hmem, ?_⟩
    simp [edgeErrors, hunknown]
  · intro hunknown
    refine List.mem_flatMap.mpr ⟨(edge, i), hmem, ?_⟩
    simp [edgeErrors, hunknown]

theorem succeeds_validateConnectivity_iff (py : Interpreter α) (workflow : WorkflowDefinition α) :
    Succeeds (validateConnectivity py workflow) ↔
      workflow.steps = [] ∨ workflow.EdgesKnown := by
  by_cases hsteps : workflow.steps = []
  · simp [validateConnectivity, hsteps]
  · obtain ⟨unreachable, hu⟩ := succeeds_unreachableErrors py hsteps
    rw [validateConnectivity, if_neg hsteps, hu, ok_bind, ← succeeds_cycleErrors_iff]
    constructor
    · rintro ⟨errors, h⟩
      obtain ⟨cycles, hc, -⟩ := bind_ok h
      exact Or.inr ⟨cycles, hc⟩
    · rintro (h | ⟨cycles, hc⟩)
      · exact absurd h hsteps
      · exact ⟨unreachable ++ cycles, by rw [hc]; rfl⟩

variable [PyObject α]

/-- **Totality**: `validate` returns exactly when what the checks ask of the overrides returns and,
unless there are no steps, every edge endpoint is declared. -/
theorem succeeds_validate_iff (py : Interpreter α) (workflow : WorkflowDefinition α) :
    Succeeds (validate py workflow) ↔ (∀ step ∈ workflow.steps, OverrideCheckable py step) ∧
      (workflow.steps = [] ∨ workflow.EdgesKnown) := by
  rw [← succeeds_validateSteps_iff, ← succeeds_validateConnectivity_iff py]
  constructor
  · rintro ⟨errors, h⟩
    obtain ⟨steps, hsteps, h⟩ := bind_ok h
    obtain ⟨connectivity, hconnectivity, -⟩ := bind_ok h
    exact ⟨⟨steps, hsteps⟩, ⟨connectivity, hconnectivity⟩⟩
  · rintro ⟨⟨steps, hsteps⟩, ⟨connectivity, hconnectivity⟩⟩
    exact ⟨_, by rw [validate, hsteps, ok_bind, hconnectivity]; rfl⟩

/-- A returned list contains the errors of the edge check. -/
theorem namesDanglingEdges_of_validate {py : Interpreter α} {workflow : WorkflowDefinition α}
    {errors : List String} (h : validate py workflow = .ok errors) :
    NamesDanglingEdges workflow errors := by
  obtain ⟨steps, -, h⟩ := bind_ok h
  obtain ⟨connectivity, -, h⟩ := bind_ok h
  obtain rfl := Except.ok.inj h
  have hsub : validateEdges workflow ⊆ steps ++ validateEdges workflow ++ connectivity := by
    intro message hmessage
    exact List.mem_append_left _ (List.mem_append_right _ hmessage)
  intro i edge hedge
  obtain ⟨hfrom, hto⟩ := namesDanglingEdges_validateEdges workflow i edge hedge
  exact ⟨fun hunknown => hsub (hfrom hunknown), fun hunknown => hsub (hto hunknown)⟩

/-- Of overrides from JSON documents: the compared values are numbers, the iterated ones iterable,
and the invalid metrics can be displayed. -/
theorem overrideCheckable_values_iff (py : Interpreter) (workflow : WorkflowDefinition) :
    (∀ step ∈ workflow.steps, OverrideCheckable py step) ↔
      WellTypedOverrides workflow ∧ DisplayableOverrides py workflow := by
  have hstep (step : WorkflowStep) : OverrideCheckable py step ↔
      ∀ node, nodeRegistry.get step.implementation = some node →
        node.WellTyped step.configOverride ∧ node.Displayable py step.configOverride := by
    simp only [← WorkflowNode.checkable_iff]
    by_cases hempty : step.configOverride.items = []
    · refine iff_of_true (fun hitems => absurd hempty hitems) fun node _ => ?_
      rw [show step.configOverride = Dict.empty from Dict.ext_items hempty,
        ← node.succeeds_validateConfig_iff]
      exact ⟨[], by cases node <;> rfl⟩
    · exact ⟨fun h => h hempty, fun h _ => h⟩
  simp only [hstep, WellTypedOverrides, DisplayableOverrides, ← forall_and]

/-- `validate` returns a list, one that names every dangling edge, exactly when what the checks ask
of the objects in the overrides returns, and the workflow has no steps or only edges between
declared steps. Of the values of JSON documents the checks ask that the compared ones are numbers
and the iterated ones iterable, and that the invalid metrics can be displayed. -/
theorem validate_total_iff (py : Interpreter α) (workflow : WorkflowDefinition α) :
    ((∃ errors, validate py workflow = .ok errors ∧ NamesDanglingEdges workflow errors) ↔
      (∀ step ∈ workflow.steps, OverrideCheckable py step) ∧
        (workflow.steps = [] ∨ workflow.EdgesKnown)) ∧
    ∀ (json : Interpreter) (workflow : WorkflowDefinition),
      (∀ step ∈ workflow.steps, OverrideCheckable json step) ↔
        WellTypedOverrides workflow ∧ DisplayableOverrides json workflow := by
  refine ⟨?_, overrideCheckable_values_iff⟩
  rw [← succeeds_validate_iff]
  constructor
  · rintro ⟨errors, h, -⟩
    exact ⟨errors, h⟩
  · rintro ⟨errors, h⟩
    exact ⟨errors, h, namesDanglingEdges_of_validate h⟩

/-- A splitter whose chunk size is overridden by a text. -/
def textualChunkSize : WorkflowDefinition where
  id := "test"
  version_pos := Nat.one_pos
  steps := [⟨"split", .chunking, "recursive_text_splitter", none,
    Dict.ofList [("chunk_size", .str "500")], none, none, none, none⟩]

/-- One step, and an edge into a step that is not there. -/
def danglingEdge : WorkflowDefinition where
  id := "test"
  version_pos := Nat.one_pos
  steps := [⟨"generate", .generation, "llm_generation", none, Dict.empty, none, none, none, none⟩]
  edges := [⟨"generate", "missing", none, 0⟩]

theorem validate_raises :
    validate sortedInterpreter textualChunkSize =
        .error (.typeError "'<' not supported between instances of 'str' and 'int'") ∧
      validate sortedInterpreter danglingEdge = .error (.keyError "missing") ∧
      ¬∀ workflow, ∃ errors, validate sortedInterpreter workflow = .ok errors := by
  have htype : validate sortedInterpreter textualChunkSize =
      .error (.typeError "'<' not supported between instances of 'str' and 'int'") := by rfl
  refine ⟨htype, by rfl, fun h => ?_⟩
  obtain ⟨errors, herrors⟩ := h textualChunkSize
  rw [htype] at herrors
  cases herrors

end RagEval.Workflows.WorkflowValidator
