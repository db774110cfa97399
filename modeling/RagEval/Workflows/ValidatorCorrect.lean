import Mathlib.Data.Finset.Sort
import Mathlib.Data.String.Basic
import RagEval.Workflows.Reachability
import RagEval.Workflows.StepOrder

/-!
# What the validator decides

`validate` returns no errors exactly on the workflows with distinct ids,
registered implementations, accepted overrides, acyclic edges and, when there are
edges, every step reachable from the first one.
-/

namespace RagEval.Workflows.WorkflowValidator
open RagEval.Lib Outcome RagEval.Lib.Digraph

/-- The override values are of the types the checks of the step's node compare. -/
def WellTypedOverrides (workflow : WorkflowDefinition) : Prop :=
  ∀ step ∈ workflow.steps, ∀ node, nodeRegistry.get step.implementation = some node →
    node.WellTyped step.configOverride

/-- The invalid metrics of the overrides can be displayed. -/
def DisplayableOverrides (py : Interpreter) (workflow : WorkflowDefinition) : Prop :=
  ∀ step ∈ workflow.steps, ∀ node, nodeRegistry.get step.implementation = some node →
    node.Displayable py step.configOverride

section AnyObjects

variable {α : Type}

/-- With known endpoints only self-loops are reported. -/
theorem validateEdges_eq_nil_iff {workflow : WorkflowDefinition α} (h : workflow.EdgesKnown) :
    validateEdges workflow = [] ↔ ∀ e ∈ workflow.edges, e.fromStep ≠ e.toStep := by
  rw [validateEdges, List.flatMap_eq_nil_iff]
  constructor
  · intro hall e he
    obtain ⟨i, hi, rfl⟩ := List.mem_iff_getElem.mp he
    have := hall (workflow.edges[i], i) (List.mem_zipIdx_iff_getElem?.mpr (by simp [hi]))
    simp only [edgeErrors, List.append_eq_nil_iff, ite_eq_right_iff] at this
    exact fun hloop => List.cons_ne_nil _ _ (this.2 hloop)
  · rintro hall ⟨e, i⟩ hmem
    have he := List.fst_mem_of_mem_zipIdx hmem
    simp [edgeErrors, h e he, hall e he]

theorem declaredAdj_iff {workflow : WorkflowDefinition α} (h : workflow.EdgesKnown) (u v : String) :
    DeclaredAdj workflow u v ↔ Adj workflow.graph u v :=
  ⟨fun huv => huv.2, fun huv => ⟨(h.mem huv).1, huv⟩⟩

/-- With known endpoints the cycle check never raises. -/
theorem cycleErrors_ok {workflow : WorkflowDefinition α} (h : workflow.EdgesKnown) :
    ∃ errors, cycleErrors workflow = .ok errors ∧
      (errors = [] ↔ workflow.stepIds.Nodup ∧ Acyclic workflow.graph) := by
  rcases WorkflowDefinition.getStepOrder_cases h with ⟨order, hok, hvalid, -⟩ | ⟨herr, hinvalid⟩
  · exact ⟨[], by simp only [cycleErrors, hok], by simp [hvalid]⟩
  · exact ⟨["Workflow contains cycles"], by simp only [cycleErrors, herr], by simp [hinvalid]⟩

theorem unreachableErrors_ok (py : Interpreter α) {workflow : WorkflowDefinition α}
    (h : workflow.EdgesKnown) {first : WorkflowStep α} {rest : List (WorkflowStep α)}
    (hsteps : workflow.steps = first :: rest) :
    ∃ errors, unreachableErrors py workflow = .ok errors ∧
      (errors = [] ↔ (workflow.edges ≠ [] → ∀ step ∈ workflow.steps,
        Reachable workflow.graph first.id step.id)) := by
  by_cases he : workflow.edges = []
  · exact ⟨[], by simp [unreachableErrors, he], by simp [he]⟩
  · obtain ⟨reachable, hr, hmem⟩ := getReachableSteps_spec workflow hsteps
    have hadj : DeclaredAdj workflow = Adj workflow.graph := by
      funext u v
      exact propext (declaredAdj_iff h u v)
    refine ⟨_, by simp only [unreachableErrors, if_neg he, hr, bind, Except.bind, pure,
      Except.pure]; rfl, ?_⟩
    have hsub : workflow.stepIds.toFinset \ reachable = ∅ ↔
        ∀ step ∈ workflow.steps, Reachable workflow.graph first.id step.id := by
      simp only [Finset.sdiff_eq_empty_iff_subset, Finset.subset_iff, List.mem_toFinset, hmem, hadj,
        WorkflowDefinition.stepIds, List.forall_mem_map]
      rfl
    rw [← hsub]
    simp [he]

theorem validateConnectivity_ok (py : Interpreter α) {workflow : WorkflowDefinition α}
    (h : workflow.EdgesKnown) :
    ∃ errors, validateConnectivity py workflow = .ok errors ∧
      (errors = [] ↔ (workflow.stepIds.Nodup ∧ Acyclic workflow.graph) ∧
        (workflow.edges ≠ [] → ∀ first ∈ workflow.steps.head?, ∀ step ∈ workflow.steps,
          Reachable workflow.graph first.id step.id)) := by
  cases hsteps : workflow.steps with
  | nil =>
    have hids : workflow.stepIds = [] := by simp [WorkflowDefinition.stepIds, hsteps]
    have hedges : workflow.edges = [] := by
      refine List.eq_nil_iff_forall_not_mem.mpr fun e he => ?_
      have := (h e he).1
      simp [hids] at this
    have hacyc : Acyclic workflow.graph := by
      intro v hv
      obtain ⟨u, hu, -⟩ := Relation.TransGen.tail'_iff.mp hv |>.imp fun u hu => And.comm.mp hu
      simp [Adj, WorkflowDefinition.graph, hedges] at hu
    exact ⟨[], by simp [validateConnectivity, hsteps], by simp [hids, hacyc]⟩
  | cons first rest =>
    obtain ⟨unreachable, hu, hunil⟩ := unreachableErrors_ok py h hsteps
    obtain ⟨cycles, hc, hcnil⟩ := cycleErrors_ok h
    refine ⟨unreachable ++ cycles, ?_, ?_⟩
    · simp [validateConnectivity, hsteps, hu, hc, bind, Except.bind, pure, Except.pure]
    · rw [List.append_eq_nil_iff, hunil, hcnil, hsteps]
      simp [and_comm]

variable [PyObject α]

/-- What the checks of the step's node ask of the objects in a nonempty override returns. -/
def OverrideCheckable (py : Interpreter α) (step : WorkflowStep α) : Prop :=
  step.configOverride.items ≠ [] → ∀ node, nodeRegistry.get step.implementation = some node →
    node.Checkable py step.configOverride

/-- A nonempty override passes the checks of the step's node. -/
def OverrideAccepted (py : Interpreter α) (step : WorkflowStep α) : Prop :=
  step.configOverride.items ≠ [] → ∀ node, nodeRegistry.get step.implementation = some node →
    node.validateConfig py step.configOverride = .ok []

/-- The properties a valid workflow has. -/
structure Valid (py : Interpreter α) (workflow : WorkflowDefinition α) : Prop where
  distinct : workflow.stepIds.Nodup
  registered : ∀ step ∈ workflow.steps, nodeRegistry.has step.implementation = true
  accepted : ∀ step ∈ workflow.steps, OverrideAccepted py step
  acyclic : Acyclic workflow.graph
  connected : workflow.edges ≠ [] → ∀ first ∈ workflow.steps.head?, ∀ step ∈ workflow.steps,
    Reachable workflow.graph first.id step.id

/-- An override that passes its checks can be checked. -/
theorem OverrideAccepted.checkable {py : Interpreter α} {step : WorkflowStep α}
    (h : OverrideAccepted py step) : OverrideCheckable py step := by
  intro hitems node hnode
  exact (node.succeeds_validateConfig_iff py _).mp ⟨[], h hitems node hnode⟩

/-- Spec of one round of the step loop on an override that can be checked. -/
theorem validateStep_ok (seen : Finset String) (errors : List String) {py : Interpreter α}
    {step : WorkflowStep α} (hcheckable : OverrideCheckable py step) :
    ∃ new, validateStep py (seen, errors) step = .ok (insert step.id seen, errors ++ new) ∧
      (new = [] ↔ step.id ∉ seen ∧ nodeRegistry.has step.implementation = true ∧
        OverrideAccepted py step) := by
  cases hnode : nodeRegistry.get step.implementation with
  | none =>
    have hhas : nodeRegistry.has step.implementation = false := by
      rw [Bool.eq_false_iff, ne_eq, NodeRegistry.has_iff, hnode]
      simp
    refine ⟨_, by simp only [validateStep, hnode, hhas, pure, Except.pure, bind, Except.bind,
      List.append_assoc]; rfl, ?_⟩
    simp [hhas]
  | some node =>
    have hhas : nodeRegistry.has step.implementation = true :=
      (NodeRegistry.has_iff _ _).mpr ⟨node, hnode⟩
    by_cases hempty : step.configOverride.items = []
    · refine ⟨_, by simp only [validateStep, hnode, hhas, hempty, if_true, pure, Except.pure, bind,
        Except.bind, List.append_assoc]; rfl, ?_⟩
      simp [OverrideAccepted, hempty, hhas]
    · obtain ⟨errs, herrs⟩ :=
        (node.succeeds_validateConfig_iff py _).mpr (hcheckable hempty node hnode)
      refine ⟨_, by simp only [validateStep, hnode, hhas, if_neg hempty, herrs, if_true, pure,
        Except.pure, bind, Except.bind, List.append_assoc]; rfl, ?_⟩
      simp [OverrideAccepted, hempty, hnode, hhas, herrs]

/-- A round that returns has met an override that can be checked. -/
theorem checkable_of_validateStep {py : Interpreter α} {acc acc' : Finset String × List String}
    {step : WorkflowStep α} (h : validateStep py acc step = .ok acc') :
    OverrideCheckable py step := by
  intro hitems node hnode
  simp only [validateStep, hnode, if_neg hitems] at h
  obtain ⟨errors, herrors, -⟩ := bind_ok h
  exact (node.succeeds_validateConfig_iff py _).mp ⟨errors, herrors⟩

theorem foldlM_validateStep (steps : List (WorkflowStep α)) (seen : Finset String)
    (errors : List String) {py : Interpreter α}
    (hcheckable : ∀ step ∈ steps, OverrideCheckable py step) :
    ∃ seen' new, steps.foldlM (validateStep py) (seen, errors) = .ok (seen', errors ++ new) ∧
      (new = [] ↔ ((steps.map WorkflowStep.id).Nodup ∧ ∀ step ∈ steps, step.id ∉ seen) ∧
        ∀ step ∈ steps, nodeRegistry.has step.implementation = true ∧ OverrideAccepted py step) := by
  induction steps generalizing seen errors with
  | nil => exact ⟨seen, [], by simp [pure, Except.pure], by simp⟩
  | cons step rest ih =>
    rw [List.forall_mem_cons] at hcheckable
    obtain ⟨new, hr, hnew⟩ := validateStep_ok seen errors hcheckable.1
    obtain ⟨seen', new', hr', hnew'⟩ := ih (insert step.id seen) (errors ++ new) hcheckable.2
    refine ⟨seen', new ++ new', ?_, ?_⟩
    · rw [List.foldlM_cons, hr]
      simpa [bind, Except.bind] using hr'
    · rw [List.append_eq_nil_iff, hnew, hnew']
      simp only [List.map_cons, List.nodup_cons, List.forall_mem_cons, Finset.mem_insert, not_or,
        List.mem_map, not_exists, not_and]
      constructor
      · rintro ⟨⟨hseen, hreg, hacc⟩, ⟨hnd, hids⟩, hall⟩
        exact ⟨⟨⟨fun s hs => (hids s hs).1, hnd⟩, hseen, fun s hs => (hids s hs).2⟩,
          ⟨hreg, hacc⟩, hall⟩
      · rintro ⟨⟨⟨hne, hnd⟩, hseen, hids⟩, ⟨hreg, hacc⟩, hall⟩
        exact ⟨⟨hseen, hreg, hacc⟩, ⟨hnd, fun s hs => ⟨hne s hs, hids s hs⟩⟩, hall⟩

theorem checkable_of_foldlM {py : Interpreter α} {steps : List (WorkflowStep α)}
    {acc acc' : Finset String × List String}
    (h : steps.foldlM (validateStep py) acc = .ok acc') :
    ∀ step ∈ steps, OverrideCheckable py step := by
  induction steps generalizing acc with
  | nil => simp
  | cons step rest ih =>
    rw [List.foldlM_cons] at h
    obtain ⟨acc₁, hstep, hrest⟩ := bind_ok h
    rw [List.forall_mem_cons]
    exact ⟨checkable_of_validateStep hstep, ih hrest⟩

theorem validateSteps_ok {py : Interpreter α} {workflow : WorkflowDefinition α}
    (hcheckable : ∀ step ∈ workflow.steps, OverrideCheckable py step) :
    ∃ errors, validateSteps py workflow = .ok errors ∧
      (errors = [] ↔ workflow.stepIds.Nodup ∧ ∀ step ∈ workflow.steps,
        nodeRegistry.has step.implementation = true ∧ OverrideAccepted py step) := by
  obtain ⟨seen, errors, hr, hnil⟩ := foldlM_validateStep workflow.steps ∅ [] hcheckable
  refine ⟨errors, ?_, ?_⟩
  · simp [validateSteps, hr, bind, Except.bind, pure, Except.pure]
  · simpa [WorkflowDefinition.stepIds] using hnil

/-- The step loop returns exactly if the overrides can be checked. -/
theorem succeeds_validateSteps_iff (py : Interpreter α) (workflow : WorkflowDefinition α) :
    Succeeds (validateSteps py workflow) ↔ ∀ step ∈ workflow.steps, OverrideCheckable py step := by
  constructor
  · rintro ⟨errors, h⟩
    obtain ⟨acc, hacc, -⟩ := bind_ok h
    exact checkable_of_foldlM hacc
  · intro h
    obtain ⟨errors, herrors, -⟩ := validateSteps_ok h
    exact ⟨errors, herrors⟩

/-- On overrides that can be checked the validator returns, with an empty list exactly on the valid
workflows. -/
theorem validate_ok {py : Interpreter α} {workflow : WorkflowDefinition α}
    (hedges : workflow.EdgesKnown)
    (hcheckable : ∀ step ∈ workflow.steps, OverrideCheckable py step) :
    ∃ errors, validate py workflow = .ok errors ∧ (errors = [] ↔ Valid py workflow) := by
  obtain ⟨steps, hs, hsnil⟩ := validateSteps_ok hcheckable
  obtain ⟨connectivity, hc, hcnil⟩ := validateConnectivity_ok py hedges
  refine ⟨steps ++ validateEdges workflow ++ connectivity,
    by simp only [validate, hs, hc, bind, Except.bind, pure, Except.pure], ?_⟩
  rw [List.append_eq_nil_iff, List.append_eq_nil_iff, hsnil, hcnil,
    validateEdges_eq_nil_iff hedges]
  constructor
  · rintro ⟨⟨⟨hdist, hsteps⟩, -⟩, ⟨-, hacyc⟩, hconn⟩
    exact ⟨hdist, fun s hs => (hsteps s hs).1, fun s hs => (hsteps s hs).2, hacyc, hconn⟩
  · rintro ⟨hdist, hreg, hacc, hacyc, hconn⟩
    -- acyclic edges contain no self-loop, so the edge check adds nothing
    refine ⟨⟨⟨hdist, fun s hs => ⟨hreg s hs, hacc s hs⟩⟩, ?_⟩, ⟨hdist, hacyc⟩, hconn⟩
    intro e he hloop
    refine hacyc.irrefl e.fromStep (WorkflowDefinition.mem_graph.mpr ⟨e, he, rfl, hloop.symm⟩)

/-- On a constructed definition the list is empty exactly on the valid workflows: a run that
raises on some override finds the workflow neither valid nor without errors. -/
theorem validate_eq_nil_iff {py : Interpreter α} {workflow : WorkflowDefinition α}
    (hedges : workflow.EdgesKnown) : validate py workflow = .ok [] ↔ Valid py workflow := by
  by_cases hcheckable : ∀ step ∈ workflow.steps, OverrideCheckable py step
  · obtain ⟨errors, hrun, hnil⟩ := validate_ok hedges hcheckable
    rw [hrun, Except.ok.injEq, hnil]
  · refine iff_of_false (fun hrun => ?_) fun hvalid => ?_
    · obtain ⟨steps, hsteps, -⟩ := bind_ok hrun
      exact hcheckable ((succeeds_validateSteps_iff py workflow).mp ⟨steps, hsteps⟩)
    · exact hcheckable fun step hstep => (hvalid.accepted step hstep).checkable

end AnyObjects

/-- **The validator is a decision procedure**: on a constructed definition with well-typed
overrides the list is empty exactly on the valid workflows, and a list is returned wherever the
metrics it must name can be displayed. -/
theorem validate_correct (py : Interpreter) (workflow : WorkflowDefinition)
    (hedges : workflow.EdgesKnown) (htypes : WellTypedOverrides workflow) :
    (DisplayableOverrides py workflow → ∃ errors, validate py workflow = .ok errors) ∧
      (validate py workflow = .ok [] ↔ Valid py workflow) := by
  refine ⟨fun hshown => ?_, validate_eq_nil_iff hedges⟩
  have hcheckable : ∀ step ∈ workflow.steps, OverrideCheckable py step := by
    intro step hstep _ node hnode
    exact (node.checkable_iff py _).mpr ⟨htypes step hstep node hnode, hshown step hstep node hnode⟩
  obtain ⟨errors, hrun, -⟩ := validate_ok hedges hcheckable
  exact ⟨errors, hrun⟩

/-- An interpreter that iterates a set in the reverse order of its strings. -/
def sortedInterpreter : Interpreter where
  reprList values := .ok ("[" ++ ", ".intercalate (values.map fun
    | .str s => "'" ++ s ++ "'"
    | _ => "...") ++ "]")
  iterSet s := s.sort (· ≥ ·)
  mem_iterSet _ _ := Finset.mem_sort (· ≥ ·)

/-- A splitter with an overridden chunk size in front of an embedder. -/
def splitThenEmbed : WorkflowDefinition where
  id := "test"
  version_pos := Nat.one_pos
  steps := [
    ⟨"split", .chunking, "recursive_text_splitter", none, Dict.ofList [("chunk_size", .int 500)],
      none, none, none, none⟩,
    ⟨"embed", .embedding, "openai_embedding", none, Dict.empty, none, none, none, none⟩]
  edges := [⟨"split", "embed", none, 0⟩]

theorem validate_correct_splitThenEmbed :
    validate sortedInterpreter splitThenEmbed = .ok [] ∧
      Valid sortedInterpreter splitThenEmbed := by
  have hrun : validate sortedInterpreter splitThenEmbed = .ok [] := by rfl
  refine ⟨hrun, (validate_correct sortedInterpreter splitThenEmbed (by decide) ?_).2.mp hrun⟩
  simp only [WellTypedOverrides, splitThenEmbed, List.forall_mem_cons]
  refine ⟨?_, ?_, by simp⟩
  · intro node hnode
    obtain rfl : WorkflowNode.recursiveTextSplitter = node := Option.some.inj hnode
    refine ⟨?_, by simp [WorkflowNode.iteratedKeys]⟩
    simp only [WorkflowNode.comparedKeys, List.forall_mem_cons]
    refine ⟨fun v hv => ?_, fun v hv => (by cases hv), by simp⟩
    obtain rfl : Value.int 500 = v := Option.some.inj hv
    rfl
  · intro node hnode
    obtain rfl : WorkflowNode.openaiEmbedding = node := Option.some.inj hnode
    refine ⟨?_, by simp [WorkflowNode.iteratedKeys]⟩
    simp only [WorkflowNode.comparedKeys, List.forall_mem_cons]
    exact ⟨fun v hv => (by cases hv), by simp⟩

end RagEval.Workflows.WorkflowValidator
