import RagEval.Workflows.CanonicalHash
import RagEval.Workflows.Service
import RagEval.Workflows.ValidatorTotality

/-!
# What acceptance guarantees

The shape of the workflows on which `validate` returns no errors, and of the definitions
`create_workflow` accepts: which of them are connected, which have a step, and that with
edges there is one step to start from.

## Main results

- `connected_iff` — an accepted workflow is connected exactly when it has an edge or no
  second step
- `steps_ne_nil_iff` — an accepted dictionary gives a workflow with a step exactly when it
  has the key `steps`
- `first_step_unique_source` — with edges, the first step is the only source and comes
  first in the step order
-/

namespace RagEval.Workflows
open RagEval.Lib RagEval.Lib.Digraph

/-- Every step is reached from the first declared one along edges. -/
def WorkflowDefinition.Connected (workflow : WorkflowDefinition) : Prop :=
  ∀ first ∈ workflow.steps.head?, ∀ step ∈ workflow.steps,
    Reachable workflow.graph first.id step.id

/-- Steps with distinct ids are told apart by them. -/
theorem WorkflowDefinition.eq_of_id_eq {workflow : WorkflowDefinition}
    (h : workflow.stepIds.Nodup) {s t : WorkflowStep} (hs : s ∈ workflow.steps)
    (ht : t ∈ workflow.steps) (hid : s.id = t.id) : s = t :=
  List.inj_on_of_nodup_map h hs ht hid

namespace WorkflowValidator

/-- No error is reported, so no edge dangles. -/
theorem edgesKnown_of_accepted {py : Interpreter} {workflow : WorkflowDefinition}
    (h : validate py workflow = .ok []) : workflow.EdgesKnown := by
  have hnamed := namesDanglingEdges_of_validate h
  intro e he
  obtain ⟨i, hi⟩ := List.mem_iff_getElem?.mp he
  obtain ⟨hfrom, hto⟩ := hnamed i e hi
  constructor
  · by_contra hunknown
    exact List.not_mem_nil (hfrom hunknown)
  · by_contra hunknown
    exact List.not_mem_nil (hto hunknown)

theorem valid_of_accepted {py : Interpreter} {workflow : WorkflowDefinition}
    (h : validate py workflow = .ok []) : Valid py workflow :=
  (validate_eq_nil_iff (edgesKnown_of_accepted h)).mp h

/-- Without edges a step reaches itself only. -/
theorem reachable_of_no_edges {workflow : WorkflowDefinition} (h : workflow.edges = [])
    {u v : String} : Reachable workflow.graph u v ↔ u = v := by
  constructor
  · intro huv
    rcases Relation.ReflTransGen.cases_tail huv with rfl | ⟨w, -, hw⟩
    · rfl
    · simp [Adj, WorkflowDefinition.graph, h] at hw
  · rintro rfl
    exact .refl

/-- An accepted workflow is connected exactly when it has an edge, in which case its steps
were searched, or has no second step. -/
theorem connected_iff (py : Interpreter) (workflow : WorkflowDefinition)
    (h : validate py workflow = .ok []) :
    workflow.Connected ↔ workflow.edges ≠ [] ∨ workflow.steps.length ≤ 1 := by
  have hvalid := valid_of_accepted h
  constructor
  · intro hconn
    by_contra hno
    push Not at hno
    obtain ⟨hedges, hlen⟩ := hno
    match hsteps : workflow.steps with
    | [] => simp [hsteps] at hlen
    | [_] => simp [hsteps] at hlen
    | first :: second :: rest =>
      have hreach := hconn first (by simp [hsteps]) second (by simp [hsteps])
      have hid : first.id = second.id := (reachable_of_no_edges hedges).mp hreach
      have hdistinct := hvalid.distinct
      rw [WorkflowDefinition.stepIds, hsteps, List.map_cons, List.nodup_cons] at hdistinct
      exact hdistinct.1 (by simp [hid])
  · rintro (hedges | hlen)
    · exact hvalid.connected hedges
    · intro first hfirst step hstep
      obtain ⟨rest, hsteps⟩ := List.head?_eq_some_iff.mp hfirst
      obtain rfl : rest = [] := by
        rw [hsteps, List.length_cons] at hlen
        exact List.length_eq_zero_iff.mp (by omega)
      rw [hsteps, List.mem_singleton] at hstep
      rw [hstep]
      exact .refl

/-- Two steps and nothing between them. -/
def unconnected : WorkflowDefinition where
  id := "test"
  version_pos := Nat.one_pos
  steps := [
    ⟨"generate", .generation, "llm_generation", none, Dict.empty, none, none, none, none⟩,
    ⟨"rerank", .reranking, "cross_encoder_reranker", none, Dict.empty, none, none, none, none⟩]

theorem accepted_unconnected :
    validate sortedInterpreter unconnected = .ok [] ∧ ¬unconnected.Connected := by
  refine ⟨by rfl, fun hconn => ?_⟩
  have hreach := hconn _ rfl _ (List.mem_cons_of_mem _ (List.mem_singleton_self _))
  exact absurd ((reachable_of_no_edges rfl).mp hreach) (by decide)

theorem connected_iff_splitThenEmbed : splitThenEmbed.Connected :=
  (connected_iff sortedInterpreter splitThenEmbed (by rfl)).mpr
    (Or.inl (List.cons_ne_nil _ _))

/-- The first step of a valid workflow has no incoming edge: it would close a cycle. -/
theorem first_not_target {py : Interpreter} {workflow : WorkflowDefinition}
    (hvalid : Valid py workflow) (hknown : workflow.EdgesKnown) (hedges : workflow.edges ≠ [])
    {first : WorkflowStep} (hfirst : workflow.steps.head? = some first) :
    ∀ e ∈ workflow.edges, e.toStep ≠ first.id := by
  intro e he hto
  obtain ⟨source, hsource, hid⟩ := List.mem_map.mp (hknown e he).1
  have hreach := hvalid.connected hedges first hfirst source hsource
  have hadj : Adj workflow.graph source.id first.id :=
    WorkflowDefinition.mem_graph.mpr ⟨e, he, hid.symm, hto⟩
  exact hvalid.acyclic first.id (Relation.TransGen.tail' hreach hadj)

/-- Any other step of a valid workflow with edges has one. -/
theorem exists_incoming {py : Interpreter} {workflow : WorkflowDefinition}
    (hvalid : Valid py workflow) (hedges : workflow.edges ≠ []) {first step : WorkflowStep}
    (hfirst : workflow.steps.head? = some first) (hstep : step ∈ workflow.steps)
    (hne : step ≠ first) : ∃ e ∈ workflow.edges, e.toStep = step.id := by
  have hreach := hvalid.connected hedges first hfirst step hstep
  rcases Relation.ReflTransGen.cases_tail hreach with hid | ⟨u, -, hadj⟩
  · have hmem : first ∈ workflow.steps := List.mem_of_mem_head? hfirst
    exact absurd (WorkflowDefinition.eq_of_id_eq hvalid.distinct hstep hmem hid) hne
  · obtain ⟨e, he, -, hto⟩ := WorkflowDefinition.mem_graph.mp hadj
    exact ⟨e, he, hto⟩

/-- What comes first in a sorted order is no target. -/
theorem head_not_target {edges : List (String × String)} {head : String} {rest : List String}
    (h : Sorted edges (head :: rest)) (u : String) : (u, head) ∉ edges := by
  intro he
  have hlt := h u head he
  rw [List.idxOf_cons_self] at hlt
  exact Nat.not_lt_zero _ hlt

/-- In an accepted workflow with edges the first declared step is the only one without an
incoming edge, and the step order starts with it. -/
theorem first_step_unique_source (py : Interpreter) (workflow : WorkflowDefinition)
    (hedges : workflow.edges ≠ []) (h : validate py workflow = .ok []) :
    ∃ first, workflow.steps.head? = some first ∧
      (∀ step ∈ workflow.steps, (∀ e ∈ workflow.edges, e.toStep ≠ step.id) ↔ step = first) ∧
      ∃ rest, workflow.getStepOrder = .ok (first.id :: rest) := by
  have hvalid := valid_of_accepted h
  have hknown := edgesKnown_of_accepted h
  obtain ⟨e, he⟩ := List.exists_mem_of_ne_nil _ hedges
  obtain ⟨source, hsource, -⟩ := List.mem_map.mp (hknown e he).1
  obtain ⟨first, hfirst⟩ : ∃ first, workflow.steps.head? = some first := by
    obtain ⟨first, others, hcons⟩ := List.exists_cons_of_ne_nil (List.ne_nil_of_mem hsource)
    exact ⟨first, by rw [hcons]; rfl⟩
  have hunique : ∀ step ∈ workflow.steps,
      (∀ e ∈ workflow.edges, e.toStep ≠ step.id) ↔ step = first := by
    intro step hstep
    constructor
    · intro hnone
      by_contra hne
      obtain ⟨e', he', hto⟩ := exists_incoming hvalid hedges hfirst hstep hne
      exact hnone e' he' hto
    · rintro rfl
      exact first_not_target hvalid hknown hedges hfirst
  refine ⟨first, hfirst, hunique, ?_⟩
  obtain ⟨hreturns, -, hspec⟩ := WorkflowDefinition.getStepOrder_correct workflow hknown
  obtain ⟨order, horder⟩ := hreturns.mpr ⟨hvalid.distinct, hvalid.acyclic⟩
  obtain ⟨-, hids, hsorted⟩ := hspec order horder
  cases order with
  | nil =>
    have := (hids source.id).mpr (List.mem_map_of_mem hsource)
    exact absurd this List.not_mem_nil
  | cons head rest =>
    obtain ⟨step, hstep, rfl⟩ := List.mem_map.mp ((hids head).mp List.mem_cons_self)
    have hnone : ∀ e ∈ workflow.edges, e.toStep ≠ step.id := by
      intro e' he' hto
      exact head_not_target hsorted e'.fromStep
        (WorkflowDefinition.mem_graph.mpr ⟨e', he', rfl, hto⟩)
    rw [(hunique step hstep).mp hnone] at horder
    exact ⟨rest, horder⟩

theorem first_step_unique_source_splitThenEmbed :
    splitThenEmbed.edges ≠ [] ∧ validate sortedInterpreter splitThenEmbed = .ok [] ∧
      ∃ first, splitThenEmbed.steps.head? = some first ∧
        ∃ rest, splitThenEmbed.getStepOrder = .ok (first.id :: rest) := by
  have hedges : splitThenEmbed.edges ≠ [] := List.cons_ne_nil _ _
  have hrun : validate sortedInterpreter splitThenEmbed = .ok [] := by rfl
  obtain ⟨first, hfirst, -, horder⟩ :=
    first_step_unique_source sortedInterpreter splitThenEmbed hedges hrun
  exact ⟨hedges, hrun, first, hfirst, horder⟩

end WorkflowValidator

namespace WorkflowService

/-- The steps of a definition with the key are validated, those of one without are the
default. -/
theorem modelValidate_steps_ne_nil_iff {pd : Pydantic} {definition : Dict String Value}
    {workflow : WorkflowDefinition}
    (h : WorkflowDefinition.modelValidate pd definition = .ok workflow) :
    workflow.steps ≠ [] ↔ "steps" ∈ definition.keys := by
  have hsteps := WorkflowDefinition.modelValidate_steps h
  rw [optional] at hsteps
  rw [Dict.mem_keys_iff, Dict.get?]
  cases hget : Assoc.get "steps" definition.items with
  | none =>
    rw [hget] at hsteps
    rw [← Except.ok.inj hsteps]
    simp
  | some v =>
    rw [hget] at hsteps
    exact ⟨fun _ => ⟨v, rfl⟩,
      fun _ => (WorkflowDefinition.readSteps_ok (Validated.located_ok hsteps)).2⟩

/-- What `create_workflow` makes of an accepted dictionary has a step exactly when the
dictionary has the key `steps`: the field validator does not see the default, and the
validator has nothing to object to in an empty workflow. -/
theorem steps_ne_nil_iff (py : Interpreter) (pd : Pydantic) (sha256 : String → String) (id : UUID)
    (definition : Dict String Value) (tenantId : String) (createdBy : Option String)
    (v : WorkflowVersion)
    (h : createWorkflow py pd sha256 id definition tenantId createdBy = .ok v) :
    v.definition.steps ≠ [] ↔ "steps" ∈ definition.keys := by
  obtain ⟨workflowDef, hash, haccepted, rfl⟩ := createWorkflow_ok_iff.mp h
  exact modelValidate_steps_ne_nil_iff haccepted.modelValidate

/-- A definition with nothing but an id. -/
def bareDefinition : Dict String Value := Dict.ofList [("id", .str "wf")]

theorem createWorkflow_bareDefinition :
    ∃ v, createWorkflow WorkflowValidator.sortedInterpreter HashDemo.strictPydantic HashDemo.sha256
        nilUuid bareDefinition "default" none = .ok v ∧ v.definition.steps = [] :=
  ⟨_, rfl, rfl⟩

theorem steps_ne_nil_iff_byAlias :
    ∃ v, createWorkflow WorkflowValidator.sortedInterpreter HashDemo.strictPydantic HashDemo.sha256
        nilUuid HashDemo.byAlias "default" none = .ok v ∧ v.definition.steps ≠ [] := by
  obtain ⟨v, hv⟩ : ∃ v, createWorkflow WorkflowValidator.sortedInterpreter HashDemo.strictPydantic
      HashDemo.sha256 nilUuid HashDemo.byAlias "default" none = .ok v := ⟨_, rfl⟩
  exact ⟨v, hv, (steps_ne_nil_iff _ _ _ _ HashDemo.byAlias _ _ v hv).mpr (by decide)⟩

end WorkflowService

end RagEval.Workflows
