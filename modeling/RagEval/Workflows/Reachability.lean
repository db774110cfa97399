import RagEval.Workflows.Validator

/-!
# Correctness of the reachability search

`_get_reachable_steps` returns the ids reachable from the first step along the
edges with a declared source, for any edges. A visited id leaves its out-edges
to the queue, so the queue and the edges of unvisited ids together shrink by one
each round.
-/

namespace RagEval.Workflows.WorkflowValidator
open RagEval.Lib RagEval.Lib.Digraph

variable {α : Type}

/-- One edge whose source is a declared step. -/
def DeclaredAdj (workflow : WorkflowDefinition α) (u v : String) : Prop :=
  u ∈ workflow.stepIds ∧ (u, v) ∈ workflow.graph

theorem get?_foldl_addKnownEdge (es : List WorkflowEdge) (g : Dict String (List String))
    (v : String) :
    (es.foldl addKnownEdge g).get? v =
      (g.get? v).map (· ++ targets (es.map WorkflowEdge.pair) v) := by
  induction es generalizing g with
  | nil => cases h : g.get? v <;> simp [targets, h]
  | cons e rest ih =>
    rw [List.foldl_cons, ih, List.map_cons, WorkflowEdge.pair, targets_cons, addKnownEdge]
    by_cases he : e.fromStep = v
    · subst he
      cases hg : g.get? e.fromStep <;> simp [hg]
    · cases hg : g.get? e.fromStep with
      | none => simp [he]
      | some out => simp [he]

/-- The adjacency lists the search reads. -/
theorem getD_adjacency (workflow : WorkflowDefinition α) (u v : String) :
    v ∈ (workflow.edges.foldl addKnownEdge (Dict.ofKeys workflow.stepIds [])).getD u [] ↔
      DeclaredAdj workflow u v := by
  rw [Dict.getD, get?_foldl_addKnownEdge, Dict.get?_ofKeys, DeclaredAdj, ← mem_targets,
    WorkflowDefinition.graph]
  by_cases hu : u ∈ workflow.stepIds <;> simp [hu]

theorem length_adjacency_le (workflow : WorkflowDefinition α) (u : String) :
    ((workflow.edges.foldl addKnownEdge (Dict.ofKeys workflow.stepIds [])).getD u []).length ≤
      workflow.graph.countP (fun e => e.1 = u) := by
  rw [Dict.getD, get?_foldl_addKnownEdge, Dict.get?_ofKeys]
  by_cases hu : u ∈ workflow.stepIds
  · simp [hu, targets, WorkflowDefinition.graph, List.countP_eq_length_filter]
  · simp [hu]

/-- Edges whose source is not visited yet. -/
def unvisitedEdges (edges : List (String × String)) (reachable : Finset String) : Nat :=
  edges.countP (fun e => e.1 ∉ reachable)

theorem unvisitedEdges_insert (edges : List (String × String)) {reachable : Finset String}
    {c : String} (hc : c ∉ reachable) :
    unvisitedEdges edges (insert c reachable) + edges.countP (fun e => e.1 = c) =
      unvisitedEdges edges reachable := by
  induction edges with
  | nil => rfl
  | cons e rest ih =>
    simp only [unvisitedEdges, List.countP_cons, Finset.mem_insert, decide_eq_true_eq] at ih ⊢
    by_cases he : e.1 = c
    · simp only [he, hc, true_or, not_true_eq_false, not_false_eq_true, if_true, if_false]
      omega
    · by_cases hr : e.1 ∈ reachable
      · simp only [he, hr, or_true, not_true_eq_false, if_false]
        omega
      · simp only [he, hr, or_self, not_false_eq_true, if_true, if_false]
        omega

/-- The invariant of the search from `start`: visited and queued ids are reachable,
the start is among them, and so are the successors of visited ids. -/
structure BfsInv (workflow : WorkflowDefinition α) (start : String) (s : BfsState) : Prop where
  sound : ∀ v, v ∈ s.reachable ∨ v ∈ s.queue → Relation.ReflTransGen (DeclaredAdj workflow) start v
  start_mem : start ∈ s.reachable ∨ start ∈ s.queue
  closed : ∀ u ∈ s.reachable, ∀ v, DeclaredAdj workflow u v → v ∈ s.reachable ∨ v ∈ s.queue

theorem BfsInv.round {workflow : WorkflowDefinition α} {start : String} {s : BfsState}
    (h : BfsInv workflow start s) (hq : s.queue ≠ []) :
    ∃ s', bfsRound (workflow.edges.foldl addKnownEdge (Dict.ofKeys workflow.stepIds [])) s = .ok s' ∧
      BfsInv workflow start s' ∧
      s'.queue.length + unvisitedEdges workflow.graph s'.reachable <
        s.queue.length + unvisitedEdges workflow.graph s.reachable := by
  obtain ⟨reachable, queue⟩ := s
  cases queue with
  | nil => exact absurd rfl hq
  | cons c rest =>
    obtain ⟨hsound, hstart, hclosed⟩ := h
    simp only [List.mem_cons] at hsound hstart hclosed
    by_cases hc : c ∈ reachable
    · refine ⟨⟨reachable, rest⟩, by simp only [bfsRound, if_pos hc], ⟨?_, ?_, ?_⟩, by simp⟩
      · intro v hv
        exact hsound v (hv.imp_right Or.inr)
      · rcases hstart with hs | rfl | hs
        · exact Or.inl hs
        · exact Or.inl hc
        · exact Or.inr hs
      · intro u hu v huv
        rcases hclosed u hu v huv with hv | rfl | hv
        · exact Or.inl hv
        · exact Or.inl hc
        · exact Or.inr hv
    · refine ⟨_, by simp only [bfsRound, if_neg hc]; rfl, ⟨?_, ?_, ?_⟩, ?_⟩
      · intro v hv
        simp only [Finset.mem_insert, List.mem_append, getD_adjacency] at hv
        rcases hv with (rfl | hv) | hv | hv
        · exact hsound v (Or.inr (Or.inl rfl))
        · exact hsound v (Or.inl hv)
        · exact hsound v (Or.inr (Or.inr hv))
        · exact (hsound c (Or.inr (Or.inl rfl))).tail hv
      · simp only [Finset.mem_insert, List.mem_append]
        tauto
      · intro u hu v huv
        simp only [Finset.mem_insert, List.mem_append, getD_adjacency] at hu ⊢
        rcases hu with rfl | hu
        · exact Or.inr (Or.inr huv)
        · have := hclosed u hu v huv
          tauto
      · have hlen := length_adjacency_le workflow c
        have hcount := unvisitedEdges_insert workflow.graph hc
        simp only [List.length_append, List.length_cons]
        omega

/-- **The search is exact**: it terminates with the ids reachable from the first
step along edges with a declared source. -/
theorem getReachableSteps_spec (workflow : WorkflowDefinition α) {first : WorkflowStep α}
    {rest : List (WorkflowStep α)} (hsteps : workflow.steps = first :: rest) :
    ∃ reachable, getReachableSteps workflow = .ok reachable ∧
      ∀ v, v ∈ reachable ↔ Relation.ReflTransGen (DeclaredAdj workflow) first.id v := by
  have hinit : BfsInv workflow first.id ⟨∅, [first.id]⟩ :=
    { sound := by
        intro v hv
        obtain rfl : v = first.id := by simpa using hv
        exact .refl
      start_mem := by simp
      closed := by simp }
  have hbudget : [first.id].length + unvisitedEdges workflow.graph ∅ ≤ workflow.edges.length + 1 := by
    have := List.countP_le_length (p := fun e : String × String => decide (e.1 ∉ (∅ : Finset String)))
      (l := workflow.graph)
    simp only [WorkflowDefinition.graph, List.length_map] at this
    simp only [List.length_cons, List.length_nil, unvisitedEdges, WorkflowDefinition.graph]
    omega
  obtain ⟨s, hs, hinv, hq⟩ := whileLoop_ok (fun s : BfsState => !s.queue.isEmpty) _
    (BfsInv workflow first.id)
    (fun s => s.queue.length + unvisitedEdges workflow.graph s.reachable)
    (fun s hI hc => hI.round (by simpa using hc)) hinit hbudget
  have hempty : s.queue = [] := by simpa using hq
  refine ⟨s.reachable, ?_, ?_⟩
  · simp only [getReachableSteps, hsteps]
    rw [hs]
    rfl
  · intro v
    constructor
    · exact fun hv => hinv.sound v (Or.inl hv)
    · intro hv
      induction hv with
      | refl => simpa [hempty] using hinv.start_mem
      | tail _ hstep ih => simpa [hempty] using hinv.closed _ ih _ hstep

/-- For every workflow the search returns: no ids where there are no steps, and otherwise exactly
those that paths from the first step lead to. -/
theorem getReachableSteps_exact (workflow : WorkflowDefinition α) :
    ∃ reachable, getReachableSteps workflow = .ok reachable ∧
      ∀ v, v ∈ reachable ↔ ∃ first ∈ workflow.steps.head?,
        Relation.ReflTransGen (DeclaredAdj workflow) first.id v := by
  cases hsteps : workflow.steps with
  | nil =>
    refine ⟨∅, by rw [getReachableSteps, hsteps], fun v => ?_⟩
    simp
  | cons first rest =>
    obtain ⟨reachable, hsearch, hexact⟩ := getReachableSteps_spec workflow hsteps
    refine ⟨reachable, hsearch, fun v => ?_⟩
    simp [hexact]

end RagEval.Workflows.WorkflowValidator
