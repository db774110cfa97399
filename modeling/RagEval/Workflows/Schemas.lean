import RagEval.Lib.Dict
import RagEval.Lib.Loop

/-!
# Workflow definition schemas

`app/domain/workflows/schemas.py`: steps, edges, definitions, the constructor's
field validators and the topological sort.
-/

namespace RagEval.Workflows
open RagEval.Lib

inductive NodeType where
  | chunking | embedding | retrieval | reranking | generation | evaluation
  | guardrails | tools | mcp
  deriving Repr, DecidableEq

/-- A step; the values of its override are those of JSON documents, or any objects. -/
structure WorkflowStep (α : Type := Value) where
  id : String
  type : NodeType
  implementation : String
  configRef : Option String := none
  configOverride : Dict String α := Dict.empty
  inputs : Option (Dict String String) := none
  outputs : Option (List String) := none
  condition : Option String := none
  retryPolicy : Option (Dict String Value) := none

/-- There is a priority, so a number can be written for one. -/
instance neZero_priorities : NeZero 101 := ⟨by decide⟩

/-- An edge; `priority` is declared with `ge=0, le=100`. -/
structure WorkflowEdge where
  fromStep : String
  toStep : String
  condition : Option String := none
  priority : Fin 101 := 0

/-- The endpoints of an edge. -/
def WorkflowEdge.pair (e : WorkflowEdge) : String × String := (e.fromStep, e.toStep)

/-- A workflow definition; `version` is declared with `ge=1` and the quality gates
are doubles. -/
structure WorkflowDefinition (α : Type := Value) where
  id : String
  version : Nat := 1
  version_pos : 1 ≤ version := by decide
  name : Option String := none
  description : Option String := none
  inputSchema : Option String := none
  outputSchema : Option String := none
  steps : List (WorkflowStep α) := []
  edges : List WorkflowEdge := []
  qualityGates : Dict String (BitVec 64) := Dict.empty
  metadata : Dict String Value := Dict.empty
  tenantId : Option String := none
  createdBy : Option String := none

variable {α : Type}

/-- The field validator of `steps`; it does not run on the default. -/
def validateStepsNotEmpty (v : List (WorkflowStep α)) : Except PyError (List (WorkflowStep α)) :=
  if v = [] then .error (.valueError "Workflow must have at least one step") else .ok v

/-- The loop body of `validate_edge_references`. -/
def checkEdgeReference (stepIds : List String) (edge : WorkflowEdge) : Except PyError Unit :=
  if edge.fromStep ∉ stepIds then
    .error (.valueError ("Edge references unknown step: " ++ edge.fromStep))
  else if edge.toStep ∉ stepIds then
    .error (.valueError ("Edge references unknown step: " ++ edge.toStep))
  else .ok ()

/-- The field validator of `edges`, given the already validated `steps`. -/
def validateEdgeReferences (steps : List (WorkflowStep α)) (v : List WorkflowEdge) :
    Except PyError (List WorkflowEdge) := do
  forM v (checkEdgeReference (steps.map WorkflowStep.id))
  pure v

namespace WorkflowDefinition

def stepIds (self : WorkflowDefinition α) : List String := self.steps.map WorkflowStep.id

/-- `get_step`. -/
def getStep (self : WorkflowDefinition α) (stepId : String) : Option (WorkflowStep α) :=
  self.steps.find? fun step => step.id = stepId

/-- One round of the loop over `edges` in `get_step_order`. -/
def addEdge (acc : Dict String (List String) × Dict String Int) (edge : WorkflowEdge) :
    Except PyError (Dict String (List String) × Dict String Int) := do
  let out ← getItem acc.1 edge.fromStep
  let degree ← getItem acc.2 edge.toStep
  pure (acc.1.set edge.fromStep (out ++ [edge.toStep]), acc.2.set edge.toStep (degree + 1))

/-- The local variables of the `while queue` loop in `get_step_order`. -/
structure KahnState where
  inDegree : Dict String Int
  queue : List String
  order : List String

/-- One round of `for neighbor in graph[current]`. -/
def relax (acc : Dict String Int × List String) (neighbor : String) :
    Except PyError (Dict String Int × List String) := do
  let degree ← getItem acc.1 neighbor
  let inDegree := acc.1.set neighbor (degree - 1)
  pure (inDegree, if degree - 1 = 0 then acc.2 ++ [neighbor] else acc.2)

/-- One round of `while queue`. -/
def kahnRound (graph : Dict String (List String)) (s : KahnState) : Except PyError KahnState :=
  match s.queue with
  | [] => .ok s
  | current :: rest => do
    let neighbors ← getItem graph current
    let (inDegree, queue) ← neighbors.foldlM relax (s.inDegree, rest)
    pure ⟨inDegree, queue, s.order ++ [current]⟩

/-- `get_step_order`: Kahn's algorithm. Each round takes one id off the queue, and
there are no more rounds than distinct ids. -/
def getStepOrder (self : WorkflowDefinition α) : Except PyError (List String) := do
  let (graph, inDegree) ← self.edges.foldlM addEdge
    (Dict.ofKeys self.stepIds [], Dict.ofKeys self.stepIds 0)
  let queue := (inDegree.items.filter fun kv => kv.2 = 0).map Prod.fst
  let s ← whileLoop (fun s : KahnState => !s.queue.isEmpty) (kahnRound graph)
    inDegree.items.length ⟨inDegree, queue, []⟩
  if s.order.length ≠ self.steps.length then
    throw (.valueError "Workflow contains cycles")
  pure s.order

/-- The edges as pairs of step ids. -/
def graph (self : WorkflowDefinition α) : List (String × String) :=
  self.edges.map WorkflowEdge.pair

/-- Every edge endpoint is the id of some step. -/
def EdgesKnown (self : WorkflowDefinition α) : Prop :=
  ∀ e ∈ self.edges, e.fromStep ∈ self.stepIds ∧ e.toStep ∈ self.stepIds

instance (self : WorkflowDefinition α) : Decidable self.EdgesKnown :=
  inferInstanceAs (Decidable (∀ e ∈ self.edges, _))

theorem checkEdgeReference_ok_iff (ids : List String) (e : WorkflowEdge) :
    checkEdgeReference ids e = .ok () ↔ e.fromStep ∈ ids ∧ e.toStep ∈ ids := by
  unfold checkEdgeReference
  by_cases hf : e.fromStep ∈ ids <;> by_cases ht : e.toStep ∈ ids <;> simp [hf, ht]

/-- The constructor accepts the edges exactly when their endpoints are known. -/
theorem validateEdgeReferences_ok_iff (self : WorkflowDefinition α) :
    validateEdgeReferences self.steps self.edges = .ok self.edges ↔ self.EdgesKnown := by
  have h := forM_ok_iff (checkEdgeReference self.stepIds) self.edges
  simp only [checkEdgeReference_ok_iff] at h
  rw [EdgesKnown, ← h, validateEdgeReferences, stepIds]
  constructor
  · intro hv
    obtain ⟨_, hu, _⟩ := bind_ok hv
    exact hu
  · intro hu
    rw [hu]
    rfl

end WorkflowDefinition

end RagEval.Workflows
