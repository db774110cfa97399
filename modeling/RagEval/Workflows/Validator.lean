import RagEval.Lib.Digraph
import RagEval.Workflows.Nodes
import RagEval.Workflows.Schemas

/-!
# Workflow validation

`app/domain/workflows/validator.py`: the step, edge and connectivity checks of
`WorkflowValidator`, on an already constructed definition.
-/

namespace RagEval.Workflows
open RagEval.Lib RagEval.Lib.Digraph

variable {α : Type} [PyObject α]

namespace WorkflowValidator

/-- One round of the loop in `_validate_steps`: the ids seen so far and the errors. -/
def validateStep (py : Interpreter α) (acc : Finset String × List String) (step : WorkflowStep α) :
    Except PyError (Finset String × List String) := do
  let duplicate := if step.id ∈ acc.1 then ["Duplicate step ID: " ++ step.id] else []
  let unknown := if nodeRegistry.has step.implementation then [] else
    ["Step '" ++ step.id ++ "': Unknown implementation '" ++ step.implementation ++ "'"]
  let config ← match nodeRegistry.get step.implementation with
    | some node =>
      if step.configOverride.items = [] then pure []
      else do
        let errors ← node.validateConfig py step.configOverride
        pure (errors.map fun err => "Step '" ++ step.id ++ "': " ++ err)
    | none => pure []
  pure (insert step.id acc.1, acc.2 ++ duplicate ++ unknown ++ config)

/-- `_validate_steps`. -/
def validateSteps (py : Interpreter α) (workflow : WorkflowDefinition α) :
    Except PyError (List String) := do
  let (_, errors) ← workflow.steps.foldlM (validateStep py) (∅, [])
  pure errors

/-- The errors of edge number `i`. -/
def edgeErrors (stepIds : List String) (edge : WorkflowEdge) (i : Nat) : List String :=
  (if edge.fromStep ∈ stepIds then [] else
    ["Edge " ++ toString i ++ ": Source step '" ++ edge.fromStep ++ "' not found"]) ++
  (if edge.toStep ∈ stepIds then [] else
    ["Edge " ++ toString i ++ ": Target step '" ++ edge.toStep ++ "' not found"]) ++
  (if edge.fromStep = edge.toStep then
    ["Edge " ++ toString i ++ ": Self-loops are not allowed (" ++ edge.fromStep ++ ")"] else [])

/-- `_validate_edges`. -/
def validateEdges (workflow : WorkflowDefinition α) : List String :=
  workflow.edges.zipIdx.flatMap fun (edge, i) => edgeErrors workflow.stepIds edge i

/-- One round of the loop over `edges` in `_get_reachable_steps`. -/
def addKnownEdge (graph : Dict String (List String)) (edge : WorkflowEdge) :
    Dict String (List String) :=
  match graph.get? edge.fromStep with
  | some out => graph.set edge.fromStep (out ++ [edge.toStep])
  | none => graph

/-- The local variables of the `while queue` loop in `_get_reachable_steps`. -/
structure BfsState where
  reachable : Finset String
  queue : List String

/-- One round of `while queue`. -/
def bfsRound (graph : Dict String (List String)) (s : BfsState) : Except PyError BfsState :=
  match s.queue with
  | [] => .ok s
  | current :: rest =>
    if current ∈ s.reachable then .ok ⟨s.reachable, rest⟩
    else .ok ⟨insert current s.reachable, rest ++ graph.getD current []⟩

/-- `_get_reachable_steps`; each edge is enqueued at most once. -/
def getReachableSteps (workflow : WorkflowDefinition α) : Except PyError (Finset String) :=
  match workflow.steps with
  | [] => .ok ∅
  | first :: _ => do
    let graph := workflow.edges.foldl addKnownEdge (Dict.ofKeys workflow.stepIds [])
    let s ← whileLoop (fun s : BfsState => !s.queue.isEmpty) (bfsRound graph)
      (workflow.edges.length + 1) ⟨∅, [first.id]⟩
    pure s.reachable

/-- The unreachable-steps check of `_validate_connectivity`. -/
def unreachableErrors (py : Interpreter α) (workflow : WorkflowDefinition α) :
    Except PyError (List String) :=
  if workflow.edges = [] then .ok []
  else do
    let reachable ← getReachableSteps workflow
    let unreachable := workflow.stepIds.toFinset \ reachable
    pure (if unreachable = ∅ then [] else
      ["Unreachable steps: " ++ ", ".intercalate (py.iterSet unreachable)])

/-- The cycle check: `except ValueError` keeps the message, any other exception
propagates. -/
def cycleErrors (workflow : WorkflowDefinition α) : Except PyError (List String) :=
  match workflow.getStepOrder with
  | .ok _ => .ok []
  | .error (.valueError msg) => .ok [msg]
  | .error e => .error e

/-- `_validate_connectivity`. -/
def validateConnectivity (py : Interpreter α) (workflow : WorkflowDefinition α) :
    Except PyError (List String) :=
  if workflow.steps = [] then .ok []
  else do
    let unreachable ← unreachableErrors py workflow
    let cycles ← cycleErrors workflow
    pure (unreachable ++ cycles)

/-- `validate`, for an already constructed definition. -/
def validate (py : Interpreter α) (workflow : WorkflowDefinition α) :
    Except PyError (List String) := do
  let steps ← validateSteps py workflow
  let connectivity ← validateConnectivity py workflow
  pure (steps ++ validateEdges workflow ++ connectivity)

end WorkflowValidator

end RagEval.Workflows
