import RagEval.Jobs.EvalWorker

/-!
# The v2 evaluation router

`app/api/v2/eval_router.py`: the two request bodies of `app/api/schemas/evaluation.py`
and the event each endpoint publishes after it has created the job.
-/

namespace RagEval.Api
open RagEval.Lib RagEval.Jobs

structure ToolCallSchema where
  name : String
  args : Payload

inductive MessageRole where
  | human | ai | tool

structure ConversationMessage where
  role : MessageRole
  content : String
  toolCalls : Option (List ToolCallSchema)

structure RagasSingleTurnRequest where
  userInput : String
  response : String
  retrievedContexts : List String
  referenceContexts : Option (List String)
  retrievedContextIds : Option (List String)
  referenceContextIds : Option (List String)
  reference : Option String
  metricNames : List String
  retrievedContexts_ne_nil : retrievedContexts ≠ []
  metricNames_ne_nil : metricNames ≠ []

structure RagasMultiTurnRequest where
  messages : List ConversationMessage
  reference : Option String
  referenceTopics : Option (List String)
  referenceToolCalls : Option (List ToolCallSchema)
  metricNames : List String
  messages_ne_nil : messages ≠ []
  metricNames_ne_nil : metricNames ≠ []

/-- `None` is JSON's `null`. -/
def nullable {α : Type} (f : α → Value) (x : Option α) : Value := (x.map f).getD .none

def strings (l : List String) : Value := .list (l.map .str)

def MessageRole.value : MessageRole → String
  | .human => "human"
  | .ai => "ai"
  | .tool => "tool"

def ToolCallSchema.modelDump (tc : ToolCallSchema) : Value :=
  .dict [("name", .str tc.name), ("args", .dict tc.args)]

def ConversationMessage.modelDump (m : ConversationMessage) : Value :=
  .dict [("role", .str m.role.value), ("content", .str m.content),
    ("tool_calls", nullable (fun tcs => .list (tcs.map ToolCallSchema.modelDump)) m.toolCalls)]

/-- The `eval_input` of `evaluate_single_turn_v2`. -/
def RagasSingleTurnRequest.evalInput (payload : RagasSingleTurnRequest) : Payload :=
  [("user_input", .str payload.userInput),
   ("response", .str payload.response),
   ("retrieved_contexts", strings payload.retrievedContexts),
   ("reference_contexts", nullable strings payload.referenceContexts),
   ("retrieved_context_ids", nullable strings payload.retrievedContextIds),
   ("reference_context_ids", nullable strings payload.referenceContextIds),
   ("reference", nullable .str payload.reference),
   ("metric_names", strings payload.metricNames)]

/-- The `eval_input` of `evaluate_multi_turn_v2`. -/
def RagasMultiTurnRequest.evalInput (payload : RagasMultiTurnRequest) : Payload :=
  [("messages", .list (payload.messages.map ConversationMessage.modelDump)),
   ("reference", nullable .str payload.reference),
   ("reference_topics", nullable strings payload.referenceTopics),
   ("reference_tool_calls",
     nullable (fun tcs => .list (tcs.map ToolCallSchema.modelDump)) payload.referenceToolCalls),
   ("metric_names", strings payload.metricNames)]

/-- A request to one of the two endpoints. -/
inductive EvalRequest where
  | singleTurn (payload : RagasSingleTurnRequest)
  | multiTurn (payload : RagasMultiTurnRequest)

/-- The argument of `create_job`. -/
def EvalRequest.jobType : EvalRequest → String
  | .singleTurn _ => "ragas_single_turn"
  | .multiTurn _ => "ragas_multi_turn"

/-- The event published for the job. -/
def EvalRequest.event (jobId : String) : EvalRequest → EvalRequestedEvent
  | .singleTurn payload => ⟨jobId, "single_turn", payload.evalInput⟩
  | .multiTurn payload => ⟨jobId, "multi_turn", payload.evalInput⟩

@[simp] theorem EvalRequest.event_jobId (jobId : String) (request : EvalRequest) :
    (request.event jobId).jobId = jobId := by
  cases request <;> rfl

end RagEval.Api
