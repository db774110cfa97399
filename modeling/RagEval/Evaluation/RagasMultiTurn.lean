import Mathlib.Data.List.Forall2
import RagEval.Evaluation.RagasAdapter

/-!
# Scores of conversations

`RagasAdapter.run_multi_turn` in `app/infra/evaluation/ragas_adapter.py`, on the messages and tool
calls that the API accepts. The scorers are those of the package `ragas`: what one returns may be
different at every call, so it is a function of the calls made before.

## Main definitions

- `convertMessages` — the conversation that every scorer is given
- `selectScorer` — the branch that a metric takes
- `runMultiTurn` — the loop over the requested metrics
- `ScorerCall.IsFor` — a call of the metric's scorer on the whole conversation
- `Lacks`, `ScoredBy` — a missing prerequisite, and where a score comes from

## Main result

- `runMultiTurn_cases` — when a `ValueError` is raised, and the scores otherwise
-/

namespace RagEval.Evaluation
open RagEval.Lib

structure ToolCallSchema where
  name : String
  args : Dict String Value

inductive Role where
  | human | ai | tool
  deriving Repr, DecidableEq

structure ConversationMessage where
  role : Role
  content : String
  toolCalls : Option (List ToolCallSchema) := none

structure MultiTurnRequest where
  messages : List ConversationMessage
  reference : Option String := none
  referenceTopics : Option (List String) := none
  referenceToolCalls : Option (List ToolCallSchema) := none

/-- `ragas.messages.ToolCall`. -/
structure RagasToolCall where
  name : String
  args : Dict String Value

/-- `HumanMessage`, `AIMessage` and `ToolMessage`. -/
inductive RagasMessage where
  | human (content : String)
  | ai (content : String) (toolCalls : Option (List RagasToolCall))
  | tool (content : String)

/-- A call of `ascore`, on the scorer of a metric; objects of the packages are of type `ω`. -/
inductive ScorerCall (ω : Type) where
  | topicAdherence (llm : ω) (userInput : List RagasMessage) (referenceTopics : List String)
  | agentGoalAccuracy (llm : ω) (userInput : List RagasMessage) (reference : String)
  | toolCallAccuracy (userInput : List RagasMessage) (referenceToolCalls : List RagasToolCall)
  | toolCallF1 (userInput : List RagasMessage) (referenceToolCalls : List RagasToolCall)

/-- What `run_multi_turn` uses of the interpreter and of the installed package. -/
structure MultiTurnRagas (ω : Type) where
  repr : String → String
  importRagas : Except Raised Unit
  /-- The result of a call, after the calls made before it. -/
  ascore : List (ScorerCall ω) → ScorerCall ω → Except Raised ω
  /-- `float(result.value)`. -/
  float : ω → Except Raised (BitVec 64)

/-! ## What a scorer should be called on -/

/-- A tool call of the package, of the same tool with the same arguments. -/
structure ToolCallSchema.IsCall (tc : ToolCallSchema) (call : RagasToolCall) : Prop where
  name : call.name = tc.name
  args : call.args = tc.args

/-- A message of the package that says the same: of the same role, with the same content and, where
the assistant speaks, the same tool calls in the same order. -/
inductive ConversationMessage.Says : ConversationMessage → RagasMessage → Prop
  | human (content : String) (toolCalls : Option (List ToolCallSchema)) :
      Says ⟨.human, content, toolCalls⟩ (.human content)
  | ai (content : String) {toolCalls : Option (List ToolCallSchema)}
      (hnone : ∀ tcs ∈ toolCalls, tcs = []) : Says ⟨.ai, content, toolCalls⟩ (.ai content none)
  | aiCalls (content : String) {tcs : List ToolCallSchema} {calls : List RagasToolCall}
      (hne : tcs ≠ []) (hcalls : List.Forall₂ ToolCallSchema.IsCall tcs calls) :
      Says ⟨.ai, content, some tcs⟩ (.ai content (some calls))
  | tool (content : String) (toolCalls : Option (List ToolCallSchema)) :
      Says ⟨.tool, content, toolCalls⟩ (.tool content)

/-- The whole conversation, message by message. -/
def MultiTurnRequest.Says (request : MultiTurnRequest) (userInput : List RagasMessage) : Prop :=
  List.Forall₂ ConversationMessage.Says request.messages userInput

/-- The reference tool calls of the request, one by one. -/
def MultiTurnRequest.Expects (request : MultiTurnRequest) (calls : List RagasToolCall) : Prop :=
  ∃ tcs, request.referenceToolCalls = some tcs ∧ List.Forall₂ ToolCallSchema.IsCall tcs calls

/-- The call is one of the metric's scorer, on the whole conversation and on what the request
gives for the metric. -/
inductive ScorerCall.IsFor {ω : Type} (request : MultiTurnRequest) (llm : Option ω) :
    ScorerCall ω → String → Prop
  | topicAdherence {model : ω} {userInput : List RagasMessage} {topics : List String}
      (hconv : request.Says userInput) (hllm : llm = some model)
      (htopics : request.referenceTopics = some topics) :
      IsFor request llm (.topicAdherence model userInput topics) "topic_adherence"
  | agentGoalAccuracy {model : ω} {userInput : List RagasMessage} {reference : String}
      (hconv : request.Says userInput) (hllm : llm = some model)
      (hreference : request.reference = some reference) :
      IsFor request llm (.agentGoalAccuracy model userInput reference) "agent_goal_accuracy"
  | toolCallAccuracy {userInput : List RagasMessage} {calls : List RagasToolCall}
      (hconv : request.Says userInput) (hcalls : request.Expects calls) :
      IsFor request llm (.toolCallAccuracy userInput calls) "tool_call_accuracy"
  | toolCallF1 {userInput : List RagasMessage} {calls : List RagasToolCall}
      (hconv : request.Says userInput) (hcalls : request.Expects calls) :
      IsFor request llm (.toolCallF1 userInput calls) "tool_call_f1"

namespace RagasAdapter

/-! ## The conversion of the messages -/

def convertToolCall (tc : ToolCallSchema) : RagasToolCall := ⟨tc.name, tc.args⟩

/-- One round of the loop over the messages; tool calls of other roles are left out. -/
def convertMessage (msg : ConversationMessage) : RagasMessage :=
  let rawToolCalls := msg.toolCalls.getD []
  match msg.role with
  | .human => .human msg.content
  | .ai =>
    .ai msg.content (if rawToolCalls.isEmpty then none else some (rawToolCalls.map convertToolCall))
  | .tool => .tool msg.content

/-- `ragas_messages`. -/
def convertMessages (messages : List ConversationMessage) : List RagasMessage :=
  messages.foldl (fun ragasMessages msg => ragasMessages ++ [convertMessage msg]) []

/-! ## The loop over the metrics -/

/-- The variables of the loop: the calls made so far, `result`, which has no value before the
first round, and `scores`. -/
structure ScoringState (ω : Type) where
  calls : List (ScorerCall ω) := []
  result : Option ω := none
  scores : Dict String (BitVec 64) := Dict.empty

section
variable {ω : Type} (ragas : MultiTurnRagas ω) (request : MultiTurnRequest) (llm : Option ω)

/-- The chain of branches, which has no last `else`: a name of none of them selects no scorer. -/
def selectScorer (ragasMessages : List RagasMessage) (refToolCalls : Option (List RagasToolCall))
    (metricName : String) : Except Raised (Option (ScorerCall ω)) :=
  if metricName = "topic_adherence" then
    match request.referenceTopics, llm with
    | none, _ => throw (valueError "topic_adherence requires reference_topics")
    | some [], _ => throw (valueError "topic_adherence requires reference_topics")
    | some (_ :: _), none => throw (valueError "topic_adherence requires llm")
    | some (topic :: topics), some llm =>
      return some (.topicAdherence llm ragasMessages (topic :: topics))
  else if metricName = "agent_goal_accuracy" then
    match request.reference with
    | none => throw (valueError "agent_goal_accuracy requires reference")
    | some reference =>
      if reference = "" then throw (valueError "agent_goal_accuracy requires reference")
      else
        match llm with
        | none => throw (valueError "agent_goal_accuracy requires llm")
        | some llm => return some (.agentGoalAccuracy llm ragasMessages reference)
  else if metricName = "tool_call_accuracy" then
    match refToolCalls with
    | none => throw (valueError "tool_call_accuracy requires reference_tool_calls")
    | some refToolCalls => return some (.toolCallAccuracy ragasMessages refToolCalls)
  else if metricName = "tool_call_f1" then
    match refToolCalls with
    | none => throw (valueError "tool_call_f1 requires reference_tool_calls")
    | some refToolCalls => return some (.toolCallF1 ragasMessages refToolCalls)
  else return none

/-- `result = await ….ascore(…)`. -/
def callScorer (s : ScoringState ω) (call : ScorerCall ω) : Except Raised (ScoringState ω) := do
  let result ← ragas.ascore s.calls call
  return { s with calls := s.calls ++ [call], result := some result }

/-- One round of the loop over the requested metrics. -/
def scoreMetric (ragasMessages : List RagasMessage) (refToolCalls : Option (List RagasToolCall))
    (s : ScoringState ω) (metricName : String) : Except Raised (ScoringState ω) := do
  let s ← match ← selectScorer request llm ragasMessages refToolCalls metricName with
    | some call => callScorer ragas s call
    | none => pure s
  match s.result with
  | none => throw ⟨"UnboundLocalError",
      "cannot access local variable 'result' where it is not associated with a value", true⟩
  | some result => return { s with scores := s.scores.set metricName (← ragas.float result) }

/-- The check of the requested names. -/
def checkMultiTurnNames (metricNames : List String) : Except Raised Unit :=
  let unsupported := metricNames.filter (· ∉ multiTurnOnlyMetrics)
  let reprNames (names : List String) := "[" ++ ", ".intercalate (names.map ragas.repr) ++ "]"
  if unsupported ≠ [] then
    throw (valueError ("Metrics " ++ reprNames unsupported ++
      " are not supported by the multi-turn endpoint. Supported: " ++
      reprNames (multiTurnOnlyMetrics.mergeSort fun a b => decide (a ≤ b))))
  else return

def importMultiTurn : Except Raised Unit :=
  match ragas.importRagas with
  | .ok _ => return
  | .error exc =>
    if exc.isException then
      throw (externalServiceError "ragas" ("ragas is not available: " ++ exc.message))
    else throw exc

/-- The loop from its start. -/
def scoreMetrics (metricNames : List String) : Except Raised (ScoringState ω) :=
  metricNames.foldlM (scoreMetric ragas request llm (convertMessages request.messages)
    (request.referenceToolCalls.map (List.map convertToolCall))) {}

def runMultiTurn (metricNames : List String) : Except Raised (Dict String (BitVec 64)) := do
  checkMultiTurnNames ragas metricNames
  importMultiTurn ragas
  let s ← scoreMetrics ragas request llm metricNames
  return s.scores

end

/-! ## Prerequisites and provenance -/

section
variable {ω : Type}

/-- A prerequisite of the metric is missing. -/
def Lacks (request : MultiTurnRequest) (llm : Option ω) (metricName : String) : Prop :=
  (metricName = "topic_adherence" ∧ (request.referenceTopics.getD [] = [] ∨ llm = none)) ∨
    (metricName = "agent_goal_accuracy" ∧ (request.reference.getD "" = "" ∨ llm = none)) ∨
    ((metricName = "tool_call_accuracy" ∨ metricName = "tool_call_f1") ∧
      request.referenceToolCalls = none)

variable (ragas : MultiTurnRagas ω) (request : MultiTurnRequest) (llm : Option ω)
  (metricNames : List String)

/-- Going through the list, and no scorer raising before, a metric is reached that lacks a
prerequisite. -/
def MissesPrerequisite : Prop :=
  ∃ before metricName after s, metricNames = before ++ metricName :: after ∧
    scoreMetrics ragas request llm before = .ok s ∧ Lacks request llm metricName

/-- A scorer, called in its turn, has raised, or its result has no float for a value. -/
def RaisedByScorer (e : Raised) : Prop :=
  ∃ before metricName after s call, metricNames = before ++ metricName :: after ∧
    scoreMetrics ragas request llm before = .ok s ∧
    call.IsFor request llm metricName ∧
      (ragas.ascore s.calls call = .error e ∨
        ∃ result, ragas.ascore s.calls call = .ok result ∧ ragas.float result = .error e)

/-- The score is that of one of the calls, made for the metric itself. -/
def ScoredBy (calls : List (ScorerCall ω)) (metricName : String) (score : BitVec 64) : Prop :=
  ∃ before call after result, calls = before ++ call :: after ∧
    call.IsFor request llm metricName ∧
      ragas.ascore before call = .ok result ∧ ragas.float result = .ok score

variable {ragas request llm metricNames}

theorem convertToolCalls_isCall (tcs : List ToolCallSchema) :
    List.Forall₂ ToolCallSchema.IsCall tcs (tcs.map convertToolCall) := by
  rw [List.forall₂_map_right_iff, List.forall₂_same]
  exact fun tc _ => ⟨rfl, rfl⟩

theorem convertMessage_faithful (msg : ConversationMessage) : msg.Says (convertMessage msg) := by
  obtain ⟨role, content, toolCalls⟩ := msg
  cases role with
  | human => exact .human content toolCalls
  | tool => exact .tool content toolCalls
  | ai =>
    match toolCalls with
    | none => exact .ai content fun tcs htcs => nomatch htcs
    | some [] => exact .ai content fun tcs htcs => (Option.mem_some.mp htcs).symm
    | some (tc :: tcs) =>
      exact .aiCalls content (List.cons_ne_nil _ _) (convertToolCalls_isCall (tc :: tcs))

/-- The loop over the messages converts the whole conversation. -/
theorem convertMessages_faithful (request : MultiTurnRequest) :
    request.Says (convertMessages request.messages) := by
  have hmap : convertMessages request.messages = request.messages.map convertMessage := by
    suffices hloop : ∀ done : List RagasMessage,
        request.messages.foldl (fun ragasMessages msg => ragasMessages ++ [convertMessage msg]) done =
          done ++ request.messages.map convertMessage from hloop []
    induction request.messages with
    | nil => exact fun done => (List.append_nil done).symm
    | cons msg messages ih =>
      intro done
      rw [List.foldl_cons, ih, List.map_cons, List.append_assoc, List.singleton_append]
  rw [hmap, MultiTurnRequest.Says, List.forall₂_map_right_iff, List.forall₂_same]
  exact fun msg _ => convertMessage_faithful msg

theorem ScoredBy.append {calls : List (ScorerCall ω)} {metricName : String} {score : BitVec 64}
    (h : ScoredBy ragas request llm calls metricName score) (call : ScorerCall ω) :
    ScoredBy ragas request llm (calls ++ [call]) metricName score := by
  obtain ⟨before, scored, after, result, rfl, hscored⟩ := h
  exact ⟨before, scored, after ++ [call], result, by simp, hscored⟩

/-! ## One round -/

/-- The branch of a metric raises if a prerequisite is missing, and selects the scorer of the
metric otherwise. -/
theorem selectScorer_spec (request : MultiTurnRequest) (llm : Option ω) {metricName : String}
    (h : metricName ∈ multiTurnOnlyMetrics) {ragasMessages : List RagasMessage}
    (hconv : request.Says ragasMessages) :
    (Lacks request llm metricName ∧ ∃ message,
        selectScorer request llm ragasMessages
          (request.referenceToolCalls.map (List.map convertToolCall)) metricName =
            .error (valueError message)) ∨
      (¬Lacks request llm metricName ∧ ∃ call,
        selectScorer request llm ragasMessages
            (request.referenceToolCalls.map (List.map convertToolCall)) metricName =
              .ok (some call) ∧
          call.IsFor request llm metricName) := by
  obtain ⟨messages, reference, topics, toolCalls⟩ := request
  simp only [multiTurnOnlyMetrics, List.mem_cons, List.not_mem_nil, or_false] at h
  obtain rfl | rfl | rfl | rfl := h
  · match topics, llm with
    | none, _ => exact .inl ⟨.inl ⟨rfl, .inl rfl⟩, _, rfl⟩
    | some [], _ => exact .inl ⟨.inl ⟨rfl, .inl rfl⟩, _, rfl⟩
    | some (topic :: topics), none => exact .inl ⟨.inl ⟨rfl, .inr rfl⟩, _, rfl⟩
    | some (topic :: topics), some llm =>
      exact .inr ⟨by simp [Lacks], _, rfl, .topicAdherence hconv rfl rfl⟩
  · match toolCalls with
    | none => exact .inl ⟨.inr (.inr ⟨.inl rfl, rfl⟩), _, rfl⟩
    | some toolCalls =>
      exact .inr ⟨by simp [Lacks], _, rfl,
        .toolCallAccuracy hconv ⟨toolCalls, rfl, convertToolCalls_isCall toolCalls⟩⟩
  · match toolCalls with
    | none => exact .inl ⟨.inr (.inr ⟨.inr rfl, rfl⟩), _, rfl⟩
    | some toolCalls =>
      exact .inr ⟨by simp [Lacks], _, rfl,
        .toolCallF1 hconv ⟨toolCalls, rfl, convertToolCalls_isCall toolCalls⟩⟩
  · match reference, llm with
    | none, _ => exact .inl ⟨.inr (.inl ⟨rfl, .inl rfl⟩), _, rfl⟩
    | some reference, llm =>
      by_cases hempty : reference = ""
      · subst hempty
        exact .inl ⟨.inr (.inl ⟨rfl, .inl rfl⟩), _, rfl⟩
      · have hselect : ∀ llm : Option ω, selectScorer ⟨messages, some reference, topics, toolCalls⟩
            llm ragasMessages (toolCalls.map (List.map convertToolCall)) "agent_goal_accuracy" =
              match llm with
              | none => throw (valueError "agent_goal_accuracy requires llm")
              | some llm => return some (.agentGoalAccuracy llm ragasMessages reference) :=
          fun llm => if_neg hempty
        match llm with
        | none => exact .inl ⟨.inr (.inl ⟨rfl, .inr rfl⟩), _, hselect none⟩
        | some llm =>
          exact .inr ⟨by simp [Lacks, hempty], _, hselect (some llm),
            .agentGoalAccuracy hconv rfl rfl⟩

/-- A round that calls the scorer of its metric stores what that call gives. -/
theorem scoreMetric_eq (ragas : MultiTurnRagas ω) {metricName : String}
    (h : metricName ∈ multiTurnOnlyMetrics) (hlacks : ¬Lacks request llm metricName)
    (s : ScoringState ω) :
    ∃ call, call.IsFor request llm metricName ∧
      scoreMetric ragas request llm (convertMessages request.messages)
          (request.referenceToolCalls.map (List.map convertToolCall)) s metricName = (do
        let result ← ragas.ascore s.calls call
        let score ← ragas.float result
        return ⟨s.calls ++ [call], some result, s.scores.set metricName score⟩) := by
  obtain ⟨hlacks', -⟩ | ⟨-, call, hselect, hcall⟩ :=
    selectScorer_spec request llm h (convertMessages_faithful request)
  · exact absurd hlacks' hlacks
  · refine ⟨call, hcall, ?_⟩
    rw [scoreMetric, hselect, ok_bind]
    simp only [callScorer]
    cases ragas.ascore s.calls call with
    | error e => rfl
    | ok result => rfl

/-- A round that returns has called the scorer of its metric and stored its score. -/
theorem scoreMetric_ok {metricName : String} (h : metricName ∈ multiTurnOnlyMetrics)
    {s s' : ScoringState ω}
    (hs : scoreMetric ragas request llm (convertMessages request.messages)
      (request.referenceToolCalls.map (List.map convertToolCall)) s metricName = .ok s') :
    ∃ call score, s'.calls = s.calls ++ [call] ∧ s'.scores = s.scores.set metricName score ∧
      ScoredBy ragas request llm s'.calls metricName score := by
  have hlacks : ¬Lacks request llm metricName := by
    intro hlacks
    obtain ⟨-, message, hselect⟩ | ⟨hlacks', -⟩ :=
      selectScorer_spec request llm h (convertMessages_faithful request)
    · rw [scoreMetric, hselect] at hs
      cases hs
    · exact hlacks' hlacks
  obtain ⟨call, hcall, heq⟩ := scoreMetric_eq ragas h hlacks s
  rw [heq] at hs
  obtain ⟨result, hresult, hs⟩ := bind_ok hs
  obtain ⟨score, hscore, hs⟩ := bind_ok hs
  obtain rfl := Except.ok.inj hs
  exact ⟨call, score, rfl, rfl, s.calls, call, [], result, rfl, hcall, hresult, hscore⟩

/-! ## The loop -/

variable (ragas request llm) in
/-- What the loop has when it has gone through `past`: scores for these metrics and no others,
each from a call of the metric's own scorer. -/
structure Scored (past : List String) (s : ScoringState ω) : Prop where
  keys : ∀ metricName, metricName ∈ s.scores.keys ↔ metricName ∈ past
  scoredBy : ∀ metricName score, s.scores.get? metricName = some score →
    ScoredBy ragas request llm s.calls metricName score

theorem Scored.step {past : List String} {s s' : ScoringState ω} {metricName : String}
    (hpast : Scored ragas request llm past s)
    (h : metricName ∈ multiTurnOnlyMetrics)
    (hs : scoreMetric ragas request llm (convertMessages request.messages)
      (request.referenceToolCalls.map (List.map convertToolCall)) s metricName = .ok s') :
    Scored ragas request llm (past ++ [metricName]) s' := by
  obtain ⟨call, score, hcalls, hscores, hscored⟩ := scoreMetric_ok h hs
  constructor
  · intro name
    rw [hscores, Dict.mem_keys_set, hpast.keys, List.mem_append, List.mem_singleton, or_comm]
  · intro name value hvalue
    rw [hscores] at hvalue
    obtain ⟨rfl, rfl⟩ | ⟨-, hold⟩ := Dict.get?_set_cases hvalue
    · exact hscored
    · rw [hcalls]
      exact (hpast.scoredBy name value hold).append call

theorem scored_of_scoreMetrics (hnames : ∀ metricName ∈ metricNames,
    metricName ∈ multiTurnOnlyMetrics) {s : ScoringState ω}
    (h : scoreMetrics ragas request llm metricNames = .ok s) :
    Scored ragas request llm metricNames s :=
  foldlM_trace_invariant (fun hmem hpast hs => hpast.step (hnames _ hmem) hs) h
    ⟨fun _ => Iff.rfl, nofun⟩

/-- A loop over these metrics that raises has come to a metric that lacks a prerequisite, or to a
scorer that raises. -/
theorem scoreMetrics_error (hnames : ∀ metricName ∈ metricNames,
    metricName ∈ multiTurnOnlyMetrics) {e : Raised}
    (h : scoreMetrics ragas request llm metricNames = .error e) :
    MissesPrerequisite ragas request llm metricNames ∨
      RaisedByScorer ragas request llm metricNames e := by
  obtain ⟨before, metricName, after, s, rfl, hbefore, hround⟩ := exists_of_foldlM_error h
  by_cases hlacks : Lacks request llm metricName
  · exact .inl ⟨before, metricName, after, s, rfl, hbefore, hlacks⟩
  · have hmem := hnames metricName (List.mem_append_right before List.mem_cons_self)
    obtain ⟨call, hcall, heq⟩ := scoreMetric_eq ragas hmem hlacks s
    refine .inr ⟨before, metricName, after, s, call, rfl, hbefore, hcall, ?_⟩
    rw [heq] at hround
    cases hresult : ragas.ascore s.calls call with
    | error e' =>
      rw [hresult] at hround
      exact .inl (congrArg Except.error (Except.error.inj hround))
    | ok result =>
      rw [hresult, ok_bind] at hround
      refine .inr ⟨result, rfl, ?_⟩
      cases hscore : ragas.float result with
      | error e' =>
        rw [hscore] at hround
        exact congrArg Except.error (Except.error.inj hround)
      | ok score =>
        rw [hscore] at hround
        cases hround

theorem scoreMetrics_of_missesPrerequisite (hnames : ∀ metricName ∈ metricNames,
    metricName ∈ multiTurnOnlyMetrics) (h : MissesPrerequisite ragas request llm metricNames) :
    ∃ message, scoreMetrics ragas request llm metricNames = .error (valueError message) := by
  obtain ⟨before, metricName, after, s, rfl, hbefore, hlacks⟩ := h
  have hmem := hnames metricName (List.mem_append_right before List.mem_cons_self)
  obtain ⟨-, message, hselect⟩ | ⟨hnot, -⟩ :=
    selectScorer_spec request llm hmem (convertMessages_faithful request)
  · refine ⟨message, foldlM_error hbefore ?_⟩
    rw [scoreMetric, hselect]
    rfl
  · exact absurd hlacks hnot

theorem checkMultiTurnNames_cases (ragas : MultiTurnRagas ω) (metricNames : List String) :
    ((∃ metricName ∈ metricNames, metricName ∉ multiTurnOnlyMetrics) ∧
        ∃ message, checkMultiTurnNames ragas metricNames = .error (valueError message)) ∨
      ((∀ metricName ∈ metricNames, metricName ∈ multiTurnOnlyMetrics) ∧
        checkMultiTurnNames ragas metricNames = .ok ()) := by
  rw [checkMultiTurnNames]
  by_cases hunsupported : metricNames.filter (· ∉ multiTurnOnlyMetrics) = []
  · refine .inr ⟨fun metricName hmem => ?_, if_neg (not_not_intro hunsupported)⟩
    have hnot := List.filter_eq_nil_iff.mp hunsupported metricName hmem
    simpa using hnot
  · obtain ⟨metricName, hmem⟩ := List.exists_mem_of_ne_nil _ hunsupported
    rw [List.mem_filter, decide_eq_true_eq] at hmem
    exact .inl ⟨⟨metricName, hmem⟩, _, if_pos hunsupported⟩

/-- `run_multi_turn` raises a `ValueError` of its own exactly if a name is not multi-turn or a
metric is reached that lacks a prerequisite. Otherwise a scorer raises, or there are scores for
the requested metrics and no others, each from a call of the metric's own scorer on the whole
conversation. -/
theorem runMultiTurn_cases (ragas : MultiTurnRagas ω) (himport : ragas.importRagas = .ok ())
    (request : MultiTurnRequest) (llm : Option ω) (metricNames : List String) :
    ((∃ metricName ∈ metricNames, metricName ∉ multiTurnOnlyMetrics) ∨
        MissesPrerequisite ragas request llm metricNames →
      ∃ message, runMultiTurn ragas request llm metricNames = .error (valueError message)) ∧
    (¬((∃ metricName ∈ metricNames, metricName ∉ multiTurnOnlyMetrics) ∨
        MissesPrerequisite ragas request llm metricNames) →
      (∃ e, runMultiTurn ragas request llm metricNames = .error e ∧
        RaisedByScorer ragas request llm metricNames e) ∨
      ∃ s, scoreMetrics ragas request llm metricNames = .ok s ∧
        runMultiTurn ragas request llm metricNames = .ok s.scores ∧
        (∀ metricName, metricName ∈ s.scores.keys ↔ metricName ∈ metricNames) ∧
        ∀ metricName score, s.scores.get? metricName = some score →
          ScoredBy ragas request llm s.calls metricName score) := by
  obtain ⟨hbad, message, hcheck⟩ | ⟨hnames, hcheck⟩ := checkMultiTurnNames_cases ragas metricNames
  · have hrun : runMultiTurn ragas request llm metricNames = .error (valueError message) := by
      rw [runMultiTurn, hcheck]
      rfl
    exact ⟨fun _ => ⟨message, hrun⟩, fun hnot => absurd (.inl hbad) hnot⟩
  · have hgood : ¬∃ metricName ∈ metricNames, metricName ∉ multiTurnOnlyMetrics :=
      fun ⟨metricName, hmem, hnot⟩ => hnot (hnames metricName hmem)
    have hrun : runMultiTurn ragas request llm metricNames =
        (scoreMetrics ragas request llm metricNames).map ScoringState.scores := by
      rw [runMultiTurn, hcheck, importMultiTurn, himport]
      cases scoreMetrics ragas request llm metricNames <;> rfl
    rw [or_iff_right hgood, hrun]
    constructor
    · intro hmisses
      obtain ⟨message, hloop⟩ := scoreMetrics_of_missesPrerequisite hnames hmisses
      exact ⟨message, by rw [hloop]; rfl⟩
    · intro hnot
      cases hloop : scoreMetrics ragas request llm metricNames with
      | error e =>
        exact .inl ⟨e, rfl, (scoreMetrics_error hnames hloop).resolve_left hnot⟩
      | ok s =>
        have hscored := scored_of_scoreMetrics hnames hloop
        exact .inr ⟨s, rfl, rfl, hscored.keys, hscored.scoredBy⟩

end

end RagasAdapter

namespace Demo

/-- Scorers that give every conversation the score 1.0. -/
def scorers : MultiTurnRagas String where
  repr name := "'" ++ name ++ "'"
  importRagas := .ok ()
  ascore calls _ := .ok (toString calls.length)
  float _ := .ok 0x3FF0000000000000

def conversation : MultiTurnRequest where
  messages := [⟨.human, "What is the weather?", none⟩,
    ⟨.ai, "", some [⟨"get_weather", Dict.ofList [("city", .str "Paris")]⟩]⟩,
    ⟨.tool, "Rain.", none⟩]
  reference := some "The weather is known."
  referenceTopics := some ["weather"]
  referenceToolCalls := some [⟨"get_weather", Dict.ofList [("city", .str "Paris")]⟩]

theorem not_lacks_conversation (metricName : String) :
    ¬RagasAdapter.Lacks conversation (some "llm") metricName := by
  simp [RagasAdapter.Lacks, conversation]

end Demo

/-- A metric that is requested twice has one score. -/
theorem runMultiTurn_cases_conversation :
    ∃ scores, RagasAdapter.runMultiTurn Demo.scorers Demo.conversation (some "llm")
        ["tool_call_f1", "topic_adherence", "tool_call_f1"] = .ok scores ∧
      ∀ metricName, metricName ∈ scores.keys ↔
        metricName ∈ ["tool_call_f1", "topic_adherence", "tool_call_f1"] := by
  obtain ⟨e, -, before, metricName, after, s, call, -, -, -, hraised⟩ | ⟨s, -, hrun, hkeys, -⟩ :=
    (RagasAdapter.runMultiTurn_cases Demo.scorers rfl Demo.conversation (some "llm")
      ["tool_call_f1", "topic_adherence", "tool_call_f1"]).2 (by
        rintro (⟨metricName, hmem, hnot⟩ | ⟨before, metricName, after, s, -, -, hlacks⟩)
        · revert metricName
          decide
        · exact Demo.not_lacks_conversation metricName hlacks)
  · obtain hraised | ⟨result, -, hraised⟩ := hraised <;> cases hraised
  · exact ⟨s.scores, hrun, hkeys⟩

end RagEval.Evaluation
