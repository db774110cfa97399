import RagEval.Jobs.EvalSystem
import RagEval.Lib.JsonLoaded

/-!
# Jobs and events as texts

The store holds every record as a JSON text, and an event goes through the topic as one: the
system of `EvalSystem` with the texts that are really written, each read back by its reader.
A text that cannot be read would raise in the handler or stop the consumer.

## Main definitions

- `Wire.getJob`, `Wire.updateGet`, `Wire.updateSet` — the store of texts
- `EvalRequestedEvent.text`, `EvalRequestedEvent.ofText` — an event and its message
- `Wire.PartyStep`, `Wire.SystemStep` — requests, events and handlers over texts
-/

namespace RagEval.Api
open RagEval.Lib RagEval.Lib.Json

/-! ## Requests -/

/-- The arguments of the call were read from a JSON text. -/
def ToolCallSchema.Loaded (tc : ToolCallSchema) : Prop :=
  ∃ text, loads text = some (.dict tc.args)

/-- The arguments of all tool calls of a request were read from its body. -/
def EvalRequest.Loaded : EvalRequest → Prop
  | .singleTurn _ => True
  | .multiTurn payload =>
    (∀ m ∈ payload.messages, ∀ tcs, m.toolCalls = some tcs → ∀ tc ∈ tcs, tc.Loaded) ∧
      ∀ tcs, payload.referenceToolCalls = some tcs → ∀ tc ∈ tcs, tc.Loaded

theorem canonical_nullable {α : Type} {f : α → Value} {x : Option α}
    (h : ∀ a, x = some a → Canonical (f a)) : Canonical (nullable f x) := by
  cases x with
  | none => exact ⟨trivial, rfl⟩
  | some a => exact h a rfl

theorem canonical_strings (l : List String) : Canonical (strings l) := by
  refine canonical_list fun v hv => ?_
  obtain ⟨s, -, rfl⟩ := List.mem_map.mp hv
  exact ⟨trivial, rfl⟩

theorem ToolCallSchema.Loaded.canonical {tc : ToolCallSchema} (h : tc.Loaded) :
    Canonical tc.modelDump := by
  obtain ⟨text, htext⟩ := h
  refine canonical_dict (by simp) ?_
  rw [List.forall_mem_cons, List.forall_mem_singleton]
  exact ⟨⟨trivial, rfl⟩, canonical_of_loads htext⟩

theorem canonical_toolCalls {tcs : List ToolCallSchema} (h : ∀ tc ∈ tcs, tc.Loaded) :
    Canonical (.list (tcs.map ToolCallSchema.modelDump)) := by
  refine canonical_list fun v hv => ?_
  obtain ⟨tc, htc, rfl⟩ := List.mem_map.mp hv
  exact (h tc htc).canonical

theorem ConversationMessage.canonical {m : ConversationMessage}
    (h : ∀ tcs, m.toolCalls = some tcs → ∀ tc ∈ tcs, tc.Loaded) : Canonical m.modelDump := by
  refine canonical_dict (by simp) ?_
  simp only [List.forall_mem_cons, List.not_mem_nil, false_implies, implies_true, and_true]
  exact ⟨⟨trivial, rfl⟩, ⟨trivial, rfl⟩, canonical_nullable fun tcs htcs =>
    canonical_toolCalls (h tcs htcs)⟩

/-- What a request asks to evaluate goes through a JSON text as it is. -/
theorem EvalRequest.Loaded.canonical {request : EvalRequest} (h : request.Loaded) (jobId : String) :
    Canonical (.dict (request.event jobId).evalInput) := by
  cases request with
  | singleTurn payload =>
    refine canonical_dict (by simp [EvalRequest.event, RagasSingleTurnRequest.evalInput]) ?_
    simp only [EvalRequest.event, RagasSingleTurnRequest.evalInput, List.forall_mem_cons,
      List.not_mem_nil, false_implies, implies_true, and_true]
    exact ⟨⟨trivial, rfl⟩, ⟨trivial, rfl⟩, canonical_strings _,
      canonical_nullable fun _ _ => canonical_strings _,
      canonical_nullable fun _ _ => canonical_strings _,
      canonical_nullable fun _ _ => canonical_strings _,
      canonical_nullable fun _ _ => ⟨trivial, rfl⟩, canonical_strings _⟩
  | multiTurn payload =>
    refine canonical_dict (by simp [EvalRequest.event, RagasMultiTurnRequest.evalInput]) ?_
    simp only [EvalRequest.event, RagasMultiTurnRequest.evalInput, List.forall_mem_cons,
      List.not_mem_nil, false_implies, implies_true, and_true]
    have hmessages : Canonical (.list (payload.messages.map ConversationMessage.modelDump)) := by
      refine canonical_list fun v hv => ?_
      obtain ⟨m, hm, rfl⟩ := List.mem_map.mp hv
      exact ConversationMessage.canonical (h.1 m hm)
    exact ⟨hmessages, canonical_nullable fun _ _ => ⟨trivial, rfl⟩,
      canonical_nullable fun _ _ => canonical_strings _,
      canonical_nullable fun tcs htcs => canonical_toolCalls (h.2 tcs htcs), canonical_strings _⟩

end RagEval.Api

namespace RagEval.Jobs
open RagEval.Lib RagEval.Lib.Json RagEval.Api

/-! ## The store of texts -/

/-- A stored text and the seconds it was given to live. -/
structure TextEntry where
  text : String
  ttl : Nat

abbrev TextStore := Dict String TextEntry

/-- `json.dumps(data)`. -/
def dumpRecord (data : Record) : String := dumpsWith .spaced (.dict data.items)

/-- What the client of a text raises: it is no JSON, or no object to patch. -/
inductive ReadError where
  | undecodable
  | notAnObject
  deriving DecidableEq, Repr

namespace Wire

/-- `json.loads(raw) if raw else None`. -/
def getJob (store : TextStore) (jobId : String) : Except ReadError (Option Value) :=
  match store.get? (key jobId) with
  | none => .ok none
  | some entry =>
    if entry.text = "" then .ok none
    else
      match loads entry.text with
      | some v => .ok (some v)
      | none => .error .undecodable

def createJob (store : TextStore) (jobId jobType : String) (idempotencyKey : Option String)
    (now : String) : TextStore :=
  store.set (key jobId) ⟨dumpRecord (newRecord jobId jobType idempotencyKey now), jobTtlSeconds⟩

/-- The GET of `update_job`, and `data.update(fields)`. -/
def updateGet (store : TextStore) (jobId : String) (fields : Record) :
    Except ReadError (Option Record) :=
  match getJob store jobId with
  | .error e => .error e
  | .ok none => .ok none
  | .ok (some (.dict kvs)) => .ok (some ((Dict.ofList kvs).update fields))
  | .ok (some _) => .error .notAnObject

/-- The SET of `update_job`. -/
def updateSet (store : TextStore) (jobId : String) (data : Record) : TextStore :=
  store.set (key jobId) ⟨dumpRecord data, jobTtlSeconds⟩

end Wire

/-! ## The texts of events -/

/-- `asdict(event)`, with the id and the time its constructor draws. -/
def EvalRequestedEvent.asdict (event : EvalRequestedEvent) (eventId occurredAt : String) : Value :=
  .dict [("job_id", .str event.jobId), ("eval_type", .str event.evalType),
    ("eval_input", .dict event.evalInput), ("event_id", .str eventId),
    ("occurred_at", .str occurredAt)]

/-- What `value_serializer` sends. -/
def EvalRequestedEvent.text (event : EvalRequestedEvent) (eventId occurredAt : String) : String :=
  dumpsWith .spaced (event.asdict eventId occurredAt)

/-- The fields the handler takes from an event's dict. -/
def EvalRequestedEvent.ofDict : Value → Option EvalRequestedEvent
  | .dict kvs =>
    match Assoc.get "job_id" kvs, Assoc.get "eval_type" kvs, Assoc.get "eval_input" kvs with
    | some (.str jobId), some (.str evalType), some (.dict evalInput) =>
      some ⟨jobId, evalType, evalInput⟩
    | _, _, _ => none
  | _ => none

/-- What the handler gets of a message, through `value_deserializer`. -/
def EvalRequestedEvent.ofText (text : String) : Option EvalRequestedEvent :=
  (loads text).bind EvalRequestedEvent.ofDict

/-! ## The system -/

/-- The service returns Python dicts: no key twice. -/
def EvaluationService.ReturnsDicts (service : EvaluationService) : Prop :=
  ∀ type payload result, service.returns type payload result → DistinctKeys (.dict result)

namespace Wire

/-- How far the event of a job has come: within its request, as a message, with a handler, or
thrown away by a consumer that could not read it. -/
inductive Party where
  | requested (event : EvalRequestedEvent)
  | queued (text : String)
  | handling (event : EvalRequestedEvent) (pos : HandlerPos) (held : Option OpenUpdate)
  | lost

/-- A step the system of records knows, or the failure of a reader. -/
inductive Label where
  | did (l : Jobs.Label)
  | undecodable (text : String)
  | unreadable (jobId : String) (e : ReadError)

/-- One command of a party on the store. -/
inductive PartyStep (env : WorkerEnv) (store : TextStore) :
    Party → Label → TextStore → Party → Prop
  | published {event : EvalRequestedEvent} (eventId occurredAt : String) :
      PartyStep env store (.requested event) (.did ⟨event.jobId, .published⟩) store
        (.queued (event.text eventId occurredAt))
  | delivered {text : String} {event : EvalRequestedEvent}
      (hevent : EvalRequestedEvent.ofText text = some event) :
      PartyStep env store (.queued text) (.did ⟨event.jobId, .delivered⟩) store
        (.handling event .markRunning none)
  | undecodable {text : String} (hevent : EvalRequestedEvent.ofText text = none) :
      PartyStep env store (.queued text) (.undecodable text) store .lost
  | read {event : EvalRequestedEvent} {pos : HandlerPos} {now : String} {fields data : Record}
      (hfields : pos.fields now = some fields)
      (hget : updateGet store event.jobId fields = .ok (some data)) :
      PartyStep env store (.handling event pos none) (.did ⟨event.jobId, .read now⟩) store
        (.handling event pos (some ⟨now, data⟩))
  | missed {event : EvalRequestedEvent} {pos pos' : HandlerPos} {now : String} {fields : Record}
      (hfields : pos.fields now = some fields)
      (hget : updateGet store event.jobId fields = .ok none)
      (hnext : pos.next (.updated now) = some pos') :
      PartyStep env store (.handling event pos none) (.did ⟨event.jobId, .read now⟩) store
        (.handling event pos' none)
  /-- The GET of an update that raises what `error` displays. -/
  | unreadable {event : EvalRequestedEvent} {pos pos' : HandlerPos} {now error : String}
      {fields : Record} {e : ReadError} (hfields : pos.fields now = some fields)
      (hget : updateGet store event.jobId fields = .error e)
      (hnext : pos.next (.updateRaised false error now) = some pos') :
      PartyStep env store (.handling event pos none) (.unreadable event.jobId e) store
        (.handling event pos' none)
  | written {event : EvalRequestedEvent} {pos pos' : HandlerPos} {held : OpenUpdate}
      (hnext : pos.next (.updated held.now) = some pos') :
      PartyStep env store (.handling event pos (some held))
        (.did ⟨event.jobId, .handled (.updated held.now)⟩) (updateSet store event.jobId held.data)
        (.handling event pos' none)
  | evaluated {event : EvalRequestedEvent} {e : WorkerEvent} {pos' : HandlerPos}
      (hallows : env.Allows event e) (hnext : HandlerPos.evaluate.next e = some pos') :
      PartyStep env store (.handling event .evaluate none) (.did ⟨event.jobId, .handled e⟩) store
        (.handling event pos' none)
  | reported {event : EvalRequestedEvent} {pos pos' : HandlerPos}
      (hnext : pos.next .published = some pos') :
      PartyStep env store (.handling event pos none) (.did ⟨event.jobId, .handled .published⟩)
        store (.handling event pos' none)

structure System where
  store : TextStore
  parties : List Party

def System.init : System := ⟨Dict.empty, []⟩

/-- A request is accepted under a fresh id, or a party goes on. -/
inductive SystemStep (env : WorkerEnv) (t : System) : Label → System → Prop
  | accepted (request : EvalRequest) (jobId now : String) (hloaded : request.Loaded)
      (hfresh : getJob t.store jobId = .ok none) :
      SystemStep env t (.did ⟨jobId, .accepted request now⟩)
        ⟨createJob t.store jobId request.jobType none now,
          t.parties ++ [.requested (request.event jobId)]⟩
  | moved {party party' : Party} {label : Label} {store' : TextStore} (before after : List Party)
      (hparties : t.parties = before ++ party :: after)
      (hstep : PartyStep env t.store party label store' party') :
      SystemStep env t label ⟨store', before ++ party' :: after⟩

end Wire

end RagEval.Jobs
