import RagEval.Api.EvalRouterV2
import RagEval.Lib.Runs

/-!
# Requests and handlers side by side

The v2 endpoints and any number of handlers of `eval.requested` over one store. A
request creates its record with one SET, then publishes its event; an event is delivered
once; a handler reads with the GET of an update and writes with its SET, and between the
two any other party may run. Records do not expire, and only an evaluation raises.

## Main definitions

- `PartyStep` — the commands of one request, event or handler
- `System`, `SystemStep` — all of them, interleaved
-/

namespace RagEval.Jobs
open RagEval.Lib RagEval.Api

/-- An `update_job` between its GET and its SET: the time among its arguments and the
patched record. -/
structure OpenUpdate where
  now : String
  data : Record

/-- How far the event of a job has come: its request has created the job and not yet
published, it is in the topic, or a handler has it. -/
inductive Stage where
  | requested
  | queued
  | handling (pos : HandlerPos) (held : Option OpenUpdate)

structure Party where
  event : EvalRequestedEvent
  stage : Stage

inductive Action where
  | accepted (request : EvalRequest) (now : String)
  | published
  | delivered
  | read (now : String)
  | handled (e : WorkerEvent)

/-- An action, and the job of the party that takes it. -/
structure Label where
  jobId : String
  action : Action

/-- One command of a party on the store. -/
inductive PartyStep (env : WorkerEnv) (store : Store) (event : EvalRequestedEvent) :
    Stage → Action → Store → Stage → Prop
  | published : PartyStep env store event .requested .published store .queued
  | delivered :
      PartyStep env store event .queued .delivered store (.handling .markRunning none)
  /-- The GET of an update that finds a record. -/
  | read {pos : HandlerPos} {now : String} {fields data : Record}
      (hfields : pos.fields now = some fields)
      (hget : updateGet store event.jobId fields = some data) :
      PartyStep env store event (.handling pos none) (.read now) store
        (.handling pos (some ⟨now, data⟩))
  /-- The GET of an update that finds none: the update returns. -/
  | missed {pos pos' : HandlerPos} {now : String} {fields : Record}
      (hfields : pos.fields now = some fields)
      (hget : updateGet store event.jobId fields = none)
      (hnext : pos.next (.updated now) = some pos') :
      PartyStep env store event (.handling pos none) (.read now) store (.handling pos' none)
  /-- The SET of an update. -/
  | written {pos pos' : HandlerPos} {held : OpenUpdate}
      (hnext : pos.next (.updated held.now) = some pos') :
      PartyStep env store event (.handling pos (some held)) (.handled (.updated held.now))
        (updateSet store event.jobId held.data) (.handling pos' none)
  | evaluated {e : WorkerEvent} {pos' : HandlerPos} (hallows : env.Allows event e)
      (hnext : HandlerPos.evaluate.next e = some pos') :
      PartyStep env store event (.handling .evaluate none) (.handled e) store
        (.handling pos' none)
  | reported {pos pos' : HandlerPos} (hnext : pos.next .published = some pos') :
      PartyStep env store event (.handling pos none) (.handled .published) store
        (.handling pos' none)

/-- The store and every party so far. -/
structure System where
  store : Store
  parties : List Party

def System.init (store : Store) : System := ⟨store, []⟩

/-- A request is accepted under a fresh id, or a party goes on. -/
inductive SystemStep (env : WorkerEnv) (s : System) : Label → System → Prop
  | accepted (request : EvalRequest) (jobId now : String) (hfresh : getJob s.store jobId = none) :
      SystemStep env s ⟨jobId, .accepted request now⟩
        ⟨createJob s.store jobId request.jobType none now,
          s.parties ++ [⟨request.event jobId, .requested⟩]⟩
  | moved {event : EvalRequestedEvent} {stage stage' : Stage} {action : Action} {store' : Store}
      (before after : List Party) (hparties : s.parties = before ++ ⟨event, stage⟩ :: after)
      (hstep : PartyStep env s.store event stage action store' stage') :
      SystemStep env s ⟨event.jobId, action⟩ ⟨store', before ++ ⟨event, stage'⟩ :: after⟩

/-! ## What a step leaves alone -/

/-- A party writes the record of its own job only. -/
theorem PartyStep.frame {env : WorkerEnv} {store store' : Store} {event : EvalRequestedEvent}
    {stage stage' : Stage} {action : Action}
    (h : PartyStep env store event stage action store' stage') {id : String}
    (hid : id ≠ event.jobId) : getJob store' id = getJob store id := by
  cases h with
  | written hnext => rw [getJob_updateSet, if_neg (Ne.symm hid)]
  | published | delivered | read | missed | evaluated | reported => rfl

/-- A record that is there stays there. -/
theorem PartyStep.keeps_record {env : WorkerEnv} {store store' : Store}
    {event : EvalRequestedEvent} {stage stage' : Stage} {action : Action}
    (h : PartyStep env store event stage action store' stage') {id : String} {r : Record}
    (hr : getJob store id = some r) : ∃ r', getJob store' id = some r' := by
  by_cases hid : id = event.jobId
  · subst hid
    cases h with
    | @written _ _ held hnext => exact ⟨held.data, by simp⟩
    | published | delivered | read | missed | evaluated | reported => exact ⟨r, hr⟩
  · exact ⟨r, (h.frame hid).trans hr⟩

theorem SystemStep.frame {env : WorkerEnv} {s s' : System} {l : Label}
    (h : SystemStep env s l s') {id : String} (hid : id ≠ l.jobId) :
    getJob s'.store id = getJob s.store id := by
  cases h with
  | accepted request jobId now hfresh => rw [getJob_createJob, if_neg (Ne.symm hid)]
  | moved before after hparties hstep => exact hstep.frame hid

end RagEval.Jobs
