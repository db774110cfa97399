import RagEval.Jobs.SettledTasks

/-!
# Both versions over one store

The endpoints of v1 and v2 create their jobs in one store, and the Celery workers and the handlers
of `eval.requested` update them there. The two systems are protocols that own the records of their
jobs; so they run side by side, and each keeps what it keeps alone.

## Main definitions

- `kafkaProtocol` — the parties of the v2 system
- `KafkaSound` — what holds of one of them, its history and its record

## Main results

- `SystemStep.kafka` — the v2 system takes the steps of its protocol
- `both_versions_settle` — the records of finished jobs of both versions
-/

namespace RagEval.Jobs
open RagEval.Lib RagEval.Lib.Parties RagEval.Api

/-! ## The v2 system as a protocol -/

/-- A request is accepted under a fresh id, or a party goes on. -/
def kafkaProtocol (env : WorkerEnv) : Protocol Store String Party Action where
  join store jobId action store' p := ∃ request now, getJob store jobId = none ∧
    action = .accepted request now ∧ store' = createJob store jobId request.jobType none now ∧
    p = ⟨request.event jobId, .requested⟩
  step store jobId p action store' p' := p.event.jobId = jobId ∧ p'.event = p.event ∧
    PartyStep env store p.event p.stage action store' p'.stage

/-- The parties of the v2 system under the ids of their jobs. -/
def System.byJob (s : System) : Parties.System Store String Party :=
  ⟨s.store, s.parties.map fun p => (p.event.jobId, p)⟩

/-- The v2 system takes the steps of its protocol. -/
theorem SystemStep.kafka {env : WorkerEnv} {s s' : System} {l : Label}
    (h : SystemStep env s l s') :
    (kafkaProtocol env).Step s.byJob (l.jobId, l.action) s'.byJob := by
  cases h with
  | accepted request jobId now hfresh =>
    have hparties : (s.parties ++ [(⟨request.event jobId, .requested⟩ : Party)]).map
        (fun p => (p.event.jobId, p)) =
          s.byJob.parties ++ [(jobId, ⟨request.event jobId, .requested⟩)] := by
      rw [List.map_append, List.map_singleton, EvalRequest.event_jobId]
      rfl
    show (kafkaProtocol env).Step s.byJob (jobId, .accepted request now) ⟨_, List.map _ _⟩
    rw [hparties]
    exact .joined ⟨request, now, hfresh, rfl, rfl, rfl⟩
  | @moved event stage stage' action store' before after hparties hstep =>
    have hmap : ∀ stage, (before ++ (⟨event, stage⟩ : Party) :: after).map
        (fun p => (p.event.jobId, p)) =
          before.map (fun p => (p.event.jobId, p)) ++ (event.jobId, ⟨event, stage⟩) ::
            after.map fun p => (p.event.jobId, p) := by
      intro stage
      rw [List.map_append, List.map_cons]
    show (kafkaProtocol env).Step s.byJob (event.jobId, action) ⟨store', List.map _ _⟩
    rw [hmap]
    refine Protocol.Step.moved (p := (⟨event, stage⟩ : Party)) _ _ ?_ ⟨rfl, rfl, hstep⟩
    rw [← hmap, ← hparties]
    rfl

section
variable {env : WorkerEnv}

/-- Every party owns the record of its job. -/
theorem kafkaProtocol_separated (env : WorkerEnv) :
    (kafkaProtocol env).Separated getJob fun record => ∃ r, record = some r where
  join_unused := by
    rintro store id a store' p ⟨request, now, hfresh, -⟩ ⟨r, hr⟩
    cases hfresh.symm.trans hr
  join_used := by
    rintro store id a store' p ⟨request, now, -, -, rfl, -⟩
    exact ⟨_, by rw [getJob_createJob, if_pos rfl]⟩
  step_used := fun h hr => hr.elim fun _ hr => h.2.2.keeps_record hr
  join_frame := by
    rintro store id a store' p ⟨request, now, -, -, rfl, -⟩ other hother
    rw [getJob_createJob, if_neg (Ne.symm hother)]
  step_frame := by
    rintro store id p a store' p' ⟨rfl, -, h⟩ other hother
    exact h.frame hother

/-! ## The invariant of a party -/

def Action.handledEvent : Action → Option WorkerEvent
  | .handled e => some e
  | _ => none

/-- What the handler of the party did. -/
def handled (past : List Action) : List WorkerEvent := past.filterMap Action.handledEvent

theorem handled_concat (past : List Action) (a : Action) :
    handled (past ++ [a]) = handled past ++ a.handledEvent.toList := by
  cases h : a.handledEvent <;> simp [handled, h]

/-- The stage of an event fits what its handler did and the record of its job. -/
def StageFits (events : List WorkerEvent) (record : Option Record) : Stage → Prop
  | .requested => events = []
  | .queued => events = []
  | .handling pos held => ∃ r, record = some r ∧ pos.Sound (outcomes events) r ∧
      ∀ u, held = some u → ∃ fields, pos.fields u.now = some fields ∧ u.data = r.update fields

structure KafkaSound (env : WorkerEnv) (past : List Action) (record : Option Record)
    (jobId : String) (p : Party) : Prop where
  accepted : ∃ request now, .accepted request now ∈ past ∧ p.event = request.event jobId
  allowed : ∀ e ∈ handled past, env.Allows p.event e
  stage : StageFits (handled past) record p.stage

variable {store store' : Store} {event : EvalRequestedEvent} {stage stage' : Stage}
  {action : Action} {events : List WorkerEvent}

variable (env) in
/-- A step that does to the record what the handler alone does to it. -/
theorem StageFits.handled {pos pos' : HandlerPos} {held : Option OpenUpdate} {e : WorkerEvent}
    (hs : StageFits events (getJob store event.jobId) (.handling pos held))
    (hnext : pos.next e = some pos') (hallows : env.Allows event e) (he : e.Reliable)
    (hwrite : getJob (HandlerState.write event.jobId ⟨store, pos⟩ e) event.jobId =
      getJob store' event.jobId) :
    StageFits (events ++ [e]) (getJob store' event.jobId) (.handling pos' none) := by
  obtain ⟨r, hr, hpos, -⟩ := hs
  have hsound : HandlerState.Sound event.jobId events ⟨store, pos⟩ := ⟨r, hr, hpos⟩
  obtain ⟨r', hr', hpos'⟩ := hsound.step (ReliableStep.of_next hnext hallows he store).1 he
  exact ⟨r', hwrite.symm.trans hr', hpos', fun u hu => by cases hu⟩

theorem PartyStep.stageFits (h : PartyStep env store event stage action store' stage')
    (hused : ∃ r, getJob store event.jobId = some r)
    (hs : StageFits events (getJob store event.jobId) stage) :
    StageFits (events ++ action.handledEvent.toList) (getJob store' event.jobId) stage' := by
  cases h with
  | published =>
    obtain rfl : events = [] := hs
    rfl
  | delivered =>
    obtain rfl : events = [] := hs
    obtain ⟨r, hr⟩ := hused
    exact ⟨r, hr, rfl, fun u hu => by cases hu⟩
  | @read pos now fields data hfields hget =>
    obtain ⟨r, hr, hpos, -⟩ := hs
    refine ⟨r, hr, by simpa only [Action.handledEvent, Option.toList_none, List.append_nil], ?_⟩
    rintro u ⟨⟩
    rw [updateGet, hr] at hget
    exact ⟨fields, hfields, (Option.some.inj hget).symm⟩
  | missed hfields hget hnext =>
    obtain ⟨r, hr⟩ := hused
    rw [updateGet, hr] at hget
    cases hget
  | @written pos pos' held hnext =>
    obtain ⟨r, hr, -, hheld⟩ := id hs
    obtain ⟨fields, hfields, hdata⟩ := hheld held rfl
    refine StageFits.handled env hs hnext trivial trivial ?_
    simp only [HandlerState.write, hfields, getJob_updateJob, getJob_updateSet, if_true, hr,
      Option.map_some, hdata]
  | @evaluated e pos' hallows hnext =>
    cases e with
    | evaluated | evaluationRaised => exact StageFits.handled env hs hnext hallows trivial rfl
    | updated | updateRaised | published | publishRaised | retried | expired => cases hnext
  | reported hnext => exact StageFits.handled env hs hnext trivial trivial rfl

/-- The steps of a handler are those its environment allows. -/
theorem PartyStep.handledEvent_allowed
    (h : PartyStep env store event stage action store' stage') :
    ∀ e ∈ action.handledEvent.toList, env.Allows event e := by
  intro e he
  cases h with
  | evaluated hallows hnext =>
    obtain rfl := List.mem_singleton.mp he
    exact hallows
  | written | reported =>
    obtain rfl := List.mem_singleton.mp he
    trivial
  | published | delivered | read | missed => exact absurd he List.not_mem_nil

theorem KafkaSound.step {past : List Action} {jobId : String} {p p' : Party}
    (hp : KafkaSound env past (getJob store jobId) jobId p)
    (hused : ∃ r, getJob store jobId = some r)
    (h : (kafkaProtocol env).step store jobId p action store' p') :
    KafkaSound env (past ++ [action]) (getJob store' jobId) jobId p' := by
  obtain ⟨rfl, hevent, hstep⟩ := h
  obtain ⟨⟨request, now, hmem, heq⟩, hallowed, hstage⟩ := hp
  refine ⟨⟨request, now, List.mem_append_left _ hmem, hevent.trans heq⟩, fun e he => ?_, ?_⟩
  · rw [hevent]
    rw [handled_concat] at he
    exact (List.mem_append.mp he).elim (hallowed e) (hstep.handledEvent_allowed e)
  · rw [handled_concat]
    exact hstep.stageFits hused hstage

/-! ## Finished jobs -/

def toLabel (l : String × Action) : Label := ⟨l.1, l.2⟩

theorem handlerEvents_map_toLabel (jobId : String) (trace : List (String × Action)) :
    handlerEvents jobId (trace.map toLabel) = handled (actionsOf jobId trace) := by
  induction trace with
  | nil => rfl
  | cons l trace ih =>
    obtain ⟨id, action⟩ := l
    rw [actionsOf_cons, List.map_cons, handlerEvents, List.filterMap_cons]
    rw [handlerEvents] at ih
    by_cases hid : id = jobId <;> cases action <;>
      simp [Label.handlerEvent, toLabel, hid, handled, Action.handledEvent, List.filterMap_cons, ih]

theorem KafkaSound.reports {trace : List (String × Action)} {jobId : String} {p : Party}
    (hp : KafkaSound env (actionsOf jobId trace) (getJob store jobId) jobId p)
    (hfinished : p.stage.Finished) :
    ∃ outcome, p.Reports env (trace.map toLabel) store outcome := by
  obtain ⟨event, stage⟩ := p
  obtain ⟨⟨request, now, hmem, heq⟩, hallowed, hstage⟩ := hp
  obtain rfl : event = request.event jobId := heq
  have haccepted : ∃ request' now, ⟨(request.event jobId).jobId, .accepted request' now⟩ ∈
      trace.map toLabel ∧ request.event jobId = request'.event (request.event jobId).jobId := by
    rw [EvalRequest.event_jobId]
    exact ⟨request, now, List.mem_map.mpr ⟨_, mem_actionsOf.mp hmem, rfl⟩, rfl⟩
  cases stage with
  | requested | queued => exact absurd hfinished id
  | handling pos held =>
    obtain ⟨r, hr, hpos, -⟩ := hstage
    cases pos with
    | returned =>
      obtain ⟨outcome, heval, htells⟩ := hpos
      have hmem : outcome ∈ outcomes (handled (actionsOf jobId trace)) := by
        rw [heval]
        exact List.mem_singleton_self outcome
      obtain ⟨e, he, hout⟩ := List.mem_filterMap.mp hmem
      refine ⟨outcome, haccepted, ?_, ?_, r, ?_, htells⟩
      · show outcomes (handlerEvents (request.event jobId).jobId _) = _
        rw [EvalRequest.event_jobId, handlerEvents_map_toLabel]
        exact heval
      · rw [event_of_outcome hout]
        exact hallowed e he
      · show getJob store (request.event jobId).jobId = _
        rw [EvalRequest.event_jobId]
        exact hr
    | raised error => exact absurd hpos id
    | markRunning | evaluate | markCompleted | publishCompleted | markFailed | publishFailed =>
      exact absurd hfinished id

end

namespace Demo

/-- A job of each version; the updates of the two overlap. -/
def bothTrace : List (String × (Celery.Action ⊕ Action)) :=
  [("a", .inl (.accepted question "t0")), ("b", .inr (.accepted question "t0")),
   ("a", .inl .delayed), ("b", .inr .published), ("a", .inl .delivered), ("b", .inr .delivered),
   ("a", .inl (.read "t1")), ("b", .inr (.read "t1")), ("a", .inl (.worked (.updated "t1"))),
   ("b", .inr (.handled (.updated "t1"))), ("a", .inl (.worked (.evaluated noScores))),
   ("b", .inr (.handled (.evaluated noScores))), ("a", .inl (.read "t2")),
   ("b", .inr (.read "t2")), ("b", .inr (.handled (.updated "t2"))),
   ("a", .inl (.worked (.updated "t2"))), ("b", .inr (.handled .published)),
   ("a", .inl .acknowledged)]

section
variable {store store' : Store} {p : Celery.Party ⊕ Party}

theorem move_celery {q : Celery.Party ⊕ Party} {stage stage' : Celery.Stage}
    {action : Celery.Action}
    (h : Celery.PartyStep noScoresEnv.service store "a" question stage action store' stage') :
    ((Celery.protocol noScoresEnv.service).sum (kafkaProtocol noScoresEnv)).Step
      ⟨store, [("a", .inl ⟨question, stage⟩), ("b", q)]⟩ ("a", .inl action)
      ⟨store', [("a", .inl ⟨question, stage'⟩), ("b", q)]⟩ :=
  .moved [] [("b", q)] rfl (.inl ⟨rfl, h⟩)

theorem move_kafka {stage stage' : Stage} {action : Action}
    (h : PartyStep noScoresEnv store (question.event "b") stage action store' stage') :
    ((Celery.protocol noScoresEnv.service).sum (kafkaProtocol noScoresEnv)).Step
      ⟨store, [("a", p), ("b", .inr ⟨question.event "b", stage⟩)]⟩ ("b", .inr action)
      ⟨store', [("a", p), ("b", .inr ⟨question.event "b", stage'⟩)]⟩ :=
  .moved [("a", p)] [] rfl (.inr ⟨rfl, rfl, h⟩)

end

theorem both_run : ∃ store, Run ((Celery.protocol noScoresEnv.service).sum
    (kafkaProtocol noScoresEnv)).Step (.init Dict.empty) bothTrace
      ⟨store, [("a", .inl ⟨question, .settled (.ok noScores)⟩),
        ("b", .inr ⟨question.event "b", .handling .returned none⟩)]⟩ := by
  apply Exists.intro
  refine .cons (.joined (.inl ⟨question, "t0", rfl, rfl, rfl, rfl⟩)) ?_
  refine .cons (.joined (.inr ⟨question, "t0", rfl, rfl, rfl, rfl⟩)) ?_
  refine .cons (move_celery .delayed) ?_
  refine .cons (move_kafka .published) ?_
  refine .cons (move_celery .delivered) ?_
  refine .cons (move_kafka .delivered) ?_
  refine .cons (move_celery (.read rfl rfl)) ?_
  refine .cons (move_kafka (.read rfl rfl)) ?_
  refine .cons (move_celery (.written rfl)) ?_
  refine .cons (move_kafka (.written rfl)) ?_
  refine .cons (move_celery (.evaluated rfl rfl rfl)) ?_
  refine .cons (move_kafka (.evaluated ⟨.singleTurn, rfl, rfl⟩ rfl)) ?_
  refine .cons (move_celery (.read rfl rfl)) ?_
  refine .cons (move_kafka (.read rfl rfl)) ?_
  refine .cons (move_kafka (.written rfl)) ?_
  refine .cons (move_celery (.written rfl)) ?_
  refine .cons (move_kafka (.reported rfl)) ?_
  exact .single (move_celery .acknowledged)

end Demo

end RagEval.Jobs
