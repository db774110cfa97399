import RagEval.Jobs.EvalSystem

/-!
# Independent jobs

Whatever the requests and handlers of other jobs do in between, a handler and its
record go through a run of the handler alone, in which every update is one step. In
such a run the record ends up with the outcome of the one evaluation.

## Main definitions

- `HandlerState.Sound` — what holds at each position of a handler alone
- `Party.Sound`, `System.Sound` — the invariant of the interleaved system

## Main results

- `PartyStep.sound`, `SystemStep.sound` — the invariant is kept
- `jobs_independent` — what holds in every reachable state
-/

namespace RagEval.Jobs
open RagEval.Lib RagEval.Api

/-! ## A handler alone -/

/-- Nothing but an evaluation raises, and the record does not expire. -/
def WorkerEvent.Reliable : WorkerEvent → Prop
  | .updated _ => True
  | .evaluated _ => True
  | .evaluationRaised _ => True
  | .published => True
  | _ => False

/-- How an evaluation ends: a result or the text of an exception. -/
abbrev Outcome := Except String Result

def WorkerEvent.outcome : WorkerEvent → Option Outcome
  | .evaluated result => some (.ok result)
  | .evaluationRaised error => some (.error error)
  | _ => none

/-- The evaluations that ended, in order. -/
def outcomes (events : List WorkerEvent) : List Outcome := events.filterMap WorkerEvent.outcome

@[simp] theorem outcomes_concat (events : List WorkerEvent) (e : WorkerEvent) :
    outcomes (events ++ [e]) = outcomes events ++ e.outcome.toList := by
  cases h : e.outcome <;> simp [outcomes, h]

/-- The record tells the outcome. -/
def Record.Tells (r : Record) : Outcome → Prop
  | .ok result => r.get? "status" = some completed ∧ r.get? "result" = some (.dict result)
  | .error error => r.get? "status" = some failed ∧ r.get? "error" = some (.str error)

theorem completedFields_tells (r : Record) (result : Result) (now : String) :
    Record.Tells (r.update (completedFields result now)) (.ok result) :=
  ⟨Dict.get?_update_of_some rfl, Dict.get?_update_of_some rfl⟩

theorem failedFields_tells (r : Record) (error now : String) :
    Record.Tells (r.update (failedFields error now)) (.error error) :=
  ⟨Dict.get?_update_of_some rfl, Dict.get?_update_of_some rfl⟩

/-- What the evaluations so far and the record are at a position. -/
def HandlerPos.Sound (past : List Outcome) (r : Record) : HandlerPos → Prop
  | .markRunning => past = []
  | .evaluate => past = []
  | .markCompleted result => past = [.ok result]
  | .publishCompleted result => past = [.ok result] ∧ Record.Tells r (.ok result)
  | .markFailed error => past = [.error error]
  | .publishFailed error => past = [.error error] ∧ Record.Tells r (.error error)
  | .returned => ∃ outcome, past = [outcome] ∧ Record.Tells r outcome
  | .raised _ => False

def HandlerState.Sound (jobId : String) (events : List WorkerEvent) (s : HandlerState) : Prop :=
  ∃ r, getJob s.store jobId = some r ∧ s.pos.Sound (outcomes events) r

theorem HandlerState.Sound.step {env : WorkerEnv} {event : EvalRequestedEvent}
    {events : List WorkerEvent} {s s' : HandlerState} {e : WorkerEvent}
    (hs : s.Sound event.jobId events) (h : HandlerStep env event s e s') (he : e.Reliable) :
    s'.Sound event.jobId (events ++ [e]) := by
  obtain ⟨r, hr, hpos⟩ := hs
  obtain ⟨h, -⟩ := h
  unfold HandlerState.next at h
  split at h
  · exact absurd he id
  obtain ⟨pos', hnext, rfl⟩ := Option.map_eq_some_iff.mp h
  unfold HandlerPos.next at hnext
  split at hnext
  case h_13 => cases hnext
  case h_2 | h_6 | h_8 | h_10 | h_12 => exact absurd he id
  all_goals
    obtain rfl := Option.some.inj hnext
    rename_i heq _
    rw [heq] at hpos
    simp only [HandlerPos.Sound] at hpos
  case h_1 now _ =>
    refine ⟨r.update (runningFields now), ?_, ?_⟩
    · simp [HandlerState.write, heq, HandlerPos.fields, hr]
    · simp [HandlerPos.Sound, hpos, WorkerEvent.outcome]
  case h_3 result _ =>
    exact ⟨r, hr, by simp [HandlerPos.Sound, hpos, WorkerEvent.outcome]⟩
  case h_4 error _ =>
    exact ⟨r, hr, by simp [HandlerPos.Sound, hpos, WorkerEvent.outcome]⟩
  case h_5 result now _ =>
    refine ⟨r.update (completedFields result now), ?_, ?_, completedFields_tells r result now⟩
    · simp [HandlerState.write, heq, HandlerPos.fields, hr]
    · simp [hpos, WorkerEvent.outcome]
  case h_7 result _ =>
    refine ⟨r, hr, .ok result, ?_, hpos.2⟩
    simp [hpos.1, WorkerEvent.outcome]
  case h_9 error now _ =>
    refine ⟨r.update (failedFields error now), ?_, ?_, failedFields_tells r error now⟩
    · simp [HandlerState.write, heq, HandlerPos.fields, hr]
    · simp [hpos, WorkerEvent.outcome]
  case h_11 error _ =>
    refine ⟨r, hr, .error error, ?_, hpos.2⟩
    simp [hpos.1, WorkerEvent.outcome]

/-- The steps of a handler on an infrastructure that does not fail. -/
def ReliableStep (env : WorkerEnv) (event : EvalRequestedEvent) (s : HandlerState)
    (e : WorkerEvent) (s' : HandlerState) : Prop :=
  HandlerStep env event s e s' ∧ e.Reliable

/-- A handler alone, from a stored job on. -/
theorem sound_of_run {env : WorkerEnv} {event : EvalRequestedEvent} {store : Store} {r : Record}
    {events : List WorkerEvent} {s : HandlerState} (hr : getJob store event.jobId = some r)
    (h : Run (ReliableStep env event) (.init store) events s) : s.Sound event.jobId events := by
  refine h.trace_invariant (I := HandlerState.Sound event.jobId) (fun hs hstep => ?_) ⟨r, hr, rfl⟩
  exact hs.step hstep.1 hstep.2

/-! ## All jobs -/

/-- The step of the handler of a job that a label stands for; the GET of an update is
none. -/
def Label.handlerEvent (jobId : String) (l : Label) : Option WorkerEvent :=
  match l.action with
  | .handled e => if l.jobId = jobId then some e else none
  | _ => none

/-- What the handler of a job did. -/
def handlerEvents (jobId : String) (trace : List Label) : List WorkerEvent :=
  trace.filterMap (Label.handlerEvent jobId)

@[simp] theorem handlerEvents_concat (jobId : String) (trace : List Label) (l : Label) :
    handlerEvents jobId (trace ++ [l]) =
      handlerEvents jobId trace ++ (l.handlerEvent jobId).toList := by
  cases h : l.handlerEvent jobId <;> simp [handlerEvents, h]

theorem handlerEvents_concat_of_ne {jobId : String} {l : Label} (h : l.jobId ≠ jobId)
    (trace : List Label) : handlerEvents jobId (trace ++ [l]) = handlerEvents jobId trace := by
  have hnone : l.handlerEvent jobId = none := by
    unfold Label.handlerEvent
    split
    · rw [if_neg h]
    · rfl
  rw [handlerEvents_concat, hnone, Option.toList_none, List.append_nil]

/-- An update in progress holds the current record, patched. -/
def HandlerPos.Holds (store : Store) (jobId : String) (pos : HandlerPos) (held : OpenUpdate) :
    Prop :=
  ∃ fields, pos.fields held.now = some fields ∧ updateGet store jobId fields = some held.data

/-- Before the delivery the handler has done nothing; from then on its position and its
record are those of a run of the handler alone. -/
def Stage.Sound (env : WorkerEnv) (event : EvalRequestedEvent) (events : List WorkerEvent)
    (store : Store) : Stage → Prop
  | .requested => events = []
  | .queued => events = []
  | .handling pos held =>
    (∃ store₀ r₀ store', getJob store₀ event.jobId = some r₀ ∧
      Run (ReliableStep env event) (.init store₀) events ⟨store', pos⟩ ∧
      getJob store' event.jobId = getJob store event.jobId) ∧
    ∀ u, held = some u → pos.Holds store event.jobId u

structure Party.Sound (env : WorkerEnv) (trace : List Label) (store : Store) (p : Party) :
    Prop where
  accepted : ∃ request now, ⟨p.event.jobId, .accepted request now⟩ ∈ trace ∧
    p.event = request.event p.event.jobId
  record : ∃ r, getJob store p.event.jobId = some r
  stage : p.stage.Sound env p.event (handlerEvents p.event.jobId trace) store

structure System.Sound (env : WorkerEnv) (trace : List Label) (s : System) : Prop where
  nodup : (s.parties.map fun p => p.event.jobId).Nodup
  parties : ∀ p ∈ s.parties, p.Sound env trace s.store
  /-- An id without a record was never handled. -/
  unused : ∀ id, getJob s.store id = none → handlerEvents id trace = []

section
variable {env : WorkerEnv} {trace : List Label} {store store' : Store}

/-- What another party does leaves the invariant of a party alone. -/
theorem Party.Sound.frame {p : Party} (hp : p.Sound env trace store) {l : Label}
    (hid : l.jobId ≠ p.event.jobId)
    (hstore : getJob store' p.event.jobId = getJob store p.event.jobId) :
    p.Sound env (trace ++ [l]) store' := by
  obtain ⟨⟨request, now, hmem, hevent⟩, hrecord, hstage⟩ := hp
  refine ⟨⟨request, now, List.mem_append_left _ hmem, hevent⟩, by rwa [hstore], ?_⟩
  rw [handlerEvents_concat_of_ne hid]
  cases hs : p.stage with
  | requested | queued =>
    rw [hs] at hstage
    exact hstage
  | handling pos held =>
    rw [hs] at hstage
    obtain ⟨⟨store₀, r₀, st, hr₀, hrun, hsame⟩, hheld⟩ := hstage
    refine ⟨⟨store₀, r₀, st, hr₀, hrun, hsame.trans hstore.symm⟩, fun u hu => ?_⟩
    obtain ⟨fields, hfields, hget⟩ := hheld u hu
    exact ⟨fields, hfields, by simpa only [updateGet, hstore] using hget⟩

/-- The step of the handler alone that a command amounts to. -/
theorem ReliableStep.of_next {event : EvalRequestedEvent} {pos pos' : HandlerPos} {e : WorkerEvent}
    (hnext : pos.next e = some pos') (hallows : env.Allows event e) (he : e.Reliable)
    (store : Store) :
    ReliableStep env event ⟨store, pos⟩ e
      ⟨HandlerState.write event.jobId ⟨store, pos⟩ e, pos'⟩ := by
  refine ⟨⟨?_, hallows⟩, he⟩
  cases e with
  | expired => exact absurd he id
  | _ => simp [HandlerState.next, hnext]

/-- A step that does to the record what the handler alone does to its own. -/
theorem Stage.Sound.handled {event : EvalRequestedEvent} {events : List WorkerEvent}
    {pos pos' : HandlerPos} {held : Option OpenUpdate} {e : WorkerEvent}
    (hs : (Stage.handling pos held).Sound env event events store)
    (hnext : pos.next e = some pos') (hallows : env.Allows event e) (he : e.Reliable)
    (hwrite : ∀ st, getJob st event.jobId = getJob store event.jobId →
      getJob (HandlerState.write event.jobId ⟨st, pos⟩ e) event.jobId =
        getJob store' event.jobId) :
    (Stage.handling pos' none).Sound env event (events ++ [e]) store' := by
  obtain ⟨⟨store₀, r₀, st, hr₀, hrun, hsame⟩, -⟩ := hs
  refine ⟨⟨store₀, r₀, _, hr₀, hrun.append (.single (.of_next hnext hallows he st)), ?_⟩, by simp⟩
  exact hwrite st hsame

/-- **A command keeps the invariant of its party.** The record of an update in progress is
still the one its GET found, so that the SET completes one step of the handler alone. -/
theorem PartyStep.sound {event : EvalRequestedEvent} {stage stage' : Stage} {action : Action}
    (hp : Party.Sound env trace store ⟨event, stage⟩)
    (h : PartyStep env store event stage action store' stage') :
    Party.Sound env (trace ++ [⟨event.jobId, action⟩]) store' ⟨event, stage'⟩ := by
  obtain ⟨⟨request, now, hmem, hevent⟩, ⟨r, hr⟩, hstage⟩ := hp
  refine ⟨⟨request, now, List.mem_append_left _ hmem, hevent⟩, h.keeps_record hr, ?_⟩
  simp only [handlerEvents_concat, Label.handlerEvent]
  cases h with
  | published => simpa [Stage.Sound] using hstage
  | delivered =>
    have hnil : handlerEvents event.jobId trace = [] := hstage
    rw [hnil]
    exact ⟨⟨store, r, store, hr, .nil _, rfl⟩, by simp⟩
  | read hfields hget =>
    obtain ⟨hrun, -⟩ := hstage
    refine ⟨by simpa using hrun, ?_⟩
    rintro u ⟨⟩
    exact ⟨_, hfields, hget⟩
  | missed hfields hget hnext => simp [updateGet, hr] at hget
  | @written pos pos' held hnext =>
    obtain ⟨fields, hfields, hget⟩ := hstage.2 held rfl
    simp only [if_true, Option.toList_some]
    refine hstage.handled hnext trivial trivial fun st hst => ?_
    simp only [HandlerState.write, hfields, getJob_updateJob, getJob_updateSet, if_true, hst]
    exact hget
  | @evaluated e pos' hallows hnext =>
    simp only [if_true, Option.toList_some]
    cases e with
    | evaluated | evaluationRaised =>
      exact hstage.handled hnext hallows trivial fun st hst => hst
    | updated | updateRaised | published | publishRaised | retried | expired => cases hnext
  | reported hnext =>
    simp only [if_true, Option.toList_some]
    exact hstage.handled hnext trivial trivial fun st hst => hst

theorem System.Sound.accepted {s : System} (hs : s.Sound env trace) (request : EvalRequest)
    {jobId : String} (now : String) (hfresh : getJob s.store jobId = none) :
    System.Sound env (trace ++ [⟨jobId, .accepted request now⟩])
      ⟨createJob s.store jobId request.jobType none now,
        s.parties ++ [⟨request.event jobId, .requested⟩]⟩ := by
  have hne : ∀ p ∈ s.parties, jobId ≠ p.event.jobId := by
    intro p hp he
    obtain ⟨r, hr⟩ := (hs.parties p hp).record
    rw [← he, hfresh] at hr
    cases hr
  have hevents : ∀ id, handlerEvents id (trace ++ [⟨jobId, .accepted request now⟩]) =
      handlerEvents id trace := by
    intro id
    simp [Label.handlerEvent]
  refine ⟨?_, ?_, ?_⟩
  · rw [List.map_append, List.nodup_append]
    refine ⟨hs.nodup, by simp, ?_⟩
    intro a ha b hb
    obtain ⟨p, hp, rfl⟩ := List.mem_map.mp ha
    simp only [List.map_cons, List.map_nil, List.mem_singleton, EvalRequest.event_jobId] at hb
    exact fun he => hne p hp (hb ▸ he.symm)
  · intro p hp
    rcases List.mem_append.mp hp with hp | hp
    · refine (hs.parties p hp).frame (hne p hp) ?_
      rw [getJob_createJob, if_neg (hne p hp)]
    · obtain rfl := List.mem_singleton.mp hp
      refine ⟨⟨request, now, by simp, by simp⟩, by simp, ?_⟩
      rw [hevents]
      exact hs.unused _ (by simpa using hfresh)
  · intro id hid
    rw [getJob_createJob] at hid
    split at hid
    · cases hid
    · rw [hevents]
      exact hs.unused id hid

theorem System.Sound.moved {s : System} (hs : s.Sound env trace) {event : EvalRequestedEvent}
    {stage stage' : Stage} {action : Action} {before after : List Party}
    (hparties : s.parties = before ++ ⟨event, stage⟩ :: after)
    (hstep : PartyStep env s.store event stage action store' stage') :
    System.Sound env (trace ++ [⟨event.jobId, action⟩])
      ⟨store', before ++ ⟨event, stage'⟩ :: after⟩ := by
  have hmoved := hs.parties ⟨event, stage⟩ (by simp [hparties])
  have hnodup := hs.nodup
  rw [hparties, List.map_append, List.map_cons] at hnodup
  refine ⟨?_, ?_, ?_⟩
  · rwa [List.map_append, List.map_cons]
  · intro p hp
    -- the other parties have other ids
    have hother : p ∈ before ++ after → p.Sound env (trace ++ [⟨event.jobId, action⟩]) store' := by
      intro hp
      have hid : event.jobId ≠ p.event.jobId := by
        have hnot := (List.nodup_middle.mp hnodup).notMem
        rw [← List.map_append] at hnot
        exact fun he => hnot (List.mem_map.mpr ⟨p, hp, he.symm⟩)
      have hp' : p ∈ s.parties := by
        rw [hparties]
        exact mem_of_mem_removed hp
      exact (hs.parties p hp').frame hid (hstep.frame hid.symm)
    rcases List.mem_append.mp hp with hp | hp
    · exact hother (List.mem_append_left _ hp)
    · rcases List.mem_cons.mp hp with rfl | hp
      · exact hstep.sound hmoved
      · exact hother (List.mem_append_right _ hp)
  · intro id hid
    have hne : id ≠ event.jobId := by
      rintro rfl
      obtain ⟨r, hr⟩ := hmoved.record
      obtain ⟨r', hr'⟩ := hstep.keeps_record hr
      rw [hid] at hr'
      cases hr'
    rw [handlerEvents_concat_of_ne hne.symm]
    exact hs.unused id ((hstep.frame hne).symm.trans hid)

/-- **Every step keeps the invariant**, whichever party takes it. -/
theorem SystemStep.sound {s s' : System} {l : Label} (hs : s.Sound env trace)
    (h : SystemStep env s l s') : s'.Sound env (trace ++ [l]) := by
  cases h with
  | accepted request jobId now hfresh => exact hs.accepted request now hfresh
  | moved before after hparties hstep => exact hs.moved hparties hstep

theorem system_sound {s : System} (h : Run (SystemStep env) (.init store) trace s) :
    s.Sound env trace :=
  h.trace_invariant (fun hs hstep => hstep.sound hs)
    ⟨List.nodup_nil, by simp [System.init], fun _ _ => rfl⟩

end

/-! ## What the parties find -/

/-- The handler is done, by returning or by raising. -/
def Stage.Finished : Stage → Prop
  | .handling .returned _ => True
  | .handling (.raised _) _ => True
  | _ => False

/-- The event that ends an evaluation with this outcome. -/
def Outcome.event : Outcome → WorkerEvent
  | .ok result => .evaluated result
  | .error error => .evaluationRaised error

theorem event_of_outcome {e : WorkerEvent} {outcome : Outcome} (h : e.outcome = some outcome) :
    outcome.event = e := by
  cases e <;> simp only [WorkerEvent.outcome, reduceCtorEq, Option.some.injEq] at h
  all_goals
    subst h
    rfl

/-- The only evaluation made for the party's job ended so, it was the one its request asks
for, and the record of the job tells it. -/
structure Party.Reports (env : WorkerEnv) (trace : List Label) (store : Store) (p : Party)
    (outcome : Outcome) : Prop where
  accepted : ∃ request now, ⟨p.event.jobId, .accepted request now⟩ ∈ trace ∧
    p.event = request.event p.event.jobId
  evaluated : outcomes (handlerEvents p.event.jobId trace) = [outcome]
  allowed : env.Allows p.event outcome.event
  told : ∃ r, getJob store p.event.jobId = some r ∧ Record.Tells r outcome

theorem Party.Sound.reports {env : WorkerEnv} {trace : List Label} {store : Store} {p : Party}
    (hp : p.Sound env trace store) (hfinished : p.stage.Finished) :
    ∃ outcome, p.Reports env trace store outcome := by
  obtain ⟨event, stage⟩ := p
  obtain ⟨haccepted, -, hstage⟩ := hp
  cases stage with
  | requested | queued => exact absurd hfinished id
  | handling pos held =>
    obtain ⟨⟨store₀, r₀, st, hr₀, hrun, hsame⟩, -⟩ := hstage
    obtain ⟨r, hr, hpos⟩ := sound_of_run hr₀ hrun
    cases pos with
    | returned =>
      obtain ⟨outcome, heval, htells⟩ := hpos
      refine ⟨outcome, haccepted, heval, ?_, r, hsame.symm.trans hr, htells⟩
      have hmem : outcome ∈ outcomes (handlerEvents event.jobId trace) := by
        rw [heval]
        exact List.mem_singleton_self outcome
      obtain ⟨e, he, hout⟩ := List.mem_filterMap.mp hmem
      rw [event_of_outcome hout]
      refine hrun.forall_labels (I := fun _ => True) (P := env.Allows event) ?_ trivial e he
      exact fun _ hstep => ⟨hstep.1.2, trivial⟩
    | raised error => exact absurd hpos id
    | markRunning | evaluate | markCompleted | publishCompleted | markFailed | publishFailed =>
      exact absurd hfinished id

/-- **Independent jobs.** In every reachable state each request, event and handler has the
record of its job, a step changes the record of its own job only, and the record of a
finished handler's job tells the outcome of the one evaluation made for it. -/
theorem jobs_independent {env : WorkerEnv} {store : Store} {trace : List Label} {s : System}
    (h : Run (SystemStep env) (.init store) trace s) :
    (∀ p ∈ s.parties, ∃ r, getJob s.store p.event.jobId = some r) ∧
    (∀ l s', SystemStep env s l s' → ∀ id, id ≠ l.jobId → getJob s'.store id = getJob s.store id) ∧
    ∀ p ∈ s.parties, p.stage.Finished → ∃ outcome, p.Reports env trace s.store outcome := by
  have hs := system_sound h
  refine ⟨fun p hp => (hs.parties p hp).record, fun l s' hstep id hid => hstep.frame hid, ?_⟩
  exact fun p hp hfinished => (hs.parties p hp).reports hfinished

namespace Demo

def question : EvalRequest :=
  .singleTurn
    { userInput := "q", response := "a", retrievedContexts := ["c"], referenceContexts := none,
      retrievedContextIds := none, referenceContextIds := none, reference := none,
      metricNames := ["faithfulness"], retrievedContexts_ne_nil := by simp,
      metricNames_ne_nil := by simp }

def noScores : Result := [("scores", .dict [])]

def noScoresEnv : WorkerEnv where
  service := ⟨fun _ _ result => result = noScores, fun _ _ _ => False⟩
  reprStr s := "'" ++ s ++ "'"

/-- Two jobs; the handler of the second stands between a GET and its SET while that of the
first returns. -/
def twoJobsTrace : List Label :=
  [⟨"a", .accepted question "t0"⟩, ⟨"b", .accepted question "t0"⟩, ⟨"a", .published⟩,
   ⟨"b", .published⟩, ⟨"a", .delivered⟩, ⟨"b", .delivered⟩, ⟨"a", .read "t1"⟩, ⟨"b", .read "t1"⟩,
   ⟨"a", .handled (.updated "t1")⟩, ⟨"a", .handled (.evaluated noScores)⟩, ⟨"a", .read "t2"⟩,
   ⟨"a", .handled (.updated "t2")⟩, ⟨"a", .handled .published⟩]

def startedRecord (id : String) : Record :=
  (newRecord id "ragas_single_turn" none "t0").update (runningFields "t1")

def bothCreated : Store :=
  createJob (createJob Dict.empty "a" "ragas_single_turn" none "t0") "b" "ragas_single_turn" none "t0"

def twoJobsEnd : System where
  store := updateSet (updateSet bothCreated "a" (startedRecord "a")) "a"
    ((startedRecord "a").update (completedFields noScores "t2"))
  parties := [⟨question.event "a", .handling .returned none⟩,
    ⟨question.event "b", .handling .markRunning (some ⟨"t1", startedRecord "b"⟩)⟩]

section
variable {store store' : Store} {stage stage' : Stage} {action : Action} {other : Party}

theorem move_first
    (h : PartyStep noScoresEnv store (question.event "a") stage action store' stage') :
    SystemStep noScoresEnv ⟨store, [⟨question.event "a", stage⟩, other]⟩ ⟨"a", action⟩
      ⟨store', [⟨question.event "a", stage'⟩, other]⟩ :=
  @SystemStep.moved _ ⟨store, _⟩ (question.event "a") stage stage' _ _ [] [other] rfl h

theorem move_second
    (h : PartyStep noScoresEnv store (question.event "b") stage action store' stage') :
    SystemStep noScoresEnv ⟨store, [other, ⟨question.event "b", stage⟩]⟩ ⟨"b", action⟩
      ⟨store', [other, ⟨question.event "b", stage'⟩]⟩ :=
  @SystemStep.moved _ ⟨store, _⟩ (question.event "b") stage stage' _ _ [other] [] rfl h

end

theorem twoJobs_run :
    Run (SystemStep noScoresEnv) (.init Dict.empty) twoJobsTrace twoJobsEnd := by
  refine .cons (.accepted question "a" "t0" rfl) ?_
  refine .cons (.accepted question "b" "t0" rfl) ?_
  refine .cons (move_first .published) ?_
  refine .cons (move_second .published) ?_
  refine .cons (move_first .delivered) ?_
  refine .cons (move_second .delivered) ?_
  refine .cons (move_first (.read rfl rfl)) ?_
  refine .cons (move_second (.read rfl rfl)) ?_
  refine .cons (move_first (.written rfl)) ?_
  refine .cons (move_first (.evaluated ⟨.singleTurn, rfl, rfl⟩ rfl)) ?_
  refine .cons (move_first (.read rfl rfl)) ?_
  refine .cons (move_first (.written rfl)) ?_
  exact .single (move_first (.reported rfl))

end Demo

open Demo in
theorem jobs_independent_twoJobs :
    ∃ outcome, Party.Reports noScoresEnv twoJobsTrace twoJobsEnd.store
      ⟨question.event "a", .handling .returned none⟩ outcome :=
  (jobs_independent twoJobs_run).2.2 _ List.mem_cons_self trivial

end RagEval.Jobs
