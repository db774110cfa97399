import RagEval.Jobs.EvalWorker
import RagEval.Lib.Runs

/-!
# Records that expire under a handler

A record lives `JOB_TTL_SECONDS` after its last SET. The handler writes it when it
starts and when the evaluation has ended, and not in between; an update of an expired
record does nothing. A job that waited or ran too long loses its result.

## Main definitions

- `elapse` — time passes in the store
- `TimedStep` — a step of the handler, with the time before it
- `Timely` — no wait between two writes is as long as a record lives

## Main result

- `outcome_stored_iff` — exactly when the outcome is stored as the handler returns
-/

namespace RagEval.Jobs
open RagEval.Lib

/-- Seconds pass: every record has so many fewer to live. -/
def elapse (store : Store) (seconds : Nat) : Store :=
  store.filterMap fun entry =>
    if entry.ttl ≤ seconds then none else some { entry with ttl := entry.ttl - seconds }

/-- What happens at an `await`, `wait` seconds after the last; an update has its SET
`span` seconds after its GET, and any other call takes that long. -/
structure TimedEvent where
  wait : Nat
  event : WorkerEvent
  span : Nat

/-- `update_job` with `span` seconds between its commands. -/
def timedUpdate (store : Store) (jobId : String) (fields : Record) (span : Nat) : Store :=
  match updateGet store jobId fields with
  | none => elapse store span
  | some data => updateSet (elapse store span) jobId data

/-- The time an update writes that takes effect. -/
def WorkerEvent.written : WorkerEvent → Option String
  | .updated now => some now
  | .updateRaised true _ now => some now
  | _ => none

/-- What an event does to the store by the time it is over. -/
def HandlerState.timedWrite (jobId : String) (s : HandlerState) (t : TimedEvent) : Store :=
  match t.event.written.bind fun now => s.pos.fields now with
  | some fields => timedUpdate (elapse s.store t.wait) jobId fields t.span
  | none => elapse (elapse s.store t.wait) t.span

def HandlerState.timedNext (jobId : String) (s : HandlerState) (t : TimedEvent) :
    Option HandlerState :=
  (s.pos.next t.event).map fun pos => ⟨s.timedWrite jobId t, pos⟩

/-- One step of the handler of an event, on the clock. -/
def TimedStep (env : WorkerEnv) (event : EvalRequestedEvent) (s : HandlerState) (t : TimedEvent)
    (s' : HandlerState) : Prop :=
  s.timedNext event.jobId t = some s' ∧ env.Allows event t.event

/-- The record was last written `age` seconds ago: each update finds it, and it is there
in the end. -/
def Timely : Nat → List TimedEvent → Prop
  | age, [] => age < jobTtlSeconds
  | age, t :: rest =>
    match t.event.written with
    | some _ => age + t.wait < jobTtlSeconds ∧ Timely 0 rest
    | none => Timely (age + t.wait + t.span) rest

/-- The record shows that the job has ended. -/
def Ended (store : Store) (jobId : String) : Prop :=
  status store jobId = some completed ∨ status store jobId = some failed

/-! ## The record on the clock -/

@[simp] theorem get?_elapse (store : Store) (seconds : Nat) (k : String) :
    (elapse store seconds).get? k = (store.get? k).bind fun entry =>
      if entry.ttl ≤ seconds then none else some { entry with ttl := entry.ttl - seconds } :=
  Dict.get?_filterMap _ _ _

/-- The record of a job was written `age` seconds ago, if it is still there. -/
def Aged (jobId : String) (age : Nat) (store : Store) : Prop :=
  if age < jobTtlSeconds then ∃ data, store.get? (key jobId) = some ⟨data, jobTtlSeconds - age⟩
  else store.get? (key jobId) = none

section
variable {jobId : String} {age : Nat} {store : Store}

theorem aged_updateSet (store : Store) (jobId : String) (data : Record) :
    Aged jobId 0 (updateSet store jobId data) :=
  ⟨data, by simp [updateSet]⟩

theorem aged_createJob (store : Store) (jobId jobType : String) (idempotencyKey : Option String)
    (now : String) : Aged jobId 0 (createJob store jobId jobType idempotencyKey now) :=
  ⟨newRecord jobId jobType idempotencyKey now, by simp [createJob]⟩

theorem Aged.getJob_isSome_iff (h : Aged jobId age store) :
    (getJob store jobId).isSome ↔ age < jobTtlSeconds := by
  unfold Aged at h
  split at h
  · next hage =>
    obtain ⟨data, hget⟩ := h
    simp [getJob, hget, hage]
  · next hage => simp [getJob, h, hage]

theorem Aged.elapse (h : Aged jobId age store) (seconds : Nat) :
    Aged jobId (age + seconds) (elapse store seconds) := by
  unfold Aged at h ⊢
  split at h
  · obtain ⟨data, hget⟩ := h
    -- the seconds may be its last
    by_cases hage : age + seconds < jobTtlSeconds
    · have hle : ¬jobTtlSeconds - age ≤ seconds := by omega
      rw [if_pos hage]
      exact ⟨data, by simp [hget, hle, Nat.sub_sub]⟩
    · have hle : jobTtlSeconds - age ≤ seconds := by omega
      rw [if_neg hage]
      simp [hget, hle]
  · rw [if_neg (by omega)]
    simp [h]

/-- An update writes a record that is there, and leaves an expired one expired. -/
theorem Aged.timedUpdate (h : Aged jobId age store) (fields : Record) (span : Nat) :
    Aged jobId (if age < jobTtlSeconds then 0 else age + span)
      (timedUpdate store jobId fields span) := by
  have hiff := h.getJob_isSome_iff
  unfold Jobs.timedUpdate updateGet
  cases hg : getJob store jobId with
  | none =>
    have hage : ¬age < jobTtlSeconds := by simpa [hg] using hiff
    rw [if_neg hage]
    exact h.elapse span
  | some data =>
    have hage : age < jobTtlSeconds := by simpa [hg] using hiff
    rw [if_pos hage]
    exact aged_updateSet _ _ _

end

/-! ## The handler on the clock -/

/-- How old the record is after an event. -/
def ageAfter (age : Nat) (t : TimedEvent) : Nat :=
  if t.event.written.isSome ∧ age + t.wait < jobTtlSeconds then 0 else age + t.wait + t.span

/-- A record that is too old at an update is too old for good. -/
theorem timely_cons (age : Nat) (t : TimedEvent) (rest : List TimedEvent) :
    Timely age (t :: rest) ↔
      (t.event.written.isSome → age + t.wait < jobTtlSeconds) ∧ Timely (ageAfter age t) rest := by
  rw [Timely, ageAfter]
  cases t.event.written with
  | none => simp
  | some now => by_cases hage : age + t.wait < jobTtlSeconds <;> simp [hage]

theorem Timely.lt {age : Nat} {trace : List TimedEvent} (h : Timely age trace) :
    age < jobTtlSeconds := by
  induction trace generalizing age with
  | nil => exact h
  | cons t rest ih =>
    obtain ⟨hwritten, hrest⟩ := (timely_cons age t rest).mp h
    have := ih hrest
    unfold ageAfter at this
    split at this
    · omega
    · omega

section
variable {env : WorkerEnv} {event : EvalRequestedEvent} {s s' : HandlerState} {age : Nat}

/-- Updates take place at the positions that have fields to write. -/
theorem fields_of_written {pos pos' : HandlerPos} {e : WorkerEvent} {now : String}
    (h : pos.next e = some pos') (hw : e.written = some now) :
    ∃ fields, pos.fields now = some fields := by
  unfold HandlerPos.next at h
  split at h <;> first | exact ⟨_, rfl⟩ | cases hw | cases h

theorem TimedStep.aged {t : TimedEvent} (h : TimedStep env event s t s')
    (hs : Aged event.jobId age s.store) : Aged event.jobId (ageAfter age t) s'.store := by
  obtain ⟨pos, hnext, rfl⟩ := Option.map_eq_some_iff.mp h.1
  have hwait := hs.elapse t.wait
  simp only [HandlerState.timedWrite, ageAfter]
  cases hw : t.event.written with
  | none => simpa using hwait.elapse t.span
  | some now =>
    obtain ⟨fields, hfields⟩ := fields_of_written hnext hw
    simpa [hfields] using hwait.timedUpdate fields t.span

/-- The record is there in the end exactly when every update found it in time. -/
theorem getJob_isSome_iff_timely {trace : List TimedEvent}
    (h : Run (TimedStep env event) s trace s') (hs : Aged event.jobId age s.store) :
    (getJob s'.store event.jobId).isSome ↔ Timely age trace := by
  induction h generalizing age with
  | nil s => exact hs.getJob_isSome_iff
  | @cons s t u l ls head tail ih =>
    rw [timely_cons, ih (head.aged hs)]
    -- an update that found no record leaves an age at which no trace is timely
    refine ⟨fun h => ⟨fun hwritten => ?_, h⟩, And.right⟩
    have hlt := h.lt
    unfold ageAfter at hlt
    split at hlt
    · next hfound => exact hfound.2
    · omega

/-- What the record shows at a position, if it is still there. -/
def HandlerPos.Shown (r : Record) : HandlerPos → Prop
  | .publishCompleted _ => r.get? "status" = some completed
  | .publishFailed _ => r.get? "status" = some failed
  | .returned => r.get? "status" = some completed ∨ r.get? "status" = some failed
  | _ => True

def HandlerState.Shown (jobId : String) (s : HandlerState) : Prop :=
  ∀ r, getJob s.store jobId = some r → s.pos.Shown r

/-- Time takes records away and changes none. -/
theorem getJob_of_elapse {store : Store} {seconds : Nat} {id : String} {r : Record}
    (h : getJob (elapse store seconds) id = some r) : getJob store id = some r := by
  unfold getJob at h ⊢
  rw [get?_elapse] at h
  cases hg : store.get? (key id) with
  | none => simp [hg] at h
  | some entry =>
    simp only [hg, Option.bind_some] at h
    split at h
    · cases h
    · exact h

/-- After an update, the record is the patched one, if there is one. -/
theorem getJob_of_timedUpdate {store : Store} {jobId : String} {fields r : Record} {span : Nat}
    (h : getJob (timedUpdate store jobId fields span) jobId = some r) :
    ∃ data, getJob store jobId = some data ∧ r = data.update fields := by
  unfold timedUpdate updateGet at h
  cases hg : getJob store jobId with
  | none =>
    simp only [hg, Option.map_none] at h
    rw [getJob_of_elapse h] at hg
    cases hg
  | some data =>
    simp only [hg, Option.map_some, getJob_updateSet, if_true, Option.some.injEq] at h
    exact ⟨data, rfl, h.symm⟩

theorem getJob_of_written {t : TimedEvent} {jobId now : String} {fields r : Record}
    (hw : t.event.written = some now) (hf : s.pos.fields now = some fields)
    (hr : getJob (s.timedWrite jobId t) jobId = some r) : ∃ data : Record, r = data.update fields := by
  rw [HandlerState.timedWrite, hw, Option.bind_some, hf] at hr
  obtain ⟨data, -, rfl⟩ := getJob_of_timedUpdate hr
  exact ⟨data, rfl⟩

theorem getJob_of_unwritten {t : TimedEvent} {jobId : String} {r : Record}
    (hw : t.event.written = none) (hr : getJob (s.timedWrite jobId t) jobId = some r) :
    getJob s.store jobId = some r := by
  rw [HandlerState.timedWrite, hw, Option.bind_none] at hr
  exact getJob_of_elapse (getJob_of_elapse hr)

theorem TimedStep.shown {t : TimedEvent} (h : TimedStep env event s t s')
    (hs : s.Shown event.jobId) : s'.Shown event.jobId := by
  obtain ⟨pos, hnext, rfl⟩ := Option.map_eq_some_iff.mp h.1
  intro r hr
  unfold HandlerPos.next at hnext
  -- only the updates of the outcome and the calls that follow them lead where something is shown
  split at hnext
  case h_13 => cases hnext
  all_goals obtain rfl := Option.some.inj hnext
  case h_5 result now hpos he =>
    have hfields : s.pos.fields now = some (completedFields result now) := by rw [hpos]; rfl
    obtain ⟨data, rfl⟩ := getJob_of_written (by rw [he]; rfl) hfields hr
    exact Dict.get?_update_of_some rfl
  case h_9 error now hpos he =>
    have hfields : s.pos.fields now = some (failedFields error now) := by rw [hpos]; rfl
    obtain ⟨data, rfl⟩ := getJob_of_written (by rw [he]; rfl) hfields hr
    exact Dict.get?_update_of_some rfl
  case h_7 result hpos he =>
    have hold := hs r (getJob_of_unwritten (by rw [he]; rfl) hr)
    rw [hpos] at hold
    exact .inl hold
  case h_11 error hpos he =>
    have hold := hs r (getJob_of_unwritten (by rw [he]; rfl) hr)
    rw [hpos] at hold
    exact .inr hold
  all_goals trivial

end

/-- **When the outcome is stored**: as the handler returns, the record shows that the job
has ended exactly when no wait between two writes, from the creation on, and from the
last write on, was as long as a record lives. -/
theorem outcome_stored_iff {env : WorkerEnv} {event : EvalRequestedEvent} {store : Store}
    {jobType : String} {idempotencyKey : Option String} {now : String} {trace : List TimedEvent}
    {s : HandlerState}
    (h : Run (TimedStep env event)
      (.init (createJob store event.jobId jobType idempotencyKey now)) trace s)
    (hreturned : s.pos = .returned) :
    Ended s.store event.jobId ↔ Timely 0 trace := by
  have hshown : s.Shown event.jobId :=
    h.invariant (I := HandlerState.Shown event.jobId) (fun hs hstep => hstep.shown hs)
      fun r _ => trivial
  rw [← getJob_isSome_iff_timely h (aged_createJob store event.jobId jobType idempotencyKey now)]
  constructor
  · rintro (hended | hended)
    · obtain ⟨data, hdata⟩ := getJob_of_status hended
      simp [hdata]
    · obtain ⟨data, hdata⟩ := getJob_of_status hended
      simp [hdata]
  · intro hsome
    obtain ⟨r, hr⟩ := Option.isSome_iff_exists.mp hsome
    have hpos := hshown r hr
    rw [hreturned] at hpos
    simp only [Ended, status, hr, Option.bind_some]
    exact hpos

namespace Demo

def clockEnv : WorkerEnv where
  service := ⟨fun _ _ result => result = [("scores", .dict [])], fun _ _ _ => False⟩
  reprStr s := "'" ++ s ++ "'"

def clockEvent : EvalRequestedEvent := ⟨"j", "single_turn", [("user_input", .str "q")]⟩

def clockStore : Store := createJob Dict.empty "j" "ragas_single_turn" none "t0"

/-- A handler that starts after `wait` seconds in the queue. -/
def queuedTrace (wait : Nat) : List TimedEvent :=
  [⟨wait, .updated "t1", 0⟩, ⟨0, .evaluated [("scores", .dict [])], 60⟩, ⟨0, .updated "t2", 0⟩,
    ⟨0, .published, 0⟩]

theorem queued_run {wait : Nat} {s : HandlerState}
    (h : (queuedTrace wait).foldlM (HandlerState.timedNext "j") (.init clockStore) = some s) :
    Run (TimedStep clockEnv clockEvent) (.init clockStore) (queuedTrace wait) s := by
  refine .of_foldlM (P := fun t => clockEnv.Allows clockEvent t.event)
    (fun ht hnext => ⟨hnext, ht⟩) h ?_
  simp only [queuedTrace, List.forall_mem_cons]
  exact ⟨trivial, ⟨.singleTurn, rfl, rfl⟩, trivial, trivial, by simp⟩

end Demo

open Demo in
theorem outcome_stored_iff_minute :
    ∃ s : HandlerState, s.pos = .returned ∧ (Ended s.store "j" ↔ Timely 0 (queuedTrace 60)) := by
  obtain ⟨s, hs, hpos⟩ : ∃ s, (queuedTrace 60).foldlM (HandlerState.timedNext "j")
      (.init clockStore) = some s ∧ s.pos = .returned := ⟨_, rfl, rfl⟩
  exact ⟨s, hpos, outcome_stored_iff (queued_run hs) hpos⟩

open Demo in
/-- After an hour in the queue the record is gone; the handler returns all the same. -/
theorem outcome_lost_in_queue :
    ∃ s, Run (TimedStep clockEnv clockEvent) (.init clockStore) (queuedTrace 3600) s ∧
      s.pos = .returned ∧ getJob s.store "j" = none ∧ ¬Ended s.store "j" := by
  obtain ⟨s, hs, hpos, hnone⟩ : ∃ s, (queuedTrace 3600).foldlM (HandlerState.timedNext "j")
      (.init clockStore) = some s ∧ s.pos = .returned ∧ getJob s.store "j" = none :=
    ⟨_, rfl, rfl, rfl⟩
  refine ⟨s, queued_run hs, hpos, hnone, ?_⟩
  rintro (h | h) <;> simp [status, hnone] at h

end RagEval.Jobs
