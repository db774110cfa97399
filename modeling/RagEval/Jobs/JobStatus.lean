import RagEval.Jobs.EvalTasks
import RagEval.Jobs.EvalWorker

/-!
# Terminal statuses

Once no exception can be raised over a completed job, `completed` is final in both
workers. `failed` is final in the Kafka worker; the Celery task leaves it by a retry
and by nothing else.

## Main definitions

- `Quiet` — the steps that do not raise over a completed job
- `KeepsStatus` — the status stays, until the record expires
-/

namespace RagEval.Jobs
open RagEval.Lib

/-- The job shows the same status later, or its record has expired. -/
def KeepsStatus (jobId : String) (store store' : Store) : Prop :=
  status store' jobId = status store jobId ∨ getJob store' jobId = none

/-- The steps that raise no exception while the job is stored as completed. -/
def Quiet {σ : Type} (step : σ → WorkerEvent → σ → Prop) (store : σ → Store) (jobId : String)
    (s : σ) (e : WorkerEvent) (s' : σ) : Prop :=
  step s e s' ∧ (e.Raises → status (store s') jobId ≠ some completed)

theorem running_ne_completed : running ≠ completed := by simp [running, completed]

theorem running_ne_failed : running ≠ failed := by simp [running, failed]

theorem completed_ne_failed : completed ≠ failed := by simp [completed, failed]

/-- After an update no other status is shown than the written one. -/
theorem status_updateJob_ne {store : Store} {jobId : String} {v w : Value} {fields : Record}
    (hw : fields.get? "status" = some w) (hne : w ≠ v) :
    status (updateJob store jobId fields) jobId ≠ some v := by
  rw [status_updateJob store jobId hw]
  cases getJob store jobId with
  | none => simp
  | some data => simpa using hne

/-- An expired record does not come back. -/
theorem getJob_of_writes {store store' : Store} {jobId : String} (h : getJob store jobId = none)
    (hw : store' = store ∨ store' = expireJob store jobId ∨
      ∃ fields, store' = updateJob store jobId fields) : getJob store' jobId = none := by
  rcases hw with rfl | rfl | ⟨fields, rfl⟩
  · exact h
  · simp
  · simp [h]

theorem KeepsStatus.of_step {jobId : String} {store store' store'' : Store}
    (h : KeepsStatus jobId store store') (hw : store'' = store' ∨ store'' = expireJob store' jobId) :
    KeepsStatus jobId store store'' := by
  rcases hw with rfl | rfl
  · exact h
  · exact .inr (by simp)

/-! ## The Celery tasks -/

/-- Between two attempts, or after the last one. -/
def TaskPos.Idle : TaskPos → Prop
  | .markRunning => True
  | .retry _ => True
  | .gaveUp _ => True
  | _ => False

/-- After an attempt, with no further one begun. -/
def TaskPos.Stopped : TaskPos → Prop
  | .retry _ => True
  | .gaveUp _ => True
  | _ => False

/-- A completed job's task has returned. -/
def TaskState.CompletedReturned (jobId : String) (s : TaskState) : Prop :=
  status s.store jobId = some completed → ∃ result, s.pos = .returned result

/-- A failed job's task is between two attempts. -/
def TaskState.FailedIdle (jobId : String) (s : TaskState) : Prop :=
  status s.store jobId = some failed → s.pos.Idle

section
variable {task : EvalTask} {service : EvaluationService} {jobId : String} {payload : Payload}
  {s s' : TaskState} {e : WorkerEvent}

theorem TaskState.CompletedReturned.step
    (h : Quiet (TaskStep task service jobId payload) TaskState.store jobId s e s')
    (hs : s.CompletedReturned jobId) : s'.CompletedReturned jobId := by
  obtain ⟨hstep, hquiet⟩ := h
  intro hc
  -- a step that leaves the store alone starts from a returned task, which has no such step
  have hold : s'.store = s.store → ∃ result, s.pos = .returned result := fun he => hs (he ▸ hc)
  cases hstep.effect with
  | expired hstore hpos => simp [hstore] at hc
  | markedRunning now hpos hstore hnext =>
    rw [hstore] at hc
    exact absurd hc (status_updateJob_ne rfl running_ne_completed)
  | markedCompleted result now hpos hstore hnext =>
    rcases hnext with hnext | ⟨hraise, -⟩
    · exact ⟨result, hnext⟩
    · exact absurd hc (hquiet hraise)
  | markedFailed error now hpos hstore hnext =>
    rw [hstore] at hc
    exact absurd hc (status_updateJob_ne rfl completed_ne_failed.symm)
  | notMarkedRunning hpos hstore | evaluated hpos hstore | evaluationRaised hpos hstore
  | notMarkedCompleted _ hpos hstore | notMarkedFailed _ hpos hstore | retried _ _ hpos _ hstore
  | gaveUp _ hpos hstore =>
    obtain ⟨result, hr⟩ := hold hstore
    rw [hr] at hpos
    cases hpos

theorem TaskState.FailedIdle.step (h : TaskStep task service jobId payload s e s')
    (hs : s.FailedIdle jobId) : s'.FailedIdle jobId := by
  intro hf
  have hold : s'.store = s.store → s.pos.Idle := fun he => hs (he ▸ hf)
  cases h.effect with
  | expired hstore hpos => simp [hstore] at hf
  | markedRunning now hpos hstore hnext =>
    rw [hstore] at hf
    exact absurd hf (status_updateJob_ne rfl running_ne_failed)
  | markedCompleted result now hpos hstore hnext =>
    rw [hstore] at hf
    exact absurd hf (status_updateJob_ne rfl completed_ne_failed)
  | markedFailed error now hpos hstore hnext =>
    obtain ⟨error', hnext⟩ := hnext
    rw [hnext]
    trivial
  | notMarkedRunning hpos hstore hnext | notMarkedFailed _ hpos hstore hnext =>
    obtain ⟨error, hnext⟩ := hnext
    rw [hnext]
    trivial
  | retried _ _ _ _ _ hnext | gaveUp _ _ _ hnext =>
    rw [hnext]
    trivial
  | evaluated hpos hstore | evaluationRaised hpos hstore | notMarkedCompleted _ hpos hstore =>
    have := hold hstore
    rw [hpos] at this
    exact this.elim

/-- An evaluation that raises does so while the job is not completed. -/
theorem TaskStep.quiet (h : TaskStep task service jobId payload s e s')
    (hs : s.CompletedReturned jobId) (he : e.Raises → ∃ error, e = .evaluationRaised error) :
    Quiet (TaskStep task service jobId payload) TaskState.store jobId s e s' := by
  refine ⟨h, fun hr hc => ?_⟩
  obtain ⟨error, rfl⟩ := he hr
  obtain ⟨hnext, -⟩ := h
  unfold TaskState.next at hnext
  split at hnext
  case h_5 hpos heq =>
    obtain rfl := Option.some.inj hnext
    obtain ⟨result, hr⟩ := hs hc
    rw [hr] at hpos
    cases hpos
  all_goals simp_all

/-- A returned task does nothing more; only an expiry follows. -/
theorem TaskStep.of_returned (h : TaskStep task service jobId payload s e s') {result : Result}
    (hpos : s.pos = .returned result) :
    s'.store = expireJob s.store jobId ∧ s'.pos = .returned result := by
  cases h.effect with
  | expired hstore hpos' => exact ⟨hstore, hpos'.trans hpos⟩
  | markedRunning _ h' | notMarkedRunning h' | evaluated h' | evaluationRaised h'
  | markedCompleted _ _ h' | notMarkedCompleted _ h' | markedFailed _ _ h' | notMarkedFailed _ h'
  | retried _ _ h' | gaveUp _ h' =>
    rw [hpos] at h'
    cases h'

/-- A stopped task goes on with a retry only, and with none once they are used up. -/
theorem TaskStep.of_stopped (h : TaskStep task service jobId payload s e s') (hpos : s.pos.Stopped)
    (he : e ≠ .retried ∨ task.maxRetries ≤ s.retries) :
    (s'.store = s.store ∨ s'.store = expireJob s.store jobId) ∧ s'.pos.Stopped := by
  cases h.effect with
  | expired hstore hpos' => exact ⟨.inr hstore, hpos' ▸ hpos⟩
  | retried error he' _ hlt =>
    rcases he with he | he
    · exact absurd he' he
    · omega
  | gaveUp error _ hstore hnext => exact ⟨.inl hstore, hnext ▸ trivial⟩
  | markedRunning _ h' | notMarkedRunning h' | evaluated h' | evaluationRaised h'
  | markedCompleted _ _ h' | notMarkedCompleted _ h' | markedFailed _ _ h' | notMarkedFailed _ h' =>
    rw [h'] at hpos
    exact hpos.elim

/-- What is stored when a task has returned stays. -/
theorem keepsStatus_of_returned {trace : List WorkerEvent}
    (h : Run (TaskStep task service jobId payload) s trace s') {result : Result}
    (hpos : s.pos = .returned result) : KeepsStatus jobId s.store s'.store := by
  have hI : KeepsStatus jobId s.store s'.store ∧ s'.pos = .returned result := by
    refine h.invariant (I := fun t => KeepsStatus jobId s.store t.store ∧ t.pos = .returned result)
      ?_ ⟨.inl rfl, hpos⟩
    rintro t l t' ⟨hk, ht⟩ hstep
    obtain ⟨hstore, hpos'⟩ := hstep.of_returned ht
    exact ⟨hk.of_step (.inr hstore), hpos'⟩
  exact hI.1

/-- What is stored when a task has stopped stays until a retry. -/
theorem keepsStatus_of_stopped {trace : List WorkerEvent}
    (h : Run (TaskStep task service jobId payload) s trace s') (hpos : s.pos.Stopped)
    (hretry : .retried ∉ trace ∨ task.maxRetries ≤ s.retries) :
    KeepsStatus jobId s.store s'.store := by
  rcases hretry with hnot | hle
  · have hP : ∀ l ∈ trace, l ≠ .retried := fun l hl he => hnot (he ▸ hl)
    refine (h.invariant_of_labels (P := fun l => l ≠ .retried)
      (I := fun t => KeepsStatus jobId s.store t.store ∧ t.pos.Stopped) ?_ hP ⟨.inl rfl, hpos⟩).1
    rintro t l t' hl ⟨hk, ht⟩ hstep
    obtain ⟨hstore, hpos'⟩ := hstep.of_stopped ht (.inl hl)
    exact ⟨hk.of_step hstore, hpos'⟩
  · refine (h.invariant (I := fun t => KeepsStatus jobId s.store t.store ∧ t.pos.Stopped ∧
      task.maxRetries ≤ t.retries) ?_ ⟨.inl rfl, hpos, hle⟩).1
    rintro t l t' ⟨hk, ht, hr⟩ hstep
    obtain ⟨hstore, hpos'⟩ := hstep.of_stopped ht (.inr hr)
    exact ⟨hk.of_step hstore, hpos', hr.trans hstep.retries_le⟩

end

/-! ## The Kafka handler -/

/-- The handler of a completed job has at most its publication left, and so does the
handler of a failed job. -/
structure HandlerState.Settled (jobId : String) (s : HandlerState) : Prop where
  completed : status s.store jobId = some completed →
    (∃ result, s.pos = .publishCompleted result) ∨ s.pos = .returned
  failed : status s.store jobId = some failed →
    (∃ error, s.pos = .publishFailed error) ∨ s.pos = .returned ∨ ∃ error, s.pos = .raised error

section
variable {env : WorkerEnv} {event : EvalRequestedEvent} {s s' : HandlerState} {e : WorkerEvent}

/-- Where a step ends that leaves or makes the job completed. -/
theorem HandlerStep.pos_of_completed
    (h : Quiet (HandlerStep env event) HandlerState.store event.jobId s e s')
    (hs : s.Settled event.jobId) (hc : status s'.store event.jobId = some completed) :
    (∃ result, s'.pos = .publishCompleted result) ∨ s'.pos = .returned := by
  obtain ⟨hstep, hquiet⟩ := h
  have hold : s'.store = s.store → (∃ result, s.pos = .publishCompleted result) ∨ s.pos = .returned :=
    fun he => hs.completed (he ▸ hc)
  cases hstep.effect with
  | expired hstore hpos => simp [hstore] at hc
  | markedRunning now hpos hstore hnext =>
    rw [hstore] at hc
    exact absurd hc (status_updateJob_ne rfl running_ne_completed)
  | markedCompleted result now hpos hstore hnext =>
    rcases hnext with hnext | ⟨hraise, -⟩
    · exact .inl ⟨result, hnext⟩
    · exact absurd hc (hquiet hraise)
  | markedFailed error now hpos hstore hnext =>
    rw [hstore] at hc
    exact absurd hc (status_updateJob_ne rfl completed_ne_failed.symm)
  | publishedCompleted result hpos hstore hnext =>
    rcases hnext with hnext | ⟨hraise, -⟩
    · exact .inr hnext
    · exact absurd hc (hquiet hraise)
  | notMarkedRunning hpos hstore | evaluated hpos hstore | evaluationRaised hpos hstore
  | notMarkedCompleted _ hpos hstore | notMarkedFailed _ hpos hstore
  | publishedFailed _ hpos hstore =>
    rcases hold hstore with ⟨result, hr⟩ | hr
    all_goals
      rw [hr] at hpos
      cases hpos

/-- Where a step ends that leaves or makes the job failed. -/
theorem HandlerStep.pos_of_failed (h : HandlerStep env event s e s') (hs : s.Settled event.jobId)
    (hf : status s'.store event.jobId = some failed) :
    (∃ error, s'.pos = .publishFailed error) ∨ s'.pos = .returned ∨
      ∃ error, s'.pos = .raised error := by
  have hold : s'.store = s.store → (∃ error, s.pos = .publishFailed error) ∨ s.pos = .returned ∨
      ∃ error, s.pos = .raised error :=
    fun he => hs.failed (he ▸ hf)
  cases h.effect with
  | expired hstore hpos => simp [hstore] at hf
  | markedRunning now hpos hstore hnext =>
    rw [hstore] at hf
    exact absurd hf (status_updateJob_ne rfl running_ne_failed)
  | markedCompleted result now hpos hstore hnext =>
    rw [hstore] at hf
    exact absurd hf (status_updateJob_ne rfl completed_ne_failed)
  | markedFailed error now hpos hstore hnext =>
    rcases hnext with hnext | hnext
    · exact .inl ⟨error, hnext⟩
    · exact .inr (.inr hnext)
  | publishedFailed error hpos hstore hnext => exact .inr hnext
  | notMarkedFailed error hpos hstore hnext => exact .inr (.inr hnext)
  | notMarkedRunning hpos hstore | evaluated hpos hstore | evaluationRaised hpos hstore
  | notMarkedCompleted _ hpos hstore | publishedCompleted _ hpos hstore =>
    rcases hold hstore with ⟨error, hr⟩ | hr | ⟨error, hr⟩
    all_goals
      rw [hr] at hpos
      cases hpos

theorem HandlerState.Settled.step
    (h : Quiet (HandlerStep env event) HandlerState.store event.jobId s e s')
    (hs : s.Settled event.jobId) : s'.Settled event.jobId :=
  ⟨HandlerStep.pos_of_completed h hs, HandlerStep.pos_of_failed h.1 hs⟩

/-- An evaluation that raises does so while the job is not completed. -/
theorem HandlerStep.quiet (h : HandlerStep env event s e s') (hs : s.Settled event.jobId)
    (he : e.Raises → ∃ error, e = .evaluationRaised error) :
    Quiet (HandlerStep env event) HandlerState.store event.jobId s e s' := by
  refine ⟨h, fun hr hc => ?_⟩
  obtain ⟨error, rfl⟩ := he hr
  obtain ⟨hnext, -⟩ := h
  simp only [HandlerState.next, Option.map_eq_some_iff] at hnext
  obtain ⟨pos, hpos, rfl⟩ := hnext
  rcases hs.completed hc with ⟨result, hpos'⟩ | hpos'
  · rw [hpos'] at hpos
    cases hpos
  · rw [hpos'] at hpos
    cases hpos

/-- A settled handler leaves a terminal status alone. -/
theorem HandlerStep.keepsStatus (h : HandlerStep env event s e s')
    (hs : s.Settled event.jobId)
    (ht : status s.store event.jobId = some completed ∨ status s.store event.jobId = some failed) :
    s'.store = s.store ∨ s'.store = expireJob s.store event.jobId := by
  have hpos : (∃ result, s.pos = .publishCompleted result) ∨ s.pos = .returned ∨
      (∃ error, s.pos = .publishFailed error) ∨ ∃ error, s.pos = .raised error := by
    rcases ht with ht | ht
    · rcases hs.completed ht with h | h
      · exact .inl h
      · exact .inr (.inl h)
    · rcases hs.failed ht with h | h | h
      · exact .inr (.inr (.inl h))
      · exact .inr (.inl h)
      · exact .inr (.inr (.inr h))
  cases h.effect with
  | expired hstore => exact .inr hstore
  | notMarkedRunning _ hstore | evaluated _ hstore | evaluationRaised _ hstore
  | notMarkedCompleted _ _ hstore | publishedCompleted _ _ hstore | notMarkedFailed _ _ hstore
  | publishedFailed _ _ hstore => exact .inl hstore
  | markedRunning _ h' | markedCompleted _ _ h' | markedFailed _ _ h' =>
    rcases hpos with ⟨_, hp⟩ | hp | ⟨_, hp⟩ | ⟨_, hp⟩
    all_goals
      rw [hp] at h'
      cases h'

theorem keepsStatus_of_settled {trace : List WorkerEvent}
    (h : Run (Quiet (HandlerStep env event) HandlerState.store event.jobId) s trace s')
    (hs : s.Settled event.jobId)
    (ht : status s.store event.jobId = some completed ∨ status s.store event.jobId = some failed) :
    KeepsStatus event.jobId s.store s'.store := by
  refine (h.invariant (I := fun t => KeepsStatus event.jobId s.store t.store ∧
    t.Settled event.jobId) ?_ ⟨.inl rfl, hs⟩).1
  rintro t l t' ⟨hk, hsettled⟩ hstep
  refine ⟨?_, HandlerState.Settled.step hstep hsettled⟩
  rcases hk with hk | hk
  · exact KeepsStatus.of_step (.inl hk) (hstep.1.keepsStatus hsettled (hk ▸ ht))
  · exact .inr (getJob_of_writes hk hstep.1.store)

end

/-! ## Both workers -/

theorem status_createJob (store : Store) (jobId jobType : String) (idempotencyKey : Option String)
    (now : String) : status (createJob store jobId jobType idempotencyKey now) jobId = some pending := by
  simp only [status, getJob_createJob, if_true, Option.bind_some]
  rfl

/-- **Terminal statuses are final** in runs without an exception over a completed job:
in the Celery tasks `completed` for good and `failed` until a retry begins, of which
there are at most `max_retries`; in the Kafka handler both for good. -/
theorem terminal_status_final (task : EvalTask) (service : EvaluationService) (payload : Payload)
    (env : WorkerEnv) (event : EvalRequestedEvent) (store : Store) (jobType : String)
    (idempotencyKey : Option String) (now : String) :
    (∀ jobId trace trace' s s',
      Run (Quiet (TaskStep task service jobId payload) TaskState.store jobId)
        (.init (createJob store jobId jobType idempotencyKey now)) trace s →
      Run (Quiet (TaskStep task service jobId payload) TaskState.store jobId) s trace' s' →
        (status s.store jobId = some completed → KeepsStatus jobId s.store s'.store) ∧
        (status s.store jobId = some failed → s.pos ≠ .markRunning →
          .retried ∉ trace' ∨ task.maxRetries ≤ s.retries →
            KeepsStatus jobId s.store s'.store)) ∧
    ∀ trace trace' s s',
      Run (Quiet (HandlerStep env event) HandlerState.store event.jobId)
        (.init (createJob store event.jobId jobType idempotencyKey now)) trace s →
      Run (Quiet (HandlerStep env event) HandlerState.store event.jobId) s trace' s' →
        status s.store event.jobId = some completed ∨ status s.store event.jobId = some failed →
          KeepsStatus event.jobId s.store s'.store := by
  constructor
  · intro jobId trace trace' s s' hrun hrun'
    have hpending := status_createJob store jobId jobType idempotencyKey now
    have hcompleted : s.CompletedReturned jobId :=
      hrun.invariant (I := fun t => t.CompletedReturned jobId) (fun ht hstep => ht.step hstep)
        fun hc => by simp [TaskState.init, hpending, pending, completed] at hc
    have hfailed : s.FailedIdle jobId :=
      hrun.invariant (I := fun t => t.FailedIdle jobId) (fun ht hstep => ht.step hstep.1)
        fun hf => by simp [TaskState.init, hpending, pending, failed] at hf
    have hrun'' : Run (TaskStep task service jobId payload) s trace' s' := hrun'.mono And.left
    refine ⟨fun hc => ?_, fun hf hbegun hretry => ?_⟩
    · obtain ⟨result, hpos⟩ := hcompleted hc
      exact keepsStatus_of_returned hrun'' hpos
    · have hidle := hfailed hf
      refine keepsStatus_of_stopped hrun'' ?_ hretry
      cases hpos : s.pos with
      | markRunning => exact absurd hpos hbegun
      | retry error => trivial
      | gaveUp error => trivial
      | evaluate | markCompleted _ | markFailed _ | returned _ =>
        rw [hpos] at hidle
        exact hidle.elim
  · intro trace trace' s s' hrun hrun' ht
    have hpending := status_createJob store event.jobId jobType idempotencyKey now
    have hinit : (HandlerState.init (createJob store event.jobId jobType idempotencyKey now)).Settled
        event.jobId := by
      constructor
      · intro hc
        simp [HandlerState.init, hpending, pending, completed] at hc
      · intro hf
        simp [HandlerState.init, hpending, pending, failed] at hf
    have hsettled : s.Settled event.jobId :=
      hrun.invariant (I := fun t => t.Settled event.jobId) (fun ht hstep => ht.step hstep) hinit
    exact keepsStatus_of_settled hrun' hsettled ht

namespace Demo

def scores : Result := [("scores", .dict [("faithfulness", .int 1)])]

/-- An evaluation returns one result, or times out. -/
def service : EvaluationService where
  returns _ _ result := result = scores
  raises _ _ error := error = "timeout"

def env : WorkerEnv := ⟨service, fun s => "'" ++ s ++ "'"⟩

def event : EvalRequestedEvent := ⟨"j", "single_turn", [("user_input", .str "q")]⟩

def createdStore : Store := createJob Dict.empty "j" "ragas_single_turn" none "t0"

def completedTrace : List WorkerEvent := [.updated "t1", .evaluated scores, .updated "t2"]

def failedTrace : List WorkerEvent := [.updated "t1", .evaluationRaised "timeout", .updated "t2"]

abbrev Task := TaskStep ragasSingleTurnTask service "j" event.evalInput

theorem task_run {s s' : TaskState} {trace : List WorkerEvent}
    (h : trace.foldlM (TaskState.next ragasSingleTurnTask "j") s = some s')
    (hallows : ∀ e ∈ trace, ragasSingleTurnTask.Allows service event.evalInput e) :
    Run Task s trace s' :=
  .of_foldlM (fun he hnext => ⟨hnext, he⟩) h hallows

theorem handler_run {s s' : HandlerState} {trace : List WorkerEvent}
    (h : trace.foldlM (HandlerState.next "j") s = some s')
    (hallows : ∀ e ∈ trace, env.Allows event e) : Run (HandlerStep env event) s trace s' :=
  .of_foldlM (fun he hnext => ⟨hnext, he⟩) h hallows

theorem quiet_run {σ : Type} {step : σ → WorkerEvent → σ → Prop} {store : σ → Store} {s s' : σ}
    {trace : List WorkerEvent} (h : Run step s trace s') (hquiet : ∀ e ∈ trace, ¬e.Raises) :
    Run (Quiet step store "j") s trace s' := by
  induction h with
  | nil s => exact .nil s
  | cons head tail ih =>
    rw [List.forall_mem_cons] at hquiet
    exact .cons ⟨head, fun hr => absurd hr hquiet.1⟩ (ih hquiet.2)

/-- Four attempts, all of which time out. -/
def exhaustedTrace : List WorkerEvent :=
  failedTrace ++ .retried :: (failedTrace ++ .retried :: (failedTrace ++ .retried :: failedTrace))

/-- Of the exceptions only those of evaluations. -/
def EvaluationsRaise (trace : List WorkerEvent) : Prop :=
  ∀ e ∈ trace, e.Raises → ∃ error, e = .evaluationRaised error

theorem quiet_task_run {s s' : TaskState} {trace : List WorkerEvent}
    (h : trace.foldlM (TaskState.next ragasSingleTurnTask "j") s = some s')
    (hallows : ∀ e ∈ trace, ragasSingleTurnTask.Allows service event.evalInput e)
    (hraise : EvaluationsRaise trace) (hs : s.CompletedReturned "j") :
    Run (Quiet Task TaskState.store "j") s trace s' := by
  have hrun : Run (fun s e s' => Task s e s' ∧ (e.Raises → ∃ error, e = .evaluationRaised error))
      s trace s' :=
    .of_foldlM (P := fun e => ragasSingleTurnTask.Allows service event.evalInput e ∧
      (e.Raises → ∃ error, e = .evaluationRaised error)) (fun he hnext => ⟨⟨hnext, he.1⟩, he.2⟩) h
      fun e he => ⟨hallows e he, hraise e he⟩
  refine hrun.of_invariant (I := fun t => t.CompletedReturned "j") (fun ht hstep => ?_) hs
  have hquiet := hstep.1.quiet ht hstep.2
  exact ⟨hquiet, ht.step hquiet⟩

theorem quiet_handler_run {s s' : HandlerState} {trace : List WorkerEvent}
    (h : trace.foldlM (HandlerState.next "j") s = some s')
    (hallows : ∀ e ∈ trace, env.Allows event e) (hraise : EvaluationsRaise trace)
    (hs : s.Settled "j") : Run (Quiet (HandlerStep env event) HandlerState.store "j") s trace s' := by
  have hrun : Run (fun s e s' => HandlerStep env event s e s' ∧
      (e.Raises → ∃ error, e = .evaluationRaised error)) s trace s' :=
    .of_foldlM (P := fun e => env.Allows event e ∧
      (e.Raises → ∃ error, e = .evaluationRaised error)) (fun he hnext => ⟨⟨hnext, he.1⟩, he.2⟩) h
      fun e he => ⟨hallows e he, hraise e he⟩
  refine hrun.of_invariant (I := fun t => t.Settled "j") (fun ht hstep => ?_) hs
  have hquiet := HandlerStep.quiet hstep.1 ht hstep.2
  exact ⟨hquiet, HandlerState.Settled.step hquiet ht⟩

theorem createdStore_pending : status createdStore "j" = some pending := rfl

theorem created_completedReturned : (TaskState.init createdStore).CompletedReturned "j" := by
  intro hc
  simp [TaskState.init, createdStore_pending, pending, completed] at hc

theorem created_settled : (HandlerState.init createdStore).Settled "j" := by
  constructor
  · intro hc
    simp [HandlerState.init, createdStore_pending, pending, completed] at hc
  · intro hf
    simp [HandlerState.init, createdStore_pending, pending, failed] at hf

theorem completedTrace_allowed :
    (∀ e ∈ completedTrace, ragasSingleTurnTask.Allows service event.evalInput e) ∧
      (∀ e ∈ completedTrace, env.Allows event e) ∧ EvaluationsRaise completedTrace := by
  simp only [completedTrace, EvaluationsRaise, List.forall_mem_cons]
  exact ⟨⟨trivial, rfl, trivial, by simp⟩, ⟨trivial, ⟨.singleTurn, rfl, rfl⟩, trivial, by simp⟩,
    False.elim, False.elim, False.elim, by simp⟩

theorem failedTrace_allowed :
    (∀ e ∈ failedTrace, ragasSingleTurnTask.Allows service event.evalInput e) ∧
      (∀ e ∈ failedTrace, env.Allows event e) ∧ EvaluationsRaise failedTrace := by
  simp only [failedTrace, EvaluationsRaise, List.forall_mem_cons]
  exact ⟨⟨trivial, rfl, trivial, by simp⟩, ⟨trivial, rfl, trivial, by simp⟩,
    False.elim, fun _ => ⟨_, rfl⟩, False.elim, by simp⟩

theorem exhaustedTrace_allowed :
    (∀ e ∈ exhaustedTrace, ragasSingleTurnTask.Allows service event.evalInput e) ∧
      EvaluationsRaise exhaustedTrace := by
  obtain ⟨hallows, -, hraise⟩ := failedTrace_allowed
  unfold EvaluationsRaise at hraise ⊢
  simp only [exhaustedTrace, List.forall_mem_append, List.forall_mem_cons]
  exact ⟨⟨hallows, trivial, hallows, trivial, hallows, trivial, hallows⟩,
    hraise, False.elim, hraise, False.elim, hraise, False.elim, hraise⟩

end Demo

open Demo in
/-- A task that completed until the record expires, and one that gives up; a handler whose
publication follows, of a completed and of a failed job. -/
theorem terminal_status_final_later :
    (∃ s s' : TaskState, status s.store "j" = some completed ∧ Run Task s [.expired] s' ∧
        KeepsStatus "j" s.store s'.store) ∧
      (∃ s s' : TaskState, status s.store "j" = some failed ∧ Run Task s [.retried] s' ∧
        s'.pos = .gaveUp "timeout" ∧ KeepsStatus "j" s.store s'.store) ∧
      (∃ s s' : HandlerState, status s.store "j" = some completed ∧
        Run (HandlerStep env event) s [.published] s' ∧ KeepsStatus "j" s.store s'.store) ∧
      ∃ s s' : HandlerState, status s.store "j" = some failed ∧
        Run (HandlerStep env event) s [.published] s' ∧ KeepsStatus "j" s.store s'.store := by
  have hfinal := terminal_status_final ragasSingleTurnTask service event.evalInput env event
    Dict.empty "ragas_single_turn" none "t0"
  obtain ⟨htask, hhandler, hraise⟩ := completedTrace_allowed
  obtain ⟨-, hhandler', hraise'⟩ := failedTrace_allowed
  obtain ⟨htask'', hraise''⟩ := exhaustedTrace_allowed
  have hquiet {e : WorkerEvent} (he : ¬e.Raises) : ∀ e' ∈ [e], ¬e'.Raises := by simpa using he
  have hpublished : ∀ e ∈ [WorkerEvent.published], env.Allows event e := by
    simp [WorkerEnv.Allows]
  refine ⟨?_, ?_, ?_, ?_⟩
  · obtain ⟨s, s', hs, hc, hs'⟩ : ∃ s s',
        completedTrace.foldlM (TaskState.next ragasSingleTurnTask "j") (.init createdStore) = some s ∧
          status s.store "j" = some completed ∧
        [.expired].foldlM (TaskState.next ragasSingleTurnTask "j") s = some s' := ⟨_, _, rfl, rfl, rfl⟩
    have hrun := quiet_task_run hs htask hraise created_completedReturned
    have hlater := task_run hs' (by simp [EvalTask.Allows])
    exact ⟨s, s', hc, hlater, (hfinal.1 "j" _ _ _ _ hrun (quiet_run hlater (hquiet id))).1 hc⟩
  · obtain ⟨s, s', hs, hf, hpos, hretries, hs', hpos'⟩ : ∃ s s',
        exhaustedTrace.foldlM (TaskState.next ragasSingleTurnTask "j") (.init createdStore) = some s ∧
          status s.store "j" = some failed ∧ s.pos = .retry "timeout" ∧ s.retries = 3 ∧
        [.retried].foldlM (TaskState.next ragasSingleTurnTask "j") s = some s' ∧
          s'.pos = .gaveUp "timeout" := ⟨_, _, rfl, rfl, rfl, rfl, rfl, rfl⟩
    have hrun := quiet_task_run hs htask'' hraise'' created_completedReturned
    have hlater := task_run hs' (by simp [EvalTask.Allows])
    refine ⟨s, s', hf, hlater, hpos', (hfinal.1 "j" _ _ _ _ hrun
      (quiet_run hlater (hquiet id))).2 hf ?_ (.inr hretries.ge)⟩
    rw [hpos]
    simp
  · obtain ⟨s, s', hs, hc, hs'⟩ : ∃ s s',
        completedTrace.foldlM (HandlerState.next "j") (.init createdStore) = some s ∧
          status s.store "j" = some completed ∧
        [.published].foldlM (HandlerState.next "j") s = some s' := ⟨_, _, rfl, rfl, rfl⟩
    have hlater := handler_run hs' hpublished
    exact ⟨s, s', hc, hlater, hfinal.2 _ _ _ _
      (quiet_handler_run hs hhandler hraise created_settled) (quiet_run hlater (hquiet id)) (.inl hc)⟩
  · obtain ⟨s, s', hs, hf, hs'⟩ : ∃ s s',
        failedTrace.foldlM (HandlerState.next "j") (.init createdStore) = some s ∧
          status s.store "j" = some failed ∧
        [.published].foldlM (HandlerState.next "j") s = some s' := ⟨_, _, rfl, rfl, rfl⟩
    have hlater := handler_run hs' hpublished
    exact ⟨s, s', hf, hlater, hfinal.2 _ _ _ _
      (quiet_handler_run hs hhandler' hraise' created_settled) (quiet_run hlater (hquiet id)) (.inr hf)⟩

open Demo in
/-- A retry takes a failed job back to `running`; a publication that raises takes a
completed job to `failed`. -/
theorem terminal_status_left :
    (∃ s s' : TaskState, Run Task (.init createdStore) failedTrace s ∧
      status s.store "j" = some failed ∧ Run Task s [.retried, .updated "t3"] s' ∧
      status s'.store "j" = some running) ∧
    ∃ s s' : HandlerState, Run (HandlerStep env event) (.init createdStore) completedTrace s ∧
      status s.store "j" = some completed ∧
      Run (HandlerStep env event) s [.publishRaised "broker down", .updated "t3"] s' ∧
      status s'.store "j" = some failed := by
  constructor
  · obtain ⟨s, s', hs, hf, hs', hr⟩ : ∃ s s',
        failedTrace.foldlM (TaskState.next ragasSingleTurnTask "j") (.init createdStore) = some s ∧
          status s.store "j" = some failed ∧
        [.retried, .updated "t3"].foldlM (TaskState.next ragasSingleTurnTask "j") s = some s' ∧
          status s'.store "j" = some running := ⟨_, _, rfl, rfl, rfl, rfl⟩
    refine ⟨s, s', task_run hs failedTrace_allowed.1, hf, task_run hs' ?_, hr⟩
    simp only [List.forall_mem_cons]
    exact ⟨trivial, trivial, by simp⟩
  · obtain ⟨s, s', hs, hc, hs', hf⟩ : ∃ s s',
        completedTrace.foldlM (HandlerState.next "j") (.init createdStore) = some s ∧
          status s.store "j" = some completed ∧
        [.publishRaised "broker down", .updated "t3"].foldlM (HandlerState.next "j") s = some s' ∧
          status s'.store "j" = some failed := ⟨_, _, rfl, rfl, rfl, rfl⟩
    refine ⟨s, s', handler_run hs completedTrace_allowed.2.1, hc, handler_run hs' ?_, hf⟩
    simp only [List.forall_mem_cons]
    exact ⟨trivial, trivial, by simp⟩

end RagEval.Jobs
