import RagEval.Jobs.JobStatus

/-!
# Records and their statuses

An update patches the fields it names and no others, so what an earlier attempt left
in a record stays there. The record is consistent with its status throughout exactly
the runs of a task in which no update reaches a record that is already terminal.
-/

namespace RagEval.Jobs
open RagEval.Lib

/-- The fields of a record agree with its status. -/
structure Consistent (r : Record) : Prop where
  known : ∃ v ∈ [pending, running, completed, failed], r.get? "status" = some v
  whenPending : r.get? "status" = some pending → r.get? "result" = some .none ∧
    r.get? "error" = some .none ∧ r.get? "started_at" = some .none ∧
    r.get? "completed_at" = some .none
  whenRunning : r.get? "status" = some running → r.get? "result" = some .none ∧
    r.get? "error" = some .none ∧ r.get? "completed_at" = some .none
  whenCompleted : r.get? "status" = some completed →
    (∃ v, r.get? "result" = some v ∧ v ≠ .none) ∧ r.get? "error" = some .none
  whenFailed : r.get? "status" = some failed →
    (∃ v, r.get? "error" = some v ∧ v ≠ .none) ∧ r.get? "result" = some .none

/-- The stored record, if there is one, is consistent. -/
def ConsistentJob (jobId : String) (store : Store) : Prop :=
  ∀ r, getJob store jobId = some r → Consistent r

/-- The record has no terminal status. -/
def Live (r : Record) : Prop :=
  r.get? "status" ≠ some completed ∧ r.get? "status" ≠ some failed

theorem consistent_newRecord (jobId jobType : String) (idempotencyKey : Option String)
    (now : String) : Consistent (newRecord jobId jobType idempotencyKey now) := by
  have hstatus : (newRecord jobId jobType idempotencyKey now).get? "status" = some pending := rfl
  refine ⟨⟨_, by simp, hstatus⟩, fun _ => ⟨rfl, rfl, rfl, rfl⟩, ?_, ?_, ?_⟩
  all_goals
    intro h
    rw [hstatus] at h
    simp [pending, running, completed, failed] at h

section
variable {r : Record}

/-- A live record has no result, no error and no time of completion. -/
theorem Consistent.of_live (h : Consistent r) (hlive : Live r) :
    r.get? "result" = some .none ∧ r.get? "error" = some .none ∧
      r.get? "completed_at" = some .none := by
  obtain ⟨v, hv, hstatus⟩ := h.known
  simp only [List.mem_cons, List.not_mem_nil, or_false] at hv
  rcases hv with rfl | rfl | rfl | rfl
  · obtain ⟨h₁, h₂, -, h₄⟩ := h.whenPending hstatus
    exact ⟨h₁, h₂, h₄⟩
  · exact h.whenRunning hstatus
  · exact absurd hstatus hlive.1
  · exact absurd hstatus hlive.2

/-! A record of one status is consistent when it shows what that status asks for. -/

theorem consistent_iff_of_running (hstatus : r.get? "status" = some running) :
    Consistent r ↔ r.get? "result" = some .none ∧ r.get? "error" = some .none ∧
      r.get? "completed_at" = some .none := by
  refine ⟨fun h => h.whenRunning hstatus, fun hshown => ?_⟩
  refine ⟨⟨running, by simp, hstatus⟩, ?_, fun _ => hshown, ?_, ?_⟩
  all_goals
    intro h
    simp [hstatus, pending, running, completed, failed] at h

theorem consistent_iff_of_completed (hstatus : r.get? "status" = some completed) :
    Consistent r ↔
      (∃ v, r.get? "result" = some v ∧ v ≠ .none) ∧ r.get? "error" = some .none := by
  refine ⟨fun h => h.whenCompleted hstatus, fun hshown => ?_⟩
  refine ⟨⟨completed, by simp, hstatus⟩, ?_, ?_, fun _ => hshown, ?_⟩
  all_goals
    intro h
    simp [hstatus, pending, running, completed, failed] at h

theorem consistent_iff_of_failed (hstatus : r.get? "status" = some failed) :
    Consistent r ↔
      (∃ v, r.get? "error" = some v ∧ v ≠ .none) ∧ r.get? "result" = some .none := by
  refine ⟨fun h => h.whenFailed hstatus, fun hshown => ?_⟩
  refine ⟨⟨failed, by simp, hstatus⟩, ?_, ?_, ?_, fun _ => hshown⟩
  all_goals
    intro h
    simp [hstatus, pending, running, completed, failed] at h

/-- Only a completed record shows a result. -/
theorem Consistent.result_eq_iff (h : Consistent r) :
    r.get? "result" = some .none ↔ r.get? "status" ≠ some completed := by
  constructor
  · intro hresult hc
    obtain ⟨⟨v, hv, hne⟩, -⟩ := h.whenCompleted hc
    rw [hresult] at hv
    exact hne (Option.some.inj hv).symm
  · intro hc
    by_cases hf : r.get? "status" = some failed
    · exact (h.whenFailed hf).2
    · exact (h.of_live ⟨hc, hf⟩).1

/-- Only a failed record shows an error. -/
theorem Consistent.error_eq_iff (h : Consistent r) :
    r.get? "error" = some .none ↔ r.get? "status" ≠ some failed := by
  constructor
  · intro herror hf
    obtain ⟨⟨v, hv, hne⟩, -⟩ := h.whenFailed hf
    rw [herror] at hv
    exact hne (Option.some.inj hv).symm
  · intro hf
    by_cases hc : r.get? "status" = some completed
    · exact (h.whenCompleted hc).2
    · exact (h.of_live ⟨hc, hf⟩).2.1

/-- Marking a job running keeps its record consistent exactly when it was live. -/
theorem Consistent.markRunning_iff (h : Consistent r) (now : String) :
    Consistent (r.update (runningFields now)) ↔ Live r := by
  have hresult : (r.update (runningFields now)).get? "result" = r.get? "result" :=
    Dict.get?_update_of_none rfl
  have herror : (r.update (runningFields now)).get? "error" = r.get? "error" :=
    Dict.get?_update_of_none rfl
  have hat : (r.update (runningFields now)).get? "completed_at" = r.get? "completed_at" :=
    Dict.get?_update_of_none rfl
  rw [consistent_iff_of_running (Dict.get?_update_of_some rfl), hresult, herror, hat]
  constructor
  · rintro ⟨hr, he, -⟩
    exact ⟨h.result_eq_iff.mp hr, h.error_eq_iff.mp he⟩
  · exact h.of_live

/-- Marking a job completed keeps its record consistent exactly when it had not failed. -/
theorem Consistent.markCompleted_iff (h : Consistent r) (result : Result) (now : String) :
    Consistent (r.update (completedFields result now)) ↔ r.get? "status" ≠ some failed := by
  have hresult : (r.update (completedFields result now)).get? "result" = some (.dict result) :=
    Dict.get?_update_of_some rfl
  have herror : (r.update (completedFields result now)).get? "error" = r.get? "error" :=
    Dict.get?_update_of_none rfl
  rw [consistent_iff_of_completed (Dict.get?_update_of_some rfl), hresult, herror,
    h.error_eq_iff]
  simp

/-- Marking a job failed keeps its record consistent exactly when it had not completed. -/
theorem Consistent.markFailed_iff (h : Consistent r) (error now : String) :
    Consistent (r.update (failedFields error now)) ↔ r.get? "status" ≠ some completed := by
  have hresult : (r.update (failedFields error now)).get? "result" = r.get? "result" :=
    Dict.get?_update_of_none rfl
  have herror : (r.update (failedFields error now)).get? "error" = some (.str error) :=
    Dict.get?_update_of_some rfl
  rw [consistent_iff_of_failed (Dict.get?_update_of_some rfl), hresult, herror,
    h.result_eq_iff]
  simp

end

/-- What the position of a task says of a terminal job. -/
structure TaskState.Inv (jobId : String) (s : TaskState) : Prop where
  completed : status s.store jobId = some completed →
    s.pos ≠ .evaluate ∧ ∀ result, s.pos ≠ .markCompleted result
  failed : s.FailedIdle jobId
  consistent : ConsistentJob jobId s.store

/-- The steps whose update, if it takes effect, finds no terminal status. -/
def LiveStep (task : EvalTask) (service : EvaluationService) (jobId : String) (payload : Payload)
    (s : TaskState) (e : WorkerEvent) (s' : TaskState) : Prop :=
  TaskStep task service jobId payload s e s' ∧
    (e.Applies → ∀ r, getJob s.store jobId = some r → Live r)

/-- The steps that end in a consistent record. -/
def ConsistentStep (task : EvalTask) (service : EvaluationService) (jobId : String)
    (payload : Payload) (s : TaskState) (e : WorkerEvent) (s' : TaskState) : Prop :=
  TaskStep task service jobId payload s e s' ∧ ConsistentJob jobId s'.store

section
variable {task : EvalTask} {service : EvaluationService} {jobId : String} {payload : Payload}
  {s s' : TaskState} {e : WorkerEvent}

theorem status_of_getJob {store : Store} {r : Record} (h : getJob store jobId = some r) :
    status store jobId = r.get? "status" := by
  simp [status, h]

/-- An update of the store is consistent exactly when the patch of its record is. -/
theorem consistentJob_updateJob {store : Store} {fields : Record} :
    ConsistentJob jobId (updateJob store jobId fields) ↔
      ∀ r, getJob store jobId = some r → Consistent (r.update fields) := by
  simp only [ConsistentJob, getJob_updateJob, if_true, Option.map_eq_some_iff, forall_exists_index,
    and_imp]
  constructor
  · exact fun h r hr => h _ r hr rfl
  · rintro h r' r hr rfl
    exact h r hr

/-- From a state with the invariant, a step is live exactly when it ends in a
consistent record. -/
theorem liveStep_iff (hs : s.Inv jobId) :
    LiveStep task service jobId payload s e s' ↔ ConsistentStep task service jobId payload s e s' := by
  refine and_congr_right fun hstep => ?_
  cases hstep.effect with
  | expired hstore hpos he =>
    refine iff_of_true (fun ha => absurd ha he) fun r hr => ?_
    simp [hstore] at hr
  | notMarkedRunning _ hstore _ he | evaluated _ hstore _ he | evaluationRaised _ hstore _ he
  | notMarkedCompleted _ _ hstore _ he | notMarkedFailed _ _ hstore _ he
  | retried _ _ _ _ hstore _ he | gaveUp _ _ hstore _ he =>
    refine iff_of_true (fun ha => absurd ha he) ?_
    rw [hstore]
    exact hs.consistent
  | markedRunning now hpos hstore _ he =>
    rw [hstore, consistentJob_updateJob]
    simp only [he, forall_const]
    exact forall₂_congr fun r hr => ((hs.consistent r hr).markRunning_iff now).symm
  | markedCompleted result now hpos hstore _ he =>
    rw [hstore, consistentJob_updateJob]
    simp only [he, forall_const]
    refine forall₂_congr fun r hr => ?_
    rw [(hs.consistent r hr).markCompleted_iff]
    -- a job about to be marked completed does not show `completed` yet
    refine ⟨And.right, fun hf => ⟨fun hc => ?_, hf⟩⟩
    exact (hs.completed ((status_of_getJob hr).trans hc)).2 result hpos
  | markedFailed error now hpos hstore _ he =>
    rw [hstore, consistentJob_updateJob]
    simp only [he, forall_const]
    refine forall₂_congr fun r hr => ?_
    rw [(hs.consistent r hr).markFailed_iff]
    -- nor does a job about to be marked failed show `failed`
    refine ⟨And.left, fun hc => ⟨hc, fun hf => ?_⟩⟩
    have hidle := hs.failed ((status_of_getJob hr).trans hf)
    rw [hpos] at hidle
    exact hidle

theorem TaskState.Inv.step (h : ConsistentStep task service jobId payload s e s')
    (hs : s.Inv jobId) : s'.Inv jobId := by
  obtain ⟨hstep, hconsistent⟩ := h
  refine ⟨fun hc => ?_, hs.failed.step hstep, hconsistent⟩
  have hold : s'.store = s.store → s.pos ≠ .evaluate ∧ ∀ result, s.pos ≠ .markCompleted result :=
    fun he => hs.completed (he ▸ hc)
  cases hstep.effect with
  | expired hstore => simp [hstore] at hc
  | markedRunning now hpos hstore =>
    rw [hstore] at hc
    exact absurd hc (status_updateJob_ne rfl running_ne_completed)
  | markedFailed error now hpos hstore =>
    rw [hstore] at hc
    exact absurd hc (status_updateJob_ne rfl completed_ne_failed.symm)
  | evaluated hpos hstore => exact absurd hpos (hold hstore).1
  | markedCompleted result now hpos hstore hnext =>
    rcases hnext with hnext | ⟨-, error, hnext⟩
    all_goals
      rw [hnext]
      exact ⟨by simp, by simp⟩
  | notMarkedRunning _ _ hnext | evaluationRaised _ _ hnext | notMarkedCompleted _ _ _ hnext
  | notMarkedFailed _ _ _ hnext =>
    obtain ⟨error, hnext⟩ := hnext
    rw [hnext]
    exact ⟨by simp, by simp⟩
  | retried _ _ _ _ _ hnext | gaveUp _ _ _ hnext =>
    rw [hnext]
    exact ⟨by simp, by simp⟩

end

/-- **When records are consistent.** A created record is consistent, and the runs of a
task on it all of whose records are consistent are exactly the runs in which no update
takes effect on a terminal record. -/
theorem consistent_runs_iff (task : EvalTask) (service : EvaluationService) (jobId : String)
    (payload : Payload) (store : Store) (jobType : String) (idempotencyKey : Option String)
    (now : String) (trace : List WorkerEvent) (s : TaskState) :
    let s₀ := TaskState.init (createJob store jobId jobType idempotencyKey now)
    ConsistentJob jobId s₀.store ∧
      (Run (LiveStep task service jobId payload) s₀ trace s ↔
        Run (ConsistentStep task service jobId payload) s₀ trace s) := by
  intro s₀
  have hpending : status s₀.store jobId = some pending :=
    status_createJob store jobId jobType idempotencyKey now
  have hinit : s₀.Inv jobId := by
    refine ⟨fun hc => ?_, fun hf => ?_, fun r hr => ?_⟩
    · simp [hpending, pending, completed] at hc
    · simp [hpending, pending, failed] at hf
    · simp only [s₀, TaskState.init, getJob_createJob, if_true, Option.some.injEq] at hr
      exact hr ▸ consistent_newRecord jobId jobType idempotencyKey now
  exact ⟨hinit.consistent, Run.congr (I := fun t => t.Inv jobId) (fun ht => liveStep_iff ht)
    (fun ht hstep => ht.step ((liveStep_iff ht).mp hstep)) hinit⟩

namespace Demo

/-- A failed attempt and the start of the next one. -/
def retriedTrace : List WorkerEvent := failedTrace ++ [.retried, .updated "t3"]

end Demo

open Demo in
/-- A retried job runs with the error and the time of completion of its first attempt. -/
theorem retried_inconsistent :
    ∃ s r, Run Task (.init createdStore) retriedTrace s ∧
      getJob s.store "j" = some r ∧ r.get? "status" = some running ∧
      r.get? "error" = some (.str "timeout") ∧ r.get? "completed_at" = some (.str "t2") ∧
      ¬Consistent r := by
  obtain ⟨s, r, hs, hr, hstatus, herror, hat⟩ : ∃ s r,
      retriedTrace.foldlM (TaskState.next ragasSingleTurnTask "j") (.init createdStore) = some s ∧
      getJob s.store "j" = some r ∧ r.get? "status" = some running ∧
      r.get? "error" = some (.str "timeout") ∧ r.get? "completed_at" = some (.str "t2") :=
    ⟨_, _, rfl, rfl, rfl, rfl, rfl⟩
  refine ⟨s, r, task_run hs ?_, hr, hstatus, herror, hat, fun h => ?_⟩
  · rw [retriedTrace, List.forall_mem_append]
    simp only [List.forall_mem_cons]
    exact ⟨failedTrace_allowed.1, trivial, trivial, by simp⟩
  · have := (h.whenRunning hstatus).2.1
    rw [herror] at this
    cases this

end RagEval.Jobs
