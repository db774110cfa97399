import Mathlib.Logic.Relation
import RagEval.Core.Settings
import RagEval.Jobs.IndependentJobs
import RagEval.Jobs.RecordSchema

/-!
# What a polling client sees

`app/api/v2/jobs_router.py` over the store of `EvalSystem`, while requests and handlers of any
number of jobs go on. A job has made some progress, from which the whole response is told, and
progress is only ever made.

## Main definitions

- `getJobStatus` — the endpoint
- `Progress`, `Progress.Advances` — how far a job has come, and how it gets further
- `Watched` — the record of a job and the stage of its party agree on the progress

## Main result

- `polls_advance` — every poll of an accepted job is answered, and a later one from later progress
-/

namespace RagEval.Jobs
open RagEval.Lib RagEval.Core RagEval.Api

/-- `get_job_status_v2`; `describe` is the text of pydantic's `ValidationError`. -/
def getJobStatus (describe : Record → String) (store : Store) (jobId : String) :
    Except Raised JobStatusResponse :=
  match getJob store jobId with
  | none => .error (.http 404 ("Job '" ++ jobId ++ "' not found or expired") [])
  | some job =>
    match JobStatusResponse.ofRecord job with
    | some response => .ok response
    | none => .error (.python (.valueError (describe job)))

/-! ## Progress -/

/-- How far a job has come. -/
inductive Progress where
  | pending
  | running (startedAt : String)
  | completed (startedAt : String) (result : Result) (completedAt : String)
  | failed (startedAt error completedAt : String)

/-- A job is started once, and ends once. -/
inductive Progress.Advances : Progress → Progress → Prop
  | started (startedAt : String) : Advances .pending (.running startedAt)
  | completed (startedAt : String) (result : Result) (completedAt : String) :
      Advances (.running startedAt) (.completed startedAt result completedAt)
  | failed (startedAt error completedAt : String) :
      Advances (.running startedAt) (.failed startedAt error completedAt)

def Progress.Ended : Progress → Prop
  | .completed .. => True
  | .failed .. => True
  | _ => False

/-- The record of a job of this creation. -/
def Progress.record (c : Creation) : Progress → Record
  | .pending => newRecord c.jobId c.jobType c.idempotencyKey c.now
  | .running startedAt =>
    (newRecord c.jobId c.jobType c.idempotencyKey c.now).update (runningFields startedAt)
  | .completed startedAt result completedAt =>
    ((newRecord c.jobId c.jobType c.idempotencyKey c.now).update (runningFields startedAt)).update
      (completedFields result completedAt)
  | .failed startedAt error completedAt =>
    ((newRecord c.jobId c.jobType c.idempotencyKey c.now).update (runningFields startedAt)).update
      (failedFields error completedAt)

/-- What a client is shown of it. -/
def Progress.response (c : Creation) (progress : Progress) : JobStatusResponse :=
  let shown : JobStatusResponse :=
    { jobId := c.jobId, jobType := c.jobType, status := .pending, result := none, error := none,
      idempotencyKey := c.idempotencyKey, createdAt := c.now, startedAt := none,
      completedAt := none }
  match progress with
  | .pending => shown
  | .running startedAt => { shown with status := .running, startedAt := some startedAt }
  | .completed startedAt result completedAt =>
    { shown with
      status := .completed, result := some result, startedAt := some startedAt
      completedAt := some completedAt }
  | .failed startedAt error completedAt =>
    { shown with
      status := .failed, error := some error, startedAt := some startedAt
      completedAt := some completedAt }

theorem Progress.ofRecord_record (c : Creation) (progress : Progress) :
    JobStatusResponse.ofRecord (progress.record c) = some (progress.response c) := by
  obtain ⟨jobId, jobType, idempotencyKey, now⟩ := c
  cases idempotencyKey <;> cases progress <;>
    simp [JobStatusResponse.ofRecord, required, optional, record, newRecord, runningFields,
      completedFields, failedFields, Dict.ofList, Dict.get?_update, response, readNullable,
      readStr, readStatus, readDict]

/-- What has ended does not advance. -/
theorem Progress.Ended.eq_of_advances {p p' : Progress} (h : p.Ended)
    (hadvances : Relation.ReflTransGen Progress.Advances p p') : p' = p := by
  induction hadvances with
  | refl => rfl
  | tail _ hlast ih =>
    subst ih
    cases hlast with
    | started => exact h.elim
    | completed => exact h.elim
    | failed => exact h.elim

/-! ## The progress of a job in the system -/

/-- The progress that goes with the position of a handler. -/
def HandlerPos.Shows (progress : Progress) : HandlerPos → Prop
  | .markRunning => progress = .pending
  | .evaluate => ∃ startedAt, progress = .running startedAt
  | .markCompleted _ => ∃ startedAt, progress = .running startedAt
  | .markFailed _ => ∃ startedAt, progress = .running startedAt
  | _ => True

def Stage.Shows (progress : Progress) : Stage → Prop
  | .requested => progress = .pending
  | .queued => progress = .pending
  | .handling pos _ => pos.Shows progress

/-- The job of this creation has made the progress. -/
structure Watched (c : Creation) (progress : Progress) (s : System) : Prop where
  record : getJob s.store c.jobId = some (progress.record c)
  stage : ∀ p ∈ s.parties, p.event.jobId = c.jobId → p.stage.Shows progress

section
variable {env : WorkerEnv} {trace : List Label}

/-- A command of the job's own party leaves the progress, or advances it. -/
theorem PartyStep.advances {c : Creation} {progress : Progress} {store store' : Store}
    {event : EvalRequestedEvent} {stage stage' : Stage} {action : Action}
    (hid : event.jobId = c.jobId) (hrecord : getJob store c.jobId = some (progress.record c))
    (hshows : stage.Shows progress) (hsound : Party.Sound env trace store ⟨event, stage⟩)
    (h : PartyStep env store event stage action store' stage') :
    ∃ progress' : Progress, (progress' = progress ∨ progress.Advances progress') ∧
      getJob store' c.jobId = some (progress'.record c) ∧ stage'.Shows progress' := by
  cases h with
  | published => exact ⟨progress, .inl rfl, hrecord, hshows⟩
  | delivered => exact ⟨progress, .inl rfl, hrecord, hshows⟩
  | read hfields hget => exact ⟨progress, .inl rfl, hrecord, hshows⟩
  | missed hfields hget hnext =>
    -- the record is there
    rw [updateGet, hid, hrecord] at hget
    cases hget
  | @written pos pos' held hnext =>
    obtain ⟨fields, hfields, hget⟩ := hsound.stage.2 held rfl
    rw [updateGet, hid, hrecord, Option.map_some, Option.some.injEq] at hget
    have hstored : getJob (updateSet store event.jobId held.data) c.jobId =
        some ((progress.record c).update fields) := by
      rw [getJob_updateSet, if_pos hid, hget]
    cases pos with
    | markRunning =>
      obtain rfl := Option.some.inj hfields
      obtain rfl := Option.some.inj hnext
      obtain rfl : progress = .pending := hshows
      exact ⟨.running held.now, .inr (.started _), hstored, held.now, rfl⟩
    | markCompleted result =>
      obtain rfl := Option.some.inj hfields
      obtain rfl := Option.some.inj hnext
      obtain ⟨startedAt, rfl⟩ : ∃ startedAt, progress = .running startedAt := hshows
      exact ⟨.completed startedAt result held.now, .inr (.completed _ _ _), hstored, trivial⟩
    | markFailed error =>
      obtain rfl := Option.some.inj hfields
      obtain rfl := Option.some.inj hnext
      obtain ⟨startedAt, rfl⟩ : ∃ startedAt, progress = .running startedAt := hshows
      exact ⟨.failed startedAt error held.now, .inr (.failed _ _ _), hstored, trivial⟩
    | evaluate | publishCompleted | publishFailed | returned | raised => cases hfields
  | @evaluated e pos' hallows hnext =>
    refine ⟨progress, .inl rfl, hrecord, ?_⟩
    cases e with
    | evaluated result =>
      obtain rfl := Option.some.inj hnext
      exact hshows
    | evaluationRaised error =>
      obtain rfl := Option.some.inj hnext
      exact hshows
    | updated | updateRaised | published | publishRaised | retried | expired => cases hnext
  | @reported pos pos' hnext =>
    refine ⟨progress, .inl rfl, hrecord, ?_⟩
    cases pos with
    | publishCompleted | publishFailed =>
      obtain rfl := Option.some.inj hnext
      trivial
    | markRunning | evaluate | markCompleted | markFailed | returned | raised => cases hnext

/-- Whichever party takes a step, the job stays where it is or advances. -/
theorem Watched.step {c : Creation} {progress : Progress} {s s' : System} {l : Label}
    (h : Watched c progress s) (hs : s.Sound env trace) (hstep : SystemStep env s l s') :
    ∃ progress' : Progress, (progress' = progress ∨ progress.Advances progress') ∧
      Watched c progress' s' := by
  cases hstep with
  | accepted request jobId now hfresh =>
    have hne : jobId ≠ c.jobId := by
      rintro rfl
      rw [h.record] at hfresh
      cases hfresh
    refine ⟨progress, .inl rfl, by rw [getJob_createJob, if_neg hne, h.record], ?_⟩
    intro p hp hid
    rcases List.mem_append.mp hp with hp | hp
    · exact h.stage p hp hid
    · obtain rfl := List.mem_singleton.mp hp
      exact absurd ((EvalRequest.event_jobId jobId request).symm.trans hid) hne
  | @moved event stage stage' action store' before after hparties hstep =>
    have hmem := mem_split hparties
    have hnodup := hs.nodup
    rw [hparties, List.map_append, List.map_cons] at hnodup
    have hothers : ∀ p ∈ before ++ after, p.event.jobId ≠ event.jobId := by
      have hnot := (List.nodup_middle.mp hnodup).notMem
      rw [← List.map_append] at hnot
      exact fun p hp he => hnot (List.mem_map.mpr ⟨p, hp, he⟩)
    by_cases hid : event.jobId = c.jobId
    · obtain ⟨progress', hadvances, hrecord, hshows⟩ :=
        hstep.advances hid h.record (h.stage _ hmem hid) (hs.parties _ hmem)
      refine ⟨progress', hadvances, hrecord, fun p hp hpid => ?_⟩
      rcases List.mem_append.mp hp with hp | hp
      · exact absurd (hpid.trans hid.symm) (hothers p (List.mem_append_left _ hp))
      · rcases List.mem_cons.mp hp with rfl | hp
        · exact hshows
        · exact absurd (hpid.trans hid.symm) (hothers p (List.mem_append_right _ hp))
    · refine ⟨progress, .inl rfl, ?_, fun p hp hpid => ?_⟩
      · exact (hstep.frame (Ne.symm hid)).trans h.record
      · refine forall_replace (P := fun p => p.event.jobId = c.jobId → p.stage.Shows progress)
          (hparties ▸ h.stage) (fun _ hmoved => absurd hmoved hid) p hp hpid

/-- From a state on in which the job has made some progress. -/
theorem Watched.run {c : Creation} {progress : Progress} {s s' : System} {labels : List Label}
    (h : Watched c progress s) (hs : s.Sound env trace) (hrun : Run (SystemStep env) s labels s') :
    ∃ progress' : Progress, Relation.ReflTransGen Progress.Advances progress progress' ∧
      Watched c progress' s' := by
  have hI : ∃ trace, s'.Sound env trace ∧ ∃ progress' : Progress,
      Relation.ReflTransGen Progress.Advances progress progress' ∧ Watched c progress' s' := by
    refine hrun.invariant (I := fun t => ∃ trace, t.Sound env trace ∧ ∃ progress' : Progress,
      Relation.ReflTransGen Progress.Advances progress progress' ∧ Watched c progress' t) ?_
      ⟨trace, hs, progress, .refl, h⟩
    rintro t l t' ⟨trace, hsound, progress', hreach, hwatched⟩ hstep
    obtain ⟨progress'', hlast, hnext⟩ := hwatched.step hsound hstep
    refine ⟨_, hstep.sound hsound, progress'', ?_, hnext⟩
    rcases hlast with rfl | hlast
    · exact hreach
    · exact hreach.tail hlast
  obtain ⟨-, -, hprogress⟩ := hI
  exact hprogress

theorem Watched.getJobStatus {c : Creation} {progress : Progress} {s : System}
    (h : Watched c progress s) (describe : Record → String) :
    getJobStatus describe s.store c.jobId = .ok (progress.response c) := by
  rw [Jobs.getJobStatus, h.record]
  simp only [Progress.ofRecord_record]

/-- A job that has just been accepted is pending. -/
theorem SystemStep.watched {s s' : System} {request : EvalRequest} {jobId now : String}
    (hs : s.Sound env trace) (h : SystemStep env s ⟨jobId, .accepted request now⟩ s') :
    Watched ⟨jobId, request.jobType, none, now⟩ .pending s' := by
  cases h with
  | accepted _ _ _ hfresh =>
    refine ⟨by rw [getJob_createJob, if_pos rfl]; rfl, fun p hp hid => ?_⟩
    rcases List.mem_append.mp hp with hp | hp
    · obtain ⟨r, hr⟩ := (hs.parties p hp).record
      rw [show p.event.jobId = jobId from hid, hfresh] at hr
      cases hr
    · obtain rfl := List.mem_singleton.mp hp
      rfl
  | moved before after hparties hstep => cases hstep

end

end RagEval.Jobs
