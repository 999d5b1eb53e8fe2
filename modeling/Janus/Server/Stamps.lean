import Janus.Server.Finalization
import Janus.Server.Footprint

/-! The columns that say when and why a row ended, beside its status. -/

namespace Janus.Server

open Janus.Concurrency Janus.Data

def JobStatus.uncanceled : JobStatus → Bool
  | .pending | .running | .success | .blocked | .skipped => true
  | _ => false

def PipelineStatus.uncanceled : PipelineStatus → Bool
  | .running | .success | .blocked => true
  | _ => false

structure JobRun.Stamped (job : JobRun) : Prop where
  finished : job.finishedAt.isSome = job.status.terminal
  canceled : job.status.uncanceled = true →
    job.cancelReason = none ∧ job.cancelRequestedAt = none ∧ job.cancelStartedAt = none

structure PipelineRun.Stamped (pipeline : PipelineRun) : Prop where
  finished : pipeline.finishedAt.isSome = pipeline.status.terminal
  canceled : pipeline.status.uncanceled = true → pipeline.cancelReason = none ∧
    pipeline.cancelRequestedAt = none ∧ pipeline.cancelStartedAt = none

structure Database.Stamped (db : Database) : Prop where
  jobRuns : ∀ job ∈ db.jobRuns.rows, job.Stamped
  pipelineRuns : ∀ pipeline ∈ db.pipelineRuns.rows, pipeline.Stamped

instance (job : JobRun) : Decidable job.Stamped :=
  decidable_of_iff (_ ∧ _) ⟨fun h => ⟨h.1, h.2⟩, fun h => ⟨h.finished, h.canceled⟩⟩

instance (pipeline : PipelineRun) : Decidable pipeline.Stamped :=
  decidable_of_iff (_ ∧ _) ⟨fun h => ⟨h.1, h.2⟩, fun h => ⟨h.finished, h.canceled⟩⟩

instance (db : Database) : Decidable db.Stamped :=
  decidable_of_iff (_ ∧ _) ⟨fun h => ⟨h.1, h.2⟩, fun h => ⟨h.jobRuns, h.pipelineRuns⟩⟩

def JobUpdate.KeepsStamps (job : JobRun) : JobUpdate → Prop
  | .setJobRunStarted _ _ => job.finishedAt = none
  | .finishJobRun status _ _ _ _ _ _ _ _ => status = .success → job.cancelReason = none
  | _ => True

instance (job : JobRun) (u : JobUpdate) : Decidable (u.KeepsStamps job) := by
  cases u <;> unfold JobUpdate.KeepsStamps <;> infer_instance

/-- Only `finish_job_run` takes its status for an ended one without a look at it. -/
def JobUpdate.Ends : JobUpdate → Prop
  | .finishJobRun status _ _ _ _ _ _ _ _ =>
    status = .failed ∨ status = .success ∨ status = .canceled
  | _ => True

lemma JobUpdate.row_stamped_iff {u : JobUpdate} {job : JobRun} (now : Timestamp) (key : Id)
    (hu : u.Ends) (hjob : job.Stamped) : (u.row now key job).Stamped ↔ u.KeepsStamps job := by
  obtain ⟨hfinished, hcanceled⟩ := hjob
  cases u with
  | setJobRunStarted runnerRunId startedAt =>
    constructor
    · exact fun h => Option.isSome_eq_false_iff.mp h.finished |> Option.isNone_iff_eq_none.mp
    · intro h
      exact ⟨by simp [row, JobRun.setStarted, JobStatus.terminal, show job.finishedAt = none from h],
        fun _ => ⟨rfl, rfl, rfl⟩⟩
  | finishJobRun status durationMs exitCode terminalReason failureCategory metadata stdout stderr outputs =>
    constructor
    · rintro h rfl
      exact (h.canceled rfl).1
    · intro h
      rcases hu with rfl | rfl | rfl
      · exact ⟨rfl, nofun⟩
      · exact ⟨rfl, fun _ => ⟨h rfl, rfl, rfl⟩⟩
      · exact ⟨rfl, nofun⟩
  | setJobRunStatus status =>
    refine iff_of_true ⟨?_, ?_⟩ trivial
    · cases status <;> rfl
    · intro h
      cases status <;> cases h <;> exact ⟨rfl, rfl, rfl⟩
  | markJobRunCancelRequested reason => exact iff_of_true ⟨rfl, nofun⟩ trivial
  | recordCancelRetry => exact iff_of_true ⟨hfinished, hcanceled⟩ trivial
  | requeueJobRunForInfraRetry => exact iff_of_true ⟨rfl, fun _ => ⟨rfl, rfl, rfl⟩⟩ trivial
  | markJobRunCancelRetryExhausted => exact iff_of_true ⟨rfl, nofun⟩ trivial

lemma PipelineRun.finalize_stamped (pipeline : PipelineRun) (now : Timestamp)
    (status : PipelineStatus) : (pipeline.finalize now status).Stamped := by
  constructor
  · cases status <;> rfl
  · intro h
    cases status <;> cases h <;> exact ⟨rfl, rfl, rfl⟩

lemma PipelineRun.setStatus_stamped (pipeline : PipelineRun) (now : Timestamp)
    (status : PipelineStatus) : (pipeline.setStatus now status).Stamped := by
  constructor
  · cases status <;> rfl
  · intro h
    cases status <;> cases h <;> exact ⟨rfl, rfl, rfl⟩

lemma PipelineUpdate.row_stamped (db : Database) (now : Timestamp) (id : Id) (u : PipelineUpdate)
    (pipeline : PipelineRun) : (u.row db now id pipeline).Stamped := by
  cases u with
  | finalizePipelineStatus => exact pipeline.finalize_stamped now _
  | setPipelineStatus status => exact pipeline.setStatus_stamped now status
  | markPipelineCancelRequested reason => exact ⟨rfl, nofun⟩

def Call.Ends : Call → Prop
  | .jobRun _ u => u.Ends
  | _ => True

lemma ends_footprint : PollFootprint Call.Ends where
  query _ := trivial
  processed _ := trivial
  cancelRun _ _ := trivial
  quiet c h := by
    cases c with
    | jobRun id u => exact h.elim
    | _ => trivial
  insert _ := trivial
  pipelineRun _ _ := trivial
  cancelRequested _ _ := trivial
  canceled _ := trivial
  status _ _ := trivial
  finish _ _ _ _ _ _ _ _ _ _ h := h
  fail _ _ _ _ _ _ := .inl rfl
  retry _ := trivial
  requeue _ := trivial
  exhausted _ := trivial

/-- A step that updates a job does not meet the row with a column that it leaves set. -/
def StampsKept (p : ServerPool) : ServerEvent → Prop
  | .step i o => match p.tasks[i]? with
    | some (_, .call (.jobRun id u) _) => (Call.jobRun id u).refusal o.fault = none →
      ∀ job ∈ p.store.db.jobRuns.rows, job.id = id → u.KeepsStamps job
    | _ => True
  | _ => True

def ServerPool.updates? (p : ServerPool) : ServerEvent → Option (Id × JobUpdate)
  | .step i o => match p.tasks[i]? with
    | some (_, .call (.jobRun id u) _) =>
      if (Call.jobRun id u).refusal o.fault = none then some (id, u) else none
    | _ => none
  | _ => none

lemma stampsKept_iff {p : ServerPool} {e : ServerEvent} : StampsKept p e ↔
    ∀ update ∈ p.updates? e, ∀ job ∈ p.store.db.jobRuns.rows, job.id = update.1 →
      update.2.KeepsStamps job := by
  cases e with
  | step i o =>
    simp only [StampsKept, ServerPool.updates?]
    split
    · split
      · simp [*]
      · simp [*]
    · simp
  | _ => simp [StampsKept, ServerPool.updates?]

instance (p : ServerPool) (e : ServerEvent) : Decidable (StampsKept p e) :=
  decidable_of_iff _ stampsKept_iff.symm

lemma Database.Stamped.of_untouched {db db' : Database} (h : db.Stamped) (hu : db.Untouched db') :
    db'.Stamped := by
  obtain ⟨hjobs, hpipelines⟩ := h
  exact ⟨hu.jobRuns ▸ hjobs, hu.pipelineRuns ▸ hpipelines⟩

lemma updateJobRun_stamped_iff {db : Database} {u : JobUpdate} (now : Timestamp) (key id : Id)
    (hu : u.Ends) (h : db.Stamped) : (db.updateJobRun u now key id).2.Stamped ↔
      ∀ job ∈ db.jobRuns.rows, job.id = id → u.KeepsStamps job := by
  simp only [Database.updateJobRun]
  split
  · next hbreaks =>
    -- Only a requeue is refused, and it clears every column.
    refine iff_of_true h fun job _ _ => ?_
    cases u <;> trivial
  · have hjobs : ((db.updateRow u now key id).updateDetails id u).jobRuns =
        db.jobRuns.modify id (u.row now key) fun job => (u.row_same now key job).id := by
      cases u <;> rfl
    have hpipelines : ((db.updateRow u now key id).updateDetails id u).pipelineRuns =
        db.pipelineRuns := by cases u <;> rfl
    constructor
    · rintro ⟨hstamped, -⟩ job hj rfl
      refine (u.row_stamped_iff now key hu (h.jobRuns job hj)).mp (hstamped _ ?_)
      rw [hjobs, Table.mem_modify]
      exact ⟨job, hj, .inl ⟨rfl, rfl⟩⟩
    · intro hkeeps
      refine ⟨fun job' hj' => ?_, hpipelines ▸ h.pipelineRuns⟩
      rw [hjobs, Table.mem_modify] at hj'
      obtain ⟨job, hj, ⟨hid, rfl⟩ | ⟨-, rfl⟩⟩ := hj'
      · exact (u.row_stamped_iff now key hu (h.jobRuns job hj)).mpr (hkeeps job hj hid)
      · exact h.jobRuns _ hj

lemma exec_stamped {c : Call} (app : AppState) (o : Outcome) {s : Store}
    (hc : ∀ id u, c ≠ .jobRun id u) (h : s.db.Stamped) : (c.exec app o s).2.db.Stamped := by
  obtain ⟨hjobs, hpipelines⟩ := h
  rcases he : c.exec app o s with ⟨x, s'⟩
  cases exec_effect he with
  | untouched tables _ => exact Database.Stamped.of_untouched ⟨hjobs, hpipelines⟩ tables
  | jobRun id u => exact (hc id u rfl).elim
  | pipelineRun id u now jobRuns pipelineRuns _ =>
    refine ⟨jobRuns ▸ hjobs, fun pipeline hp => ?_⟩
    rw [pipelineRuns, Table.mem_modify] at hp
    obtain ⟨row, hrow, ⟨-, rfl⟩ | ⟨-, rfl⟩⟩ := hp
    · exact u.row_stamped s.db now id row
    · exact hpipelines _ hrow
  | createPipelineRun _ _ _ _ _ _ _ _ _ jobRuns pipelineRuns _ _ =>
    refine ⟨jobRuns ▸ hjobs, fun pipeline hp => ?_⟩
    rw [Table.rows_insert? pipelineRuns] at hp
    rcases List.mem_append.mp hp with hp | hp
    · exact hpipelines pipeline hp
    · obtain rfl := List.mem_singleton.mp hp
      exact ⟨rfl, fun _ => ⟨rfl, rfl, rfl⟩⟩
  | createJobRun _ _ _ _ _ _ _ _ _ jobRuns pipelineRuns _ _ =>
    refine ⟨fun job hj => ?_, pipelineRuns ▸ hpipelines⟩
    rw [Table.rows_insert? jobRuns] at hj
    rcases List.mem_append.mp hj with hj | hj
    · exact hjobs job hj
    · obtain rfl := List.mem_singleton.mp hj
      exact ⟨rfl, fun _ => ⟨rfl, rfl, rfl⟩⟩
  | addPreviousJob _ _ _ _ jobRuns pipelineRuns _ _ =>
    exact ⟨jobRuns ▸ hjobs, pipelineRuns ▸ hpipelines⟩

lemma exec_jobRun_stamped_iff {app : AppState} {id : Id} {u : JobUpdate} {o : Outcome} {s : Store}
    (hu : u.Ends) (h : s.db.Stamped) : ((Call.jobRun id u).exec app o s).2.db.Stamped ↔
      ((Call.jobRun id u).refusal o.fault = none →
        ∀ job ∈ s.db.jobRuns.rows, job.id = id → u.KeepsStamps job) := by
  cases hr : (Call.jobRun id u).refusal o.fault with
  | some e =>
    rw [exec_of_refusal hr]
    exact iff_of_true h nofun
  | none =>
    rw [exec_of_allowed hr]
    exact (updateJobRun_stamped_iff o.now o.dispatchKey id hu h).trans ⟨fun h _ => h, fun h => h rfl⟩

def StampInvariant (p : ServerPool) : Prop :=
  p.store.db.Stamped ∧ ∀ t ∈ p.tasks, t.2.Only Call.Ends

section

variable {app : AppState} {p p' : ServerPool} {e : ServerEvent}

lemma apply_ends (ht : ∀ t ∈ p.tasks, t.2.Only Call.Ends) (ha : (server app).apply p e = some p') :
    ∀ t ∈ p'.tasks, t.2.Only Call.Ends :=
  System.forall_tasks_apply (Φ := fun _ q _ => q.Only Call.Ends) ha
    (ends_footprint.program (fun _ _ _ _ _ => trivial) fun _ _ _ => trivial)
    (fun _ _ _ _ h _ => h.2 _) (fun _ _ h => h) ht

lemma apply_stamped_iff (h : StampInvariant p) (ha : (server app).apply p e = some p') :
    p'.store.db.Stamped ↔ StampsKept p e := by
  obtain ⟨hs, htasks⟩ := h
  obtain ⟨r, rfl, -, rfl⟩ | ⟨i, o, r, c, next, rfl, ht, -, rfl⟩ | ⟨i, r, x, rfl, -, rfl⟩ |
    ⟨rfl, rfl⟩ | ⟨v, rfl, rfl⟩ := System.apply_cases ha
  · exact iff_of_true hs trivial
  · have hc : c.Ends := (htasks _ (List.mem_of_getElem? ht)).1
    simp only [StampsKept, ht]
    cases c with
    | jobRun id u => exact exec_jobRun_stamped_iff hc hs
    | _ => exact iff_of_true (exec_stamped app o (fun _ _ h => by cases h) hs) trivial
  · exact iff_of_true hs trivial
  · exact iff_of_true hs trivial
  · cases v with
    | runEnds runId => exact iff_of_true hs trivial

end

/-- In every state of a run the rows are stamped if and only if no step meets a column that its
update leaves set. -/
theorem stamped_iff (app : AppState) (p : ServerPool) (events : List ServerEvent)
    (hp : p.tasks = []) (hs : p.store.db.Stamped) :
    (∀ before, before <+: events → ∀ q, (server app).run before p = some q → q.store.db.Stamped) ↔
      (server app).Along StampsKept events p := by
  have hstart : StampInvariant p := ⟨hs, by simp [hp]⟩
  refine (System.along_reached_iff (I := fun q : ServerPool => q.store.db.Stamped) hs).trans ⟨?_, ?_⟩
  · refine System.Along.of_invariant (I := StampInvariant) ?_ ?_ hstart
    · exact fun q e q' hq he ha => ⟨he q' ha, apply_ends hq.2 ha⟩
    · exact fun q e q' hq he ha => (apply_stamped_iff hq ha).mp (he q' ha)
  · refine System.Along.of_invariant (I := StampInvariant) ?_ ?_ hstart
    · exact fun q e q' hq he ha => ⟨(apply_stamped_iff hq ha).mpr he, apply_ends hq.2 ha⟩
    · rintro q e q' hq he ha q'' ha'
      exact (apply_stamped_iff hq ha').mpr he

def lateCancel (status : RunnerJobStatus) : List ServerEvent :=
  .start .dispatch :: (List.replicate 7 (.step 0 {}) ++
    [.step 0 (replied 201 (.created ⟨"run", 0⟩)), .step 0 {}, .finish 0, .start (.cancel 1),
      .step 0 {}, .step 0 {}, .step 0 (replied 202 .other), .step 0 {}, .step 0 {}, .finish 0,
      .start .poll, .step 0 {}, .step 0 {}, .step 0 {}, .step 0 (replied 200 (.status { status })),
      .step 0 {}, .step 0 {}])

theorem success_with_cancel_reason :
    oneJob.tasks = [] ∧ oneJob.store.db.Stamped ∧
      ((server sampleApp).run (lateCancel .success) oneJob).any
        (fun q => ¬ q.store.db.Stamped) = true := by
  decide +kernel

theorem stamped_canceled :
    ((server sampleApp).run (lateCancel .canceled) oneJob).isSome ∧
      ∀ q, (server sampleApp).run (lateCancel .canceled) oneJob = some q → q.store.db.Stamped :=
  have hkept : (server sampleApp).Along StampsKept (lateCancel .canceled) oneJob := by decide +kernel
  ⟨by decide +kernel, fun q => (stamped_iff sampleApp oneJob (lateCancel .canceled) rfl
    (by decide +kernel)).mpr hkept _ (List.prefix_refl _) q⟩

end Janus.Server
