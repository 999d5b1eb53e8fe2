import Janus.Server.Footprint

/-! The retries of a job, counted against the limits of the configuration. -/

namespace Janus.Server

open Janus.Concurrency Janus.Data

inductive Unspent (u : JobUpdate) (job : JobRun) : ServerTrace → Prop
  | listed {statuses : List JobStatus} {jobs : List JobRun} {h : ServerTrace} (mem : job ∈ jobs) :
      Unspent u job (⟨.query (.listJobRunsByStatus statuses), .ok jobs⟩ :: h)
  | later {a : Answered Call Call.Result String} {h : ServerTrace} (before : Unspent u job h)
      (other : a.call ≠ .jobRun job.id u) : Unspent u job (a :: h)

def ListsOnce (h : ServerTrace) : Prop :=
  ∀ statuses (jobs : List JobRun),
    ⟨.query (.listJobRunsByStatus statuses), .ok jobs⟩ ∈ h → (jobs.map JobRun.id).Nodup

def Call.budgeted (app : AppState) (h : ServerTrace) : Call → Prop
  | .jobRun id .requeueJobRunForInfraRetry => ∃ job, Unspent .requeueJobRunForInfraRetry job h ∧
      job.id = id ∧ job.infraRetryCount < app.scheduler.maxInfraRetries
  | .jobRun id .recordCancelRetry => ∃ job, Unspent .recordCancelRetry job h ∧ job.id = id ∧
      job.cancelRetryCount < app.scheduler.maxCancelRetries
  | .runner _ (.createJobRun id _ key _) => ∃ job, Unspent .requeueJobRunForInfraRetry job h ∧
      job.id = id ∧ job.dispatchIdempotencyKey = key
  | _ => True

def Call.thrifty : Call → Prop
  | .jobRun _ .requeueJobRunForInfraRetry => False
  | .jobRun _ .recordCancelRetry => False
  | .runner _ (.createJobRun _ _ _ _) => False
  | _ => True

lemma Call.isQuiet.thrifty {c : Call} (h : c.isQuiet) : c.thrifty := by
  cases c with
  | jobRun id u => exact h.elim
  | runner r request => cases request <;> trivial
  | _ => trivial

lemma thrifty_footprint : Footprint Call.thrifty where
  query _ := trivial
  processed _ := trivial
  cancelRun _ _ := trivial
  insert _ := trivial
  pipelineRun _ _ := trivial
  cancelRequested _ _ := trivial
  canceled _ := trivial

lemma Call.thrifty.budgeted {app : AppState} {c : Call} (hc : c.thrifty) (h : ServerTrace) :
    c.budgeted app h := by
  cases c with
  | jobRun id u => cases u <;> trivial
  | runner r request => cases request <;> trivial
  | _ => trivial

abbrev budgeting (app : AppState) : Discipline Call Call.Result String ServerTrace :=
  tracing fun h c => ListsOnce h → c.budgeted app h

def Lasts (id : Id) (F : ServerTrace → Prop) : Prop :=
  ∀ a h, (∀ i u, u = .requeueJobRunForInfraRetry ∨ u = .recordCancelRetry → i ≠ id →
    a.call ≠ .jobRun i u) → F h → F (a :: h)

section

open Program

variable {app : AppState} {h : ServerTrace} {J : JobRun} {F : ServerTrace → Prop} {α : Type}

lemma Unspent.cons_thrifty {u : JobUpdate} {c : Call} (hs : Unspent u J h)
    (hu : u = .requeueJobRunForInfraRetry ∨ u = .recordCancelRetry) (hc : c.thrifty)
    (x : Except String c.Result) : Unspent u J (⟨c, x⟩ :: h) := by
  refine .later hs ?_
  rintro rfl
  rcases hu with rfl | rfl <;> exact hc

lemma Lasts.cons_thrifty (hF : Lasts J.id F) {c : Call} (hc : c.thrifty) (x : Except String c.Result)
    (hh : F h) : F (⟨c, x⟩ :: h) := by
  refine hF _ _ ?_ hh
  rintro i u hu - rfl
  rcases hu with rfl | rfl <;> exact hc

lemma Lasts.cons_job (hF : Lasts J.id F) {u : JobUpdate} (x : Except String u.Result) (hh : F h) :
    F (⟨.jobRun J.id u, x⟩ :: h) := by
  refine hF _ _ ?_ hh
  rintro i u' - hi heq
  cases heq
  exact hi rfl

structure InHand (J : JobRun) (F : ServerTrace → Prop) (h : ServerTrace) : Prop where
  infra : Unspent .requeueJobRunForInfraRetry J h
  rest : F h

lemma thrifty_safe (hF : Lasts J.id F) {p : Task α} (hp : p.Only Call.thrifty) (hh : F h) :
    Safe (budgeting app) (fun _ h' => F h') p h :=
  Safe.traced_only (fun _ h hc _ _ => hc.budgeted h) (fun _ x _ hc hh => hF.cons_thrifty hc x hh) hp hh

lemma InHand.safe (hJ : InHand J F h) (hF : Lasts J.id F) {p : Task α} (hp : p.Only Call.thrifty) :
    Safe (budgeting app) (fun _ h' => InHand J F h') p h :=
  Safe.traced_only (fun _ h hc _ _ => hc.budgeted h) (fun _ x _ hc hh =>
    ⟨hh.infra.cons_thrifty (.inl rfl) hc x, hF.cons_thrifty hc x hh.rest⟩) hp hJ

lemma thrifty_call {c : Call} (h : c.thrifty) : (call c).Only Call.thrifty := Only.request_iff.mpr h

lemma InHand.requeue (hJ : InHand J F h) (hF : Lasts J.id F)
    (hlt : J.infraRetryCount < app.scheduler.maxInfraRetries) :
    Safe (budgeting app) (fun _ h' => F h')
      (requeueJob J >>= fun _ => Db.finalizePipelineStatus J.pipelineRunId) h := by
  refine Safe.bind (Safe.bind (Safe.traced_request (fun _ => ⟨J, hJ.infra, rfl, hlt⟩) fun x => ?_))
  have hrest := hF.cons_job (u := .requeueJobRunForInfraRetry) x hJ.rest
  cases x with
  | error e => exact hrest
  | ok count => exact thrifty_safe hF (thrifty_call trivial) hrest

lemma fail_thrifty (reason category : String) (metadata : JobOutputMetadata)
    (stdout stderr : String) :
    (Db.finishJobRun J.id .failed none none (some reason) (some category) metadata stdout stderr []
      >>= fun _ => Db.finalizePipelineStatus J.pipelineRunId).Only Call.thrifty :=
  .bind (thrifty_call trivial) fun _ => thrifty_call trivial

lemma InHand.retryOrFailInfraError (hJ : InHand J F h) (hF : Lasts J.id F) (reason stderr : String)
    (metadata : JobOutputMetadata) (stdout : String) : Safe (budgeting app) (fun _ h' => F h')
      (retryOrFailInfraError app J reason stderr metadata stdout) h :=
  Safe.ite (fun hlt => hJ.requeue hF hlt) fun _ => thrifty_safe hF (fail_thrifty _ _ _ _ _) hJ.rest

lemma InHand.createAndStartJob (hJ : InHand J F h) (hF : Lasts J.id F) (runner : Runner)
    (payload : BTreeMap Value) :
    Safe (budgeting app) (fun _ h' => F h') (createAndStartJob J runner payload) h := by
  refine Safe.bind (Safe.mono ?_ (hJ.safe hF (thrifty_call trivial)))
  rintro r h₁ hJ₁
  cases r with
  | error e => exact hJ₁.rest
  | ok u =>
  refine Safe.bind (Safe.attempt (Safe.traced_request (fun _ => ⟨J, hJ₁.infra, rfl, rfl⟩) fun x => ?_))
  have hrest : F (⟨.runner runner (.createJobRun J.id J.runnerJobName J.dispatchIdempotencyKey
      payload.entries), x⟩ :: h₁) := hF _ _ (fun _ _ _ _ heq => by cases heq) hJ₁.rest
  cases x with
  | ok created => exact thrifty_safe hF (thrifty_call trivial) hrest
  | error message =>
    exact thrifty_safe hF (.ite (fun _ => fail_thrifty _ _ _ _ _) fun _ => .fail _) hrest

lemma InHand.resolveAndCreateJob (hJ : InHand J F h) (hF : Lasts J.id F) (runner : Runner)
    (pipeline : PipelineRun) (jobDefinition : WorkflowJobDefinition)
    (runnerJobDefinition : RunnerJobDefinition) : Safe (budgeting app) (fun _ h' => F h')
      (resolveAndCreateJob app J runner pipeline jobDefinition runnerJobDefinition) h := by
  have hresolve := (resolveJobInputs_only pipeline J.id J.jobIndex jobDefinition
    runnerJobDefinition).mono fun _ hc => hc.thrifty
  refine Safe.bind (Safe.attempt (Safe.mono ?_ (hJ.safe hF hresolve)))
  rintro r h₁ hJ₁
  cases r with
  | ok payload => exact hJ₁.createAndStartJob hF runner payload
  | error message =>
    exact Safe.ite (fun _ => hJ₁.retryOrFailInfraError hF _ _ _ _) fun _ => hJ₁.rest

lemma InHand.dispatchAtRunner (hJ : InHand J F h) (hF : Lasts J.id F) (runner : Runner) :
    Safe (budgeting app) (fun _ h' => F h') (dispatchAtRunner app J runner) h := by
  refine Safe.ite (fun _ => ?_) fun _ => hJ.rest
  refine Safe.bind (Safe.mono ?_ (hJ.safe hF (thrifty_call trivial)))
  rintro r h₁ hJ₁
  rcases r with e | (_ | pipeline)
  · exact hJ₁.rest
  · exact hJ₁.rest
  refine Safe.bind (Safe.mono ?_ (hJ₁.safe hF (thrifty_call trivial)))
  rintro r h₂ hJ₂
  rcases r with e | (e | definition)
  · exact hJ₂.rest
  · exact hJ₂.rest
  simp only [onOk_ok, fromStr, Program.done_bind]
  refine Safe.bind (Safe.mono ?_ (hJ₂.safe hF (thrifty_call trivial)))
  rintro r h₃ hJ₃
  cases r with
  | error e => exact hJ₃.rest
  | ok jobSchemas =>
    simp only [onOk_ok]
    split
    · exact hJ₃.resolveAndCreateJob hF _ _ _ _
    · exact hJ₃.rest

lemma InHand.dispatchPendingJob (hJ : InHand J F h) (hF : Lasts J.id F) :
    Safe (budgeting app) (fun _ h' => F h') (dispatchPendingJob app J) h := by
  refine Safe.bind (Safe.mono ?_ (hJ.safe hF (thrifty_call trivial)))
  rintro r h₁ hJ₁
  cases r with
  | error e => exact hJ₁.rest
  | ok previousJobs =>
  simp only [onOk_ok, dispatchExaminedJob]
  split
  · exact thrifty_safe hF (.bind (thrifty_call trivial) fun _ => thrifty_call trivial) hJ₁.rest
  · exact hJ₁.rest
  refine Safe.bind (Safe.mono ?_ (hJ₁.safe hF (thrifty_call trivial)))
  rintro r h₂ hJ₂
  rcases r with e | (_ | runner)
  · exact hJ₂.rest
  · exact thrifty_safe hF (thrifty_call trivial) hJ₂.rest
  · exact hJ₂.dispatchAtRunner hF runner

lemma InHand.retryCancellation (hJ : InHand J F h) (hF : Lasts J.id F)
    (hcancel : Unspent .recordCancelRetry J h) (runner : Runner) (runnerRunId : String)
    (early : Bool) : Safe (budgeting app) (fun _ h' => InHand J F h')
      (retryCancellation app J runner runnerRunId early) h := by
  refine Safe.ite (fun _ => hJ) fun _ => Safe.ite (fun _ => ?_) fun hlt => ?_
  · exact hJ.safe hF (.bind (thrifty_call trivial) fun _ => .pure _)
  refine Safe.bind (Safe.traced_request (fun _ => trivial) fun x => ?_)
  have hrun : Call.thrifty (.runner runner (.cancelJobRun runnerRunId)) := trivial
  have hJ₁ : InHand J F (⟨.runner runner (.cancelJobRun runnerRunId), x⟩ :: h) :=
    ⟨hJ.infra.cons_thrifty (.inl rfl) hrun x, hF.cons_thrifty hrun x hJ.rest⟩
  cases x with
  | error e => exact hJ₁
  | ok u =>
  refine Safe.bind (Safe.traced_request (fun _ => ⟨J, hcancel.cons_thrifty (.inr rfl) hrun _, rfl,
    not_le.mp hlt⟩) fun y => ?_)
  have hJ₂ : InHand J F (⟨.jobRun J.id .recordCancelRetry, y⟩ ::
      ⟨.runner runner (.cancelJobRun runnerRunId), .ok u⟩ :: h) :=
    ⟨.later hJ₁.infra (fun heq => by cases heq), hF.cons_job (u := .recordCancelRetry) y hJ₁.rest⟩
  cases y <;> exact hJ₂

lemma InHand.retryStuckCancellation (hJ : InHand J F h) (hF : Lasts J.id F)
    (hcancel : Unspent .recordCancelRetry J h) (runner : Runner) (runnerRunId : String) :
    Safe (budgeting app) (fun _ h' => InHand J F h')
      (retryStuckCancellation app J runner runnerRunId) h := by
  refine Safe.ite (fun _ => ?_) fun _ => hJ
  split
  · exact hJ
  · refine Safe.bind (Safe.traced_request (fun _ => trivial) fun x => ?_)
    have hnow : Call.thrifty .now := trivial
    have hJ₁ : InHand J F (⟨.now, x⟩ :: h) :=
      ⟨hJ.infra.cons_thrifty (.inl rfl) hnow x, hF.cons_thrifty hnow x hJ.rest⟩
    cases x with
    | error e => exact hJ₁
    | ok now => exact hJ₁.retryCancellation hF (hcancel.cons_thrifty (.inr rfl) hnow _) _ _ _

lemma InHand.storeFinishedJob (hJ : InHand J F h) (hF : Lasts J.id F) (runner : Runner)
    (status : JobStatusResponse) (logs : JobLogsResponse) :
    Safe (budgeting app) (fun _ h' => F h') (storeFinishedJob app J runner status logs) h := by
  have hpersist := (persistJobOutputs_only runner J.id status.outputs.entries).mono
    fun _ hc => hc.thrifty
  refine Safe.bind (Safe.attempt (Safe.mono ?_ (hJ.safe hF hpersist)))
  rintro r h₁ hJ₁
  cases r with
  | error e => exact hJ₁.retryOrFailInfraError hF _ _ _ _
  | ok outputs =>
    exact thrifty_safe hF (.bind (thrifty_call trivial) fun _ => thrifty_call trivial) hJ₁.rest

lemma shouldRetryInfraFailure_lt {status : JobStatusResponse} {maxInfraRetries : ℕ}
    (hretry : shouldRetryInfraFailure J status maxInfraRetries = true) :
    J.infraRetryCount < maxInfraRetries := by
  simp only [shouldRetryInfraFailure, Bool.and_eq_true, decide_eq_true_eq] at hretry
  exact hretry.2

lemma InHand.finishPolledJob (hJ : InHand J F h) (hF : Lasts J.id F) (runner : Runner)
    (runnerRunId : String) (status : JobStatusResponse) :
    Safe (budgeting app) (fun _ h' => F h') (finishPolledJob app J runner runnerRunId status) h := by
  refine Safe.bind (Safe.attempt (Safe.mono ?_ (hJ.safe hF (thrifty_call trivial))))
  rintro r h₁ hJ₁
  refine Safe.ite (fun hretry => ?_) fun _ => hJ₁.storeFinishedJob hF _ _ _
  exact hJ₁.requeue hF (shouldRetryInfraFailure_lt hretry)

lemma InHand.recordPolledStatus (hJ : InHand J F h) (hF : Lasts J.id F) (runner : Runner)
    (runnerRunId : String) (answer : Except String JobStatusResponse) :
    Safe (budgeting app) (fun _ h' => F h') (recordPolledStatus app J runner runnerRunId answer) h := by
  cases answer with
  | error e => exact hJ.rest
  | ok status =>
    refine Safe.ite (fun _ => hJ.finishPolledJob hF _ _ _) fun _ => ?_
    refine Safe.ite (fun _ => hJ.rest) fun _ => ?_
    exact thrifty_safe hF (.bind (thrifty_call trivial) fun _ => thrifty_call trivial) hJ.rest

lemma InHand.pollRunningJob (hJ : InHand J F h) (hF : Lasts J.id F)
    (hcancel : Unspent .recordCancelRetry J h) :
    Safe (budgeting app) (fun _ h' => F h') (pollRunningJob app J) h := by
  have hquery : Call.thrifty (.query (.getRunner J.runnerId)) := trivial
  refine Safe.bind (Safe.traced_request (fun _ => trivial) fun x => ?_)
  have hJ₁ : InHand J F (⟨.query (.getRunner J.runnerId), x⟩ :: h) :=
    ⟨hJ.infra.cons_thrifty (.inl rfl) hquery x, hF.cons_thrifty hquery x hJ.rest⟩
  rcases x with e | runner
  · exact hJ₁.rest
  simp only [onOk]
  split
  · refine Safe.bind (Safe.mono ?_ (hJ₁.retryStuckCancellation hF
      (hcancel.cons_thrifty (.inr rfl) hquery _) _ _))
    rintro (e | exhausted) h₂ hJ₂
    · exact hJ₂.rest
    refine Safe.ite (fun _ => thrifty_safe hF (thrifty_call trivial) hJ₂.rest) fun _ => ?_
    refine Safe.bind (Safe.attempt (Safe.mono ?_ (hJ₂.safe hF (thrifty_call trivial))))
    exact fun answer h₃ hJ₃ => hJ₃.recordPolledStatus hF _ _ answer
  · exact hJ₁.rest

lemma listed_safe {statuses : List JobStatus} {f : JobRun → Task PUnit}
    (hf : ∀ J F h, InHand J F h → Lasts J.id F → Unspent .recordCancelRetry J h →
      Safe (budgeting app) (fun _ h' => F h') (f J) h) :
    Safe (budgeting app) (fun _ _ => True)
      (Db.listJobRunsByStatus statuses >>= fun jobs => jobs.forM f) h := by
  refine Safe.bind (Safe.traced_request (fun _ => trivial) fun x => ?_)
  cases x with
  | error e => trivial
  | ok jobs =>
  by_cases hnodup : (jobs.map JobRun.id).Nodup
  · refine Safe.forM (I := fun Js h => (Js.map JobRun.id).Nodup ∧ ∀ J ∈ Js,
      Unspent .requeueJobRunForInfraRetry J h ∧ Unspent .recordCancelRetry J h)
      (fun _ _ => trivial) ?_ ⟨hnodup, fun J hJ => ⟨.listed hJ, .listed hJ⟩⟩
    rintro J Js h ⟨hids, hJs⟩
    obtain ⟨hnotin, hids⟩ := List.nodup_cons.mp hids
    obtain ⟨hinfra, hcancel⟩ := hJs J List.mem_cons_self
    have hne : ∀ J' ∈ Js, J'.id ≠ J.id := fun J' hJ' hid => hnotin (hid ▸ List.mem_map_of_mem hJ')
    refine Safe.mono ?_ (hf J (fun h => ∀ J' ∈ Js, Unspent .requeueJobRunForInfraRetry J' h ∧
      Unspent .recordCancelRetry J' h) h ⟨hinfra, fun J' hJ' => hJs J' (.tail _ hJ')⟩ ?_ hcancel)
    · rintro (e | u) h' hrest
      · trivial
      · exact ⟨hids, hrest⟩
    · intro a h ha hrest J' hJ'
      obtain ⟨hinfra', hcancel'⟩ := hrest J' hJ'
      exact ⟨.later hinfra' (ha _ _ (.inl rfl) (hne J' hJ')),
        .later hcancel' (ha _ _ (.inr rfl) (hne J' hJ'))⟩
  · refine Safe.mono (fun _ _ _ => trivial) (Safe.traced_only (Q := fun _ => True)
      (A := fun h => ⟨.query (.listJobRunsByStatus statuses), .ok jobs⟩ ∈ h) ?_ ?_ (.of_forall (fun _ => trivial) _)
      List.mem_cons_self)
    · exact fun c h _ hlisted honce => (hnodup (honce _ _ hlisted)).elim
    · exact fun c x h _ hlisted => List.mem_cons_of_mem _ hlisted

theorem program_budgeted (r : Role) :
    Safe (budgeting app) (fun _ _ => True) (r.program app) [] := by
  have hthrifty {α : Type} {p : Task α} (hp : p.Only Call.thrifty) {h : ServerTrace} :
      Safe (budgeting app) (fun _ _ => True) p h :=
    Safe.traced_only (fun _ h hc _ _ => hc.budgeted h) (fun _ _ _ _ _ => trivial) hp trivial
  have hdispatch {h : ServerTrace} : Safe (budgeting app) (fun _ _ => True)
      (dispatchPendingJobs app) h :=
    listed_safe fun J F h hJ hF _ => hJ.dispatchPendingJob hF
  have hpoll {h : ServerTrace} : Safe (budgeting app) (fun _ _ => True) (pollRunningJobs app) h :=
    listed_safe fun J F h hJ hF hcancel => hJ.pollRunningJob hF hcancel
  cases r with
  | recovery => exact hthrifty thrifty_footprint.recoverIncompletePipelines
  | pushEvents => exact hthrifty thrifty_footprint.processPushEvents
  | dispatch => exact hdispatch
  | poll => exact hpoll
  | reconcile =>
    refine Safe.bind (Safe.mono ?_ (hthrifty thrifty_footprint.recoverIncompletePipelines))
    rintro (e | u) h₁ -
    · trivial
    refine Safe.bind (Safe.mono ?_ (hthrifty thrifty_footprint.processPushEvents))
    rintro (e | u) h₂ -
    · trivial
    refine Safe.bind (Safe.mono ?_ hdispatch)
    rintro (e | u) h₃ -
    · trivial
    exact hpoll
  | cancel pipelineId => exact hthrifty (thrifty_footprint.cancelPipeline pipelineId)
  | enqueue number workflow triggerType triggerRef commitSha selections =>
    exact hthrifty (.bind (thrifty_footprint.enqueue _ _ _ _ _ _) fun _ => .pure _)

end

inductive JobRun.Counts (c : Call) (row row' : JobRun) : Prop
  | kept (infra : row'.infraRetryCount = row.infraRetryCount)
      (key : row'.dispatchIdempotencyKey = row.dispatchIdempotencyKey)
      (cancel : row'.cancelRetryCount ≤ row.cancelRetryCount)
  | requeued (call : c = .jobRun row.id .requeueJobRunForInfraRetry)
      (infra : row'.infraRetryCount = row.infraRetryCount + 1) (cancel : row'.cancelRetryCount = 0)
  | retried (call : c = .jobRun row.id .recordCancelRetry)
      (infra : row'.infraRetryCount = row.infraRetryCount)
      (key : row'.dispatchIdempotencyKey = row.dispatchIdempotencyKey)
      (cancel : row'.cancelRetryCount = row.cancelRetryCount + 1)

lemma JobUpdate.row_counts (u : JobUpdate) (now : Timestamp) (key : Id) (row : JobRun) :
    JobRun.Counts (.jobRun row.id u) row (u.row now key row) := by
  cases u with
  | requeueJobRunForInfraRetry => exact .requeued rfl rfl rfl
  | recordCancelRetry => exact .retried rfl rfl rfl rfl
  | finishJobRun status durationMs exitCode terminalReason failureCategory metadata stdout stderr
      outputs =>
    refine .kept rfl rfl ?_
    simp only [JobUpdate.row, JobRun.finish]
    split
    · exact le_refl _
    · exact Nat.zero_le _
  | setJobRunStatus status =>
    refine .kept rfl rfl ?_
    simp only [JobUpdate.row, JobRun.setStatus]
    split
    · exact le_refl _
    · exact Nat.zero_le _
  | setJobRunStarted runnerRunId startedAt => exact .kept rfl rfl (Nat.zero_le _)
  | _ => exact .kept rfl rfl (le_refl _)

lemma JobRun.Counts.refl (c : Call) (row : JobRun) : JobRun.Counts c row row :=
  .kept rfl rfl (le_refl _)

section

variable {app : AppState} {o : Outcome} {s s' : Store} {c : Call} {x : Except String c.Result}
variable {row row' : JobRun} {h : ServerTrace}

lemma exec_row (hx : c.exec app o s = (x, s')) (hrow : row ∈ s.db.jobRuns.rows) :
    ∃ row' ∈ s'.db.jobRuns.rows, row'.id = row.id ∧ JobRun.Counts c row row' := by
  have hsame (hjobs : s'.db.jobRuns = s.db.jobRuns) :
      ∃ row' ∈ s'.db.jobRuns.rows, row'.id = row.id ∧ JobRun.Counts c row row' :=
    ⟨row, hjobs ▸ hrow, rfl, .refl c row⟩
  cases exec_effect hx with
  | untouched tables _ => exact hsame tables.jobRuns
  | jobRun id u now key jobRuns _ _ =>
    by_cases hid : row.id = id
    · subst hid
      refine ⟨u.row now key row, ?_, (u.row_same now key row).id, u.row_counts now key row⟩
      rw [jobRuns, Table.mem_modify]
      exact ⟨row, hrow, .inl ⟨rfl, rfl⟩⟩
    · refine ⟨row, ?_, rfl, .refl _ row⟩
      rw [jobRuns, Table.mem_modify]
      exact ⟨row, hrow, .inr ⟨hid, rfl⟩⟩
  | pipelineRun _ _ _ jobRuns _ _ => exact hsame jobRuns
  | createPipelineRun _ _ _ _ _ _ _ _ _ jobRuns _ _ _ => exact hsame jobRuns
  | createJobRun _ _ _ _ _ _ _ _ _ jobRuns _ _ _ =>
    refine ⟨row, ?_, rfl, .refl _ row⟩
    rw [Table.rows_insert? jobRuns]
    exact List.mem_append_left _ hrow
  | addPreviousJob _ _ _ _ jobRuns _ _ _ => exact hsame jobRuns

lemma exec_row_inv (hx : c.exec app o s = (x, s')) (hrow : row' ∈ s'.db.jobRuns.rows) :
    (∃ row ∈ s.db.jobRuns.rows, row'.id = row.id ∧ JobRun.Counts c row row') ∨
      (row'.infraRetryCount = 0 ∧ row'.cancelRetryCount = 0 ∧
        ∀ row ∈ s.db.jobRuns.rows, row.id ≠ row'.id) := by
  have hsame (hjobs : s'.db.jobRuns = s.db.jobRuns) :
      ∃ row ∈ s.db.jobRuns.rows, row'.id = row.id ∧ JobRun.Counts c row row' :=
    ⟨row', hjobs ▸ hrow, rfl, .refl c row'⟩
  cases exec_effect hx with
  | untouched tables _ => exact .inl (hsame tables.jobRuns)
  | jobRun id u now key jobRuns _ _ =>
    rw [jobRuns, Table.mem_modify] at hrow
    obtain ⟨row, hrow, ⟨rfl, rfl⟩ | ⟨-, rfl⟩⟩ := hrow
    · exact .inl ⟨row, hrow, (u.row_same now key row).id, u.row_counts now key row⟩
    · exact .inl ⟨row', hrow, rfl, .refl _ row'⟩
  | pipelineRun _ _ _ jobRuns _ _ => exact .inl (hsame jobRuns)
  | createPipelineRun _ _ _ _ _ _ _ _ _ jobRuns _ _ _ => exact .inl (hsame jobRuns)
  | createJobRun _ _ _ _ _ _ _ _ _ jobRuns _ _ _ =>
    rw [Table.rows_insert? jobRuns] at hrow
    rcases List.mem_append.mp hrow with hrow | hnew
    · exact .inl ⟨row', hrow, rfl, .refl _ row'⟩
    · obtain rfl := List.mem_singleton.mp hnew
      exact .inr ⟨rfl, rfl, fun row hrow => Table.not_mem_of_insert? jobRuns hrow⟩
  | addPreviousJob _ _ _ _ jobRuns _ _ _ => exact .inl (hsame jobRuns)

structure BudgetSeen (h : ServerTrace) (db : Database) : Prop where
  once : ListsOnce h
  infra : ∀ job, Unspent .requeueJobRunForInfraRetry job h → ∃ row ∈ db.jobRuns.rows,
    row.id = job.id ∧ row.infraRetryCount = job.infraRetryCount ∧
      row.dispatchIdempotencyKey = job.dispatchIdempotencyKey
  cancel : ∀ job, Unspent .recordCancelRetry job h → ∃ row ∈ db.jobRuns.rows,
    row.id = job.id ∧ row.cancelRetryCount ≤ job.cancelRetryCount

lemma exec_infra (hx : c.exec app o s = (x, s')) {job : JobRun}
    (hc : c ≠ .jobRun job.id .requeueJobRunForInfraRetry)
    (h : ∃ row ∈ s.db.jobRuns.rows, row.id = job.id ∧ row.infraRetryCount = job.infraRetryCount ∧
      row.dispatchIdempotencyKey = job.dispatchIdempotencyKey) :
    ∃ row ∈ s'.db.jobRuns.rows, row.id = job.id ∧ row.infraRetryCount = job.infraRetryCount ∧
      row.dispatchIdempotencyKey = job.dispatchIdempotencyKey := by
  obtain ⟨row, hrow, hid, hinfra, hkey⟩ := h
  obtain ⟨row', hrow', hid', hcounts⟩ := exec_row hx hrow
  refine ⟨row', hrow', hid'.trans hid, ?_⟩
  cases hcounts with
  | kept infra key _ => exact ⟨infra.trans hinfra, key.trans hkey⟩
  | requeued call _ _ => exact (hc (hid ▸ call)).elim
  | retried _ infra key _ => exact ⟨infra.trans hinfra, key.trans hkey⟩

lemma exec_cancel (hx : c.exec app o s = (x, s')) {job : JobRun}
    (hc : c ≠ .jobRun job.id .recordCancelRetry)
    (h : ∃ row ∈ s.db.jobRuns.rows, row.id = job.id ∧ row.cancelRetryCount ≤ job.cancelRetryCount) :
    ∃ row ∈ s'.db.jobRuns.rows, row.id = job.id ∧ row.cancelRetryCount ≤ job.cancelRetryCount := by
  obtain ⟨row, hrow, hid, hcancel⟩ := h
  obtain ⟨row', hrow', hid', hcounts⟩ := exec_row hx hrow
  refine ⟨row', hrow', hid'.trans hid, ?_⟩
  cases hcounts with
  | kept _ _ cancel => exact cancel.trans hcancel
  | requeued _ _ cancel => exact cancel ▸ Nat.zero_le _
  | retried call _ _ _ => exact (hc (hid ▸ call)).elim

lemma exec_listed {statuses : List JobStatus} {jobs : List JobRun}
    (hx : (Call.query (.listJobRunsByStatus statuses)).exec app o s = (.ok jobs, s')) :
    (jobs.map JobRun.id).Nodup ∧ ∀ job ∈ jobs, job ∈ s'.db.jobRuns.rows := by
  obtain ⟨rfl, ⟨e, he⟩ | heval⟩ := exec_query hx
  · cases he
  · obtain rfl := Except.ok.inj heval
    exact ⟨s'.db.jobRuns.unique.sublist (List.filter_sublist.map _), fun job => List.mem_of_mem_filter⟩

lemma BudgetSeen.other (hs : BudgetSeen h s.db) (hx : c.exec app o s = (x, s')) (hc : c.thrifty) :
    BudgetSeen h s'.db := by
  refine ⟨hs.once, fun job hjob => exec_infra hx ?_ (hs.infra job hjob),
    fun job hjob => exec_cancel hx ?_ (hs.cancel job hjob)⟩
  · rintro rfl
    exact hc
  · rintro rfl
    exact hc

lemma BudgetSeen.own (hs : BudgetSeen h s.db) (hx : c.exec app o s = (x, s')) :
    BudgetSeen (⟨c, x⟩ :: h) s'.db := by
  constructor
  · intro statuses jobs hmem
    rcases List.mem_cons.mp hmem with heq | hmem
    · cases heq
      exact (exec_listed hx).1
    · exact hs.once statuses jobs hmem
  · intro job hjob
    cases hjob with
    | listed mem => exact ⟨job, (exec_listed hx).2 job mem, rfl, rfl, rfl⟩
    | later before other => exact exec_infra hx other (hs.infra job before)
  · intro job hjob
    cases hjob with
    | listed mem => exact ⟨job, (exec_listed hx).2 job mem, rfl, le_refl _⟩
    | later before other => exact exec_cancel hx other (hs.cancel job before)

end

def Database.Budgeted (app : AppState) (db : Database) : Prop :=
  ∀ row ∈ db.jobRuns.rows, row.infraRetryCount ≤ app.scheduler.maxInfraRetries ∧
    row.cancelRetryCount ≤ app.scheduler.maxCancelRetries

instance (app : AppState) (db : Database) : Decidable (db.Budgeted app) :=
  inferInstanceAs (Decidable (∀ row ∈ db.jobRuns.rows, _))

structure BudgetInvariant (app : AppState) (p : ServerPool) : Prop where
  rows : p.store.db.Budgeted app
  requests : ∀ t ∈ p.tasks, t.1.scheduler = false → t.2.Only Call.thrifty
  known : System.Known (server app) (fun h c => ListsOnce h → c.budgeted app h)
    (fun r h s => r.scheduler = true → BudgetSeen h s.db) p

section

variable {app : AppState} {p p' : ServerPool} {e : ServerEvent} {c : Call} {r : Role}
variable {next : Except String c.Result → Task Unit}

lemma request_thrifty (hr : r.scheduler = false) : (r.program app).Only Call.thrifty := by
  cases r with
  | cancel pipelineId => exact thrifty_footprint.cancelPipeline pipelineId
  | enqueue number workflow triggerType triggerRef commitSha selections =>
    exact .bind (thrifty_footprint.enqueue _ _ _ _ _ _) fun _ => .pure _
  | _ => cases hr

lemma budget_knowing (app : AppState) : System.Knowing (server app)
    (fun p _ => ∀ t ∈ p.tasks, t.1.scheduler = false → t.2.Only Call.thrifty)
    (fun h c => ListsOnce h → c.budgeted app h)
    fun r h s => r.scheduler = true → BudgetSeen h s.db where
  start := program_budgeted
  nil _ _ _ := ⟨fun _ _ h => (List.not_mem_nil h).elim, fun _ h => (by cases h), fun _ h => (by cases h)⟩
  own p i o r c next h _ _ _ hk hr := (hk hr).own rfl
  other p i o r c next r' h hok ht hb hk hr' :=
    (hk hr').other rfl (hok _ (List.mem_of_getElem? ht) (not_scheduler_beside hb hr')).1
  environ s v r h hk := by
    cases v with
    | runEnds runId => exact hk

namespace BudgetInvariant

variable (hp : BudgetInvariant app p)

include hp

lemma before (ht : (r, .call c next) ∈ p.tasks) (hc : ¬ c.thrifty) :
    ∃ h, c.budgeted app h ∧ BudgetSeen h p.store.db := by
  obtain ⟨h, hbudgeted, hseen⟩ := hp.known.before ht
  cases hr : r.scheduler with
  | true => exact ⟨h, hbudgeted (hseen hr).once, hseen hr⟩
  | false => exact (hc (hp.requests _ ht hr).1).elim

lemma requeue_lt {id : Id} {next : Except String ℕ → Task Unit} {row : JobRun}
    (ht : (r, .call (.jobRun id .requeueJobRunForInfraRetry) next) ∈ p.tasks)
    (hrow : row ∈ p.store.db.jobRuns.rows) (hid : row.id = id) :
    row.infraRetryCount < app.scheduler.maxInfraRetries := by
  obtain ⟨h, ⟨job, hunspent, rfl, hlt⟩, hseen⟩ := hp.before ht fun h => h
  obtain ⟨row', hrow', hid', hinfra, -⟩ := hseen.infra job hunspent
  obtain rfl := Table.eq_of_mem hrow' hrow (hid'.trans hid.symm)
  exact hinfra ▸ hlt

lemma cancel_lt {id : Id} {next : Except String ℕ → Task Unit} {row : JobRun}
    (ht : (r, .call (.jobRun id .recordCancelRetry) next) ∈ p.tasks)
    (hrow : row ∈ p.store.db.jobRuns.rows) (hid : row.id = id) :
    row.cancelRetryCount < app.scheduler.maxCancelRetries := by
  obtain ⟨h, ⟨job, hunspent, rfl, hlt⟩, hseen⟩ := hp.before ht fun h => h
  obtain ⟨row', hrow', hid', hcancel⟩ := hseen.cancel job hunspent
  obtain rfl := Table.eq_of_mem hrow' hrow (hid'.trans hid.symm)
  exact hcancel.trans_lt hlt

lemma sent_key {runner : Runner} {id key : Id} {name : String} {body : List (String × Value)}
    {next : Except String JobCreatedResponse → Task Unit}
    (ht : (r, .call (.runner runner (.createJobRun id name key body)) next) ∈ p.tasks) :
    ∃ row ∈ p.store.db.jobRuns.rows, row.id = id ∧ row.dispatchIdempotencyKey = key := by
  obtain ⟨h, ⟨job, hunspent, rfl, rfl⟩, hseen⟩ := hp.before ht fun h => h
  obtain ⟨row, hrow, hid, -, hkey⟩ := hseen.infra job hunspent
  exact ⟨row, hrow, hid, hkey⟩

lemma exec_budgeted {o : Outcome} {x : Except String c.Result} {s' : Store}
    (ht : (r, .call c next) ∈ p.tasks) (hx : c.exec app o p.store = (x, s')) :
    s'.db.Budgeted app := by
  intro row' hrow'
  rcases exec_row_inv hx hrow' with ⟨row, hrow, -, hcounts⟩ | ⟨hinfra, hcancel, -⟩
  · obtain ⟨hinfra, hcancel⟩ := hp.rows row hrow
    cases hcounts with
    | kept infra _ cancel => exact ⟨infra ▸ hinfra, cancel.trans hcancel⟩
    | requeued call infra cancel =>
      subst call
      exact ⟨infra ▸ hp.requeue_lt ht hrow rfl, cancel ▸ Nat.zero_le _⟩
    | retried call infra _ cancel =>
      subst call
      exact ⟨infra ▸ hinfra, cancel ▸ hp.cancel_lt ht hrow rfl⟩
  · exact ⟨hinfra ▸ Nat.zero_le _, hcancel ▸ Nat.zero_le _⟩

lemma apply (ha : (server app).apply p e = some p') : BudgetInvariant app p' := by
  have hknown := hp.known.apply (budget_knowing app) hp.requests ha
  have hrequests := System.forall_tasks_apply
    (Φ := fun (r : Role) q _ => r.scheduler = false → q.Only Call.thrifty) ha
    (fun _ hr => request_thrifty hr) (fun _ _ _ _ h _ hr => (h hr).2 _) (fun _ _ h => h) hp.requests
  obtain ⟨r, rfl, -, rfl⟩ | ⟨i, o, r, c, next, rfl, ht, -, rfl⟩ | ⟨i, r, x, rfl, -, rfl⟩ |
    ⟨rfl, rfl⟩ | ⟨v, rfl, rfl⟩ := System.apply_cases ha
  · exact ⟨hp.rows, hrequests, hknown⟩
  · exact ⟨hp.exec_budgeted (List.mem_of_getElem? ht) rfl, hrequests, hknown⟩
  · exact ⟨hp.rows, hrequests, hknown⟩
  · exact ⟨hp.rows, hrequests, hknown⟩
  · cases v with
    | runEnds runId => exact ⟨hp.rows, hrequests, hknown⟩

end BudgetInvariant

/-- All keys that the row of the job has in the course of a run, and all that the job is sent under,
are among `keys`. -/
def UsesKeys (app : AppState) (id : Id) (keys : List Id) (events : List ServerEvent)
    (p : ServerPool) : Prop :=
  (∀ before, before <+: events → ∀ q, (server app).run before p = some q →
      ∀ job ∈ q.store.db.jobRuns.rows, job.id = id → job.dispatchIdempotencyKey ∈ keys) ∧
    (server app).Along (fun q e => ∀ runner name key body,
      q.call? e = some (.runner runner (.createJobRun id name key body)) → key ∈ keys) events p

def Database.spent (db : Database) (id : Id) : ℕ :=
  ((db.jobRuns.find? id).map JobRun.infraRetryCount).getD 0

lemma UsesKeys.mono {id : Id} {keys keys' : List Id} {events : List ServerEvent} (hsub : keys ⊆ keys')
    (h : UsesKeys app id keys events p) : UsesKeys app id keys' events p :=
  ⟨fun before hb q hq job hj hid => hsub (h.1 before hb q hq job hj hid),
    h.2.mono fun _ _ he runner name key body hc => hsub (he runner name key body hc)⟩

lemma UsesKeys.nil {id : Id} {keys : List Id}
    (hrow : ∀ job ∈ p.store.db.jobRuns.rows, job.id = id → job.dispatchIdempotencyKey ∈ keys) :
    UsesKeys app id keys [] p := by
  refine ⟨fun before hb q hq => ?_, trivial⟩
  obtain rfl := List.prefix_nil.mp hb
  obtain rfl := Option.some.inj hq
  exact hrow

lemma UsesKeys.cons {id : Id} {keys : List Id} {events : List ServerEvent}
    (hrow : ∀ job ∈ p.store.db.jobRuns.rows, job.id = id → job.dispatchIdempotencyKey ∈ keys)
    (hp : BudgetInvariant app p)
    (h : ∀ p', (server app).apply p e = some p' → UsesKeys app id keys events p') :
    UsesKeys app id keys (e :: events) p := by
  constructor
  · rintro before hb q hq
    cases before with
    | nil =>
      obtain rfl := Option.some.inj hq
      exact hrow
    | cons d before =>
      obtain ⟨rfl, hb'⟩ := List.cons_prefix_cons.mp hb
      obtain ⟨p', hp', hq⟩ := Option.bind_eq_some_iff.mp hq
      exact (h p' hp').1 before hb' q hq
  · refine fun p' hp' => ⟨?_, (h p' hp').2⟩
    intro runner name key body hc
    obtain ⟨i, o, r, next, rfl, ht⟩ := Pool.call?_eq_some hc
    obtain ⟨row, hmem, hid, rfl⟩ := hp.sent_key (List.mem_of_getElem? ht)
    exact hrow row hmem hid

lemma apply_row (ha : (server app).apply p e = some p') {row : JobRun}
    (hrow : row ∈ p.store.db.jobRuns.rows) : ∃ row' ∈ p'.store.db.jobRuns.rows, row'.id = row.id ∧
      ((row'.infraRetryCount = row.infraRetryCount ∧
        row'.dispatchIdempotencyKey = row.dispatchIdempotencyKey) ∨
        row'.infraRetryCount = row.infraRetryCount + 1) := by
  obtain ⟨r, rfl, -, rfl⟩ | ⟨i, o, r, c, next, rfl, ht, -, rfl⟩ | ⟨i, r, x, rfl, -, rfl⟩ |
    ⟨rfl, rfl⟩ | ⟨v, rfl, rfl⟩ := System.apply_cases ha
  · exact ⟨row, hrow, rfl, .inl ⟨rfl, rfl⟩⟩
  · obtain ⟨row', hrow', hid, hcounts⟩ := exec_row (o := o) (x := (c.exec app o p.store).1) rfl hrow
    refine ⟨row', hrow', hid, ?_⟩
    cases hcounts with
    | kept infra key _ => exact .inl ⟨infra, key⟩
    | requeued _ infra _ => exact .inr infra
    | retried _ infra key _ => exact .inl ⟨infra, key⟩
  · exact ⟨row, hrow, rfl, .inl ⟨rfl, rfl⟩⟩
  · exact ⟨row, hrow, rfl, .inl ⟨rfl, rfl⟩⟩
  · cases v with
    | runEnds runId => exact ⟨row, hrow, rfl, .inl ⟨rfl, rfl⟩⟩

lemma spent_of_mem {db : Database} {row : JobRun} (hrow : row ∈ db.jobRuns.rows) :
    db.spent row.id = row.infraRetryCount := by
  simp only [Database.spent, Table.find?_of_mem hrow, Option.map_some, Option.getD_some]

lemma spent_of_absent {db : Database} {id : Id} (h : ∀ row ∈ db.jobRuns.rows, row.id ≠ id) :
    db.spent id = 0 := by
  cases hfind : db.jobRuns.find? id with
  | none => simp only [Database.spent, hfind, Option.map_none, Option.getD_none]
  | some row => exact (h row (Table.mem_of_find? hfind) (Table.key_of_find? hfind)).elim

lemma keys_now (id : Id) (hp : BudgetInvariant app p) :
    ∃ keys : List Id, keys.length + p.store.db.spent id ≤ app.scheduler.maxInfraRetries + 1 ∧
      ∀ job ∈ p.store.db.jobRuns.rows, job.id = id → job.dispatchIdempotencyKey ∈ keys := by
  by_cases hrow : ∃ row ∈ p.store.db.jobRuns.rows, row.id = id
  · obtain ⟨row, hrow, rfl⟩ := hrow
    refine ⟨[row.dispatchIdempotencyKey], ?_, fun job hjob hid => ?_⟩
    · have hle := (hp.rows row hrow).1
      rw [spent_of_mem hrow, List.length_singleton]
      omega
    · rw [Table.eq_of_mem hjob hrow hid]
      exact List.mem_singleton_self _
  · have habsent : ∀ row ∈ p.store.db.jobRuns.rows, row.id ≠ id :=
      fun row hmem hid => hrow ⟨row, hmem, hid⟩
    refine ⟨[], ?_, fun job hjob hid => (habsent job hjob hid).elim⟩
    rw [spent_of_absent habsent]
    exact Nat.zero_le _

lemma keys_step {id : Id} (ha : (server app).apply p e = some p') {keys' : List Id}
    (hlen : keys'.length + p'.store.db.spent id ≤ app.scheduler.maxInfraRetries + 1)
    (hkeys' : ∀ job ∈ p'.store.db.jobRuns.rows, job.id = id → job.dispatchIdempotencyKey ∈ keys') :
    ∃ keys : List Id, keys' ⊆ keys ∧
      keys.length + p.store.db.spent id ≤ app.scheduler.maxInfraRetries + 1 ∧
      ∀ job ∈ p.store.db.jobRuns.rows, job.id = id → job.dispatchIdempotencyKey ∈ keys := by
  by_cases hrow : ∃ row ∈ p.store.db.jobRuns.rows, row.id = id
  · obtain ⟨row, hrow, rfl⟩ := hrow
    obtain ⟨row', hrow', hid, hcase⟩ := apply_row ha hrow
    have hspent' := spent_of_mem hrow'
    rw [hid] at hspent'
    have hspent := spent_of_mem hrow
    rcases hcase with ⟨hinfra, hkey⟩ | hinfra
    · refine ⟨keys', List.Subset.refl _, by omega, fun job hjob hjid => ?_⟩
      rw [Table.eq_of_mem hjob hrow hjid, ← hkey]
      exact hkeys' row' hrow' hid
    · refine ⟨row.dispatchIdempotencyKey :: keys', List.subset_cons_self _ _, ?_,
        fun job hjob hjid => ?_⟩
      · rw [List.length_cons]
        omega
      · rw [Table.eq_of_mem hjob hrow hjid]
        exact List.mem_cons_self
  · have habsent : ∀ row ∈ p.store.db.jobRuns.rows, row.id ≠ id :=
      fun row hmem hid => hrow ⟨row, hmem, hid⟩
    have hspent := spent_of_absent habsent
    exact ⟨keys', List.Subset.refl _, by omega, fun job hjob hid => (habsent job hjob hid).elim⟩

lemma keys_bounded (id : Id) (events : List ServerEvent) (hp : BudgetInvariant app p) :
    ∃ keys : List Id, keys.length + p.store.db.spent id ≤ app.scheduler.maxInfraRetries + 1 ∧
      UsesKeys app id keys events p := by
  induction events generalizing p with
  | nil =>
    obtain ⟨keys, hlen, hkeys⟩ := keys_now id hp
    exact ⟨keys, hlen, .nil hkeys⟩
  | cons e events ih =>
    cases ha : (server app).apply p e with
    | none =>
      obtain ⟨keys, hlen, hkeys⟩ := keys_now id hp
      exact ⟨keys, hlen, .cons hkeys hp fun p' hp' => by cases ha.symm.trans hp'⟩
    | some p' =>
      obtain ⟨keys', hlen', huses⟩ := ih (hp.apply ha)
      have hnow := huses.1 [] (List.nil_prefix) p' rfl
      obtain ⟨keys, hsub, hlen, hkeys⟩ := keys_step ha hlen' hnow
      refine ⟨keys, hlen, .cons hkeys hp fun q hq => ?_⟩
      obtain rfl := Option.some.inj (ha.symm.trans hq)
      exact huses.mono hsub

end

def Call.fails (id : Id) : Call → Prop
  | .jobRun i u => i = id ∧ u.status = some .failed
  | _ => True

def WrittenFailed (id : Id) (h : ServerTrace) : Prop :=
  ∃ u answer, JobUpdate.status u = some .failed ∧ ⟨.jobRun id u, .ok answer⟩ ∈ h

/-- Whatever is answered, the program writes nothing of jobs but that the job of `id` has failed, and
does so before it ends well. -/
def Fails (id : Id) (p : Task Unit) : Prop :=
  ∀ h, Safe (tracing fun _ c => c.fails id) (fun r h' => r = .ok () → WrittenFailed id h') p h

section

open Program

variable {app : AppState} {J : JobRun}

lemma fails_update {u : JobUpdate} (hu : u.status = some .failed) :
    Fails J.id (call (.jobRun J.id u) >>= fun _ => Db.finalizePipelineStatus J.pipelineRunId) := by
  intro h
  refine Safe.bind (Safe.traced_request ⟨rfl, hu⟩ fun x => ?_)
  cases x with
  | error e => exact fun heq => by cases heq
  | ok answer =>
    exact Safe.traced_request trivial fun y _ => ⟨u, answer, hu, .tail _ List.mem_cons_self⟩

lemma Fails.after_quiet {id : Id} {α : Type} {p : Task α} {f : α → Task Unit}
    (hp : p.Only Call.isQuiet) (hf : ∀ a, Fails id (f a)) : Fails id (p >>= f) := by
  intro h
  refine Safe.bind (Safe.mono ?_ (Safe.traced_only (A := fun _ => True) ?_ (fun _ _ _ _ _ => trivial)
    hp trivial))
  · rintro (e | a) h' -
    · exact fun heq => by cases heq
    · exact hf a h'
  · intro c h hc _
    cases c with
    | jobRun i u => exact hc.elim
    | _ => trivial

lemma retryOrFailInfraError_fails (hspent : app.scheduler.maxInfraRetries ≤ J.infraRetryCount)
    (reason stderr : String) (metadata : JobOutputMetadata) (stdout : String) :
    Fails J.id (retryOrFailInfraError app J reason stderr metadata stdout) := by
  rw [retryOrFailInfraError, if_neg (not_lt.mpr hspent)]
  exact fails_update rfl

lemma finishPolledJob_fails (hspent : app.scheduler.maxInfraRetries ≤ J.infraRetryCount)
    (runner : Runner) (runnerRunId : String) {status : JobStatusResponse}
    (hstatus : status.status = .failed) :
    Fails J.id (finishPolledJob app J runner runnerRunId status) := by
  refine .after_quiet (.attempt (quiet_call trivial)) fun logs => ?_
  rw [if_neg fun hretry => absurd (shouldRetryInfraFailure_lt hretry) (not_lt.mpr hspent)]
  refine .after_quiet (.attempt (persistJobOutputs_only _ _ _)) fun outputs => ?_
  cases outputs with
  | error e => exact retryOrFailInfraError_fails hspent _ _ _ _
  | ok outputs =>
    refine fails_update ?_
    simp only [JobUpdate.status, hstatus, finishedStatus]

end

def infraFailure : List ServerEvent :=
  dispatched "run" ++ [.start .poll, .step 0 {}, .step 0 {},
    .step 0 (replied 200 (.status { status := .failed, failureCategory := some .infra })), .step 0 {},
    .step 0 { dispatchKey := 11 }, .step 0 {}, .finish 0]

end Janus.Server
