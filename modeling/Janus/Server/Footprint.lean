import Janus.Server.Rounds

/-! Which calls the tasks of the server make, whatever the answers are. -/

namespace Janus.Server

open Janus.Concurrency Janus.Data

structure BaseFootprint (P : Call → Prop) : Prop where
  query : ∀ q, P (.query q)
  pipelineRun : ∀ id u, P (.pipelineRun id u)

structure CancelFootprint (P : Call → Prop) : Prop extends BaseFootprint P where
  cancelRun : ∀ runner runId, P (.runner runner (.cancelJobRun runId))
  cancelRequested : ∀ id reason, P (.jobRun id (.markJobRunCancelRequested reason))
  canceled : ∀ id, P (.jobRun id (.setJobRunStatus .canceled))

structure EnqueueFootprint (P : Call → Prop) (origin : Origin) : Prop extends BaseFootprint P where
  create : ∀ repoId workflowId versionId triggerType triggerRef commitSha,
    P (.insert (.createPipelineRun repoId workflowId versionId triggerType triggerRef commitSha origin))
  select : ∀ pipelineId selections, P (.insert (.addWorkflowRunArtifactSelections pipelineId selections))
  job : ∀ pipelineId jobIndex runnerId runnerJobName outcomePolicy,
    P (.insert (.createJobRun pipelineId jobIndex runnerId runnerJobName outcomePolicy))
  edge : ∀ jobRunId previous, P (.insert (.addPreviousJob jobRunId previous))

structure PushFootprint (P : Call → Prop) : Prop extends BaseFootprint P where
  processed : ∀ id, P (.markPushEventProcessed id)
  insert : ∀ i, P (.insert i)

structure Footprint (P : Call → Prop) : Prop extends PushFootprint P, CancelFootprint P

structure JobFootprint (P : Call → Prop) : Prop extends BaseFootprint P where
  transfer : ∀ c, c.isTransfer → P c
  blocked : ∀ id, P (.jobRun id (.setJobRunStatus .blocked))
  missing : ∀ id, P (.jobRun id (.setJobRunStatus .failed))
  fail : ∀ id terminalReason failureCategory metadata stdout stderr,
    P (.jobRun id (.finishJobRun .failed none none terminalReason failureCategory metadata stdout
      stderr []))
  requeue : ∀ id, P (.jobRun id .requeueJobRunForInfraRetry)

structure FinishFootprint (P : Call → Prop) : Prop extends JobFootprint P where
  finish : ∀ id status durationMs exitCode terminalReason failureCategory metadata stdout stderr outputs,
    status = .failed ∨ status = .success ∨ status = .canceled →
      P (.jobRun id (.finishJobRun status durationMs exitCode terminalReason failureCategory metadata
        stdout stderr outputs))

structure WatchFootprint (P : Call → Prop) : Prop extends FinishFootprint P, CancelFootprint P where
  status : ∀ id status, P (.jobRun id (.setJobRunStatus status))
  retry : ∀ id, P (.jobRun id .recordCancelRetry)
  exhausted : ∀ id, P (.jobRun id .markJobRunCancelRetryExhausted)

structure PassFootprint (P : Call → Prop) : Prop extends Footprint P where
  quiet : ∀ c, c.isQuiet → P c
  status : ∀ id status, P (.jobRun id (.setJobRunStatus status))
  fail : ∀ id terminalReason failureCategory metadata stdout stderr,
    P (.jobRun id (.finishJobRun .failed none none terminalReason failureCategory metadata stdout
      stderr []))
  retry : ∀ id, P (.jobRun id .recordCancelRetry)
  requeue : ∀ id, P (.jobRun id .requeueJobRunForInfraRetry)
  exhausted : ∀ id, P (.jobRun id .markJobRunCancelRetryExhausted)

structure PollFootprint (P : Call → Prop) : Prop extends PassFootprint P where
  finish : ∀ id status durationMs exitCode terminalReason failureCategory metadata stdout stderr outputs,
    status = .failed ∨ status = .success ∨ status = .canceled →
      P (.jobRun id (.finishJobRun status durationMs exitCode terminalReason failureCategory metadata
        stdout stderr outputs))

lemma Call.isQuiet.not_sends {c : Call} (h : c.isQuiet) : c.sends = none := by
  cases c with
  | runner r request =>
    cases request with
    | createJobRun _ _ _ _ => cases h
    | _ => rfl
  | _ => rfl

section

open Program

variable {app : AppState} {P : Call → Prop}

lemma only_call {c : Call} (h : P c) : (call c).Only P := Only.request_iff.mpr h

namespace BaseFootprint

variable (h : BaseFootprint P)

include h

lemma queries {α : Type} {p : Task α} (hp : p.Only Call.isQuery) : p.Only P :=
  hp.mono fun c hc => by
    cases c with
    | query q => exact h.query q
    | _ => exact hc.elim

lemma queried (q : Query) : (call (.query q)).Only P := only_call (h.query q)

lemma recoverIncompletePipelines : Server.recoverIncompletePipelines.Only P := by
  refine .bind (h.queried _) fun pipelines => .forM (fun pipeline => ?_) pipelines
  exact only_call (h.pipelineRun _ _)

end BaseFootprint

lemma CancelFootprint.cancelPipeline (h : CancelFootprint P) (pipelineId : Id) : (cancelPipeline pipelineId).Only P := by
  have hjob (job : JobRun) : (cancelJob job).Only P := by
    refine .bind (h.queried _) fun runner => .bind ?_ fun _ => .bind ?_ fun _ => .pure _
    · simp only [cancelAtRunner]
      split
      · split
        · exact .bind (only_call (h.cancelRun _ _)) fun _ =>
            .bind (only_call (h.cancelRequested _ _)) fun _ => .pure _
        · exact .pure _
      · exact .pure _
    · simp only [cancelWhilePending]
      split
      · exact only_call (h.canceled _)
      · exact .pure _
  have hjobs (jobs : List JobRun) (requested : Bool) : (cancelJobs jobs requested).Only P := by
    induction jobs generalizing requested with
    | nil => exact .pure _
    | cons job jobs ih => exact .bind (hjob job) fun _ => ih _
  refine .bind (h.queried _) fun jobs => .bind (hjobs jobs false) fun requested => ?_
  split <;> exact only_call (h.pipelineRun _ _)

lemma createJobRuns_footprint
    (hjob : ∀ pipelineId jobIndex runnerId runnerJobName outcomePolicy,
      P (.insert (.createJobRun pipelineId jobIndex runnerId runnerJobName outcomePolicy)))
    (hedge : ∀ jobRunId previous, P (.insert (.addPreviousJob jobRunId previous)))
    (pipelineId : Id) (jobs : List (WorkflowJobDefinition × ℕ)) (previous : Option Id) :
    (createJobRuns pipelineId jobs previous).Only P := by
  induction jobs generalizing previous with
  | nil => exact .pure _
  | cons job jobs ih =>
    refine .bind (only_call (hjob _ _ _ _ _)) fun runId => .bind ?_ fun _ => ih _
    cases previous with
    | none => exact .pure _
    | some previous => exact only_call (hedge _ _)

lemma EnqueueFootprint.enqueue {origin : Origin} (h : EnqueueFootprint P origin) (workflow : Workflow)
    (triggerType : String) (triggerRef commitSha : Option String)
    (selections : List WorkflowRunArtifactSelection) :
    (enqueueWorkflowRunWithArtifacts workflow triggerType triggerRef commitSha selections
      origin).Only P := by
  refine .bind (h.queries (workflowSchemaReport_only workflow)) fun report => ?_
  split
  · exact .fail _
  · refine .bind (.done _) fun definition => .bind (.done _) fun _ =>
      .bind (only_call (h.create _ _ _ _ _ _)) fun id => .bind (only_call (h.select _ _)) fun _ => ?_
    exact .bind (createJobRuns_footprint h.job h.edge _ _ _) fun _ => .pure _

namespace PushFootprint

variable (h : PushFootprint P)

include h

lemma enqueues (origin : Origin) : EnqueueFootprint P origin where
  toBaseFootprint := h.toBaseFootprint
  create _ _ _ _ _ _ := h.insert _
  select _ _ := h.insert _
  job _ _ _ _ _ := h.insert _
  edge _ _ := h.insert _

lemma enqueue (workflow : Workflow) (triggerType : String) (triggerRef commitSha : Option String)
    (selections : List WorkflowRunArtifactSelection) (origin : Origin) :
    (enqueueWorkflowRunWithArtifacts workflow triggerType triggerRef commitSha selections
      origin).Only P :=
  (h.enqueues origin).enqueue workflow triggerType triggerRef commitSha selections

lemma processPushEvents : (processPushEvents app).Only P := by
  refine .bind (h.queried _) fun events => .forM (fun event => ?_) events
  refine .bind (h.queried _) fun workflows => .bind (.forM (fun workflow => ?_) _) fun _ =>
    only_call (h.processed _)
  refine .bind (.done _) fun trigger => ?_
  split
  · refine .forM (fun ref => ?_) _
    obtain ⟨refUpdate, index⟩ := ref
    simp only [processPushRef]
    split
    · refine .bind (.attempt (h.enqueue _ _ _ _ _ _)) fun result => ?_
      split
      · exact .pure _
      · split
        · exact .pure _
        · exact .fail _
    · exact .pure _
  · exact .pure _

end PushFootprint

namespace JobFootprint

variable (h : JobFootprint P)

include h

lemma transfers {α : Type} {p : Task α} (hp : p.Only Call.isTransfer) : p.Only P := hp.mono h.transfer

lemma finalize (id : Id) : (Db.finalizePipelineStatus id).Only P := only_call (h.pipelineRun _ _)

lemma requeueJob (job : JobRun) : (requeueJob job).Only P :=
  .bind (only_call (h.requeue _)) fun _ => .pure _

lemma retryOrFailInfraError (job : JobRun) (reason stderr : String) (metadata : JobOutputMetadata)
    (stdout : String) : (retryOrFailInfraError app job reason stderr metadata stdout).Only P := by
  simp only [Server.retryOrFailInfraError]
  split
  · exact .bind (h.requeueJob _) fun _ => h.finalize _
  · exact .bind (only_call (h.fail _ _ _ _ _ _)) fun _ => h.finalize _

lemma retryStuckCancellation (hrun : ∀ runner runId, P (.runner runner (.cancelJobRun runId)))
    (hretry : ∀ id, P (.jobRun id .recordCancelRetry))
    (hexhausted : ∀ id, P (.jobRun id .markJobRunCancelRetryExhausted)) (job : JobRun)
    (runner : Runner) (runnerRunId : String) :
    (retryStuckCancellation app job runner runnerRunId).Only P := by
  simp only [Server.retryStuckCancellation]
  split
  · split
    · exact .pure _
    · refine .bind (h.transfers (transfer_call trivial)) fun now => ?_
      simp only [retryCancellation]
      split
      · exact .pure _
      · split
        · exact .bind (only_call (hexhausted _)) fun _ => .pure _
        · exact .bind (only_call (hrun _ _)) fun _ =>
            .bind (only_call (hretry _)) fun _ => .pure _
  · exact .pure _

section

variable (hcreate : ∀ runner jobRunId name key body,
  P (.runner runner (.createJobRun jobRunId name key body)))
variable (hstart : ∀ jobRunId runId startedAt, P (.jobRun jobRunId (.setJobRunStarted runId startedAt)))

include hcreate hstart

lemma createAndStartJob (job : JobRun) (runner : Runner) (payload : BTreeMap Value) :
    (createAndStartJob job runner payload).Only P := by
  refine .bind (h.transfers (transfer_call trivial)) fun _ => .bind (.attempt (only_call (hcreate _ _ _ _ _)))
    fun result => ?_
  cases result with
  | ok created => exact only_call (hstart _ _ _)
  | error message =>
    refine .ite (fun _ => ?_) fun _ => .fail _
    exact .bind (only_call (h.fail _ _ _ _ _ _)) fun _ => h.finalize _

lemma dispatchReadyJob (job : JobRun) : (dispatchReadyJob app job).Only P := by
  refine .bind (h.queried _) fun runner => ?_
  cases runner with
  | none => exact only_call (h.missing _)
  | some runner =>
    simp only [dispatchAtRunner]
    split
    · refine .bind (h.queried _) fun pipeline => ?_
      cases pipeline with
      | none => exact .pure _
      | some pipeline =>
        refine .bind (h.queried _) fun definitionJson => .bind (.done _) fun definition =>
          .bind (h.queried _) fun jobSchemas => ?_
        split
        · refine .bind (.attempt (h.transfers (resolveJobInputs_transfers _ _ _ _ _))) fun payload => ?_
          cases payload with
          | ok payload => exact h.createAndStartJob hcreate hstart _ _ _
          | error message =>
            exact .ite (fun _ => h.retryOrFailInfraError _ _ _ _ _) fun _ => .fail _
        · exact .pure _
    · exact .pure _

lemma dispatchPendingJobs : (dispatchPendingJobs app).Only P := by
  refine .bind (h.queried _) fun jobs => .forM (fun job => ?_) jobs
  refine .bind (h.queried _) fun previousJobs => ?_
  simp only [dispatchExaminedJob]
  split
  · exact .bind (only_call (h.blocked _)) fun _ => h.finalize _
  · exact .pure _
  · exact h.dispatchReadyJob hcreate hstart job

end

end JobFootprint

namespace FinishFootprint

variable (h : FinishFootprint P)

include h

lemma storeFinishedJob (job : JobRun) (runner : Runner) (status : JobStatusResponse)
    (logs : JobLogsResponse) : (storeFinishedJob app job runner status logs).Only P := by
  refine .bind (.attempt (h.transfers (persistJobOutputs_transfers _ _ _))) fun outputs => ?_
  split
  · exact h.toJobFootprint.retryOrFailInfraError _ _ _ _ _
  · exact .bind (only_call (h.finish _ _ _ _ _ _ _ _ _ _ (finishedStatus_cases _))) fun _ => h.finalize _

lemma finishPolledJob (job : JobRun) (runner : Runner) (runnerRunId : String)
    (status : JobStatusResponse) : (finishPolledJob app job runner runnerRunId status).Only P := by
  refine .bind (.attempt (h.transfers (transfer_call trivial))) fun logs => .ite (fun _ => ?_) fun _ => ?_
  · exact .bind (h.requeueJob _) fun _ => h.finalize _
  · exact h.storeFinishedJob _ _ _ _

end FinishFootprint

namespace WatchFootprint

variable (h : WatchFootprint P)

include h

lemma recordPolledStatus (job : JobRun) (runner : Runner) (runnerRunId : String)
    (answer : Except String JobStatusResponse) :
    (recordPolledStatus app job runner runnerRunId answer).Only P := by
  cases answer with
  | error _ => exact .pure _
  | ok status =>
    simp only [Server.recordPolledStatus]
    split
    · exact h.toFinishFootprint.finishPolledJob _ _ _ _
    · split
      · exact .pure _
      · exact .bind (only_call (h.status _ _)) fun _ => h.finalize _

lemma pollRunningJobs : (pollRunningJobs app).Only P := by
  refine .bind (h.queried _) fun jobs => .forM (fun job => ?_) jobs
  refine .bind (h.queried _) fun runner => ?_
  split
  · refine .bind (h.toJobFootprint.retryStuckCancellation h.cancelRun h.retry h.exhausted _ _ _) fun exhausted => ?_
    split
    · exact h.finalize _
    · exact .bind (.attempt (h.transfers (transfer_call trivial))) fun status =>
        h.recordPolledStatus _ _ _ _
  · exact .pure _

end WatchFootprint

namespace PassFootprint

variable (h : PassFootprint P)

include h

lemma jobs : JobFootprint P where
  toBaseFootprint := h.toBaseFootprint
  transfer c hc := h.quiet c hc.quiet
  blocked _ := h.status _ _
  missing _ := h.status _ _
  fail := h.fail
  requeue := h.requeue

lemma dispatchPendingJobs (hcreate : ∀ runner jobRunId name key body,
    P (.runner runner (.createJobRun jobRunId name key body)))
    (hstart : ∀ jobRunId runId startedAt, P (.jobRun jobRunId (.setJobRunStarted runId startedAt))) :
    (dispatchPendingJobs app).Only P :=
  h.jobs.dispatchPendingJobs hcreate hstart

lemma retryStuckCancellation (job : JobRun) (runner : Runner) (runnerRunId : String) :
    (retryStuckCancellation app job runner runnerRunId).Only P :=
  h.jobs.retryStuckCancellation h.cancelRun h.retry h.exhausted job runner runnerRunId

end PassFootprint

namespace PollFootprint

variable (h : PollFootprint P)

include h

lemma watches : WatchFootprint P where
  toJobFootprint := h.jobs
  cancelRun := h.cancelRun
  cancelRequested := h.cancelRequested
  canceled := h.canceled
  finish := h.finish
  status := h.status
  retry := h.retry
  exhausted := h.exhausted

lemma pollRunningJobs : (pollRunningJobs app).Only P := h.watches.pollRunningJobs

theorem program
    (hcreate : ∀ runner jobRunId name key body,
      P (.runner runner (.createJobRun jobRunId name key body)))
    (hstart : ∀ jobRunId runId startedAt, P (.jobRun jobRunId (.setJobRunStarted runId startedAt)))
    (r : Role) : (r.program app).Only P := by
  cases r with
  | recovery => exact h.recoverIncompletePipelines
  | pushEvents => exact h.processPushEvents
  | dispatch => exact h.dispatchPendingJobs hcreate hstart
  | poll => exact h.pollRunningJobs
  | reconcile =>
    exact .bind h.recoverIncompletePipelines fun _ => .bind h.processPushEvents fun _ =>
      .bind (h.dispatchPendingJobs hcreate hstart) fun _ => h.pollRunningJobs
  | cancel pipelineId => exact h.cancelPipeline pipelineId
  | enqueue number workflow triggerType triggerRef commitSha selections =>
    exact .bind (h.enqueue _ _ _ _ _ _) fun _ => .pure _

end PollFootprint

end

end Janus.Server
