import Janus.Server.Inputs
import Janus.Server.SchemaDiff

/-! The scheduler's passes, and the requests that enqueue and cancel a pipeline. -/

namespace Janus.Server

open Janus.Concurrency

variable (app : AppState)

def linkPreviousJob (runId : Id) : Option Id → Task Unit
  | some previous => Db.addPreviousJob runId previous
  | none => pure ()

def createJobRuns (pipelineId : Id) :
    List (WorkflowJobDefinition × ℕ) → Option Id → Task Unit
  | [], _ => pure ()
  | (job, jobIndex) :: jobs, previousRunId => do
    let runId ← Db.createJobRun pipelineId jobIndex job.runnerId job.runnerJobName job.outcomePolicy
    linkPreviousJob runId previousRunId
    createJobRuns pipelineId jobs (some runId)

def incompatibleSchema (workflow : Workflow) : String :=
  "incompatible workflow schema for workflow " ++ workflow.name

def enqueueWorkflowRunWithArtifacts (workflow : Workflow) (triggerType : String)
    (triggerRef commitSha : Option String) (artifactSelections : List WorkflowRunArtifactSelection)
    (origin : Origin) : Task Id := do
  let report ← workflowSchemaReport workflow
  match report.status with
  | .incompatible => .fail (incompatibleSchema workflow)
  | _ =>
    let definition ← fromStr workflow.definitionJson
    fromStr definition.validate
    let pipelineId ← Db.createPipelineRun workflow.repoId workflow.id workflow.versionId triggerType
      triggerRef commitSha origin
    Db.addWorkflowRunArtifactSelections pipelineId artifactSelections
    createJobRuns pipelineId definition.jobs.zipIdx none
    pure pipelineId

def enqueueWorkflowRun (workflow : Workflow) (triggerType : String)
    (triggerRef commitSha : Option String) (origin : Origin) : Task Id :=
  enqueueWorkflowRunWithArtifacts workflow triggerType triggerRef commitSha [] origin

def cancelAtRunner (job : JobRun) (runner : Option Runner) : Task Bool :=
  match runner, job.runnerRunId with
  | some runner, some runnerRunId =>
    if job.status = .running then do
      RunnerClient.cancelJobRun runner runnerRunId
      Db.markJobRunCancelRequested job.id "user_requested"
      pure true
    else
      pure false
  | _, _ => pure false

def cancelWhilePending (job : JobRun) : Task Unit :=
  if job.status = .pending then Db.setJobRunStatus job.id .canceled else pure ()

def cancelJob (job : JobRun) : Task Bool := do
  let runner ← Db.getRunner job.runnerId
  let requested ← cancelAtRunner job runner
  cancelWhilePending job
  pure requested

def cancelJobs : List JobRun → Bool → Task Bool
  | [], requestedRemoteCancel => pure requestedRemoteCancel
  | job :: jobs, requestedRemoteCancel => do
    let requested ← cancelJob job
    cancelJobs jobs (requestedRemoteCancel || requested)

def cancelPipeline (pipelineId : Id) : Task Unit := do
  let jobs ← Db.listJobRunsForPipeline pipelineId
  let requestedRemoteCancel ← cancelJobs jobs false
  if requestedRemoteCancel then
    Db.markPipelineCancelRequested pipelineId "user_requested"
  else
    Db.setPipelineStatus pipelineId .canceled

def trimStartMatches (pattern : List Char) : ℕ → List Char → List Char
  | 0, text => text
  | fuel + 1, text =>
    if pattern.isPrefixOf text then trimStartMatches pattern fuel (text.drop pattern.length) else text

def matchesBranch (patterns : List String) (refName : String) : Bool :=
  let branch := String.ofList (trimStartMatches "refs/heads/".toList refName.length refName.toList)
  patterns.isEmpty || patterns.any fun pattern =>
    app.patternMatches pattern branch || app.patternMatches pattern refName

def processPushRef (event : PushEvent) (workflow : Workflow) (trigger : WorkflowTrigger) :
    PushEventRef × ℕ → Task PUnit
  | (refUpdate, index) => do
    if matchesBranch app trigger.branches refUpdate.refName then
      match ← (enqueueWorkflowRun workflow "push" (some refUpdate.refName) (some refUpdate.newRev)
          (.push event.id index)).attempt with
      | .ok _ => pure ()
      | .error error =>
        if contains error "incompatible workflow schema for workflow" then pure ()
        else .fail error

def processPushWorkflow (event : PushEvent) (workflow : Workflow) : Task PUnit := do
  let trigger ← fromStr workflow.triggerJson
  if trigger.kind = "push" then
    event.refs.zipIdx.forM (processPushRef app event workflow trigger)

def processPushEvent (event : PushEvent) : Task PUnit := do
  let workflows ← Db.workflowsForRepo event.repoId
  (workflows.filter (·.enabled)).forM (processPushWorkflow app event)
  Db.markPushEventProcessed event.id

def processPushEvents : Task Unit := do
  let events ← Db.listUnprocessedPushEvents
  events.forM (processPushEvent app)

def recoveredStatus : PipelineStatus → PipelineStatus
  | .cancelRequested => .cancelRequested
  | .canceling => .canceling
  | _ => .running

def recoverPipeline (pipeline : PipelineRun) : Task PUnit :=
  Db.setPipelineStatus pipeline.id (recoveredStatus pipeline.status)

def recoverIncompletePipelines : Task Unit := do
  let pipelines ← Db.pipelinesRequiringRecovery
  pipelines.forM recoverPipeline

def isSchedulerArtifactTransferError (message : String) : Bool :=
  contains message "runner artifact upload failed" ||
    contains message "runner artifact download failed" ||
    contains message "pipeline missing commit sha" ||
    contains message "git archive failed"

def isRunnerCreateTerminalRejection (message : String) : Bool :=
  ["400 Bad Request", "401 Unauthorized", "403 Forbidden", "404 Not Found",
    "422 Unprocessable Entity"].any (contains message)

def failJobAfterRunnerCreateRejection (job : JobRun) (stderr : String) : Task Unit := do
  Db.finishJobRun job.id .failed none none (some "spawn_error") (some "job") {} "" stderr []
  Db.finalizePipelineStatus job.pipelineRunId

def requeueJob (job : JobRun) : Task Unit := do
  let _ ← Db.requeueJobRunForInfraRetry job.id

def retryOrFailInfraError (job : JobRun) (terminalReason stderr : String)
    (outputMetadata : JobOutputMetadata) (stdout : String) : Task Unit :=
  if job.infraRetryCount < app.scheduler.maxInfraRetries then do
    requeueJob job
    Db.finalizePipelineStatus job.pipelineRunId
  else do
    Db.finishJobRun job.id .failed none none (some terminalReason) (some "infra") outputMetadata
      stdout stderr []
    Db.finalizePipelineStatus job.pipelineRunId

def shouldRetryInfraFailure (job : JobRun) (status : JobStatusResponse) (maxInfraRetries : ℕ) :
    Bool :=
  status.status = .failed && status.failureCategory = some .infra &&
    job.infraRetryCount < maxInfraRetries

def createAndStartJob (job : JobRun) (runner : Runner) (payload : BTreeMap Value) : Task Unit := do
  Db.setJobRunInputPayload job.id payload.entries
  match ← (RunnerClient.createJobRun runner job.id job.runnerJobName job.dispatchIdempotencyKey
      payload.entries).attempt with
  | .ok created => Db.setJobRunStarted job.id created.jobId created.startedAt
  | .error message =>
    if isRunnerCreateTerminalRejection message then
      failJobAfterRunnerCreateRejection job ("failed to create runner job: " ++ message)
    else
      .fail message

def resolveAndCreateJob (job : JobRun) (runner : Runner) (pipeline : PipelineRun)
    (jobDefinition : WorkflowJobDefinition) (runnerJobDefinition : RunnerJobDefinition) :
    Task Unit := do
  match ← (resolveJobInputs pipeline job.id job.jobIndex jobDefinition runnerJobDefinition).attempt
    with
  | .ok payload => createAndStartJob job runner payload
  | .error message =>
    if isSchedulerArtifactTransferError message then
      retryOrFailInfraError app job "spawn_error" ("failed to prepare job inputs: " ++ message) {} ""
    else
      .fail message

def dispatchAtRunner (job : JobRun) (runner : Runner) : Task Unit := do
  if runner.enabled then
    match ← Db.pipelineForJobRun job.id with
    | none => pure ()
    | some pipeline =>
      let definitionJson ← Db.workflowDefinitionJson pipeline.workflowVersionId
      let definition ← fromStr definitionJson
      let jobSchemas ← Db.workflowJobSchemas pipeline.workflowVersionId
      match definition.jobs[job.jobIndex]?, jobSchemas[job.jobIndex]? with
      | some jobDefinition, some runnerJobDefinition =>
        resolveAndCreateJob app job runner pipeline jobDefinition runnerJobDefinition
      | _, _ => pure ()

def dispatchReadyJob (job : JobRun) : Task Unit := do
  match ← Db.getRunner job.runnerId with
  | none => Db.setJobRunStatus job.id .failed
  | some runner => dispatchAtRunner app job runner

def dispatchExaminedJob (job : JobRun) (previousJobs : List JobRun) : Task PUnit :=
  match nextReadyJobStatus (previousJobs.map JobRun.outcome) with
  | some .blocked => do
    Db.setJobRunStatus job.id .blocked
    Db.finalizePipelineStatus job.pipelineRunId
  | none => pure ()
  | some _ => dispatchReadyJob app job

def dispatchPendingJob (job : JobRun) : Task PUnit := do
  let previousJobs ← Db.previousJobsForJobRun job.id
  dispatchExaminedJob app job previousJobs

def dispatchPendingJobs : Task Unit := do
  let jobs ← Db.listJobRunsByStatus [.pending]
  jobs.forM (dispatchPendingJob app)

def asI64 (n : ℕ) : ℤ := (BitVec.ofNat 64 n).toInt

def numSeconds (elapsed : ℤ) : ℤ := elapsed.tdiv 1000000000

@[irreducible] def withinStuckTimeout (startedAt now : Timestamp) : Bool :=
  numSeconds ((now : ℤ) - startedAt) < asI64 app.scheduler.cancelStuckTimeoutSeconds

def retryCancellation (job : JobRun) (runner : Runner) (runnerRunId : String) (early : Bool) :
    Task Bool :=
  if early then
    pure false
  else if job.cancelRetryCount ≥ app.scheduler.maxCancelRetries then do
    Db.markJobRunCancelRetryExhausted job.id
    pure true
  else do
    RunnerClient.cancelJobRun runner runnerRunId
    let _ ← Db.recordCancelRetry job.id
    pure false

def retryStuckCancellation (job : JobRun) (runner : Runner) (runnerRunId : String) : Task Bool :=
  if job.status = .cancelRequested ∨ job.status = .canceling then
    match job.cancelStartedAt.or job.cancelRequestedAt with
    | none => pure false
    | some startedAt => do
      let now ← utcNow
      retryCancellation app job runner runnerRunId (withinStuckTimeout app startedAt now)
  else
    pure false

def plainOutput (name : String) (kind : OutputType) (value : Value) : JobRunOutput where
  outputName := name
  kind := kind
  runnerArtifactId := none
  serverArtifactId := none
  value := some value
  sha256 := none
  sizeBytes := none

def persistJobOutput (runner : Runner) (jobRunId : Id) (name : String) : JobOutput → Task JobRunOutput
  | .artifact artifactId sha256 size => do
    let bytes ← RunnerClient.downloadArtifact runner artifactId
    let pending ← ArtifactStore.storeBytes "job_output" jobRunId name bytes
    let serverArtifactId ← Db.insertServerArtifact pending
    pure
      { outputName := name, kind := .artifact, runnerArtifactId := some artifactId,
        serverArtifactId := some serverArtifactId, value := none, sha256 := some sha256,
        sizeBytes := some size }
  | .string value => pure (plainOutput name .string (.string value))
  | .integer value => pure (plainOutput name .integer (.number (.integer value)))
  | .boolean value => pure (plainOutput name .boolean (.bool value))
  | .json value => pure (plainOutput name .json value)

def persistJobOutputs (runner : Runner) (jobRunId : Id) :
    List (String × JobOutput) → Task (List JobRunOutput)
  | [] => pure []
  | (name, output) :: outputs => do
    let persisted ← persistJobOutput runner jobRunId name output
    let rest ← persistJobOutputs runner jobRunId outputs
    pure (persisted :: rest)

def polledStatus (stored : JobStatus) : RunnerJobStatus → JobStatus
  | .canceling => .canceling
  | .cancelRequested => if stored = .canceling then .canceling else .cancelRequested
  | _ => if stored = .cancelRequested ∨ stored = .canceling then stored else .running

def finishedStatus : RunnerJobStatus → JobStatus
  | .success => .success
  | .canceled => .canceled
  | _ => .failed

def storeFinishedJob (job : JobRun) (runner : Runner) (status : JobStatusResponse)
    (logs : JobLogsResponse) : Task Unit := do
  match ← (persistJobOutputs runner job.id status.outputs.entries).attempt with
  | .error error =>
    retryOrFailInfraError app job "output_registration_failed"
      ("failed to persist job outputs: " ++ error) status.outputMetadata logs.stdout
  | .ok outputs =>
    Db.finishJobRun job.id (finishedStatus status.status) status.durationMs status.exitCode
      (status.terminalReason.map TerminalReason.asStr)
      (status.failureCategory.map FailureCategory.asStr) status.outputMetadata logs.stdout logs.stderr
      outputs
    Db.finalizePipelineStatus job.pipelineRunId

def finishPolledJob (job : JobRun) (runner : Runner) (runnerRunId : String)
    (status : JobStatusResponse) : Task Unit := do
  let logs ← (RunnerClient.getJobLogs runner runnerRunId).attempt
  let logs := match logs with
    | .ok logs => logs
    | .error _ => ⟨"", ""⟩
  if shouldRetryInfraFailure job status app.scheduler.maxInfraRetries then
    requeueJob job
    Db.finalizePipelineStatus job.pipelineRunId
  else
    storeFinishedJob app job runner status logs

def recordPolledStatus (job : JobRun) (runner : Runner) (runnerRunId : String) :
    Except String JobStatusResponse → Task Unit
  | .error _ => pure ()
  | .ok status =>
    if status.status.isTerminal then
      finishPolledJob app job runner runnerRunId status
    else
      let nextStatus := polledStatus job.status status.status
      if job.status = nextStatus then pure ()
      else do
        Db.setJobRunStatus job.id nextStatus
        Db.finalizePipelineStatus job.pipelineRunId

def pollJobAtRunner (job : JobRun) (runner : Runner) (runnerRunId : String) : Task Unit := do
  if ← retryStuckCancellation app job runner runnerRunId then
    Db.finalizePipelineStatus job.pipelineRunId
  else
    let status ← (RunnerClient.getJobRun runner runnerRunId).attempt
    recordPolledStatus app job runner runnerRunId status

def pollRunningJob (job : JobRun) : Task PUnit := do
  match ← Db.getRunner job.runnerId, job.runnerRunId with
  | some runner, some runnerRunId => pollJobAtRunner app job runner runnerRunId
  | _, _ => pure ()

def pollRunningJobs : Task Unit := do
  let jobs ← Db.listJobRunsByStatus [.running, .cancelRequested, .canceling]
  jobs.forM (pollRunningJob app)

def reconcileOnce : Task Unit := do
  recoverIncompletePipelines
  processPushEvents app
  dispatchPendingJobs app
  pollRunningJobs app

end Janus.Server
