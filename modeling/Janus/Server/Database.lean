import Mathlib.Data.List.Sort
import Janus.Data.Table
import Janus.Server.Models

/-! The SQLite tables and the statements that the scheduler runs on them. Each query or update below
is one method of the source's `Database`, which holds the connection lock throughout. -/

namespace Janus.Server

open Janus.Data

structure Database where
  repos : Table Repo.id
  runners : Table Runner.id
  runnerJobs : List (String × RunnerJobDefinition)
  workflows : Table WorkflowRow.id
  workflowVersions : Table WorkflowVersionRow.id
  pushEvents : Table PushEvent.id
  pipelineRuns : Table PipelineRun.id
  jobRuns : Table JobRun.id
  jobRunPrevious : Table (id : PreviousJob → PreviousJob)
  jobRunLogs : Table JobRunLogs.jobRunId
  jobRunArtifacts : List (Id × JobRunOutput)
  jobRunInputPayloads : List (Id × Value)
  workflowRunArtifactInputs :
    Table fun input : ArtifactInput => (input.pipelineRunId, input.jobIndex, input.inputName)
  serverArtifacts : Table ServerArtifact.id

inductive Query
  | listUnprocessedPushEvents
  | listRunnerJobs (runnerId : String)
  | getRunner (runnerId : String)
  | getRepo (repoId : Id)
  | workflowsForRepo (repoId : Id)
  | workflowDefinitionJson (workflowVersionId : Id)
  | workflowJobSchemas (workflowVersionId : Id)
  | workflowRunArtifactSelection (pipelineRunId : Id) (jobIndex : ℕ) (inputName : String)
  | pipelineSnapshot (pipelineId : Id)
  | listJobRunsByStatus (statuses : List JobStatus)
  | previousJobsForJobRun (jobRunId : Id)
  | jobOutputs (jobRunId : Id)
  | pipelineForJobRun (jobRunId : Id)
  | listJobRunsForPipeline (pipelineId : Id)
  | pipelinesRequiringRecovery
  | getServerArtifact (scopeType : String) (scopeId : Id) (artifactName : String)
  | getServerArtifactById (artifactId : Id)

def Query.Result : Query → Type
  | .listUnprocessedPushEvents => List PushEvent
  | .listRunnerJobs _ => List RunnerJobDefinition
  | .getRunner _ => Option Runner
  | .getRepo _ => Option Repo
  | .workflowsForRepo _ => List Workflow
  | .workflowDefinitionJson _ => Except String WorkflowDefinition
  | .workflowJobSchemas _ => List RunnerJobDefinition
  | .workflowRunArtifactSelection _ _ _ => Option Id
  | .pipelineSnapshot _ => Option PipelineSnapshot
  | .listJobRunsByStatus _ => List JobRun
  | .previousJobsForJobRun _ => List JobRun
  | .jobOutputs _ => List JobRunOutput
  | .pipelineForJobRun _ => Option PipelineRun
  | .listJobRunsForPipeline _ => List JobRun
  | .pipelinesRequiringRecovery => List PipelineRun
  | .getServerArtifact _ _ _ => Option ServerArtifact
  | .getServerArtifactById _ => Option ServerArtifact

def noRows : String := "Query returned no rows"

namespace Database

variable (db : Database)

def orderBy {α κ : Type} [LE κ] [DecidableLE κ] (key : α → κ) (rows : List α) : List α :=
  rows.insertionSort fun a b => key a ≤ key b

def listUnprocessedPushEvents : List PushEvent :=
  (orderBy PushEvent.receivedAt (db.pushEvents.rows.filter (·.processedAt.isNone))).map fun event =>
    { event with refs := orderBy PushEventRef.refName event.refs }

def listRunnerJobs (runnerId : String) : List RunnerJobDefinition :=
  orderBy RunnerJobDefinition.name
    ((db.runnerJobs.filter fun row => row.1 = runnerId).map Prod.snd)

def newestVersions (workflow : WorkflowRow) : List Workflow :=
  let versions := db.workflowVersions.rows.filter (·.workflowId = workflow.id)
  (versions.filter fun v => versions.all (·.version ≤ v.version)).map fun v =>
    { id := workflow.id, repoId := workflow.repoId, name := workflow.name,
      enabled := workflow.enabled, versionId := v.id, triggerJson := v.triggerJson,
      definitionJson := v.definitionJson }

def workflowsForRepo (repoId : Id) : List Workflow :=
  orderBy Workflow.name
    ((db.workflows.rows.filter (·.repoId = repoId)).flatMap db.newestVersions)

def workflowDefinitionJson (workflowVersionId : Id) :
    Except String (Except String WorkflowDefinition) :=
  match db.workflowVersions.find? workflowVersionId with
  | some version => .ok version.definitionJson
  | none => .error noRows

def workflowJobSchemas (workflowVersionId : Id) : List RunnerJobDefinition :=
  match db.workflowVersions.find? workflowVersionId with
  | some version => version.jobSchemas
  | none => []

def workflowRunArtifactSelection (pipelineRunId : Id) (jobIndex : ℕ) (inputName : String) :
    Option Id :=
  (db.workflowRunArtifactInputs.find? (pipelineRunId, jobIndex, inputName)).map (·.serverArtifactId)

def jobOutputs (jobRunId : Id) : List JobRunOutput :=
  orderBy JobRunOutput.outputName
    ((db.jobRunArtifacts.filter fun row => row.1 = jobRunId).map Prod.snd)

def jobRunsOf (pipelineId : Id) : List JobRun :=
  db.jobRuns.rows.filter (·.pipelineRunId = pipelineId)

def listJobRunsForPipeline (pipelineId : Id) : List JobRun :=
  orderBy JobRun.jobIndex (db.jobRunsOf pipelineId)

/-- A job without its row in `job_run_logs` fails the query. -/
def pipelineSnapshot (pipelineId : Id) : Except String (Option PipelineSnapshot) :=
  match db.pipelineRuns.find? pipelineId with
  | none => .ok none
  | some pipeline =>
    let jobs := db.listJobRunsForPipeline pipelineId
    if jobs.all fun job => (db.jobRunLogs.find? job.id).isSome then
      .ok (some ⟨pipeline, jobs.map fun job => ⟨job, db.jobOutputs job.id⟩⟩)
    else
      .error noRows

def listJobRunsByStatus (statuses : List JobStatus) : List JobRun :=
  db.jobRuns.rows.filter fun job => statuses.contains job.status

def previousJobsForJobRun (jobRunId : Id) : List JobRun :=
  orderBy JobRun.jobIndex
    ((db.jobRunPrevious.rows.filter (·.jobRunId = jobRunId)).filterMap fun edge =>
      db.jobRuns.find? edge.previousJobRunId)

def pipelineForJobRun (jobRunId : Id) : Option PipelineRun :=
  (db.jobRuns.find? jobRunId).bind fun job => db.pipelineRuns.find? job.pipelineRunId

def requiresRecovery (pipeline : PipelineRun) : Bool :=
  [PipelineStatus.running, .cancelRequested, .canceling].contains pipeline.status ||
    (db.jobRunsOf pipeline.id).any fun job =>
      [JobStatus.pending, .running, .cancelRequested, .canceling].contains job.status

def pipelinesRequiringRecovery : List PipelineRun := db.pipelineRuns.rows.filter db.requiresRecovery

def getServerArtifact (scopeType : String) (scopeId : Id) (artifactName : String) :
    Option ServerArtifact :=
  db.serverArtifacts.rows.find? fun artifact => artifact.scopeType = scopeType ∧
    artifact.scopeId = scopeId ∧ artifact.artifactName = artifactName

end Database

def Query.eval (db : Database) : (q : Query) → Except String q.Result
  | .listUnprocessedPushEvents => .ok db.listUnprocessedPushEvents
  | .listRunnerJobs runnerId => .ok (db.listRunnerJobs runnerId)
  | .getRunner runnerId => .ok (db.runners.find? runnerId)
  | .getRepo repoId => .ok (db.repos.find? repoId)
  | .workflowsForRepo repoId => .ok (db.workflowsForRepo repoId)
  | .workflowDefinitionJson versionId => db.workflowDefinitionJson versionId
  | .workflowJobSchemas versionId => .ok (db.workflowJobSchemas versionId)
  | .workflowRunArtifactSelection pipelineId jobIndex inputName =>
    .ok (db.workflowRunArtifactSelection pipelineId jobIndex inputName)
  | .pipelineSnapshot pipelineId => db.pipelineSnapshot pipelineId
  | .listJobRunsByStatus statuses => .ok (db.listJobRunsByStatus statuses)
  | .previousJobsForJobRun jobRunId => .ok (db.previousJobsForJobRun jobRunId)
  | .jobOutputs jobRunId => .ok (db.jobOutputs jobRunId)
  | .pipelineForJobRun jobRunId => .ok (db.pipelineForJobRun jobRunId)
  | .listJobRunsForPipeline pipelineId => .ok (db.listJobRunsForPipeline pipelineId)
  | .pipelinesRequiringRecovery => .ok db.pipelinesRequiringRecovery
  | .getServerArtifact scopeType scopeId artifactName =>
    .ok (db.getServerArtifact scopeType scopeId artifactName)
  | .getServerArtifactById artifactId => .ok (db.serverArtifacts.find? artifactId)

inductive JobUpdate
  | setJobRunStarted (runnerRunId : String) (startedAt : Timestamp)
  | finishJobRun (status : JobStatus) (durationMs : Option ℕ) (exitCode : Option ℤ)
      (terminalReason failureCategory : Option String) (outputMetadata : JobOutputMetadata)
      (stdout stderr : String) (outputs : List JobRunOutput)
  | setJobRunStatus (status : JobStatus)
  | markJobRunCancelRequested (reason : String)
  | recordCancelRetry
  | requeueJobRunForInfraRetry
  | markJobRunCancelRetryExhausted

def JobUpdate.Result : JobUpdate → Type
  | .recordCancelRetry => ℕ
  | .requeueJobRunForInfraRetry => ℕ
  | _ => Unit

namespace JobRun

variable (job : JobRun)

def setStarted (runnerRunId : String) (startedAt : Timestamp) : JobRun :=
  { job with
    status := .running, runnerRunId := some runnerRunId, startedAt := some startedAt,
    cancelReason := none, cancelRequestedAt := none, cancelStartedAt := none,
    cancelRetryCount := 0, lastCancelRetryAt := none }

def finish (now : Timestamp) (status : JobStatus) (durationMs : Option ℕ) (exitCode : Option ℤ)
    (terminalReason failureCategory : Option String) (outputMetadata : JobOutputMetadata) :
    JobRun :=
  { job with
    status, durationMs, exitCode, terminalReason, failureCategory, outputMetadata,
    finishedAt := some now,
    cancelRequestedAt := if status = .canceled then job.cancelRequestedAt else none,
    cancelStartedAt := if status = .canceled then job.cancelStartedAt else none,
    cancelRetryCount := if status = .canceled then job.cancelRetryCount else 0,
    lastCancelRetryAt := if status = .canceled then job.lastCancelRetryAt else none }

def setStatus (now : Timestamp) (status : JobStatus) : JobRun :=
  let cancel := [JobStatus.cancelRequested, .canceling, .canceled].contains status
  { job with
    status, durationMs := none, exitCode := none, terminalReason := none, failureCategory := none,
    outputMetadata := {},
    cancelReason := if cancel then job.cancelReason else none,
    cancelRequestedAt :=
      if status = .cancelRequested ∧ job.cancelRequestedAt = none then some now
      else if !cancel then none
      else job.cancelRequestedAt,
    cancelStartedAt :=
      if status = .canceling ∧ job.cancelStartedAt = none then some now
      else if !([JobStatus.canceling, .canceled].contains status) then none
      else job.cancelStartedAt,
    cancelRetryCount := if cancel then job.cancelRetryCount else 0,
    lastCancelRetryAt := if cancel then job.lastCancelRetryAt else none,
    finishedAt := if status.terminal then some now else none }

def markCancelRequested (now : Timestamp) (reason : String) : JobRun :=
  { job with
    status := .cancelRequested, cancelReason := some reason,
    cancelRequestedAt := some (job.cancelRequestedAt.getD now), finishedAt := none }

def recordCancelRetry (now : Timestamp) : JobRun :=
  { job with cancelRetryCount := job.cancelRetryCount + 1, lastCancelRetryAt := some now }

def requeueForInfraRetry (now : Timestamp) (dispatchIdempotencyKey : Id) : JobRun :=
  { job with
    status := .pending, runnerRunId := none, startedAt := none, durationMs := none,
    exitCode := none, terminalReason := none, failureCategory := none, cancelReason := none,
    cancelRequestedAt := none, cancelStartedAt := none, cancelRetryCount := 0,
    lastCancelRetryAt := none, dispatchIdempotencyKey, infraRetryCount := job.infraRetryCount + 1,
    lastInfraRetryAt := some now, finishedAt := none, outputMetadata := {} }

def markCancelRetryExhausted (now : Timestamp) : JobRun :=
  { job with
    status := .failed, cancelReason := some "stuck_retry_exhausted",
    terminalReason := some "canceled", failureCategory := some "infra", finishedAt := some now }

end JobRun

/-- What the `UPDATE` makes of the row, at time `now` and with `key` as a fresh dispatch key. -/
def JobUpdate.row (now : Timestamp) (key : Id) : JobUpdate → JobRun → JobRun
  | .setJobRunStarted runnerRunId startedAt, job => job.setStarted runnerRunId startedAt
  | .finishJobRun status durationMs exitCode terminalReason failureCategory outputMetadata _ _ _,
      job =>
    job.finish now status durationMs exitCode terminalReason failureCategory outputMetadata
  | .setJobRunStatus status, job => job.setStatus now status
  | .markJobRunCancelRequested reason, job => job.markCancelRequested now reason
  | .recordCancelRetry, job => job.recordCancelRetry now
  | .requeueJobRunForInfraRetry, job => job.requeueForInfraRetry now key
  | .markJobRunCancelRetryExhausted, job => job.markCancelRetryExhausted now

structure JobRun.Same (job job' : JobRun) : Prop where
  id : job'.id = job.id
  pipelineRunId : job'.pipelineRunId = job.pipelineRunId
  jobIndex : job'.jobIndex = job.jobIndex
  runnerId : job'.runnerId = job.runnerId
  runnerJobName : job'.runnerJobName = job.runnerJobName
  outcomePolicy : job'.outcomePolicy = job.outcomePolicy

lemma JobRun.Same.rfl {job : JobRun} : job.Same job :=
  ⟨.refl _, .refl _, .refl _, .refl _, .refl _, .refl _⟩

lemma JobRun.Same.trans {job job' job'' : JobRun} (h : job.Same job') (h' : job'.Same job'') :
    job.Same job'' :=
  ⟨h'.id.trans h.id, h'.pipelineRunId.trans h.pipelineRunId, h'.jobIndex.trans h.jobIndex,
    h'.runnerId.trans h.runnerId, h'.runnerJobName.trans h.runnerJobName,
    h'.outcomePolicy.trans h.outcomePolicy⟩

lemma JobUpdate.row_same (now : Timestamp) (key : Id) (u : JobUpdate) (job : JobRun) :
    job.Same (u.row now key job) := by
  cases u <;> exact ⟨rfl, rfl, rfl, rfl, rfl, rfl⟩

def JobUpdate.status : JobUpdate → Option JobStatus
  | .setJobRunStarted _ _ => some .running
  | .finishJobRun status _ _ _ _ _ _ _ _ => some status
  | .setJobRunStatus status => some status
  | .markJobRunCancelRequested _ => some .cancelRequested
  | .recordCancelRetry => none
  | .requeueJobRunForInfraRetry => some .pending
  | .markJobRunCancelRetryExhausted => some .failed

lemma JobUpdate.row_status (now : Timestamp) (key : Id) (u : JobUpdate) (job : JobRun) :
    (u.row now key job).status = u.status.getD job.status := by
  cases u <;> rfl

namespace Database

variable (db : Database)

def setLogs (jobRunId : Id) (stdout stderr : String) : Database :=
  { db with jobRunLogs := db.jobRunLogs.modify jobRunId
              (fun logs => { logs with stdout, stderr }) fun _ => rfl }

def setArtifacts (jobRunId : Id) (outputs : List JobRunOutput) : Database :=
  { db with jobRunArtifacts := db.jobRunArtifacts.filter (fun row => row.1 ≠ jobRunId) ++
              outputs.map fun output => (jobRunId, output) }

def updateRow (u : JobUpdate) (now : Timestamp) (key : Id) (jobRunId : Id) : Database :=
  { db with jobRuns := db.jobRuns.modify jobRunId (u.row now key)
              fun job => (u.row_same now key job).id }

def updateDetails (jobRunId : Id) : JobUpdate → Database
  | .finishJobRun _ _ _ _ _ _ stdout stderr outputs =>
    (db.setLogs jobRunId stdout stderr).setArtifacts jobRunId outputs
  | .requeueJobRunForInfraRetry => (db.setLogs jobRunId "" "").setArtifacts jobRunId []
  | _ => db

end Database

def JobUpdate.answer (db : Database) (jobRunId : Id) : (u : JobUpdate) → Except String u.Result
  | .setJobRunStarted _ _ => .ok ()
  | .finishJobRun _ _ _ _ _ _ _ _ _ => .ok ()
  | .setJobRunStatus _ => .ok ()
  | .markJobRunCancelRequested _ => .ok ()
  | .recordCancelRetry =>
    match db.jobRuns.find? jobRunId with
    | some job => .ok job.cancelRetryCount
    | none => .error noRows
  | .requeueJobRunForInfraRetry =>
    match db.jobRuns.find? jobRunId with
    | some job => .ok job.infraRetryCount
    | none => .error noRows
  | .markJobRunCancelRetryExhausted => .ok ()

def JobUpdate.breaksUnique (db : Database) (key : Id) (jobRunId : Id) : JobUpdate → Bool
  | .requeueJobRunForInfraRetry =>
    db.jobRuns.rows.any fun job => job.dispatchIdempotencyKey = key ∧ job.id ≠ jobRunId
  | _ => false

def Database.updateJobRun (db : Database) (u : JobUpdate) (now : Timestamp) (key : Id)
    (jobRunId : Id) : Except String u.Result × Database :=
  if u.breaksUnique db key jobRunId then
    (.error "UNIQUE constraint failed: job_runs.dispatch_idempotency_key", db)
  else
    let db' := (db.updateRow u now key jobRunId).updateDetails jobRunId u
    (u.answer db' jobRunId, db')

inductive PipelineUpdate
  | finalizePipelineStatus
  | setPipelineStatus (status : PipelineStatus)
  | markPipelineCancelRequested (reason : String)

namespace PipelineRun

variable (pipeline : PipelineRun)

def finalize (now : Timestamp) (status : PipelineStatus) : PipelineRun :=
  let cancel := [PipelineStatus.cancelRequested, .canceling, .canceled].contains status
  { pipeline with
    status,
    cancelReason := if cancel then pipeline.cancelReason else none,
    cancelRequestedAt := if cancel then pipeline.cancelRequestedAt else none,
    cancelStartedAt :=
      if [PipelineStatus.canceling, .canceled].contains status then pipeline.cancelStartedAt
      else none,
    finishedAt := if status.terminal then some now else none }

def setStatus (now : Timestamp) (status : PipelineStatus) : PipelineRun :=
  let cancel := [PipelineStatus.cancelRequested, .canceling, .canceled].contains status
  { pipeline with
    status,
    cancelReason := if cancel then pipeline.cancelReason else none,
    cancelRequestedAt :=
      if status = .cancelRequested ∧ pipeline.cancelRequestedAt = none then some now
      else if !cancel then none
      else pipeline.cancelRequestedAt,
    cancelStartedAt :=
      if status = .canceling ∧ pipeline.cancelStartedAt = none then some now
      else if !([PipelineStatus.canceling, .canceled].contains status) then none
      else pipeline.cancelStartedAt,
    finishedAt := if status.terminal then some now else none }

def markCancelRequested (now : Timestamp) (reason : String) : PipelineRun :=
  { pipeline with
    status := .cancelRequested, cancelReason := some reason,
    cancelRequestedAt := some (pipeline.cancelRequestedAt.getD now), finishedAt := none }

end PipelineRun

def Database.computedStatus (db : Database) (pipelineId : Id) : PipelineStatus :=
  terminalPipelineStatus ((db.jobRunsOf pipelineId).map JobRun.outcome)

def PipelineUpdate.row (db : Database) (now : Timestamp) (pipelineId : Id) :
    PipelineUpdate → PipelineRun → PipelineRun
  | .finalizePipelineStatus, pipeline => pipeline.finalize now (db.computedStatus pipelineId)
  | .setPipelineStatus status, pipeline => pipeline.setStatus now status
  | .markPipelineCancelRequested reason, pipeline => pipeline.markCancelRequested now reason

lemma PipelineUpdate.row_id (db : Database) (now : Timestamp) (pipelineId : Id)
    (u : PipelineUpdate) (pipeline : PipelineRun) :
    (u.row db now pipelineId pipeline).id = pipeline.id := by
  cases u <;> rfl

def Database.updatePipelineRun (db : Database) (u : PipelineUpdate) (now : Timestamp)
    (pipelineId : Id) : Database :=
  { db with pipelineRuns := db.pipelineRuns.modify pipelineId (u.row db now pipelineId)
              fun pipeline => u.row_id db now pipelineId pipeline }

structure PendingArtifact where
  id : Id
  scopeType : String
  scopeId : Id
  artifactName : String
  sha256 : String
  sizeBytes : ℕ
  storagePath : Id

inductive Insertion
  | createPipelineRun (repoId workflowId workflowVersionId : Id) (triggerType : String)
      (triggerRef commitSha : Option String) (origin : Origin)
  | addWorkflowRunArtifactSelections (pipelineRunId : Id)
      (selections : List WorkflowRunArtifactSelection)
  | createJobRun (pipelineRunId : Id) (jobIndex : ℕ) (runnerId runnerJobName : String)
      (outcomePolicy : WorkflowJobOutcomePolicy)
  | addPreviousJob (jobRunId previousJobRunId : Id)
  | insertServerArtifact (artifact : PendingArtifact)

def Insertion.Result : Insertion → Type
  | .createPipelineRun _ _ _ _ _ _ _ => Id
  | .addWorkflowRunArtifactSelections _ _ => Unit
  | .createJobRun _ _ _ _ _ => Id
  | .addPreviousJob _ _ => Unit
  | .insertServerArtifact _ => Id

def foreignKeyFailed : String := "FOREIGN KEY constraint failed"

def uniqueFailed (column : String) : String := s!"UNIQUE constraint failed: {column}"

namespace Database

variable (db : Database)

def newPipelineRun (id : Id) (now : Timestamp) (repoId workflowId workflowVersionId : Id)
    (triggerType : String) (triggerRef commitSha : Option String) (origin : Origin) :
    PipelineRun where
  id := id
  repoId := repoId
  workflowId := workflowId
  workflowVersionId := workflowVersionId
  triggerType := triggerType
  triggerRef := triggerRef
  commitSha := commitSha
  status := .running
  startedAt := now
  cancelReason := none
  cancelRequestedAt := none
  cancelStartedAt := none
  finishedAt := none
  origin := origin

def createPipelineRun (id : Id) (now : Timestamp) (repoId workflowId workflowVersionId : Id)
    (triggerType : String) (triggerRef commitSha : Option String) (origin : Origin) :
    Except String Database :=
  if (db.repos.find? repoId).isNone ∨ (db.workflows.find? workflowId).isNone ∨
      (db.workflowVersions.find? workflowVersionId).isNone then
    .error foreignKeyFailed
  else
    match db.pipelineRuns.insert? (newPipelineRun id now repoId workflowId workflowVersionId
        triggerType triggerRef commitSha origin) with
    | some pipelineRuns => .ok { db with pipelineRuns }
    | none => .error (uniqueFailed "pipeline_runs.id")

def addSelection (pipelineRunId : Id) (selection : WorkflowRunArtifactSelection) :
    Except String Database :=
  if (db.pipelineRuns.find? pipelineRunId).isNone ∨
      (db.serverArtifacts.find? selection.serverArtifactId).isNone then
    .error foreignKeyFailed
  else
    match db.workflowRunArtifactInputs.insert?
        ⟨pipelineRunId, selection.jobIndex, selection.inputName, selection.serverArtifactId⟩ with
    | some workflowRunArtifactInputs => .ok { db with workflowRunArtifactInputs }
    | none => .error (uniqueFailed ("workflow_run_artifact_inputs.pipeline_run_id, " ++
        "workflow_run_artifact_inputs.job_index, workflow_run_artifact_inputs.input_name"))

def addWorkflowRunArtifactSelections (pipelineRunId : Id) :
    List WorkflowRunArtifactSelection → Database → Except String Database
  | [], db => .ok db
  | selection :: selections, db =>
    (db.addSelection pipelineRunId selection).bind
      (addWorkflowRunArtifactSelections pipelineRunId selections)

def newJobRun (id key pipelineRunId : Id) (jobIndex : ℕ) (runnerId runnerJobName : String)
    (outcomePolicy : WorkflowJobOutcomePolicy) : JobRun where
  id := id
  pipelineRunId := pipelineRunId
  jobIndex := jobIndex
  runnerId := runnerId
  runnerJobName := runnerJobName
  dispatchIdempotencyKey := key
  runnerRunId := none
  status := .pending
  outcomePolicy := outcomePolicy
  startedAt := none
  durationMs := none
  exitCode := none
  terminalReason := none
  failureCategory := none
  cancelReason := none
  cancelRequestedAt := none
  cancelStartedAt := none
  cancelRetryCount := 0
  lastCancelRetryAt := none
  infraRetryCount := 0
  lastInfraRetryAt := none
  finishedAt := none
  outputMetadata := {}

/-- The first of the two statements of `create_job_run`, each committed by itself. -/
def insertJobRun (id key pipelineRunId : Id) (jobIndex : ℕ) (runnerId runnerJobName : String)
    (outcomePolicy : WorkflowJobOutcomePolicy) : Except String Database :=
  if (db.pipelineRuns.find? pipelineRunId).isNone ∨ (db.runners.find? runnerId).isNone then
    .error foreignKeyFailed
  else if db.jobRuns.rows.any (·.dispatchIdempotencyKey = key) then
    .error (uniqueFailed "job_runs.dispatch_idempotency_key")
  else
    match db.jobRuns.insert?
        (newJobRun id key pipelineRunId jobIndex runnerId runnerJobName outcomePolicy) with
    | some jobRuns => .ok { db with jobRuns }
    | none => .error (uniqueFailed "job_runs.id")

def insertJobRunLogs (jobRunId : Id) : Except String Database :=
  match db.jobRunLogs.insert? ⟨jobRunId, "", ""⟩ with
  | some jobRunLogs => .ok { db with jobRunLogs }
  | none => .error (uniqueFailed "job_run_logs.job_run_id")

def addPreviousJob (jobRunId previousJobRunId : Id) : Except String Database :=
  if (db.jobRuns.find? jobRunId).isNone ∨ (db.jobRuns.find? previousJobRunId).isNone then
    .error foreignKeyFailed
  else
    match db.jobRunPrevious.insert? ⟨jobRunId, previousJobRunId⟩ with
    | some jobRunPrevious => .ok { db with jobRunPrevious }
    | none => .error (uniqueFailed ("job_run_previous.job_run_id, " ++
        "job_run_previous.previous_job_run_id"))

def insertServerArtifact (artifact : PendingArtifact) : Except String Database :=
  match db.getServerArtifact artifact.scopeType artifact.scopeId artifact.artifactName with
  | some row =>
    let renew (row : ServerArtifact) : ServerArtifact :=
      { row with sha256 := artifact.sha256, sizeBytes := artifact.sizeBytes,
                 storagePath := artifact.storagePath }
    .ok { db with serverArtifacts := db.serverArtifacts.modify row.id renew fun _ => rfl }
  | none =>
    match db.serverArtifacts.insert? ⟨artifact.id, artifact.scopeType, artifact.scopeId,
        artifact.artifactName, artifact.sha256, artifact.sizeBytes, artifact.storagePath⟩ with
    | some serverArtifacts => .ok { db with serverArtifacts }
    | none => .error (uniqueFailed "server_artifacts.id")

def setJobRunInputPayload (jobRunId : Id) (payload : Value) : Database :=
  { db with jobRunInputPayloads := (jobRunId, payload) ::
              db.jobRunInputPayloads.filter fun row => row.1 ≠ jobRunId }

def markPushEventProcessed (now : Timestamp) (pushEventId : Id) : Database :=
  { db with pushEvents := db.pushEvents.modify pushEventId
              (fun event => { event with processedAt := some now }) fun _ => rfl }

end Database

end Janus.Server
