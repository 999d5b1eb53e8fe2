import Janus.Concurrency.Program
import Janus.Server.Database
import Janus.Server.RunnerClient

/-! The calls by which the server's tasks act on the database, the files and the runners, and what
each of them does to the store. -/

namespace Janus.Server

open Janus.Concurrency

structure SchedulerConfig where
  maxInfraRetries : ℕ
  maxCancelRetries : ℕ
  cancelStuckTimeoutSeconds : ℕ

structure AppState where
  scheduler : SchedulerConfig
  limits : LimitsConfig
  serverArtifactBytes : ℕ
  sha256Hex : Bytes → String
  /-- `Pattern::new(pattern)?.matches(text)`, false for a pattern that does not compile. -/
  patternMatches : String → String → Bool

inductive FileCall
  | readBytes (storagePath : Id)
  | storeBytes (scopeType : String) (scopeId : Id) (artifactName : String) (bytes : Bytes)
  | archiveExists (pipelineId : Id) (commitSha : String)
  | createSourceArchive (barePath : String) (pipelineId : Id) (commitSha : String)
  | storeFile (scopeType : String) (scopeId : Id) (artifactName : String) (pipelineId : Id)
      (commitSha : String)

def FileCall.Result : FileCall → Type
  | .readBytes _ => Bytes
  | .storeBytes _ _ _ _ => PendingArtifact
  | .archiveExists _ _ => Bool
  | .createSourceArchive _ _ _ => Unit
  | .storeFile _ _ _ _ _ => PendingArtifact

inductive Call
  | query (q : Query)
  | jobRun (jobRunId : Id) (u : JobUpdate)
  | pipelineRun (pipelineId : Id) (u : PipelineUpdate)
  | insert (i : Insertion)
  | setJobRunInputPayload (jobRunId : Id) (payload : List (String × Value))
  | markPushEventProcessed (pushEventId : Id)
  | runner (runner : Runner) (request : RunnerRequest)
  | file (f : FileCall)
  | now

def Call.Result : Call → Type
  | .query q => q.Result
  | .jobRun _ u => u.Result
  | .pipelineRun _ _ => Unit
  | .insert i => i.Result
  | .setJobRunInputPayload _ _ => Unit
  | .markPushEventProcessed _ => Unit
  | .runner _ request => request.Result
  | .file f => f.Result
  | .now => Timestamp

inductive Fault
  | none
  | refused (message : String)
  | partway (message : String)

/-- All that the surroundings decide about one call. -/
structure Outcome where
  fault : Fault := .none
  now : Timestamp := 0
  uuid : Id := 0
  dispatchKey : Id := 0
  reply : Except String HttpResponse := .error "error sending request"
  accepted : Option String := none
  archive : Option Bytes := none

structure RunnerRun where
  id : String
  jobRunId : Id
  live : Bool := true
  recorded : Bool := false

structure History where
  runs : List RunnerRun := []
  /-- The jobs that `finish_job_run` or `mark_job_run_cancel_retry_exhausted` has ended. -/
  finished : List Id := []

structure Store where
  db : Database
  files : List (Id × Bytes)
  archives : List ((Id × String) × Bytes)
  history : History

namespace History

variable (h : History)

def accept (jobRunId : Id) (runId : String) : History :=
  if h.runs.any (·.id = runId) then h else { h with runs := ⟨runId, jobRunId, true, false⟩ :: h.runs }

def record (jobRunId : Id) (runId : String) : History :=
  { h with runs := h.runs.map fun run =>
             if run.id = runId ∧ run.jobRunId = jobRunId then { run with recorded := true } else run }

def ends (runId : String) : History :=
  { h with runs := h.runs.map fun run => if run.id = runId then { run with live := false } else run }

def finish (jobRunId : Id) : History := { h with finished := jobRunId :: h.finished }

def update (jobRunId : Id) : JobUpdate → History
  | .setJobRunStarted runId _ => h.record jobRunId runId
  | .finishJobRun _ _ _ _ _ _ _ _ _ => h.finish jobRunId
  | .markJobRunCancelRetryExhausted => h.finish jobRunId
  | _ => h

def answer (o : Outcome) : RunnerRequest → History
  | .createJobRun jobRunId _ _ _ => match o.accepted with
    | some runId => h.accept jobRunId runId
    | none => h
  | _ => h

end History

def FileCall.exec (app : AppState) (o : Outcome) (s : Store) :
    (f : FileCall) → Except String f.Result × Store
  | .readBytes storagePath => match s.files.lookup storagePath with
    | some bytes => (.ok bytes, s)
    | none => (.error "No such file or directory (os error 2)", s)
  | .storeBytes scopeType scopeId artifactName bytes => store scopeType scopeId artifactName bytes
  | .archiveExists pipelineId commitSha =>
    (.ok (s.archives.lookup (pipelineId, commitSha)).isSome, s)
  | .createSourceArchive barePath pipelineId commitSha =>
    let failed := "git archive failed for commit " ++ commitSha ++ " in " ++ barePath
    match o.archive, o.fault with
    | some bytes, .none => (.ok (), archived s pipelineId commitSha bytes)
    | some bytes, _ => (.error failed, archived s pipelineId commitSha bytes)
    | none, _ => (.error failed, s)
  | .storeFile scopeType scopeId artifactName pipelineId commitSha =>
    match s.archives.lookup (pipelineId, commitSha) with
    | some bytes => store scopeType scopeId artifactName bytes
    | none => (.error "No such file or directory (os error 2)", s)
where
  store (scopeType : String) (scopeId : Id) (artifactName : String) (bytes : Bytes) :
      Except String PendingArtifact × Store :=
    if bytes.length > app.serverArtifactBytes then
      (.error s!"artifact exceeds maximum size of {app.serverArtifactBytes} bytes", s)
    else
      (.ok ⟨o.uuid, scopeType, scopeId, artifactName, app.sha256Hex bytes, bytes.length, o.uuid⟩,
        { s with files := (o.uuid, bytes) :: s.files })
  archived (s : Store) (pipelineId : Id) (commitSha : String) (bytes : Bytes) : Store :=
    { s with archives := ((pipelineId, commitSha), bytes) :: s.archives }

def Insertion.exec (o : Outcome) (db : Database) : (i : Insertion) → Except String i.Result × Database
  | .createPipelineRun repoId workflowId workflowVersionId triggerType triggerRef commitSha origin =>
    match db.createPipelineRun o.uuid o.now repoId workflowId workflowVersionId triggerType triggerRef
        commitSha origin with
    | .ok db' => (.ok o.uuid, db')
    | .error e => (.error e, db)
  | .addWorkflowRunArtifactSelections pipelineRunId selections =>
    match db.addWorkflowRunArtifactSelections pipelineRunId selections with
    | .ok db' => (.ok (), db')
    | .error e => (.error e, db)
  | .createJobRun pipelineRunId jobIndex runnerId runnerJobName outcomePolicy =>
    match db.insertJobRun o.uuid o.dispatchKey pipelineRunId jobIndex runnerId runnerJobName
        outcomePolicy with
    | .error e => (.error e, db)
    | .ok db' => match o.fault with
      | .partway e => (.error e, db')
      | _ => match db'.insertJobRunLogs o.uuid with
        | .ok db'' => (.ok o.uuid, db'')
        | .error e => (.error e, db')
  | .addPreviousJob jobRunId previousJobRunId =>
    match db.addPreviousJob jobRunId previousJobRunId with
    | .ok db' => (.ok (), db')
    | .error e => (.error e, db)
  | .insertServerArtifact artifact => match db.insertServerArtifact artifact with
    | .ok db' => (.ok artifact.id, db')
    | .error e => (.error e, db)

def Call.perform (app : AppState) (o : Outcome) (s : Store) :
    (c : Call) → Except String c.Result × Store
  | .query q => (q.eval s.db, s)
  | .jobRun jobRunId u =>
    let answer := s.db.updateJobRun u o.now o.dispatchKey jobRunId
    let result := match o.fault with
      | .partway e => .error e
      | _ => answer.1
    (result, { s with db := answer.2, history := s.history.update jobRunId u })
  | .pipelineRun pipelineId u => (.ok (), { s with db := s.db.updatePipelineRun u o.now pipelineId })
  | .insert i =>
    let answer := i.exec o s.db
    (answer.1, { s with db := answer.2 })
  | .setJobRunInputPayload jobRunId payload =>
    (.ok (), { s with db := s.db.setJobRunInputPayload jobRunId (.object payload) })
  | .markPushEventProcessed pushEventId =>
    (.ok (), { s with db := s.db.markPushEventProcessed o.now pushEventId })
  | .runner _ request =>
    (request.receive app.limits o.reply, { s with history := s.history.answer o request })
  | .file f => f.exec app o s
  | .now => (.ok o.now, s)

def Call.refusal : Call → Fault → Option String
  | .runner _ _, _ => none
  | .now, _ => none
  | .insert (.createJobRun _ _ _ _ _), .partway _ => none
  | .jobRun _ .recordCancelRetry, .partway _ => none
  | .file (.createSourceArchive _ _ _), .partway _ => none
  | _, .none => none
  | _, .refused e => some e
  | _, .partway e => some e

def Call.exec (app : AppState) (c : Call) (o : Outcome) (s : Store) :
    Except String c.Result × Store :=
  match c.refusal o.fault with
  | some e => (.error e, s)
  | none => c.perform app o s

abbrev Task := Program Call Call.Result String

def call (c : Call) : Task c.Result := .request c

/-- `serde_json::from_str` on a stored text. -/
def fromStr {α : Type} (text : Except String α) : Task α := .done text

namespace Db

def listUnprocessedPushEvents : Task (List PushEvent) := call (.query .listUnprocessedPushEvents)

def listRunnerJobs (runnerId : String) : Task (List RunnerJobDefinition) :=
  call (.query (.listRunnerJobs runnerId))

def getRunner (runnerId : String) : Task (Option Runner) := call (.query (.getRunner runnerId))

def getRepo (repoId : Id) : Task (Option Repo) := call (.query (.getRepo repoId))

def workflowsForRepo (repoId : Id) : Task (List Workflow) :=
  call (.query (.workflowsForRepo repoId))

def workflowDefinitionJson (workflowVersionId : Id) : Task (Except String WorkflowDefinition) :=
  call (.query (.workflowDefinitionJson workflowVersionId))

def workflowJobSchemas (workflowVersionId : Id) : Task (List RunnerJobDefinition) :=
  call (.query (.workflowJobSchemas workflowVersionId))

def workflowRunArtifactSelection (pipelineRunId : Id) (jobIndex : ℕ) (inputName : String) :
    Task (Option Id) :=
  call (.query (.workflowRunArtifactSelection pipelineRunId jobIndex inputName))

def pipelineSnapshot (pipelineId : Id) : Task (Option PipelineSnapshot) :=
  call (.query (.pipelineSnapshot pipelineId))

def listJobRunsByStatus (statuses : List JobStatus) : Task (List JobRun) :=
  call (.query (.listJobRunsByStatus statuses))

def previousJobsForJobRun (jobRunId : Id) : Task (List JobRun) :=
  call (.query (.previousJobsForJobRun jobRunId))

def jobOutputs (jobRunId : Id) : Task (List JobRunOutput) := call (.query (.jobOutputs jobRunId))

def pipelineForJobRun (jobRunId : Id) : Task (Option PipelineRun) :=
  call (.query (.pipelineForJobRun jobRunId))

def listJobRunsForPipeline (pipelineId : Id) : Task (List JobRun) :=
  call (.query (.listJobRunsForPipeline pipelineId))

def pipelinesRequiringRecovery : Task (List PipelineRun) :=
  call (.query .pipelinesRequiringRecovery)

def getServerArtifact (scopeType : String) (scopeId : Id) (artifactName : String) :
    Task (Option ServerArtifact) :=
  call (.query (.getServerArtifact scopeType scopeId artifactName))

def getServerArtifactById (artifactId : Id) : Task (Option ServerArtifact) :=
  call (.query (.getServerArtifactById artifactId))

def setJobRunStarted (jobRunId : Id) (runnerRunId : String) (startedAt : Timestamp) : Task Unit :=
  call (.jobRun jobRunId (.setJobRunStarted runnerRunId startedAt))

def finishJobRun (jobRunId : Id) (status : JobStatus) (durationMs : Option ℕ) (exitCode : Option ℤ)
    (terminalReason failureCategory : Option String) (outputMetadata : JobOutputMetadata)
    (stdout stderr : String) (outputs : List JobRunOutput) : Task Unit :=
  call (.jobRun jobRunId (.finishJobRun status durationMs exitCode terminalReason
    failureCategory outputMetadata stdout stderr outputs))

def setJobRunStatus (jobRunId : Id) (status : JobStatus) : Task Unit :=
  call (.jobRun jobRunId (.setJobRunStatus status))

def markJobRunCancelRequested (jobRunId : Id) (reason : String) : Task Unit :=
  call (.jobRun jobRunId (.markJobRunCancelRequested reason))

def recordCancelRetry (jobRunId : Id) : Task ℕ := call (.jobRun jobRunId .recordCancelRetry)

def requeueJobRunForInfraRetry (jobRunId : Id) : Task ℕ :=
  call (.jobRun jobRunId .requeueJobRunForInfraRetry)

def markJobRunCancelRetryExhausted (jobRunId : Id) : Task Unit :=
  call (.jobRun jobRunId .markJobRunCancelRetryExhausted)

def setJobRunInputPayload (jobRunId : Id) (payload : List (String × Value)) : Task Unit :=
  call (.setJobRunInputPayload jobRunId payload)

def finalizePipelineStatus (pipelineId : Id) : Task Unit :=
  call (.pipelineRun pipelineId .finalizePipelineStatus)

def setPipelineStatus (pipelineId : Id) (status : PipelineStatus) : Task Unit :=
  call (.pipelineRun pipelineId (.setPipelineStatus status))

def markPipelineCancelRequested (pipelineId : Id) (reason : String) : Task Unit :=
  call (.pipelineRun pipelineId (.markPipelineCancelRequested reason))

def createPipelineRun (repoId workflowId workflowVersionId : Id) (triggerType : String)
    (triggerRef commitSha : Option String) (origin : Origin) : Task Id :=
  call (.insert
    (.createPipelineRun repoId workflowId workflowVersionId triggerType triggerRef commitSha origin))

def addWorkflowRunArtifactSelections (pipelineRunId : Id)
    (selections : List WorkflowRunArtifactSelection) : Task Unit :=
  call (.insert (.addWorkflowRunArtifactSelections pipelineRunId selections))

def createJobRun (pipelineRunId : Id) (jobIndex : ℕ) (runnerId runnerJobName : String)
    (outcomePolicy : WorkflowJobOutcomePolicy) : Task Id :=
  call (.insert (.createJobRun pipelineRunId jobIndex runnerId runnerJobName outcomePolicy))

def addPreviousJob (jobRunId previousJobRunId : Id) : Task Unit :=
  call (.insert (.addPreviousJob jobRunId previousJobRunId))

def insertServerArtifact (artifact : PendingArtifact) : Task Id :=
  call (.insert (.insertServerArtifact artifact))

def markPushEventProcessed (pushEventId : Id) : Task Unit :=
  call (.markPushEventProcessed pushEventId)

end Db

namespace RunnerClient

def uploadArtifact (runner : Runner) (bytes : Bytes) (sha256 : String) :
    Task ArtifactUploadResponse :=
  call (.runner runner (.uploadArtifact bytes sha256))

def createJobRun (runner : Runner) (jobRunId : Id) (runnerJobName : String) (idempotencyKey : Id)
    (body : List (String × Value)) : Task JobCreatedResponse :=
  call (.runner runner (.createJobRun jobRunId runnerJobName idempotencyKey body))

def getJobRun (runner : Runner) (runnerRunId : String) : Task JobStatusResponse :=
  call (.runner runner (.getJobRun runnerRunId))

def getJobLogs (runner : Runner) (runnerRunId : String) : Task JobLogsResponse :=
  call (.runner runner (.getJobLogs runnerRunId))

def cancelJobRun (runner : Runner) (runnerRunId : String) : Task Unit :=
  call (.runner runner (.cancelJobRun runnerRunId))

def downloadArtifact (runner : Runner) (artifactId : String) : Task Bytes :=
  call (.runner runner (.downloadArtifact artifactId))

end RunnerClient

namespace ArtifactStore

def readBytes (artifact : ServerArtifact) : Task Bytes :=
  call (.file (.readBytes artifact.storagePath))

def storeBytes (scopeType : String) (scopeId : Id) (artifactName : String) (bytes : Bytes) :
    Task PendingArtifact :=
  call (.file (.storeBytes scopeType scopeId artifactName bytes))

def storeFile (scopeType : String) (scopeId : Id) (artifactName : String) (pipelineId : Id)
    (commitSha : String) : Task PendingArtifact :=
  call (.file (.storeFile scopeType scopeId artifactName pipelineId commitSha))

end ArtifactStore

namespace Git

def archiveExists (pipelineId : Id) (commitSha : String) : Task Bool :=
  call (.file (.archiveExists pipelineId commitSha))

def createSourceArchive (barePath : String) (pipelineId : Id) (commitSha : String) : Task Unit :=
  call (.file (.createSourceArchive barePath pipelineId commitSha))

end Git

def utcNow : Task Timestamp := call .now

end Janus.Server
