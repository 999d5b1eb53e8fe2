import Janus.Server.Database

/-! The statements on the tables that the routes run beside those of the scheduler: triggers, runners
and their catalogs, versions of workflows, and the artifacts that can be promoted. -/

namespace Janus.Server

open Janus.Data

structure PromotableArtifact where
  serverArtifactId : Id
  pipelineRunId : Id
  jobRunId : Id
  runnerId : String
  runnerJobName : String
  outputName : String
  deriving DecidableEq

inductive WebQuery
  | getWorkflow (workflowId : Id)
  | getWorkflowByVersionId (workflowVersionId : Id)
  | getPipelineRun (pipelineId : Id)
  | listRunners
  | workflowRunArtifactSelections (pipelineRunId : Id)
  | listRecentPromotableArtifacts (repoId : Id) (sourceRunnerId sourceJobName outputName : String)
      (limit : ℕ)

def WebQuery.Result : WebQuery → Type
  | .getWorkflow _ => Option Workflow
  | .getWorkflowByVersionId _ => Option Workflow
  | .getPipelineRun _ => Option PipelineRun
  | .listRunners => List Runner
  | .workflowRunArtifactSelections _ => List WorkflowRunArtifactSelection
  | .listRecentPromotableArtifacts _ _ _ _ _ => List PromotableArtifact

abbrev Recency := ℕ × ℕ × ℕ

def Recency.precedes (a b : Recency) : Bool :=
  b.1 < a.1 || (b.1 = a.1 && (b.2.1 < a.2.1 || (b.2.1 = a.2.1 && b.2.2 ≤ a.2.2)))

def sortedTime (time : Option Timestamp) : ℕ := time.elim 0 (· + 1)

def ArtifactInput.selection (input : ArtifactInput) : WorkflowRunArtifactSelection :=
  ⟨input.jobIndex, input.inputName, input.serverArtifactId⟩

namespace Database

variable (db : Database)

def getWorkflow (workflowId : Id) : Option Workflow :=
  (db.workflows.find? workflowId).bind fun workflow => (db.newestVersions workflow).head?

def getWorkflowByVersionId (workflowVersionId : Id) : Option Workflow :=
  (db.workflowVersions.find? workflowVersionId).bind fun version =>
    (db.workflows.find? version.workflowId).map fun workflow =>
      { id := workflow.id, repoId := workflow.repoId, name := workflow.name,
        enabled := workflow.enabled, versionId := version.id, triggerJson := version.triggerJson,
        definitionJson := version.definitionJson }

def listRunners : List Runner := orderBy Runner.name db.runners.rows

/-- `ORDER BY job_index, input_name`. -/
def workflowRunArtifactSelections (pipelineRunId : Id) : List WorkflowRunArtifactSelection :=
  (((db.workflowRunArtifactInputs.rows.filter (·.pipelineRunId = pipelineRunId)).map
    ArtifactInput.selection).insertionSort fun a b => a.inputName ≤ b.inputName).insertionSort
      fun a b => a.jobIndex ≤ b.jobIndex

def promotableArtifact (repoId : Id) (sourceRunnerId sourceJobName outputName : String)
    (row : Id × JobRunOutput) : Option (Recency × PromotableArtifact) := do
  let artifact ← row.2.serverArtifactId.bind db.serverArtifacts.find?
  let job ← db.jobRuns.find? row.1
  let pipeline ← db.pipelineRuns.find? job.pipelineRunId
  let _ ← db.workflows.find? pipeline.workflowId
  let _ ← db.runners.find? job.runnerId
  if pipeline.repoId = repoId ∧ pipeline.status = .success ∧ job.status = .success ∧
      job.runnerId = sourceRunnerId ∧ job.runnerJobName = sourceJobName ∧
      row.2.outputName = outputName ∧ row.2.kind = .artifact then
    some ((sortedTime pipeline.finishedAt, sortedTime job.finishedAt, artifact.id),
      ⟨artifact.id, pipeline.id, job.id, job.runnerId, job.runnerJobName, row.2.outputName⟩)
  else
    none

def listRecentPromotableArtifacts (repoId : Id) (sourceRunnerId sourceJobName outputName : String)
    (limit : ℕ) : List PromotableArtifact :=
  (((db.jobRunArtifacts.filterMap
    (db.promotableArtifact repoId sourceRunnerId sourceJobName outputName)).insertionSort
      fun a b => a.1.precedes b.1).map Prod.snd).take (min limit 100)

end Database

def WebQuery.eval (db : Database) : (q : WebQuery) → q.Result
  | .getWorkflow workflowId => db.getWorkflow workflowId
  | .getWorkflowByVersionId workflowVersionId => db.getWorkflowByVersionId workflowVersionId
  | .getPipelineRun pipelineId => db.pipelineRuns.find? pipelineId
  | .listRunners => db.listRunners
  | .workflowRunArtifactSelections pipelineRunId => db.workflowRunArtifactSelections pipelineRunId
  | .listRecentPromotableArtifacts repoId sourceRunnerId sourceJobName outputName limit =>
    db.listRecentPromotableArtifacts repoId sourceRunnerId sourceJobName outputName limit

namespace Database

variable (db : Database)

def newPushEvent (id : Id) (now : Timestamp) (repoId : Id) (eventKey : String)
    (refs : List PushEventRef) : PushEvent where
  id := id
  repoId := repoId
  receivedAt := now
  eventKey := eventKey
  processedAt := none
  refs := refs

def eventKeys : List String := db.pushEvents.rows.map PushEvent.eventKey

/-- `INSERT OR IGNORE`: an event with the key of a stored one is dropped. -/
def createPushEvent (id : Id) (now : Timestamp) (repoId : Id) (eventKey : String)
    (refs : List PushEventRef) : Except String Database :=
  if eventKey ∈ db.eventKeys then .ok db
  else
    match db.pushEvents.insert? (newPushEvent id now repoId eventKey refs) with
    | none => .ok db
    | some pushEvents =>
      if (db.repos.find? repoId).isNone then .error foreignKeyFailed
      else .ok { db with pushEvents }

def createRunner (id name baseUrl : String) : Except String Database :=
  if db.runners.rows.any (·.name = name) then .error (uniqueFailed "runners.name")
  else
    match db.runners.insert? { id, name, baseUrl } with
    | some runners => .ok { db with runners }
    | none => .error (uniqueFailed "runners.id")

def setRunnerEnabled (runnerId : String) (enabled : Bool) : Database :=
  { db with runners := db.runners.modify runnerId (fun runner => { runner with enabled })
              fun _ => rfl }

def deleteRunnerJobs (runnerId : String) : List (String × RunnerJobDefinition) :=
  db.runnerJobs.filter fun row => row.1 ≠ runnerId

def updateRunner (runnerId name baseUrl : String) : Except String Database :=
  match db.runners.find? runnerId with
  | none => .error noRows
  | some runner =>
    if db.runners.rows.any (fun other => other.name = name ∧ other.id ≠ runnerId) then
      .error (uniqueFailed "runners.name")
    else
      let baseUrlChanged := runner.baseUrl ≠ baseUrl
      let update (runner : Runner) : Runner :=
        { runner with
          name, baseUrl,
          lastHealthState :=
            if runner.baseUrl ≠ baseUrl then "unknown" else runner.lastHealthState }
      .ok { db with
        runners := db.runners.modify runnerId update fun _ => rfl
        runnerJobs := if baseUrlChanged then db.deleteRunnerJobs runnerId else db.runnerJobs }

def updateRunnerHealth (runnerId state : String) : Database :=
  { db with runners := db.runners.modify runnerId
              (fun runner => { runner with lastHealthState := state }) fun _ => rfl }

def replaceRunnerJobs (runnerId : String) (jobs : List RunnerJobDefinition) :
    Except String Database :=
  if jobs ≠ [] ∧ (db.runners.find? runnerId).isNone then .error foreignKeyFailed
  else if (jobs.map RunnerJobDefinition.name).Nodup then
    .ok { db with runnerJobs := db.deleteRunnerJobs runnerId ++ jobs.map fun job => (runnerId, job) }
  else
    .error (uniqueFailed "runner_jobs.runner_id, runner_jobs.job_name")

def insertWorkflowVersion (version : WorkflowVersionRow) :
    Except String (Table WorkflowVersionRow.id) :=
  if db.workflowVersions.rows.any fun row =>
      row.workflowId = version.workflowId ∧ row.version = version.version then
    .error (uniqueFailed "workflow_versions.workflow_id, workflow_versions.version")
  else
    match db.workflowVersions.insert? version with
    | some workflowVersions => .ok workflowVersions
    | none => .error (uniqueFailed "workflow_versions.id")

def createWorkflow (workflowId versionId : Id) (repoId : Id) (name : String) (enabled : Bool)
    (triggerJson : Except String WorkflowTrigger) (definitionJson : Except String WorkflowDefinition)
    (jobSchemas : List RunnerJobDefinition) : Except String Database :=
  if (db.repos.find? repoId).isNone then .error foreignKeyFailed
  else
    match db.workflows.insert? ⟨workflowId, repoId, name, enabled⟩ with
    | none => .error (uniqueFailed "workflows.id")
    | some workflows =>
      (db.insertWorkflowVersion
        ⟨versionId, workflowId, 1, triggerJson, definitionJson, jobSchemas⟩).map
          fun workflowVersions => { db with workflows, workflowVersions }

def versionsOf (workflowId : Id) : List WorkflowVersionRow :=
  db.workflowVersions.rows.filter (·.workflowId = workflowId)

/-- `SELECT COALESCE(MAX(version), 0) + 1`. -/
def nextVersion (workflowId : Id) : ℕ :=
  ((db.versionsOf workflowId).map WorkflowVersionRow.version).foldr max 0 + 1

def updateWorkflow (versionId : Id) (workflowId : Id) (name : String) (enabled : Bool)
    (triggerJson : Except String WorkflowTrigger) (definitionJson : Except String WorkflowDefinition)
    (jobSchemas : List RunnerJobDefinition) : Except String Database :=
  if (db.workflows.find? workflowId).isNone then .error foreignKeyFailed
  else
    (db.insertWorkflowVersion ⟨versionId, workflowId, db.nextVersion workflowId, triggerJson,
      definitionJson, jobSchemas⟩).map fun workflowVersions =>
        { db with
          workflows := db.workflows.modify workflowId
            (fun workflow => { workflow with name, enabled }) fun _ => rfl
          workflowVersions }

end Database

end Janus.Server
