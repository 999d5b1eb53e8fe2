import Janus.Server.Scheduler
import Janus.Web.Calls

/-! The routes that take triggers, keep runners and workflows, and run and rerun pipelines, and the
refresh of the runners' catalogs. -/

namespace Janus.Web

open Janus.Concurrency Janus.Data Janus.Server

structure WebState extends AppState where
  csrfToken : Id → String
  /-- `validate_base_url` under the configured policy. -/
  validateBaseUrl : String → Except String Unit

structure User where
  id : Id
  isAdmin : Bool

structure Sender where
  user : User
  csrfToken : String

def okOr {α : Type} (value : Option α) (message : String) : WebTask α :=
  match value with
  | some a => pure a
  | none => .fail message

def internalError {α : Type} (task : WebTask α) : WebTask α := do
  match ← task.attempt with
  | .ok a => pure a
  | .error _ => .fail "internal server error"

def optionalTrimmedValue (value : Option String) : Option String :=
  (value.map trim).filter fun value => !value.isEmpty

variable (app : WebState)

def verifyCsrf (sender : Sender) : WebTask Unit :=
  if sender.csrfToken = app.csrfToken sender.user.id then pure ()
  else .fail "csrf validation failed"

def adminUser (user : User) : WebTask Unit :=
  if user.isAdmin then pure () else .fail "redirected to /login"

def requireAdmin (user : User) : WebTask Unit :=
  if user.isAdmin then pure () else .fail "admin role required"

def authorizedRepo (user : User) (repoId : Id) : WebTask Repo := do
  requireAdmin user
  let repo ← internalError (Db.getRepo repoId)
  okOr repo "repo not found"

def authorizedWorkflow (user : User) (workflowId : Id) : WebTask Workflow := do
  let workflow ← internalError (Db.getWorkflow workflowId)
  let workflow ← okOr workflow "workflow not found"
  let repo ← authorizedRepo user workflow.repoId
  if repo.id = workflow.repoId then pure workflow else .fail "workflow access denied"

def authorizedPipeline (user : User) (pipelineId : Id) : WebTask PipelineRun := do
  let pipeline ← internalError (Db.getPipelineRun pipelineId)
  let pipeline ← okOr pipeline "pipeline not found"
  let repo ← authorizedRepo user pipeline.repoId
  if repo.id = pipeline.repoId then pure pipeline else .fail "pipeline access denied"

def asBytes (text : String) : Bytes := text.toUTF8.toList

def splitWhitespace (line : List Char) : List String :=
  ((line.splitOnP isWhitespace).filter fun part => !part.isEmpty).map String.ofList

def readPushRefs (raw : String) : List PushEventRef :=
  (raw.toList.splitOn '\n').filterMap fun line => match splitWhitespace line with
    | oldRev :: newRev :: refName :: _ => some ⟨oldRev, newRev, refName⟩
    | _ => none

def eventKey (app : AppState) (repoId : Id) (refs : List PushEventRef) : String :=
  app.sha256Hex (asBytes (toString repoId) ++ refs.flatMap fun item =>
    asBytes item.oldRev ++ asBytes item.newRev ++ asBytes item.refName)

def postReceive (repoId : Id) (refsRaw : String) : WebTask Unit :=
  let refs := readPushRefs refsRaw
  Db.createPushEvent repoId (eventKey app.toAppState repoId refs) refs

def validateManualRef (field value : String) : Except String Unit :=
  if isBlank value then .error (field ++ " cannot be empty")
  else if value.toList.any isWhitespace then .error (field ++ " must not contain whitespace")
  else .ok ()

def manualTriggerRefs (repo : Repo) (branch commit : Option String) :
    Except String (List PushEventRef) := do
  let branch := (optionalTrimmedValue branch).getD ("refs/heads/" ++ repo.defaultBranch)
  validateManualRef "branch" branch
  let commit := (optionalTrimmedValue commit).getD "HEAD"
  validateManualRef "commit" commit
  pure [⟨"0000000000000000000000000000000000000000", commit, branch⟩]

def triggerRepo (sender : Sender) (repoId : Id) (branch commit : Option String) : WebTask Unit := do
  verifyCsrf app sender
  let repo ← authorizedRepo sender.user repoId
  let refs ← Program.done (manualTriggerRefs repo branch commit)
  internalError (Db.createPushEvent repoId (eventKey app.toAppState repoId refs) refs)

def incompatibleRunner (capabilities : RunnerCapabilitiesResponse) : String :=
  "runner protocol incompatible: runner supports " ++
    toString capabilities.supportedProtocolVersions ++ ", server supports " ++
    toString supportedRunnerProtocolVersions

def refreshSingleRunner (runnerId : String) : WebTask Unit := do
  let runner ← Db.getRunner runnerId
  let runner ← okOr runner "runner not found"
  let capabilities ← RunnerClient.capabilities runner .single
  if capabilities.isCompatibleWithSupportedVersions supportedRunnerProtocolVersions then
    let jobs ← RunnerClient.listJobs runner .single
    Db.replaceRunnerJobs runnerId jobs runner.baseUrl
    Db.updateRunnerHealth runnerId "healthy" runner.baseUrl
  else
    Db.updateRunnerHealth runnerId "incompatible" runner.baseUrl
    .fail (incompatibleRunner capabilities)

def storeRunnerJobs (runner : Runner) : Except String (List RunnerJobDefinition) → WebTask PUnit
  | .ok jobs => do
    Db.replaceRunnerJobs runner.id jobs runner.baseUrl
    Db.updateRunnerHealth runner.id "healthy" runner.baseUrl
  | .error _ => Db.updateRunnerHealth runner.id "unreachable" runner.baseUrl

def refreshRunner (runner : Runner) : WebTask PUnit := do
  match ← (RunnerClient.capabilities runner .health).attempt with
  | .error _ => Db.updateRunnerHealth runner.id "unreachable" runner.baseUrl
  | .ok capabilities =>
    if capabilities.isCompatibleWithSupportedVersions supportedRunnerProtocolVersions then
      let jobs ← (RunnerClient.listJobs runner .health).attempt
      storeRunnerJobs runner jobs
    else
      Db.updateRunnerHealth runner.id "incompatible" runner.baseUrl

def refreshRunnerHealth : WebTask Unit := do
  let runners ← Db.listRunners
  (runners.filter (·.enabled)).forM refreshRunner

def validateRunnerName (name : String) : Except String Unit :=
  if isBlank name then .error "runner name cannot be empty"
  else if (trim name).length > 120 then .error "runner name must be 120 characters or fewer"
  else .ok ()

def createRunner (sender : Sender) (name baseUrl : String) : WebTask Unit := do
  adminUser sender.user
  verifyCsrf app sender
  Program.done (validateRunnerName name)
  Program.done (app.validateBaseUrl baseUrl)
  let runnerId ← internalError (Db.createRunner (trim name) (trim baseUrl))
  internalError (Db.createAuditEvent "runner.create" "runner" (some runnerId))
  internalError (refreshSingleRunner runnerId)

def toggleRunner (sender : Sender) (runnerId : String) : WebTask Unit := do
  adminUser sender.user
  verifyCsrf app sender
  let runner ← internalError (Db.getRunner runnerId)
  let runner ← okOr runner "runner not found"
  internalError (Db.setRunnerEnabled runnerId !runner.enabled)
  internalError (Db.createAuditEvent "runner.update" "runner" (some runner.id))

def updateRunner (sender : Sender) (runnerId name baseUrl : String) : WebTask Unit := do
  adminUser sender.user
  verifyCsrf app sender
  let runner ← internalError (Db.getRunner runnerId)
  let _ ← okOr runner "runner not found"
  Program.done (validateRunnerName name)
  Program.done (app.validateBaseUrl baseUrl)
  internalError (Db.updateRunner runnerId (trim name) (trim baseUrl))
  internalError (Db.createAuditEvent "runner.update" "runner" (some runnerId))

def testRunner (sender : Sender) (runnerId : String) : WebTask Unit := do
  adminUser sender.user
  verifyCsrf app sender
  internalError (refreshSingleRunner runnerId)

structure ParsedWorkflow where
  name : String
  triggerJson : Except String WorkflowTrigger
  definitionJson : Except String WorkflowDefinition
  jobSchemas : List RunnerJobDefinition

def createWorkflow (sender : Sender) (repoId : Id) (parsed : Except String ParsedWorkflow) :
    WebTask Unit := do
  verifyCsrf app sender
  let repo ← authorizedRepo sender.user repoId
  let parsed ← Program.done parsed
  let workflowId ← internalError (Db.createWorkflow repo.id parsed.name true parsed.triggerJson
    parsed.definitionJson parsed.jobSchemas)
  internalError (Db.createAuditEvent "workflow.create" "workflow" (some (toString workflowId)))

def updateWorkflow (sender : Sender) (workflowId repoId : Id)
    (parsed : Except String ParsedWorkflow) : WebTask Unit := do
  verifyCsrf app sender
  let workflow ← authorizedWorkflow sender.user workflowId
  if workflow.repoId = repoId then
    let parsed ← Program.done parsed
    let _ ← internalError (Db.updateWorkflow workflow.id parsed.name true parsed.triggerJson
      parsed.definitionJson parsed.jobSchemas)
    internalError (Db.createAuditEvent "workflow.update" "workflow" (some (toString workflow.id)))
  else
    .fail "workflow repo cannot be changed"

structure ManualArtifactRequirement where
  jobIndex : ℕ
  inputName : String
  sourceRunnerId : String
  sourceJobName : String
  outputName : String
  deriving DecidableEq

def manualArtifactRequirement (jobIndex : ℕ) :
    String × WorkflowInputBinding → Option ManualArtifactRequirement
  | (inputName, .promotedArtifact sourceRunnerId sourceJobName outputName) =>
    some ⟨jobIndex, inputName, sourceRunnerId, sourceJobName, outputName⟩
  | _ => none

def manualArtifactRequirements (definition : WorkflowDefinition) : List ManualArtifactRequirement :=
  definition.jobs.zipIdx.flatMap fun (job, jobIndex) =>
    job.inputs.entries.filterMap (manualArtifactRequirement jobIndex)

def manualArtifactFieldName (requirement : ManualArtifactRequirement) : String :=
  s!"artifact:{requirement.jobIndex}:{requirement.inputName}"

def validateManualArtifactSelection (workflow : Workflow) (submitted : BTreeMap String)
    (requirement : ManualArtifactRequirement) : WebTask WorkflowRunArtifactSelection := do
  let selectedId ← okOr
    (optionalTrimmedValue (submitted.get (manualArtifactFieldName requirement)))
    s!"select an artifact for job-{requirement.jobIndex + 1}.{requirement.inputName}"
  let eligible ← internalError (Db.listRecentPromotableArtifacts workflow.repoId
    requirement.sourceRunnerId requirement.sourceJobName requirement.outputName 10)
  -- Artifacts are compared by the texts of their ids.
  match eligible.find? fun artifact => toString artifact.serverArtifactId = selectedId with
  | some artifact =>
    pure ⟨requirement.jobIndex, requirement.inputName, artifact.serverArtifactId⟩
  | none =>
    .fail (s!"selected artifact for job-{requirement.jobIndex + 1}.{requirement.inputName} " ++
      "is not among the 10 newest eligible artifacts")

def validateEachSelection (workflow : Workflow) (submitted : BTreeMap String) :
    List ManualArtifactRequirement → WebTask (List WorkflowRunArtifactSelection)
  | [] => pure []
  | requirement :: requirements => do
    let selection ← validateManualArtifactSelection workflow submitted requirement
    let selections ← validateEachSelection workflow submitted requirements
    pure (selection :: selections)

def validateManualArtifactSelections (workflow : Workflow) (submitted : BTreeMap String) :
    WebTask (List WorkflowRunArtifactSelection) := do
  let definition ← internalError (Program.done workflow.definitionJson)
  validateEachSelection workflow submitted (manualArtifactRequirements definition)

def enqueueWithArtifacts (workflow : Workflow) (triggerType : String)
    (triggerRef commitSha : Option String) (artifactSelections : List WorkflowRunArtifactSelection)
    (origin : Origin) : WebTask Id :=
  internalError (onServer (enqueueWorkflowRunWithArtifacts workflow triggerType triggerRef commitSha
    artifactSelections origin))

def runWorkflow (number : ℕ) (sender : Sender) (workflowId : Id) (branch commit : Option String)
    (artifactSelections : BTreeMap String) : WebTask Unit := do
  verifyCsrf app sender
  let workflow ← authorizedWorkflow sender.user workflowId
  let trigger ← internalError (Program.done workflow.triggerJson)
  if trigger.kind = "manual" then
    let repo ← internalError (Db.getRepo workflow.repoId)
    let repo ← okOr repo "repo not found"
    let branch := ((optionalTrimmedValue branch).or trigger.branches.head?).getD repo.defaultBranch
    let commit := (optionalTrimmedValue commit).getD "HEAD"
    let selections ← validateManualArtifactSelections workflow artifactSelections
    let pipelineId ← enqueueWithArtifacts workflow "manual" (some branch) (some commit) selections
      (.request number)
    internalError (Db.createAuditEvent "workflow.run" "pipeline" (some (toString pipelineId)))
  else
    .fail "workflow trigger is not manual"

def rerunPipeline (number : ℕ) (sender : Sender) (pipelineId : Id) : WebTask Unit := do
  verifyCsrf app sender
  let pipeline ← authorizedPipeline sender.user pipelineId
  let workflow ← internalError (Db.getWorkflowByVersionId pipeline.workflowVersionId)
  let workflow ← okOr workflow "workflow not found"
  let originalSelections ← internalError (Db.workflowRunArtifactSelections pipeline.id)
  let _ ← enqueueWithArtifacts workflow "rerun" pipeline.triggerRef pipeline.commitSha
    originalSelections (.rerun pipeline.id number)

end Janus.Web
