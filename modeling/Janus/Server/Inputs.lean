import Janus.Server.Calls

/-! How the inputs of a job are resolved, and artifacts moved to the runner that needs them. -/

namespace Janus.Server

open Janus.Concurrency Janus.Data

def okOr {α : Type} (value : Option α) (message : String) : Task α :=
  match value with
  | some a => pure a
  | none => .fail message

def findJobRunId (pipelineId : Id) (jobIndex : ℕ) : Task Id := do
  let snapshot ← Db.pipelineSnapshot pipelineId
  let snapshot ← okOr snapshot s!"missing pipeline {pipelineId}"
  okOr ((snapshot.jobs.find? fun item => item.run.jobIndex = jobIndex).map (·.run.id))
    s!"missing upstream job-{jobIndex + 1}"

def ensureSourceArchive (barePath : String) (pipelineId : Id) (commitSha : String) : Task Unit := do
  if ← Git.archiveExists pipelineId commitSha then pure ()
  else Git.createSourceArchive barePath pipelineId commitSha

def ensureServerSourceArtifact (pipeline : PipelineRun) : Task ServerArtifact := do
  match ← Db.getServerArtifact "pipeline_source" pipeline.id "source" with
  | some existing => pure existing
  | none =>
    let repo ← Db.getRepo pipeline.repoId
    let repo ← okOr repo s!"missing repo {pipeline.repoId}"
    let commitSha ← okOr pipeline.commitSha "pipeline missing commit sha"
    ensureSourceArchive repo.barePath pipeline.id commitSha
    let pending ← ArtifactStore.storeFile "pipeline_source" pipeline.id "source" pipeline.id commitSha
    let _ ← Db.insertServerArtifact pending
    let stored ← Db.getServerArtifactById pending.id
    okOr stored "missing stored source artifact"

def ensureSourceArtifact (pipeline : PipelineRun) (runnerId : String) : Task String := do
  let serverArtifact ← ensureServerSourceArtifact pipeline
  let bytes ← ArtifactStore.readBytes serverArtifact
  let runner ← Db.getRunner runnerId
  let runner ← okOr runner s!"missing runner {runnerId}"
  let upload ← RunnerClient.uploadArtifact runner bytes serverArtifact.sha256
  pure upload.artifactId

def ensureRunnerHasArtifact (targetRunnerId sourceArtifactId : String) (upstreamJobRunId : Id) :
    Task String := do
  let pipeline ← Db.pipelineForJobRun upstreamJobRunId
  let pipeline ← okOr pipeline "missing pipeline for job"
  let snapshot ← Db.pipelineSnapshot pipeline.id
  let snapshot ← okOr snapshot "missing pipeline snapshot"
  let upstream ← okOr (snapshot.jobs.find? fun item => item.run.id = upstreamJobRunId)
    "missing upstream run"
  if upstream.run.runnerId = targetRunnerId then
    pure sourceArtifactId
  else
    let targetRunner ← Db.getRunner targetRunnerId
    let targetRunner ← okOr targetRunner "missing target runner"
    let serverArtifactId ← okOr
      ((upstream.outputs.find? fun item => item.runnerArtifactId = some sourceArtifactId).bind
        (·.serverArtifactId))
      "missing server-managed artifact mirror"
    let serverArtifact ← Db.getServerArtifactById serverArtifactId
    let serverArtifact ← okOr serverArtifact "missing server artifact record"
    let bytes ← ArtifactStore.readBytes serverArtifact
    let upload ← RunnerClient.uploadArtifact targetRunner bytes serverArtifact.sha256
    pure upload.artifactId

def resolvePromotedArtifact (pipeline : PipelineRun) (jobIndex : ℕ) (runnerId key : String) :
    Task Value := do
  let selection ← Db.workflowRunArtifactSelection pipeline.id jobIndex key
  let serverArtifactId ← okOr selection
    s!"missing promoted artifact selection for job-{jobIndex + 1}.{key}"
  let artifact ← Db.getServerArtifactById serverArtifactId
  let artifact ← okOr artifact s!"missing selected server artifact {serverArtifactId}"
  let bytes ← ArtifactStore.readBytes artifact
  let targetRunner ← Db.getRunner runnerId
  let targetRunner ← okOr targetRunner s!"missing runner {runnerId}"
  let upload ← RunnerClient.uploadArtifact targetRunner bytes artifact.sha256
  pure (.string upload.artifactId)

def kindMismatch (key : String) (expectedInputKind : Option InputType) (jobIndex : ℕ)
    (output : JobRunOutput) : Option String :=
  match expectedInputKind with
  | some expected =>
    if output.kind.asStr = expected.asStr then none
    else some (s!"workflow input {key} expects " ++ expected.asStr ++
      s!" but job-{jobIndex + 1}.{output.outputName} is " ++ output.kind.asStr)
  | none => none

def resolveJobOutput (pipeline : PipelineRun) (runnerId key : String)
    (expectedInputKind : Option InputType) (jobIndex : ℕ) (outputName : String) : Task Value := do
  let upstreamRunId ← findJobRunId pipeline.id jobIndex
  let outputs ← Db.jobOutputs upstreamRunId
  let output ← okOr (outputs.find? fun item => item.outputName = outputName)
    s!"missing output {outputName} from job-{jobIndex + 1}"
  match kindMismatch key expectedInputKind jobIndex output with
  | some message => .fail message
  | none =>
    if output.kind = .artifact then
      let sourceArtifactId ← okOr output.runnerArtifactId
        s!"artifact output {outputName} missing artifact id"
      let artifactId ← ensureRunnerHasArtifact runnerId sourceArtifactId upstreamRunId
      pure (.string artifactId)
    else
      okOr output.value s!"typed output {outputName} missing value"

def resolveBinding (pipeline : PipelineRun) (jobIndex : ℕ) (runnerId key : String)
    (expectedInputKind : Option InputType) : WorkflowInputBinding → Task Value
  | .commit => pure (.string (pipeline.commitSha.getD ""))
  | .branch => pure (.string (pipeline.triggerRef.getD ""))
  | .sourceArtifact => do
    let artifactId ← ensureSourceArtifact pipeline runnerId
    pure (.string artifactId)
  | .promotedArtifact _ _ _ => resolvePromotedArtifact pipeline jobIndex runnerId key
  | .jobOutput upstreamIndex outputName =>
    resolveJobOutput pipeline runnerId key expectedInputKind upstreamIndex outputName
  | .literal value => pure value

def resolveBindings (pipeline : PipelineRun) (jobIndex : ℕ) (jobDefinition : WorkflowJobDefinition)
    (runnerJobDefinition : RunnerJobDefinition) :
    List (String × WorkflowInputBinding) → BTreeMap Value → Task (BTreeMap Value)
  | [], resolved => pure resolved
  | (key, binding) :: bindings, resolved => do
    let value ← resolveBinding pipeline jobIndex jobDefinition.runnerId key
      ((runnerJobDefinition.inputs.get key).map (·.kind)) binding
    resolveBindings pipeline jobIndex jobDefinition runnerJobDefinition bindings
      (resolved.insert key value)

def idValue (id : Id) : Value := .string (toString id)

def resolveJobInputs (pipeline : PipelineRun) (jobRunId : Id) (jobIndex : ℕ)
    (jobDefinition : WorkflowJobDefinition) (runnerJobDefinition : RunnerJobDefinition) :
    Task (BTreeMap Value) := do
  let resolved ← resolveBindings pipeline jobIndex jobDefinition runnerJobDefinition
    jobDefinition.inputs.entries .empty
  if resolved.containsKey "janus_job_run_id" then
    pure resolved
  else
    pure (resolved.insert "janus_job_run_id" (idValue jobRunId))

end Janus.Server
