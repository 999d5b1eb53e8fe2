import Janus.Server.RunnerClient

/-! What the server checks of a workflow before it saves it: `validate_workflow_runners`. -/

namespace Janus.Server

open Janus.Data

structure RunnerCatalog where
  getRunner : String → Except String (Option String)
  listRunnerJobs : String → Except String (List RunnerJobDefinition)

structure JobOutputBinding where
  jobIndex : ℕ
  outputName : String
  deriving DecidableEq

def parseJobOutputBinding : WorkflowInputBinding → Option JobOutputBinding
  | .jobOutput jobIndex outputName =>
    if outputName.isEmpty then none else some ⟨jobIndex, outputName⟩
  | _ => none

def describeJsonValueKind : Value → String
  | .null => "null"
  | .bool _ => "boolean"
  | .number (.integer value) => if -2 ^ 63 ≤ value ∧ value < 2 ^ 63 then "integer" else "number"
  | .number (.float _) => "number"
  | .string _ => "string"
  | .array _ => "array"
  | .object _ => "object"

def valueMatchesInputKind (value : Value) (expectedKind : InputType) : Bool :=
  match expectedKind with
  | .string | .artifact => value.isString
  | .integer => value.asI64.isSome
  | .boolean => value.isBoolean
  | .json => !value.isNull

def workflowInputBindingIsEmpty : WorkflowInputBinding → Bool
  | .literal .null => true
  | .literal (.string value) => isBlank value
  | .literal _ => false
  | .jobOutput _ outputName => isBlank outputName
  | .commit | .branch | .sourceArtifact | .promotedArtifact _ _ _ => false

section

variable (jsonText : Value → String)

def validateLiteralLength (inputName : String) (inputDefinition : JobInputDefinition) (value : Value) :
    Except String Unit :=
  match inputDefinition.maxLength, value.asStr with
  | some maxLength, some text =>
    if text.length > maxLength then
      .error s!"workflow input {inputName} exceeds max length {maxLength}"
    else .ok ()
  | _, _ => .ok ()

def validateLiteralJsonSize (inputName : String) (inputDefinition : JobInputDefinition) (value : Value) :
    Except String Unit :=
  match inputDefinition.maxJsonBytes with
  | none => .ok ()
  | some maxJsonBytes =>
    if (jsonText value).utf8ByteSize > maxJsonBytes then
      .error s!"workflow input {inputName} exceeds max JSON size {maxJsonBytes} bytes"
    else .ok ()

def validateLiteralInputConstraints (inputName : String) (inputDefinition : JobInputDefinition)
    (value : Value) : Except String Unit := do
  validateLiteralLength inputName inputDefinition value
  validateLiteralJsonSize jsonText inputName inputDefinition value

def validateLiteral (inputName : String) (inputDefinition : JobInputDefinition) (value : Value) :
    Except String Unit :=
  if valueMatchesInputKind value inputDefinition.kind then
    validateLiteralInputConstraints jsonText inputName inputDefinition value
  else
    .error (s!"workflow input {inputName} expects " ++ inputDefinition.kind.asStr ++ " but got " ++
      describeJsonValueKind value)

def validatePromotedArtifact (catalog : RunnerCatalog) (sourceRunnerId sourceJobName outputName : String) :
    Except String Unit := do
  match ← catalog.getRunner sourceRunnerId with
  | none => .error s!"promoted artifact references unknown runner {sourceRunnerId}"
  | some runnerName =>
    let jobs ← catalog.listRunnerJobs sourceRunnerId
    match jobs.find? fun candidate => candidate.name = sourceJobName with
    | none => .error s!"runner {runnerName} does not advertise artifact source job {sourceJobName}"
    | some sourceJob =>
      match sourceJob.outputs.get outputName with
      | none => .error s!"runner {runnerName} job {sourceJobName} does not advertise output {outputName}"
      | some output =>
        if output.kind = .artifact then .ok ()
        else .error (s!"promoted source {runnerName} / {sourceJobName} / {outputName} is " ++
          output.kind.asStr ++ " instead of artifact")

def validateJobOutput (defs : List RunnerJobDefinition) (jobCount jobIndex : ℕ) (inputName : String)
    (expectedKind : InputType) (binding : JobOutputBinding) : Except String Unit :=
  let reference := s!"job-{binding.jobIndex + 1}.{binding.outputName}"
  if binding.jobIndex ≥ jobCount then
    .error s!"workflow input {inputName} references unknown job job-{binding.jobIndex + 1}"
  else if binding.jobIndex ≥ jobIndex then
    .error (s!"workflow input {inputName} references " ++ reference ++
      " but only earlier jobs can be referenced")
  else match defs[binding.jobIndex]? with
    | none => .error "missing upstream runner job definition"
    | some upstream => match upstream.outputs.get binding.outputName with
      | none => .error (s!"workflow input {inputName} references missing output " ++ reference)
      | some output =>
        if output.kind.asStr = expectedKind.asStr then .ok ()
        else .error (s!"workflow input {inputName} expects " ++ expectedKind.asStr ++ " but " ++
          reference ++ " is " ++ output.kind.asStr)

def validateBinding (catalog : RunnerCatalog) (defs : List RunnerJobDefinition)
    (jobCount jobIndex : ℕ) (inputName : String) (inputDefinition : JobInputDefinition)
    (binding : WorkflowInputBinding) : Except String Unit :=
  let expects := s!"workflow input {inputName} expects " ++ inputDefinition.kind.asStr
  match binding with
  | .commit | .branch =>
    if inputDefinition.kind = .string then .ok ()
    else .error (expects ++ " but built-in binding is string")
  | .sourceArtifact =>
    if inputDefinition.kind = .artifact then .ok ()
    else .error (expects ++ " but source binding is artifact")
  | .promotedArtifact sourceRunnerId sourceJobName outputName =>
    if inputDefinition.kind = .artifact then
      validatePromotedArtifact catalog sourceRunnerId sourceJobName outputName
    else .error (expects ++ " but promoted binding is artifact")
  | .literal value => validateLiteral jsonText inputName inputDefinition value
  | .jobOutput _ _ =>
    match parseJobOutputBinding binding with
    | none => .ok ()
    | some output =>
      validateJobOutput defs jobCount jobIndex inputName inputDefinition.kind output

def validateInputBindings (catalog : RunnerCatalog) (defs : List RunnerJobDefinition)
    (jobCount jobIndex : ℕ) (job : WorkflowJobDefinition) (runnerJob : RunnerJobDefinition) :
    List (String × WorkflowInputBinding) → Except String Unit
  | [] => .ok ()
  | (inputName, binding) :: inputs =>
    match runnerJob.inputs.get inputName with
    | none => .error (s!"workflow job {jobIndex + 1} provides unknown input {inputName} for " ++
        "runner job " ++ job.runnerJobName)
    | some inputDefinition => do
      validateBinding jsonText catalog defs jobCount jobIndex inputName inputDefinition binding
      validateInputBindings catalog defs jobCount jobIndex job runnerJob inputs

def validateRequiredWorkflowInputs (jobIndex : ℕ) (job : WorkflowJobDefinition)
    (runnerJob : RunnerJobDefinition) : Except String Unit :=
  match runnerJob.inputs.entries.find? fun input => input.2.required &&
      ((job.inputs.get input.1).map workflowInputBindingIsEmpty).getD true with
  | some input => .error (s!"workflow job {jobIndex + 1} missing required input " ++ input.1 ++
      " for runner job " ++ job.runnerJobName)
  | none => .ok ()

def runnerJobDefs (catalog : RunnerCatalog) :
    List WorkflowJobDefinition → Except String (List RunnerJobDefinition)
  | [] => .ok []
  | job :: jobs => do
    match ← catalog.getRunner job.runnerId with
    | none => .error s!"unknown runner {job.runnerId}"
    | some runnerName =>
      let advertised ← catalog.listRunnerJobs job.runnerId
      match advertised.find? fun schema => schema.name = job.runnerJobName with
      | none => .error (s!"runner {runnerName} does not advertise job " ++ job.runnerJobName)
      | some runnerJob =>
        let defs ← runnerJobDefs catalog jobs
        .ok (runnerJob :: defs)

def validateJobBindings (catalog : RunnerCatalog) (defs : List RunnerJobDefinition) (jobCount : ℕ) :
    List (WorkflowJobDefinition × ℕ) → Except String Unit
  | [] => .ok ()
  | (job, jobIndex) :: jobs =>
    match defs[jobIndex]? with
    | none => .error "missing parsed runner job definition"
    | some runnerJob => do
      validateInputBindings jsonText catalog defs jobCount jobIndex job runnerJob job.inputs.entries
      validateRequiredWorkflowInputs jobIndex job runnerJob
      validateJobBindings catalog defs jobCount jobs

def validateWorkflowRunners (catalog : RunnerCatalog) (definition : WorkflowDefinition) :
    Except String (List RunnerJobDefinition) := do
  let defs ← runnerJobDefs catalog definition.jobs
  validateJobBindings jsonText catalog defs definition.jobs.length definition.jobs.zipIdx
  .ok defs

end

end Janus.Server
