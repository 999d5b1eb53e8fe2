import Mathlib.Algebra.Group.Int.Defs
import Mathlib.Algebra.GroupWithZero.Nat
import Mathlib.Data.String.Basic
import Janus.Data.OrderedMap
import Janus.Server.StateMachine

/-! The records that the server stores and the ones it exchanges with runners. -/

namespace Janus.Server

open Janus.Data

/-- UUIDs of rows. -/
abbrev Id := ℕ

abbrev Timestamp := ℕ

abbrev Bytes := List UInt8

abbrev BTreeMap (α : Type) := OrderedMap String α

inductive Number
  | integer (value : ℤ)
  | float (text : String)

/-- JSON values. -/
inductive Value
  | null
  | bool (value : Bool)
  | number (value : Number)
  | string (value : String)
  | array (items : List Value)
  | object (fields : List (String × Value))

namespace Value

def isNull : Value → Bool
  | .null => true
  | _ => false

def isBoolean : Value → Bool
  | .bool _ => true
  | _ => false

def isString : Value → Bool
  | .string _ => true
  | _ => false

def asStr : Value → Option String
  | .string value => some value
  | _ => none

def asI64 : Value → Option ℤ
  | .number (.integer value) => if -2 ^ 63 ≤ value ∧ value < 2 ^ 63 then some value else none
  | _ => none

def asObject : Value → Option (List (String × Value))
  | .object fields => some fields
  | _ => none

end Value

inductive InputType
  | string | integer | boolean | artifact | json
  deriving DecidableEq

def InputType.asStr : InputType → String
  | .string => "string"
  | .integer => "integer"
  | .boolean => "boolean"
  | .artifact => "artifact"
  | .json => "json"

inductive OutputType
  | artifact | string | integer | boolean | json
  deriving DecidableEq

def OutputType.asStr : OutputType → String
  | .artifact => "artifact"
  | .string => "string"
  | .integer => "integer"
  | .boolean => "boolean"
  | .json => "json"

inductive Concurrency
  | parallel | jobExclusive | globalExclusive
  deriving DecidableEq

structure JobInputDefinition where
  kind : InputType
  required : Bool
  sensitive : Bool
  maxLength : Option ℕ
  pattern : Option String
  maxJsonBytes : Option ℕ
  deriving DecidableEq

structure JobOutputDefinition where
  kind : OutputType
  path : String
  required : Bool
  deriving DecidableEq

structure RunnerJobDefinition where
  name : String
  concurrency : Concurrency
  timeoutSeconds : ℕ
  inputs : BTreeMap JobInputDefinition
  outputs : BTreeMap JobOutputDefinition

inductive RunnerJobStatus
  | running | cancelRequested | canceling | success | failed | timedOut | canceled | rejected
  deriving DecidableEq

def RunnerJobStatus.isTerminal : RunnerJobStatus → Bool
  | .running | .cancelRequested | .canceling => false
  | _ => true

inductive TerminalReason
  | success | exitCode | timeout | canceled | shutdown | spawnError | waitError | captureError
  | logLimitExceeded | missingRequiredOutput | outputRegistrationFailed
  deriving DecidableEq

def TerminalReason.asStr : TerminalReason → String
  | .success => "success"
  | .exitCode => "exit_code"
  | .timeout => "timeout"
  | .canceled => "canceled"
  | .shutdown => "shutdown"
  | .spawnError => "spawn_error"
  | .waitError => "wait_error"
  | .captureError => "capture_error"
  | .logLimitExceeded => "log_limit_exceeded"
  | .missingRequiredOutput => "missing_required_output"
  | .outputRegistrationFailed => "output_registration_failed"

inductive FailureCategory
  | job | infra | timeout | canceled
  deriving DecidableEq

def FailureCategory.asStr : FailureCategory → String
  | .job => "job"
  | .infra => "infra"
  | .timeout => "timeout"
  | .canceled => "canceled"

structure JobStreamMetadata where
  bytes : ℕ := 0
  truncated : Bool := false
  deriving DecidableEq

structure JobArtifactMetadata where
  count : ℕ := 0
  bytes : ℕ := 0
  deriving DecidableEq

structure JobOutputMetadata where
  stdout : JobStreamMetadata := {}
  stderr : JobStreamMetadata := {}
  artifacts : JobArtifactMetadata := {}
  deriving DecidableEq

inductive JobOutput
  | artifact (artifactId : String) (sha256 : String) (size : ℕ)
  | string (value : String)
  | integer (value : ℤ)
  | boolean (value : Bool)
  | json (value : Value)

structure JobCreatedResponse where
  jobId : String
  startedAt : Timestamp

structure JobStatusResponse where
  status : RunnerJobStatus
  durationMs : Option ℕ := none
  exitCode : Option ℤ := none
  terminalReason : Option TerminalReason := none
  failureCategory : Option FailureCategory := none
  outputs : BTreeMap JobOutput := .empty
  outputMetadata : JobOutputMetadata := {}

structure JobLogsResponse where
  stdout : String
  stderr : String

structure ArtifactUploadResponse where
  artifactId : String

structure RunnerCapabilitiesResponse where
  protocolVersion : ℕ
  supportedProtocolVersions : List ℕ

def supportedRunnerProtocolVersions : List ℕ := [1]

def RunnerCapabilitiesResponse.isCompatibleWithSupportedVersions
    (capabilities : RunnerCapabilitiesResponse) (supportedVersions : List ℕ) : Bool :=
  capabilities.supportedProtocolVersions.any supportedVersions.contains

inductive WorkflowJobOutcomePolicy
  | required | allowedToFail
  deriving DecidableEq

def WorkflowJobOutcomePolicy.allowsFailure : WorkflowJobOutcomePolicy → Bool
  | .required => false
  | .allowedToFail => true

inductive WorkflowInputBinding
  | literal (value : Value)
  | commit
  | branch
  | sourceArtifact
  | promotedArtifact (sourceRunnerId sourceJobName outputName : String)
  | jobOutput (jobIndex : ℕ) (outputName : String)

structure WorkflowJobDefinition where
  runnerId : String
  runnerJobName : String
  inputs : BTreeMap WorkflowInputBinding := .empty
  outcomePolicy : WorkflowJobOutcomePolicy := .required

structure WorkflowDefinition where
  jobs : List WorkflowJobDefinition

/-- The `White_Space` characters, which `str::trim` removes. -/
def isWhitespace (c : Char) : Bool :=
  let n := c.toNat
  (9 ≤ n && n ≤ 13) || n = 0x20 || n = 0x85 || n = 0xA0 || n = 0x1680 ||
    (0x2000 ≤ n && n ≤ 0x200A) || n = 0x2028 || n = 0x2029 || n = 0x202F || n = 0x205F || n = 0x3000

/-- `trim().is_empty()`. -/
def isBlank (s : String) : Bool := s.toList.all isWhitespace

def WorkflowDefinition.validateJobs : List WorkflowJobDefinition → ℕ → Except String Unit
  | [], _ => .ok ()
  | job :: jobs, index =>
    if isBlank job.runnerId then
      .error s!"workflow job {index + 1} must choose a runner"
    else if isBlank job.runnerJobName then
      .error s!"workflow job {index + 1} must choose a runner job"
    else
      validateJobs jobs (index + 1)

def WorkflowDefinition.validate (definition : WorkflowDefinition) : Except String Unit :=
  if definition.jobs.isEmpty then
    .error "workflow must contain at least one job"
  else
    validateJobs definition.jobs 0

structure WorkflowTrigger where
  kind : String
  branches : List String

/-- A newest workflow version joined with its workflow. A stored JSON text stands as what
`serde_json::from_str` makes of it. -/
structure Workflow where
  id : Id
  repoId : Id
  name : String
  enabled : Bool
  versionId : Id
  triggerJson : Except String WorkflowTrigger
  definitionJson : Except String WorkflowDefinition

structure WorkflowRunArtifactSelection where
  jobIndex : ℕ
  inputName : String
  serverArtifactId : Id
  deriving DecidableEq

structure Repo where
  id : Id
  barePath : String
  defaultBranch : String := "main"

structure Runner where
  id : String
  name : String := ""
  baseUrl : String := ""
  enabled : Bool := true
  lastHealthState : String := "unknown"

structure WorkflowRow where
  id : Id
  repoId : Id
  name : String
  enabled : Bool

structure WorkflowVersionRow where
  id : Id
  workflowId : Id
  version : ℕ
  triggerJson : Except String WorkflowTrigger
  definitionJson : Except String WorkflowDefinition
  jobSchemas : List RunnerJobDefinition

structure PushEventRef where
  oldRev : String
  newRev : String
  refName : String
  deriving DecidableEq

structure PushEvent where
  id : Id
  repoId : Id
  receivedAt : Timestamp
  eventKey : String
  processedAt : Option Timestamp
  refs : List PushEventRef

/-- What a pipeline was created for: a push event and a position in its refs, or a user's request, to
run a workflow or to rerun a pipeline. -/
inductive Origin
  | push (eventId : Id) (refIndex : ℕ)
  | request (number : ℕ)
  | rerun (pipelineId : Id) (number : ℕ)
  deriving DecidableEq

structure PipelineRun where
  id : Id
  repoId : Id
  workflowId : Id
  workflowVersionId : Id
  triggerType : String
  triggerRef : Option String
  commitSha : Option String
  status : PipelineStatus
  startedAt : Timestamp
  cancelReason : Option String
  cancelRequestedAt : Option Timestamp
  cancelStartedAt : Option Timestamp
  finishedAt : Option Timestamp
  origin : Origin

structure JobRun where
  id : Id
  pipelineRunId : Id
  jobIndex : ℕ
  runnerId : String
  runnerJobName : String
  dispatchIdempotencyKey : Id
  runnerRunId : Option String
  status : JobStatus
  outcomePolicy : WorkflowJobOutcomePolicy
  startedAt : Option Timestamp
  durationMs : Option ℕ
  exitCode : Option ℤ
  terminalReason : Option String
  failureCategory : Option String
  cancelReason : Option String
  cancelRequestedAt : Option Timestamp
  cancelStartedAt : Option Timestamp
  cancelRetryCount : ℕ
  lastCancelRetryAt : Option Timestamp
  infraRetryCount : ℕ
  lastInfraRetryAt : Option Timestamp
  finishedAt : Option Timestamp
  outputMetadata : JobOutputMetadata
  deriving DecidableEq

/-- The pair a row of `job_runs` contributes to the two status functions. -/
def JobRun.outcome (job : JobRun) : JobStatus × Bool :=
  (job.status, job.outcomePolicy.allowsFailure)

structure JobRunOutput where
  outputName : String
  kind : OutputType
  runnerArtifactId : Option String
  serverArtifactId : Option Id
  value : Option Value
  sha256 : Option String
  sizeBytes : Option ℕ

structure JobRunLogs where
  jobRunId : Id
  stdout : String
  stderr : String

structure PreviousJob where
  jobRunId : Id
  previousJobRunId : Id
  deriving DecidableEq

structure ArtifactInput where
  pipelineRunId : Id
  jobIndex : ℕ
  inputName : String
  serverArtifactId : Id

structure ServerArtifact where
  id : Id
  scopeType : String
  scopeId : Id
  artifactName : String
  sha256 : String
  sizeBytes : ℕ
  storagePath : Id

structure JobRunDetail where
  run : JobRun
  outputs : List JobRunOutput

structure PipelineSnapshot where
  pipeline : PipelineRun
  jobs : List JobRunDetail

end Janus.Server
