import Janus.Runner.Manifest
import Janus.Server.RunnerClient

/-! The records of jobs and artifacts, and the errors of the runner. -/

namespace Janus.Runner

open Janus.Data Janus.Server

/-- A point of the monotonic clock, in nanoseconds. Its seconds are kept in an `i64`. -/
abbrev Instant := ℤ

def Instant.addSeconds (instant : Instant) (seconds : ℕ) : Option Instant :=
  if instant / 1000000000 + seconds < 2 ^ 63 then some (instant + seconds * 1000000000) else none

def Instant.durationSince (instant earlier : Instant) : ℕ := (instant - earlier).toNat

structure ArtifactMetadata where
  artifactId : String
  sha256 : String
  size : ℕ
  expiresAt : Timestamp
  deriving DecidableEq

inductive ArtifactError
  | createDir (path source : String)
  | readDir (path source : String)
  | removeDir (path source : String)
  | writeFile (path source : String)
  | parseMetadata (path source : String)
  | parseExpiry (expiresAt source : String)
  | timeOverflow
  | missingChecksum
  | checksumMismatch (expected actual : String)
  | tooLarge (size max : ℕ)
  | notFound (artifactId : String)
  | invalidArtifactId (artifactId : String)
  deriving DecidableEq

inductive JobError
  | createDir (path source : String)
  | readFile (path source : String)
  | writeFile (path source : String)
  | parseMetadata (path source : String)
  | spawnProcess (script source : String)
  | waitProcess (script source : String)
  | jobNotFound (jobId : String)
  | jobNotRunning (jobId : String)
  | unknownJob (name : String)
  | missingInput (name : String)
  | unknownInput (name : String)
  | invalidInputType (name expected : String)
  | invalidInputValue (name reason : String)
  | invalidLogLimit (maxSizeMb : ℕ)
  | shuttingDown
  | artifact (source : ArtifactError)
  | expiredArtifact (name artifactId : String)
  | missingOutput (name path : String)
  | concurrencyConflict (reason : String)
  | invalidBody (message : String)
  | parseRequestBody (source : String)
  | invalidJobId (jobId : String)
  | invalidIdempotencyKey (key : String)
  | idempotencyConflict (key : String)
  deriving DecidableEq

structure JobMetadata where
  jobId : String
  name : String
  idempotencyKey : String
  requestHash : String
  status : RunnerJobStatus
  startedAt : Timestamp
  finishedAt : Option Timestamp := none
  durationMs : Option ℕ := none
  exitCode : Option ℤ := none
  terminalReason : Option TerminalReason := none
  failureCategory : Option FailureCategory := none
  inputs : BTreeMap Value
  resolvedArtifacts : BTreeMap String
  outputs : BTreeMap JobOutput := .empty
  outputMetadata : JobOutputMetadata := {}

/-- What `load_existing_job_for_request` compares. -/
structure JobIdentity where
  jobId : String
  name : String
  idempotencyKey : String
  requestHash : String
  deriving DecidableEq

def JobMetadata.identity (metadata : JobMetadata) : JobIdentity :=
  ⟨metadata.jobId, metadata.name, metadata.idempotencyKey, metadata.requestHash⟩

structure JobCreated where
  jobId : String
  status : RunnerJobStatus
  startedAt : Timestamp
  deriving DecidableEq

structure RunningJob where
  jobId : String
  name : String
  concurrency : Concurrency
  channel : ℕ
  deriving DecidableEq

structure JobExecution where
  manifest : JobManifest
  jobId : String
  logLimitBytes : ℕ
  metadata : JobMetadata
  rawInputs : BTreeMap Value
  channel : ℕ

structure ExecutionOutcome where
  status : RunnerJobStatus
  exitCode : Option ℤ := none
  message : Option String := none
  terminalReason : TerminalReason
  failureCategory : Option FailureCategory := none
  stdoutTruncated : Bool := false
  stderrTruncated : Bool := false

def calculateDurationMs (startedAt : Timestamp) (finishedAt : Option Timestamp) : Option ℕ :=
  finishedAt.bind fun finished =>
    if startedAt ≤ finished then some ((finished - startedAt) / 1000000) else none

def isHexDigit (c : Char) : Bool :=
  c.isDigit || ('a' ≤ c && c ≤ 'f') || ('A' ≤ c && c ≤ 'F')

def validatePrefixedHexId (value pattern : String) : Bool :=
  pattern.toList.isPrefixOf value.toList &&
    (value.toList.drop pattern.toList.length).length == 32 &&
    (value.toList.drop pattern.toList.length).all isHexDigit

def validateJobId (jobId : String) : Except JobError Unit :=
  if validatePrefixedHexId jobId "job_" then .ok () else .error (.invalidJobId jobId)

def validateArtifactId (artifactId : String) : Except ArtifactError Unit :=
  if validatePrefixedHexId artifactId "art_" then .ok () else .error (.invalidArtifactId artifactId)

def validateIdempotencyKey (key : String) : Except JobError Unit :=
  if key.isEmpty ∨ key.utf8ByteSize > 128 then .error (.invalidIdempotencyKey key)
  else if key.toList.all fun c => c.isAlphanum || c == '-' || c == '_' then .ok ()
  else .error (.invalidIdempotencyKey key)

def redactedInputValue : String := "[REDACTED]"

def redactSensitiveInputs (manifest : JobManifest) (inputs : BTreeMap Value) : BTreeMap Value :=
  inputs.mapValues fun name value =>
    if ((manifest.inputs.get name).map InputSpec.sensitive).getD false then .string redactedInputValue
    else value

end Janus.Runner
