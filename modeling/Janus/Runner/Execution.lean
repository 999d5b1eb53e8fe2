import Janus.Runner.JobStore

/-! The execution of a job, from the start of its process to its last metadata: `jobs/execution.rs`.
The messages that go to the logs of the job are left out. -/

namespace Janus.Runner

open Janus.Concurrency Janus.Data Janus.Server

section

variable (rt : Runtime)

def checkUpload (bytes : Bytes) (checksum : Option String) : Except ArtifactError Unit :=
  if rt.config.requireChecksumOnUpload = true ∧ checksum.isNone then .error .missingChecksum
  else if bytes.length > rt.config.artifactMaxSizeBytes then
    .error (.tooLarge bytes.length rt.config.artifactMaxSizeBytes)
  else match checksum with
    | none => .ok ()
    | some expected =>
      if expected.toList.map Char.toLower = (rt.sha256Hex bytes).toList.map Char.toLower then .ok ()
      else .error (.checksumMismatch expected (rt.sha256Hex bytes))

def storeBytes (bytes : Bytes) (checksum : Option String) : RunnerTask ArtifactMetadata :=
  match checkUpload rt bytes checksum with
  | .error error => fail (.artifact error)
  | .ok () => request (.storeArtifact (rt.sha256Hex bytes) bytes.length)

def removeExpired (artifactId : String) : RunnerTask Unit :=
  match validateArtifactId artifactId with
  | .error error => fail (.artifact error)
  | .ok () => do
    let metadata ← (request (.loadArtifactMetadata artifactId)).attempt
    match (metadata : Except JobError ArtifactMetadata) with
    | .error (.artifact (.notFound _)) => pure ()
    | .error error => fail error
    | .ok metadata => do
      let expired : Bool ← request (.isExpired metadata)
      if expired then request (.removeArtifactDir artifactId) else pure ()

def cleanupExpired : RunnerTask Unit := do
  let artifactIds : List String ← request .readArtifactDirs
  artifactIds.forM removeExpired

end

/-- `str::parse::<i64>`. -/
def parseI64 (text : String) : Option ℤ :=
  let (negative, digits) : Bool × List Char := match text.toList with
    | '-' :: digits => (true, digits)
    | '+' :: digits => (false, digits)
    | digits => (false, digits)
  if digits.isEmpty || !digits.all Char.isDigit then none
  else
    let magnitude : ℤ := digits.foldl (fun n c => n * 10 + (c.toNat - '0'.toNat)) 0
    let value := if negative then -magnitude else magnitude
    if -2 ^ 63 ≤ value ∧ value < 2 ^ 63 then some value else none

def safeOutputPath (outputDir relativePath : String) : Option String :=
  if relativePath.isEmpty ∨ isAbsolute relativePath = true then none
  else if hasParentDir relativePath then none
  else some (outputDir ++ "/" ++ relativePath)

section

variable (rt : Runtime)

def parseOutput (kind : OutputType) (path text : String) : Except JobError JobOutput :=
  match kind with
  | .artifact | .string => .ok (.string text)
  | .integer =>
    match parseI64 (trim text) with
    | none => .error (.readFile path "output must contain a valid integer")
    | some value => .ok (.integer value)
  | .boolean =>
    if trim text = "true" then .ok (.boolean true)
    else if trim text = "false" then .ok (.boolean false)
    else .error (.readFile path "output must contain true or false")
  | .json =>
    match rt.parseJson (utf8 text) with
    | .error source => .error (.readFile path source)
    | .ok .null => .error (.readFile path "output json must not be null")
    | .ok value => .ok (.json value)

def readOutput (jobId path : String) (kind : OutputType) : RunnerTask JobOutput :=
  match kind with
  | .artifact => do
    let bytes : Bytes ← request (.readOutputBytes jobId path)
    let stored ← storeBytes rt bytes (some (rt.sha256Hex bytes))
    pure (.artifact stored.artifactId stored.sha256 stored.size)
  | kind => do
    let text : String ← request (.readOutput jobId path)
    .done (parseOutput rt kind path text)

def registerOutput (jobId name : String) (spec : OutputSpec) (outputs : BTreeMap JobOutput) :
    RunnerTask (BTreeMap JobOutput) :=
  match safeOutputPath (jobPath rt jobId "output") spec.path with
  | none => fail (.missingOutput name spec.path)
  | some path => do
    let found : OutputFile ← request (.statOutput jobId path)
    match found with
    | .other => fail (.missingOutput name path)
    | .notFound => if spec.required then fail (.missingOutput name path) else pure outputs
    | .file => do
      let output ← readOutput rt jobId path spec.kind
      pure (outputs.insert name output)

def registerOutputs (jobId : String) (outputs : BTreeMap JobOutput) :
    List (String × OutputSpec) → RunnerTask (BTreeMap JobOutput × Option JobError)
  | [] => pure (outputs, none)
  | (name, spec) :: specs => do
    let registered ← (registerOutput rt jobId name spec outputs).attempt
    match registered with
    | .error error => pure (outputs, some error)
    | .ok outputs => registerOutputs jobId outputs specs

end

def classifyTerminalReason (reason : TerminalReason) : RunnerJobStatus → TerminalReason
  | .success => .success
  | .timedOut => .timeout
  | .canceled => .canceled
  | .rejected => .outputRegistrationFailed
  | .failed | .running | .cancelRequested | .canceling => reason

def classifyFailureCategory (category : Option FailureCategory) :
    RunnerJobStatus → Option FailureCategory
  | .success => none
  | .timedOut => some .timeout
  | .canceled => some .canceled
  | .failed | .rejected => category.or (some .infra)
  | .running | .cancelRequested | .canceling => category

def classifyJobErrorReason : JobError → TerminalReason
  | .spawnProcess _ _ => .spawnError
  | .waitProcess _ _ => .waitError
  | .readFile _ _ | .writeFile _ _ => .captureError
  | .missingOutput _ _ => .missingRequiredOutput
  | _ => .outputRegistrationFailed

def outputErrorReason : JobError → TerminalReason
  | .missingOutput _ _ => .missingRequiredOutput
  | _ => .outputRegistrationFailed

def JobOutput.artifactBytes : JobOutput → Option ℕ
  | .artifact _ _ size => some size
  | _ => none

def buildOutputMetadata (jobId : String) (stdoutTruncated stderrTruncated : Bool)
    (outputs : BTreeMap JobOutput) : RunnerTask JobOutputMetadata := do
  let stdout : ℕ ← request (.fileSize jobId "stdout.log")
  let stderr : ℕ ← request (.fileSize jobId "stderr.log")
  let artifacts := outputs.values.filterMap JobOutput.artifactBytes
  return ⟨⟨stdout, stdoutTruncated⟩, ⟨stderr, stderrTruncated⟩, ⟨artifacts.length, artifacts.sum⟩⟩

def Ended.outcome : Ended → ExecutionOutcome
  | .timedOut =>
    { status := .timedOut, terminalReason := .timeout, failureCategory := some .timeout }
  | .canceled =>
    { status := .canceled, terminalReason := .canceled, failureCategory := some .canceled }
  | .logLimit streamName message =>
    { status := .failed, message := some message, terminalReason := .logLimitExceeded
      failureCategory := some .infra, stdoutTruncated := streamName = "stdout"
      stderrTruncated := streamName = "stderr" }
  | .exited code =>
    if code = some 0 then { status := .success, exitCode := code, terminalReason := .success }
    else { status := .failed, exitCode := code, terminalReason := .exitCode
           failureCategory := some .job }

section

variable (rt : Runtime) (m : ℕ)

def watchProcess (execution : JobExecution) : RunnerTask ExecutionOutcome := do
  let ended : Ended ← request (.watch execution)
  match ended with
  | .canceled => do
    let _ ← (transitionMetadataStatus rt (.canceling m) execution.jobId none .canceling).attempt
    pure Ended.canceled.outcome
  | ended => pure ended.outcome

def finishOk (execution : JobExecution) (finishedAt : Timestamp) (outcome : ExecutionOutcome)
    (finalStatus : RunnerJobStatus) (terminalReason : TerminalReason)
    (failureCategory : Option FailureCategory) (outputs : BTreeMap JobOutput) : RunnerTask Unit := do
  let outputMetadata ← buildOutputMetadata execution.jobId outcome.stdoutTruncated
    outcome.stderrTruncated outputs
  let metadata : JobMetadata :=
    { execution.metadata with
      status := finalStatus, exitCode := outcome.exitCode, finishedAt := some finishedAt
      durationMs := calculateDurationMs execution.metadata.startedAt (some finishedAt)
      terminalReason := some (if finalStatus = .success then .success
        else classifyTerminalReason terminalReason finalStatus)
      failureCategory := classifyFailureCategory failureCategory finalStatus
      outputs, outputMetadata }
  let _ ← (request (.persistMetadata (.finish m) execution.jobId metadata)).attempt
  if (finalStatus = .success ∧ rt.config.cleanupSuccessfulWorkdirs = true) ∨
      ((finalStatus = .failed ∨ finalStatus = .timedOut) ∧ rt.config.keepFailedWorkdirs = false) then do
    let _ ← (request (.removeWorkDir execution.jobId)).attempt
    pure ()
  else pure ()

def finishError (execution : JobExecution) (finishedAt : Timestamp) (error : JobError) :
    RunnerTask Unit := do
  let outputMetadata ← buildOutputMetadata execution.jobId false false execution.metadata.outputs
  let metadata : JobMetadata :=
    { execution.metadata with
      status := .failed, exitCode := none, finishedAt := some finishedAt
      durationMs := calculateDurationMs execution.metadata.startedAt (some finishedAt)
      terminalReason := some (classifyJobErrorReason error), failureCategory := some .infra
      outputMetadata }
  let _ ← (request (.persistMetadata (.finish m) execution.jobId metadata)).attempt
  let _ ← (request (.writeFile execution.jobId "stderr.log")).attempt
  pure ()

def finishOutcome (execution : JobExecution) (finishedAt : Timestamp) (outcome : ExecutionOutcome) :
    RunnerTask Unit := do
  if outcome.status = .success then do
    let registered ← registerOutputs rt execution.jobId execution.metadata.outputs
      execution.manifest.outputs.entries
    match registered.2 with
    | none =>
      finishOk rt m execution finishedAt outcome .success outcome.terminalReason
        outcome.failureCategory registered.1
    | some error =>
      finishOk rt m execution finishedAt outcome .failed (outputErrorReason error) (some .infra)
        registered.1
  else
    finishOk rt m execution finishedAt outcome outcome.status outcome.terminalReason
      outcome.failureCategory execution.metadata.outputs

def finishJob (execution : JobExecution) (outcome : Except JobError ExecutionOutcome) :
    RunnerTask Unit := do
  let finishedAt ← nowRfc3339
  match outcome with
  | .ok outcome => finishOutcome rt m execution finishedAt outcome
  | .error error => finishError m execution finishedAt error
  request (.removeRunning execution.jobId)

/-- `run_job`, from the spawning of the process on. -/
def runJob : RunnerTask Unit := do
  let launched : JobExecution × Option JobError ← request (.launch m)
  let outcome ← (match launched.2 with
    | some error => fail error
    | none => watchProcess rt m launched.1).attempt
  finishJob rt m launched.1 outcome

end

end Janus.Runner
