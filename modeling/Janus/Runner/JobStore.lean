import Janus.Runner.Calls

/-! The operations of the job store: `jobs/store.rs`. -/

namespace Janus.Runner

open Janus.Concurrency Janus.Data Janus.Server

def request (c : RunnerCall) : RunnerTask c.Result := .request c

def fail {α : Type} (error : JobError) : RunnerTask α := .fail error

def nowRfc3339 : RunnerTask Timestamp := do
  let now : Timestamp ← request .now
  return now / 1000000000 * 1000000000

section

variable (rt : Runtime)

def validateString (name : String) (spec : InputSpec) (value : Value) : Except JobError Unit :=
  match value.asStr with
  | none => .error (.invalidInputType name "string")
  | some text => do
    match spec.maxLength with
    | none => pure ()
    | some maxLength =>
      if text.length > maxLength then
        throw (.invalidInputValue name s!"must be at most {maxLength} characters")
    match spec.pattern with
    | none => pure ()
    | some pattern =>
      match rt.host.regex pattern with
      | .error _ => pure ()
      | .ok isMatch =>
        if isMatch text = false then
          throw (.invalidInputValue name ("must match pattern " ++ pattern))

def validateJson (name : String) (spec : InputSpec) (value : Value) : Except JobError Unit :=
  if value.isNull then .error (.invalidInputType name "json")
  else match spec.maxJsonBytes with
    | none => .ok ()
    | some maxJsonBytes =>
      if (rt.jsonText value).utf8ByteSize > maxJsonBytes then
        .error (.invalidInputValue name s!"must be at most {maxJsonBytes} JSON bytes")
      else .ok ()

def checkArtifactId (name : String) (value : Value) : Except JobError String :=
  match value.asStr with
  | none => .error (.invalidInputType name "artifact id string")
  | some artifactId =>
    match validateArtifactId artifactId with
    | .error error => .error (.artifact error)
    | .ok () => .ok artifactId

def checkInput (manifest : JobManifest) (name : String) (value : Value) :
    Except JobError (Option String) :=
  if isReservedInputName name then .ok none
  else match manifest.inputs.get name with
    | none => .ok none
    | some spec =>
      match spec.kind with
      | .string => (validateString rt name spec value).map fun _ => none
      | .integer =>
        if value.asI64.isSome then .ok none else .error (.invalidInputType name "integer")
      | .boolean =>
        if value.isBoolean then .ok none else .error (.invalidInputType name "boolean")
      | .artifact => (checkArtifactId name value).map some
      | .json => (validateJson rt name spec value).map fun _ => none

def loadArtifact (name artifactId : String) : RunnerTask String := do
  let metadata : ArtifactMetadata ← request (.loadArtifactMetadata artifactId)
  let expired : Bool ← request (.isExpired metadata)
  if expired then fail (.expiredArtifact name artifactId)
  else pure (rt.config.rootDir ++ "/artifacts/" ++ artifactId ++ "/blob")

def validateInput (manifest : JobManifest) (resolved : BTreeMap String) (name : String)
    (value : Value) : RunnerTask (BTreeMap String) := do
  let artifact ← .done (checkInput rt manifest name value)
  match artifact with
  | none => pure resolved
  | some artifactId => do
    let path ← loadArtifact rt name artifactId
    pure (resolved.insert name path)

def missingInput (manifest : JobManifest) (inputs : BTreeMap Value) : Option String :=
  (manifest.inputs.entries.find? fun input =>
    input.2.required && !inputs.containsKey input.1).map Prod.fst

def unknownInput (manifest : JobManifest) (inputs : BTreeMap Value) : Option String :=
  inputs.keys.find? fun name => !manifest.inputs.containsKey name && !isReservedInputName name

def validateEntries (manifest : JobManifest) (resolved : BTreeMap String) :
    List (String × Value) → RunnerTask (BTreeMap String)
  | [] => pure resolved
  | (name, value) :: entries => do
    let resolved ← validateInput rt manifest resolved name value
    validateEntries manifest resolved entries

def validateInputs (manifest : JobManifest) (inputs : BTreeMap Value) :
    RunnerTask (BTreeMap String) :=
  match missingInput manifest inputs, unknownInput manifest inputs with
  | some name, _ => fail (.missingInput name)
  | none, some name => fail (.unknownInput name)
  | none, none => validateEntries rt manifest .empty inputs.entries

def readMetadataFromPath (jobId : String) : RunnerTask JobMetadata := do
  let file : MetadataFile ← request (.readMetadata jobId)
  match file with
  | .missing => fail (.readFile (jobPath rt jobId "metadata.json") "not found")
  | .invalid source => fail (.parseMetadata (jobPath rt jobId "metadata.json") source)
  | .metadata metadata => pure metadata

def transitionMetadataStatus (writer : Writer) (jobId : String)
    (expectedCurrent : Option RunnerJobStatus) (next : RunnerJobStatus) : RunnerTask Unit := do
  let metadata ← readMetadataFromPath rt jobId
  if metadata.status.isTerminal then pure ()
  else if expectedCurrent.any (fun expected => metadata.status ≠ expected) then pure ()
  else if metadata.status = next then pure ()
  else request (.persistMetadata writer jobId { metadata with status := next })

def readJob (jobId : String) : RunnerTask JobMetadata := do
  .done (validateJobId jobId)
  let file : MetadataFile ← request (.readMetadata jobId)
  match file with
  | .missing => fail (.jobNotFound jobId)
  | .invalid source => fail (.parseMetadata (jobPath rt jobId "metadata.json") source)
  | .metadata metadata => pure metadata

def loadExistingJobForRequest (identity : JobIdentity) : RunnerTask JobCreated := do
  let metadata ← readMetadataFromPath rt identity.jobId
  if metadata.identity ≠ identity then fail (.idempotencyConflict identity.idempotencyKey)
  else pure ⟨metadata.jobId, metadata.status, metadata.startedAt⟩

def setupJob (n : ℕ) (job : JobMetadata) : RunnerTask Unit := do
  request (.createDirAll n job.jobId "work")
  request (.createDirAll n job.jobId "output")
  request (.writeFile job.jobId "stdout.log")
  request (.writeFile job.jobId "stderr.log")
  request (.persistMetadata (.create n) job.jobId job)

/-- The part of `create_job` after the idempotency key was found unused. -/
def startJob (n : ℕ) (manifest : JobManifest) (inputs : BTreeMap Value) (logLimitBytes : ℕ)
    (identity : JobIdentity) (resolved : BTreeMap String) : RunnerTask JobCreated := do
  let startedAt ← nowRfc3339
  let job : JobMetadata :=
    { jobId := identity.jobId, name := manifest.name, idempotencyKey := identity.idempotencyKey
      requestHash := identity.requestHash, status := .running, startedAt
      inputs := redactSensitiveInputs manifest inputs, resolvedArtifacts := resolved }
  request (.insertRunning n manifest identity.jobId)
  let setupResult ← (setupJob n job).attempt
  match setupResult with
  | .error error => do
    request (.removeRunning identity.jobId)
    fail error
  | .ok () => do
    request (.spawn n
      { manifest, jobId := identity.jobId, logLimitBytes, metadata := job, rawInputs := inputs
        channel := n })
    pure ⟨identity.jobId, .running, startedAt⟩

def requestIdentity (name key : String) (body : Bytes) : JobIdentity :=
  ⟨jobIdForIdempotencyKey rt key, name, key, hashRequest rt name body⟩

def createLocked (n : ℕ) (name key : String) (body : Bytes) (inputs : BTreeMap Value) :
    RunnerTask JobCreated :=
  match rt.manifests.get name with
  | none => fail (.unknownJob name)
  | some manifest => do
    let resolved ← validateInputs rt manifest inputs
    if rt.config.defaultLogLimitMb * (1024 * 1024) ≥ 2 ^ 64 then
      fail (.invalidLogLimit rt.config.defaultLogLimitMb)
    else do
      let identity := requestIdentity rt name key body
      let dirExists : Bool ← request (.jobDirExists identity.jobId)
      if dirExists then loadExistingJobForRequest rt identity
      else startJob n manifest inputs (rt.config.defaultLogLimitMb * (1024 * 1024)) identity resolved

def createJob (n : ℕ) (name key : String) (body : Bytes) (inputs : BTreeMap Value) :
    RunnerTask JobCreated := do
  let shuttingDown : Bool ← request .loadShuttingDown
  if shuttingDown then fail .shuttingDown
  else do
    .done (validateIdempotencyKey key)
    request (.lockCreate n)
    let result ← (createLocked rt n name key body inputs).attempt
    request (.unlockCreate n)
    .done result

def createJobRequest (n : ℕ) (name key : String) (body : Bytes) : RunnerTask JobCreated :=
  match rt.parseJson body with
  | .error source => fail (.parseRequestBody source)
  | .ok value =>
    match value.asObject with
    | none => fail (.invalidBody "expected a JSON object")
    | some fields => createJob rt n name key body (.ofList fields)

def cancelFinished (jobId : String) : RunnerTask Unit := do
  let metadata ← readJob rt jobId
  if metadata.status = .cancelRequested ∨ metadata.status = .canceling ∨
      metadata.status = .canceled then pure ()
  else fail (.jobNotRunning jobId)

def cancelJob (jobId : String) : RunnerTask Unit := do
  .done (validateJobId jobId)
  let runningJob : Option RunningJob ← request (.getRunning jobId)
  match runningJob with
  | none => cancelFinished rt jobId
  | some runningJob => do
    transitionMetadataStatus rt .cancel runningJob.jobId (some .running) .cancelRequested
    request (.sendCancel runningJob.jobId runningJob.channel)

def shutdownJob (runningJob : RunningJob) : RunnerTask Unit := do
  let _ ← (transitionMetadataStatus rt .cancel runningJob.jobId (some .running)
    .cancelRequested).attempt
  let _ ← (request (.sendCancel runningJob.jobId runningJob.channel)).attempt
  pure ()

def beginShutdown : RunnerTask ℕ := do
  request .setShuttingDown
  let runningJobs : List RunningJob ← request .lockRunning
  runningJobs.forM (shutdownJob rt)
  request .unlockRunning
  pure runningJobs.length

/-- `wait_for_drain` looks a number of times before its deadline. -/
def waitForDrain : ℕ → RunnerTask Bool
  | 0 => pure false
  | looks + 1 => do
    let empty : Bool ← request .runningIsEmpty
    if empty then pure true else waitForDrain looks

def interrupted (metadata : JobMetadata) (status : RunnerJobStatus) (category : FailureCategory)
    (finishedAt : Timestamp) : JobMetadata :=
  { metadata with
    status, finishedAt := some finishedAt
    durationMs := calculateDurationMs metadata.startedAt (some finishedAt)
    exitCode := none, terminalReason := some .shutdown, failureCategory := some category }

def persistRecovered (jobId : String) (metadata : JobMetadata) (status : RunnerJobStatus)
    (category : FailureCategory) : RunnerTask Unit := do
  let finishedAt ← nowRfc3339
  request (.persistMetadata .recovery jobId (interrupted metadata status category finishedAt))
  request (.writeFile jobId "stderr.log")

def recoverJob (jobId : String) : RunnerTask ℕ := do
  let file : MetadataFile ← request (.readMetadata jobId)
  match file with
  | .missing | .invalid _ => do
    request (.removeJobDir jobId)
    pure 1
  | .metadata metadata =>
    match metadata.status with
    | .running => do
      persistRecovered jobId metadata .failed .infra
      pure 1
    | .cancelRequested | .canceling => do
      persistRecovered jobId metadata .canceled .canceled
      pure 1
    | _ => pure 0

def recoverJobs (recovered : ℕ) : List String → RunnerTask ℕ
  | [] => pure recovered
  | jobId :: jobIds => do
    let more ← recoverJob jobId
    recoverJobs (recovered + more) jobIds

def recoverInterruptedJobs : RunnerTask ℕ := do
  let jobIds : List String ← request .readJobDirs
  recoverJobs 0 jobIds

end

end Janus.Runner
