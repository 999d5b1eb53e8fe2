import Janus.Concurrency.Pool
import Janus.Runner.Models

/-! What a runner holds in memory and on disk, and the atomic steps of its operations on it. -/

namespace Janus.Runner

open Janus.Concurrency Janus.Data Janus.Server

structure RunnerConfig where
  rootDir : String
  defaultLogLimitMb : ℕ
  cleanupSuccessfulWorkdirs : Bool
  keepFailedWorkdirs : Bool
  artifactTtlSeconds : ℕ
  artifactMaxSizeBytes : ℕ
  requireChecksumOnUpload : Bool

/-- The manifests and the configuration that a runner serves with, and what it takes from the
libraries. -/
structure Runtime where
  host : Host
  manifests : ManifestStore host
  config : RunnerConfig
  sha256Hex : Bytes → String
  parseJson : Bytes → Except String Value
  jsonText : Value → String
  /-- Whether `serde_json` reads back the metadata that it has written. -/
  readsBack : JobMetadata → Bool

def utf8 (text : String) : Bytes := text.toUTF8.toList

def hashRequest (rt : Runtime) (name : String) (requestBody : Bytes) : String :=
  rt.sha256Hex (utf8 name ++ 0 :: requestBody)

def jobIdForIdempotencyKey (rt : Runtime) (key : String) : String :=
  "job_" ++ String.ofList ((hashRequest rt "job" (utf8 key)).toList.take 32)

def jobDirPath (rt : Runtime) (jobId : String) : String :=
  rt.config.rootDir ++ "/jobs/" ++ jobId

def jobPath (rt : Runtime) (jobId file : String) : String := jobDirPath rt jobId ++ "/" ++ file

structure JobDir where
  metadata : Option JobMetadata := none
  launched : Bool := false

/-- A response to `create_job`: `preceding` counts the responses sent before the request arrived, and
`shuttingDown` is the flag when it is sent. -/
structure Answer where
  name : String
  idempotencyKey : String
  body : Bytes
  preceding : ℕ
  shuttingDown : Bool
  result : Except JobError JobCreated

structure History where
  arrived : List (ℕ × ℕ) := []
  runs : List ℕ := []
  processes : List String := []
  answers : List Answer := []

structure RunnerStore where
  serving : Bool := false
  shuttingDown : Bool := false
  /-- The request that holds `create_lock`. -/
  createLock : Option ℕ := none
  /-- Whether `begin_shutdown` holds `running_jobs`. -/
  runningLocked : Bool := false
  runningJobs : BTreeMap RunningJob := .empty
  signaled : List ℕ := []
  spawned : List JobExecution := []
  executing : List (ℕ × JobExecution) := []
  /-- Whether `begin_shutdown` has taken and has released `running_jobs`. -/
  shutdownLocked : Bool := false
  shutdownReturned : Bool := false
  inserted : List ℕ := []
  jobDirs : BTreeMap JobDir := .empty
  artifacts : BTreeMap ArtifactMetadata := .empty
  history : History := {}

def RunnerStore.crashed (store : RunnerStore) : RunnerStore :=
  { jobDirs := store.jobDirs, artifacts := store.artifacts, history := store.history }

/-- Who writes metadata: `create_job`, `cancel_job` and `begin_shutdown`, a run that is canceled, a
run that ends, or `recover_interrupted_jobs`. -/
inductive Writer
  | create (n : ℕ)
  | cancel
  | canceling (m : ℕ)
  | finish (m : ℕ)
  | recovery
  deriving DecidableEq

inductive MetadataFile
  | missing
  | invalid (source : String)
  | metadata (metadata : JobMetadata)

inductive OutputFile
  | file | other | notFound

inductive Ended
  | timedOut
  | canceled
  | logLimit (streamName message : String)
  | exited (code : Option ℤ)

/-- The steps of a request or of a run that others tell apart bear its number. -/
inductive RunnerCall
  | arrive (n : ℕ)
  | respond (n : ℕ) (name key : String) (body : Bytes) (result : Except JobError JobCreated)
  | loadShuttingDown
  | lockCreate (n : ℕ)
  | unlockCreate (n : ℕ)
  | loadArtifactMetadata (artifactId : String)
  | isExpired (metadata : ArtifactMetadata)
  | now
  | jobDirExists (jobId : String)
  | createDirAll (n : ℕ) (jobId sub : String)
  | writeFile (jobId file : String)
  | readMetadata (jobId : String)
  | persistMetadata (writer : Writer) (jobId : String) (metadata : JobMetadata)
  | insertRunning (n : ℕ) (manifest : JobManifest) (jobId : String)
  | removeRunning (jobId : String)
  | spawn (n : ℕ) (execution : JobExecution)
  | launch (m : ℕ)
  | watch (execution : JobExecution)
  | statOutput (jobId path : String)
  | readOutput (jobId path : String)
  | readOutputBytes (jobId path : String)
  | storeArtifact (sha256 : String) (size : ℕ)
  | fileSize (jobId file : String)
  | removeWorkDir (jobId : String)
  | getRunning (jobId : String)
  | sendCancel (jobId : String) (channel : ℕ)
  | setShuttingDown
  | lockRunning
  | unlockRunning
  | runningIsEmpty
  | readJobDirs
  | removeJobDir (jobId : String)
  | serve
  | readArtifactDirs
  | removeArtifactDir (artifactId : String)

def RunnerCall.Result : RunnerCall → Type
  | .loadShuttingDown | .jobDirExists _ | .runningIsEmpty | .isExpired _ => Bool
  | .loadArtifactMetadata _ | .storeArtifact _ _ => ArtifactMetadata
  | .now => Timestamp
  | .readMetadata _ => MetadataFile
  | .launch _ => JobExecution × Option JobError
  | .watch _ => Ended
  | .statOutput _ _ => OutputFile
  | .readOutput _ _ => String
  | .readOutputBytes _ _ => Bytes
  | .fileSize _ _ => ℕ
  | .getRunning _ => Option RunningJob
  | .lockRunning => List RunningJob
  | .readJobDirs | .readArtifactDirs => List String
  | _ => Unit

/-- What the surroundings decide about a call: whether an operation on a file fails, and if it has
had its effect all the same, what the clock, a process or a file says, and which of the spawned
executions `tokio` starts. -/
structure Outcome where
  fails : Option String := none
  applied : Bool := false
  now : Timestamp := 0
  pick : ℕ := 0
  cancelSeen : Bool := false
  ended : Ended := .exited (some 0)
  artifactId : String := ""
  output : OutputFile := .notFound
  text : String := ""
  bytes : Bytes := []
  size : ℕ := 0

def globalExclusiveReason : String := "cannot start job while a global_exclusive job is running"

def enforceConcurrency (manifest : JobManifest) (runningJobs : BTreeMap RunningJob) :
    Except JobError Unit :=
  match manifest.concurrency with
  | .parallel =>
    if runningJobs.values.any fun job => job.concurrency = .globalExclusive then
      .error (.concurrencyConflict globalExclusiveReason)
    else .ok ()
  | .jobExclusive =>
    match runningJobs.values.find? fun job =>
        job.concurrency = .globalExclusive ∨ job.name = manifest.name with
    | some job =>
      .error (.concurrencyConflict (
        if job.concurrency = .globalExclusive then globalExclusiveReason
        else "cannot start job " ++ manifest.name ++ " while another instance is running (" ++
          job.jobId ++ ")"))
    | none => .ok ()
  | .globalExclusive =>
    if runningJobs.values.isEmpty then .ok ()
    else .error (.concurrencyConflict
      "cannot start global_exclusive job while another job is running")

def RunnerStore.setDir (store : RunnerStore) (jobId : String) (dir : JobDir) : RunnerStore :=
  { store with jobDirs := store.jobDirs.insert jobId dir }

def RunnerStore.dir (store : RunnerStore) (jobId : String) : JobDir :=
  (store.jobDirs.get jobId).getD {}

def RunnerStore.persist (store : RunnerStore) (jobId : String) (metadata : JobMetadata) :
    RunnerStore :=
  store.setDir jobId { store.dir jobId with metadata := some metadata }

def Writer.release (writer : Writer) (store : RunnerStore) : RunnerStore :=
  match writer with
  | .finish m => { store with executing := store.executing.filter fun e => e.1 ≠ m }
  | _ => store

def Outcome.io {α : Type} (o : Outcome) (error : String → JobError) (store : RunnerStore)
    (ok : Except JobError α × RunnerStore) : Except JobError α × RunnerStore :=
  match o.fails with
  | some source => (.error (error source), store)
  | none => ok

def iso8601NowPlus (ttlSeconds : ℕ) (now : Timestamp) : Timestamp :=
  (now / 1000000000 + ttlSeconds) * 1000000000

namespace RunnerCall

variable (rt : Runtime)

def ready (c : RunnerCall) (store : RunnerStore) : Bool :=
  match c with
  | .arrive n => store.serving && !(store.history.arrived.any fun a => a.1 == n)
  | .lockCreate _ => store.createLock.isNone
  | .insertRunning _ _ _ | .removeRunning _ | .lockRunning | .runningIsEmpty => !store.runningLocked
  | .getRunning _ => store.serving && !store.runningLocked
  | .setShuttingDown | .storeArtifact _ _ | .readArtifactDirs => store.serving
  | .readJobDirs => !store.serving
  | .launch m => !store.spawned.isEmpty && !(store.history.runs.any fun k => k == m)
  | _ => true

def execLaunch (m : ℕ) (o : Outcome) (store : RunnerStore) :
    Except JobError (JobExecution × Option JobError) × RunnerStore :=
  match store.spawned[o.pick % store.spawned.length]? with
  | none => (.error (.spawnProcess "" ""), store)
  | some execution =>
    let started := { store with
      spawned := store.spawned.eraseIdx (o.pick % store.spawned.length)
      executing := (m, execution) :: store.executing
      history := { store.history with runs := m :: store.history.runs } }
    match o.fails with
    | some source =>
      (.ok (execution, some (.spawnProcess execution.manifest.script source)), started)
    | none =>
      (.ok (execution, none), { started with
        jobDirs := started.jobDirs.insert execution.jobId
          { started.dir execution.jobId with launched := true }
        history := { started.history with
          processes := execution.metadata.idempotencyKey :: started.history.processes } })

def exec : (c : RunnerCall) → Outcome → RunnerStore → Except JobError c.Result × RunnerStore
  | .arrive n, _, store => (.ok (), { store with
      history := { store.history with
        arrived := (n, store.history.answers.length) :: store.history.arrived } })
  | .respond n name key body result, _, store => (.ok (), { store with
      history := { store.history with
        answers := store.history.answers ++
          [⟨name, key, body, (store.history.arrived.lookup n).getD 0, store.shuttingDown, result⟩] } })
  | .loadShuttingDown, _, store => (.ok store.shuttingDown, store)
  | .lockCreate n, _, store => (.ok (), { store with createLock := some n })
  | .unlockCreate _, _, store => (.ok (), { store with createLock := none })
  | .loadArtifactMetadata artifactId, o, store =>
    o.io (fun _ => .artifact (.notFound artifactId)) store <|
      match store.artifacts.get artifactId with
      | none => (.error (.artifact (.notFound artifactId)), store)
      | some metadata => (.ok metadata, store)
  | .isExpired metadata, o, store => (.ok (decide (metadata.expiresAt ≤ o.now)), store)
  | .now, o, store => (.ok o.now, store)
  | .jobDirExists jobId, _, store => (.ok (store.jobDirs.containsKey jobId), store)
  | .createDirAll _ jobId sub, o, store =>
    match o.fails with
    | some source =>
      (.error (.createDir (jobPath rt jobId sub) source),
        if o.applied then store.setDir jobId (store.dir jobId) else store)
    | none => (.ok (), store.setDir jobId (store.dir jobId))
  | .writeFile jobId file, o, store =>
    o.io (.writeFile (jobPath rt jobId file)) store (.ok (), store)
  | .readMetadata jobId, o, store =>
    o.io (.readFile (jobPath rt jobId "metadata.json")) store <|
      match (store.dir jobId).metadata with
      | none => (.ok .missing, store)
      | some metadata =>
        (.ok (if rt.readsBack metadata then .metadata metadata else .invalid o.text), store)
  | .persistMetadata writer jobId metadata, o, store =>
    o.io (.writeFile (jobPath rt jobId "metadata.json")) (writer.release store)
      (.ok (), writer.release (store.persist jobId metadata))
  | .insertRunning n manifest jobId, _, store =>
    match enforceConcurrency manifest store.runningJobs with
    | .error error => (.error error, store)
    | .ok () => (.ok (), { store with
        runningJobs := store.runningJobs.insert jobId ⟨jobId, manifest.name, manifest.concurrency, n⟩
        inserted := n :: store.inserted })
  | .removeRunning jobId, _, store =>
    (.ok (), { store with runningJobs := store.runningJobs.remove jobId })
  | .spawn _ execution, _, store => (.ok (), { store with spawned := store.spawned ++ [execution] })
  | .launch m, o, store => execLaunch m o store
  | .watch execution, o, store =>
    o.io (.waitProcess execution.manifest.script) store
      (.ok (if o.cancelSeen && store.signaled.contains execution.channel then .canceled
        else o.ended), store)
  | .statOutput _ path, o, store => o.io (.readFile path) store (.ok o.output, store)
  | .readOutput _ path, o, store => o.io (.readFile path) store (.ok o.text, store)
  | .readOutputBytes _ path, o, store => o.io (.readFile path) store (.ok o.bytes, store)
  | .storeArtifact sha256 size, o, store =>
    o.io (fun source => .artifact (.writeFile o.artifactId source)) store <|
      let metadata : ArtifactMetadata :=
        ⟨o.artifactId, sha256, size, iso8601NowPlus rt.config.artifactTtlSeconds o.now⟩
      if store.artifacts.containsKey o.artifactId then
        (.error (.artifact (.writeFile o.artifactId "")), store)
      else (.ok metadata, { store with artifacts := store.artifacts.insert o.artifactId metadata })
  | .fileSize _ _, o, store => (.ok o.size, store)
  | .removeWorkDir jobId, o, store =>
    o.io (.writeFile (jobPath rt jobId "work")) store (.ok (), store)
  | .getRunning jobId, _, store => (.ok (store.runningJobs.get jobId), store)
  | .sendCancel jobId channel, o, store =>
    if o.fails.isSome ∧ (store.runningJobs.get jobId).map RunningJob.channel ≠ some channel then
      (.error (.jobNotRunning jobId), store)
    else (.ok (), { store with signaled := channel :: store.signaled })
  | .setShuttingDown, _, store => (.ok (), { store with shuttingDown := true })
  | .lockRunning, _, store =>
    (.ok store.runningJobs.values, { store with runningLocked := true, shutdownLocked := true })
  | .unlockRunning, _, store =>
    (.ok (), { store with runningLocked := false, shutdownReturned := true })
  | .runningIsEmpty, _, store => (.ok store.runningJobs.entries.isEmpty, store)
  | .readJobDirs, o, store =>
    o.io (.readFile (rt.config.rootDir ++ "/jobs")) store (.ok store.jobDirs.keys, store)
  | .removeJobDir jobId, o, store =>
    match o.fails with
    | some source =>
      (.error (.createDir (jobDirPath rt jobId) source),
        if o.applied then store.setDir jobId { store.dir jobId with metadata := none } else store)
    | none => (.ok (), { store with jobDirs := store.jobDirs.remove jobId })
  | .serve, _, store => (.ok (), { store with serving := true })
  | .readArtifactDirs, o, store =>
    o.io (fun source => .artifact (.readDir (rt.config.rootDir ++ "/artifacts") source)) store
      (.ok store.artifacts.keys, store)
  | .removeArtifactDir artifactId, o, store =>
    o.io (fun source => .artifact (.removeDir artifactId source)) store
      (.ok (), { store with artifacts := store.artifacts.remove artifactId })

end RunnerCall

abbrev RunnerTask := Program RunnerCall RunnerCall.Result JobError

end Janus.Runner
