import Mathlib.Data.List.Perm.Basic
import Janus.Runner.Steps

/-! What the tasks of the runner owe before their steps, and what holds between all steps. -/

namespace Janus.Runner

open Janus.Concurrency Janus.Data Janus.Server

/-- The conditions under which a run is looked at: metadata is read back as it was written, requests
that repeat an answered one find what they name, no request enters `running_jobs` after
`begin_shutdown` has locked it. -/
structure Regime where
  durable : Prop := False
  calm : Prop := False
  sealed : Prop := False

def RunnerRole.creates (n : ℕ) : RunnerRole → Prop
  | .create n' _ _ _ => n' = n
  | _ => False

/-- What `create_job` checks of a request apart from the artifacts it names. -/
structure Admissible (rt : Runtime) (name key : String) (body : Bytes) : Prop where
  key : validateIdempotencyKey key = .ok ()
  logLimit : rt.config.defaultLogLimitMb * (1024 * 1024) < 2 ^ 64
  inputs : ∃ value fields manifest, rt.parseJson body = .ok value ∧ value.asObject = some fields ∧
    rt.manifests.get name = some manifest ∧ missingInput manifest (.ofList fields) = none ∧
    unknownInput manifest (.ofList fields) = none ∧
    ∀ e ∈ (OrderedMap.ofList fields).entries, ∃ artifact, checkInput rt manifest e.1 e.2 = .ok artifact

namespace RunnerStore

variable (s : RunnerStore)

def Keeps (identity : JobIdentity) : Prop :=
  ∃ metadata, (s.dir identity.jobId).metadata = some metadata ∧ metadata.identity = identity

def Unfinished (jobId : String) : Prop :=
  ∃ metadata, (s.dir jobId).metadata = some metadata ∧ metadata.status.isTerminal = false

def tokens : List JobExecution := s.spawned ++ s.executing.map Prod.snd

def jobIds : List String := s.tokens.map JobExecution.jobId

def Repeats (n : ℕ) (name key : String) (body : Bytes) : Prop :=
  ∃ k ∈ s.history.arrived.lookup n, ∃ a ∈ s.history.answers.take k,
    a.name = name ∧ a.idempotencyKey = key ∧ a.body = body ∧ a.result.isOk = true

end RunnerStore

structure Answered (rt : Runtime) (s : RunnerStore) (name key : String) (body : Bytes)
    (created : JobCreated) : Prop where
  admissible : Admissible rt name key body
  jobId : created.jobId = jobIdForIdempotencyKey rt key
  keeps : s.Keeps (requestIdentity rt name key body)

def CalmStep (c : RunnerCall) (o : Outcome) (s : RunnerStore) : Prop :=
  match c with
  | .loadArtifactMetadata artifactId => o.fails = none ∧ (s.artifacts.get artifactId).isSome = true
  | .isExpired metadata => o.now < metadata.expiresAt
  | .readMetadata _ => o.fails = none
  | _ => True

structure Permits (R : Regime) (rt : Runtime) (r : RunnerRole) (c : RunnerCall) (o : Outcome)
    (s : RunnerStore) : Prop where
  durable : R.durable → ∀ writer jobId metadata, c = .persistMetadata writer jobId metadata →
    rt.readsBack metadata = true
  calm : R.calm → ∀ n name key body, r = .create n name key body → s.Repeats n name key body →
    CalmStep c o s
  sealed : R.sealed → ∀ n manifest jobId, c = .insertRunning n manifest jobId →
    enforceConcurrency manifest s.runningJobs = .ok () → s.shutdownLocked = false

def Writer.Before (rt : Runtime) (r : RunnerRole) (jobId : String) (metadata : JobMetadata)
    (s : RunnerStore) : Writer → Prop
  | .create n => r.creates n ∧ s.createLock = some n ∧ (s.dir jobId).metadata = none ∧
      metadata.jobId = jobId ∧ jobId = jobIdForIdempotencyKey rt metadata.idempotencyKey ∧
      metadata.status = .running
  | .cancel => (∃ current, (s.dir jobId).metadata = some current ∧
      current.identity = metadata.identity) ∧ metadata.status = .cancelRequested
  | .canceling m => r = .run m ∧ ∃ execution, (m, execution) ∈ s.executing ∧
      execution.jobId = jobId ∧ metadata.identity = execution.metadata.identity ∧
      metadata.status = .canceling
  | .finish m => r = .run m ∧ ∃ execution, (m, execution) ∈ s.executing ∧
      execution.jobId = jobId ∧ metadata.identity = execution.metadata.identity ∧
      metadata.status.isTerminal = true
  | .recovery => r = .boot ∧ s.serving = false ∧ ∃ current, (s.dir jobId).metadata = some current ∧
      current.identity = metadata.identity ∧ current.status.isTerminal = false ∧
      metadata.status.isTerminal = true

structure SpawnBefore (r : RunnerRole) (n : ℕ) (execution : JobExecution) (s : RunnerStore) :
    Prop where
  role : r.creates n
  lock : s.createLock = some n
  serving : s.serving = true
  inserted : n ∈ s.inserted
  channel : execution.channel = n
  identity : execution.metadata.jobId = execution.jobId
  fresh : execution.jobId ∉ s.jobIds
  keeps : s.Keeps execution.metadata.identity
  unfinished : s.Unfinished execution.jobId
  launched : (s.dir execution.jobId).launched = false

def Before (R : Regime) (rt : Runtime) (r : RunnerRole) : RunnerCall → RunnerStore → Prop
  | .arrive n, _ | .lockCreate n, _ => r.creates n
  | .unlockCreate n, s => r.creates n ∧ s.createLock = some n
  | .respond n name key body result, s => r = .create n name key body ∧
      (∃ k ≤ s.history.answers.length, s.history.arrived.lookup n = some k) ∧
      (∀ created, result = .ok created → Answered rt s name key body created) ∧
      (R.durable → R.calm → s.Repeats n name key body → s.shuttingDown = false →
        ∃ created, result = .ok created)
  | .createDirAll n jobId _, s => r.creates n ∧ s.createLock = some n ∧
      (s.dir jobId).metadata = none
  | .persistMetadata writer jobId metadata, s => writer.Before rt r jobId metadata s
  | .insertRunning _ manifest _, _ => ∃ name, rt.manifests.get name = some manifest
  | .spawn n execution, s => SpawnBefore r n execution s
  | .launch m, _ => r = .run m
  | .unlockRunning, s => s.shutdownLocked = true ∧
      (R.sealed → ∀ e ∈ s.runningJobs.entries, e.2.channel ∈ s.signaled)
  | .removeJobDir jobId, s => r = .boot ∧ s.serving = false ∧
      ∀ metadata, (s.dir jobId).metadata = some metadata → rt.readsBack metadata = false
  | .serve, _ => r = .boot
  | _, _ => True

structure ProcessSane (rt : Runtime) (s : RunnerStore) : Prop where
  launched : ∀ key ∈ s.history.processes,
    (s.dir (jobIdForIdempotencyKey rt key)).launched = true ∧
    ((s.dir (jobIdForIdempotencyKey rt key)).metadata).isSome = true
  nodup : s.history.processes.Nodup

structure Lasting (rt : Runtime) (s : RunnerStore) : Prop where
  readable : ∀ jobId metadata, (s.dir jobId).metadata = some metadata → rt.readsBack metadata = true
  answers : ∀ a ∈ s.history.answers, ∀ created, a.result = .ok created →
    Answered rt s a.name a.idempotencyKey a.body created
  processes : ProcessSane rt s

structure Sane (R : Regime) (rt : Runtime) (s : RunnerStore) : Prop where
  nodup : s.jobIds.Nodup
  runs : ∀ e ∈ s.executing, e.1 ∈ s.history.runs
  stopped : s.serving = false → s.tokens = []
  dirs : ∀ jobId metadata, (s.dir jobId).metadata = some metadata → metadata.jobId = jobId ∧
    jobId = jobIdForIdempotencyKey rt metadata.idempotencyKey
  tokens : ∀ e ∈ s.tokens, e.metadata.jobId = e.jobId ∧ s.Keeps e.metadata.identity ∧
    s.Unfinished e.jobId ∧ e.channel ∈ s.inserted
  waiting : ∀ e ∈ s.spawned, (s.dir e.jobId).launched = false
  keyed : ∀ e ∈ s.runningJobs.entries, e.2.jobId = e.1
  arrived : ∀ n k, s.history.arrived.lookup n = some k → k ≤ s.history.answers.length
  lasting : R.durable → Lasting rt s
  returned : s.shutdownReturned = true → s.shutdownLocked = true
  signaled : R.sealed → s.shutdownReturned = true →
    ∀ e ∈ s.runningJobs.entries, e.2.channel ∈ s.signaled

/-- What a request relies on while it holds `create_lock`: jobs without an execution get none. -/
structure LockRely (s s' : RunnerStore) : Prop where
  jobIds : ∀ jobId, jobId ∉ s.jobIds → jobId ∉ s'.jobIds
  launched : ∀ jobId, jobId ∉ s.jobIds → (s'.dir jobId).launched = (s.dir jobId).launched
  absent : ∀ jobId, jobId ∉ s.jobIds → (s.dir jobId).metadata = none →
    (s'.dir jobId).metadata = none
  unfinished : ∀ jobId, jobId ∉ s.jobIds → s.Unfinished jobId → s'.Unfinished jobId

structure Rely (R : Regime) (r : RunnerRole) (s s' : RunnerStore) : Prop where
  keeps : ∀ identity, s.Keeps identity → s'.Keeps identity
  serving : s.serving = true → s'.serving = true
  shuttingDown : s.shuttingDown = true → s'.shuttingDown = true
  answers : s.history.answers <+: s'.history.answers
  arrived : ∀ n k, s.history.arrived.lookup n = some k → s'.history.arrived.lookup n = some k
  inserted : ∀ n ∈ s.inserted, n ∈ s'.inserted
  executing : ∀ m, r = .run m → ∀ e, (m, e) ∈ s.executing → (m, e) ∈ s'.executing
  lock : ∀ n, r.creates n → s.createLock = some n → s'.createLock = some n ∧ LockRely s s'
  shutdownLocked : s.shutdownLocked = true → s'.shutdownLocked = true
  entries : R.sealed → s.shutdownLocked = true →
    ∀ e ∈ s'.runningJobs.entries, e ∈ s.runningJobs.entries
  signaled : ∀ channel ∈ s.signaled, channel ∈ s'.signaled

structure Frozen (s s' : RunnerStore) : Prop where
  jobDirs : s'.jobDirs = s.jobDirs
  serving : s'.serving = s.serving

def rely (R : Regime) : RunnerRole → RunnerStore → RunnerStore → Prop
  | .boot => Frozen
  | r => Rely R r

def runnerDiscipline (R : Regime) (rt : Runtime) (r : RunnerRole) :
    Discipline RunnerCall RunnerCall.Result JobError RunnerStore where
  rely := rely R r
  inv := Sane R rt
  admits c s x s' := ∃ o, c.ready s = true ∧ c.exec rt o s = (x, s') ∧ Permits R rt r c o s
  before := Before R rt r

end Janus.Runner
