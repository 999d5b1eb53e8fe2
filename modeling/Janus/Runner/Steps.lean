import Janus.Runner.System

/-! What one step of the runner can do to its store. -/

namespace Janus.Runner

open Janus.Concurrency Janus.Data Janus.Server

namespace RunnerStore

variable (s : RunnerStore) (jobId : String)

@[simp] lemma dir_setDir_self (dir : JobDir) : (s.setDir jobId dir).dir jobId = dir := by
  simp [RunnerStore.dir, setDir]

lemma dir_setDir_of_ne {jobId' : String} (h : jobId' ≠ jobId) (dir : JobDir) :
    (s.setDir jobId dir).dir jobId' = s.dir jobId' := by
  simp [RunnerStore.dir, setDir, OrderedMap.get_insert_of_ne h]

def begin (m i : ℕ) (execution : JobExecution) : RunnerStore :=
  { s with
    spawned := s.spawned.eraseIdx i
    executing := (m, execution) :: s.executing
    history := { s.history with runs := m :: s.history.runs } }

def launch (execution : JobExecution) : RunnerStore :=
  { s with
    jobDirs := s.jobDirs.insert execution.jobId { s.dir execution.jobId with launched := true }
    history := { s.history with
      processes := execution.metadata.idempotencyKey :: s.history.processes } }

end RunnerStore

inductive RunnerCall.Effect (rt : Runtime) (s : RunnerStore) :
    (c : RunnerCall) → Except JobError c.Result → RunnerStore → Prop
  | untouched {c : RunnerCall} (x : Except JobError c.Result) : Effect rt s c x s
  | arrive (n : ℕ) (serving : s.serving = true) (fresh : s.history.arrived.lookup n = none) :
      Effect rt s (.arrive n) (.ok ()) { s with
        history := { s.history with
          arrived := (n, s.history.answers.length) :: s.history.arrived } }
  | respond (n : ℕ) (name key : String) (body : Bytes) (result : Except JobError JobCreated) :
      Effect rt s (.respond n name key body result) (.ok ()) { s with
        history := { s.history with
          answers := s.history.answers ++ [⟨name, key, body, (s.history.arrived.lookup n).getD 0,
            s.shuttingDown, result⟩] } }
  | lockCreate (n : ℕ) (free : s.createLock = none) :
      Effect rt s (.lockCreate n) (.ok ()) { s with createLock := some n }
  | unlockCreate (n : ℕ) : Effect rt s (.unlockCreate n) (.ok ()) { s with createLock := none }
  | createDir (n : ℕ) (jobId sub : String) (x : Except JobError Unit) :
      Effect rt s (.createDirAll n jobId sub) x (s.setDir jobId (s.dir jobId))
  | persisted (writer : Writer) (jobId : String) (metadata : JobMetadata) :
      Effect rt s (.persistMetadata writer jobId metadata) (.ok ())
        (writer.release (s.persist jobId metadata))
  | unpersisted (writer : Writer) (jobId : String) (metadata : JobMetadata)
      (x : Except JobError Unit) :
      Effect rt s (.persistMetadata writer jobId metadata) x (writer.release s)
  | admitted (n : ℕ) (manifest : JobManifest) (jobId : String)
      (free : enforceConcurrency manifest s.runningJobs = .ok ()) :
      Effect rt s (.insertRunning n manifest jobId) (.ok ()) { s with
        runningJobs := s.runningJobs.insert jobId ⟨jobId, manifest.name, manifest.concurrency, n⟩
        inserted := n :: s.inserted }
  | removeRunning (jobId : String) :
      Effect rt s (.removeRunning jobId) (.ok ()) { s with
        runningJobs := s.runningJobs.remove jobId }
  | spawn (n : ℕ) (execution : JobExecution) :
      Effect rt s (.spawn n execution) (.ok ()) { s with spawned := s.spawned ++ [execution] }
  | begun (m i : ℕ) (execution : JobExecution) (found : s.spawned[i]? = some execution)
      (x : Except JobError (JobExecution × Option JobError)) :
      Effect rt s (.launch m) x (s.begin m i execution)
  | launched (m i : ℕ) (execution : JobExecution) (found : s.spawned[i]? = some execution) :
      Effect rt s (.launch m) (.ok (execution, none)) ((s.begin m i execution).launch execution)
  | artifacts {c : RunnerCall} (x : Except JobError c.Result) (artifacts : BTreeMap ArtifactMetadata) :
      Effect rt s c x { s with artifacts := artifacts }
  | signal (jobId : String) (channel : ℕ) :
      Effect rt s (.sendCancel jobId channel) (.ok ()) { s with signaled := channel :: s.signaled }
  | setShuttingDown : Effect rt s .setShuttingDown (.ok ()) { s with shuttingDown := true }
  | lockRunning : Effect rt s .lockRunning (.ok s.runningJobs.values) { s with
      runningLocked := true, shutdownLocked := true }
  | unlockRunning : Effect rt s .unlockRunning (.ok ()) { s with
      runningLocked := false, shutdownReturned := true }
  | removeDir (jobId : String) :
      Effect rt s (.removeJobDir jobId) (.ok ()) { s with jobDirs := s.jobDirs.remove jobId }
  | clearDir (jobId : String) (x : Except JobError Unit) :
      Effect rt s (.removeJobDir jobId) x (s.setDir jobId { s.dir jobId with metadata := none })
  | serve : Effect rt s .serve (.ok ()) { s with serving := true }

lemma lookup_eq_none_of_any {n : ℕ} {entries : List (ℕ × ℕ)}
    (h : (entries.any fun a => a.1 == n) = false) : entries.lookup n = none := by
  rw [List.lookup_eq_none_iff]
  intro a ha
  rw [bne_iff_ne]
  rintro rfl
  exact List.any_eq_false.mp h a ha (beq_self_eq_true _)

variable {rt : Runtime} {c : RunnerCall} {o : Outcome} {s : RunnerStore}

namespace RunnerCall

lemma Effect.io {error : String → JobError} {ok : Except JobError c.Result × RunnerStore}
    (h : c.Effect rt s ok.1 ok.2) : c.Effect rt s (o.io error s ok).1 (o.io error s ok).2 := by
  unfold Outcome.io
  split
  · exact .untouched _
  · exact h

lemma execLaunch_effect {m : ℕ} :
    (launch m).Effect rt s (execLaunch m o s).1 (execLaunch m o s).2 := by
  unfold execLaunch
  split
  · exact .untouched _
  · next execution found =>
    split
    · exact .begun m _ execution found _
    · exact .launched m _ execution found

variable (rt o) in
theorem exec_effect (hready : c.ready s = true) :
    c.Effect rt s (c.exec rt o s).1 (c.exec rt o s).2 := by
  cases c with
  | arrive n =>
    simp only [ready, Bool.and_eq_true, Bool.not_eq_true'] at hready
    exact .arrive n hready.1 (lookup_eq_none_of_any hready.2)
  | respond n name key body result => exact .respond ..
  | loadShuttingDown => exact .untouched _
  | lockCreate n => exact .lockCreate n (by simpa [ready] using hready)
  | unlockCreate n => exact .unlockCreate n
  | loadArtifactMetadata artifactId =>
    refine .io ?_
    split <;> exact .untouched _
  | isExpired metadata => exact .untouched _
  | now => exact .untouched _
  | jobDirExists jobId => exact .untouched _
  | createDirAll n jobId sub =>
    simp only [exec]
    split
    · split
      · exact .createDir ..
      · exact .untouched _
    · exact .createDir ..
  | writeFile jobId file => exact .io (.untouched _)
  | readMetadata jobId =>
    refine .io ?_
    split <;> exact .untouched _
  | persistMetadata writer jobId metadata =>
    simp only [exec, Outcome.io]
    split
    · exact .unpersisted ..
    · exact .persisted ..
  | insertRunning n manifest jobId =>
    simp only [exec]
    split
    · exact .untouched _
    · next free => exact .admitted n manifest jobId free
  | removeRunning jobId => exact .removeRunning jobId
  | spawn n execution => exact .spawn n execution
  | launch m => exact execLaunch_effect
  | watch execution => exact .io (.untouched _)
  | statOutput jobId path => exact .io (.untouched _)
  | readOutput jobId path => exact .io (.untouched _)
  | readOutputBytes jobId path => exact .io (.untouched _)
  | storeArtifact sha256 size =>
    refine .io ?_
    dsimp only
    split
    · exact .untouched _
    · exact .artifacts _ _
  | fileSize jobId file => exact .untouched _
  | removeWorkDir jobId => exact .io (.untouched _)
  | getRunning jobId => exact .untouched _
  | sendCancel jobId channel =>
    simp only [exec]
    split
    · exact .untouched _
    · exact .signal jobId channel
  | setShuttingDown => exact .setShuttingDown
  | lockRunning => exact .lockRunning
  | unlockRunning => exact .unlockRunning
  | runningIsEmpty => exact .untouched _
  | readJobDirs => exact .io (.untouched _)
  | removeJobDir jobId =>
    simp only [exec]
    split
    · split
      · exact .clearDir ..
      · exact .untouched _
    · exact .removeDir jobId
  | serve => exact .serve
  | readArtifactDirs => exact .io (.untouched _)
  | removeArtifactDir artifactId => exact .io (.artifacts _ _)

end RunnerCall

end Janus.Runner
