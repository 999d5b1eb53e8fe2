import Janus.Concurrency.Play
import Janus.Runner.Admission

/-! `create_job` carried out with nothing beside it: when it gets to the set-up of a job, and what it
leaves behind. -/

namespace Janus.Runner

open Janus.Concurrency Janus.Data Janus.Server

variable {rt : Runtime} {n : ℕ} {name key : String} {body : Bytes} {inputs : BTreeMap Value}
variable {jobId : String} {store store' : RunnerStore} {o : Outcome} {os : List Outcome}

/-- What the set-up of a job keeps: `running_jobs`, the directories of other jobs, and what has been
handed to `tokio`. -/
structure SetupKept (jobId : String) (store store' : RunnerStore) : Prop where
  running : store'.runningJobs = store.runningJobs
  dirs : ∀ id, id ≠ jobId → store'.jobDirs.get id = store.jobDirs.get id
  spawned : store'.spawned = store.spawned

namespace SetupKept

lemma refl (jobId : String) (store : RunnerStore) : SetupKept jobId store store :=
  ⟨rfl, fun _ _ => rfl, rfl⟩

lemma trans {store'' : RunnerStore} (h : SetupKept jobId store store')
    (h' : SetupKept jobId store' store'') : SetupKept jobId store store'' :=
  ⟨h'.running.trans h.running, fun id hid => (h'.dirs id hid).trans (h.dirs id hid),
    h'.spawned.trans h.spawned⟩

lemma setDir (jobId : String) (store : RunnerStore) (dir : JobDir) :
    SetupKept jobId store (store.setDir jobId dir) :=
  ⟨rfl, fun _ hid => OrderedMap.get_insert_of_ne hid, rfl⟩

end SetupKept

lemma containsKey_setDir (dir : JobDir) : (store.setDir jobId dir).jobDirs.containsKey jobId = true :=
  OrderedMap.containsKey_iff.mpr ⟨dir, OrderedMap.get_insert_self⟩

lemma exec_createDirAll (rt : Runtime) (store : RunnerStore) (o : Outcome) (n : ℕ)
    (jobId sub : String) :
    (∃ error, o.fails.isSome = true ∧ (RunnerCall.createDirAll n jobId sub).exec rt o store =
        (.error error, if o.applied then store.setDir jobId (store.dir jobId) else store)) ∨
      (o.fails = none ∧ (RunnerCall.createDirAll n jobId sub).exec rt o store =
        (.ok (), store.setDir jobId (store.dir jobId))) := by
  simp only [RunnerCall.exec]
  cases hf : o.fails with
  | some source => exact .inl ⟨_, rfl, rfl⟩
  | none => exact .inr ⟨rfl, rfl⟩

section

variable {job : JobMetadata}

def SetupEnds (job : JobMetadata) (store : RunnerStore) (setup : List Outcome)
    (e : Played JobError Unit Outcome RunnerStore) : Prop :=
  SetupKept job.jobId store e.store ∧
    (e.result = none ∨
      ((∃ error, e.result = some (.error error)) ∧ (∃ o ∈ setup, o.fails.isSome = true) ∧
        (e.store.dir job.jobId).metadata = (store.dir job.jobId).metadata ∧
        e.store.jobDirs.containsKey job.jobId = true) ∨
      (e.result = some (.ok ()) ∧ (∀ o ∈ setup, o.fails = none) ∧
        (e.store.dir job.jobId).metadata = some job))

lemma SetupEnds.step {c : RunnerCall} {p : RunnerTask Unit} {next : RunnerStore} {k : ℕ}
    (hexec : ∀ o, (∃ error, o.fails.isSome = true ∧ ∃ s, c.exec rt o store = (.error error, s) ∧
        SetupKept job.jobId store s ∧ s.dir job.jobId = store.dir job.jobId ∧
        s.jobDirs.containsKey job.jobId = true) ∨
      (o.fails = none ∧ ∃ a, c.exec rt o store = (.ok a, next)))
    (hkept : SetupKept job.jobId store next)
    (hmeta : (next.dir job.jobId).metadata = (store.dir job.jobId).metadata)
    (hp : ∀ os, SetupEnds job next (os.take k) (p.play (RunnerCall.exec rt) os next)) :
    SetupEnds job store (os.take (k + 1))
      ((request c >>= fun _ => p).play (RunnerCall.exec rt) os store) := by
  refine Program.play_request ?_ ?_ ?_
  · intro _
    exact ⟨.refl _ _, .inl rfl⟩
  · rintro o os' m s' rfl hx
    rcases hexec o with ⟨error, hfails, s, hs, hskept, hsame, hsdir⟩ | ⟨hok, a, hs⟩
    · obtain ⟨-, rfl⟩ := Prod.mk.inj (hx.symm.trans hs)
      exact ⟨hskept, .inr (.inl ⟨⟨m, rfl⟩, ⟨o, List.mem_cons_self, hfails⟩,
        congrArg JobDir.metadata hsame, hsdir⟩)⟩
    · cases hx.symm.trans hs
  · rintro o os' x s' rfl hx
    rcases hexec o with ⟨error, hfails, s, hs, -⟩ | ⟨hok, a, hs⟩
    · cases hx.symm.trans hs
    · obtain ⟨-, rfl⟩ := Prod.mk.inj (hx.symm.trans hs)
      obtain ⟨hkept', hend⟩ := hp os'
      refine ⟨hkept.trans hkept', ?_⟩
      rcases hend with hnone | ⟨herror, ⟨o', ho', hfails⟩, hmeta', hdir'⟩ | ⟨hdone, hall, hwritten⟩
      · exact .inl hnone
      · exact .inr (.inl ⟨herror, ⟨o', List.mem_cons_of_mem _ ho', hfails⟩, hmeta'.trans hmeta,
          hdir'⟩)
      · refine .inr (.inr ⟨hdone, ?_, hwritten⟩)
        intro o' ho'
        rcases List.mem_cons.mp ho' with rfl | ho'
        · exact hok
        · exact hall o' ho'

lemma setupEnds_createDirAll {p : RunnerTask Unit} {k : ℕ} {sub : String}
    (hdir : store.jobDirs.containsKey job.jobId = true)
    (hp : ∀ s os, s.jobDirs.containsKey job.jobId = true →
      SetupEnds job s (os.take k) (p.play (RunnerCall.exec rt) os s)) :
    SetupEnds job store (os.take (k + 1))
      ((request (.createDirAll n job.jobId sub) >>= fun _ => p).play (RunnerCall.exec rt) os
        store) := by
  refine SetupEnds.step ?_
    (.setDir job.jobId store (store.dir job.jobId)) (congrArg JobDir.metadata (store.dir_setDir_self ..))
    fun os => hp _ os (containsKey_setDir _)
  intro o
  rcases exec_createDirAll rt store o n job.jobId sub with
    ⟨error, hfails, hexec⟩ | ⟨hok, hexec⟩
  · refine .inl ⟨error, hfails, _, hexec, ?_⟩
    split
    · exact ⟨.setDir _ _ _, store.dir_setDir_self .., containsKey_setDir _⟩
    · exact ⟨.refl _ _, rfl, hdir⟩
  · exact .inr ⟨hok, _, hexec⟩

lemma setupEnds_writeFile {p : RunnerTask Unit} {k : ℕ} {file : String}
    (hdir : store.jobDirs.containsKey job.jobId = true)
    (hp : ∀ os, SetupEnds job store (os.take k) (p.play (RunnerCall.exec rt) os store)) :
    SetupEnds job store (os.take (k + 1))
      ((request (.writeFile job.jobId file) >>= fun _ => p).play (RunnerCall.exec rt) os store) := by
  refine SetupEnds.step ?_ (.refl _ _) rfl hp
  intro o
  rcases exec_io rt (c := .writeFile job.jobId file) store o rfl with
    ⟨source, hfails, hexec⟩ | ⟨hok, hexec⟩
  · exact .inl ⟨_, by rw [hfails]; rfl, _, hexec, .refl _ _, rfl, hdir⟩
  · exact .inr ⟨hok, _, hexec⟩

lemma setupEnds_persistMetadata (hdir : store.jobDirs.containsKey job.jobId = true) :
    SetupEnds job store (os.take 1)
      ((request (.persistMetadata (.create n) job.jobId job)).play (RunnerCall.exec rt) os
        store) := by
  cases os with
  | nil => exact ⟨.refl _ _, .inl rfl⟩
  | cons o os =>
    rcases exec_io rt (c := .persistMetadata (.create n) job.jobId job) store o rfl with ⟨source, hfails, hexec⟩ | ⟨hok, hexec⟩
    · obtain ⟨hresult, -, hstore⟩ := Program.play_last hexec os
      refine ⟨?_, .inr (.inl ⟨⟨_, hresult⟩, ⟨o, List.mem_cons_self, ?_⟩, ?_, ?_⟩)⟩
      · exact (congrArg (SetupKept job.jobId store) hstore).mpr (.refl _ _)
      · rw [hfails]
        rfl
      · exact congrArg (fun s : RunnerStore => (s.dir job.jobId).metadata) hstore
      · exact (congrArg (fun s : RunnerStore => s.jobDirs.containsKey job.jobId) hstore).trans hdir
    · obtain ⟨hresult, -, hstore⟩ := Program.play_last hexec os
      refine ⟨?_, .inr (.inr ⟨hresult, ?_, ?_⟩)⟩
      · exact (congrArg (SetupKept job.jobId store) hstore).mpr (.setDir _ _ _)
      · intro o' ho'
        obtain rfl := List.mem_singleton.mp ho'
        exact hok
      · exact (congrArg (fun s : RunnerStore => (s.dir job.jobId).metadata) hstore).trans
          (congrArg JobDir.metadata (store.dir_setDir_self ..))

lemma setupJob_play (rt : Runtime) (n : ℕ) (job : JobMetadata) (os : List Outcome)
    (store : RunnerStore) :
    (SetupEnds job store (os.take 5) ((setupJob n job).play (RunnerCall.exec rt) os store) ∧
        ∀ o ∈ os.head?, o.fails.isSome = true → o.applied = true) ∨
      ((∃ error, ((setupJob n job).play (RunnerCall.exec rt) os store).result =
          some (.error error)) ∧
        ((setupJob n job).play (RunnerCall.exec rt) os store).store = store ∧
        ∃ o ∈ os.head?, o.fails.isSome = true ∧ o.applied = false) := by
  obtain ⟨p, hsetup, hp⟩ : ∃ p : RunnerTask Unit,
      setupJob n job = (request (.createDirAll n job.jobId "work") >>= fun _ => p) ∧
      ∀ s os, s.jobDirs.containsKey job.jobId = true →
        SetupEnds job s (os.take 4) (p.play (RunnerCall.exec rt) os s) :=
    ⟨_, rfl, fun _ _ hdir => setupEnds_createDirAll hdir fun _ _ hdir => setupEnds_writeFile hdir
      fun _ => setupEnds_writeFile hdir fun _ => setupEnds_persistMetadata hdir⟩
  rw [hsetup]
  have hmade : SetupKept job.jobId store (store.setDir job.jobId (store.dir job.jobId)) :=
    .setDir _ _ _
  cases os with
  | nil => exact .inl ⟨⟨.refl _ _, .inl rfl⟩, fun o ho => by cases ho⟩
  | cons o os =>
    rcases exec_createDirAll rt store o n job.jobId "work" with
      ⟨error, hfails, hexec⟩ | ⟨hok, hexec⟩
    · have hplay := Program.play_request_error (f := fun _ => p) hexec os
      cases ha : o.applied with
      | false =>
        rw [ha] at hplay
        refine .inr ⟨⟨error, congrArg Played.result hplay⟩, congrArg Played.store hplay, o, rfl,
          hfails, ha⟩
      | true =>
        rw [ha] at hplay
        rw [request, hplay]
        refine .inl ⟨⟨hmade, .inr (.inl ⟨⟨error, rfl⟩, ⟨o, List.mem_cons_self, hfails⟩,
          congrArg JobDir.metadata (store.dir_setDir_self ..), containsKey_setDir _⟩)⟩, ?_⟩
        intro o' ho' _
        obtain rfl := Option.some.inj ho'
        exact ha
    · rw [request, Program.play_request_ok hexec os]
      obtain ⟨hkept, hend⟩ := hp _ os (containsKey_setDir (store.dir job.jobId))
      have hhead : ∀ o' ∈ (o :: os).head?, o'.fails.isSome = true → o'.applied = true := by
        intro o' ho' hfails
        obtain rfl := Option.some.inj ho'
        rw [hok] at hfails
        cases hfails
      refine .inl ⟨⟨hmade.trans hkept, ?_⟩, hhead⟩
      rcases hend with hnone | ⟨herror, ⟨o', ho', hfails⟩, hmeta, hdir⟩ | ⟨hdone, hall, hwritten⟩
      · exact .inl hnone
      · exact .inr (.inl ⟨herror, ⟨o', List.mem_cons_of_mem _ ho', hfails⟩,
          hmeta.trans (congrArg JobDir.metadata (store.dir_setDir_self ..)), hdir⟩)
      · refine .inr (.inr ⟨hdone, ?_, hwritten⟩)
        intro o' ho'
        rcases List.mem_cons.mp ho' with rfl | ho'
        · exact hok
        · exact hall o' ho'

end

lemma exec_reading {c : RunnerCall} (h : c.Reading) (o : Outcome) (store : RunnerStore) :
    (c.exec rt o store).2 = store := by
  cases c with
  | loadArtifactMetadata artifactId => exact io_store (A := (· = store)) rfl (by split <;> rfl)
  | readMetadata jobId => exact io_store (A := (· = store)) rfl (by split <;> rfl)
  | isExpired metadata => rfl
  | _ => exact h.elim

lemma play_reading (rt : Runtime) {α : Type} {p : RunnerTask α} (hp : p.Only RunnerCall.Reading)
    (os : List Outcome) (store : RunnerStore) :
    (p.play (RunnerCall.exec rt) os store).store = store :=
  Program.play_only (A := (· = store)) (fun _ o s hc hs => (exec_reading hc o s).trans hs) hp rfl os

def runningMetadata (manifest : JobManifest) (inputs : BTreeMap Value) (identity : JobIdentity)
    (resolved : BTreeMap String) (startedAt : Timestamp) : JobMetadata :=
  { jobId := identity.jobId, name := manifest.name, idempotencyKey := identity.idempotencyKey
    requestHash := identity.requestHash, status := .running, startedAt
    inputs := redactSensitiveInputs manifest inputs, resolvedArtifacts := resolved }

def startedExecution (rt : Runtime) (n : ℕ) (manifest : JobManifest) (inputs : BTreeMap Value)
    (job : JobMetadata) : JobExecution where
  manifest := manifest
  jobId := job.jobId
  logLimitBytes := rt.config.defaultLogLimitMb * (1024 * 1024)
  metadata := job
  rawInputs := inputs
  channel := n

def setupAndSpawn (n : ℕ) (job : JobMetadata) (execution : JobExecution) : RunnerTask JobCreated := do
  let setupResult ← (setupJob n job).attempt
  match setupResult with
  | .error error => do
    request (.removeRunning job.jobId)
    fail error
  | .ok () => do
    request (.spawn n execution)
    pure ⟨job.jobId, .running, job.startedAt⟩

lemma startJob_eq (manifest : JobManifest) (identity : JobIdentity) (resolved : BTreeMap String) :
    startJob n manifest inputs (rt.config.defaultLogLimitMb * (1024 * 1024)) identity resolved =
      (request .now >>= fun now : Timestamp =>
        request (.insertRunning n manifest identity.jobId) >>= fun _ =>
          let job := runningMetadata manifest inputs identity resolved (now / 1000000000 * 1000000000)
          setupAndSpawn n job (startedExecution rt n manifest inputs job)) :=
  Program.bind_assoc (request RunnerCall.now)
    (fun now : Timestamp => pure (now / 1000000000 * 1000000000)) _

structure SetupFailed (job : JobMetadata) (store : RunnerStore) (setup : List Outcome)
    (store' : RunnerStore) : Prop where
  running : store'.runningJobs = store.runningJobs.remove job.jobId
  dirs : ∀ id, id ≠ job.jobId → store'.jobDirs.get id = store.jobDirs.get id
  failed : ∃ o ∈ setup.take 5, o.fails.isSome = true
  left : (store'.jobDirs.containsKey job.jobId = true ∧
      (store'.dir job.jobId).metadata = (store.dir job.jobId).metadata ∧
      ∀ o ∈ setup.head?, o.fails.isSome = true → o.applied = true) ∨
    (store'.jobDirs = store.jobDirs ∧ ∃ o ∈ setup.head?, o.fails.isSome = true ∧ o.applied = false)

structure SetupDone (job : JobMetadata) (execution : JobExecution) (store : RunnerStore)
    (setup : List Outcome) (store' : RunnerStore) : Prop where
  sound : ∀ o ∈ setup.take 5, o.fails = none
  metadata : (store'.dir job.jobId).metadata = some job
  spawned : store'.spawned = store.spawned ++ [execution]

def SetupEnded (job : JobMetadata) (execution : JobExecution) (store : RunnerStore)
    (setup : List Outcome) (e : Played JobError JobCreated Outcome RunnerStore) : Prop :=
  ∀ x, e.result = some x →
    ((∃ error, x = .error error) ∧ SetupFailed job store setup e.store) ∨
      ((∃ created, x = .ok created) ∧ SetupDone job execution store setup e.store)

lemma setupAndSpawn_play (job : JobMetadata) (execution : JobExecution) (os : List Outcome)
    (store : RunnerStore) : SetupEnded job execution store os
      ((setupAndSpawn n job execution).play (RunnerCall.exec rt) os store) := by
  have hplay := setupJob_play rt n job os store
  simp only [setupAndSpawn, Program.play_bind, Program.play_attempt, Played.andThen]
  generalize (setupJob n job).play (RunnerCall.exec rt) os store = e at hplay ⊢
  obtain ⟨result, answered, rest, s⟩ := e
  rcases result with _ | error | u
  · intro x h
    cases h
  · have hfailed : SetupFailed job store os { s with runningJobs := s.runningJobs.remove job.jobId } := by
      rcases hplay with ⟨⟨hkept, hnone | ⟨-, hfailed, hmeta, hdir⟩ | ⟨hdone, -⟩⟩, happlied⟩ |
        ⟨-, rfl, hhead⟩
      · cases hnone
      · exact ⟨congrArg (OrderedMap.remove · job.jobId) hkept.running, hkept.dirs, hfailed,
          .inl ⟨hdir, hmeta, happlied⟩⟩
      · cases hdone
      · refine ⟨rfl, fun _ _ => rfl, ?_, .inr ⟨rfl, hhead⟩⟩
        obtain ⟨o', ho', hfails, -⟩ := hhead
        cases os with
        | nil => cases ho'
        | cons o os =>
          obtain rfl := Option.some.inj ho'
          exact ⟨o, List.mem_cons_self, hfails⟩
    refine Program.play_request (P := SetupEnded job execution store os)
      (c := .removeRunning job.jobId) (f := fun _ => fail error) ?_ ?_ ?_
    · intro _ x h
      cases h
    · intro o os' m s' _ hexec
      cases hexec
    · intro o os' u s' _ hexec x h
      cases hexec
      rw [fail, Program.play_fail] at h ⊢
      cases h
      exact .inl ⟨⟨error, rfl⟩, hfailed⟩
  · have hdone : SetupDone job execution store os { s with spawned := s.spawned ++ [execution] } := by
      rcases hplay with ⟨⟨hkept, hnone | ⟨⟨error, herror⟩, -⟩ | ⟨-, hsound, hmeta⟩⟩, -⟩ |
        ⟨⟨error, herror⟩, -⟩
      · cases hnone
      · cases herror
      · exact ⟨hsound, hmeta, congrArg (· ++ [execution]) hkept.spawned⟩
      · cases herror
    refine Program.play_request (P := SetupEnded job execution store os)
      (c := RunnerCall.spawn n execution) (f := fun _ => pure ⟨job.jobId, .running, job.startedAt⟩) ?_ ?_ ?_
    · intro _ x h
      cases h
    · intro o os' m s' _ hexec
      cases hexec
    · intro o os' u s' _ hexec x h
      cases hexec
      rw [Program.play_pure] at h ⊢
      cases h
      exact .inr ⟨⟨_, rfl⟩, hdone⟩

lemma loadExisting_result {identity : JobIdentity} {x : Except JobError JobCreated}
    (h : ((loadExistingJobForRequest rt identity).play (RunnerCall.exec rt) os store).result = some x) :
    (∃ error, x = .error error) ∨ (store.dir identity.jobId).metadata.isSome = true := by
  cases hmeta : (store.dir identity.jobId).metadata with
  | some metadata => exact .inr rfl
  | none =>
    refine .inl ?_
    rw [loadExistingJobForRequest, Program.play_bind, Played.andThen] at h
    have hread : ∀ y, ((readMetadataFromPath rt identity.jobId).play (RunnerCall.exec rt) os
        store).result = some y → ∃ error, y = .error error := by
      refine Program.play_request (P := fun e => ∀ y, e.result = some y → ∃ error, y = .error error)
        (c := RunnerCall.readMetadata identity.jobId) ?_ ?_ ?_
      · intro _ y hy
        cases hy
      · intro o os' m s' _ _ y hy
        exact ⟨m, (Option.some.inj hy).symm⟩
      · intro o os' file s' _ hexec y hy
        simp only [RunnerCall.exec, Outcome.io, hmeta] at hexec
        split at hexec
        · cases hexec
        · obtain ⟨hfile, -⟩ := Prod.mk.inj hexec
          cases hfile
          refine ⟨.readFile (jobPath rt identity.jobId "metadata.json") "not found", ?_⟩
          have hfail : (fail (.readFile (jobPath rt identity.jobId "metadata.json") "not found") :
              RunnerTask JobMetadata).play (RunnerCall.exec rt) os' s' = _ := Program.play_fail os' _ s'
          exact Option.some.inj (hy.symm.trans (congrArg Played.result hfail))
    split at h
    · next metadata hok =>
      obtain ⟨error, herror⟩ := hread _ hok
      cases herror
    · exact ⟨_, (Option.some.inj h).symm⟩
    · cases h

/-- What `create_job` checks under its lock before it takes up a new job: this job of `manifest` then
has the outcomes `setup` for its set-up. -/
structure TakesUp (rt : Runtime) (name key : String) (inputs : BTreeMap Value) (os : List Outcome)
    (store : RunnerStore) (manifest : JobManifest) (resolved : BTreeMap String)
    (setup : List Outcome) : Prop where
  found : rt.manifests.get name = some manifest
  valid : ((validateInputs rt manifest inputs).play (RunnerCall.exec rt) os store).result =
    some (.ok resolved)
  logLimit : rt.config.defaultLogLimitMb * (1024 * 1024) < 2 ^ 64
  fresh : store.jobDirs.containsKey (jobIdForIdempotencyKey rt key) = false
  free : enforceConcurrency manifest store.runningJobs = .ok ()
  left : ((validateInputs rt manifest inputs).play (RunnerCall.exec rt) os store).rest.drop 3 = setup

def RunnerStore.withRunning (store : RunnerStore) (job : RunningJob) : RunnerStore :=
  { store with
    runningJobs := store.runningJobs.insert job.jobId job
    inserted := job.channel :: store.inserted }

def StartEnded (rt : Runtime) (manifest : JobManifest) (inputs : BTreeMap Value)
    (identity : JobIdentity) (resolved : BTreeMap String) (n : ℕ) (os : List Outcome)
    (store : RunnerStore) (e : Played JobError JobCreated Outcome RunnerStore) : Prop :=
  (∀ x, e.result = some x → e.store = store ∧ (∃ error, x = .error error) ∧
      enforceConcurrency manifest store.runningJobs ≠ .ok ()) ∨
    ∃ job startedAt, job = runningMetadata manifest inputs identity resolved startedAt ∧
      enforceConcurrency manifest store.runningJobs = .ok () ∧
      SetupEnded job (startedExecution rt n manifest inputs job)
        (store.withRunning ⟨identity.jobId, manifest.name, manifest.concurrency, n⟩) (os.drop 2) e

lemma startJob_play (rt : Runtime) (n : ℕ) (inputs : BTreeMap Value) (manifest : JobManifest)
    (identity : JobIdentity)
    (resolved : BTreeMap String) (os : List Outcome) (store : RunnerStore) :
    StartEnded rt manifest inputs identity resolved n os store
      ((startJob n manifest inputs (rt.config.defaultLogLimitMb * (1024 * 1024)) identity
        resolved).play (RunnerCall.exec rt) os store) := by
  rw [startJob_eq]
  refine Program.play_request (P := StartEnded rt manifest inputs identity resolved n os store)
    (c := RunnerCall.now) ?_ ?_ ?_
  · exact fun _ => .inl fun x h => by cases h
  · intro o os' m s' _ hexec
    cases hexec
  · rintro o os' now s' rfl hexec
    obtain ⟨-, rfl⟩ := Prod.mk.inj hexec
    refine Program.play_request (P := StartEnded rt manifest inputs identity resolved n (o :: os') store)
      (c := RunnerCall.insertRunning n manifest identity.jobId) ?_ ?_ ?_
    · exact fun _ => .inl fun x h => by cases h
    · rintro o' os'' m s' rfl hexec
      simp only [RunnerCall.exec] at hexec
      split at hexec
      · next error hrefused =>
        obtain ⟨-, rfl⟩ := Prod.mk.inj hexec
        refine .inl fun x hx => ⟨rfl, ⟨m, (Option.some.inj hx).symm⟩, ?_⟩
        rw [hrefused]
        exact fun h => by cases h
      · cases hexec
    · rintro o' os'' u s' rfl hexec
      simp only [RunnerCall.exec] at hexec
      split at hexec
      · cases hexec
      · next hfree =>
        obtain ⟨-, rfl⟩ := Prod.mk.inj hexec
        exact .inr ⟨_, _, rfl, hfree, setupAndSpawn_play _ _ os'' _⟩

def CreateEnded (rt : Runtime) (n : ℕ) (name key : String) (body : Bytes) (inputs : BTreeMap Value)
    (os : List Outcome) (store : RunnerStore)
    (e : Played JobError JobCreated Outcome RunnerStore) : Prop :=
  (∀ x, e.result = some x → e.store = store ∧
      ((∃ error, x = .error error) ∨
        (store.dir (jobIdForIdempotencyKey rt key)).metadata.isSome = true) ∧
      ∀ manifest resolved setup, ¬TakesUp rt name key inputs os store manifest resolved setup) ∨
    ∃ manifest resolved setup job startedAt,
      job = runningMetadata manifest inputs (requestIdentity rt name key body) resolved startedAt ∧
        TakesUp rt name key inputs os store manifest resolved setup ∧
        SetupEnded job (startedExecution rt n manifest inputs job)
          (store.withRunning ⟨jobIdForIdempotencyKey rt key, manifest.name, manifest.concurrency, n⟩)
          setup e

section

variable {rt : Runtime} {n : ℕ} {name key : String} {body : Bytes} {inputs : BTreeMap Value}
variable {os : List Outcome} {store : RunnerStore} {manifest manifest' : JobManifest}
variable {resolved : BTreeMap String} {setup : List Outcome}
variable {e : Played JobError JobCreated Outcome RunnerStore}

lemma TakesUp.manifest_eq (h : TakesUp rt name key inputs os store manifest' resolved setup)
    (hfound : rt.manifests.get name = some manifest) : manifest' = manifest :=
  Option.some.inj (h.found.symm.trans hfound)

lemma CreateEnded.of_error {error : JobError} (hresult : e.result = some (.error error))
    (hstore : e.store = store)
    (hno : ∀ manifest resolved setup,
      ¬TakesUp rt name key inputs os store manifest resolved setup) :
    CreateEnded rt n name key body inputs os store e :=
  .inl fun _ hx => ⟨hstore, .inl ⟨error, Option.some.inj (hx.symm.trans hresult)⟩, hno⟩

/-! What is left of `create_job` once it has validated the inputs, and once it has looked for the
directory of the job. -/

variable (body) in
lemma createFresh_play {o : Outcome} {os₁ : List Outcome}
    (hfound : rt.manifests.get name = some manifest)
    (hvalid : ((validateInputs rt manifest inputs).play (RunnerCall.exec rt) os store).result =
      some (.ok resolved))
    (hlimit : rt.config.defaultLogLimitMb * (1024 * 1024) < 2 ^ 64)
    (hrest : ((validateInputs rt manifest inputs).play (RunnerCall.exec rt) os store).rest =
      o :: os₁) :
    CreateEnded rt n name key body inputs os store
      ((if store.jobDirs.containsKey (jobIdForIdempotencyKey rt key) = true then
          loadExistingJobForRequest rt (requestIdentity rt name key body)
        else startJob n manifest inputs (rt.config.defaultLogLimitMb * (1024 * 1024))
          (requestIdentity rt name key body) resolved).play (RunnerCall.exec rt) os₁ store) := by
  split
  · next hexists =>
    refine .inl fun x hx => ⟨play_reading rt (loadExistingJobForRequest_only _) os₁ store,
      loadExisting_result hx, ?_⟩
    intro manifest' resolved' setup h
    cases hexists.symm.trans h.fresh
  · next hfresh =>
    rcases startJob_play rt n inputs manifest (requestIdentity rt name key body) resolved os₁ store with
      hrefused | ⟨job, startedAt, hjob, hfree, hend⟩
    · refine .inl fun x hx => ?_
      obtain ⟨hstore, herror, hbusy⟩ := hrefused x hx
      refine ⟨hstore, .inl herror, fun manifest' resolved' setup h => ?_⟩
      obtain rfl := h.manifest_eq hfound
      exact hbusy h.free
    · have hleft : ((validateInputs rt manifest inputs).play (RunnerCall.exec rt) os store).rest.drop 3 =
          os₁.drop 2 := by rw [hrest, List.drop_succ_cons]
      exact .inr ⟨manifest, resolved, os₁.drop 2, job, startedAt, hjob,
        ⟨hfound, hvalid, hlimit, Bool.eq_false_iff.mpr hfresh, hfree, hleft⟩, hend⟩

lemma createChecked_play (hfound : rt.manifests.get name = some manifest)
    (hvalid : ((validateInputs rt manifest inputs).play (RunnerCall.exec rt) os store).result =
      some (.ok resolved)) :
    CreateEnded rt n name key body inputs os store
      ((if rt.config.defaultLogLimitMb * (1024 * 1024) ≥ 2 ^ 64 then
          fail (.invalidLogLimit rt.config.defaultLogLimitMb)
        else request (.jobDirExists (jobIdForIdempotencyKey rt key)) >>= fun dirExists : Bool =>
          if dirExists then loadExistingJobForRequest rt (requestIdentity rt name key body)
          else startJob n manifest inputs (rt.config.defaultLogLimitMb * (1024 * 1024))
            (requestIdentity rt name key body) resolved).play (RunnerCall.exec rt)
        ((validateInputs rt manifest inputs).play (RunnerCall.exec rt) os store).rest store) := by
  split
  · next hlimit =>
    rw [fail, Program.play_fail]
    exact .of_error rfl rfl fun _ _ _ h => absurd h.logLimit (not_lt.mpr hlimit)
  · next hlimit =>
    refine Program.play_request (P := CreateEnded rt n name key body inputs os store)
      (c := RunnerCall.jobDirExists (jobIdForIdempotencyKey rt key)) ?_ ?_ ?_
    · exact fun _ => .inl fun x h => by cases h
    · intro o os' m s' _ hexec
      cases hexec
    · intro o os₁ dirExists s' hos hexec
      obtain ⟨hdir, rfl⟩ := Prod.mk.inj hexec
      obtain rfl := Except.ok.inj hdir
      exact createFresh_play body hfound hvalid (not_le.mp hlimit) hos

end

lemma createLocked_play (rt : Runtime) (n : ℕ) (name key : String) (body : Bytes)
    (inputs : BTreeMap Value) (os : List Outcome) (store : RunnerStore) :
    CreateEnded rt n name key body inputs os store
      ((createLocked rt n name key body inputs).play (RunnerCall.exec rt) os store) := by
  rw [createLocked]
  cases hfound : rt.manifests.get name with
  | none =>
    dsimp only
    rw [fail, Program.play_fail]
    refine .of_error rfl rfl fun manifest resolved setup h => ?_
    cases hfound.symm.trans h.found
  | some manifest =>
    have hread := play_reading rt (validateInputs_only rt manifest inputs) os store
    dsimp only
    rw [Program.play_bind, Played.andThen]
    cases hvalid : ((validateInputs rt manifest inputs).play (RunnerCall.exec rt) os store).result with
    | none => exact .inl fun x h => by cases h
    | some checked =>
      cases checked with
      | error error =>
        refine .of_error rfl hread fun manifest' resolved setup h => ?_
        obtain rfl := h.manifest_eq hfound
        cases hvalid.symm.trans h.valid
      | ok resolved =>
        rw [hread]
        exact createChecked_play hfound hvalid

/-- `create_job` gets to the set-up of a new job of `manifest`, which then has the outcomes `setup`. -/
structure Admitted (rt : Runtime) (n : ℕ) (name key : String) (inputs : BTreeMap Value)
    (os : List Outcome) (store : RunnerStore) (manifest : JobManifest) (resolved : BTreeMap String)
    (setup : List Outcome) : Prop where
  serving : store.shuttingDown = false
  keyed : validateIdempotencyKey key = .ok ()
  accepted : TakesUp rt name key inputs (os.drop 2) { store with createLock := some n } manifest
    resolved setup

def CreateReturned (rt : Runtime) (n : ℕ) (name key : String) (body : Bytes)
    (inputs : BTreeMap Value) (os : List Outcome) (store : RunnerStore)
    (e : Played JobError JobCreated Outcome RunnerStore) : Prop :=
  (∀ x, e.result = some x →
      (e.store.runningJobs = store.runningJobs ∧ e.store.jobDirs = store.jobDirs) ∧
      ((∃ error, x = .error error) ∨
        (store.dir (jobIdForIdempotencyKey rt key)).metadata.isSome = true) ∧
      ∀ manifest resolved setup, ¬Admitted rt n name key inputs os store manifest resolved setup) ∨
    ∃ manifest resolved setup job startedAt,
      job = runningMetadata manifest inputs (requestIdentity rt name key body) resolved startedAt ∧
        Admitted rt n name key inputs os store manifest resolved setup ∧
        SetupEnded job (startedExecution rt n manifest inputs job)
          (store.withRunning ⟨jobIdForIdempotencyKey rt key, manifest.name, manifest.concurrency, n⟩)
          setup e

lemma createJob_play (rt : Runtime) (n : ℕ) (name key : String) (body : Bytes)
    (inputs : BTreeMap Value) (os : List Outcome) (store : RunnerStore) :
    CreateReturned rt n name key body inputs os store
      ((createJob rt n name key body inputs).play (RunnerCall.exec rt) os store) := by
  refine Program.play_request (P := CreateReturned rt n name key body inputs os store)
    (c := RunnerCall.loadShuttingDown) ?_ ?_ ?_
  · exact fun _ => .inl fun x h => by cases h
  · intro o os' m s' _ hexec
    cases hexec
  · rintro o os' shuttingDown s' rfl hexec
    obtain ⟨hdown, rfl⟩ := Prod.mk.inj hexec
    obtain rfl := Except.ok.inj hdown
    suffices hend : CreateReturned rt n name key body inputs (o :: os') store
        ((if store.shuttingDown = true then fail .shuttingDown
          else .done (validateIdempotencyKey key) >>= fun _ => request (.lockCreate n) >>= fun _ =>
            (createLocked rt n name key body inputs).attempt >>= fun result =>
              request (.unlockCreate n) >>= fun _ => .done result).play (RunnerCall.exec rt) os'
          store) from hend
    split
    · next hdown =>
      rw [fail, Program.play_fail]
      refine .inl fun x hx => ⟨⟨rfl, rfl⟩, .inl ⟨_, (Option.some.inj hx).symm⟩, ?_⟩
      intro manifest resolved setup h
      cases hdown.symm.trans h.serving
    · next hserving =>
      cases hkey : validateIdempotencyKey key with
      | error error =>
        rw [Program.fail_bind, Program.play_done]
        refine .inl fun x hx => ⟨⟨rfl, rfl⟩, .inl ⟨error, (Option.some.inj hx).symm⟩, ?_⟩
        intro manifest resolved setup h
        cases hkey.symm.trans h.keyed
      | ok u =>
        rw [Program.done_bind]
        refine Program.play_request (P := CreateReturned rt n name key body inputs (o :: os') store)
          (c := RunnerCall.lockCreate n) ?_ ?_ ?_
        · exact fun _ => .inl fun x h => by cases h
        · intro o' os'' m s' _ hexec
          cases hexec
        · rintro o' os'' u s' rfl hexec
          obtain ⟨-, rfl⟩ := Prod.mk.inj hexec
          have hlocked := createLocked_play rt n name key body inputs os'' { store with createLock := some n }
          rw [Program.play_bind, Program.play_attempt, Played.andThen]
          generalize (createLocked rt n name key body inputs).play (RunnerCall.exec rt) os''
            { store with createLock := some n } = e at hlocked ⊢
          obtain ⟨result, answered, rest, s⟩ := e
          cases result with
          | none => exact .inl fun x h => by cases h
          | some y =>
            refine Program.play_request (P := CreateReturned rt n name key body inputs
              (o :: o' :: os'') store) (c := RunnerCall.unlockCreate n) (f := fun _ => .done y) ?_ ?_ ?_
            · exact fun _ => .inl fun x h => by cases h
            · intro o os' m s' _ hexec
              cases hexec
            · intro o os' u s' _ hexec
              obtain ⟨-, rfl⟩ := Prod.mk.inj hexec
              rw [Program.play_done]
              rcases hlocked with hrefused | ⟨manifest, resolved, setup, job, startedAt, hjob, hacc, hend⟩
              · obtain ⟨rfl, herror, hno⟩ := hrefused y rfl
                refine .inl fun x hx => ?_
                obtain rfl : y = x := Option.some.inj hx
                exact ⟨⟨rfl, rfl⟩, herror, fun manifest resolved setup h =>
                  hno manifest resolved setup h.accepted⟩
              · refine .inr ⟨manifest, resolved, setup, job, startedAt, hjob,
                  ⟨Bool.eq_false_iff.mpr hserving, hkey, hacc⟩, fun x hx => ?_⟩
                obtain rfl : y = x := Option.some.inj hx
                rcases hend y rfl with ⟨herror, h⟩ | ⟨hok, h⟩
                · exact .inl ⟨herror, h.running, h.dirs, h.failed, h.left⟩
                · exact .inr ⟨hok, h.sound, h.metadata, h.spawned⟩

lemma Admitted.setup_unique {manifest manifest' : JobManifest} {resolved resolved' : BTreeMap String}
    {setup setup' : List Outcome} (h : Admitted rt n name key inputs os store manifest resolved setup)
    (h' : Admitted rt n name key inputs os store manifest' resolved' setup') : setup = setup' := by
  obtain rfl : manifest = manifest' := Option.some.inj (h.accepted.found.symm.trans h'.accepted.found)
  exact h.accepted.left.symm.trans h'.accepted.left

def Restartable (rt : Runtime) (key : String) (store : RunnerStore) : Prop :=
  ∀ n name body inputs os created,
    ((createJob rt n name key body inputs).play (RunnerCall.exec rt) os store).result =
        some (.ok created) →
      ∃ execution, execution.jobId = jobIdForIdempotencyKey rt key ∧
        ((createJob rt n name key body inputs).play (RunnerCall.exec rt) os store).store.spawned =
          store.spawned ++ [execution]

/-- `running_jobs` and the directories of the jobs are what they were. -/
structure Undone (rt : Runtime) (key : String) (store store' : RunnerStore) : Prop where
  running : ∀ id, store'.runningJobs.get id = store.runningJobs.get id
  dirs : ∀ id, store'.jobDirs.containsKey id = store.jobDirs.containsKey id
  restartable : store.jobDirs.containsKey (jobIdForIdempotencyKey rt key) = false →
    Restartable rt key store'

def SetupLeavesTrace (rt : Runtime) (n : ℕ) (name key : String) (inputs : BTreeMap Value)
    (os : List Outcome) (store : RunnerStore) : Prop :=
  ∃ manifest resolved setup, Admitted rt n name key inputs os store manifest resolved setup ∧
    (∃ o ∈ setup.take 5, o.fails.isSome = true) ∧
    ∀ o ∈ setup.head?, o.fails.isSome = true → o.applied = true ∨
      (store.runningJobs.get (jobIdForIdempotencyKey rt key)).isSome = true

lemma metadata_of_absent {id : String} (h : store.jobDirs.containsKey id = false) :
    (store.dir id).metadata = none := by
  rw [OrderedMap.containsKey_eq_isSome, Option.isSome_eq_false_iff, Option.isNone_iff_eq_none] at h
  rw [RunnerStore.dir, h]
  rfl

lemma restartable_of_absent
    (h : (store.dir (jobIdForIdempotencyKey rt key)).metadata = none) : Restartable rt key store := by
  intro n name body inputs os created hcreated
  rcases createJob_play rt n name key body inputs os store with
    hrefused | ⟨manifest, resolved, setup, job, startedAt, hjob, hadm, hend⟩
  · obtain ⟨-, ⟨error, herror⟩ | hmeta, -⟩ := hrefused _ hcreated
    · cases herror
    · rw [h] at hmeta
      cases hmeta
  · rcases hend _ hcreated with ⟨⟨error, herror⟩, -⟩ | ⟨-, hdone⟩
    · cases herror
    · refine ⟨_, ?_, hdone.spawned⟩
      rw [hjob]
      rfl

/-- A refused request leaves no trace, unless it is refused by the set-up of its job after that has
made the directory. -/
theorem refused_create_undone_iff {x : Except JobError JobCreated}
    (hreturns : ((createJob rt n name key body inputs).play (RunnerCall.exec rt) os store).result =
      some x) :
    (∀ error, x = .error error → Undone rt key store
        ((createJob rt n name key body inputs).play (RunnerCall.exec rt) os store).store) ↔
      ¬SetupLeavesTrace rt n name key inputs os store := by
  have hplay := createJob_play rt n name key body inputs os store
  generalize (createJob rt n name key body inputs).play (RunnerCall.exec rt) os store = e
    at hplay hreturns ⊢
  rcases hplay with hrefused | ⟨manifest, resolved, setup, job, startedAt, hjob, hadm, hend⟩
  · obtain ⟨⟨hrunning, hdirs⟩, -, hno⟩ := hrefused x hreturns
    refine iff_of_true (fun error _ => ?_) ?_
    · refine ⟨fun id => by rw [hrunning], fun id => by rw [hdirs], fun habsent => ?_⟩
      refine restartable_of_absent (metadata_of_absent ?_)
      rw [hdirs, habsent]
    · rintro ⟨manifest, resolved, setup, hadm, -⟩
      exact hno manifest resolved setup hadm
  · have hid : job.jobId = jobIdForIdempotencyKey rt key := by
      rw [hjob]
      rfl
    have htrace : SetupLeavesTrace rt n name key inputs os store ↔
        (∃ o ∈ setup.take 5, o.fails.isSome = true) ∧ ∀ o ∈ setup.head?, o.fails.isSome = true →
          o.applied = true ∨
            (store.runningJobs.get (jobIdForIdempotencyKey rt key)).isSome = true := by
      constructor
      · rintro ⟨manifest', resolved', setup', hadm', h⟩
        rwa [hadm.setup_unique hadm']
      · exact fun h => ⟨manifest, resolved, setup, hadm, h⟩
    rw [htrace]
    rcases hend x hreturns with ⟨⟨error, rfl⟩, hfailed⟩ | ⟨⟨created, rfl⟩, hdone⟩
    · have hgone : e.store.runningJobs.get (jobIdForIdempotencyKey rt key) = none := by
        rw [hfailed.running, hid, OrderedMap.get_remove_self]
      constructor
      · rintro hundone ⟨-, hhead⟩
        have hundone := hundone error rfl
        rcases hfailed.left with ⟨hdir, -, -⟩ | ⟨-, o, ho, hfails, hunapplied⟩
        · rw [hid, hundone.dirs] at hdir
          cases hdir.symm.trans hadm.accepted.fresh
        · rcases hhead o ho hfails with happlied | hrunning
          · cases happlied.symm.trans hunapplied
          · rw [← hundone.running, hgone] at hrunning
            cases hrunning
      · intro hno error' _
        rcases hfailed.left with ⟨-, -, happlied⟩ | ⟨hdirs, -⟩
        · exact (hno ⟨hfailed.failed, fun o ho hfails => .inl (happlied o ho hfails)⟩).elim
        · refine ⟨fun id => ?_, fun id => by rw [hdirs]; rfl, fun habsent => ?_⟩
          · by_cases hsame : id = jobIdForIdempotencyKey rt key
            · rw [hsame, hgone]
              cases hbefore : store.runningJobs.get (jobIdForIdempotencyKey rt key) with
              | none => rfl
              | some job =>
                refine (hno ⟨hfailed.failed, fun o ho hfails => .inr ?_⟩).elim
                rw [hbefore]
                rfl
            · rw [hfailed.running, hid, OrderedMap.get_remove_of_ne hsame, RunnerStore.withRunning,
                OrderedMap.get_insert_of_ne hsame]
          · refine restartable_of_absent (metadata_of_absent ?_)
            rw [hdirs]
            exact habsent
    · refine iff_of_true (fun error h => by cases h) ?_
      rintro ⟨⟨o, ho, hfails⟩, -⟩
      rw [hdone.sound o ho] at hfails
      cases hfails

lemma refused_of_half_created {x : Except JobError JobCreated}
    (hdir : store.jobDirs.containsKey (jobIdForIdempotencyKey rt key) = true)
    (hmeta : (store.dir (jobIdForIdempotencyKey rt key)).metadata = none)
    (h : ((createJob rt n name key body inputs).play (RunnerCall.exec rt) os store).result =
      some x) : ∃ error, x = .error error := by
  rcases createJob_play rt n name key body inputs os store with
    hrefused | ⟨manifest, resolved, setup, job, startedAt, hjob, hadm, hend⟩
  · obtain ⟨-, herror | hsome, -⟩ := hrefused x h
    · exact herror
    · rw [hmeta] at hsome
      cases hsome
  · cases hdir.symm.trans hadm.accepted.fresh

theorem key_blocked_of_trace {x : Except JobError JobCreated}
    (hreturns : ((createJob rt n name key body inputs).play (RunnerCall.exec rt) os store).result =
      some x) (htrace : SetupLeavesTrace rt n name key inputs os store)
    (hidle : store.runningJobs.get (jobIdForIdempotencyKey rt key) = none)
    (n' : ℕ) (name' : String) (body' : Bytes) (inputs' : BTreeMap Value) (os' : List Outcome)
    {y : Except JobError JobCreated}
    (hlater : ((createJob rt n' name' key body' inputs').play (RunnerCall.exec rt) os'
      ((createJob rt n name key body inputs).play (RunnerCall.exec rt) os store).store).result =
        some y) : ∃ error, y = .error error := by
  obtain ⟨manifest', resolved', setup', hadm', ⟨o, ho, hfails⟩, hhead⟩ := htrace
  have hplay := createJob_play rt n name key body inputs os store
  generalize (createJob rt n name key body inputs).play (RunnerCall.exec rt) os store = e
    at hplay hreturns hlater
  rcases hplay with hrefused | ⟨manifest, resolved, setup, job, startedAt, hjob, hadm, hend⟩
  · obtain ⟨-, -, hno⟩ := hrefused x hreturns
    exact (hno manifest' resolved' setup' hadm').elim
  · obtain rfl := hadm.setup_unique hadm'
    have hid : job.jobId = jobIdForIdempotencyKey rt key := by
      rw [hjob]
      rfl
    rcases hend x hreturns with ⟨-, hfailed⟩ | ⟨-, hdone⟩
    · rcases hfailed.left with ⟨hdir, hmeta, -⟩ | ⟨-, o', ho', hfails', hunapplied⟩
      · rw [hid] at hdir hmeta
        exact refused_of_half_created hdir (hmeta.trans (metadata_of_absent hadm.accepted.fresh)) hlater
      · rcases hhead o' ho' hfails' with happlied | hrunning
        · cases happlied.symm.trans hunapplied
        · rw [hidle] at hrunning
          cases hrunning
    · rw [hdone.sound o ho] at hfails
      cases hfails

def fullDisk (made : ℕ) : List Outcome :=
  List.replicate (5 + made) ({} : Outcome) ++
    { fails := some "No space left on device" } :: List.replicate 2 ({} : Outcome)

def servingStore : RunnerStore := { serving := true }

def refusedCreate (made : ℕ) : Played JobError JobCreated Outcome RunnerStore :=
  (createJob sampleRuntime 0 "deploy" "a" emptyBody .empty).play (RunnerCall.exec sampleRuntime)
    (fullDisk made) servingStore

theorem refused_create_undone_first :
    (∀ error, Except.error (.createDir (jobPath sampleRuntime
          (jobIdForIdempotencyKey sampleRuntime "a") "work") "No space left on device") =
        (.error error : Except JobError JobCreated) →
      Undone sampleRuntime "a" servingStore (refusedCreate 0).store) ↔
      ¬SetupLeavesTrace sampleRuntime 0 "deploy" "a" .empty (fullDisk 0) servingStore :=
  refused_create_undone_iff (by rfl)

theorem refused_create_leaves_directory :
    (∃ error, (refusedCreate 1).result = some (.error error)) ∧
      (refusedCreate 1).store.jobDirs.containsKey (jobIdForIdempotencyKey sampleRuntime "a") = true ∧
      ¬Undone sampleRuntime "a" servingStore (refusedCreate 1).store ∧
      ((createJob sampleRuntime 1 "deploy" "a" emptyBody .empty).play (RunnerCall.exec sampleRuntime)
        (List.replicate 20 {}) (refusedCreate 1).store).result.map Except.toOption = some none := by
  have hleft : (refusedCreate 1).store.jobDirs.containsKey
      (jobIdForIdempotencyKey sampleRuntime "a") = true := by decide +kernel
  refine ⟨⟨.createDir (jobPath sampleRuntime (jobIdForIdempotencyKey sampleRuntime "a") "output")
    "No space left on device", by rfl⟩, hleft, fun h => ?_, by decide +kernel⟩
  rw [h.dirs] at hleft
  cases hleft

end Janus.Runner
