import Mathlib.Data.Nat.Find
import Janus.Concurrency.Triple
import Janus.Runner.Recovery

/-! Whether a job that was started gives back its place among `running_jobs`: the loop that watches
its process, its deadline, and the end of the run after it. -/

namespace Janus.Runner

open Janus.Concurrency Janus.Data Janus.Server

inductive Selected
  | canceled
  | logLimit (streamName message : String)
  | slept

/-- One round of the loop: the clock, the branch that was taken, and what `try_wait` finds, which is
the code of the process once it has exited. Where the process has to be terminated instead, whether
it could be signaled, and the clock then. -/
structure Look where
  now : Instant
  selected : Selected
  status : Except String (Option (Option ℤ))
  signaled : Bool
  terminated : Instant

/-- The course of a process. The capture of a stream ends when no process holds it open any longer,
or never. -/
structure Course where
  spawned : Except String Unit
  started : Instant
  looks : ℕ → Look
  stdout : Option (Except JobError Unit)
  stderr : Option (Except JobError Unit)
  passes : ∀ n, (looks n).now + 25000000 ≤ (looks (n + 1)).now

def cancelGracePeriodSeconds : ℕ := 2

/-- `terminate_job` computes a deadline of its own. -/
def terminateJob (look : Look) : Option Unit :=
  if look.signaled then (look.terminated.addSeconds cancelGracePeriodSeconds).map fun _ => ()
  else some ()

section

variable (course : Course)

def awaitCaptures (code : Option ℤ) : Option (Except JobError Ended) :=
  match course.stdout with
  | none => none
  | some (.error error) => some (.error error)
  | some (.ok ()) =>
    match course.stderr with
    | none => none
    | some (.error error) => some (.error error)
    | some (.ok ()) => some (.ok (.exited code))

def watchLoop (script : String) (deadline : Instant) : (fuel n : ℕ) → Option (Except JobError Ended)
  | 0, _ => none
  | fuel + 1, n =>
    let look := course.looks n
    if deadline ≤ look.now then (terminateJob look).map fun _ => .ok .timedOut
    else match look.selected with
      | .canceled => (terminateJob look).map fun _ => .ok .canceled
      | .logLimit streamName message =>
        (terminateJob look).map fun _ => .ok (.logLimit streamName message)
      | .slept =>
        match look.status with
        | .error source => some (.error (.waitProcess script source))
        | .ok (some code) => awaitCaptures course code
        | .ok none => watchLoop script deadline fuel (n + 1)

def executeProcess (manifest : JobManifest) (fuel : ℕ) : Option (Except JobError Ended) :=
  match course.spawned with
  | .error source => some (.error (.spawnProcess manifest.script source))
  | .ok () =>
    (course.started.addSeconds manifest.timeoutSeconds).bind fun deadline =>
      watchLoop course manifest.script deadline fuel 0

end

def afterProcess (rt : Runtime) (m : ℕ) (execution : JobExecution) (outcome : Except JobError Ended) :
    RunnerTask Unit := do
  let outcome ← (match outcome with
    | .error error => fail error
    | .ok .canceled => do
      let _ ← (transitionMetadataStatus rt (.canceling m) execution.jobId none .canceling).attempt
      pure Ended.canceled.outcome
    | .ok ended => pure ended.outcome : RunnerTask ExecutionOutcome).attempt
  finishJob rt m execution outcome

section

variable (rt : Runtime) (m : ℕ) {execution : JobExecution}

def TerminalPersisted (m : ℕ) (jobId : String) (s : RunnerStore × RunnerLog) : Prop :=
  ∃ metadata written, metadata.status.isTerminal = true ∧
    (.persistMetadata (.finish m) jobId metadata, written) ∈ s.2 ∧
    (written = true → (s.1.dir jobId).metadata = some metadata)

abbrev Ends {α : Type} (rt : Runtime) (A : RunnerStore × RunnerLog → Prop) (p : RunnerTask α)
    (B : RunnerStore × RunnerLog → Prop) : Prop :=
  Triple (Program.logged (RunnerCall.exec rt)) A p (fun _ => B) fun _ _ => False

variable {rt m} {A B : RunnerStore × RunnerLog → Prop}

lemma TerminalPersisted.kept {c : RunnerCall} {o : Outcome} {s s' : RunnerStore × RunnerLog}
    {x : Except JobError c.Result} {jobId : String} (h : TerminalPersisted m jobId s)
    (hdir : (c.exec rt o s.1).2.dir jobId = s.1.dir jobId)
    (hexec : Program.logged (RunnerCall.exec rt) c o s = (x, s')) : TerminalPersisted m jobId s' := by
  obtain ⟨-, rfl⟩ := Prod.mk.inj hexec
  obtain ⟨metadata, written, hterminal, hlog, hwritten⟩ := h
  refine ⟨metadata, written, hterminal, List.mem_cons_of_mem _ hlog, fun hw => ?_⟩
  exact (congrArg JobDir.metadata hdir).trans (hwritten hw)

lemma ends_request {c : RunnerCall} (hc : ∀ o s, ∃ a, (c.exec rt o s).1 = .ok a)
    (hkeeps : ∀ o s x s', A s → Program.logged (RunnerCall.exec rt) c o s = (x, s') → B s') :
    Ends rt A (request c) B := by
  refine Triple.request (fun o s a s' hs hexec => hkeeps o s _ s' hs hexec) ?_
  intro o s source s' _ hexec
  obtain ⟨a, ha⟩ := hc o s.1
  have hfails : (c.exec rt o s.1).1 = .error source := congrArg Prod.fst hexec
  cases ha.symm.trans hfails

lemma ends_attempt {c : RunnerCall}
    (hkeeps : ∀ o s x s', A s → Program.logged (RunnerCall.exec rt) c o s = (x, s') → B s') :
    Ends rt A (request c).attempt B :=
  Triple.attempt (Triple.request (fun o s _ s' hs hexec => hkeeps o s _ s' hs hexec)
    fun o s _ s' hs hexec => hkeeps o s _ s' hs hexec)

lemma ends_persist {jobId : String} {metadata : JobMetadata}
    (hterminal : metadata.status.isTerminal = true) :
    Ends rt A (request (.persistMetadata (.finish m) jobId metadata)).attempt
      (TerminalPersisted m jobId) := by
  refine ends_attempt fun o s x s' _ hexec => ?_
  obtain ⟨-, rfl⟩ := Prod.mk.inj hexec
  refine ⟨metadata, _, hterminal, List.mem_cons_self, fun hwritten => ?_⟩
  simp only [RunnerCall.exec, Outcome.io] at hwritten ⊢
  cases hfails : o.fails with
  | some source =>
    rw [hfails] at hwritten
    cases hwritten
  | none => exact (RunnerStore.metadata_persist ..).trans (if_pos rfl)

lemma ends_ignoring {α : Type} (p : RunnerTask α) : Ends rt A p.attempt fun _ => True := by
  apply Triple.attempt
  intro os s _
  unfold Played.Ends
  split <;> trivial

lemma ends_fileSize (jobId file : String) :
    Ends rt A (request (.fileSize jobId file)) fun _ => True :=
  ends_request (c := .fileSize jobId file) (fun o _ => ⟨o.size, rfl⟩) fun _ _ _ _ _ _ => trivial

lemma ends_buildOutputMetadata (jobId : String) (stdoutTruncated stderrTruncated : Bool)
    (outputs : BTreeMap JobOutput) :
    Ends rt A (buildOutputMetadata jobId stdoutTruncated stderrTruncated outputs) fun _ => True := by
  apply Triple.bind (ends_fileSize jobId "stdout.log")
  intro stdout
  apply Triple.bind (ends_fileSize jobId "stderr.log")
  intro stderr
  exact Triple.pure fun _ h => h

lemma ends_registerOutputs (jobId : String) (specs : List (String × OutputSpec))
    (outputs : BTreeMap JobOutput) :
    Ends rt A (registerOutputs rt jobId outputs specs) fun _ => True := by
  induction specs generalizing outputs A with
  | nil => exact Triple.pure fun _ _ => trivial
  | cons entry specs ih =>
    obtain ⟨name, spec⟩ := entry
    apply Triple.bind (ends_ignoring (registerOutput rt jobId name spec outputs))
    rintro (error | outputs')
    · exact Triple.pure fun _ h => h
    · exact ih outputs'

lemma isTerminal_outcome (ended : Ended) : ended.outcome.status.isTerminal = true := by
  cases ended with
  | exited code =>
    by_cases h : code = some 0
    · rw [Ended.outcome, if_pos h]
      rfl
    · rw [Ended.outcome, if_neg h]
      rfl
  | timedOut => rfl
  | canceled => rfl
  | logLimit streamName message => rfl

lemma ends_cleanup {c : RunnerCall} {jobId : String}
    (hc : ∀ o s, (c.exec rt o s).2.dir jobId = s.dir jobId) :
    Ends rt (TerminalPersisted m jobId) ((request c).attempt >>= fun _ => pure ())
      (TerminalPersisted m jobId) := by
  apply Triple.bind (ends_attempt fun o s _ _ hs hexec => hs.kept (hc o s.1) hexec)
  exact fun _ => Triple.pure fun _ h => h

lemma ends_finishOk (execution : JobExecution) (finishedAt : Timestamp)
    (outcome : ExecutionOutcome) {finalStatus : RunnerJobStatus} (reason : TerminalReason)
    (category : Option FailureCategory) (outputs : BTreeMap JobOutput)
    (hterminal : finalStatus.isTerminal = true) :
    Ends rt A (finishOk rt m execution finishedAt outcome finalStatus reason category outputs)
      (TerminalPersisted m execution.jobId) := by
  apply Triple.bind (ends_buildOutputMetadata execution.jobId _ _ outputs)
  intro outputMetadata
  apply Triple.bind (ends_persist hterminal)
  intro persisted
  apply Triple.ite
  · intro _
    apply ends_cleanup
    intro o s
    simp only [RunnerCall.exec, Outcome.io]
    cases o.fails <;> rfl
  · exact fun _ => Triple.pure fun _ h => h

lemma ends_finishError (execution : JobExecution) (finishedAt : Timestamp) (error : JobError) :
    Ends rt A (finishError m execution finishedAt error)
      (TerminalPersisted m execution.jobId) := by
  apply Triple.bind (ends_buildOutputMetadata execution.jobId _ _ execution.metadata.outputs)
  intro outputMetadata
  apply Triple.bind (ends_persist rfl)
  intro persisted
  apply ends_cleanup
  intro o s
  simp only [RunnerCall.exec, Outcome.io]
  cases o.fails <;> rfl

lemma ends_finishOutcome (execution : JobExecution) (finishedAt : Timestamp)
    {outcome : ExecutionOutcome} (hterminal : outcome.status.isTerminal = true) :
    Ends rt A (finishOutcome rt m execution finishedAt outcome)
      (TerminalPersisted m execution.jobId) := by
  apply Triple.ite
  · intro _
    apply Triple.bind (ends_registerOutputs execution.jobId execution.manifest.outputs.entries
      execution.metadata.outputs)
    rintro ⟨outputs, _ | error⟩
    · exact ends_finishOk execution finishedAt outcome _ _ outputs rfl
    · exact ends_finishOk execution finishedAt outcome _ _ outputs rfl
  · exact fun _ => ends_finishOk execution finishedAt outcome _ _ _ hterminal

/-- The job has left `running_jobs`, with terminal metadata. -/
def JobReleased (m : ℕ) (jobId : String) (s : RunnerStore × RunnerLog) : Prop :=
  s.1.runningJobs.get jobId = none ∧ TerminalPersisted m jobId s

lemma ends_removeRunning (jobId : String) :
    Ends rt (TerminalPersisted m jobId) (request (.removeRunning jobId)) (JobReleased m jobId) := by
  refine ends_request (c := .removeRunning jobId) (fun _ _ => ⟨(), rfl⟩) ?_
  intro o s x s' hs hexec
  refine ⟨?_, hs.kept rfl hexec⟩
  obtain ⟨-, rfl⟩ := Prod.mk.inj hexec
  exact OrderedMap.get_remove_self

lemma ends_finishJob (execution : JobExecution) {outcome : Except JobError ExecutionOutcome}
    (hterminal : ∀ o, outcome = .ok o → o.status.isTerminal = true) :
    Ends rt A (finishJob rt m execution outcome) (JobReleased m execution.jobId) := by
  have hnow : Ends rt A nowRfc3339 fun _ => True :=
    Triple.bind (ends_request (c := .now) (fun o _ => ⟨o.now, rfl⟩) fun _ _ _ _ _ _ => trivial)
      fun _ => Triple.pure fun _ h => h
  apply Triple.bind hnow
  intro finishedAt
  cases outcome with
  | ok outcome =>
    exact Triple.bind (ends_finishOutcome execution finishedAt (hterminal outcome rfl))
      fun _ => ends_removeRunning execution.jobId
  | error error =>
    exact Triple.bind (ends_finishError execution finishedAt error)
      fun _ => ends_removeRunning execution.jobId

lemma ends_afterProcess (execution : JobExecution) (outcome : Except JobError Ended) :
    Ends rt A (afterProcess rt m execution outcome) (JobReleased m execution.jobId) := by
  have hfinish : Triple (Program.logged (RunnerCall.exec rt)) A
      (match outcome with
        | .error error => fail error
        | .ok .canceled => do
          let _ ← (transitionMetadataStatus rt (.canceling m) execution.jobId none .canceling).attempt
          pure Ended.canceled.outcome
        | .ok ended => pure ended.outcome : RunnerTask ExecutionOutcome)
      (fun outcome _ => outcome.status.isTerminal = true) fun _ _ => True := by
    cases outcome with
    | error error => exact Triple.fail fun _ _ => trivial
    | ok ended =>
      cases ended with
      | canceled =>
        exact (Triple.bind (ends_ignoring _) fun _ => Triple.pure fun _ _ => rfl).mono
          (fun _ h => h) (fun _ _ h => h) fun _ _ h => h.elim
      | timedOut => exact Triple.pure fun _ _ => rfl
      | logLimit streamName message => exact Triple.pure fun _ _ => rfl
      | exited code => exact Triple.pure fun _ _ => isTerminal_outcome _
  refine Triple.bind (B := fun outcome _ => ∀ o, outcome = .ok o → o.status.isTerminal = true)
    (Triple.attempt (hfinish.mono (fun _ h => h) ?_ ?_)) fun outcome => ?_
  · rintro outcome _ hterminal o ho
    obtain rfl := Except.ok.inj ho
    exact hterminal
  · rintro error _ _ o ho
    cases ho
  · intro os s hs
    exact ends_finishJob execution hs os s (A := fun _ => True) trivial

lemma within_registerOutputs (jobId : String) (specs : List (String × OutputSpec))
    (outputs : BTreeMap JobOutput) :
    (registerOutputs rt jobId outputs specs).Within (3 * specs.length) := by
  have hread : ∀ path kind, (readOutput rt jobId path kind).Within 2 := by
    intro path kind
    cases kind with
    | artifact =>
      apply Program.Within.request_bind
      intro bytes
      refine Program.Within.bind (k := 1) (l := 0) ?_ fun stored => Program.Within.done _
      unfold storeBytes
      cases checkUpload rt bytes (some (rt.sha256Hex bytes)) with
      | error error => exact Program.Within.done _
      | ok _ => exact Program.Within.request _
    | _ => exact Program.Within.request_bind fun _ => Program.Within.done _
  have hregister : ∀ name spec outputs, (registerOutput rt jobId name spec outputs).Within 3 := by
    intro name spec outputs
    unfold registerOutput
    cases safeOutputPath (jobPath rt jobId "output") spec.path with
    | none => exact Program.Within.done _
    | some path =>
      apply Program.Within.request_bind
      rintro (_ | _ | _)
      · exact Program.Within.bind (l := 0) (hread _ _) fun _ => Program.Within.done _
      · exact Program.Within.done _
      · exact Program.Within.ite (Program.Within.done _) (Program.Within.done _)
  induction specs generalizing outputs with
  | nil => exact Program.Within.done _
  | cons entry specs ih =>
    obtain ⟨name, spec⟩ := entry
    rw [List.length_cons, Nat.mul_succ, Nat.add_comm]
    refine Program.Within.bind (hregister name spec outputs).attempt fun registered => ?_
    cases registered with
    | error error => exact Program.Within.done _
    | ok outputs => exact ih outputs

lemma within_buildOutputMetadata (jobId : String) (stdoutTruncated stderrTruncated : Bool)
    (outputs : BTreeMap JobOutput) :
    (buildOutputMetadata jobId stdoutTruncated stderrTruncated outputs).Within 2 :=
  Program.Within.request_bind fun _ => Program.Within.request_bind fun _ => Program.Within.done _

lemma within_cleanup {c : RunnerCall} :
    ((request c).attempt >>= fun _ => pure () : RunnerTask Unit).Within 1 :=
  Program.Within.bind (l := 0) (Program.Within.request c).attempt fun _ => Program.Within.done _

lemma within_finishOk (execution : JobExecution) (finishedAt : Timestamp)
    (outcome : ExecutionOutcome) (finalStatus : RunnerJobStatus) (reason : TerminalReason)
    (category : Option FailureCategory) (outputs : BTreeMap JobOutput) :
    (finishOk rt m execution finishedAt outcome finalStatus reason category outputs).Within 4 := by
  refine Program.Within.bind (k := 2) (l := 2) (within_buildOutputMetadata _ _ _ _) fun outputMetadata => ?_
  refine Program.Within.bind (k := 1) (l := 1) (Program.Within.request _).attempt fun persisted => ?_
  exact Program.Within.ite within_cleanup (Program.Within.done _)

lemma within_finishError (execution : JobExecution) (finishedAt : Timestamp) (error : JobError) :
    (finishError m execution finishedAt error).Within 4 := by
  refine Program.Within.bind (k := 2) (l := 2) (within_buildOutputMetadata _ _ _ _) fun outputMetadata => ?_
  refine Program.Within.bind (k := 1) (l := 1) (Program.Within.request _).attempt fun persisted => ?_
  exact within_cleanup

lemma within_finishOutcome (execution : JobExecution) (finishedAt : Timestamp)
    (outcome : ExecutionOutcome) : (finishOutcome rt m execution finishedAt outcome).Within
      (3 * execution.manifest.outputs.entries.length + 4) := by
  apply Program.Within.ite
  · refine Program.Within.bind (within_registerOutputs _ _ _) fun registered => ?_
    obtain ⟨outputs, _ | error⟩ := registered
    · exact within_finishOk _ _ _ _ _ _ _
    · exact within_finishOk _ _ _ _ _ _ _
  · exact (within_finishOk _ _ _ _ _ _ _).mono (Nat.le_add_left ..)

lemma within_finishJob (execution : JobExecution) (outcome : Except JobError ExecutionOutcome) :
    (finishJob rt m execution outcome).Within
      (3 * execution.manifest.outputs.entries.length + 6) := by
  have hnow : nowRfc3339.Within 1 := Program.Within.request_bind fun _ => Program.Within.done _
  have hremove := Program.Within.request (X := RunnerCall.Result) (ε := JobError)
    (.removeRunning execution.jobId)
  rw [show 3 * execution.manifest.outputs.entries.length + 6 =
    1 + (3 * execution.manifest.outputs.entries.length + 4 + 1) by omega]
  refine Program.Within.bind hnow fun finishedAt => ?_
  cases outcome with
  | ok outcome => exact Program.Within.bind (within_finishOutcome _ _ _) fun _ => hremove
  | error error =>
    refine Program.Within.bind ?_ fun _ => hremove
    exact (within_finishError _ _ _).mono (Nat.le_add_left ..)

lemma within_afterProcess (execution : JobExecution) (outcome : Except JobError Ended) :
    (afterProcess rt m execution outcome).Within
      (2 + (3 * execution.manifest.outputs.entries.length + 6)) := by
  refine Program.Within.bind ?_ fun outcome => within_finishJob execution outcome
  apply Program.Within.attempt
  have htransition : (transitionMetadataStatus rt (.canceling m) execution.jobId none
      .canceling).Within 2 := by
    refine Program.Within.bind (k := 1) (l := 1) ?_ fun metadata => ?_
    · refine Program.Within.request_bind (k := 0) fun file => ?_
      cases file <;> exact Program.Within.done _
    · refine Program.Within.ite (Program.Within.done _) ?_
      refine Program.Within.ite (Program.Within.done _) ?_
      exact Program.Within.ite (Program.Within.done _) (Program.Within.request _)
  cases outcome with
  | error error => exact Program.Within.done _
  | ok ended =>
    cases ended with
    | canceled =>
      exact Program.Within.bind (l := 0) htransition.attempt fun _ => Program.Within.done _
    | _ => exact Program.Within.done _

theorem afterProcess_releases (execution : JobExecution) (outcome : Except JobError Ended)
    {os : List Outcome} (hos : 3 * execution.manifest.outputs.entries.length + 8 ≤ os.length)
    (store : RunnerStore) :
    let e := (afterProcess rt m execution outcome).play (Program.logged (RunnerCall.exec rt)) os
      (store, [])
    e.result = some (.ok ()) ∧ JobReleased m execution.jobId e.store := by
  intro e
  have hends : Ends rt (fun _ => True) (afterProcess rt m execution outcome)
      (JobReleased m execution.jobId) := ends_afterProcess execution outcome
  have hplayed : ∃ x, e.result = some x :=
    Program.play_within (within_afterProcess execution outcome) (by omega) (store, [])
  obtain ⟨x, hx⟩ := hplayed
  have hend := hends os (store, []) trivial
  rw [Played.Ends, hx] at hend
  cases x with
  | error error => exact hend.elim
  | ok _ => exact ⟨hx, hend⟩

end

def Look.Terminates (deadline : Instant) (look : Look) : Prop :=
  deadline ≤ look.now ∨ look.selected ≠ .slept

def Look.Quiet (deadline : Instant) (look : Look) : Prop :=
  ¬look.Terminates deadline ∧ look.status = .ok none

def Course.Held (course : Course) : Prop :=
  course.stdout = none ∨ course.stdout = some (.ok ()) ∧ course.stderr = none

/-- Nothing keeps the loop from returning in this round, if it does not go on: the clock does not
overflow when the process is terminated, and the captures of a process that has exited end. -/
def Look.Settled (course : Course) (deadline : Instant) (look : Look) : Prop :=
  (look.Terminates deadline → look.signaled = true →
    look.terminated / 1000000000 + cancelGracePeriodSeconds < 2 ^ 63) ∧
  (¬look.Terminates deadline → ∀ code, look.status = .ok (some code) → ¬course.Held)

section

variable {course : Course} {script : String} {deadline : Instant} {fuel n : ℕ}

lemma terminateJob_eq (look : Look) : (∃ a, terminateJob look = some a) ↔
    (look.signaled = true → look.terminated / 1000000000 + cancelGracePeriodSeconds < 2 ^ 63) := by
  unfold terminateJob Instant.addSeconds
  by_cases hsignaled : look.signaled = true
  · simp [hsignaled]
  · simp [hsignaled]

lemma awaitCaptures_eq (code : Option ℤ) :
    (∃ outcome, awaitCaptures course code = some outcome) ↔ ¬course.Held := by
  unfold awaitCaptures Course.Held
  rcases course.stdout with _ | error | _
  · simp
  · simp
  · rcases course.stderr with _ | error | _
    · simp
    · simp
    · simp

lemma watchLoop_quiet (h : (course.looks n).Quiet deadline) :
    watchLoop course script deadline (fuel + 1) n = watchLoop course script deadline fuel (n + 1) := by
  obtain ⟨hgoing, hstatus⟩ := h
  obtain ⟨hearly, hslept⟩ := not_or.mp hgoing
  rw [watchLoop]
  simp only [if_neg hearly, not_not.mp hslept, hstatus]

lemma watchLoop_last (h : ¬(course.looks n).Quiet deadline) :
    (∃ outcome, watchLoop course script deadline (fuel + 1) n = some outcome) ↔
      (course.looks n).Settled course deadline := by
  unfold Look.Quiet at h
  unfold Look.Settled
  rw [watchLoop, ← terminateJob_eq]
  by_cases hlate : deadline ≤ (course.looks n).now
  · have hterminates : (course.looks n).Terminates deadline := .inl hlate
    simp [hlate, hterminates]
  · cases hselected : (course.looks n).selected with
    | canceled =>
      have hterminates : (course.looks n).Terminates deadline := .inr (by simp [hselected])
      simp [hlate, hterminates]
    | logLimit streamName message =>
      have hterminates : (course.looks n).Terminates deadline := .inr (by simp [hselected])
      simp [hlate, hterminates]
    | slept =>
      have hgoing : ¬(course.looks n).Terminates deadline := by simp [Look.Terminates, hlate, hselected]
      rcases hstatus : (course.looks n).status with source | _ | code
      · simp [hlate, hgoing]
      · exact absurd ⟨hgoing, hstatus⟩ h
      · simp [hlate, hgoing, awaitCaptures_eq]

lemma Look.Quiet.settled {look : Look} (h : look.Quiet deadline) : look.Settled course deadline := by
  obtain ⟨hgoing, hstatus⟩ := h
  refine ⟨fun hterminates => absurd hterminates hgoing, fun _ code hcode => ?_⟩
  rw [hstatus] at hcode
  cases hcode

lemma watchLoop_settled {outcome : Except JobError Ended} {k : ℕ}
    (h : watchLoop course script deadline fuel n = some outcome)
    (hquiet : ∀ i, n ≤ i → i < n + k → (course.looks i).Quiet deadline) :
    (course.looks (n + k)).Settled course deadline := by
  induction fuel generalizing n k with
  | zero => cases h
  | succ fuel ih =>
    by_cases hn : (course.looks n).Quiet deadline
    · cases k with
      | zero => exact hn.settled
      | succ k =>
        rw [watchLoop_quiet hn] at h
        rw [← Nat.add_assoc, Nat.add_right_comm]
        exact ih h fun i hi hik => hquiet i (by omega) (by omega)
    · cases k with
      | zero => exact (watchLoop_last hn).mp ⟨outcome, h⟩
      | succ k => exact absurd (hquiet n (Nat.le_refl n) (by omega)) hn

lemma watchLoop_returns {k : ℕ} (hquiet : ∀ i, n ≤ i → i < n + k → (course.looks i).Quiet deadline)
    (hlast : ¬(course.looks (n + k)).Quiet deadline)
    (hsettled : (course.looks (n + k)).Settled course deadline) :
    ∃ outcome, watchLoop course script deadline (k + 1) n = some outcome := by
  induction k generalizing n with
  | zero => exact (watchLoop_last hlast).mpr hsettled
  | succ k ih =>
    rw [watchLoop_quiet (hquiet n (Nat.le_refl n) (by omega))]
    have hshift : n + 1 + k = n + (k + 1) := by omega
    exact ih (fun i hi hik => hquiet i (by omega) (by omega)) (hshift ▸ hlast) (hshift ▸ hsettled)

lemma exists_ge_of_growing (f : ℕ → ℤ) (h : ∀ n, f n + 25000000 ≤ f (n + 1)) (bound : ℤ) :
    ∃ n, bound ≤ f n := by
  have hpassed : ∀ n : ℕ, f 0 + n ≤ f n := by
    intro n
    induction n with
    | zero => simp
    | succ n ih =>
      have hstep := h n
      push_cast
      omega
  have hlate := hpassed (bound - f 0).toNat
  exact ⟨(bound - f 0).toNat, by omega⟩

lemma Course.exists_not_quiet (course : Course) (deadline : Instant) :
    ∃ n, ¬(course.looks n).Quiet deadline := by
  obtain ⟨n, hn⟩ := exists_ge_of_growing (fun n => (course.looks n).now) course.passes deadline
  exact ⟨n, fun h => h.1 (.inl hn)⟩

lemma watchLoop_returns_iff : (∃ fuel outcome, watchLoop course script deadline fuel 0 = some outcome) ↔
    ∀ n, (∀ i < n, (course.looks i).Quiet deadline) → (course.looks n).Settled course deadline := by
  constructor
  · rintro ⟨fuel, outcome, h⟩ n hquiet
    have hsettled := watchLoop_settled (k := n) h fun i _ hi => hquiet i (by omega)
    rwa [Nat.zero_add] at hsettled
  · intro h
    classical
    have hlast := Nat.find_spec (course.exists_not_quiet deadline)
    have hquiet : ∀ i < Nat.find (course.exists_not_quiet deadline), (course.looks i).Quiet deadline :=
      fun i hi => not_not.mp (Nat.find_min _ hi)
    have hsettled := h _ hquiet
    rw [← Nat.zero_add (Nat.find _)] at hlast hsettled
    exact ⟨_, watchLoop_returns (fun i _ hi => hquiet i (by omega)) hlast hsettled⟩

end

def Course.deadline (course : Course) (manifest : JobManifest) : Instant :=
  course.started + manifest.timeoutSeconds * 1000000000

/-- The job that was started is released, however the operations on its files go. -/
def Released (rt : Runtime) (m : ℕ) (course : Course) (execution : JobExecution) : Prop :=
  ∃ fuel outcome, executeProcess course execution.manifest fuel = some outcome ∧
    ∃ k, ∀ (os : List Outcome) (store : RunnerStore), k ≤ os.length →
      let e := (afterProcess rt m execution outcome).play (Program.logged (RunnerCall.exec rt)) os
        (store, [])
      e.result = some (.ok ()) ∧ JobReleased m execution.jobId e.store

section

variable {rt : Runtime} {m : ℕ} {course : Course} {execution : JobExecution}

lemma released_iff_returns : Released rt m course execution ↔
    ∃ fuel outcome, executeProcess course execution.manifest fuel = some outcome := by
  constructor
  · rintro ⟨fuel, outcome, h, -⟩
    exact ⟨fuel, outcome, h⟩
  · rintro ⟨fuel, outcome, h⟩
    exact ⟨fuel, outcome, h, _, fun os store hos => afterProcess_releases execution outcome hos store⟩

end

def overflowingManifest : JobManifest := { sampleManifest with timeoutSeconds := 2 ^ 63 - 1 }

def longCourse : Course where
  spawned := .ok ()
  started := 1000000000
  looks n :=
    { now := 1000000000 + 25000000 * n, selected := .slept, status := .ok none, signaled := true
      terminated := 1000000000 + 25000000 * n }
  stdout := none
  stderr := none
  passes n := by
    change (1000000000 + 25000000 * n + 25000000 : ℤ) ≤ 1000000000 + 25000000 * (n + 1 : ℕ)
    push_cast
    omega

def overflowingExecution : JobExecution where
  manifest := overflowingManifest
  jobId := "job_1"
  logLimitBytes := 10
  metadata :=
    { jobId := "job_1", name := "deploy", idempotencyKey := "a", requestHash := ""
      status := .running, startedAt := 0, inputs := .empty, resolvedArtifacts := .empty }
  rawInputs := .empty
  channel := 0

end Janus.Runner
