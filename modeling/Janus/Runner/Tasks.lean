import Janus.Runner.Requests

/-! The other tasks of the runner keep to its discipline. -/

namespace Janus.Runner

open Janus.Concurrency Janus.Data Janus.Server RunnerStore

variable {R : Regime} {rt : Runtime} {r : RunnerRole} {s s' : RunnerStore} {α β : Type}

lemma Rely.of_rely (hr : r ≠ .boot) (h : rely R r s s') : Rely R r s s' := by
  cases r with
  | boot => exact absurd rfl hr
  | _ => exact h

def RunnerCall.Innocuous (c : RunnerCall) : Prop := ∀ R rt r s, Before R rt r c s

lemma safe_innocuous {A : RunnerStore → Prop} {Q : RunnerCall → Prop}
    (hQ : ∀ c, Q c → c.Innocuous) (hA : Stable R r A)
    (hkeep : ∀ c o s, Q c → A s → A (RunnerCall.exec rt c o s).2) {p : RunnerTask α} (hp : p.Only Q)
    (hs : A s) : Safe (runnerDiscipline R rt r) (fun _ => A) p s := by
  refine Safe.of_only (Q := Q) (fun s s' h hr _ => hA s s' h hr) (fun c s hc _ _ => hQ c hc R rt r s)
    (fun c s x s' hc h _ => ?_) hp hs
  rintro ⟨o, -, he, -⟩
  have := hkeep c o s hc h
  rwa [he] at this

lemma stable_true : Stable R r fun _ => True := fun _ _ _ _ => trivial

lemma safe_free {p : RunnerTask α} (hp : p.Only RunnerCall.Innocuous) (s : RunnerStore) :
    Safe (runnerDiscipline R rt r) (fun _ _ => True) p s :=
  safe_innocuous (fun _ hc => hc) stable_true (fun _ _ _ _ _ => trivial) hp trivial

lemma io_store {o : Outcome} {error : String → JobError} {a : Except JobError α × RunnerStore}
    {A : RunnerStore → Prop} (hs : A s) (ha : A a.2) : A (o.io error s a).2 := by
  unfold Outcome.io
  split
  · exact hs
  · exact ha

lemma exec_io (rt : Runtime) {c : RunnerCall} {error : String → JobError} {ok : RunnerStore} {a : c.Result}
    (s : RunnerStore) (o : Outcome) (hc : c.exec rt o s = o.io error s (.ok a, ok)) :
    (∃ source, o.fails = some source ∧ c.exec rt o s = (.error (error source), s)) ∨
      (o.fails = none ∧ c.exec rt o s = (.ok a, ok)) := by
  rw [hc, Outcome.io]
  cases hf : o.fails with
  | some source => exact .inl ⟨source, rfl, rfl⟩
  | none => exact .inr ⟨rfl, rfl⟩

lemma safe_transitionMetadataStatus {A : RunnerStore → Prop} {writer : Writer} {jobId : String}
    {expected : Option RunnerJobStatus} {next : RunnerJobStatus} (hr : r ≠ .boot) (hA : Stable R r A)
    (hbefore : ∀ s (metadata : JobMetadata), A s → Sane R rt s → metadata.jobId = jobId →
      s.Keeps metadata.identity → writer.Before rt r jobId { metadata with status := next } s)
    (hrelease : ∀ s, A s → A (writer.release s))
    (hpersist : ∀ s metadata, A s → A (s.persist jobId metadata)) (hs : A s) :
    Safe (runnerDiscipline R rt r) (fun _ => A) (transitionMetadataStatus rt writer jobId expected next)
      s := by
  refine Safe.bind (safe_call hs hA fun s hs hsane => ⟨trivial, fun o _ _ => onOk_readMetadata
    (fun _ _ => hs) (fun _ => hs) (fun _ _ _ => hs) fun metadata hd _ => ?_⟩)
  have hid := (hsane.dirs jobId metadata hd).1
  have hkeeps : s.Keeps metadata.identity := ⟨metadata, by rw [← hid] at hd; exact hd, rfl⟩
  refine Safe.ite (fun _ => hs) fun _ => Safe.ite (fun _ => hs) fun _ => Safe.ite (fun _ => hs)
    fun _ => ?_
  refine safe_request (P := fun s => A s ∧ s.Keeps metadata.identity) ⟨hs, hkeeps⟩
    (fun s s' h hrely => ⟨hA s s' h.1 hrely, (Rely.of_rely hr hrely).keeps _ h.2⟩)
    fun s h hsane => ⟨hbefore s metadata h.1 hsane hid h.2, fun o _ _ => ?_⟩
  exact io_store (hrelease s h.1) (hrelease _ (hpersist s _ h.1))

lemma cancel_before {metadata : JobMetadata} {jobId : String} (hid : metadata.jobId = jobId)
    (hk : s.Keeps metadata.identity) :
    Writer.cancel.Before rt r jobId { metadata with status := .cancelRequested } s := by
  obtain ⟨current, hd, hi⟩ := hk
  exact ⟨⟨current, by rw [← hid]; exact hd, hi⟩, rfl⟩

theorem safe_cancelJob (jobId : String) (s : RunnerStore) :
    Safe (runnerDiscipline R rt (.cancel jobId)) (fun _ _ => True) (cancelJob rt jobId) s := by
  rw [cancelJob]
  rcases validateJobId jobId with error | ⟨⟨⟩⟩
  · trivial
  rw [Program.done_bind]
  refine safe_call trivial stable_true fun s _ _ => ⟨trivial, fun o _ _ => ?_⟩
  dsimp only [RunnerCall.exec, onOk]
  split
  · refine safe_free ?_ s
    rw [cancelFinished, readJob]
    rcases validateJobId jobId with error | ⟨⟨⟩⟩
    · trivial
    rw [Program.done_bind]
    refine .bind (.bind (Program.Only.request_iff.mpr fun _ _ _ _ => trivial) fun file => ?_)
      fun metadata => ?_
    · cases file <;> trivial
    · split <;> trivial
  · next runningJob _ =>
    refine Safe.bind (Safe.mono ?_ (safe_transitionMetadataStatus (A := fun _ => True) (by simp)
      stable_true (fun _ _ _ _ => cancel_before) (fun _ _ => trivial) (fun _ _ _ => trivial) trivial))
    rintro (error | _) s -
    · trivial
    · exact safe_free (p := request (.sendCancel runningJob.jobId runningJob.channel))
        (Program.Only.request_iff.mpr fun _ _ _ _ => trivial) s

/-- Once `running_jobs` is locked, each of its entries is signaled or still to be. -/
def Signaling (R : Regime) (runningJobs : List RunningJob) (s : RunnerStore) : Prop :=
  s.shutdownLocked = true ∧
    (R.sealed → ∀ e ∈ s.runningJobs.entries, e.2.channel ∈ s.signaled ∨ e.2 ∈ runningJobs)

lemma Signaling.stable {looks : ℕ} {runningJobs : List RunningJob} :
    Stable R (.shutdown looks) (Signaling R runningJobs) := by
  intro s s' ⟨hl, he⟩ hr
  exact ⟨hr.shutdownLocked hl, fun hd e hmem =>
    (he hd e (hr.entries hd hl e hmem)).imp_left (hr.signaled e.2.channel)⟩

lemma Signaling.sent {runningJob : RunningJob} {runningJobs : List RunningJob}
    (h : Signaling R (runningJob :: runningJobs) s) :
    Signaling R runningJobs { s with signaled := runningJob.channel :: s.signaled } := by
  refine ⟨h.1, fun hd e he => ?_⟩
  rcases h.2 hd e he with hsent | hmem
  · exact .inl (List.mem_cons_of_mem _ hsent)
  · rcases List.mem_cons.mp hmem with hj | hmem
    · exact .inl (hj ▸ List.mem_cons_self)
    · exact .inr hmem

lemma Signaling.gone {runningJob : RunningJob} {runningJobs : List RunningJob} (hs : Sane R rt s)
    (h : Signaling R (runningJob :: runningJobs) s)
    (hg : (s.runningJobs.get runningJob.jobId).map RunningJob.channel ≠ some runningJob.channel) :
    Signaling R runningJobs s := by
  refine ⟨h.1, fun hd e he => (h.2 hd e he).imp_right fun hmem => ?_⟩
  refine (List.mem_cons.mp hmem).resolve_left fun hj => hg ?_
  have hkey : e.1 = runningJob.jobId := hj ▸ (hs.keyed e he).symm
  have hget : s.runningJobs.get runningJob.jobId = some e.2 :=
    OrderedMap.get_eq_some_iff.mpr (hkey ▸ he)
  rw [hget, hj, Option.map_some]

lemma safe_shutdownJob {looks : ℕ} {runningJob : RunningJob} {runningJobs : List RunningJob}
    (h : Signaling R (runningJob :: runningJobs) s) :
    Safe (runnerDiscipline R rt (.shutdown looks))
      (onOk (β := Unit) (fun _ _ => True) fun _ s => Signaling R runningJobs s) (shutdownJob rt runningJob) s := by
  refine Safe.bind (Safe.attempt (Safe.mono ?_ (safe_transitionMetadataStatus
    (A := Signaling R (runningJob :: runningJobs)) (by simp) Signaling.stable
    (fun _ _ _ _ => cancel_before) (fun _ h => h) (fun _ _ h => h) h)))
  intro x s h
  refine Safe.bind (Safe.attempt (safe_request h Signaling.stable fun s h hs =>
    ⟨trivial, fun o _ _ => ?_⟩))
  simp only [RunnerCall.exec]
  split
  · next hf => exact h.gone hs hf.2
  · exact h.sent

lemma safe_beginShutdown {looks : ℕ} (s : RunnerStore) :
    Safe (runnerDiscipline R rt (.shutdown looks)) (fun _ _ => True) (beginShutdown rt) s := by
  refine safe_call trivial stable_true fun s _ _ => ⟨trivial, fun o _ _ => ?_⟩
  refine safe_call trivial stable_true fun s _ _ => ⟨trivial, fun o _ _ => ?_⟩
  have hlocked : Signaling R s.runningJobs.values
      { s with runningLocked := true, shutdownLocked := true } :=
    ⟨rfl, fun _ e he => .inr (List.mem_map_of_mem he)⟩
  refine Safe.bind (Safe.forM (I := Signaling R) (fun s h => ?_) (fun runningJob runningJobs s h => ?_)
    hlocked)
  · refine safe_call h Signaling.stable fun s h _ => ⟨⟨h.1, fun hd e he => ?_⟩, fun _ _ _ => trivial⟩
    exact (h.2 hd e he).resolve_right List.not_mem_nil
  · refine Safe.mono ?_ (safe_shutdownJob h)
    rintro (error | _) s hx
    · trivial
    · exact hx

lemma waitForDrain_only (looks : ℕ) : (waitForDrain looks).Only RunnerCall.Innocuous := by
  induction looks with
  | zero => trivial
  | succ looks ih =>
    refine .bind (Program.Only.request_iff.mpr fun _ _ _ _ => trivial) fun empty => ?_
    split
    · trivial
    · exact ih

theorem safe_shutdown (looks : ℕ) (s : RunnerStore) :
    Safe (runnerDiscipline R rt (.shutdown looks)) (fun _ _ => True)
      (RunnerRole.program rt (.shutdown looks)) s := by
  refine Safe.bind (Safe.mono ?_ (safe_beginShutdown s))
  rintro (error | _) s -
  · trivial
  · exact safe_free (.bind (waitForDrain_only looks) fun _ => Program.Only.pure ()) s

section

variable {m : ℕ} {execution : JobExecution}

def Executing (m : ℕ) (execution : JobExecution) (s : RunnerStore) : Prop :=
  (m, execution) ∈ s.executing

lemma Executing.stable : Stable R (.run m) (Executing m execution) :=
  fun _ _ h hr => hr.executing m rfl execution h

def RunnerCall.Working : RunnerCall → Prop
  | .now | .statOutput _ _ | .readOutput _ _ | .readOutputBytes _ _ | .storeArtifact _ _
  | .fileSize _ _ => True
  | _ => False

lemma RunnerCall.Working.innocuous {c : RunnerCall} (h : c.Working) : c.Innocuous := by
  cases c <;> first | exact h.elim | exact fun _ _ _ _ => trivial

lemma RunnerCall.Working.executing {c : RunnerCall} (h : c.Working) (o : Outcome)
    (he : Executing m execution s) : Executing m execution (RunnerCall.exec rt c o s).2 := by
  cases c with
  | now | fileSize => exact he
  | statOutput | readOutput | readOutputBytes => exact io_store he he
  | storeArtifact sha256 size =>
    refine io_store he ?_
    dsimp only
    split <;> exact he
  | _ => exact h.elim

lemma safe_working {p : RunnerTask α} (hp : p.Only RunnerCall.Working)
    (h : Executing m execution s) :
    Safe (runnerDiscipline R rt (.run m)) (fun _ => Executing m execution) p s :=
  safe_innocuous (fun _ => RunnerCall.Working.innocuous) Executing.stable
    (fun _ o _ hc he => hc.executing o he) hp h

lemma now_only : nowRfc3339.Only RunnerCall.Working :=
  .bind (Program.Only.request_iff.mpr trivial) fun _ => Program.Only.pure _

lemma storeBytes_only (bytes : Bytes) (checksum : Option String) :
    (storeBytes rt bytes checksum).Only RunnerCall.Working := by
  rw [storeBytes]
  split
  · exact Program.Only.fail _
  · exact Program.Only.request_iff.mpr trivial

lemma readOutput_only (jobId path : String) (kind : OutputType) :
    (readOutput rt jobId path kind).Only RunnerCall.Working := by
  cases kind with
  | artifact =>
    refine .bind (Program.Only.request_iff.mpr trivial) fun bytes => ?_
    exact .bind (storeBytes_only _ _) fun _ => Program.Only.pure _
  | _ => exact .bind (Program.Only.request_iff.mpr trivial) fun _ => Program.Only.done _

lemma registerOutput_only (jobId name : String) (spec : OutputSpec) (outputs : BTreeMap JobOutput) :
    (registerOutput rt jobId name spec outputs).Only RunnerCall.Working := by
  rw [registerOutput]
  split
  · exact Program.Only.fail _
  · refine .bind (Program.Only.request_iff.mpr trivial) fun found => ?_
    cases found with
    | other => exact Program.Only.fail _
    | notFound =>
      dsimp only
      split
      · exact Program.Only.fail _
      · exact Program.Only.pure _
    | file => exact .bind (readOutput_only _ _ _) fun _ => Program.Only.pure _

lemma registerOutputs_only (jobId : String) (outputs : BTreeMap JobOutput)
    (specs : List (String × OutputSpec)) :
    (registerOutputs rt jobId outputs specs).Only RunnerCall.Working := by
  induction specs generalizing outputs with
  | nil => exact Program.Only.pure _
  | cons spec specs ih =>
    refine .bind (registerOutput_only jobId spec.1 spec.2 outputs).attempt fun registered => ?_
    cases registered with
    | error error => exact Program.Only.pure _
    | ok outputs => exact ih outputs

lemma buildOutputMetadata_only (jobId : String) (stdout stderr : Bool) (outputs : BTreeMap JobOutput) :
    (buildOutputMetadata jobId stdout stderr outputs).Only RunnerCall.Working :=
  .bind (Program.Only.request_iff.mpr trivial) fun _ =>
    .bind (Program.Only.request_iff.mpr trivial) fun _ => Program.Only.pure _

lemma safe_finish {metadata : JobMetadata} {p : RunnerTask Unit} (h : Executing m execution s)
    (hid : metadata.identity = execution.metadata.identity)
    (ht : metadata.status.isTerminal = true) (hp : p.Only RunnerCall.Innocuous) :
    Safe (runnerDiscipline R rt (.run m)) (fun _ _ => True)
      ((request (.persistMetadata (.finish m) execution.jobId metadata)).attempt >>= fun _ => p) s := by
  refine Safe.bind (Safe.attempt (safe_request h Executing.stable fun s h _ =>
    ⟨⟨rfl, execution, h, rfl, hid, ht⟩, fun o _ _ => ?_⟩))
  exact safe_free hp _

lemma safe_finishOk (h : Executing m execution s) {finishedAt : Timestamp} {outcome : ExecutionOutcome}
    {finalStatus : RunnerJobStatus} (ht : finalStatus.isTerminal = true) {reason : TerminalReason}
    {category : Option FailureCategory} {outputs : BTreeMap JobOutput} :
    Safe (runnerDiscipline R rt (.run m)) (fun _ _ => True)
      (finishOk rt m execution finishedAt outcome finalStatus reason category outputs) s := by
  refine Safe.bind (Safe.mono ?_ (safe_working (buildOutputMetadata_only ..) h))
  rintro (error | outputMetadata) s h
  · trivial
  · refine safe_finish h ?_ ht ?_
    · rfl
    · split
      · exact .bind (Program.Only.request_iff.mpr fun _ _ _ _ => trivial).attempt
          fun _ => Program.Only.pure _
      · exact Program.Only.pure _

lemma safe_finishError (h : Executing m execution s) {finishedAt : Timestamp} {error : JobError} :
    Safe (runnerDiscipline R rt (.run m)) (fun _ _ => True)
      (finishError m execution finishedAt error) s := by
  refine Safe.bind (Safe.mono ?_ (safe_working (buildOutputMetadata_only ..) h))
  rintro (error | outputMetadata) s h
  · trivial
  · refine safe_finish h ?_ rfl ?_
    · rfl
    · exact .bind (Program.Only.request_iff.mpr fun _ _ _ _ => trivial).attempt
        fun _ => Program.Only.pure _

lemma safe_finishOutcome (h : Executing m execution s) {finishedAt : Timestamp}
    {outcome : ExecutionOutcome} (ht : outcome.status.isTerminal = true) :
    Safe (runnerDiscipline R rt (.run m)) (fun _ _ => True)
      (finishOutcome rt m execution finishedAt outcome) s := by
  refine Safe.ite (fun _ => ?_) fun _ => safe_finishOk h ht
  refine Safe.bind (Safe.mono ?_ (safe_working (registerOutputs_only ..) h))
  rintro (error | registered) s h
  · trivial
  · dsimp only [onOk]
    split <;> exact safe_finishOk h rfl

lemma safe_finishJob (h : Executing m execution s) {outcome : Except JobError ExecutionOutcome}
    (ht : ∀ ended, outcome = .ok ended → ended.status.isTerminal = true) :
    Safe (runnerDiscipline R rt (.run m)) (fun _ _ => True) (finishJob rt m execution outcome) s := by
  have hremove : (request (.removeRunning execution.jobId)).Only RunnerCall.Innocuous :=
    Program.Only.request_iff.mpr fun _ _ _ _ => trivial
  refine Safe.bind (Safe.mono ?_ (safe_working now_only h))
  rintro (error | finishedAt) s h
  · trivial
  cases outcome with
  | ok outcome =>
    refine Safe.bind (Safe.mono ?_ (safe_finishOutcome h (ht outcome rfl)))
    rintro (error | _) s -
    · trivial
    · exact safe_free hremove s
  | error error =>
    refine Safe.bind (Safe.mono ?_ (safe_finishError h))
    rintro (error | _) s -
    · trivial
    · exact safe_free hremove s

lemma Ended.outcome_isTerminal (ended : Ended) : ended.outcome.status.isTerminal = true := by
  cases ended with
  | exited code =>
    rw [outcome]
    split <;> rfl
  | _ => rfl

lemma canceling_before {metadata : JobMetadata} (hs : Sane R rt s) (h : Executing m execution s)
    (hid : metadata.jobId = execution.jobId) (hk : s.Keeps metadata.identity) :
    (Writer.canceling m).Before rt (.run m) execution.jobId { metadata with status := .canceling } s := by
  obtain ⟨hjob, ⟨current, hd, hi⟩, -⟩ := hs.tokens execution (mem_tokens_of_executing h)
  obtain ⟨kept, hd', hi'⟩ := hk
  have hsame : metadata.identity.jobId = execution.metadata.identity.jobId := hid.trans hjob.symm
  rw [hsame, hd] at hd'
  cases hd'
  exact ⟨rfl, execution, h, rfl, hi'.symm.trans hi, rfl⟩

/-- `watch_process` once the process has ended. -/
def afterWatch (rt : Runtime) (m : ℕ) (execution : JobExecution) :
    Ended → RunnerTask ExecutionOutcome
  | .canceled => do
    let _ ← (transitionMetadataStatus rt (.canceling m) execution.jobId none .canceling).attempt
    pure Ended.canceled.outcome
  | ended => pure ended.outcome

lemma safe_watchProcess (h : Executing m execution s) :
    Safe (runnerDiscipline R rt (.run m))
      (fun x s => Executing m execution s ∧
        ∀ ended, x = .ok ended → ended.status.isTerminal = true)
      (watchProcess rt m execution) s := by
  refine safe_call h Executing.stable fun s h _ => ⟨trivial, fun o _ _ =>
    onOk_io (fun _ _ => ⟨h, fun _ hx => by cases hx⟩) fun _ => ?_⟩
  have hended (ended : Ended) : Executing m execution s ∧ ∀ outcome,
      (.ok ended.outcome : Except JobError ExecutionOutcome) = .ok outcome →
        outcome.status.isTerminal = true :=
    ⟨h, fun outcome hx => by cases hx; exact ended.outcome_isTerminal⟩
  have hafter (ended : Ended) : Safe (runnerDiscipline R rt (.run m))
      (fun x s => Executing m execution s ∧
        ∀ ended, x = .ok ended → ended.status.isTerminal = true) (afterWatch rt m execution ended) s := by
    cases ended with
    | canceled =>
      refine Safe.bind (Safe.attempt (Safe.mono ?_ (safe_transitionMetadataStatus (by simp)
        Executing.stable (fun _ _ h hs hid hk => canceling_before hs h hid hk) (fun _ h => h)
        (fun _ _ h => h) h)))
      exact fun x s h => ⟨h, fun outcome hx => by cases hx; rfl⟩
    | _ => exact hended _
  exact hafter _

lemma execLaunch_executing {o : Outcome} {x : Except JobError (JobExecution × Option JobError)}
    (hx : (RunnerCall.exec rt (.launch m) o s).1 = x) {launched : JobExecution × Option JobError}
    (hok : x = .ok launched) : Executing m launched.1 (RunnerCall.exec rt (.launch m) o s).2 := by
  subst hx
  revert hok
  simp only [RunnerCall.exec, RunnerCall.execLaunch]
  split
  · exact fun hok => by cases hok
  · split
    · exact fun hok => by cases hok; exact List.mem_cons_self
    · exact fun hok => by cases hok; exact List.mem_cons_self

theorem safe_runJob (s : RunnerStore) :
    Safe (runnerDiscipline R rt (.run m)) (fun _ _ => True) (runJob rt m) s := by
  refine safe_call trivial stable_true fun s _ _ => ⟨rfl, fun o _ _ => ?_⟩
  have hlaunched (launched : JobExecution × Option JobError)
      (hok : (RunnerCall.exec rt (.launch m) o s).1 = .ok launched) :
      Executing m launched.1 (RunnerCall.exec rt (.launch m) o s).2 :=
    execLaunch_executing rfl hok
  revert hlaunched
  rcases (RunnerCall.exec rt (.launch m) o s).1 with error | ⟨execution, refused⟩
  · exact fun _ => trivial
  intro hlaunched
  have h := hlaunched _ rfl
  dsimp only [onOk]
  cases refused with
  | some error =>
    have hfinish : Safe (runnerDiscipline R rt (.run m)) (fun _ _ => True)
        (finishJob rt m execution (.error error)) (RunnerCall.exec rt (.launch m) o s).2 :=
      safe_finishJob h fun _ hx => by cases hx
    exact Safe.bind (Safe.attempt hfinish)
  | none =>
    refine Safe.bind (Safe.attempt (Safe.mono ?_ (safe_watchProcess h)))
    exact fun x s hx => safe_finishJob hx.1 hx.2

end

def Down (s : RunnerStore) : Prop := s.serving = false

lemma Down.stable : Stable R .boot Down := fun _ _ h hr => hr.serving.trans h

lemma Frozen.dir {jobId : String} (h : Frozen s s') : s'.dir jobId = s.dir jobId := by
  rw [RunnerStore.dir, RunnerStore.dir, h.jobDirs]

lemma safe_removeJobDir {jobId : String} (h : Down s)
    (hdead : ∀ metadata, (s.dir jobId).metadata = some metadata → rt.readsBack metadata = false) :
    Safe (runnerDiscipline R rt .boot) (fun _ s => Down s)
      (request (.removeJobDir jobId) >>= fun _ => pure 1 : RunnerTask ℕ) s := by
  refine safe_call (P := fun s => Down s ∧ ∀ metadata, (s.dir jobId).metadata = some metadata →
    rt.readsBack metadata = false) ⟨h, hdead⟩ (fun s s' h hr => ⟨Down.stable s s' h.1 hr, ?_⟩)
    fun s h _ => ⟨⟨rfl, h⟩, fun o _ _ => ?_⟩
  · intro metadata hd
    rw [Frozen.dir hr] at hd
    exact h.2 metadata hd
  · simp only [RunnerCall.exec]
    split
    · split <;> exact h.1
    · exact h.1

lemma safe_persistRecovered {jobId : String} {metadata : JobMetadata} {status : RunnerJobStatus}
    {category : FailureCategory} (h : Down s) (hd : (s.dir jobId).metadata = some metadata)
    (hlive : metadata.status.isTerminal = false) (ht : status.isTerminal = true) :
    Safe (runnerDiscipline R rt .boot) (fun _ s => Down s)
      (persistRecovered jobId metadata status category) s := by
  have hstable : Stable R .boot fun s => Down s ∧ (s.dir jobId).metadata = some metadata :=
    fun s s' h hr => ⟨Down.stable s s' h.1 hr, by rw [Frozen.dir hr, h.2]⟩
  refine Safe.bind (safe_call ⟨h, hd⟩ hstable fun s h _ => ⟨trivial, fun o _ _ => ?_⟩)
  refine safe_call h hstable fun s h _ => ⟨⟨rfl, h.1, metadata, h.2, rfl, hlive, ht⟩, fun o _ _ => ?_⟩
  refine onOk_io (fun _ _ => h.1) fun _ => ?_
  exact safe_request (P := Down) h.1 Down.stable fun s h _ => ⟨trivial, fun o _ _ => io_store h h⟩

lemma safe_recoverJob {jobId : String} (h : Down s) :
    Safe (runnerDiscipline R rt .boot) (fun _ s => Down s) (recoverJob jobId) s := by
  refine safe_call h Down.stable fun s h _ => ⟨trivial, fun o _ _ => onOk_readMetadata
    (fun _ _ => h) (fun hd => ?_) (fun metadata hd hb => ?_) fun metadata hd _ => ?_⟩
  · exact safe_removeJobDir h fun metadata hd' => by cases hd.symm.trans hd'
  · refine safe_removeJobDir h fun metadata' hd' => ?_
    cases hd.symm.trans hd'
    exact hb
  · have hone {p : RunnerTask Unit} (hp : Safe (runnerDiscipline R rt .boot) (fun _ s => Down s) p s) :
        Safe (runnerDiscipline R rt .boot) (fun _ s => Down s) (p >>= fun _ => pure 1 : RunnerTask ℕ)
          s :=
      Safe.bind (hp.mono (by rintro (error | _) s h <;> exact h))
    dsimp only
    split
    · next hs => exact hone (safe_persistRecovered h hd (by rw [hs]; rfl) rfl)
    · next hs => exact hone (safe_persistRecovered h hd (by rw [hs]; rfl) rfl)
    · next hs => exact hone (safe_persistRecovered h hd (by rw [hs]; rfl) rfl)
    · exact h

lemma safe_recoverJobs {jobIds : List String} {recovered : ℕ} (h : Down s) :
    Safe (runnerDiscipline R rt .boot) (fun _ s => Down s) (recoverJobs recovered jobIds) s := by
  induction jobIds generalizing s recovered with
  | nil => exact h
  | cons jobId jobIds ih =>
    refine Safe.bind (Safe.mono ?_ (safe_recoverJob h))
    rintro (error | more) s h
    · exact h
    · exact ih h

theorem safe_boot (s : RunnerStore) :
    Safe (runnerDiscipline R rt .boot) (fun _ _ => True) (RunnerRole.program rt .boot) s := by
  refine Safe.bind (safe_call (c := .readJobDirs) trivial stable_true fun s _ _ => ⟨trivial,
    fun o hready _ => onOk_io (fun _ _ => trivial) fun _ => ?_⟩)
  have hdown : Down s := by simpa [RunnerCall.ready, Down] using hready
  refine Safe.mono ?_ (safe_recoverJobs hdown)
  rintro (error | _) s -
  · trivial
  · refine safe_request (c := .serve) trivial stable_true fun s _ _ => ?_
    exact ⟨rfl, fun _ _ _ => trivial⟩

theorem safe_upload (bytes : Bytes) (checksum : Option String) (s : RunnerStore) :
    Safe (runnerDiscipline R rt (.upload bytes checksum)) (fun _ _ => True)
      (RunnerRole.program rt (.upload bytes checksum)) s :=
  safe_free (.bind ((storeBytes_only bytes checksum).mono fun _ => RunnerCall.Working.innocuous)
    fun _ => Program.Only.pure ()) s

lemma removeExpired_only (artifactId : String) :
    (removeExpired artifactId).Only RunnerCall.Innocuous := by
  rw [removeExpired]
  split
  · exact Program.Only.fail _
  · refine .bind (Program.Only.request_iff.mpr fun _ _ _ _ => trivial).attempt fun metadata => ?_
    split
    · exact Program.Only.pure _
    · exact Program.Only.fail _
    · refine .bind (Program.Only.request_iff.mpr fun _ _ _ _ => trivial) fun expired => ?_
      cases (expired : Bool) with
      | true => exact Program.Only.request_iff.mpr fun _ _ _ _ => trivial
      | false => exact Program.Only.pure _

theorem safe_cleanup (s : RunnerStore) :
    Safe (runnerDiscipline R rt .cleanup) (fun _ _ => True) (RunnerRole.program rt .cleanup) s :=
  safe_free (p := cleanupExpired) (.bind (Program.Only.request_iff.mpr fun _ _ _ _ => trivial)
    fun artifactIds => .forM removeExpired_only artifactIds) s

end Janus.Runner
