import Janus.Server.Enqueue

/-! One round of a pass: what the scheduler does with one job. -/

namespace Janus.Server

open Janus.Concurrency Janus.Data

def Call.isQuiet : Call → Prop
  | .jobRun _ _ => False
  | .pipelineRun _ _ => False
  | .insert (.insertServerArtifact _) => True
  | .insert _ => False
  | .runner _ (.createJobRun _ _ _ _) => False
  | _ => True

def Call.isTransfer : Call → Prop
  | .markPushEventProcessed _ => False
  | .runner _ (.cancelJobRun _) => False
  | c => c.isQuiet

lemma Call.isTransfer.quiet {c : Call} (h : c.isTransfer) : c.isQuiet := by
  cases c with
  | markPushEventProcessed id => exact h.elim
  | runner r request =>
    cases request with
    | cancelJobRun runId => exact h.elim
    | _ => exact h
  | _ => exact h

lemma Call.isQuiet.query (q : Query) : (Call.query q).isQuiet := trivial

lemma Call.isQuiet.mutates {c : Call} (h : c.isQuiet) : c.mutates = false := by
  cases c with
  | jobRun id u => cases h
  | pipelineRun id u => cases h
  | insert i => cases i <;> first | rfl | cases h
  | _ => rfl

lemma Call.Effect.untouched_of {db db' : Database} {c : Call} {x : Except String c.Result}
    (h : Call.Effect db db' c x) (hc : c.mutates = false) : db.Untouched db' := by
  cases h with
  | untouched tables _ => exact tables
  | _ => cases hc

section

open Program

lemma okOr_only {α : Type} {P : Call → Prop} (value : Option α) (message : String) :
    (okOr value message).Only P := by
  cases value <;> trivial

lemma quiet_call {c : Call} (h : c.isQuiet) : (call c).Only Call.isQuiet := Only.request_iff.mpr h

lemma transfer_call {c : Call} (h : c.isTransfer) : (call c).Only Call.isTransfer :=
  Only.request_iff.mpr h

lemma findJobRunId_transfers (pipelineId : Id) (jobIndex : ℕ) :
    (findJobRunId pipelineId jobIndex).Only Call.isTransfer :=
  .bind (transfer_call trivial) fun _ => .bind (okOr_only _ _) fun _ => okOr_only _ _

lemma ensureServerSourceArtifact_transfers (pipeline : PipelineRun) :
    (ensureServerSourceArtifact pipeline).Only Call.isTransfer := by
  refine .bind (transfer_call trivial) fun existing => ?_
  cases existing with
  | some artifact => exact .pure _
  | none =>
    refine .bind (transfer_call trivial) fun _ => .bind (okOr_only _ _) fun _ =>
      .bind (okOr_only _ _) fun _ => .bind (.bind (transfer_call trivial) fun archived => ?_) fun _ =>
      .bind (transfer_call trivial) fun _ => .bind (transfer_call trivial) fun _ =>
      .bind (transfer_call trivial) fun _ => okOr_only _ _
    split
    · exact .pure _
    · exact transfer_call trivial

lemma ensureSourceArtifact_transfers (pipeline : PipelineRun) (runnerId : String) :
    (ensureSourceArtifact pipeline runnerId).Only Call.isTransfer :=
  .bind (ensureServerSourceArtifact_transfers _) fun _ => .bind (transfer_call trivial) fun _ =>
    .bind (transfer_call trivial) fun _ => .bind (okOr_only _ _) fun _ =>
    .bind (transfer_call trivial) fun _ => .pure _

lemma ensureRunnerHasArtifact_transfers (targetRunnerId sourceArtifactId : String) (upstreamId : Id) :
    (ensureRunnerHasArtifact targetRunnerId sourceArtifactId upstreamId).Only Call.isTransfer := by
  refine .bind (transfer_call trivial) fun _ => .bind (okOr_only _ _) fun _ =>
    .bind (transfer_call trivial) fun _ => .bind (okOr_only _ _) fun _ =>
    .bind (okOr_only _ _) fun _ => ?_
  split
  · exact .pure _
  · exact .bind (transfer_call trivial) fun _ => .bind (okOr_only _ _) fun _ =>
      .bind (okOr_only _ _) fun _ => .bind (transfer_call trivial) fun _ =>
      .bind (okOr_only _ _) fun _ => .bind (transfer_call trivial) fun _ =>
      .bind (transfer_call trivial) fun _ => .pure _

lemma resolvePromotedArtifact_transfers (pipeline : PipelineRun) (jobIndex : ℕ) (runnerId key : String) :
    (resolvePromotedArtifact pipeline jobIndex runnerId key).Only Call.isTransfer :=
  .bind (transfer_call trivial) fun _ => .bind (okOr_only _ _) fun _ =>
    .bind (transfer_call trivial) fun _ => .bind (okOr_only _ _) fun _ =>
    .bind (transfer_call trivial) fun _ => .bind (transfer_call trivial) fun _ =>
    .bind (okOr_only _ _) fun _ => .bind (transfer_call trivial) fun _ => .pure _

lemma resolveJobOutput_transfers (pipeline : PipelineRun) (runnerId key : String)
    (expected : Option InputType) (jobIndex : ℕ) (outputName : String) :
    (resolveJobOutput pipeline runnerId key expected jobIndex outputName).Only Call.isTransfer := by
  refine .bind (findJobRunId_transfers _ _) fun _ => .bind (transfer_call trivial) fun _ =>
    .bind (okOr_only _ _) fun _ => ?_
  split
  · exact .fail _
  · split
    · exact .bind (okOr_only _ _) fun _ => .bind (ensureRunnerHasArtifact_transfers _ _ _) fun _ => .pure _
    · exact okOr_only _ _

lemma resolveJobInputs_transfers (pipeline : PipelineRun) (jobRunId : Id) (jobIndex : ℕ)
    (jobDefinition : WorkflowJobDefinition) (runnerJobDefinition : RunnerJobDefinition) :
    (resolveJobInputs pipeline jobRunId jobIndex jobDefinition runnerJobDefinition).Only
      Call.isTransfer := by
  have hbindings (bindings : List (String × WorkflowInputBinding)) (resolved : BTreeMap Value) :
      (resolveBindings pipeline jobIndex jobDefinition runnerJobDefinition bindings resolved).Only
        Call.isTransfer := by
    induction bindings generalizing resolved with
    | nil => exact .pure _
    | cons binding bindings ih =>
      refine .bind ?_ fun _ => ih _
      cases binding.2 with
      | commit => exact .pure _
      | branch => exact .pure _
      | sourceArtifact => exact .bind (ensureSourceArtifact_transfers _ _) fun _ => .pure _
      | promotedArtifact a b c => exact resolvePromotedArtifact_transfers _ _ _ _
      | jobOutput i name => exact resolveJobOutput_transfers _ _ _ _ _ _
      | literal value => exact .pure _
  refine .bind (hbindings _ _) fun resolved => ?_
  split <;> exact .pure _

lemma persistJobOutputs_transfers (runner : Runner) (jobRunId : Id)
    (outputs : List (String × JobOutput)) :
    (persistJobOutputs runner jobRunId outputs).Only Call.isTransfer := by
  induction outputs with
  | nil => exact .pure _
  | cons output outputs ih =>
    refine .bind ?_ fun _ => .bind ih fun _ => .pure _
    cases output.2 with
    | artifact id sha size =>
      exact .bind (transfer_call trivial) fun _ => .bind (transfer_call trivial) fun _ =>
        .bind (transfer_call trivial) fun _ => .pure _
    | _ => exact .pure _

lemma resolveJobInputs_only (pipeline : PipelineRun) (jobRunId : Id) (jobIndex : ℕ)
    (jobDefinition : WorkflowJobDefinition) (runnerJobDefinition : RunnerJobDefinition) :
    (resolveJobInputs pipeline jobRunId jobIndex jobDefinition runnerJobDefinition).Only
      Call.isQuiet :=
  (resolveJobInputs_transfers _ _ _ _ _).mono fun _ h => h.quiet

lemma persistJobOutputs_only (runner : Runner) (jobRunId : Id)
    (outputs : List (String × JobOutput)) :
    (persistJobOutputs runner jobRunId outputs).Only Call.isQuiet :=
  (persistJobOutputs_transfers _ _ _).mono fun _ h => h.quiet

end

lemma polledStatus_cases {stored : JobStatus} (h : stored.live = true) (status : RunnerJobStatus) :
    polledStatus stored status = stored ∨ polledStatus stored status = .cancelRequested ∨
      polledStatus stored status = .canceling := by
  cases stored <;> cases status <;> simp_all [polledStatus, JobStatus.live]

lemma finishedStatus_cases (status : RunnerJobStatus) :
    finishedStatus status = .failed ∨ finishedStatus status = .success ∨
      finishedStatus status = .canceled := by
  cases status <;> simp [finishedStatus]

def Settles (J : JobRun) (ended : Bool) : JobUpdate → Prop
  | .finishJobRun status _ _ _ _ _ _ _ _ =>
    (J.status = .pending ∧ status = .failed) ∨
      (ended = true ∧ (status = .failed ∨ status = .success ∨ status = .canceled))
  | .setJobRunStatus status =>
    J.status.live = true ∧ (status = .cancelRequested ∨ status = .canceling)
  | .requeueJobRunForInfraRetry => J.status = .pending ∨ ended = true
  | .markJobRunCancelRetryExhausted => J.status.live = true
  | _ => False

structure Assertions where
  idle : Store → Prop
  next : Store → Prop
  held : Store → Prop
  ended : Store → Prop
  owes : Store → Prop

abbrev Assertions.After (A : Assertions) {α : Type} : Except String α → Store → Prop :=
  onOk (β := Unit) (fun _ s => A.idle s) fun _ s => A.next s

structure Round (app : AppState) (D : Discipline Call Call.Result String Store) (J : JobRun)
    (A : Assertions) : Prop where
  exec : ∀ c s x s', D.admits c s x s' → ∃ o, c.exec app o s = (x, s')
  held_stable : ∀ s s', A.held s → D.rely s s' → D.inv s' → A.held s'
  over_stable : ∀ s s', A.ended s → D.rely s s' → D.inv s' → A.ended s'
  owes_stable : ∀ s s', A.owes s → D.rely s s' → D.inv s' → A.owes s'
  held_of_over : ∀ s, A.ended s → A.held s
  next_of_held : ∀ s, A.held s → A.next s
  idle_of_held : ∀ s, A.held s → A.idle s
  quiet : ∀ c s, c.isQuiet → A.held s → D.inv s → D.before c s ∧ ∀ x s', D.admits c s x s' →
    A.held s' ∧ (A.ended s → A.ended s')
  polled : ∀ runner runId s, J.status.live = true → J.runnerRunId = some runId → A.held s → D.inv s → ∀ x s',
    D.admits (.runner runner (.getJobRun runId)) s x s' → ∀ status, x = .ok status →
      status.status.isTerminal = true → A.ended s'
  create : ∀ runner name key body s, J.status = .pending → A.held s → D.inv s →
    D.before (.runner runner (.createJobRun J.id name key body)) s ∧ ∀ x s',
      D.admits (.runner runner (.createJobRun J.id name key body)) s x s' → A.held s'
  start : ∀ runId startedAt s, J.status = .pending → A.held s → D.inv s →
    D.before (.jobRun J.id (.setJobRunStarted runId startedAt)) s ∧ ∀ x s',
      D.admits (.jobRun J.id (.setJobRunStarted runId startedAt)) s x s' → A.After x s'
  missing : ∀ s s', J.status = .pending → A.held s → D.inv s →
    D.admits (.query (.getRunner J.runnerId)) s (.ok none) s' →
      Safe D A.After (Db.setJobRunStatus J.id .failed) s'
  retry : ∀ s, J.status.live = true → A.held s → D.inv s →
    D.before (.jobRun J.id .recordCancelRetry) s ∧ ∀ x s',
      D.admits (.jobRun J.id .recordCancelRetry) s x s' →
        onOk (β := Unit) (fun _ s => A.idle s) (fun _ s => A.held s) x s'
  settle : ∀ ended u s, Settles J ended u → A.held s → (ended = true → A.ended s) → D.inv s →
    D.before (.jobRun J.id u) s ∧ ∀ x s', D.admits (.jobRun J.id u) s x s' →
      onOk (β := Unit) (fun _ s => A.idle s) (fun _ s => A.owes s) x s'
  finalize : ∀ s, A.owes s → D.inv s →
    D.before (.pipelineRun J.pipelineRunId .finalizePipelineStatus) s ∧ ∀ x s',
      D.admits (.pipelineRun J.pipelineRunId .finalizePipelineStatus) s x s' → A.After x s'

section

variable {app : AppState} {D : Discipline Call Call.Result String Store} {J : JobRun}
variable {A : Assertions} {s : Store} (round : Round app D J A)

include round

lemma quiet_safe {α : Type} {p : Task α} (hp : p.Only Call.isQuiet) (hs : A.held s) :
    Safe D (fun _ s' => A.held s') p s :=
  Safe.of_only round.held_stable (fun c s hc h hi => (round.quiet c s hc h hi).1)
    (fun c s x s' hc h hi ha => ((round.quiet c s hc h hi).2 x s' ha).1) hp hs

lemma quiet_over_safe {α : Type} {p : Task α} (hp : p.Only Call.isQuiet) (hs : A.ended s) :
    Safe D (fun _ s' => A.ended s') p s :=
  Safe.of_only round.over_stable
    (fun c s hc h hi => (round.quiet c s hc (round.held_of_over s h) hi).1)
    (fun c s x s' hc h hi ha =>
      ((round.quiet c s hc (round.held_of_over s h) hi).2 x s' ha).2 h) hp hs

lemma finalize_safe (hs : A.owes s) :
    Safe D A.After (Db.finalizePipelineStatus J.pipelineRunId) s :=
  Safe.request hs round.owes_stable round.finalize

lemma update_safe {ended : Bool} {u : JobUpdate} (hu : Settles J ended u) (hs : A.held s)
    (ho : ended = true → A.ended s) :
    Safe D (onOk (β := Unit) (fun _ s => A.idle s) fun _ s => A.owes s) (call (.jobRun J.id u)) s := by
  refine Safe.request (P := fun s => A.held s ∧ (ended = true → A.ended s)) ⟨hs, ho⟩ ?_ ?_
  · intro s s' h hr hi
    exact ⟨round.held_stable s s' h.1 hr hi, fun he => round.over_stable s s' (h.2 he) hr hi⟩
  · intro s' h hi
    exact round.settle ended u s' hu h.1 h.2 hi

lemma settle_safe {α : Type} {p : Task α}
    (hp : Safe D (onOk (β := Unit) (fun _ s => A.idle s) fun _ s => A.owes s) p s) :
    Safe D A.After (p >>= fun _ => Db.finalizePipelineStatus J.pipelineRunId) s := by
  refine Safe.bind (Safe.mono ?_ hp)
  intro r s' hr
  cases r with
  | error e => exact hr
  | ok a => exact finalize_safe round hr

lemma requeue_safe {ended : Bool} (h : J.status = .pending ∨ ended = true) (hs : A.held s)
    (ho : ended = true → A.ended s) :
    Safe D A.After (requeueJob J >>= fun _ => Db.finalizePipelineStatus J.pipelineRunId) s := by
  refine settle_safe round (Safe.bind (Safe.mono ?_
    (update_safe (u := .requeueJobRunForInfraRetry) round h hs ho)))
  intro r s' hr
  cases r <;> exact hr

lemma retryOrFailInfraError_safe {ended : Bool} (h : J.status = .pending ∨ ended = true)
    (reason stderr : String) (metadata : JobOutputMetadata) (stdout : String) (hs : A.held s)
    (ho : ended = true → A.ended s) :
    Safe D A.After (retryOrFailInfraError app J reason stderr metadata stdout) s := by
  simp only [retryOrFailInfraError]
  split
  · exact requeue_safe round h hs ho
  · exact settle_safe round (update_safe (u := .finishJobRun .failed none none (some reason)
      (some "infra") metadata stdout stderr []) round
      (h.imp (fun h => ⟨h, rfl⟩) fun h => ⟨h, .inl rfl⟩) hs ho)

section

variable (hpend : J.status = .pending)

include hpend

lemma start_safe (runId : String) (startedAt : Timestamp) (hs : A.held s) :
    Safe D A.After (Db.setJobRunStarted J.id runId startedAt) s :=
  Safe.request hs round.held_stable fun s' hs' hi => round.start runId startedAt s' hpend hs' hi

lemma createAndStartJob_safe (runner : Runner) (payload : BTreeMap Value) (hs : A.held s) :
    Safe D A.After (createAndStartJob J runner payload) s := by
  refine Safe.bind (Safe.mono ?_ (quiet_safe round (quiet_call trivial) hs))
  intro r s₁ hs₁
  cases r with
  | error e => exact round.idle_of_held s₁ hs₁
  | ok u =>
    have hcreate : Safe D (fun _ s' => A.held s') (RunnerClient.createJobRun runner J.id
        J.runnerJobName J.dispatchIdempotencyKey payload.entries) s₁ :=
      Safe.request hs₁ round.held_stable fun s' hs' hi =>
        round.create runner _ _ _ s' hpend hs' hi
    refine Safe.bind (Safe.attempt (Safe.mono ?_ hcreate))
    intro r s₂ hs₂
    cases r with
    | ok created => exact start_safe round hpend _ _ hs₂
    | error message =>
      simp only [onOk_ok]
      split
      · exact settle_safe round (update_safe (u := .finishJobRun .failed none none
          (some "spawn_error") (some "job") {} "" ("failed to create runner job: " ++ message) [])
          round (.inl ⟨hpend, rfl⟩) hs₂ (fun h : false = true => by cases h))
      · exact round.idle_of_held s₂ hs₂

lemma resolveAndCreateJob_safe (runner : Runner) (pipeline : PipelineRun)
    (jobDefinition : WorkflowJobDefinition) (runnerJobDefinition : RunnerJobDefinition)
    (hs : A.held s) :
    Safe D A.After
      (resolveAndCreateJob app J runner pipeline jobDefinition runnerJobDefinition) s := by
  refine Safe.bind (Safe.attempt (Safe.mono ?_
    (quiet_safe round (resolveJobInputs_only _ _ _ _ _) hs)))
  intro r s₁ hs₁
  cases r with
  | ok payload => exact createAndStartJob_safe round hpend runner payload hs₁
  | error message =>
    simp only [onOk_ok]
    split
    · exact retryOrFailInfraError_safe round (.inl hpend) _ _ _ _ hs₁
        (fun h : false = true => by cases h)
    · exact round.idle_of_held s₁ hs₁

lemma dispatchAtRunner_safe (runner : Runner) (hs : A.held s) :
    Safe D A.After (dispatchAtRunner app J runner) s := by
  simp only [dispatchAtRunner]
  split
  · refine Safe.bind (Safe.mono ?_ (quiet_safe round (quiet_call trivial) hs))
    intro r s₁ hs₁
    rcases r with e | (_ | pipeline)
    · exact round.idle_of_held s₁ hs₁
    · exact round.next_of_held s₁ hs₁
    · refine Safe.bind (Safe.mono ?_ (quiet_safe round (quiet_call trivial) hs₁))
      intro r s₂ hs₂
      rcases r with e | (e | definition)
      · exact round.idle_of_held s₂ hs₂
      · exact round.idle_of_held s₂ hs₂
      · simp only [onOk_ok, fromStr, Program.done_bind]
        refine Safe.bind (Safe.mono ?_ (quiet_safe round (quiet_call trivial) hs₂))
        intro r s₃ hs₃
        cases r with
        | error e => exact round.idle_of_held s₃ hs₃
        | ok jobSchemas =>
          simp only [onOk_ok]
          split
          · exact resolveAndCreateJob_safe round hpend _ _ _ _ hs₃
          · exact round.next_of_held s₃ hs₃
  · exact round.next_of_held s hs

theorem dispatchReadyJob_safe (hs : A.held s) : Safe D A.After (dispatchReadyJob app J) s := by
  refine Safe.bind (Safe.request hs round.held_stable ?_)
  intro s' hs' hi
  obtain ⟨hb, ha⟩ := round.quiet (.query (.getRunner J.runnerId)) s' trivial hs' hi
  refine ⟨hb, fun x s'' hx => ?_⟩
  rcases x with e | (_ | runner)
  · exact round.idle_of_held s'' (ha _ s'' hx).1
  · exact round.missing s' s'' hpend hs' hi hx
  · exact dispatchAtRunner_safe round hpend runner (ha _ s'' hx).1

end

lemma retryCancellation_safe (runner : Runner) (runId : String) (early : Bool)
    (hlive : J.status.live = true) (hs : A.held s) :
    Safe D (onOk (β := Unit) (fun _ s => A.idle s) fun exhausted s =>
        if exhausted then A.owes s else A.held s)
      (retryCancellation app J runner runId early) s := by
  simp only [retryCancellation]
  split
  · exact hs
  · split
    · refine Safe.bind (Safe.mono ?_ (update_safe
        (u := .markJobRunCancelRetryExhausted) round hlive hs (fun h : false = true => by cases h)))
      intro r s₁ hs₁
      cases r <;> exact hs₁
    · refine Safe.bind (Safe.mono ?_ (quiet_safe round (quiet_call trivial) hs))
      intro r s₁ hs₁
      cases r with
      | error e => exact round.idle_of_held s₁ hs₁
      | ok u =>
        refine Safe.bind (Safe.mono ?_ (Safe.request hs₁ round.held_stable
          fun s' hs' hi => round.retry s' hlive hs' hi))
        intro r s₂ hs₂
        cases r <;> exact hs₂

lemma retryStuckCancellation_safe (runner : Runner) (runId : String) (hlive : J.status.live = true)
    (hs : A.held s) :
    Safe D (onOk (β := Unit) (fun _ s => A.idle s) fun exhausted s =>
        if exhausted then A.owes s else A.held s)
      (retryStuckCancellation app J runner runId) s := by
  simp only [retryStuckCancellation]
  split
  · split
    · exact hs
    · refine Safe.bind (Safe.mono ?_ (quiet_safe round (quiet_call trivial) hs))
      intro r s₁ hs₁
      cases r with
      | error e => exact round.idle_of_held s₁ hs₁
      | ok now =>
        simp only [onOk_ok]
        exact retryCancellation_safe round runner runId _ hlive hs₁
  · exact hs

lemma storeFinishedJob_safe (runner : Runner) (status : JobStatusResponse) (logs : JobLogsResponse)
    (hs : A.ended s) : Safe D A.After (storeFinishedJob app J runner status logs) s := by
  refine Safe.bind (Safe.attempt (Safe.mono ?_
    (quiet_over_safe round (persistJobOutputs_only _ _ _) hs)))
  intro r s₁ hs₁
  have hheld := round.held_of_over s₁ hs₁
  cases r with
  | error e => exact retryOrFailInfraError_safe round (.inr rfl) _ _ _ _ hheld fun _ => hs₁
  | ok outputs =>
    refine settle_safe round (update_safe round ?_ hheld fun _ : true = true => hs₁)
    exact .inr ⟨rfl, finishedStatus_cases status.status⟩

lemma finishPolledJob_safe (runner : Runner) (runId : String) (status : JobStatusResponse)
    (hs : A.ended s) : Safe D A.After (finishPolledJob app J runner runId status) s := by
  refine Safe.bind (Safe.attempt (Safe.mono ?_ (quiet_over_safe round (quiet_call trivial) hs)))
  intro r s₁ hs₁
  simp only [onOk_ok]
  split
  · exact requeue_safe round (.inr rfl) (round.held_of_over s₁ hs₁) fun _ => hs₁
  · exact storeFinishedJob_safe round runner status _ hs₁

lemma recordPolledStatus_safe (runner : Runner) (runId : String)
    (answer : Except String JobStatusResponse) (hlive : J.status.live = true) (hs : A.held s)
    (ho : ∀ status, answer = .ok status → status.status.isTerminal = true → A.ended s) :
    Safe D A.After (recordPolledStatus app J runner runId answer) s := by
  cases answer with
  | error e => exact round.next_of_held s hs
  | ok status =>
    simp only [recordPolledStatus]
    split
    · next hterminal => exact finishPolledJob_safe round runner runId status (ho status rfl hterminal)
    · split
      · exact round.next_of_held s hs
      · next hne =>
        refine settle_safe round (update_safe round ?_ hs (fun h : false = true => by cases h))
        exact ⟨hlive, (polledStatus_cases hlive status.status).resolve_left fun h => hne h.symm⟩

lemma getJobRun_safe (runner : Runner) {runId : String} (hlive : J.status.live = true)
    (hrun : J.runnerRunId = some runId) (hs : A.held s) :
    Safe D (fun x s' => A.held s' ∧ ∀ status, x = .ok status → status.status.isTerminal = true →
      A.ended s') (RunnerClient.getJobRun runner runId) s := by
  refine Safe.request hs round.held_stable ?_
  intro s' hs' hi
  obtain ⟨hb, ha⟩ := round.quiet (.runner runner (.getJobRun runId)) s' trivial hs' hi
  exact ⟨hb, fun x s'' hx => ⟨(ha x s'' hx).1, round.polled runner runId s' hlive hrun hs' hi x s'' hx⟩⟩

theorem pollRunningJob_safe (hlive : J.status.live = true) (hs : A.held s) :
    Safe D A.After (pollRunningJob app J) s := by
  refine Safe.bind (Safe.mono ?_ (quiet_safe round (quiet_call trivial) hs))
  intro r s₁ hs₁
  cases r with
  | error e => exact round.idle_of_held s₁ hs₁
  | ok runner =>
    simp only [onOk_ok]
    split
    · next runner runId hrun =>
      refine Safe.bind (Safe.mono ?_ (retryStuckCancellation_safe round _ _ hlive hs₁))
      intro r s₂ hs₂
      rcases r with e | (_ | _)
      · exact hs₂
      · refine Safe.bind (Safe.attempt (Safe.mono ?_ (getJobRun_safe round runner hlive hrun hs₂)))
        intro r s₃ hs₃
        exact recordPolledStatus_safe round runner runId r hlive hs₃.1 hs₃.2
      · exact finalize_safe round hs₂
    · exact round.next_of_held s₁ hs₁

end

end Janus.Server
