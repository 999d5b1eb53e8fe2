import Janus.Server.Footprint

/-! Whether an ended job stays ended, and whether the server knows of the live runs, with
cancellations beside the passes. -/

namespace Janus.Server

open Janus.Concurrency Janus.Data

def JobRun.GivenUp (job : JobRun) : Prop :=
  job.status = .failed ∧ job.cancelReason = some "stuck_retry_exhausted"

instance (job : JobRun) : Decidable job.GivenUp := inferInstanceAs (Decidable (_ ∧ _))

def JobRun.Follows (job : JobRun) (runId : String) : Prop :=
  job.status.live = true ∧ job.runnerRunId = some runId

instance (job : JobRun) (runId : String) : Decidable (job.Follows runId) :=
  inferInstanceAs (Decidable (_ ∧ _))

/-- Jobs that a pass has ended are stored as ended, and a run that goes on after the server has stored
its id is known to it, or given up. -/
structure Store.Observed (s : Store) : Prop where
  finished : ∀ id ∈ s.history.finished, ∃ R ∈ s.db.jobRuns.rows, R.id = id ∧ R.status.terminal = true
  runs : ∀ run ∈ s.history.runs, run.live = true → run.recorded = true →
    ∃ R ∈ s.db.jobRuns.rows, R.id = run.jobRunId ∧ (R.Follows run.id ∨ R.GivenUp)

instance (s : Store) : Decidable s.Observed :=
  decidable_of_iff (_ ∧ _) ⟨fun h => ⟨h.1, h.2⟩, fun h => ⟨h.finished, h.runs⟩⟩

structure Store.Keeps (s s' : Store) : Prop where
  rows : ∀ J ∈ s.db.jobRuns.rows, J.id ∈ s.history.finished → J ∈ s'.db.jobRuns.rows
  finished : ∀ id ∈ s.history.finished, id ∈ s'.history.finished

structure Store.Extends (s s' : Store) : Prop where
  jobRuns : ∀ J ∈ s.db.jobRuns.rows, J ∈ s'.db.jobRuns.rows
  finished : s'.history.finished = s.history.finished
  runs : ∀ run ∈ s'.history.runs, run.recorded = true → run ∈ s.history.runs

section

variable {app : AppState} {o : Outcome} {s s' : Store} {R : JobRun} {u : JobUpdate}

lemma Store.Observed.extends (h : s.Observed) (he : s.Extends s') : s'.Observed := by
  constructor
  · intro id hid
    obtain ⟨R, hR, hrest⟩ := h.finished id (he.finished ▸ hid)
    exact ⟨R, he.jobRuns R hR, hrest⟩
  · intro run hrun hlive hrecorded
    obtain ⟨R, hR, hrest⟩ := h.runs run (he.runs run hrun hrecorded) hlive hrecorded
    exact ⟨R, he.jobRuns R hR, hrest⟩

lemma Store.Extends.keeps (h : s.Extends s') : s.Keeps s' :=
  ⟨fun J hJ _ => h.jobRuns J hJ, fun _ hid => h.finished ▸ hid⟩

lemma Store.Observed.no_run (h : s.Observed) (hR : R ∈ s.db.jobRuns.rows)
    (hst : R.status = .pending ∨ R.status = .canceled) {run : RunnerRun}
    (hrun : run ∈ s.history.runs) (hlive : run.live = true) (hrecorded : run.recorded = true) :
    run.jobRunId ≠ R.id := by
  intro hid
  obtain ⟨R', hR', hid', hcase⟩ := h.runs run hrun hlive hrecorded
  obtain rfl := Database.jobRun_eq hR hR' (hid.symm.trans hid'.symm)
  rcases hcase with ⟨hl, -⟩ | ⟨hf, -⟩
  · rcases hst with h | h <;> rw [h] at hl <;> cases hl
  · rcases hst with h | h <;> rw [h] at hf <;> cases hf

lemma exec_jobRun_cases {id : Id} {x : Except String u.Result}
    (h : (Call.jobRun id u).exec app o s = (x, s')) :
    (s'.db.jobRuns = s.db.jobRuns ∧ s'.history = s.history) ∨
      (s'.db.jobRuns = s.db.jobRuns.modify id (u.row o.now o.dispatchKey)
        (fun job => (u.row_same o.now o.dispatchKey job).id) ∧
        s'.history = s.history.update id u) := by
  rcases exec_cases h with ⟨rfl, -⟩ | hp
  · exact .inl ⟨rfl, rfl⟩
  · simp only [Call.perform] at hp
    have hs := (Prod.mk.inj hp).2.symm
    cases hb : u.breaksUnique s.db o.dispatchKey id with
    | true =>
      -- Only a requeue is refused.
      refine .inl ⟨?_, ?_⟩
      · rw [hs]
        simp only [Database.updateJobRun, hb, if_true]
      · rw [hs]
        cases u <;> first | rfl | cases hb
    | false =>
      refine .inr ⟨?_, ?_⟩
      · rw [hs]
        simp only [Database.updateJobRun, hb]
        cases u <;> rfl
      · rw [hs]

def JobUpdate.starts : JobUpdate → Bool
  | .setJobRunStarted _ _ => true
  | _ => false

def JobUpdate.finishes : JobUpdate → Bool
  | .finishJobRun _ _ _ _ _ _ _ _ _ => true
  | .markJobRunCancelRetryExhausted => true
  | _ => false

lemma JobUpdate.history_of_not_finishes (h : History) (id : Id) (hu : u.finishes = false) :
    (h.update id u).finished = h.finished := by
  cases u <;> first | rfl | cases hu

lemma JobUpdate.history_of_finishes (h : History) (id : Id) (hu : u.finishes = true) :
    (h.update id u).finished = id :: h.finished := by
  cases u <;> first | rfl | cases hu

lemma JobUpdate.runs_of_not_starts (h : History) (id : Id) (hu : u.starts = false) :
    (h.update id u).runs = h.runs := by
  cases u <;> first | rfl | cases hu

structure JobUpdate.Leaves (s : Store) (R : JobRun) (u : JobUpdate) : Prop where
  unfinished : R.id ∉ s.history.finished
  ends : u.finishes = true → ∀ now key, (u.row now key R).status.terminal = true
  runs : ∀ run ∈ s.history.runs, run.live = true → run.recorded = true → run.jobRunId = R.id →
    u.starts = false ∧ ∀ now key, (u.row now key R).Follows run.id ∨ (u.row now key R).GivenUp

lemma Store.Observed.update {x : Except String u.Result} (h : s.Observed)
    (hR : R ∈ s.db.jobRuns.rows) (hu : u.Leaves s R)
    (hexec : (Call.jobRun R.id u).exec app o s = (x, s')) : s'.Observed ∧ s.Keeps s' := by
  rcases exec_jobRun_cases hexec with ⟨hjobs, hhistory⟩ | ⟨hjobs, hhistory⟩
  · have he : s.Extends s' := ⟨fun J hJ => hjobs ▸ hJ, by rw [hhistory], fun run hrun _ => hhistory ▸ hrun⟩
    exact ⟨h.extends he, he.keeps⟩
  have hown : u.row o.now o.dispatchKey R ∈ s'.db.jobRuns.rows := by
    rw [hjobs, Table.mem_modify]
    exact ⟨R, hR, .inl ⟨rfl, rfl⟩⟩
  have hother (K : JobRun) (hK : K ∈ s.db.jobRuns.rows) (hid : K.id ≠ R.id) :
      K ∈ s'.db.jobRuns.rows := by
    rw [hjobs, Table.mem_modify]
    exact ⟨K, hK, .inr ⟨hid, rfl⟩⟩
  have hsub (id : Id) (hid : id ∈ s.history.finished) : id ∈ s'.history.finished := by
    rw [hhistory]
    cases hf : u.finishes with
    | true =>
      rw [u.history_of_finishes _ _ hf]
      exact List.mem_cons_of_mem _ hid
    | false => rwa [u.history_of_not_finishes _ _ hf]
  have hold (run : RunnerRun) (hrun : run ∈ s.history.runs) (hlive : run.live = true)
      (hrecorded : run.recorded = true) :
      ∃ K ∈ s'.db.jobRuns.rows, K.id = run.jobRunId ∧ (K.Follows run.id ∨ K.GivenUp) := by
    by_cases hid : run.jobRunId = R.id
    · obtain ⟨-, hcase⟩ := hu.runs run hrun hlive hrecorded hid
      exact ⟨_, hown, (u.row_same _ _ R).id.trans hid.symm, hcase _ _⟩
    · obtain ⟨K, hK, hKid, hcase⟩ := h.runs run hrun hlive hrecorded
      exact ⟨K, hother K hK (hKid ▸ hid), hKid, hcase⟩
  refine ⟨⟨?_, ?_⟩, ⟨fun K hK hid => hother K hK fun he => hu.unfinished (he ▸ hid), hsub⟩⟩
  · intro id hid
    rw [hhistory] at hid
    have hkept (hid : id ∈ s.history.finished) :
        ∃ K ∈ s'.db.jobRuns.rows, K.id = id ∧ K.status.terminal = true := by
      obtain ⟨K, hK, hKid, hterminal⟩ := h.finished id hid
      exact ⟨K, hother K hK fun he => hu.unfinished (he ▸ hKid ▸ hid), hKid, hterminal⟩
    cases hf : u.finishes with
    | true =>
      rw [u.history_of_finishes _ _ hf] at hid
      rcases List.mem_cons.mp hid with rfl | hid
      · exact ⟨_, hown, (u.row_same _ _ R).id, hu.ends hf _ _⟩
      · exact hkept hid
    | false => exact hkept (u.history_of_not_finishes _ _ hf ▸ hid)
  · intro run hrun hlive hrecorded
    rw [hhistory] at hrun
    cases hst : u.starts with
    | false => exact hold run (u.runs_of_not_starts _ _ hst ▸ hrun) hlive hrecorded
    | true =>
      cases u with
      | setJobRunStarted runId startedAt =>
        obtain ⟨run₀, hrun₀, rfl⟩ := List.mem_map.mp hrun
        split at hlive
        · next hnew =>
          rw [if_pos hnew]
          exact ⟨_, hown, hnew.2.symm, .inl ⟨rfl, congrArg some hnew.1.symm⟩⟩
        · next hne =>
          rw [if_neg hne] at hrecorded ⊢
          exact hold run₀ hrun₀ hlive hrecorded
      | _ => cases hst

end

structure JobRun.Overtaken (J R : JobRun) : Prop where
  id : R.id = J.id
  runnerRunId : R.runnerRunId = J.runnerRunId
  status : R.status = J.status ∨ (J.status = .pending ∧ R.status = .canceled) ∨
    (J.status.live = true ∧ R.status = .cancelRequested)

lemma JobRun.Overtaken.refl (J : JobRun) : J.Overtaken J := ⟨rfl, rfl, .inl rfl⟩

lemma JobRun.Overtaken.trans {J R R' : JobRun} (h : J.Overtaken R) (h' : R.Overtaken R') :
    J.Overtaken R' := by
  refine ⟨h'.id.trans h.id, h'.runnerRunId.trans h.runnerRunId, ?_⟩
  rcases h.status with hs | ⟨hp, hs⟩ | ⟨hl, hs⟩
  · simpa only [hs] using h'.status
  · rcases h'.status with hs' | ⟨hp', -⟩ | ⟨hl', -⟩
    · exact .inr (.inl ⟨hp, hs'.trans hs⟩)
    · rw [hs] at hp'
      cases hp'
    · rw [hs] at hl'
      cases hl'
  · rcases h'.status with hs' | ⟨hp', -⟩ | ⟨-, hs'⟩
    · exact .inr (.inr ⟨hl, hs'.trans hs⟩)
    · rw [hs] at hp'
      cases hp'
    · exact .inr (.inr ⟨hl, hs'⟩)

lemma JobRun.Overtaken.waiting {J R : JobRun} (h : J.Overtaken R) (hp : J.status = .pending) :
    R.status = .pending ∨ R.status = .canceled := by
  rcases h.status with hs | ⟨-, hs⟩ | ⟨hl, -⟩
  · exact .inl (hs.trans hp)
  · exact .inr hs
  · rw [hp] at hl
    cases hl

lemma JobRun.Overtaken.live {J R : JobRun} (h : J.Overtaken R) (hl : J.status.live = true) :
    R.status.live = true := by
  rcases h.status with hs | ⟨hp, -⟩ | ⟨-, hs⟩
  · rw [hs]
    exact hl
  · rw [hp] at hl
    cases hl
  · rw [hs]
    rfl

structure Store.Overtakes (s s' : Store) : Prop where
  rows : ∀ R ∈ s.db.jobRuns.rows, ∃ R' ∈ s'.db.jobRuns.rows, R.Overtaken R'
  finished : s'.history.finished = s.history.finished
  runs : ∀ run ∈ s'.history.runs, run.live = true →
    ∃ run₀ ∈ s.history.runs, run₀.id = run.id ∧ run₀.live = true

lemma Store.Overtakes.refl (s : Store) : s.Overtakes s :=
  ⟨fun R hR => ⟨R, hR, .refl R⟩, rfl, fun run hrun hl => ⟨run, hrun, rfl, hl⟩⟩

lemma Store.Overtakes.trans {s s' s'' : Store} (h : s.Overtakes s') (h' : s'.Overtakes s'') :
    s.Overtakes s'' := by
  refine ⟨fun R hR => ?_, h'.finished.trans h.finished, fun run hrun hl => ?_⟩
  · obtain ⟨R', hR', ho⟩ := h.rows R hR
    obtain ⟨R'', hR'', ho'⟩ := h'.rows R' hR'
    exact ⟨R'', hR'', ho.trans ho'⟩
  · obtain ⟨run', hrun', hid', hl'⟩ := h'.runs run hrun hl
    obtain ⟨run₀, hrun₀, hid₀, hl₀⟩ := h.runs run' hrun' hl'
    exact ⟨run₀, hrun₀, hid₀.trans hid', hl₀⟩

/-- The writes of `cancel_pipeline` meet the row as it was read, and a runner reports a run as ended
only when it has ended. -/
def Call.Heeds (app : AppState) (o : Outcome) (s : Store) : Call → Prop
  | .jobRun id (.setJobRunStatus status) => status = .canceled →
    ∀ R ∈ s.db.jobRuns.rows, R.id = id → R.status = .pending
  | .jobRun id (.markJobRunCancelRequested _) =>
    ∀ R ∈ s.db.jobRuns.rows, R.id = id → R.status.live = true
  | .runner _ (.getJobRun runId) =>
    match (RunnerRequest.getJobRun runId).receive app.limits o.reply with
    | .ok (status : JobStatusResponse) => status.status.isTerminal = true →
      ∀ run ∈ s.history.runs, run.id = runId → run.live = false
    | .error _ => True
  | _ => True

def Call.updatesJob : Call → Bool
  | .jobRun _ _ => true
  | _ => false

def Call.isOutside : Call → Prop
  | .query _ => True
  | .jobRun _ (.setJobRunStatus status) => status = .canceled
  | .jobRun _ (.markJobRunCancelRequested _) => True
  | .pipelineRun _ _ => True
  | .insert _ => True
  | .markPushEventProcessed _ => True
  | .runner _ (.cancelJobRun _) => True
  | _ => False

section

variable {app : AppState} {o : Outcome} {s s' : Store}

lemma FileCall.exec_history (f : FileCall) : (f.exec app o s).2.history = s.history := by
  have hstore (a b c d) : (FileCall.exec.store app o s a b c d).2.history = s.history := by
    simp only [FileCall.exec.store]
    split <;> rfl
  cases f with
  | readBytes path => simp only [FileCall.exec]; split <;> rfl
  | storeBytes a b c d => exact hstore a b c d
  | archiveExists p c => rfl
  | createSourceArchive b p c => simp only [FileCall.exec]; split <;> rfl
  | storeFile a b c p sha =>
    simp only [FileCall.exec]
    split
    · exact hstore a b c _
    · rfl

lemma History.accept_runs {h : History} {jobRunId : Id} {runId : String} {run : RunnerRun}
    (hrun : run ∈ (h.accept jobRunId runId).runs) (hrecorded : run.recorded = true) : run ∈ h.runs := by
  simp only [accept] at hrun
  split at hrun
  · exact hrun
  · rcases List.mem_cons.mp hrun with rfl | hrun
    · cases hrecorded
    · exact hrun

lemma History.accept_finished (h : History) (jobRunId : Id) (runId : String) :
    (h.accept jobRunId runId).finished = h.finished := by
  simp only [accept]
  split <;> rfl

lemma exec_history {c : Call} {x : Except String c.Result} (hjob : c.updatesJob = false)
    (hcreate : c.sends = none) (h : c.exec app o s = (x, s')) : s'.history = s.history := by
  rcases exec_cases h with ⟨rfl, -⟩ | hp
  · rfl
  · cases c with
    | jobRun id u => cases hjob
    | runner r request =>
      cases request with
      | createJobRun id name key body => cases hcreate
      | _ => cases hp; rfl
    | file f =>
      rw [(Prod.mk.inj hp).2.symm]
      exact f.exec_history
    | _ => cases hp; rfl

lemma exec_jobRuns_grow {c : Call} {x : Except String c.Result} (hjob : c.updatesJob = false)
    (h : c.exec app o s = (x, s')) : ∀ J ∈ s.db.jobRuns.rows, J ∈ s'.db.jobRuns.rows := by
  intro J hJ
  cases exec_effect h with
  | untouched tables _ => exact tables.jobRuns ▸ hJ
  | jobRun id u _ _ _ _ _ => cases hjob
  | pipelineRun _ _ _ jobRuns _ _ => exact jobRuns ▸ hJ
  | createPipelineRun _ _ _ _ _ _ _ _ _ jobRuns _ _ _ => exact jobRuns ▸ hJ
  | createJobRun _ _ _ _ _ _ _ _ _ jobRuns _ _ _ =>
    rw [Table.rows_insert? jobRuns]
    exact List.mem_append_left _ hJ
  | addPreviousJob _ _ _ _ jobRuns _ _ _ => exact jobRuns ▸ hJ

lemma exec_extends {c : Call} {x : Except String c.Result} (hjob : c.updatesJob = false)
    (h : c.exec app o s = (x, s')) : s.Extends s' := by
  cases hcreate : c.sends with
  | none =>
    have hhistory := exec_history hjob hcreate h
    exact ⟨exec_jobRuns_grow hjob h, by rw [hhistory], fun run hrun _ => hhistory ▸ hrun⟩
  | some id =>
    cases c with
    | runner r request =>
      cases request with
      | createJobRun id name key body =>
        cases h
        refine ⟨fun J hJ => hJ, ?_, fun run hrun hrecorded => ?_⟩
        · simp only [History.answer]
          split
          · exact s.history.accept_finished _ _
          · rfl
        · simp only [History.answer] at hrun
          split at hrun
          · exact History.accept_runs hrun hrecorded
          · exact hrun
      | _ => cases hcreate
    | _ => cases hcreate

lemma exec_overtakes {c : Call} {x : Except String c.Result} (hjob : c.updatesJob = false)
    (hcreate : c.sends = none) (h : c.exec app o s = (x, s')) : s.Overtakes s' := by
  have hhistory := exec_history hjob hcreate h
  exact ⟨fun R hR => ⟨R, exec_jobRuns_grow hjob h R hR, .refl R⟩, by rw [hhistory],
    fun run hrun hl => ⟨run, hhistory ▸ hrun, rfl, hl⟩⟩

def Call.Good (app : AppState) (s : Store) (c : Call) : Prop :=
  ∀ o x s', c.exec app o s = (x, s') → (c.refusal o.fault = none → c.Heeds app o s) →
    s'.Observed ∧ s.Keeps s'

lemma good_of_extends {c : Call} (hjob : c.updatesJob = false) (hs : s.Observed) :
    c.Good app s := by
  intro o x s' h _
  have he := exec_extends hjob h
  exact ⟨hs.extends he, he.keeps⟩

lemma good_update {R : JobRun} {u : JobUpdate} (hs : s.Observed) (hR : R ∈ s.db.jobRuns.rows)
    (hu : u.Leaves s R) : (Call.jobRun R.id u).Good app s :=
  fun _ _ _ h _ => hs.update hR hu h

lemma Store.Observed.unfinished {R : JobRun} (hs : s.Observed) (hR : R ∈ s.db.jobRuns.rows)
    (hst : R.status = .pending ∨ R.status.live = true) : R.id ∉ s.history.finished := by
  intro hid
  obtain ⟨R', hR', he, hterminal⟩ := hs.finished _ hid
  obtain rfl := Database.jobRun_eq hR' hR he
  obtain ⟨hn, hl⟩ := JobStatus.terminal_iff.mp hterminal
  rcases hst with h | h
  · exact hn h
  · rw [hl] at h
    cases h

lemma Store.Observed.follows {R : JobRun} (hs : s.Observed) (hR : R ∈ s.db.jobRuns.rows)
    (hlive : R.status.live = true) {run : RunnerRun} (hrun : run ∈ s.history.runs)
    (hl : run.live = true) (hrecorded : run.recorded = true) (hid : run.jobRunId = R.id) :
    R.Follows run.id := by
  obtain ⟨R', hR', hid', hcase⟩ := hs.runs run hrun hl hrecorded
  obtain rfl := Database.jobRun_eq hR hR' (hid.symm.trans hid'.symm)
  refine hcase.resolve_right ?_
  rintro ⟨hf, -⟩
  rw [hf] at hlive
  cases hlive

lemma leaves_canceled {R : JobRun} (hs : s.Observed) (hR : R ∈ s.db.jobRuns.rows)
    (hst : R.status = .pending) : (JobUpdate.setJobRunStatus .canceled).Leaves s R where
  unfinished := hs.unfinished hR (.inl hst)
  ends := nofun
  runs _ hrun hl hrecorded hid := (hs.no_run hR (.inl hst) hrun hl hrecorded hid).elim

lemma leaves_cancelRequested {R : JobRun} (hs : s.Observed) (hR : R ∈ s.db.jobRuns.rows)
    (hst : R.status.live = true) (reason : String) :
    (JobUpdate.markJobRunCancelRequested reason).Leaves s R where
  unfinished := hs.unfinished hR (.inr hst)
  ends := nofun
  runs _ hrun hl hrecorded hid :=
    ⟨rfl, fun _ _ => .inl ⟨rfl, (hs.follows hR hst hrun hl hrecorded hid).2⟩⟩

lemma cancel_update {id : Id} {u : JobUpdate} {x : Except String u.Result} (hs : s.Observed)
    (hfinish : u.finishes = false) (hstart : u.starts = false)
    (hrow : ∀ R ∈ s.db.jobRuns.rows, R.id = id → u.Leaves s R ∧
      ∀ now key, R.Overtaken (u.row now key R))
    (h : (Call.jobRun id u).exec app o s = (x, s')) : (s'.Observed ∧ s.Keeps s') ∧ s.Overtakes s' := by
  constructor
  · by_cases hfound : ∃ R ∈ s.db.jobRuns.rows, R.id = id
    · obtain ⟨R, hR, rfl⟩ := hfound
      exact hs.update hR (hrow R hR rfl).1 h
    · have he : s.Extends s' := by
        rcases exec_jobRun_cases h with ⟨hjobs, hhistory⟩ | ⟨hjobs, hhistory⟩
        · exact ⟨fun J hJ => hjobs ▸ hJ, by rw [hhistory], fun run hrun _ => hhistory ▸ hrun⟩
        · refine ⟨fun J hJ => ?_, ?_, fun run hrun _ => ?_⟩
          · rw [hjobs, Table.mem_modify]
            exact ⟨J, hJ, .inr ⟨fun he => hfound ⟨J, hJ, he⟩, rfl⟩⟩
          · rw [hhistory, u.history_of_not_finishes _ _ hfinish]
          · rw [hhistory, u.runs_of_not_starts _ _ hstart] at hrun
            exact hrun
      exact ⟨hs.extends he, he.keeps⟩
  · rcases exec_jobRun_cases h with ⟨hjobs, hhistory⟩ | ⟨hjobs, hhistory⟩
    · exact ⟨fun R hR => ⟨R, hjobs ▸ hR, .refl R⟩, by rw [hhistory],
        fun run hrun hl => ⟨run, hhistory ▸ hrun, rfl, hl⟩⟩
    · refine ⟨fun R hR => ?_, ?_, fun run hrun hl => ⟨run, ?_, rfl, hl⟩⟩
      · rw [hjobs]
        by_cases hid : R.id = id
        · exact ⟨_, Table.mem_modify.mpr ⟨R, hR, .inl ⟨hid, rfl⟩⟩, (hrow R hR hid).2 _ _⟩
        · exact ⟨R, Table.mem_modify.mpr ⟨R, hR, .inr ⟨hid, rfl⟩⟩, .refl R⟩
      · rw [hhistory, u.history_of_not_finishes _ _ hfinish]
      · rw [hhistory, u.runs_of_not_starts _ _ hstart] at hrun
        exact hrun

lemma outside_call {c : Call} {x : Except String c.Result} (hc : c.isOutside) (hs : s.Observed)
    (h : c.exec app o s = (x, s')) (hheeds : c.refusal o.fault = none → c.Heeds app o s) :
    (s'.Observed ∧ s.Keeps s') ∧ s.Overtakes s' := by
  cases hr : c.refusal o.fault with
  | some e =>
    rw [exec_of_refusal hr] at h
    cases h
    exact ⟨⟨hs, fun J hJ _ => hJ, fun _ hid => hid⟩, .refl s⟩
  | none =>
    have hheeds := hheeds hr
    have hother (hjob : c.updatesJob = false) (hcreate : c.sends = none) :
        (s'.Observed ∧ s.Keeps s') ∧ s.Overtakes s' := by
      have he := exec_extends hjob h
      exact ⟨⟨hs.extends he, he.keeps⟩, exec_overtakes hjob hcreate h⟩
    cases c with
    | jobRun id u =>
      cases u with
      | setJobRunStatus status =>
        obtain rfl : status = .canceled := hc
        refine cancel_update hs rfl rfl (fun R hR hid => ?_) h
        have hst : R.status = .pending := hheeds rfl R hR hid
        exact ⟨leaves_canceled hs hR hst, fun now key => ⟨rfl, rfl, .inr (.inl ⟨hst, rfl⟩)⟩⟩
      | markJobRunCancelRequested reason =>
        refine cancel_update hs rfl rfl (fun R hR hid => ?_) h
        have hst : R.status.live = true := hheeds R hR hid
        exact ⟨leaves_cancelRequested hs hR hst reason,
          fun now key => ⟨rfl, rfl, .inr (.inr ⟨hst, rfl⟩)⟩⟩
      | _ => exact hc.elim
    | runner r request =>
      cases request with
      | cancelJobRun runId => exact hother rfl rfl
      | _ => exact hc.elim
    | query q => exact hother rfl rfl
    | pipelineRun id u => exact hother rfl rfl
    | insert i => exact hother rfl rfl
    | markPushEventProcessed id => exact hother rfl rfl
    | _ => exact hc.elim

end

end Janus.Server
