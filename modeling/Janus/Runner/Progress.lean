import Janus.Runner.Runs

/-! How the status of a job moves, while several tasks write its metadata. -/

namespace Janus.Runner

open Janus.Concurrency Janus.Data Janus.Server RunnerStore

variable {rt : Runtime} {s s' : RunnerStore} {p p' : RunnerPool} {e : RunnerEvent}
variable {es : List RunnerEvent}

def rank (status : RunnerJobStatus) : ℕ :=
  match status with
  | .running => 0
  | .cancelRequested => 1
  | .canceling => 2
  | _ => 3

lemma rank_le (status : RunnerJobStatus) : rank status ≤ 3 := by
  cases status <;> simp [rank]

lemma rank_of_isTerminal {status : RunnerJobStatus} (h : status.isTerminal = true) :
    rank status = 3 := by
  cases status <;> first | rfl | cases h

lemma rank_of_not_isTerminal {status : RunnerJobStatus} (h : status.isTerminal = false) :
    rank status ≤ 2 := by
  cases status <;> first | exact Nat.le_of_ble_eq_true rfl | cases h

/-- From `running` over `cancel_requested` and `canceling` to a terminal status, which stays as it is
with all its metadata. -/
def Forward (s s' : RunnerStore) : Prop :=
  ∀ jobId metadata metadata', (s.dir jobId).metadata = some metadata →
    (s'.dir jobId).metadata = some metadata' → rank metadata.status ≤ rank metadata'.status ∧
      (metadata.status.isTerminal = true → metadata' = metadata)

lemma Forward.of_metadata (h : ∀ jobId metadata, (s'.dir jobId).metadata = some metadata →
    (s.dir jobId).metadata = some metadata) : Forward s s' := by
  intro jobId metadata metadata' hm hm'
  cases hm.symm.trans (h jobId metadata' hm')
  exact ⟨le_rfl, fun _ => rfl⟩

lemma RunnerCall.Effect.metadata {c : RunnerCall} {x : Except JobError c.Result}
    (he : c.Effect rt s x s') {jobId : String} {metadata : JobMetadata}
    (hm : (s'.dir jobId).metadata = some metadata) :
    (s.dir jobId).metadata = some metadata ∨ ∃ writer, c = .persistMetadata writer jobId metadata := by
  cases he with
  | createDir n J sub =>
    rw [dir_createDir] at hm
    exact .inl hm
  | persisted writer J metadata' =>
    rw [dir_release, metadata_persist] at hm
    split at hm
    · next hj =>
      cases hm
      exact .inr ⟨writer, by rw [hj]⟩
    · exact .inl hm
  | unpersisted writer J metadata' =>
    rw [dir_release] at hm
    exact .inl hm
  | launched m i execution found => exact .inl (metadata_launch ▸ hm)
  | removeDir J =>
    rw [dir_removeDir] at hm
    split at hm
    · cases hm
    · exact .inl hm
  | clearDir J =>
    rw [dir_setDir] at hm
    split at hm
    · cases hm
    · exact .inl hm
  | _ => exact .inl hm

/-- A cancel writes over a status that it may follow. -/
def CancelFollows (p : RunnerPool) (e : RunnerEvent) : Prop :=
  match p.call? e with
  | some (.persistMetadata .cancel jobId _) =>
    ∀ current ∈ (p.store.dir jobId).metadata,
      current.status = .running ∨ current.status = .cancelRequested
  | _ => True

lemma Writer.Before.forward {R : Regime} {r : RunnerRole} {writer : Writer} {jobId : String}
    {metadata current : JobMetadata} (hs : Sane R rt s) (hb : writer.Before rt r jobId metadata s)
    (hc : (s.dir jobId).metadata = some current)
    (hcancel : writer = .cancel → current.status = .running ∨ current.status = .cancelRequested) :
    rank current.status ≤ rank metadata.status ∧ current.status.isTerminal = false := by
  have hlive {m : ℕ} {execution : JobExecution} (he : (m, execution) ∈ s.executing)
      (hj : execution.jobId = jobId) : current.status.isTerminal = false := by
    obtain ⟨-, -, ⟨current', hc', hlive⟩, -⟩ := hs.tokens _ (mem_tokens_of_executing he)
    rw [hj] at hc'
    cases hc.symm.trans hc'
    exact hlive
  cases writer with
  | create n => cases hb.2.2.1.symm.trans hc
  | cancel =>
    rw [hb.2]
    rcases hcancel rfl with h | h
    · rw [h]
      exact ⟨Nat.zero_le _, rfl⟩
    · rw [h]
      exact ⟨le_rfl, rfl⟩
  | canceling m =>
    obtain ⟨-, execution, he, hj, -, hstatus⟩ := hb
    rw [hstatus]
    exact ⟨rank_of_not_isTerminal (hlive he hj), hlive he hj⟩
  | finish m =>
    obtain ⟨-, execution, he, hj, -, hstatus⟩ := hb
    rw [rank_of_isTerminal hstatus]
    exact ⟨rank_le _, hlive he hj⟩
  | recovery =>
    obtain ⟨-, -, current', hc', -, hlive, hstatus⟩ := hb
    cases hc.symm.trans hc'
    rw [rank_of_isTerminal hstatus]
    exact ⟨rank_le _, hlive⟩

lemma RunnerSound.forward (hs : RunnerSound {} rt p) (hcancel : CancelFollows p e)
    (ha : (runnerSystem rt).apply p e = some p') : Forward p.store p'.store := by
  rcases hs.step_cases ha with h | h | ⟨i, o, r, c, next, rfl, ht, -, hb, -, heffect⟩
  · rw [h]
    exact .of_metadata fun _ _ hm => hm
  · rw [h]
    exact .of_metadata fun _ _ hm => hm
  · intro jobId metadata metadata' hm hm'
    rcases heffect.metadata hm' with hsame | ⟨writer, rfl⟩
    · cases hm.symm.trans hsame
      exact ⟨le_rfl, fun _ => rfl⟩
    · have hforward := Writer.Before.forward hs.1 hb hm fun hw => ?_
      · exact ⟨hforward.1, fun hterminal => by cases hforward.2.symm.trans hterminal⟩
      · subst hw
        simp only [CancelFollows, Pool.call?, ht] at hcancel
        exact hcancel metadata hm

theorem status_moves_forward
    (h : (runnerSystem rt).Along (fun p e => CancelFollows p e) es RunnerPool.initial) :
    (runnerSystem rt).Along
      (fun p e => ∀ p', (runnerSystem rt).apply p e = some p' → Forward p.store p'.store) es
      RunnerPool.initial := by
  refine h.of_invariant (I := RunnerSound {} rt)
    (fun p e p' hs _ ha => hs.apply (Permitted.free p e) ha) (fun p e p' hs hok ha q hq => ?_)
    RunnerSound.initial
  exact hs.forward hok hq

def RunnerCall.cancels? : RunnerCall → Option String
  | .persistMetadata .cancel jobId _ => some jobId
  | _ => none

lemma cancelFollows_iff : CancelFollows p e ↔ ∀ c ∈ p.call? e, ∀ jobId ∈ c.cancels?,
    ∀ current ∈ (p.store.dir jobId).metadata,
      current.status = .running ∨ current.status = .cancelRequested := by
  rw [CancelFollows]
  cases p.call? e with
  | none => simp
  | some c =>
    cases c with
    | persistMetadata writer jobId metadata => cases writer <;> simp [RunnerCall.cancels?]
    | _ => simp [RunnerCall.cancels?]

instance (p : RunnerPool) (e : RunnerEvent) : Decidable (CancelFollows p e) :=
  decidable_of_iff _ cancelFollows_iff.symm

def canceling : List RunnerEvent :=
  booting ++ creating 0 "a" emptyBody ++
    .start (.run 0) :: steps 0 1 ++
    .start (.cancel "job_78b1768b4febf4a45a57e85e94b78edb") :: steps 1 4 ++
    .step 0 { cancelSeen := true } :: steps 0 6

theorem status_moves_forward_canceling :
    (runnerSystem sampleRuntime).Along (fun p e => ∀ p',
      (runnerSystem sampleRuntime).apply p e = some p' → Forward p.store p'.store) canceling
      RunnerPool.initial :=
  status_moves_forward (by decide +kernel)

def cancelingLate : List RunnerEvent :=
  booting ++ creating 0 "a" emptyBody ++
    .start (.run 0) :: steps 0 1 ++
    .start (.cancel "job_78b1768b4febf4a45a57e85e94b78edb") :: steps 1 2 ++ steps 0 5

def statusOf (jobId : String) (p : RunnerPool) : Option RunnerJobStatus :=
  (p.store.dir jobId).metadata.map JobMetadata.status

theorem status_moves_back : ¬ ∀ (rt : Runtime) (es : List RunnerEvent),
    (runnerSystem rt).Along (fun p e => ∀ p', (runnerSystem rt).apply p e = some p' →
      Forward p.store p'.store) es RunnerPool.initial := by
  intro h
  have hlast := h sampleRuntime (cancelingLate ++ [.step 1 {}])
  have hrun : ((runnerSystem sampleRuntime).run cancelingLate RunnerPool.initial).bind (fun p =>
      ((runnerSystem sampleRuntime).apply p (.step 1 {})).map fun p' =>
        (statusOf "job_78b1768b4febf4a45a57e85e94b78edb" p,
          statusOf "job_78b1768b4febf4a45a57e85e94b78edb" p')) =
      some (some .success, some .cancelRequested) := by
    decide +kernel
  obtain ⟨p, hp, hrun⟩ := Option.bind_eq_some_iff.mp hrun
  obtain ⟨p', hp', hstatus⟩ := Option.map_eq_some_iff.mp hrun
  obtain ⟨hs, hs'⟩ := Prod.mk.inj hstatus
  obtain ⟨metadata, hm, hms⟩ := Option.map_eq_some_iff.mp hs
  obtain ⟨metadata', hm', hms'⟩ := Option.map_eq_some_iff.mp hs'
  have hforward := (hlast.last hp hp' p' hp' _ metadata metadata' hm hm').1
  rw [hms, hms'] at hforward
  exact absurd hforward (by decide)

end Janus.Runner
