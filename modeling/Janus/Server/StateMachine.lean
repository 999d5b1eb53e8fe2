import Mathlib.Data.List.Basic

/-! Job and pipeline statuses, and how a list of job statuses decides each of them. -/

namespace Janus.Server

inductive JobStatus
  | pending | running | cancelRequested | canceling | success | failed | canceled | blocked | skipped
  deriving DecidableEq, Repr

inductive PipelineStatus
  | running | cancelRequested | canceling | success | failed | canceled | blocked
  deriving DecidableEq, Repr

namespace JobStatus

def live : JobStatus → Bool
  | .running | .cancelRequested | .canceling => true
  | _ => false

def terminal : JobStatus → Bool
  | .success | .failed | .canceled | .blocked | .skipped => true
  | _ => false

end JobStatus

def PipelineStatus.terminal : PipelineStatus → Bool
  | .success | .failed | .canceled | .blocked => true
  | _ => false

def nextReadyJobStatus (previousJobStatuses : List (JobStatus × Bool)) : Option JobStatus :=
  if previousJobStatuses.any fun (status, canFail) => status = .failed ∧ !canFail then
    some .blocked
  else if previousJobStatuses.any fun (status, _) =>
      status = .pending ∨ status = .running ∨ status = .cancelRequested ∨ status = .canceling then
    none
  else if previousJobStatuses.any fun (status, _) => status = .canceled then
    some .blocked
  else
    some .pending

def terminalPipelineStatus (statuses : List (JobStatus × Bool)) : PipelineStatus :=
  if !statuses.isEmpty ∧ statuses.all fun (status, _) => status = .success ∨ status = .skipped then
    .success
  else if statuses.any fun (status, canFail) => status = .failed ∧ !canFail then
    .failed
  else if statuses.any fun (status, _) => status = .blocked then
    .blocked
  else if (statuses.all fun (status, _) => status = .canceled) ∧ !statuses.isEmpty then
    .canceled
  else if statuses.any fun (status, _) => status = .canceling then
    .canceling
  else if statuses.any fun (status, _) => status = .cancelRequested then
    .cancelRequested
  else
    .running

def Passed (status : JobStatus) (canFail : Bool) : Prop :=
  status = .success ∨ status = .skipped ∨ (status = .failed ∧ canFail = true)

def Stopped (status : JobStatus) (canFail : Bool) : Prop :=
  (status = .failed ∧ canFail = false) ∨ status = .canceled ∨ status = .blocked

instance (status : JobStatus) (canFail : Bool) : Decidable (Passed status canFail) :=
  inferInstanceAs (Decidable (_ ∨ _))

instance (status : JobStatus) (canFail : Bool) : Decidable (Stopped status canFail) :=
  inferInstanceAs (Decidable (_ ∨ _))

lemma passed_or_stopped {status : JobStatus} (canFail : Bool) (h : status.terminal = true) :
    Passed status canFail ∨ Stopped status canFail := by
  cases status <;> cases canFail <;> simp_all [Passed, Stopped, JobStatus.terminal]

lemma Passed.terminal {status : JobStatus} {canFail : Bool} (h : Passed status canFail) :
    status.terminal = true := by
  rcases h with rfl | rfl | ⟨rfl, -⟩ <;> rfl

lemma JobStatus.terminal_iff {status : JobStatus} :
    status.terminal = true ↔ status ≠ .pending ∧ status.live = false := by
  cases status <;> simp [live, terminal]

lemma JobStatus.unfinished_iff {status : JobStatus} :
    status.terminal = false ↔ status = .pending ∨ status.live = true := by
  cases status <;> simp [live, terminal]

@[simp] lemma nextReadyJobStatus_nil : nextReadyJobStatus [] = some .pending := rfl

lemma nextReadyJobStatus_cases (statuses : List (JobStatus × Bool)) :
    nextReadyJobStatus statuses = some .blocked ∨ nextReadyJobStatus statuses = none ∨
      nextReadyJobStatus statuses = some .pending := by
  simp only [nextReadyJobStatus]
  split
  · exact .inl rfl
  · split
    · exact .inr (.inl rfl)
    · split
      · exact .inl rfl
      · exact .inr (.inr rfl)

def RequiredFailure (outcomes : List (JobStatus × Bool)) : Prop :=
  ∃ o ∈ outcomes, o.1 = .failed ∧ o.2 = false

def AllSucceeded (outcomes : List (JobStatus × Bool)) : Prop :=
  outcomes ≠ [] ∧ ∀ o ∈ outcomes, o.1 = .success ∨ o.1 = .skipped

def AllCanceled (outcomes : List (JobStatus × Bool)) : Prop :=
  outcomes ≠ [] ∧ ∀ o ∈ outcomes, o.1 = .canceled

lemma terminalPipelineStatus_cases (outcomes : List (JobStatus × Bool)) :
    (AllSucceeded outcomes ∧ terminalPipelineStatus outcomes = .success) ∨
    (¬ AllSucceeded outcomes ∧ RequiredFailure outcomes ∧ terminalPipelineStatus outcomes = .failed) ∨
    (¬ RequiredFailure outcomes ∧ (∃ o ∈ outcomes, o.1 = .blocked) ∧
      terminalPipelineStatus outcomes = .blocked) ∨
    (AllCanceled outcomes ∧ terminalPipelineStatus outcomes = .canceled) ∨
    (¬ AllSucceeded outcomes ∧ ¬ RequiredFailure outcomes ∧ (∀ o ∈ outcomes, o.1 ≠ .blocked) ∧
      ¬ AllCanceled outcomes ∧ (terminalPipelineStatus outcomes).terminal = false) := by
  have hsucceeded : (!outcomes.isEmpty ∧
      outcomes.all fun (status, _) => status = .success ∨ status = .skipped) ↔
        AllSucceeded outcomes := by
    simp only [AllSucceeded, Bool.not_eq_true', List.isEmpty_eq_false_iff, List.all_eq_true,
      decide_eq_true_eq]
  have hfailed : (outcomes.any fun (status, canFail) => status = .failed ∧ !canFail) ↔
      RequiredFailure outcomes := by
    simp only [RequiredFailure, List.any_eq_true, decide_eq_true_eq, Bool.not_eq_true']
  have hblocked : (outcomes.any fun (status, _) => status = .blocked) ↔
      ∃ o ∈ outcomes, o.1 = .blocked := by
    simp only [List.any_eq_true, decide_eq_true_eq]
  have hcanceled : ((outcomes.all fun (status, _) => status = .canceled) ∧ !outcomes.isEmpty) ↔
      AllCanceled outcomes := by
    simp only [AllCanceled, Bool.not_eq_true', List.isEmpty_eq_false_iff, List.all_eq_true,
      decide_eq_true_eq, and_comm]
  simp only [terminalPipelineStatus]
  by_cases hs : AllSucceeded outcomes
  · exact .inl ⟨hs, if_pos (hsucceeded.mpr hs)⟩
  rw [if_neg (mt hsucceeded.mp hs)]
  by_cases hf : RequiredFailure outcomes
  · exact .inr (.inl ⟨hs, hf, if_pos (hfailed.mpr hf)⟩)
  rw [if_neg (mt hfailed.mp hf)]
  by_cases hb : ∃ o ∈ outcomes, o.1 = .blocked
  · exact .inr (.inr (.inl ⟨hf, hb, if_pos (hblocked.mpr hb)⟩))
  rw [if_neg (mt hblocked.mp hb)]
  by_cases hc : AllCanceled outcomes
  · exact .inr (.inr (.inr (.inl ⟨hc, if_pos (hcanceled.mpr hc)⟩)))
  rw [if_neg (mt hcanceled.mp hc)]
  refine .inr (.inr (.inr (.inr ⟨hs, hf, fun o ho h => hb ⟨o, ho, h⟩, hc, ?_⟩)))
  split
  · rfl
  · split <;> rfl

end Janus.Server
