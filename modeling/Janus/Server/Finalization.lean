import Janus.Server.Effects

/-! Which lists of ended jobs give their pipeline a status that ends it too. -/

namespace Janus.Server

open Janus.Concurrency Janus.Data

/-- No job failed for good or was blocked, and yet neither all succeeded nor all were canceled. -/
def Undecided (outcomes : List (JobStatus × Bool)) : Prop :=
  ¬ RequiredFailure outcomes ∧ (∀ o ∈ outcomes, o.1 ≠ .blocked) ∧
    ((∃ o ∈ outcomes, o.1 = .failed ∧ o.2 = true) ∨
      (∃ o ∈ outcomes, o.1 = .canceled) ∧ ∃ o ∈ outcomes, o.1 = .success ∨ o.1 = .skipped)

/-- The status computed from the outcomes is terminal when every job has ended, and is not while a
job waits or is live and none has failed for good or was blocked. -/
def StatusFollows (outcomes : List (JobStatus × Bool)) : Prop :=
  (outcomes ≠ [] → (∀ o ∈ outcomes, o.1.terminal = true) →
    (terminalPipelineStatus outcomes).terminal = true) ∧
  ((∃ o ∈ outcomes, o.1 = .pending ∨ o.1.live = true) → ¬ RequiredFailure outcomes →
    (∀ o ∈ outcomes, o.1 ≠ .blocked) → (terminalPipelineStatus outcomes).terminal = false)

instance (outcomes : List (JobStatus × Bool)) : Decidable (RequiredFailure outcomes) :=
  inferInstanceAs (Decidable (∃ o ∈ outcomes, _))

instance (outcomes : List (JobStatus × Bool)) : Decidable (Undecided outcomes) :=
  inferInstanceAs (Decidable (_ ∧ _))

instance (outcomes : List (JobStatus × Bool)) : Decidable (StatusFollows outcomes) :=
  inferInstanceAs (Decidable (_ ∧ _))

section

variable {outcomes : List (JobStatus × Bool)}

lemma not_terminal_of_unfinished (hlive : ∃ o ∈ outcomes, o.1 = .pending ∨ o.1.live = true)
    (hf : ¬ RequiredFailure outcomes) (hb : ∀ o ∈ outcomes, o.1 ≠ .blocked) :
    (terminalPipelineStatus outcomes).terminal = false := by
  obtain ⟨o, ho, hl⟩ := hlive
  have hnone : o.1 ≠ .success ∧ o.1 ≠ .skipped ∧ o.1 ≠ .canceled := by
    refine ⟨?_, ?_, ?_⟩ <;> intro h <;> rw [h] at hl <;> simp [JobStatus.live] at hl
  rcases terminalPipelineStatus_cases outcomes with ⟨hs, -⟩ | ⟨-, hf', -⟩ | ⟨-, ⟨b, hb', h⟩, -⟩ |
    ⟨hc, -⟩ | ⟨-, -, -, -, hterminal⟩
  · rcases hs.2 o ho with h | h
    · exact (hnone.1 h).elim
    · exact (hnone.2.1 h).elim
  · exact (hf hf').elim
  · exact (hb b hb' h).elim
  · exact (hnone.2.2 (hc.2 o ho)).elim
  · exact hterminal

lemma terminal_iff_of_ended (hne : outcomes ≠ []) (hend : ∀ o ∈ outcomes, o.1.terminal = true) :
    (terminalPipelineStatus outcomes).terminal = true ↔ ¬ Undecided outcomes := by
  rcases terminalPipelineStatus_cases outcomes with ⟨hs, h⟩ | ⟨-, hf, h⟩ | ⟨-, ⟨b, hb, hblocked⟩, h⟩ |
    ⟨hc, h⟩ | ⟨hs, hf, hb, hc, h⟩ <;> rw [h]
  · refine iff_of_true rfl ?_
    rintro ⟨-, -, ⟨o, ho, h, -⟩ | ⟨⟨o, ho, h⟩, -⟩⟩ <;> rcases hs.2 o ho with h' | h' <;>
      simp [h'] at h
  · exact iff_of_true rfl fun hu => hu.1 hf
  · exact iff_of_true rfl fun hu => hu.2.1 b hb hblocked
  · refine iff_of_true rfl ?_
    rintro ⟨-, -, ⟨o, ho, h, -⟩ | ⟨-, o, ho, h⟩⟩ <;> simp [hc.2 o ho] at h
  · refine iff_of_false Bool.false_ne_true (not_not.mpr ⟨hf, hb, ?_⟩)
    by_cases htolerated : ∃ o ∈ outcomes, o.1 = .failed ∧ o.2 = true
    · exact .inl htolerated
    -- What is left is a mixture of successes, skipped jobs and canceled jobs.
    have hrest : ∀ o ∈ outcomes, (o.1 = .success ∨ o.1 = .skipped) ∨ o.1 = .canceled := by
      intro o ho
      rcases passed_or_stopped o.2 (hend o ho) with (h | h | h) | (h | h | h)
      · exact .inl (.inl h)
      · exact .inl (.inr h)
      · exact (htolerated ⟨o, ho, h⟩).elim
      · exact (hf ⟨o, ho, h⟩).elim
      · exact .inr h
      · exact (hb o ho h).elim
    have hcanceled : ∃ o ∈ outcomes, o.1 = .canceled := by
      by_contra hn
      exact hs ⟨hne, fun o ho => (hrest o ho).resolve_right fun h => hn ⟨o, ho, h⟩⟩
    have hother : ∃ o ∈ outcomes, o.1 = .success ∨ o.1 = .skipped := by
      by_contra hn
      exact hc ⟨hne, fun o ho => (hrest o ho).resolve_left fun h => hn ⟨o, ho, h⟩⟩
    exact .inr ⟨hcanceled, hother⟩

end

def Database.Ended (db : Database) (pipelineId : Id) : Prop :=
  ∃ p ∈ db.pipelineRuns.rows, p.id = pipelineId ∧ p.status.terminal = true ∧ p.finishedAt.isSome

instance (db : Database) (pipelineId : Id) : Decidable (db.Ended pipelineId) :=
  inferInstanceAs (Decidable (∃ p ∈ db.pipelineRuns.rows, _))

def Database.AllEnded (db : Database) (pipelineId : Id) : Prop :=
  db.jobRunsOf pipelineId ≠ [] ∧ ∀ J ∈ db.jobRunsOf pipelineId, J.status.terminal = true

instance (db : Database) (pipelineId : Id) : Decidable (db.AllEnded pipelineId) :=
  inferInstanceAs (Decidable (_ ∧ _))

lemma PipelineRun.finalize_finishedAt (p : PipelineRun) (now : Timestamp) (status : PipelineStatus)
    (h : status.terminal = true) : (p.finalize now status).finishedAt = some now := by
  simp [PipelineRun.finalize, h]

lemma Database.mem_updatePipelineRun {db : Database} {u : PipelineUpdate} {now : Timestamp} {id : Id}
    {q : PipelineRun} : q ∈ (db.updatePipelineRun u now id).pipelineRuns.rows ↔
      ∃ p ∈ db.pipelineRuns.rows, (p.id = id ∧ q = u.row db now id p) ∨ (p.id ≠ id ∧ q = p) := by
  simp only [Database.updatePipelineRun, Table.mem_modify]

lemma ended_finalize_iff {app : AppState} {o : Outcome} {s s' : Store} {p : PipelineRun}
    (hp : p ∈ s.db.pipelineRuns.rows)
    (h : (Call.pipelineRun p.id .finalizePipelineStatus).exec app o s = (.ok (), s')) :
    s'.db.Ended p.id ↔ (s.db.computedStatus p.id).terminal = true := by
  rcases exec_cases h with ⟨-, e, he⟩ | h
  · cases he
  cases h
  constructor
  · rintro ⟨q, hq, hid, hterminal, -⟩
    obtain ⟨r, -, ⟨-, rfl⟩ | ⟨hne, rfl⟩⟩ := Database.mem_updatePipelineRun.mp hq
    · exact hterminal
    · exact (hne hid).elim
  · intro hterminal
    refine ⟨p.finalize o.now (s.db.computedStatus p.id), ?_, rfl, hterminal, ?_⟩
    · exact Database.mem_updatePipelineRun.mpr ⟨p, hp, .inl ⟨rfl, rfl⟩⟩
    · rw [PipelineRun.finalize_finishedAt _ _ _ hterminal]
      rfl

theorem finalization_complete_iff (outcomes : List (JobStatus × Bool)) (app : AppState) (o : Outcome)
    (s s' : Store) (p : PipelineRun) :
    (StatusFollows outcomes ↔
      ¬ (outcomes ≠ [] ∧ (∀ o ∈ outcomes, o.1.terminal = true) ∧ Undecided outcomes)) ∧
    (p ∈ s.db.pipelineRuns.rows → s.db.AllEnded p.id →
      (Call.pipelineRun p.id .finalizePipelineStatus).exec app o s = (.ok (), s') →
      (s'.db.Ended p.id ↔ ¬ Undecided ((s.db.jobRunsOf p.id).map JobRun.outcome))) := by
  constructor
  · constructor
    · rintro ⟨hfollows, -⟩ ⟨hne, hend, hu⟩
      exact (terminal_iff_of_ended hne hend).mp (hfollows hne hend) hu
    · intro h
      refine ⟨fun hne hend => ?_, not_terminal_of_unfinished⟩
      exact (terminal_iff_of_ended hne hend).mpr fun hu => h ⟨hne, hend, hu⟩
  · intro hp hend h
    rw [ended_finalize_iff hp h]
    refine terminal_iff_of_ended (by simpa using hend.1) ?_
    intro outcome ho
    obtain ⟨J, hJ, rfl⟩ := List.mem_map.mp ho
    exact hend.2 J hJ

def toleratedJob : ServerPool :=
  samplePool (sampleDatabase 1 (.single samplePipeline)
    (.single { sampleJob 10 0 with outcomePolicy := .allowedToFail }) .empty)

def refusedJob : List ServerEvent :=
  .start .dispatch :: (List.replicate 7 (.step 0 {}) ++
    .step 0 { reply := .ok { status := 400 } } :: List.replicate 2 (.step 0 {}))

theorem tolerated_failure_undecided :
    ¬ StatusFollows [(.failed, true)] ∧ ¬ StatusFollows [(.success, false), (.canceled, false)] ∧
      ((server sampleApp).run refusedJob toleratedJob).any
        (fun p => p.store.db.AllEnded 1 ∧ ¬ p.store.db.Ended 1) = true := by
  decide +kernel

def mixedJobs : Store :=
  (samplePool (sampleDatabase 3 (.single samplePipeline)
    ⟨[{ sampleJob 10 0 with status := .success },
      { sampleJob 11 1 with status := .failed, outcomePolicy := .allowedToFail },
      { sampleJob 12 2 with status := .failed }], by decide⟩
    threeJobs.store.db.jobRunPrevious)).store

theorem finalization_complete_mixed :
    (mixedJobs.db.jobRunsOf 1).map JobRun.outcome =
        [(.success, false), (.failed, true), (.failed, false)] ∧
      StatusFollows [(.success, false), (.failed, true), (.failed, false)] ∧
      ((Call.pipelineRun 1 .finalizePipelineStatus).exec sampleApp {} mixedJobs).2.db.Ended 1 :=
  have h := finalization_complete_iff [(.success, false), (.failed, true), (.failed, false)] sampleApp
    {} mixedJobs _ samplePipeline
  ⟨rfl, h.1.mpr (by decide), (h.2 (List.mem_singleton_self _) (by decide) rfl).mpr (by decide)⟩

end Janus.Server
