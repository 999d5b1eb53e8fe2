import Janus.Server.Finalization
import Janus.Server.Order

/-! Pipelines whose statuses agree with their jobs, and the calls that leave them so. -/

namespace Janus.Server

open Janus.Concurrency Janus.Data

/-- A job that was blocked or canceled need not have been started. -/
def startedRule : OrderRule (· ≠ .blocked) where
  advanced status := status ≠ .pending ∧ status ≠ .blocked ∧ status ≠ .canceled
  cleared := Passed
  pending h := h.1 rfl
  live status h := by cases status <;> simp_all [JobStatus.live]
  cleared_terminal _ _ := Passed.terminal
  cleared_advanced status canFail h := by
    rcases h with rfl | rfl | ⟨rfl, -⟩ <;> exact ⟨by decide, by decide, by decide⟩
  ready := serialRule.ready
  halted _ _ _ h := (h.2.1 rfl).elim

/-- What the outcomes of its jobs are where a pipeline has the status. -/
def PipelineStatus.Warranted (outcomes : List (JobStatus × Bool)) : PipelineStatus → Prop
  | .success => AllSucceeded outcomes
  | .failed => RequiredFailure outcomes
  | .blocked => (∃ o ∈ outcomes, o.1 = .blocked) ∧ ¬ RequiredFailure outcomes
  | .canceled => ∀ o ∈ outcomes, o.1.terminal = true
  | _ => True

namespace Database

def outcomesOf (db : Database) (pipelineId : Id) : List (JobStatus × Bool) :=
  (db.jobRunsOf pipelineId).map JobRun.outcome

def EndedBefore (db : Database) (J : JobRun) : Prop :=
  ∀ K ∈ db.jobRuns.rows, K.pipelineRunId = J.pipelineRunId → K.jobIndex < J.jobIndex →
    K.status.terminal = true

instance (db : Database) (J : JobRun) : Decidable (db.EndedBefore J) :=
  inferInstanceAs (Decidable (∀ K ∈ db.jobRuns.rows, _))

structure Agrees (db : Database) : Prop where
  wellFormed : db.WellFormed
  ordered : startedRule.Ordered db
  blocked : ∀ B ∈ db.jobRuns.rows, B.status = .blocked → db.EndedBefore B
  warranted : ∀ p ∈ db.pipelineRuns.rows, p.status.Warranted (db.outcomesOf p.id)

/-- No pipeline with a terminal status has a live job. -/
def StatusesAgree (db : Database) : Prop :=
  ∀ p ∈ db.pipelineRuns.rows, p.status.terminal = true → ∀ J ∈ db.jobRuns.rows,
    J.pipelineRunId = p.id → J.status.live = false

instance (db : Database) : Decidable db.StatusesAgree :=
  inferInstanceAs (Decidable (∀ p ∈ db.pipelineRuns.rows, _))

def Over (db : Database) (pipelineId : Id) : Prop :=
  ∀ J ∈ db.jobRuns.rows, J.pipelineRunId = pipelineId → J.status ≠ .pending ∧ J.status.live = false

instance (db : Database) (pipelineId : Id) : Decidable (db.Over pipelineId) :=
  inferInstanceAs (Decidable (∀ J ∈ db.jobRuns.rows, _))

/-- The pipeline has a terminal status, and no pending and no live job. -/
def Finished (db : Database) (p : PipelineRun) : Prop := p.status.terminal = true ∧ db.Over p.id

instance (db : Database) (p : PipelineRun) : Decidable (db.Finished p) :=
  inferInstanceAs (Decidable (_ ∧ _))

end Database

namespace PipelineStatus

variable {status : PipelineStatus} {outcomes : List (JobStatus × Bool)}

lemma warranted_of_not_terminal (h : status.terminal = false) : status.Warranted outcomes := by
  cases status <;> trivial

lemma warranted_computed (outcomes : List (JobStatus × Bool)) :
    (terminalPipelineStatus outcomes).Warranted outcomes := by
  rcases terminalPipelineStatus_cases outcomes with ⟨hs, h⟩ | ⟨-, hf, h⟩ | ⟨hf, hb, h⟩ | ⟨hc, h⟩ |
    ⟨-, -, -, -, h⟩
  · rw [h]
    exact hs
  · rw [h]
    exact hf
  · rw [h]
    exact ⟨hb, hf⟩
  · rw [h]
    intro o ho
    rw [hc.2 o ho]
    rfl
  · exact warranted_of_not_terminal h

lemma Warranted.computed (h : status.Warranted outcomes)
    (hstatus : status = .failed ∨ status = .blocked) : terminalPipelineStatus outcomes = status := by
  rcases hstatus with rfl | rfl
  · obtain ⟨o, ho, hof, hreq⟩ := h
    rcases terminalPipelineStatus_cases outcomes with ⟨hs, -⟩ | ⟨-, -, h⟩ | ⟨hf, -⟩ | ⟨hc, -⟩ |
      ⟨-, hf, -⟩
    · rcases hs.2 o ho with h | h <;> cases hof.symm.trans h
    · exact h
    · exact (hf ⟨o, ho, hof, hreq⟩).elim
    · cases hof.symm.trans (hc.2 o ho)
    · exact (hf ⟨o, ho, hof, hreq⟩).elim
  · obtain ⟨⟨o, ho, hob⟩, hnf⟩ := h
    rcases terminalPipelineStatus_cases outcomes with ⟨hs, -⟩ | ⟨-, hf, -⟩ | ⟨-, -, h⟩ | ⟨hc, -⟩ |
      ⟨-, -, hb, -⟩
    · rcases hs.2 o ho with h | h <;> cases hob.symm.trans h
    · exact (hnf hf).elim
    · exact h
    · cases hob.symm.trans (hc.2 o ho)
    · exact (hb o ho hob).elim

end PipelineStatus

section

variable {db db' : Database} {J K : JobRun} {pipelineId : Id} {outcome : JobStatus × Bool}

lemma Database.mem_outcomesOf : outcome ∈ db.outcomesOf pipelineId ↔
    ∃ J ∈ db.jobRuns.rows, J.pipelineRunId = pipelineId ∧ J.outcome = outcome := by
  simp only [outcomesOf, jobRunsOf, List.mem_map, List.mem_filter, decide_eq_true_eq, and_assoc]

lemma Database.outcomesOf_eq (h : db'.jobRuns = db.jobRuns) :
    db'.outcomesOf pipelineId = db.outcomesOf pipelineId := by
  simp only [outcomesOf, jobRunsOf, h]

lemma Database.Over.not_mem (h : db.Over pipelineId) (hJ : J ∈ db.jobRuns.rows)
    (hun : J.status.terminal = false) : J.pipelineRunId ≠ pipelineId := by
  intro hp
  rw [JobStatus.terminal_iff.mpr (h J hJ hp)] at hun
  cases hun

lemma Database.over_of_warranted {status : PipelineStatus}
    (h : status.Warranted (db.outcomesOf pipelineId)) (hs : status = .success ∨ status = .canceled) :
    db.Over pipelineId := by
  intro J hJ hp
  have hmem : J.outcome ∈ db.outcomesOf pipelineId := mem_outcomesOf.mpr ⟨J, hJ, hp, rfl⟩
  refine JobStatus.terminal_iff.mp ?_
  rcases hs with rfl | rfl
  · have hend : J.status = .success ∨ J.status = .skipped := h.2 _ hmem
    rcases hend with hend | hend <;> rw [hend] <;> rfl
  · exact h _ hmem

theorem Database.Agrees.statusesAgree (h : db.Agrees) : db.StatusesAgree := by
  intro p hp hterminal J hJ hid
  have hw := h.warranted p hp
  have hover (hs : p.status = .success ∨ p.status = .canceled) : J.status.live = false :=
    (Database.over_of_warranted hw hs J hJ hid).2
  by_contra hlive
  have hlive : J.status.live = true := by simpa using hlive
  have hadv := startedRule.live _ hlive
  -- A job of the pipeline that has ended for good stands neither before nor after a live one.
  have hnone (K : JobRun) (hK : K ∈ db.jobRuns.rows) (hKp : K.pipelineRunId = p.id)
      (hKt : K.status.terminal = true) (hKn : ¬ Passed K.status K.outcomePolicy.allowsFailure)
      (hend : db.EndedBefore K) : False := by
    have hsame : K.pipelineRunId = J.pipelineRunId := hKp.trans hid.symm
    rcases Nat.lt_trichotomy K.jobIndex J.jobIndex with hlt | heq | hgt
    · exact hKn (h.ordered J hJ hadv K hK hsame hlt)
    · obtain rfl := h.wellFormed.indexUnique K hK J hJ hsame heq
      exact absurd (JobStatus.terminal_iff.mp hKt).2 (by simp [hlive])
    · exact absurd (JobStatus.terminal_iff.mp (hend J hJ hsame.symm hgt)).2 (by simp [hlive])
  cases hst : p.status with
  | success => simp [hover (.inl hst)] at hlive
  | canceled => simp [hover (.inr hst)] at hlive
  | failed =>
    rw [hst] at hw
    obtain ⟨o, ho, hfailed, hreq⟩ := hw
    obtain ⟨K, hK, hKp, rfl⟩ := Database.mem_outcomesOf.mp ho
    have hKs : K.status = .failed := hfailed
    have hKr : K.outcomePolicy.allowsFailure = false := hreq
    refine hnone K hK hKp (by rw [hKs]; rfl) (by simp [Passed, hKs, hKr]) fun L hL hLp hi => ?_
    exact Passed.terminal (h.ordered K hK (by simp [startedRule, hKs]) L hL hLp hi)
  | blocked =>
    rw [hst] at hw
    obtain ⟨⟨o, ho, hblocked⟩, -⟩ := hw
    obtain ⟨K, hK, hKp, rfl⟩ := Database.mem_outcomesOf.mp ho
    have hKs : K.status = .blocked := hblocked
    exact hnone K hK hKp (by rw [hKs]; rfl) (by simp [Passed, hKs]) (h.blocked K hK hKs)
  | _ => simp [hst, PipelineStatus.terminal] at hterminal

end

/-- What a call may do so that the statuses go on to agree with the jobs. -/
def Call.Agreeable (db : Database) : Call → Prop
  | .jobRun id u => ∃ J ∈ db.jobRuns.rows, J.id = id ∧
    J.status.terminal = false ∧ (u.status = some .blocked → db.EndedBefore J)
  | .pipelineRun id (.setPipelineStatus status) => status.terminal = true →
    status = .canceled ∧ db.Over id
  | .insert (.createJobRun pipelineId jobIndex _ _ _) =>
    (∀ p ∈ db.pipelineRuns.rows, p.id = pipelineId → p.status.terminal = false) ∧
      ∀ K ∈ db.jobRuns.rows, K.pipelineRunId = pipelineId → K.jobIndex < jobIndex
  | _ => True

section

variable {db db' : Database} {J : JobRun} {u : JobUpdate} {now : Timestamp} {key : Id}

/-- What becomes of the jobs where one that had not ended is written. -/
structure Database.Rewrites (db db' : Database) (J J' : JobRun) : Prop where
  row : J ∈ db.jobRuns.rows
  unfinished : J.status.terminal = false
  same : J.Same J'
  jobRuns : ∀ K, K ∈ db'.jobRuns.rows ↔ K = J' ∨ (K ∈ db.jobRuns.rows ∧ K.id ≠ J.id)

namespace Database.Rewrites

variable {J' K : JobRun} {pipelineId : Id}

lemma ended (h : db.Rewrites db' J J') (hK : K ∈ db.jobRuns.rows) (ht : K.status.terminal = true) :
    K ∈ db'.jobRuns.rows := by
  refine (h.jobRuns K).mpr (.inr ⟨hK, fun hid => ?_⟩)
  obtain rfl := Database.jobRun_eq hK h.row hid
  exact absurd (h.unfinished.symm.trans ht) Bool.false_ne_true

lemma old (h : db.Rewrites db' J J') (hp : J.pipelineRunId ≠ pipelineId) (hK : K ∈ db'.jobRuns.rows)
    (hid : K.pipelineRunId = pipelineId) : K ∈ db.jobRuns.rows := by
  rcases (h.jobRuns K).mp hK with rfl | ⟨hK, -⟩
  · exact (hp (h.same.pipelineRunId.symm.trans hid)).elim
  · exact hK

lemma not_endedBefore (h : db.Rewrites db' J J') (hK : db.EndedBefore K) :
    ¬ (J.pipelineRunId = K.pipelineRunId ∧ J.jobIndex < K.jobIndex) := by
  rintro ⟨hp, hi⟩
  exact absurd (h.unfinished.symm.trans (hK J h.row hp hi)) Bool.false_ne_true

lemma endedBefore (h : db.Rewrites db' J J') (hK : db.EndedBefore K) : db'.EndedBefore K := by
  intro L hL hp hi
  rcases (h.jobRuns L).mp hL with rfl | ⟨hL, -⟩
  · exact (h.not_endedBefore hK ⟨h.same.pipelineRunId.symm.trans hp, h.same.jobIndex ▸ hi⟩).elim
  · exact hK L hL hp hi

end Database.Rewrites

lemma rewrites_modify (hJ : J ∈ db.jobRuns.rows) (hun : J.status.terminal = false)
    (hj : db'.jobRuns = db.jobRuns.modify J.id (u.row now key) fun job => (u.row_same now key job).id) :
    db.Rewrites db' J (u.row now key J) where
  row := hJ
  unfinished := hun
  same := u.row_same now key J
  jobRuns K := by
    rw [hj, Table.mem_modify]
    constructor
    · rintro ⟨L, hL, ⟨hid, rfl⟩ | ⟨hid, rfl⟩⟩
      · obtain rfl := Database.jobRun_eq hL hJ hid
        exact .inl rfl
      · exact .inr ⟨hL, hid⟩
    · rintro (rfl | ⟨hK, hid⟩)
      · exact ⟨J, hJ, .inl ⟨rfl, rfl⟩⟩
      · exact ⟨K, hK, .inr ⟨hid, rfl⟩⟩

/-- A job of a pipeline with a blocked job does not fail: it would have failed behind it, or had
ended before. -/
lemma Database.Rewrites.not_failed {J' B : JobRun} (h : db.Rewrites db' J J') (hd : db.Agrees)
    (hord : startedRule.Ordered db') (hB : B ∈ db.jobRuns.rows) (hb : B.status = .blocked)
    (hsame : B.pipelineRunId = J.pipelineRunId) : J'.status ≠ .failed := by
  intro hf
  have hBt : B.status.terminal = true := by rw [hb]; rfl
  rcases Nat.lt_trichotomy B.jobIndex J.jobIndex with hlt | heq | hgt
  · have hc := hord J' ((h.jobRuns J').mpr (.inl rfl)) (by simp [startedRule, hf]) B (h.ended hB hBt)
      (hsame.trans h.same.pipelineRunId.symm) (h.same.jobIndex ▸ hlt)
    simp [startedRule, Passed, hb] at hc
  · obtain rfl := hd.wellFormed.indexUnique B hB J h.row hsame heq
    exact absurd (h.unfinished.symm.trans hBt) Bool.false_ne_true
  · exact h.not_endedBefore (hd.blocked B hB hb) ⟨hsame.symm, hgt⟩

lemma Database.Rewrites.warranted {J' : JobRun} {status : PipelineStatus} {pipelineId : Id}
    (h : db.Rewrites db' J J') (hd : db.Agrees) (hord : startedRule.Ordered db')
    (hw : status.Warranted (db.outcomesOf pipelineId)) :
    status.Warranted (db'.outcomesOf pipelineId) := by
  have hother (hs : status = .success ∨ status = .canceled) : J.pipelineRunId ≠ pipelineId :=
    (Database.over_of_warranted hw hs).not_mem h.row h.unfinished
  have hold (hs : status = .success ∨ status = .canceled) :
      ∀ o ∈ db'.outcomesOf pipelineId, o ∈ db.outcomesOf pipelineId := by
    intro o ho
    obtain ⟨K, hK, hid, rfl⟩ := Database.mem_outcomesOf.mp ho
    exact Database.mem_outcomesOf.mpr ⟨K, h.old (hother hs) hK hid, hid, rfl⟩
  have hended : ∀ o ∈ db.outcomesOf pipelineId, o.1.terminal = true →
      o ∈ db'.outcomesOf pipelineId := by
    intro o ho ht
    obtain ⟨K, hK, hid, rfl⟩ := Database.mem_outcomesOf.mp ho
    exact Database.mem_outcomesOf.mpr ⟨K, h.ended hK ht, hid, rfl⟩
  cases status with
  | success =>
    obtain ⟨o, ho⟩ := List.exists_mem_of_ne_nil _ hw.1
    refine ⟨List.ne_nil_of_mem (hended o ho ?_), fun o ho => hw.2 o (hold (.inl rfl) o ho)⟩
    rcases hw.2 o ho with hs | hs <;> rw [hs] <;> rfl
  | canceled => exact fun o ho => hw o (hold (.inr rfl) o ho)
  | failed =>
    obtain ⟨o, ho, hf, hreq⟩ := hw
    exact ⟨o, hended o ho (by rw [hf]; rfl), hf, hreq⟩
  | blocked =>
    obtain ⟨⟨o, ho, hb⟩, hnf⟩ := hw
    refine ⟨⟨o, hended o ho (by rw [hb]; rfl), hb⟩, ?_⟩
    rintro ⟨o', ho', hf, hreq⟩
    obtain ⟨K, hK, hid, rfl⟩ := Database.mem_outcomesOf.mp ho'
    obtain ⟨B, hB, hBid, rfl⟩ := Database.mem_outcomesOf.mp ho
    rcases (h.jobRuns K).mp hK with rfl | ⟨hK, -⟩
    · exact h.not_failed hd hord hB hb (hBid.trans (hid.symm.trans h.same.pipelineRunId)) hf
    · exact hnf ⟨_, Database.mem_outcomesOf.mpr ⟨K, hK, hid, rfl⟩, hf, hreq⟩
  | _ => trivial

lemma Database.Agrees.unmoved (h : db.Agrees) (hwf : db'.WellFormed) (hord : startedRule.Ordered db')
    (hj : db'.jobRuns = db.jobRuns)
    (hw : ∀ p ∈ db'.pipelineRuns.rows, p.status.Warranted (db.outcomesOf p.id)) : db'.Agrees := by
  refine ⟨hwf, hord, ?_, fun p hp => Database.outcomesOf_eq hj ▸ hw p hp⟩
  simpa only [Database.EndedBefore, hj] using h.blocked

lemma Database.Agrees.rewritten {J' : JobRun} (h : db.Agrees) (hwf : db'.WellFormed)
    (hord : startedRule.Ordered db') (hrw : db.Rewrites db' J J')
    (hp : db'.pipelineRuns = db.pipelineRuns) (hb : J'.status = .blocked → db.EndedBefore J) :
    db'.Agrees := by
  refine ⟨hwf, hord, fun B hB hBs => ?_, fun p hp' => ?_⟩
  · rcases (hrw.jobRuns B).mp hB with rfl | ⟨hB, -⟩
    · intro K hK hsame hi
      rcases (hrw.jobRuns K).mp hK with rfl | ⟨hK, -⟩
      · exact absurd hi (lt_irrefl _)
      · exact hb hBs K hK (hsame.trans hrw.same.pipelineRunId) (hrw.same.jobIndex ▸ hi)
    · exact hrw.endedBefore (h.blocked B hB hBs)
  · exact hrw.warranted h hord (h.warranted p (hp ▸ hp'))

lemma Database.Agrees.created {pipelineId : Id} {jobIndex : ℕ} {K' : JobRun} (h : db.Agrees)
    (hwf : db'.WellFormed) (hord : startedRule.Ordered db')
    (hrows : db'.jobRuns.rows = db.jobRuns.rows ++ [K']) (hp : db'.pipelineRuns = db.pipelineRuns)
    (hid : K'.pipelineRunId = pipelineId) (hi : K'.jobIndex = jobIndex) (hs : K'.status = .pending)
    (hopen : ∀ p ∈ db.pipelineRuns.rows, p.id = pipelineId → p.status.terminal = false)
    (hlast : ∀ K ∈ db.jobRuns.rows, K.pipelineRunId = pipelineId → K.jobIndex < jobIndex) :
    db'.Agrees := by
  refine ⟨hwf, hord, fun B hB hBs K hK hsame hlt => ?_, fun p hp' => ?_⟩
  · rw [hrows, List.mem_append, List.mem_singleton] at hB hK
    rcases hB with hB | rfl
    · rcases hK with hK | rfl
      · exact h.blocked B hB hBs K hK hsame hlt
      · exact absurd (hi ▸ hlt) (hlast B hB (hsame.symm.trans hid)).not_gt
    · cases hs.symm.trans hBs
  · rw [hp] at hp'
    by_cases hpid : p.id = pipelineId
    · exact PipelineStatus.warranted_of_not_terminal (hopen p hp' hpid)
    · have hsame : db'.outcomesOf p.id = db.outcomesOf p.id := by
        simp [Database.outcomesOf, Database.jobRunsOf, hrows, hid, Ne.symm hpid]
      exact hsame ▸ h.warranted p hp'

lemma PipelineUpdate.row_warranted {u : PipelineUpdate} {p : PipelineRun}
    (hc : Call.Agreeable db (.pipelineRun p.id u)) :
    (u.row db now p.id p).status.Warranted (db.outcomesOf p.id) := by
  cases u with
  | finalizePipelineStatus => exact PipelineStatus.warranted_computed _
  | markPipelineCancelRequested _ => trivial
  | setPipelineStatus status =>
    change status.Warranted _
    by_cases ht : status.terminal = true
    · obtain ⟨rfl, hover⟩ := hc ht
      intro o ho
      obtain ⟨K, hK, hid, rfl⟩ := Database.mem_outcomesOf.mp ho
      exact JobStatus.terminal_iff.mpr (hover K hK hid)
    · exact PipelineStatus.warranted_of_not_terminal (by simpa using ht)

theorem Database.Agrees.step {c : Call} {x : Except String c.Result} (h : db.Agrees)
    (hc : c.Agreeable db) (he : Call.Effect db db' c x) (hwf : db'.WellFormed)
    (hord : startedRule.Ordered db') : db'.Agrees := by
  cases he with
  | untouched tables _ =>
    exact h.unmoved hwf hord tables.jobRuns fun p hp => h.warranted p (tables.pipelineRuns ▸ hp)
  | addPreviousJob _ _ _ _ jobRuns pipelineRuns _ _ =>
    exact h.unmoved hwf hord jobRuns fun p hp => h.warranted p (pipelineRuns ▸ hp)
  | createPipelineRun _ _ _ _ _ _ _ _ _ jobRuns pipelineRuns _ _ =>
    refine h.unmoved hwf hord jobRuns fun p hp => ?_
    rw [Table.rows_insert? pipelineRuns, List.mem_append, List.mem_singleton] at hp
    rcases hp with hp | rfl
    · exact h.warranted p hp
    · trivial
  | pipelineRun id u now jobRuns pipelineRuns _ =>
    refine h.unmoved hwf hord jobRuns fun p hp => ?_
    rw [pipelineRuns] at hp
    obtain ⟨q, hq, ⟨rfl, rfl⟩ | ⟨-, rfl⟩⟩ := Table.mem_modify.mp hp
    · rw [u.row_id]
      exact PipelineUpdate.row_warranted hc
    · exact h.warranted p hq
  | createJobRun _ _ _ _ _ _ _ _ _ jobRuns pipelineRuns _ _ =>
    exact h.created hwf hord (Table.rows_insert? jobRuns) pipelineRuns rfl rfl rfl hc.1 hc.2
  | jobRun id u now key jobRuns pipelineRuns _ =>
    obtain ⟨J, hJ, rfl, hun, hblock⟩ := hc
    refine h.rewritten hwf hord (rewrites_modify hJ hun jobRuns) pipelineRuns fun hb => hblock ?_
    rw [u.row_status] at hb
    cases hu : u.status with
    | some status =>
      rw [hu] at hb
      exact congrArg some hb
    | none =>
      have hb : J.status = .blocked := by rwa [hu] at hb
      rw [hb] at hun
      cases hun

end

/-- The pipelines named by `ended` are finished, each with its status. -/
def Database.KeepsEnded (ended : Id → PipelineStatus → Prop) (db : Database) : Prop :=
  ∀ id status, ended id status →
    ∃ p ∈ db.pipelineRuns.rows, p.id = id ∧ p.status = status ∧ db.Finished p

def Database.Finalizable (db : Database) (pipelineId : Id) : Prop :=
  ∃ p ∈ db.pipelineRuns.rows, p.id = pipelineId ∧ p.status ≠ .success ∧ p.status ≠ .canceled

/-- What a call may do so that the pipelines named by `ended` keep their statuses. -/
def Call.Lasting (ended : Id → PipelineStatus → Prop) (db : Database) : Call → Prop
  | .pipelineRun id .finalizePipelineStatus => db.Finalizable id
  | .pipelineRun id (.setPipelineStatus status) => ∀ status', ended id status' → status' = status
  | .pipelineRun id (.markPipelineCancelRequested _) => ∀ status, ¬ ended id status
  | _ => True

section

variable {ended : Id → PipelineStatus → Prop} {db db' : Database} {c : Call}
variable {x : Except String c.Result}

lemma PipelineUpdate.row_retained {p : PipelineRun} {u : PipelineUpdate} {now : Timestamp}
    (hd : db.Agrees) (hl : Call.Lasting ended db (.pipelineRun p.id u)) (hp : p ∈ db.pipelineRuns.rows)
    (hended : ended p.id p.status) (ht : p.status.terminal = true) :
    (u.row db now p.id p).status = p.status := by
  cases u with
  | finalizePipelineStatus =>
    obtain ⟨q, hq, hid, hs, hc⟩ := hl
    obtain rfl := db.pipelineRuns.eq_of_mem hp hq hid.symm
    refine (hd.warranted p hp).computed ?_
    cases hst : p.status <;> simp_all [PipelineStatus.terminal]
  | setPipelineStatus status => exact (hl p.status hended).symm
  | markPipelineCancelRequested _ => exact (hl p.status hended).elim

theorem Database.KeepsEnded.step (h : db.KeepsEnded ended) (hd : db.Agrees) (hc : c.Agreeable db)
    (hl : c.Lasting ended db) (he : Call.Effect db db' c x) : db'.KeepsEnded ended := by
  intro id status hended
  obtain ⟨p, hp, rfl, rfl, ht, hover⟩ := h id status hended
  have kept (hp' : p ∈ db'.pipelineRuns.rows) (hj : ∀ K ∈ db'.jobRuns.rows,
      K.pipelineRunId = p.id → K ∈ db.jobRuns.rows) : ∃ q ∈ db'.pipelineRuns.rows,
        q.id = p.id ∧ q.status = p.status ∧ db'.Finished q :=
    ⟨p, hp', rfl, rfl, ht, fun K hK hid => hover K (hj K hK hid) hid⟩
  cases he with
  | untouched tables _ => exact kept (tables.pipelineRuns ▸ hp) fun K hK _ => tables.jobRuns ▸ hK
  | addPreviousJob _ _ _ _ jobRuns pipelineRuns _ _ =>
    exact kept (pipelineRuns ▸ hp) fun K hK _ => jobRuns ▸ hK
  | createPipelineRun _ _ _ _ _ _ _ _ _ jobRuns pipelineRuns _ _ =>
    exact kept (Table.rows_insert? pipelineRuns ▸ List.mem_append_left _ hp) fun K hK _ => jobRuns ▸ hK
  | createJobRun pipelineId _ _ _ _ _ _ _ _ jobRuns pipelineRuns _ _ =>
    refine kept (pipelineRuns ▸ hp) fun K hK hid => ?_
    rw [Table.rows_insert? jobRuns, List.mem_append, List.mem_singleton] at hK
    rcases hK with hK | rfl
    · exact hK
    · have hopen : p.status.terminal = false := hc.1 p hp hid.symm
      exact absurd (hopen.symm.trans ht) Bool.false_ne_true
  | jobRun id u now key jobRuns pipelineRuns _ =>
    obtain ⟨J, hJ, rfl, hun, -⟩ := hc
    exact kept (pipelineRuns ▸ hp) fun K hK hid =>
      (rewrites_modify hJ hun jobRuns).old (hover.not_mem hJ hun) hK hid
  | pipelineRun id u now jobRuns pipelineRuns _ =>
    by_cases hid : p.id = id
    · subst hid
      have hstatus : (u.row db now p.id p).status = p.status :=
        PipelineUpdate.row_retained hd hl hp hended ht
      refine ⟨u.row db now p.id p, ?_, u.row_id db now p.id p, hstatus, hstatus.symm ▸ ht, ?_⟩
      · rw [pipelineRuns, Table.mem_modify]
        exact ⟨p, hp, .inl ⟨rfl, rfl⟩⟩
      · rw [u.row_id]
        exact fun K hK => hover K (jobRuns ▸ hK)
    · refine kept ?_ fun K hK _ => jobRuns ▸ hK
      rw [pipelineRuns, Table.mem_modify]
      exact ⟨p, hp, .inr ⟨hid, rfl⟩⟩

end

end Janus.Server
