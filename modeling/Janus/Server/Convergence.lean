import Janus.Server.Course

/-! What a crash between the calls of a pass leaves of the pipelines' statuses, and what the next pass
makes of it. -/

namespace Janus.Server

open Janus.Concurrency Janus.Data

def Alike (o o' : JobStatus × Bool) : Prop := o' = o ∨ (o.1 = .pending ∧ o'.1 = .running)

lemma terminalPipelineStatus_alike {α : Type} {l : List α} {f g : α → JobStatus × Bool}
    (h : ∀ a ∈ l, Alike (f a) (g a)) :
    terminalPipelineStatus (l.map g) = terminalPipelineStatus (l.map f) := by
  have hany (P : JobStatus × Bool → Bool)
      (hP : ∀ o o', o.1 = .pending → o'.1 = .running → P o' = P o) :
      (l.map g).any P = (l.map f).any P := by
    induction l with
    | nil => rfl
    | cons a l ih =>
      have ha : P (g a) = P (f a) := by
        rcases h a List.mem_cons_self with he | ⟨ho, ho'⟩
        · rw [he]
        · exact hP _ _ ho ho'
      simp only [List.map_cons, List.any_cons, ha, ih fun b hb => h b (List.mem_cons_of_mem _ hb)]
  have hall (P : JobStatus × Bool → Bool)
      (hP : ∀ o o', o.1 = .pending → o'.1 = .running → P o' = P o) :
      (l.map g).all P = (l.map f).all P := by
    rw [← Bool.not_inj_iff, List.not_all_eq_any_not, List.not_all_eq_any_not]
    exact hany _ fun o o' ho ho' => by rw [hP o o' ho ho']
  have hempty : (l.map g).isEmpty = (l.map f).isEmpty := by simp
  simp only [terminalPipelineStatus, hempty]
  rw [hall, hany, hany, hall, hany, hany] <;>
    · rintro ⟨s, b⟩ ⟨s', b'⟩ rfl rfl
      rfl

section

variable {outcomes : List (JobStatus × Bool)} (canFail : Bool)

lemma terminalPipelineStatus_append :
    terminalPipelineStatus (outcomes ++ [(.pending, canFail)]) =
      if outcomes.any fun o => o.1 = .failed ∧ !o.2 then .failed
      else if outcomes.any fun o => o.1 = .blocked then .blocked
      else if outcomes.any fun o => o.1 = .canceling then .canceling
      else if outcomes.any fun o => o.1 = .cancelRequested then .cancelRequested
      else .running := by
  simp [terminalPipelineStatus]

lemma terminalPipelineStatus_append_pending (hs : terminalPipelineStatus outcomes ≠ .success)
    (hc : terminalPipelineStatus outcomes ≠ .canceled) :
    terminalPipelineStatus (outcomes ++ [(.pending, canFail)]) =
      terminalPipelineStatus outcomes := by
  rw [terminalPipelineStatus_append]
  unfold terminalPipelineStatus at hs hc ⊢
  rw [if_neg fun h => hs (if_pos h)] at hc ⊢
  by_cases hf : outcomes.any fun o => o.1 = .failed ∧ !o.2
  · rw [if_pos hf, if_pos hf]
  rw [if_neg hf] at hc ⊢
  rw [if_neg hf]
  by_cases hb : outcomes.any fun o => o.1 = .blocked
  · rw [if_pos hb, if_pos hb]
  rw [if_neg hb] at hc ⊢
  rw [if_neg hb, if_neg fun h => hc (if_pos h)]

lemma terminalPipelineStatus_append_of_ended (h : terminalPipelineStatus outcomes = .success ∨
    terminalPipelineStatus outcomes = .canceled) :
    terminalPipelineStatus (outcomes ++ [(.pending, canFail)]) = .running := by
  have hends : ∀ o ∈ outcomes, o.1 = .success ∨ o.1 = .skipped ∨ o.1 = .canceled := by
    intro o ho
    rcases terminalPipelineStatus_cases outcomes with ⟨hs, -⟩ | ⟨-, -, hf⟩ | ⟨-, -, hb⟩ | ⟨hc, -⟩ |
      ⟨-, -, -, -, hterminal⟩
    · exact (hs.2 o ho).elim .inl fun h => .inr (.inl h)
    · rw [hf] at h
      rcases h with h | h <;> cases h
    · rw [hb] at h
      rcases h with h | h <;> cases h
    · exact .inr (.inr (hc.2 o ho))
    · rcases h with h | h <;> rw [h] at hterminal <;> cases hterminal
  have hnone (P : JobStatus × Bool → Bool)
      (hP : ∀ o : JobStatus × Bool, o.1 = .success ∨ o.1 = .skipped ∨ o.1 = .canceled → P o = false) :
      ¬ outcomes.any P := by
    rw [Bool.not_eq_true, List.any_eq_false]
    intro o ho
    rw [hP o (hends o ho)]
    exact Bool.false_ne_true
  rw [terminalPipelineStatus_append]
  rw [if_neg (hnone _ ?_), if_neg (hnone _ ?_), if_neg (hnone _ ?_), if_neg (hnone _ ?_)] <;>
    · rintro ⟨status, b⟩ (rfl | rfl | rfl) <;> rfl

end

namespace Database

variable {db db' : Database} {Js Js' : List JobRun} {owing : Option Id}

/-- The pipeline's row has the status that the rows of its jobs call for. -/
def UpToDate (db : Database) (p : PipelineRun) : Prop := p.status = db.computedStatus p.id

def WillBlock (db : Database) (Js : List JobRun) (p : PipelineRun) : Prop :=
  ∃ J ∈ Js, J ∈ db.jobRuns.rows ∧ J.pipelineRunId = p.id ∧ db.Halted J

def Repaired (db : Database) (Js : List JobRun) (owing : Option Id) : Prop :=
  ∀ p ∈ db.pipelineRuns.rows, some p.id ≠ owing → db.UpToDate p ∨ db.WillBlock Js p

def Repairable (db : Database) : Prop := db.Repaired db.jobRuns.rows none

/-- Recovery gives the pipeline the status that its jobs call for. -/
def Reopens (db : Database) (p : PipelineRun) : Prop :=
  db.requiresRecovery p = true ∧ recoveredStatus p.status = db.computedStatus p.id

def Reopening (db : Database) (ps : List PipelineRun) : Prop :=
  ∀ p ∈ db.pipelineRuns.rows,
    db.UpToDate p ∨ db.WillBlock db.jobRuns.rows p ∨ (p ∈ ps ∧ db.Reopens p)

/-- The next pass brings every status up to date, by its recovery or by the jobs that it blocks. -/
def Recoverable (db : Database) : Prop :=
  ∀ p ∈ db.pipelineRuns.rows,
    db.UpToDate p ∨ db.WillBlock db.jobRuns.rows p ∨ db.Reopens p

instance (db : Database) (J : JobRun) : Decidable (db.Halted J) :=
  decidable_of_iff (J.status = .pending ∧ ∃ K ∈ db.jobRuns.rows,
      (⟨J.id, K.id⟩ : PreviousJob) ∈ db.jobRunPrevious.rows ∧
        nextReadyJobStatus [K.outcome] = some .blocked)
    ⟨fun ⟨h, K, hK, he, hb⟩ => ⟨h, K, ⟨hK, he⟩, hb⟩, fun ⟨h, K, ⟨hK, he⟩, hb⟩ => ⟨h, K, hK, he, hb⟩⟩

instance (db : Database) (p : PipelineRun) : Decidable (db.UpToDate p) :=
  inferInstanceAs (Decidable (_ = _))

instance (db : Database) (p : PipelineRun) : Decidable (db.WillBlock db.jobRuns.rows p) :=
  decidable_of_iff (∃ J ∈ db.jobRuns.rows, J.pipelineRunId = p.id ∧ db.Halted J)
    ⟨fun ⟨J, hJ, h⟩ => ⟨J, hJ, hJ, h⟩, fun ⟨J, hJ, _, h⟩ => ⟨J, hJ, h⟩⟩

instance (db : Database) (p : PipelineRun) : Decidable (db.Reopens p) :=
  inferInstanceAs (Decidable (_ ∧ _))

instance (db : Database) : Decidable db.Recoverable :=
  inferInstanceAs (Decidable (∀ p ∈ db.pipelineRuns.rows, _))

lemma Repaired.mono (h : db.Repaired Js owing) (hJs : ∀ J ∈ Js, J ∈ db.jobRuns.rows → db.Halted J →
    some J.pipelineRunId ≠ owing → J ∈ Js') : db.Repaired Js' owing := by
  intro p hp hne
  refine (h p hp hne).imp_right ?_
  rintro ⟨J, hJ, hmem, hid, hh⟩
  exact ⟨J, hJs J hJ hmem hh (hid ▸ hne), hmem, hid, hh⟩

lemma Repaired.repairable (h : db.Repaired Js none) : db.Repairable := h.mono fun _ _ hJ _ _ => hJ

lemma Repaired.upToDate (h : db.Repaired [] none) : ∀ p ∈ db.pipelineRuns.rows, db.UpToDate p := by
  intro p hp
  refine (h p hp nofun).resolve_right ?_
  rintro ⟨J, hJ, -⟩
  cases hJ

lemma Reopening.recoverable {ps : List PipelineRun} (h : db.Reopening ps) : db.Recoverable :=
  fun p hp => (h p hp).imp_right fun h => h.imp_right And.right

lemma Recoverable.reopening (h : db.Recoverable) : db.Reopening db.pipelinesRequiringRecovery :=
  fun p hp => (h p hp).imp_right fun h =>
    h.imp_right fun hr => ⟨List.mem_filter.mpr ⟨hp, hr.1⟩, hr⟩

lemma Reopening.repairable (h : db.Reopening []) : db.Repairable := by
  intro p hp _
  rcases h p hp with hu | hb | ⟨hmem, -⟩
  · exact .inl hu
  · exact .inr hb
  · cases hmem

lemma Repairable.recoverable (h : db.Repairable) : db.Recoverable :=
  fun p hp => (h p hp nofun).imp_right .inl

lemma computedStatus_eq (h : db'.jobRuns = db.jobRuns) (id : Id) :
    db'.computedStatus id = db.computedStatus id := by
  simp only [computedStatus, jobRunsOf, h]

lemma Reopens.of_jobs {p : PipelineRun} (h : db.Reopens p) (hjobs : db'.jobRuns = db.jobRuns) :
    db'.Reopens p := by
  refine ⟨?_, h.2.trans (computedStatus_eq hjobs p.id).symm⟩
  simpa only [requiresRecovery, jobRunsOf, hjobs] using h.1

lemma Halted.kept {J : JobRun} (h : db.Halted J)
    (hrows : ∀ K, db.Previous J K → nextReadyJobStatus [K.outcome] = some .blocked →
      ∃ K' ∈ db'.jobRuns.rows, K'.id = K.id ∧ K'.outcome = K.outcome)
    (hedges : ∀ edge ∈ db.jobRunPrevious.rows, edge ∈ db'.jobRunPrevious.rows) : db'.Halted J := by
  obtain ⟨hp, K, hK, hb⟩ := h
  obtain ⟨K', hK', hid, ho⟩ := hrows K hK hb
  exact ⟨hp, K', ⟨hK', hid ▸ hedges _ hK.2⟩, ho ▸ hb⟩

lemma WillBlock.of_rows {p q : PipelineRun} (h : db.WillBlock Js p) (hid : q.id = p.id)
    (hjobs : db'.jobRuns = db.jobRuns)
    (hedges : ∀ edge ∈ db.jobRunPrevious.rows, edge ∈ db'.jobRunPrevious.rows) :
    db'.WillBlock Js q := by
  obtain ⟨J, hJ, hmem, hpid, hh⟩ := h
  refine ⟨J, hJ, hjobs ▸ hmem, hpid.trans hid.symm, hh.kept (fun K hK _ => ⟨K, ?_, rfl, rfl⟩) hedges⟩
  exact hjobs ▸ hK.1

lemma WillBlock.grows {p : PipelineRun} (h : db.WillBlock Js p) (hg : db.Grows db') :
    db'.WillBlock Js p := by
  obtain ⟨J, hJ, hmem, hpid, hh⟩ := h
  exact ⟨J, hJ, hg.jobRuns J hmem, hpid, hh.grows hg⟩

lemma WillBlock.any {p : PipelineRun} (h : db.WillBlock Js p) : db.WillBlock db.jobRuns.rows p := by
  obtain ⟨J, -, hmem, hpid, hh⟩ := h
  exact ⟨J, hmem, hmem, hpid, hh⟩

lemma Repaired.of_rows (h : db.Repaired Js owing) (hpipelines : db'.pipelineRuns = db.pipelineRuns)
    (hjobs : db'.jobRuns = db.jobRuns)
    (hedges : ∀ edge ∈ db.jobRunPrevious.rows, edge ∈ db'.jobRunPrevious.rows) :
    db'.Repaired Js owing :=
  fun p hp hne => (h p (hpipelines ▸ hp) hne).imp
    (fun hu => hu.trans (computedStatus_eq hjobs p.id).symm) fun hb => hb.of_rows rfl hjobs hedges

lemma Repaired.untouched (h : db.Repaired Js owing) (hu : db.Untouched db') :
    db'.Repaired Js owing :=
  h.of_rows hu.pipelineRuns hu.jobRuns fun _ he => hu.jobRunPrevious ▸ he

lemma Reopening.untouched {ps : List PipelineRun} (h : db.Reopening ps) (hu : db.Untouched db') :
    db'.Reopening ps := by
  intro p hp
  rcases h p (hu.pipelineRuns ▸ hp) with hup | hb | ⟨hmem, hr⟩
  · exact .inl (hup.trans (computedStatus_eq hu.jobRuns p.id).symm)
  · exact .inr (.inl (hb.any.of_rows rfl hu.jobRuns fun _ he => hu.jobRunPrevious ▸ he).any)
  · exact .inr (.inr ⟨hmem, hr.of_jobs hu.jobRuns⟩)

section

variable {id : Id} {u : JobUpdate} {now : Timestamp} {key : Id}

lemma computedStatus_modify
    (hjobs : db'.jobRuns =
      db.jobRuns.modify id (u.row now key) fun job => (u.row_same now key job).id) {q : Id}
    (h : ∀ J ∈ db.jobRuns.rows, J.pipelineRunId = q → J.id = id →
      Alike J.outcome (u.row now key J).outcome) :
    db'.computedStatus q = db.computedStatus q := by
  have hrows : db'.jobRunsOf q =
      (db.jobRunsOf q).map fun J => if J.id = id then u.row now key J else J := by
    simp only [jobRunsOf, hjobs, Table.modify, List.filter_map]
    congr 1
    refine List.filter_congr fun J _ => ?_
    simp only [Function.comp_apply]
    split
    · rw [(u.row_same now key J).pipelineRunId]
    · rfl
  simp only [computedStatus, hrows, List.map_map]
  refine terminalPipelineStatus_alike fun J hJ => ?_
  obtain ⟨hmem, hq⟩ := List.mem_filter.mp hJ
  simp only [Function.comp_apply]
  split
  · next hid => exact h J hmem (by simpa using hq) hid
  · exact .inl rfl

lemma Repaired.update {R : JobRun} {owing' : Option Id} (h : db.Repaired Js owing)
    (wf : db.WellFormed) (hR : R ∈ db.jobRuns.rows)
    (hjobs : db'.jobRuns =
      db.jobRuns.modify R.id (u.row now key) fun job => (u.row_same now key job).id)
    (hpipelines : db'.pipelineRuns = db.pipelineRuns)
    (hedges : db'.jobRunPrevious = db.jobRunPrevious)
    (howing : ∀ q : Id, some q ≠ owing' → some q ≠ owing)
    (hcase : owing' = some R.pipelineRunId ∨
      (¬ db.Halted R ∧ Alike R.outcome (u.row now key R).outcome)) :
    db'.Repaired Js owing' := by
  intro p hp hne
  have hother (K : JobRun) (hK : K ∈ db.jobRuns.rows) (hid : K.id ≠ R.id) :
      K ∈ db'.jobRuns.rows := by
    rw [hjobs, Table.mem_modify]
    exact ⟨K, hK, .inr ⟨hid, rfl⟩⟩
  rcases h p (hpipelines ▸ hp) (howing _ hne) with hu | ⟨J, hJ, hmem, hid, hh⟩
  · refine .inl (hu.trans (computedStatus_modify hjobs ?_).symm)
    intro K hK hq hKid
    obtain rfl := jobRun_eq hK hR hKid
    rcases hcase with rfl | ⟨-, ha⟩
    · exact (hne (by rw [hq])).elim
    · exact ha
  · have hJR : J.id ≠ R.id := by
      intro he
      obtain rfl := jobRun_eq hmem hR he
      rcases hcase with rfl | ⟨hn, -⟩
      · exact hne (by rw [hid])
      · exact hn hh
    refine .inr ⟨J, hJ, hother J hmem hJR, hid, hh.kept (fun K hK hb => ?_) fun e he => hedges ▸ he⟩
    by_cases hKR : K.id = R.id
    · obtain rfl := jobRun_eq hK.1 hR hKR
      refine ⟨u.row now key K, ?_, (u.row_same now key K).id, ?_⟩
      · rw [hjobs, Table.mem_modify]
        exact ⟨K, hR, .inl ⟨rfl, rfl⟩⟩
      · rcases hcase with rfl | ⟨-, he | ⟨hpend, -⟩⟩
        · exact (hne (by rw [← hid, (wf.previous_index hmem hK).1])).elim
        · exact he
        · -- A job that waits does not halt the next one.
          simp [nextReadyJobStatus, hpend] at hb
    · exact ⟨K, hother K hK.1 hKR, rfl, rfl⟩

end

end Database

def Call.joins (id : Id) : Call → Bool
  | .insert (.createJobRun pipelineRunId _ _ _ _) => pipelineRunId = id
  | _ => false

/-- A job is added to a pipeline that has succeeded or been canceled with all its jobs. -/
def Call.JoinsEnded (db : Database) (c : Call) : Prop :=
  ∃ p ∈ db.pipelineRuns.rows, c.joins p.id = true ∧ db.UpToDate p ∧
    (p.status = .success ∨ p.status = .canceled)

/-- No pass or enqueue makes the call where it leaves a pipeline behind: previous jobs are read when
they are stored, recovery gives a pipeline another status only where that is up to date or where a
job of it will be blocked, and a status is brought up to date unless the next pass does it. -/
def Call.Settling (failed : Bool) (db : Database) : Call → Prop
  | .query (.previousJobsForJobRun jobRunId) => ∀ J ∈ db.jobRuns.rows, J.id = jobRunId →
    J.jobIndex = 0 ∨ ∃ K, db.Previous J K
  | .pipelineRun pipelineId (.setPipelineStatus status) => ∀ p ∈ db.pipelineRuns.rows,
    p.id = pipelineId →
      p.status = status ∨ status = db.computedStatus p.id ∨ db.WillBlock db.jobRuns.rows p
  | .pipelineRun _ .finalizePipelineStatus => failed = true → db.Recoverable
  | _ => True

section

variable {db db' : Database} {Js : List JobRun} {owing : Option Id} {own : Origin → Prop}
variable {c : Call} {x : Except String c.Result} {ps : List PipelineRun} {p : PipelineRun}

lemma recoveredStatus_ne_ended (status : PipelineStatus) :
    recoveredStatus status ≠ .success ∧ recoveredStatus status ≠ .canceled := by
  cases status <;> exact ⟨nofun, nofun⟩

/-! What an enqueue does to the status that the jobs of a pipeline call for. -/

lemma Database.computedStatus_enqueue (wf : db.WellFormed) (hpermit : EnqueuePermits own db c)
    (he : Call.Effect db db' c x) (hp : p ∈ db'.pipelineRuns.rows) :
    (p ∈ db.pipelineRuns.rows ∧ (db'.computedStatus p.id = db.computedStatus p.id ∨
      c.joins p.id = true ∧
        (db.computedStatus p.id = .success ∨ db.computedStatus p.id = .canceled) ∧
        db'.computedStatus p.id = .running ∧ db'.requiresRecovery p = true)) ∨ db'.UpToDate p := by
  cases he with
  | untouched tables _ =>
    exact .inl ⟨tables.pipelineRuns ▸ hp, .inl (computedStatus_eq tables.jobRuns p.id)⟩
  | jobRun _ _ _ _ _ _ _ => cases hpermit
  | pipelineRun _ _ _ _ _ _ => cases hpermit
  | createPipelineRun _ _ _ _ _ _ _ id now jobRuns pipelineRuns edges _ =>
    rw [Table.rows_insert? pipelineRuns] at hp
    rcases List.mem_append.mp hp with hp | hp
    · exact .inl ⟨hp, .inl (computedStatus_eq jobRuns p.id)⟩
    · -- A new pipeline has no jobs.
      obtain rfl := List.mem_singleton.mp hp
      have hnone : db'.jobRunsOf id = [] := by
        refine List.filter_eq_nil_iff.mpr fun J hJ hq => ?_
        obtain ⟨q, hqm, hqid⟩ := wf.pipeline J (jobRuns ▸ hJ)
        have hq : J.pipelineRunId = id := by simpa using hq
        exact Table.not_mem_of_insert? pipelineRuns hqm (hqid.trans hq)
      refine .inr ?_
      change PipelineStatus.running = terminalPipelineStatus ((db'.jobRunsOf id).map JobRun.outcome)
      rw [hnone]
      rfl
  | createJobRun pipelineId jobIndex runnerId name policy id key _ _ jobRuns pipelineRuns edges _ =>
    refine .inl ⟨pipelineRuns ▸ hp, ?_⟩
    have hrows := Table.rows_insert? jobRuns
    by_cases hpid : p.id = pipelineId
    · have happend : db'.jobRunsOf p.id = db.jobRunsOf p.id ++
          [newJobRun id key pipelineId jobIndex runnerId name policy] := by
        simp [jobRunsOf, hrows, newJobRun, hpid]
      have hcomputed : db'.computedStatus p.id = terminalPipelineStatus
          ((db.jobRunsOf p.id).map JobRun.outcome ++ [(.pending, policy.allowsFailure)]) := by
        rw [computedStatus, happend, List.map_append]
        rfl
      by_cases hended : db.computedStatus p.id = .success ∨ db.computedStatus p.id = .canceled
      · refine .inr ⟨by simpa [Call.joins] using hpid.symm, hended, ?_, ?_⟩
        · rw [hcomputed]
          exact terminalPipelineStatus_append_of_ended _ hended
        · simp [requiresRecovery, happend, newJobRun]
      · rw [not_or] at hended
        refine .inl ?_
        rw [hcomputed]
        exact terminalPipelineStatus_append_pending _ hended.1 hended.2
    · have hsame : db'.jobRunsOf p.id = db.jobRunsOf p.id := by
        simp [jobRunsOf, hrows, newJobRun, Ne.symm hpid]
      refine .inl ?_
      rw [computedStatus, hsame]
      rfl
  | addPreviousJob _ _ _ _ jobRuns pipelineRuns edges _ =>
    exact .inl ⟨pipelineRuns ▸ hp, .inl (computedStatus_eq jobRuns p.id)⟩

lemma Database.Repaired.enqueue (h : db.Repaired Js owing) (wf : db.WellFormed)
    (hpermit : EnqueuePermits own db c) (he : Call.Effect db db' c x) (hc : db.SameConfig db')
    (hjoins : ¬ c.JoinsEnded db) : db'.Repaired Js owing := by
  have hg := hpermit.grows he hc
  intro p hp hne
  obtain ⟨hp, hsame | ⟨hjoin, hended, -⟩⟩ | hnew := computedStatus_enqueue wf hpermit he hp
  · exact (h p hp hne).imp (fun hu => hu.trans hsame.symm) fun hb => hb.grows hg
  · refine .inr (((h p hp hne).resolve_left fun hu => hjoins ⟨p, hp, hjoin, hu, ?_⟩).grows hg)
    exact hended.imp hu.trans hu.trans
  · exact .inl hnew

lemma Database.Reopens.enqueue (h : db.Reopens p) (hg : db.Grows db')
    (hsame : db'.computedStatus p.id = db.computedStatus p.id) : db'.Reopens p :=
  ⟨requiresRecovery_grows hg h.1, h.2.trans hsame.symm⟩

lemma Database.Reopens.not_ended (h : db.Reopens p) :
    ¬ (db.computedStatus p.id = .success ∨ db.computedStatus p.id = .canceled) := by
  rw [← h.2, not_or]
  exact recoveredStatus_ne_ended p.status

lemma Database.Reopening.enqueue (h : db.Reopening ps) (wf : db.WellFormed)
    (hpermit : EnqueuePermits own db c) (he : Call.Effect db db' c x) (hc : db.SameConfig db')
    (hjoins : ¬ c.JoinsEnded db) : db'.Reopening ps := by
  have hg := hpermit.grows he hc
  intro p hp
  obtain ⟨hp, hsame | ⟨hjoin, hended, -⟩⟩ | hnew := computedStatus_enqueue wf hpermit he hp
  · rcases h p hp with hu | hb | ⟨hmem, hr⟩
    · exact .inl (hu.trans hsame.symm)
    · exact .inr (.inl (hb.grows hg).any)
    · exact .inr (.inr ⟨hmem, hr.enqueue hg hsame⟩)
  · rcases h p hp with hu | hb | ⟨-, hr⟩
    · exact (hjoins ⟨p, hp, hjoin, hu, hended.imp hu.trans hu.trans⟩).elim
    · exact .inr (.inl (hb.grows hg).any)
    · exact (hr.not_ended hended).elim
  · exact .inl hnew

/-- While no pass runs, a job may join any pipeline: the next recovery reopens it. -/
lemma Database.Recoverable.enqueue (h : db.Recoverable) (wf : db.WellFormed)
    (hpermit : EnqueuePermits own db c) (he : Call.Effect db db' c x) (hc : db.SameConfig db') :
    db'.Recoverable := by
  have hg := hpermit.grows he hc
  intro p hp
  obtain ⟨hp, hsame | ⟨-, hended, hrunning, hrequires⟩⟩ | hnew :=
    computedStatus_enqueue wf hpermit he hp
  · rcases h p hp with hu | hb | hr
    · exact .inl (hu.trans hsame.symm)
    · exact .inr (.inl (hb.grows hg).any)
    · exact .inr (.inr (hr.enqueue hg hsame))
  · rcases h p hp with hu | hb | hr
    · refine .inr (.inr ⟨hrequires, ?_⟩)
      rw [hrunning, hu]
      rcases hended with hended | hended <;> rw [hended] <;> rfl
    · exact .inr (.inl (hb.grows hg).any)
    · exact (hr.not_ended hended).elim
  · exact .inl hnew

/-! What a pass does to the statuses of pipelines. -/

lemma Database.Repaired.finalized {id : Id} {now : Timestamp} (h : db.Repaired Js (some id))
    (hjobs : db'.jobRuns = db.jobRuns) (hedges : db'.jobRunPrevious = db.jobRunPrevious)
    (hpipelines : db'.pipelineRuns = db.pipelineRuns.modify id
      (PipelineUpdate.finalizePipelineStatus.row db now id)
      fun pipeline => PipelineUpdate.row_id db now id .finalizePipelineStatus pipeline) :
    db'.Repaired Js none := by
  intro p hp _
  rw [hpipelines, Table.mem_modify] at hp
  obtain ⟨q, hq, ⟨rfl, rfl⟩ | ⟨hid, rfl⟩⟩ := hp
  · exact .inl (computedStatus_eq hjobs q.id).symm
  · exact (h p hq fun he => hid (Option.some.inj he)).imp
      (fun hu => hu.trans (computedStatus_eq hjobs p.id).symm)
      fun hb => hb.of_rows rfl hjobs fun _ he => hedges ▸ he

lemma Database.Reopening.set {now : Timestamp} {failed : Bool} (h : db.Reopening (p :: ps))
    (hp : p ∈ db.pipelineRuns.rows)
    (hsettling : (Call.pipelineRun p.id (.setPipelineStatus (recoveredStatus p.status))).Settling
      failed db)
    (hjobs : db'.jobRuns = db.jobRuns) (hedges : db'.jobRunPrevious = db.jobRunPrevious)
    (hpipelines : db'.pipelineRuns = db.pipelineRuns.modify p.id
      ((PipelineUpdate.setPipelineStatus (recoveredStatus p.status)).row db now p.id)
      fun pipeline => PipelineUpdate.row_id db now p.id
        (.setPipelineStatus (recoveredStatus p.status)) pipeline) :
    db'.Reopening ps := by
  have hcomputed (id : Id) := computedStatus_eq hjobs id
  have hblock {q q' : PipelineRun} (hid : q'.id = q.id) (hb : db.WillBlock db.jobRuns.rows q) :
      db'.WillBlock db'.jobRuns.rows q' := (hb.of_rows hid hjobs fun _ he => hedges ▸ he).any
  intro q hq
  rw [hpipelines, Table.mem_modify] at hq
  obtain ⟨q, hq, ⟨hid, rfl⟩ | ⟨hid, rfl⟩⟩ := hq
  · obtain rfl := db.pipelineRuns.eq_of_mem hq hp hid
    rcases hsettling q hq rfl with hsame | hcalled | hb
    · rcases h q hq with hu | hb | ⟨-, hr⟩
      · exact .inl ((hsame.symm.trans hu).trans (hcomputed q.id).symm)
      · exact .inr (.inl (hblock rfl hb))
      · exact .inl (hr.2.trans (hcomputed q.id).symm)
    · exact .inl (hcalled.trans (hcomputed q.id).symm)
    · exact .inr (.inl (hblock rfl hb))
  · rcases h q hq with hu | hb | ⟨hmem, hr⟩
    · exact .inl (hu.trans (hcomputed q.id).symm)
    · exact .inr (.inl (hblock rfl hb))
    · refine .inr (.inr ⟨(List.mem_cons.mp hmem).resolve_left fun he => hid (he ▸ rfl), ?_⟩)
      exact hr.of_jobs hjobs

lemma Database.Repaired.jobRun {R : JobRun} {u : JobUpdate} {y : Except String u.Result}
    {owing' : Option Id} (h : db.Repaired Js none) (wf : db.WellFormed) (hR : R ∈ db.jobRuns.rows)
    (he : Call.Effect db db' (.jobRun R.id u) y)
    (hcase : owing' = some R.pipelineRunId ∨
      (¬ db.Halted R ∧ ∀ now key, Alike R.outcome (u.row now key R).outcome)) :
    db'.Repaired Js owing' := by
  cases he with
  | untouched tables _ => exact fun p hp _ => h.untouched tables p hp nofun
  | jobRun _ _ now key jobRuns pipelineRuns edges =>
    exact h.update wf hR jobRuns pipelineRuns edges (fun _ _ => nofun)
      (hcase.imp_right fun hc => ⟨hc.1, hc.2 now key⟩)

end

def Database.KeepsSettled (db db' : Database) : Prop :=
  (∀ Js owing, db.Repaired Js owing → db'.Repaired Js owing) ∧
    ∀ ps, db.Reopening ps → db'.Reopening ps

lemma Database.KeepsSettled.rfl {db : Database} : db.KeepsSettled db :=
  ⟨fun _ _ h => h, fun _ h => h⟩

lemma Database.KeepsSettled.trans {db db' db'' : Database} (h : db.KeepsSettled db')
    (h' : db'.KeepsSettled db'') : db.KeepsSettled db'' :=
  ⟨fun Js owing hrep => h'.1 Js owing (h.1 Js owing hrep), fun ps hre => h'.2 ps (h.2 ps hre)⟩

lemma Database.Recoverable.kept {db db' : Database} (h : db.Recoverable) (hk : db.KeepsSettled db') :
    db'.Recoverable := (hk.2 _ h.reopening).recoverable

def repairLedger : Ledger where
  interrupted s := s.db.Recoverable
  recovering ps s := s.db.Reopening ps
  idle s := s.db.Repairable
  todo Js s := s.db.Repaired Js none
  owes Js id s := s.db.Repaired Js (some id)

def settlingDiscipline (app : AppState) (r : Role) : Discipline Call Call.Result String Store where
  rely s s' := (r.scheduler = true → s.db.Grows s'.db ∧ s.db.KeepsSettled s'.db) ∧
    s.db.Leaves r.owns s'.db
  inv s := s.db.WellFormed
  admits c s x s' := ∃ o, c.exec app o s = (x, s') ∧
    c.Settling (c.refusal o.fault).isSome s.db ∧ (r.scheduler = true → ¬ c.JoinsEnded s.db)
  before c s := if r.scheduler then Permits (fun _ => True) r.owns s.db c
    else EnqueuePermits r.owns s.db c

section

variable {app : AppState}

lemma updateJobRun_error {db db' : Database} {u : JobUpdate} {now : Timestamp} {key : Id} {J : JobRun}
    {e : String} (hu : u.unsettles = true) (hJ : J ∈ db.jobRuns.rows)
    (h : db.updateJobRun u now key J.id = (.error e, db')) : db' = db := by
  simp only [Database.updateJobRun] at h
  split at h
  · exact (Prod.mk.inj h).2.symm
  · -- The row that the update answers from is there.
    have hjobs : ((db.updateRow u now key J.id).updateDetails J.id u).jobRuns =
        (db.updateRow u now key J.id).jobRuns := by cases u <;> rfl
    have hfind : ((db.updateRow u now key J.id).updateDetails J.id u).jobRuns.find? J.id =
        some (u.row now key J) := by
      refine Table.find?_eq_some_iff.mpr ⟨?_, (u.row_same now key J).id⟩
      rw [hjobs, Database.updateRow, Table.mem_modify]
      exact ⟨J, hJ, .inl ⟨rfl, rfl⟩⟩
    have hanswer := (Prod.mk.inj h).1
    cases u with
    | recordCancelRetry => cases hu
    | requeueJobRunForInfraRetry =>
      simp only [JobUpdate.answer, hfind] at hanswer
      cases hanswer
    | _ => cases hanswer

lemma exec_unsettles_error {u : JobUpdate} {o : Outcome} {s s' : Store} {J : JobRun} {e : String}
    (hu : u.unsettles = true) (hJ : J ∈ s.db.jobRuns.rows)
    (h : (Call.jobRun J.id u).exec app o s = (.error e, s')) : s'.db = s.db := by
  cases hf : o.fault with
  | none =>
    rcases exec_cases h with ⟨rfl, -⟩ | hp
    · rfl
    · simp only [Call.perform, hf] at hp
      obtain ⟨hx, rfl⟩ := Prod.mk.inj hp
      exact updateJobRun_error hu hJ (Prod.ext hx rfl)
  | refused m =>
    have hrefusal : (Call.jobRun J.id u).refusal o.fault = some m := by
      rw [hf]
      cases u <;> rfl
    rw [exec_of_refusal hrefusal] at h
    exact congrArg Store.db (Prod.mk.inj h).2.symm
  | partway m =>
    have hrefusal : (Call.jobRun J.id u).refusal o.fault = some m := by
      rw [hf]
      cases u <;> first | rfl | cases hu
    rw [exec_of_refusal hrefusal] at h
    exact congrArg Store.db (Prod.mk.inj h).2.symm

lemma examines_settling {c : Call} {o : Outcome} {s : Store}
    (hs : c.Settling (c.refusal o.fault).isSome s.db) : Examines (fun _ => True) c s := by
  intro J hJ hid
  cases c with
  | query q =>
    cases q with
    | previousJobsForJobRun id =>
      refine (hs J hJ (Option.some.inj hid).symm).imp_right ?_
      rintro ⟨K, hK⟩
      exact ⟨K, hK, trivial⟩
    | _ => cases hid
  | _ => cases hid

lemma reopening_set {p : PipelineRun} {ps : List PipelineRun} {o : Outcome} {s s' : Store}
    {x : Except String Unit} {failed : Bool} (h : s.db.Reopening (p :: ps))
    (hp : p ∈ s.db.pipelineRuns.rows)
    (hs : (Call.pipelineRun p.id (.setPipelineStatus (recoveredStatus p.status))).Settling failed s.db)
    (ho : (Call.pipelineRun p.id (.setPipelineStatus (recoveredStatus p.status))).exec app o s =
      (x, s')) :
    onOk (β := Unit) (fun _ s => s.db.Recoverable) (fun _ s => s.db.Reopening ps) x s' := by
  cases exec_effect ho with
  | untouched tables failed =>
    obtain ⟨e, rfl⟩ := failed rfl
    exact (h.untouched tables).recoverable
  | pipelineRun _ _ now jobRuns pipelineRuns edges =>
    have hset := h.set hp hs jobRuns edges pipelineRuns
    cases x with
    | error e => exact hset.recoverable
    | ok u => exact hset

lemma settled_finalize {t : List JobRun} {id : Id} {o : Outcome} {s s' : Store} {a : Unit}
    (h : s.db.Repaired t (some id))
    (ho : (Call.pipelineRun id .finalizePipelineStatus).exec app o s = (.ok a, s')) :
    s'.db.Repaired t none := by
  cases exec_effect ho with
  | untouched _ failed =>
    obtain ⟨e, he⟩ := failed rfl
    cases he
  | pipelineRun _ _ now jobRuns pipelineRuns edges => exact h.finalized jobRuns edges pipelineRuns

lemma recoverable_unfinalized {id : Id} {o : Outcome} {s s' : Store} {e : String}
    (ho : (Call.pipelineRun id .finalizePipelineStatus).exec app o s = (.error e, s'))
    (hs : (Call.pipelineRun id .finalizePipelineStatus).Settling
      ((Call.pipelineRun id .finalizePipelineStatus).refusal o.fault).isSome s.db) :
    s'.db.Recoverable := by
  cases hf : (Call.pipelineRun id .finalizePipelineStatus).refusal o.fault with
  | none =>
    rw [exec_of_allowed hf] at ho
    cases ho
  | some m =>
    rw [exec_of_refusal hf] at ho
    cases ho
    exact hs (by rw [hf]; rfl)

lemma repairRules {r : Role} (hr : r.scheduler = true) :
    PassRules app (fun _ => True) r.owns (settlingDiscipline app r) repairLedger where
  wf _ hi := hi
  grows _ _ h := (h.1 hr).1
  leaves _ _ h := h.2
  exec _ _ _ _ := fun ⟨o, ho, _⟩ => ⟨o, ho⟩
  examines _ _ _ _ := fun ⟨_, _, hs, _⟩ => examines_settling hs
  before c s _ h _ := by
    simp only [settlingDiscipline, hr, if_true]
    exact h
  finalizes _ _ s _ _ := by
    simp only [settlingDiscipline, hr, if_true]
    exact .inl trivial
  interrupted_stable _ _ h hrely _ := h.kept (hrely.1 hr).2
  recovering_stable ps _ _ h hrely _ := (hrely.1 hr).2.2 ps h
  idle_stable _ _ h hrely _ := ((hrely.1 hr).2.1 _ _ h).repairable
  todo_stable _ _ _ h hrely _ := (hrely.1 hr).2.1 _ _ h
  owes_stable _ _ _ _ h hrely _ := (hrely.1 hr).2.1 _ _ h
  idle_of_todo _ _ h := h.repairable
  idle_of_recovering _ h := h.repairable
  interrupted_of_idle _ h := h.recoverable
  interrupted_quiet c s x s' hc h _ := by
    rintro ⟨o, ho, -⟩
    exact (h.reopening.untouched ((exec_effect ho).untouched_of hc.mutates)).recoverable
  idle_quiet c s x s' hc h _ := by
    rintro ⟨o, ho, -⟩
    exact (h.untouched ((exec_effect ho).untouched_of hc.mutates)).repairable
  todo_quiet t c s x s' hc h _ := by
    rintro ⟨o, ho, -⟩
    exact h.untouched ((exec_effect ho).untouched_of hc.mutates)
  idle_enqueue c s x s' hp h hi := by
    rintro ⟨o, ho, -, hjoins⟩
    exact (h.enqueue hi hp (exec_effect ho) (exec_config ho) (hjoins hr)).repairable
  recovering_list s pipelines s' h _ := by
    rintro ⟨o, ho, -⟩
    obtain ⟨rfl, ⟨e, he⟩ | he⟩ := exec_query ho
    · cases he
    · cases he
      exact h.reopening
  recovering_set p ps s x s' h _ hp := by
    rintro ⟨o, ho, hs, -⟩
    exact reopening_set h hp hs ho
  todo_list s jobs s' h _ := by
    rintro ⟨o, ho, -⟩
    obtain ⟨rfl, ⟨e, he⟩ | he⟩ := exec_query ho
    · cases he
    · cases he
      refine h.mono fun J hJ _ hh _ => List.mem_filter.mpr ⟨hJ, ?_⟩
      simp [hh.1]
  todo_skip J t s h _ hJ hn := h.mono fun K hK _ hh _ =>
    (List.mem_cons.mp hK).resolve_left fun he => hn (he ▸ hh)
  todo_start J id t runId startedAt s x s' h hi hJ hid hready := by
    rintro ⟨o, ho, -⟩
    subst hid
    exact h.jobRun hi hJ (exec_effect ho)
      (.inr ⟨hready.not_halted hi hJ, fun _ _ => .inr ⟨hready.1, rfl⟩⟩)
  todo_create J id t r name key body s x s' h _ _ _ _ := by
    rintro ⟨o, ho, -⟩
    exact h.untouched ((exec_effect ho).untouched_of rfl)
  todo_retry J id t s x s' h hi hJ hid hlive := by
    rintro ⟨o, ho, -⟩
    subst hid
    refine h.jobRun hi hJ (exec_effect ho) (.inr ⟨fun hh => ?_, fun _ _ => .inl rfl⟩)
    rw [hh.1] at hlive
    cases hlive
  owes_write J id t u s a s' h hi hJ hid _ _ := by
    rintro ⟨o, ho, -⟩
    subst hid
    exact h.jobRun hi hJ (exec_effect ho) (.inl rfl)
  owes_block J t s a s' h hi hJ hh := by
    rintro ⟨o, ho, -⟩
    have howes : s'.db.Repaired (J :: t) (some J.pipelineRunId) :=
      h.jobRun hi hJ (exec_effect ho) (.inl rfl)
    exact howes.mono fun K hK _ _ hne =>
      (List.mem_cons.mp hK).resolve_left fun he => hne (he ▸ rfl)
  interrupted_refused J id t u s e s' h _ hJ hid _ hu := by
    rintro ⟨o, ho, -⟩
    subst hid
    have hdb := exec_unsettles_error hu hJ ho
    exact (hdb ▸ h : s'.db.Repaired t none).repairable.recoverable
  todo_finalize t id s a s' h _ := by
    rintro ⟨o, ho, -⟩
    exact settled_finalize h ho
  interrupted_unfinalized t id s e s' _ _ := by
    rintro ⟨o, ho, hs, -⟩
    exact recoverable_unfinalized ho hs

lemma settling_permits {r : Role} {c : Call} {s : Store}
    (h : (settlingDiscipline app r).before c s) : Permits (fun _ => True) r.owns s.db c := by
  simp only [settlingDiscipline] at h
  split at h
  · exact h
  · exact .inr h

lemma settling_enqueueRules (number : ℕ) (workflow : Workflow) (triggerType : String)
    (triggerRef commitSha : Option String) (selections : List WorkflowRunArtifactSelection) :
    EnqueueRules app (· = .request number) (settlingDiscipline app
      (.enqueue number workflow triggerType triggerRef commitSha selections)) fun _ => True where
  wf _ hi := hi
  leaves _ _ h := h.2
  exec _ _ _ _ := fun ⟨o, ho, _⟩ => ⟨o, ho⟩
  before _ _ h _ _ := h
  stable _ _ _ _ _ := trivial
  keeps _ _ _ _ _ _ _ _ := trivial

end

/-- The tasks of a server on which nobody cancels: `reconcile_once` and the requests that enqueue. -/
def Role.settles : Role → Bool
  | .reconcile => true
  | .enqueue _ _ _ _ _ _ => true
  | _ => false

instance (db : Database) (c : Call) : Decidable (c.JoinsEnded db) :=
  inferInstanceAs (Decidable (∃ p ∈ db.pipelineRuns.rows, _))

instance (failed : Bool) (db : Database) (c : Call) : Decidable (c.Settling failed db) := by
  unfold Call.Settling
  split <;> infer_instance

/-- No pass of the scheduler is under way. -/
def ServerPool.Idle (p : ServerPool) : Prop := ∀ t ∈ p.tasks, t.1.scheduler = false

instance (p : ServerPool) : Decidable p.Idle :=
  inferInstanceAs (Decidable (∀ t ∈ p.tasks, _))

/-- The step leaves no pipeline behind for good: a crash finds none that the next pass would not bring
up to date, and while a pass runs no job joins a pipeline that has ended with all its jobs. -/
def Settling (p : ServerPool) (e : ServerEvent) : Prop :=
  e.start?.all Role.settles ∧ (e = .crash → p.store.db.Recoverable) ∧
    ∀ c ∈ p.call? e, c.Settling (c.refusal e.outcome.fault).isSome p.store.db ∧
      (p.Idle ∨ ¬ c.JoinsEnded p.store.db)

instance (p : ServerPool) (e : ServerEvent) : Decidable (Settling p e) :=
  inferInstanceAs (Decidable (_ ∧ _))

def Returned (r : Role) (x : Except String Unit) (s : Store) : Prop :=
  r.scheduler = true → match x with
    | .ok _ => s.db.Repaired [] none
    | .error _ => s.db.Recoverable

lemma Returned.recoverable {r : Role} {x : Except String Unit} {s : Store} (h : Returned r x s)
    (hr : r.scheduler = true) : s.db.Recoverable := by
  have hx := h hr
  cases x with
  | ok u => exact hx.repairable.recoverable
  | error e => exact hx

def StartsRecoverable (p : ServerPool) (e : ServerEvent) : Prop :=
  Settling p e ∧ ∀ r, e = .start r → r.scheduler = true → p.store.db.Recoverable

section

variable {app : AppState} {p p' : ServerPool} {e : ServerEvent}

theorem settlingOutline (app : AppState) :
    System.Outline (server app) StartsRecoverable (fun s => s.db.WellFormed) (settlingDiscipline app)
      Returned where
  inv_eq _ := rfl
  trans r s s' s'' h h' := ⟨fun hr => ⟨(h.1 hr).1.trans (h'.1 hr).1, (h.1 hr).2.trans (h'.1 hr).2⟩,
    h.2.trans h'.2⟩
  post_stable r x s s' h hrely hr := by
    have hx := h hr
    cases x with
    | ok u => exact (hrely.1 hr).2.1 _ _ hx
    | error e => exact hx.kept (hrely.1 hr).2
  refl _ _ := ⟨fun _ => ⟨.rfl, .rfl⟩, .rfl⟩
  start p r _ hok := by
    have hsettles : r.settles = true := hok.1.1
    cases r with
    | reconcile =>
      have hidle := hok.2 _ rfl rfl
      refine Safe.mono ?_ (reconcileOnce_safe (repairRules rfl) (fun e i => ⟨e, i, rfl⟩) hidle)
      intro x s' hx _
      cases x <;> exact hx
    | enqueue number workflow triggerType triggerRef commitSha selections =>
      refine Safe.bind (Safe.mono ?_ (enqueue_safe (settling_enqueueRules number workflow triggerType
        triggerRef commitSha selections) workflow triggerType triggerRef commitSha selections rfl
        trivial))
      intro x s' _
      cases x <;> exact fun h => by cases h
    | _ => cases hsettles
  admits p i o r c next _ hok ht _ := by
    obtain ⟨hsettling, hidle⟩ := hok.1.2.2 c (by simp [Pool.call?, ht])
    refine ⟨o, rfl, hsettling, fun hr => hidle.resolve_left fun hidle => ?_⟩
    rw [hidle _ (List.mem_of_getElem? ht)] at hr
    cases hr
  keeps r s s' hinv hstep := by
    obtain ⟨c, x, hb, o, hex, -⟩ := hstep
    exact (exec_effect hex).wellFormed (exec_config hex) (fun _ _ => settling_permits hb) hinv
  compat p i o r c next r' hinv hok ht hr' hbeside hb ha := by
    obtain ⟨o, hex, -⟩ := ha
    have he := exec_effect hex
    refine ⟨fun hscheduler => ?_, (settling_permits hb).leaves he (owns_disjoint hbeside)⟩
    have hr := not_scheduler_beside hbeside hscheduler
    simp only [settlingDiscipline, hr] at hb
    obtain ⟨-, hidle⟩ := hok.1.2.2 c (by simp [Pool.call?, ht])
    have hjoins : ¬ c.JoinsEnded p.store.db := hidle.resolve_left fun hidle => by
      obtain ⟨t, htm, rfl⟩ := List.mem_map.mp hr'
      rw [hidle t (List.mem_of_mem_eraseIdx htm)] at hscheduler
      cases hscheduler
    have hc := exec_config hex
    exact ⟨EnqueuePermits.grows hb he hc, fun Js owing h => h.enqueue hinv hb he hc hjoins,
      fun ps h => h.enqueue hinv hb he hc hjoins⟩
  environ p v _ hinv := by
    cases v
    exact ⟨hinv, fun _ => ⟨fun _ => ⟨.rfl, .rfl⟩, .rfl⟩⟩
  crash _ _ hinv := hinv

def SettlingInvariant (app : AppState) (p : ServerPool) : Prop :=
  System.Sound (server app) (fun s => s.db.WellFormed) (settlingDiscipline app) Returned p ∧
    (p.Idle → p.store.db.Recoverable)

lemma SettlingInvariant.starts (h : SettlingInvariant app p) (hok : Settling p e)
    (ha : (server app).apply p e = some p') : StartsRecoverable p e := by
  refine ⟨hok, ?_⟩
  rintro r rfl hr
  obtain ⟨r', he, hb, -⟩ | ⟨_, _, _, _, _, he, -⟩ | ⟨_, _, _, he, -⟩ | ⟨he, -⟩ | ⟨_, he, -⟩ :=
    System.apply_cases ha <;> cases he
  exact h.2 fun t ht => not_scheduler_beside (.inl (hb t ht)) hr

lemma SettlingInvariant.idle (h : SettlingInvariant app p) (hok : Settling p e)
    (ha : (server app).apply p e = some p') (hidle : p'.Idle) : p'.store.db.Recoverable := by
  obtain ⟨r, rfl, -, rfl⟩ | ⟨i, o, r, c, next, rfl, ht, -, rfl⟩ | ⟨i, r, x, rfl, ht, rfl⟩ |
    ⟨rfl, rfl⟩ | ⟨v, rfl, rfl⟩ := System.apply_cases ha
  · exact h.2 fun t ht => hidle t (List.mem_append_left _ ht)
  · have hmem := List.mem_of_getElem? ht
    obtain ⟨hi, hget⟩ := List.getElem?_eq_some_iff.mp ht
    have hr : r.scheduler = false := hidle _ (List.mem_set (by simpa using hi) _)
    have hprev : p.Idle := by
      intro t ht'
      obtain ⟨j, hj, rfl⟩ := List.getElem_of_mem ht'
      by_cases hij : i = j
      · subst hij
        rw [hget]
        exact hr
      · refine hidle _ (List.mem_iff_getElem.mpr ⟨j, by simpa using hj, ?_⟩)
        exact List.getElem_set_ne hij _
    have hb := System.Sound.before (settlingOutline app) h.1 hmem
    simp only [settlingDiscipline, hr] at hb
    exact (h.2 hprev).enqueue h.1.1 hb (exec_effect rfl) (exec_config rfl)
  · by_cases hr : r.scheduler = true
    · exact Returned.recoverable (h.1.2.1 _ (List.mem_of_getElem? ht)) hr
    · refine h.2 fun t htm => ?_
      obtain ⟨j, hj, rfl⟩ := List.getElem_of_mem htm
      obtain ⟨hi, hget⟩ := List.getElem?_eq_some_iff.mp ht
      by_cases hij : j = i
      · subst hij
        rw [hget]
        exact Bool.eq_false_iff.mpr hr
      · refine hidle _ ?_
        rw [List.mem_eraseIdx_iff_getElem]
        exact ⟨j, hj, hij, rfl⟩
  · exact hok.2.1 rfl
  · cases v
    exact h.2 hidle

lemma SettlingInvariant.apply (h : SettlingInvariant app p) (hok : Settling p e)
    (ha : (server app).apply p e = some p') : SettlingInvariant app p' :=
  ⟨h.1.apply (settlingOutline app) (h.starts hok ha) ha, h.idle hok ha⟩

end

def ServerPool.passed (p : ServerPool) : Bool :=
  p.tasks.any fun t => match t with
    | (.reconcile, .done (.ok _)) => true
    | _ => false

/-- Where no step leaves a pipeline behind and no crash finds one, a pass that returns without an error
leaves every pipeline with the status that its jobs call for. -/
theorem up_to_date_after_pass {app : AppState} {p : ServerPool} {es : List ServerEvent}
    (hidle : p.tasks = []) (hwf : p.store.db.WellFormed)
    (hcurrent : ∀ q ∈ p.store.db.pipelineRuns.rows, p.store.db.UpToDate q)
    (hok : (server app).Along Settling es p) {p' : ServerPool}
    (hrun : (server app).run es p = some p') (hpassed : p'.passed = true) :
    ∀ q ∈ p'.store.db.pipelineRuns.rows, p'.store.db.UpToDate q := by
  have hstart : SettlingInvariant app p := by
    refine ⟨⟨hwf, ?_, ?_⟩, fun _ q hq => .inl (hcurrent q hq)⟩ <;> rw [hidle]
    · intro t ht
      cases ht
    · exact .nil
  have hend : SettlingInvariant app p' :=
    System.Along.invariant (fun _ _ _ h hok ha => h.apply hok ha) hstart hok hrun
  obtain ⟨t, ht, hpass⟩ := List.any_eq_true.mp hpassed
  split at hpass
  · next u =>
    have hreturned : Returned .reconcile (.ok u) p'.store := hend.1.2.1 _ ht
    exact (hreturned rfl).upToDate
  · cases hpass

def passUntilFinished : List ServerEvent :=
  .start .reconcile :: (List.replicate 10 (.step 0 {}) ++
    [.step 0 (replied 201 (.created ⟨"run", 0⟩))] ++ List.replicate 3 (.step 0 {}) ++
    [.step 0 (replied 200 (.status { status := .success }))] ++ List.replicate 2 (.step 0 {}))

def crashBeforeFinalize : List ServerEvent :=
  passUntilFinished ++ [.crash, .start .reconcile] ++ List.replicate 5 (.step 0 {})

theorem running_after_crash :
    oneJob.tasks = [] ∧ oneJob.store.db.WellFormed ∧
      (∀ q ∈ oneJob.store.db.pipelineRuns.rows, oneJob.store.db.UpToDate q) ∧
      (server sampleApp).Along (fun _ e => e.start?.all Role.settles = true) crashBeforeFinalize
        oneJob ∧
      ((server sampleApp).run crashBeforeFinalize oneJob).any (fun p' => ServerPool.passed p' ∧
        ¬ ∀ q ∈ p'.store.db.pipelineRuns.rows, p'.store.db.UpToDate q) = true := by
  decide +kernel

def passWith (i : ℕ) (runId : String) : List ServerEvent :=
  List.replicate 10 (.step i {}) ++ [.step i (replied 201 (.created ⟨runId, 0⟩))] ++
    List.replicate 3 (.step i {}) ++ [.step i (replied 200 (.status { status := .success }))] ++
    List.replicate 3 (.step i {})

/-- The first job has ended before the second is created, and the server crashes once it is. -/
def jobAfterSuccess : List ServerEvent :=
  .start (sampleEnqueue 2) :: (List.replicate 3 (.step 0 {}) ++
    [.step 0 { uuid := 1 }, .step 0 {}, .step 0 { uuid := 10, dispatchKey := 10 },
      .start .reconcile] ++ passWith 1 "first" ++
    [.finish 1, .step 0 { uuid := 11, dispatchKey := 11 }, .step 0 {}, .crash, .start .reconcile] ++
    passWith 0 "second")

theorem up_to_date_after_crash :
    ((server sampleApp).run jobAfterSuccess noPipelines).any ServerPool.passed = true ∧
      ∀ p', (server sampleApp).run jobAfterSuccess noPipelines = some p' →
        ServerPool.passed p' = true → ∀ q ∈ p'.store.db.pipelineRuns.rows, p'.store.db.UpToDate q :=
  have hok : (server sampleApp).Along Settling jobAfterSuccess noPipelines := by decide +kernel
  ⟨by decide +kernel, fun _ hrun hpassed => up_to_date_after_pass rfl (by decide +kernel)
    (by decide +kernel) hok hrun hpassed⟩

end Janus.Server
