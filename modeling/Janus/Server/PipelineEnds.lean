import Janus.Server.Agreement

/-! Cancellations served beside no pass: a pipeline has a terminal status only once its jobs have
ended, and keeps it from then on. -/

namespace Janus.Server

open Janus.Concurrency Janus.Data

def Call.blocks : Call → Option Id
  | .jobRun id (.setJobRunStatus .blocked) => some id
  | _ => none

def Call.addsTo : Call → Option Id
  | .insert (.createJobRun pipelineId _ _ _ _) => some pipelineId
  | _ => none

/-- No job is examined without its previous job or behind a blocked one, none is blocked before an
earlier job has ended, and none joins a pipeline that has a terminal status. -/
def Call.Fits (db : Database) (c : Call) : Prop :=
  (∀ id ∈ c.examines, ∀ J ∈ db.jobRuns.rows, J.id = id → J.jobIndex = 0 ∨
    ∃ K ∈ db.jobRuns.rows, ⟨J.id, K.id⟩ ∈ db.jobRunPrevious.rows ∧ K.status ≠ .blocked) ∧
  (∀ id ∈ c.blocks, ∀ J ∈ db.jobRuns.rows, J.id = id → db.EndedBefore J) ∧
  ∀ id ∈ c.addsTo, ∀ p ∈ db.pipelineRuns.rows, p.id = id → p.status.terminal = false

instance (db : Database) (c : Call) : Decidable (c.Fits db) :=
  inferInstanceAs (Decidable (_ ∧ _))

section

variable {ended : Id → PipelineStatus → Prop} {own : Origin → Prop} {db db' : Database} {c : Call}
variable {x : Except String c.Result}

lemma Permits.agreeable (h : Permits (· ≠ .blocked) own db c) (hfits : c.Fits db) :
    c.Agreeable db := by
  cases c with
  | jobRun jobRunId u =>
    obtain ⟨J, hJ, rfl, hp⟩ := h.resolve_right id
    refine ⟨J, hJ, rfl, JobStatus.unfinished_iff.mpr hp.unfinished, fun hu => ?_⟩
    cases u with
    | setJobRunStatus status =>
      cases hu
      exact hfits.2.1 J.id rfl J hJ rfl
    | finishJobRun status _ _ _ _ _ _ _ _ =>
      cases hu
      rcases hp with ⟨-, hs⟩ | ⟨-, hs | hs⟩ <;> cases hs
    | _ => cases hu
  | pipelineRun pipelineId u =>
    cases u with
    | setPipelineStatus status =>
      obtain ⟨p, -, -, -, rfl⟩ := h.resolve_right id
      intro ht
      cases hs : p.status <;> rw [hs] at ht <;> cases ht
    | _ => trivial
  | insert i =>
    cases i with
    | createJobRun pipelineId jobIndex _ _ _ => exact ⟨hfits.2.2 _ rfl, (h.resolve_left id).2⟩
    | _ => trivial
  | _ => trivial

lemma Database.Finished.not_requiresRecovery {p : PipelineRun} (h : db.Finished p) :
    db.requiresRecovery p = false := by
  obtain ⟨ht, hover⟩ := h
  have hstatus : [PipelineStatus.running, .cancelRequested, .canceling].contains p.status = false := by
    cases hs : p.status <;> simp_all [PipelineStatus.terminal]
  simp only [requiresRecovery, hstatus, Bool.false_or, List.any_eq_false]
  intro J hJ
  obtain ⟨hJ, hid⟩ := List.mem_filter.mp hJ
  obtain ⟨hn, hl⟩ := hover J hJ (by simpa using hid)
  cases hs : J.status <;> simp_all [JobStatus.live]

lemma Permits.lasting (h : Permits (· ≠ .blocked) own db c) (hr : db.KeepsEnded ended)
    (hf : ∀ id, c = .pipelineRun id .finalizePipelineStatus → db.Finalizable id) :
    c.Lasting ended db := by
  cases c with
  | pipelineRun pipelineId u =>
    cases u with
    | finalizePipelineStatus => exact hf pipelineId rfl
    | markPipelineCancelRequested _ => exact (h.elim id id).elim
    | setPipelineStatus status =>
      obtain ⟨p, hp, rfl, hreq, -⟩ := h.resolve_right id
      intro status' hended
      obtain ⟨q, hq, hid, -, hfinished⟩ := hr p.id status' hended
      obtain rfl := db.pipelineRuns.eq_of_mem hq hp hid
      exact absurd (hfinished.not_requiresRecovery.symm.trans hreq) Bool.false_ne_true
  | _ => trivial

end

def CancelPermits (ended : Id → PipelineStatus → Prop) (db : Database) : Call → Prop
  | .query _ => True
  | .runner _ (.cancelJobRun _) => True
  | .jobRun id (.markJobRunCancelRequested _) =>
    ∃ J ∈ db.jobRuns.rows, J.id = id ∧ J.status.live = true
  | .jobRun id (.setJobRunStatus status) => status = .canceled ∧
    ∃ J ∈ db.jobRuns.rows, J.id = id ∧ J.status = .pending
  | .pipelineRun id (.markPipelineCancelRequested _) =>
    ∃ J ∈ db.jobRuns.rows, J.pipelineRunId = id ∧ J.status.live = true
  | .pipelineRun id (.setPipelineStatus status) => status = .canceled ∧ db.Over id ∧
    ∀ status', ended id status' → status' = .canceled
  | _ => False

section

variable {ended : Id → PipelineStatus → Prop} {db db' : Database} {c : Call}
variable {x : Except String c.Result}

lemma CancelPermits.agreeable (h : CancelPermits ended db c) : c.Agreeable db := by
  cases c with
  | jobRun id u =>
    cases u with
    | markJobRunCancelRequested _ =>
      obtain ⟨J, hJ, rfl, hl⟩ := h
      exact ⟨J, hJ, rfl, JobStatus.unfinished_iff.mpr (.inr hl), fun hu => by cases hu⟩
    | setJobRunStatus status =>
      obtain ⟨rfl, J, hJ, rfl, hp⟩ := h
      exact ⟨J, hJ, rfl, JobStatus.unfinished_iff.mpr (.inl hp), fun hu => by cases hu⟩
    | _ => cases h
  | pipelineRun id u =>
    cases u with
    | setPipelineStatus status => exact fun _ => ⟨h.1, h.2.1⟩
    | _ => trivial
  | insert i => cases h
  | _ => trivial

lemma CancelPermits.lasting (h : CancelPermits ended db c) (hr : db.KeepsEnded ended) :
    c.Lasting ended db := by
  cases c with
  | pipelineRun id u =>
    cases u with
    | finalizePipelineStatus => cases h
    | setPipelineStatus status =>
      obtain ⟨rfl, -, hended⟩ := h
      exact hended
    | markPipelineCancelRequested _ =>
      obtain ⟨J, hJ, hid, hl⟩ := h
      intro status hended
      obtain ⟨p, -, rfl, -, -, hover⟩ := hr id status hended
      exact absurd ((hover J hJ hid).2.symm.trans hl) Bool.false_ne_true
  | _ => trivial

lemma CancelPermits.ordered (h : CancelPermits ended db c) (hord : startedRule.Ordered db)
    (he : Call.Effect db db' c x) : startedRule.Ordered db' := by
  cases he with
  | untouched tables _ => exact hord.of_eq tables.jobRuns
  | pipelineRun _ _ _ jobRuns _ _ => exact hord.of_eq jobRuns
  | jobRun id u now key jobRuns _ _ =>
    cases u with
    | markJobRunCancelRequested _ =>
      obtain ⟨J, hJ, rfl, hl⟩ := h
      exact hord.modify hJ (JobStatus.unfinished_iff.mpr (.inr hl)) jobRuns
        fun _ => hord J hJ (startedRule.live _ hl)
    | setJobRunStatus status =>
      obtain ⟨rfl, J, hJ, rfl, hp⟩ := h
      exact hord.modify hJ (JobStatus.unfinished_iff.mpr (.inl hp)) jobRuns
        fun hadv => (hadv.2.2 rfl).elim
    | _ => cases h
  | _ => cases h

end

def endsDiscipline (app : AppState) (ended : Id → PipelineStatus → Prop) (r : Role) :
    Discipline Call Call.Result String Store where
  rely s s' := (r.cancels = true → s'.db = s.db) ∧ (r.scheduler = true → s.db.Grows s'.db) ∧
    s.db.Leaves r.owns s'.db
  inv s := s.db.Agrees ∧ s.db.KeepsEnded ended
  admits c s x s' := (∃ o, c.exec app o s = (x, s')) ∧ c.Fits s.db
  before c s :=
    if r.cancels then CancelPermits ended s.db c
    else (if r.scheduler then Permits (· ≠ .blocked) r.owns s.db c else EnqueuePermits r.owns s.db c) ∧
      ∀ id, c = .pipelineRun id .finalizePipelineStatus → s.db.Finalizable id

section

variable {app : AppState} {ended : Id → PipelineStatus → Prop} {r : Role} {s s' : Store}

lemma endsDiscipline_permits {c : Call} (hr : r.cancels = false)
    (h : (endsDiscipline app ended r).before c s) : Permits (· ≠ .blocked) r.owns s.db c := by
  simp only [endsDiscipline, hr] at h
  obtain ⟨h, -⟩ := h
  split at h
  · exact h
  · exact .inr h

lemma endsDiscipline_keeps (hi : s.db.Agrees ∧ s.db.KeepsEnded ended)
    (h : (endsDiscipline app ended r).step s s') : s'.db.Agrees ∧ s'.db.KeepsEnded ended := by
  obtain ⟨c, x, hb, ⟨o, hex⟩, hfits⟩ := h
  obtain ⟨hagrees, hretains⟩ := hi
  have he := exec_effect hex
  have hcalls : c.Agreeable s.db ∧ c.Lasting ended s.db ∧ startedRule.Ordered s'.db ∧
      s'.db.WellFormed := by
    by_cases hr : r.cancels = true
    · have hp : CancelPermits ended s.db c := by simpa only [endsDiscipline, hr, if_true] using hb
      have hnone (i : Insertion) (hc : c = .insert i) : Permits (· ≠ .blocked) r.owns s.db c := by
        subst hc
        cases hp
      exact ⟨hp.agreeable, hp.lasting hretains, hp.ordered hagrees.ordered he,
        he.wellFormed (exec_config hex) hnone hagrees.wellFormed⟩
    · have hr : r.cancels = false := by simpa using hr
      have hp := endsDiscipline_permits hr hb
      simp only [endsDiscipline, hr] at hb
      exact ⟨hp.agreeable hfits, hp.lasting hretains hb.2, hagrees.ordered.step hagrees.wellFormed hp he,
        he.wellFormed (exec_config hex) (fun _ _ => hp) hagrees.wellFormed⟩
  obtain ⟨hc, hl, hord, hwf⟩ := hcalls
  exact ⟨hagrees.step hc he hwf hord, hretains.step hagrees hc hl he⟩

end

def JobRun.Reachable (J : JobRun) : Prop := J.status = .running ∧ J.runnerRunId.isSome

instance (J : JobRun) : Decidable J.Reachable := inferInstanceAs (Decidable (_ ∧ _))

/-- The pipeline has a job that a runner can be asked to stop, or no live job and no status that a
cancellation would take back. -/
def Database.Cancelable (db : Database) (pipelineId : Id) : Prop :=
  (∃ J ∈ db.jobRuns.rows, J.pipelineRunId = pipelineId ∧ J.Reachable) ∨
    ((∀ J ∈ db.jobRuns.rows, J.pipelineRunId = pipelineId → J.status.live = false) ∧
      ∀ p ∈ db.pipelineRuns.rows, p.id = pipelineId → db.Finished p → p.status = .canceled)

instance (db : Database) (pipelineId : Id) : Decidable (db.Cancelable pipelineId) :=
  inferInstanceAs (Decidable (_ ∨ _))

/-- Between two jobs of a cancellation, with the jobs `Js` still to come. -/
structure Canceling (pipelineId : Id) (Js : List JobRun) (requested : Bool) (db : Database) : Prop where
  present : Present Js db
  own : ∀ J ∈ Js, J.pipelineRunId = pipelineId
  pending : ∀ K ∈ db.jobRuns.rows, K.pipelineRunId = pipelineId → K.status = .pending → K ∈ Js
  asked : requested = true → ∃ K ∈ db.jobRuns.rows, K.pipelineRunId = pipelineId ∧
    K.status.live = true
  unasked : requested = false → (∃ J ∈ Js, J.Reachable) ∨ ∀ K ∈ db.jobRuns.rows,
    K.pipelineRunId = pipelineId → K.status.live = false

namespace Canceling

variable {pipelineId : Id} {Js : List JobRun} {b : Bool} {db db' : Database} {J J' : JobRun}

lemma skip (h : Canceling pipelineId (J :: Js) b db) (hp : J.status ≠ .pending)
    (hr : ¬ J.Reachable) : Canceling pipelineId Js b db where
  present := h.present.tail.1
  own K hK := h.own K (List.mem_cons_of_mem _ hK)
  pending K hK hid hs :=
    (List.mem_cons.mp (h.pending K hK hid hs)).resolve_left fun he => hp (he ▸ hs)
  asked := h.asked
  unasked hf := (h.unasked hf).imp_left fun ⟨K, hK, hreach⟩ =>
    ⟨K, (List.mem_cons.mp hK).resolve_left fun he => hr (he ▸ hreach), hreach⟩

lemma present_written (h : Canceling pipelineId (J :: Js) b db) (hw : db.Rewrites db' J J') :
    Present Js db' := by
  obtain ⟨hpresent, -, hnot⟩ := h.present.tail
  refine ⟨hpresent.1, fun K hK => (hw.jobRuns K).mpr (.inr ⟨hpresent.2 K hK, fun hid => ?_⟩)⟩
  exact hnot (hid ▸ List.mem_map_of_mem hK)

lemma pending_written (h : Canceling pipelineId (J :: Js) b db) (hw : db.Rewrites db' J J')
    (hs : J'.status ≠ .pending) : ∀ K ∈ db'.jobRuns.rows, K.pipelineRunId = pipelineId →
      K.status = .pending → K ∈ Js := by
  intro K hK hid hKs
  rcases (hw.jobRuns K).mp hK with rfl | ⟨hK, hne⟩
  · exact (hs hKs).elim
  · exact (List.mem_cons.mp (h.pending K hK hid hKs)).resolve_left fun he => hne (he ▸ rfl)

lemma requested (h : Canceling pipelineId (J :: Js) b db) (hw : db.Rewrites db' J J')
    (hs : J'.status = .cancelRequested) : Canceling pipelineId Js true db' where
  present := h.present_written hw
  own K hK := h.own K (List.mem_cons_of_mem _ hK)
  pending := h.pending_written hw (by simp [hs])
  asked _ := ⟨J', (hw.jobRuns J').mpr (.inl rfl),
    hw.same.pipelineRunId.trans (h.own J List.mem_cons_self), by rw [hs]; rfl⟩
  unasked hf := by cases hf

lemma canceled (h : Canceling pipelineId (J :: Js) b db) (hw : db.Rewrites db' J J')
    (hp : J.status = .pending) (hs : J'.status = .canceled) :
    Canceling pipelineId Js b db' where
  present := h.present_written hw
  own K hK := h.own K (List.mem_cons_of_mem _ hK)
  pending := h.pending_written hw (by simp [hs])
  asked ht := by
    obtain ⟨K, hK, hid, hl⟩ := h.asked ht
    refine ⟨K, (hw.jobRuns K).mpr (.inr ⟨hK, fun he => ?_⟩), hid, hl⟩
    obtain rfl := Database.jobRun_eq hK hw.row he
    rw [hp] at hl
    cases hl
  unasked hf := by
    rcases h.unasked hf with ⟨K, hK, hreach⟩ | hnone
    · refine .inl ⟨K, (List.mem_cons.mp hK).resolve_left fun he => ?_, hreach⟩
      subst he
      cases hp.symm.trans hreach.1
    · refine .inr fun K hK hid => ?_
      rcases (hw.jobRuns K).mp hK with rfl | ⟨hK, -⟩
      · rw [hs]
        rfl
      · exact hnone K hK hid

lemma allEnded (h : Canceling pipelineId [] false db) : db.Over pipelineId := by
  intro K hK hid
  refine ⟨fun hs => ?_, ?_⟩
  · cases h.pending K hK hid hs
  · rcases h.unasked rfl with ⟨J, hJ, -⟩ | hnone
    · cases hJ
    · exact hnone K hK hid

end Canceling

lemma Database.Cancelable.canceling {db : Database} {pipelineId : Id} (h : db.Cancelable pipelineId) :
    Canceling pipelineId (db.listJobRunsForPipeline pipelineId) false db := by
  have hperm : (db.listJobRunsForPipeline pipelineId).Perm (db.jobRunsOf pipelineId) :=
    List.perm_insertionSort _ _
  have hmem (K : JobRun) : K ∈ db.listJobRunsForPipeline pipelineId ↔
      K ∈ db.jobRuns.rows ∧ K.pipelineRunId = pipelineId := by
    rw [hperm.mem_iff]
    simp [Database.jobRunsOf]
  refine ⟨⟨?_, fun J hJ => ((hmem J).mp hJ).1⟩, fun J hJ => ((hmem J).mp hJ).2,
    fun K hK hid _ => (hmem K).mpr ⟨hK, hid⟩, (fun ht => by cases ht), fun _ => ?_⟩
  · exact (hperm.map JobRun.id).nodup_iff.mpr (present_filter db _).1
  · rcases h with ⟨J, hJ, hid, hr⟩ | ⟨hnone, -⟩
    · exact .inl ⟨J, (hmem J).mpr ⟨hJ, hid⟩, hr⟩
    · exact .inr hnone

section

variable {app : AppState} {ended : Id → PipelineStatus → Prop} {pipelineId : Id}
variable {J : JobRun} {Js : List JobRun} {b : Bool} {s : Store}

lemma cancel_request {c : Call} {P : Database → Prop} {post : Except String c.Result → Store → Prop}
    (hs : P s.db) (h : ∀ s', P s'.db → s'.db.WellFormed → CancelPermits ended s'.db c ∧
      ∀ o x s'', c.exec app o s' = (x, s'') → post x s'') :
    Safe (endsDiscipline app ended (.cancel pipelineId)) post (.request c) s := by
  refine Safe.request (P := fun s => P s.db) hs (fun s s' hP hr _ => hr.1 rfl ▸ hP) ?_
  intro s' hP hi
  obtain ⟨hp, hx⟩ := h s' hP hi.1.wellFormed
  refine ⟨hp, fun x s'' ha => ?_⟩
  obtain ⟨⟨o, hex⟩, -⟩ := ha
  exact hx o x s'' hex

/-- Where the call succeeds, only the row of the job is written. -/
lemma jobRun_rewrites {u : JobUpdate} {o : Outcome} {a : u.Result} {s s' : Store}
    (hJ : J ∈ s.db.jobRuns.rows) (hun : J.status.terminal = false)
    (h : (Call.jobRun J.id u).exec app o s = (.ok a, s')) :
    ∃ J', s.db.Rewrites s'.db J J' ∧ J'.status = u.status.getD J.status := by
  cases exec_effect h with
  | untouched _ failed =>
    obtain ⟨e, he⟩ := failed rfl
    cases he
  | jobRun _ _ now key jobRuns _ _ =>
    exact ⟨u.row now key J, rewrites_modify hJ hun jobRuns, u.row_status now key J⟩

lemma cancelAtRunner_safe {runner : Runner} (hs : Canceling pipelineId (J :: Js) b s.db) :
    Safe (endsDiscipline app ended (.cancel pipelineId)) (onOk (β := Unit) (fun _ _ => True)
      fun requested s' => if requested then J.status = .running ∧ Canceling pipelineId Js true s'.db
        else ¬ J.Reachable ∧ Canceling pipelineId (J :: Js) b s'.db)
      (cancelAtRunner J (some runner)) s := by
  simp only [cancelAtRunner]
  cases hrun : J.runnerRunId with
  | none => exact ⟨fun hr => by simp [JobRun.Reachable, hrun] at hr, hs⟩
  | some runId =>
    refine Safe.ite (fun hrunning => ?_) fun hn => ⟨fun hr => hn hr.1, hs⟩
    refine Safe.bind (cancel_request (P := Canceling pipelineId (J :: Js) b) hs ?_)
    intro s₁ hs₁ _
    refine ⟨trivial, fun o x s₂ hex => ?_⟩
    have hdb : s₂.db = s₁.db := by
      rcases exec_cases hex with ⟨rfl, -⟩ | hex
      · rfl
      · cases hex
        rfl
    cases x with
    | error e => trivial
    | ok u =>
      have hs₂ : Canceling pipelineId (J :: Js) b s₂.db := hdb ▸ hs₁
      refine Safe.bind (cancel_request (P := Canceling pipelineId (J :: Js) b) hs₂ ?_)
      intro s₃ hs₃ _
      have hJ := hs₃.present.2 J List.mem_cons_self
      have hlive : J.status.live = true := by rw [hrunning]; rfl
      refine ⟨⟨J, hJ, rfl, hlive⟩, fun o x s₄ hex => ?_⟩
      cases x with
      | error e => trivial
      | ok u =>
        obtain ⟨J', hw, hstatus⟩ :=
          jobRun_rewrites hJ (JobStatus.unfinished_iff.mpr (.inr hlive)) hex
        exact ⟨hrunning, hs₃.requested hw hstatus⟩

lemma cancelWhilePending_safe (hs : Canceling pipelineId (J :: Js) b s.db) (hr : ¬ J.Reachable) :
    Safe (endsDiscipline app ended (.cancel pipelineId)) (onOk (β := Unit) (fun _ _ => True)
      fun _ s' => Canceling pipelineId Js b s'.db) (cancelWhilePending J) s := by
  refine Safe.ite (fun hp => ?_) fun hn => hs.skip hn hr
  refine cancel_request (P := Canceling pipelineId (J :: Js) b) hs ?_
  intro s₁ hs₁ _
  have hJ := hs₁.present.2 J List.mem_cons_self
  refine ⟨⟨rfl, J, hJ, rfl, hp⟩, fun o x s₂ hex => ?_⟩
  cases x with
  | error e => trivial
  | ok u =>
    obtain ⟨J', hw, hstatus⟩ := jobRun_rewrites hJ (JobStatus.unfinished_iff.mpr (.inl hp)) hex
    exact hs₁.canceled hw hp hstatus

lemma cancelJob_safe (hs : Canceling pipelineId (J :: Js) b s.db) :
    Safe (endsDiscipline app ended (.cancel pipelineId)) (onOk (β := Unit) (fun _ _ => True)
      fun requested s' => Canceling pipelineId Js (b || requested) s'.db) (cancelJob J) s := by
  refine Safe.bind (cancel_request (P := Canceling pipelineId (J :: Js) b) hs ?_)
  intro s₁ hs₁ wf
  refine ⟨trivial, fun o x s₂ hex => ?_⟩
  obtain ⟨rfl, ⟨e, rfl⟩ | rfl⟩ := exec_query hex
  · trivial
  · obtain ⟨runner, hrunner⟩ := Option.isSome_iff_exists.mp
      (wf.runner J (hs₁.present.2 J List.mem_cons_self))
    change Safe _ _ (cancelAtRunner J (s₂.db.runners.find? J.runnerId) >>= _) s₂
    rw [hrunner]
    refine Safe.bind (Safe.mono ?_ (cancelAtRunner_safe hs₁))
    intro x s₃ hx
    cases x with
    | error e => trivial
    | ok requested =>
      cases requested with
      | true =>
        obtain ⟨hrunning, hs₃⟩ := hx
        have hskip : cancelWhilePending J = pure () := by simp [cancelWhilePending, hrunning]
        rw [hskip]
        change Canceling pipelineId Js (b || true) s₃.db
        rw [Bool.or_true]
        exact hs₃
      | false =>
        obtain ⟨hr, hs₃⟩ := hx
        refine Safe.bind (Safe.mono ?_ (cancelWhilePending_safe hs₃ hr))
        intro x s₄ hx
        cases x with
        | error e => trivial
        | ok u =>
          change Canceling pipelineId Js (b || false) s₄.db
          rw [Bool.or_false]
          exact hx

lemma cancelJobs_safe (hs : Canceling pipelineId Js b s.db) :
    Safe (endsDiscipline app ended (.cancel pipelineId)) (onOk (β := Unit) (fun _ _ => True)
      fun requested s' => Canceling pipelineId [] requested s'.db) (cancelJobs Js b) s := by
  induction Js generalizing b s with
  | nil => exact hs
  | cons J Js ih =>
    refine Safe.bind (Safe.mono ?_ (cancelJob_safe hs))
    intro x s' hx
    cases x with
    | error e => trivial
    | ok requested => exact ih hx

lemma cancelPipeline_safe (hs : s.db.Cancelable pipelineId)
    (hended : ∀ status, ended pipelineId status → status = .canceled) :
    Safe (endsDiscipline app ended (.cancel pipelineId)) (fun _ _ => True)
      (cancelPipeline pipelineId) s := by
  refine Safe.bind (cancel_request (P := fun db => db.Cancelable pipelineId) hs ?_)
  intro s₁ hs₁ _
  refine ⟨trivial, fun o x s₂ hex => ?_⟩
  obtain ⟨rfl, ⟨e, rfl⟩ | rfl⟩ := exec_query hex
  · trivial
  · refine Safe.bind (Safe.mono ?_ (cancelJobs_safe hs₁.canceling))
    intro x s₃ hx
    cases x with
    | error e => trivial
    | ok requested =>
      cases requested with
      | true =>
        refine cancel_request (P := Canceling pipelineId [] true) hx ?_
        exact fun s₄ hs₄ _ => ⟨hs₄.asked rfl, fun _ _ _ _ => trivial⟩
      | false =>
        refine cancel_request (P := Canceling pipelineId [] false) hx ?_
        exact fun s₄ hs₄ _ => ⟨⟨rfl, hs₄.allEnded, hended⟩, fun _ _ _ _ => trivial⟩

end

section

variable {app : AppState} {ended : Id → PipelineStatus → Prop} {r : Role}

lemma Call.Fits.examines {c : Call} {s : Store} (h : c.Fits s.db) : Examines (· ≠ .blocked) c s := by
  intro J hJ hid
  rcases h.1 J.id hid J hJ rfl with h0 | ⟨K, hK, hedge, hb⟩
  · exact .inl h0
  · exact .inr ⟨K, ⟨hK, hedge⟩, hb⟩

lemma finalizable_written {J : JobRun} {u : JobUpdate} {a : u.Result} {s s' : Store} {o : Outcome}
    (hd : s.db.Agrees) (hJ : J ∈ s.db.jobRuns.rows) (hun : J.status.terminal = false)
    (h : (Call.jobRun J.id u).exec app o s = (.ok a, s')) : s'.db.Finalizable J.pipelineRunId := by
  obtain ⟨p, hp, hid⟩ := hd.wellFormed.pipeline J hJ
  have hne (hs : p.status = .success ∨ p.status = .canceled) : False :=
    (Database.over_of_warranted (hd.warranted p hp) hs).not_mem hJ hun hid.symm
  have hp' : p ∈ s'.db.pipelineRuns.rows := by
    cases exec_effect h with
    | untouched tables _ => exact tables.pipelineRuns ▸ hp
    | jobRun _ _ _ _ _ pipelineRuns _ => exact pipelineRuns ▸ hp
  exact ⟨p, hp', hid, fun hs => hne (.inl hs), fun hs => hne (.inr hs)⟩

lemma passRules_ends (hr : r.scheduler = true) :
    PassRules app (· ≠ .blocked) r.owns (endsDiscipline app ended r)
      (.owing fun id s => s.db.Finalizable id) := by
  have hc : r.cancels = false := by cases r <;> first | rfl | cases hr
  have before (c : Call) (s : Store) (h : Permits (· ≠ .blocked) r.owns s.db c)
      (hf : ∀ id, c = .pipelineRun id .finalizePipelineStatus → s.db.Finalizable id) :
      (endsDiscipline app ended r).before c s := by
    simp only [endsDiscipline, hc, hr, if_true]
    exact ⟨h, hf⟩
  refine passRules_owing (fun _ h => h.1.wellFormed) (fun _ _ h => h.2.1 hr) (fun _ _ h => h.2.2)
    (fun _ _ _ _ h => h.1) (fun _ _ _ _ h => h.2.examines) ?_ ?_ ?_ ?_
  · rintro c s hn h -
    refine before c s h fun id hid => ?_
    rw [hid] at hn
    cases hn
  · refine fun id s h _ => before _ s (.inl trivial) fun id' hid => ?_
    cases hid
    exact h
  · rintro id s s' ⟨p, hp, hrest⟩ h -
    exact ⟨p, (h.2.1 hr).pipelineRuns p hp, hrest⟩
  · rintro J u s a s' hi hJ hun ⟨⟨o, hex⟩, -⟩
    exact finalizable_written hi.1 hJ (JobStatus.unfinished_iff.mpr hun) hex

lemma enqueueRules_ends (number : ℕ) (workflow : Workflow) (triggerType : String)
    (triggerRef commitSha : Option String) (selections : List WorkflowRunArtifactSelection) :
    EnqueueRules app (· = .request number) (endsDiscipline app ended
      (.enqueue number workflow triggerType triggerRef commitSha selections)) fun _ => True where
  wf _ h := h.1.wellFormed
  leaves _ _ h := h.2.2
  exec _ _ _ _ h := h.1
  before c s h _ _ := ⟨h, fun id hid => by
    subst hid
    cases h⟩
  stable _ _ _ _ _ := trivial
  keeps _ _ _ _ _ _ _ _ := trivial

end

/-- A cancellation is served alone, of a pipeline that it can cancel; nothing else starts beside it. -/
def Role.Fits (p : ServerPool) : Role → Prop
  | .cancel pipelineId => p.tasks = [] ∧ p.store.db.Cancelable pipelineId
  | _ => ∀ t ∈ p.tasks, t.1.cancels = false

instance (p : ServerPool) (r : Role) : Decidable (r.Fits p) := by
  unfold Role.Fits
  split <;> infer_instance

/-- The step is in order: what starts and what is called fits the state it meets. -/
def Orderly (p : ServerPool) (e : ServerEvent) : Prop :=
  (∀ r ∈ e.start?, r.Fits p) ∧ ∀ c ∈ p.call? e, c.Fits p.store.db

instance (p : ServerPool) (e : ServerEvent) : Decidable (Orderly p e) :=
  inferInstanceAs (Decidable (_ ∧ _))

def ServerPool.NoCancel (p : ServerPool) : Prop := ∀ t ∈ p.tasks, t.1.cancels = false

instance (p : ServerPool) : Decidable p.NoCancel :=
  inferInstanceAs (Decidable (∀ t ∈ p.tasks, _))

/-- A cancellation that is under way is the only task. -/
def ServerPool.Apart (p : ServerPool) : Prop := p.NoCancel ∨ p.tasks.length ≤ 1

section

variable {app : AppState} {ended : Id → PipelineStatus → Prop} {p p' : ServerPool} {e : ServerEvent}

lemma Role.Fits.noCancel {r : Role} (h : r.Fits p) (hr : r.cancels = false) : p.NoCancel := by
  cases r with
  | cancel id => cases hr
  | _ => exact h

lemma apart_apply (h : p.Apart) (hok : Orderly p e) (ha : (server app).apply p e = some p') :
    p'.Apart := by
  obtain ⟨r, rfl, -, rfl⟩ | ⟨i, o, r, c, next, rfl, ht, -, rfl⟩ | ⟨i, r, x, rfl, -, rfl⟩ |
    ⟨rfl, rfl⟩ | ⟨v, rfl, rfl⟩ := System.apply_cases ha
  · have hfits : r.Fits p := hok.1 r rfl
    by_cases hr : r.cancels = true
    · cases r with
      | cancel id => exact .inr (by simp [hfits.1])
      | _ => cases hr
    · have hr : r.cancels = false := by simpa using hr
      refine .inl fun t ht => ?_
      rcases List.mem_append.mp ht with ht | ht
      · exact hfits.noCancel hr t ht
      · rw [List.mem_singleton.mp ht]
        exact hr
  · refine h.imp (fun h t ht' => ?_) fun h => by simpa using h
    have hr : r.cancels = false := h _ (List.mem_of_getElem? ht)
    rcases List.mem_or_eq_of_mem_set ht' with ht' | rfl
    · exact h t ht'
    · exact hr
  · refine h.imp (fun h t ht => h t (List.mem_of_mem_eraseIdx ht)) fun h => ?_
    exact (List.length_eraseIdx_le _ _).trans h
  · exact .inr (Nat.zero_le _)
  · exact h

def OrderlyApart (p : ServerPool) (e : ServerEvent) : Prop := Orderly p e ∧ p.Apart

lemma ends_start (hi : p.store.db.Agrees ∧ p.store.db.KeepsEnded ended) {r : Role} (hfits : r.Fits p) :
    Safe (endsDiscipline app ended r) (fun _ _ => True) (r.program app) p.store := by
  by_cases hs : r.scheduler = true
  · exact scheduled_safe hs (passRules_ends hs) p.store
  · cases r with
    | cancel id =>
      refine cancelPipeline_safe hfits.2 fun status hended => ?_
      obtain ⟨P, hP, rfl, rfl, hfinished⟩ := hi.2 id status hended
      rcases hfits.2 with ⟨J, hJ, hid, hrun, -⟩ | ⟨-, hcanceled⟩
      · have hlive : J.status.live = false := (hfinished.2 J hJ hid).2
        rw [hrun] at hlive
        cases hlive
      · exact hcanceled P hP rfl hfinished
    | enqueue number workflow triggerType triggerRef commitSha selections =>
      exact enqueueing_safe (enqueueRules_ends number workflow triggerType triggerRef commitSha
        selections) workflow triggerType triggerRef commitSha selections p.store
    | _ => exact (hs rfl).elim

theorem endsOutline (app : AppState) (ended : Id → PipelineStatus → Prop) :
    System.Outline (server app) OrderlyApart (fun s => s.db.Agrees ∧ s.db.KeepsEnded ended)
      (endsDiscipline app ended) (fun _ _ _ => True) where
  inv_eq _ := rfl
  trans _ _ _ _ h h' := ⟨fun hr => (h'.1 hr).trans (h.1 hr), fun hr => (h.2.1 hr).trans (h'.2.1 hr),
    h.2.2.trans h'.2.2⟩
  post_stable _ _ _ _ _ _ := trivial
  refl _ _ := ⟨fun _ => rfl, fun _ => .rfl, .rfl⟩
  start p r hi hok := ends_start hi (hok.1.1 r rfl)
  admits p i o r c next _ hok ht _ := ⟨⟨o, rfl⟩, hok.1.2 c (by simp [Pool.call?, ht])⟩
  keeps _ _ _ hi hstep := endsDiscipline_keeps hi hstep
  compat p i o r c next r' _ hok ht hr' hbeside hb ha := by
    obtain ⟨⟨o', hex⟩, -⟩ := ha
    have hi := (List.getElem?_eq_some_iff.mp ht).1
    obtain ⟨t', ht', rfl⟩ := List.mem_map.mp hr'
    have hnone : ServerPool.NoCancel p := by
      refine hok.2.resolve_right fun hlength => ?_
      have hempty : (p.tasks.eraseIdx i).length = 0 := by
        rw [List.length_eraseIdx_of_lt hi]
        omega
      rw [List.length_eq_zero_iff.mp hempty] at ht'
      cases ht'
    have hr : r.cancels = false := hnone _ (List.mem_of_getElem? ht)
    have hr'c : t'.1.cancels = false := hnone _ (List.mem_of_mem_eraseIdx ht')
    have hp := endsDiscipline_permits hr hb
    refine ⟨fun h => absurd (hr'c.symm.trans h) Bool.false_ne_true, fun hscheduler => ?_,
      hp.leaves (exec_effect hex) (owns_disjoint hbeside)⟩
    have hs := not_scheduler_beside hbeside hscheduler
    simp only [endsDiscipline, hr, hs] at hb
    exact EnqueuePermits.grows hb.1 (exec_effect hex) (exec_config hex)
  environ p v _ hi := by
    cases v
    exact ⟨hi, fun _ => ⟨fun _ => rfl, fun _ => .rfl, .rfl⟩⟩
  crash _ _ hi := hi

lemma orderly_apart {es : List ServerEvent} (h : (server app).Along Orderly es p) (hp : p.Apart) :
    (server app).Along OrderlyApart es p :=
  h.of_invariant (I := ServerPool.Apart) (fun _ _ _ hq he ha => apart_apply hq he ha)
    (fun _ _ _ hq he _ => ⟨he, hq⟩) hp

abbrev EndsSound (app : AppState) (ended : Id → PipelineStatus → Prop) (p : ServerPool) : Prop :=
  System.Sound (server app) (fun s => s.db.Agrees ∧ s.db.KeepsEnded ended) (endsDiscipline app ended)
    (fun _ _ _ => True) p

lemma EndsSound.run {es : List ServerEvent} (h : EndsSound app ended p) (hp : p.Apart)
    (hok : (server app).Along Orderly es p) (hrun : (server app).run es p = some p') :
    EndsSound app ended p' :=
  System.Along.invariant (fun _ _ _ hs hok ha => hs.apply (endsOutline app ended) hok ha) h
    (orderly_apart hok hp) hrun

/-- Where no cancellation is under way, what has finished may be taken into the account. -/
lemma EndsSound.retain (h : EndsSound app ended p) (hp : p.NoCancel)
    {ended' : Id → PipelineStatus → Prop} (hincl : ∀ id status, ended id status → ended' id status)
    (hr : p.store.db.KeepsEnded ended') : EndsSound app ended' p := by
  obtain ⟨hi, hsafe, hpair⟩ := h
  refine ⟨⟨hi.1, hr⟩, fun t ht => ?_, hpair⟩
  have hc : t.1.cancels = false := hp t ht
  refine Safe.weaken ?_ ?_ ?_ ?_ (hsafe t ht)
  · exact fun _ _ h => h
  · exact fun s hs => ⟨hs.1, fun id status he => hs.2 id status (hincl id status he)⟩
  · intro c s hb
    simpa only [endsDiscipline, hc, Bool.false_eq_true, if_false] using hb
  · exact fun _ _ _ _ h => h

end

/-- In every run in order no pipeline with a terminal status has a live job, and a pipeline that is
finished keeps its status through whatever passes and cancellations come later. -/
theorem statuses_agree {app : AppState} {p q q' : ServerPool} {es es' : List ServerEvent}
    (hidle : p.tasks = []) (hwf : p.store.db.WellFormed)
    (hpending : ∀ J ∈ p.store.db.jobRuns.rows, J.status = .pending)
    (hopen : ∀ P ∈ p.store.db.pipelineRuns.rows, P.status.terminal = false)
    (hok : (server app).Along Orderly (es ++ es') p) (hrun : (server app).run es p = some q)
    (hrun' : (server app).run es' q = some q') :
    q.store.db.StatusesAgree ∧ (q.NoCancel → ∀ P ∈ q.store.db.pipelineRuns.rows,
      q.store.db.Finished P → ∃ P' ∈ q'.store.db.pipelineRuns.rows, P'.id = P.id ∧
        P'.status = P.status ∧ q'.store.db.Finished P') := by
  have hstart : EndsSound app (fun _ _ => False) p := by
    refine ⟨⟨⟨hwf, .of_pending hpending, ?_, ?_⟩, ?_⟩, ?_, ?_⟩
    · intro B hB hb
      cases (hpending B hB).symm.trans hb
    · exact fun P hP => PipelineStatus.warranted_of_not_terminal (hopen P hP)
    · exact fun _ _ h => h.elim
    · rw [hidle]
      intro t ht
      cases ht
    · rw [hidle]
      exact .nil
  have hapart : p.Apart := .inr (by rw [hidle]; exact Nat.zero_le _)
  have hq : EndsSound app (fun _ _ => False) q := hstart.run hapart hok.left hrun
  refine ⟨hq.1.1.statusesAgree, fun hnone P hP hfinished => ?_⟩
  have hretain : EndsSound app (fun id status => id = P.id ∧ status = P.status) q := by
    refine hq.retain hnone (fun _ _ h => h.elim) ?_
    rintro id status ⟨rfl, rfl⟩
    exact ⟨P, hP, rfl, rfl, hfinished⟩
  exact (hretain.run (.inl hnone) (hok.append hrun) hrun').1.2 P.id P.status ⟨rfl, rfl⟩

def cancelRunning : List ServerEvent :=
  .start (.cancel 1) :: (List.replicate 2 (.step 0 {}) ++ .step 0 (replied 202 .other) ::
    List.replicate 2 (.step 0 {}) ++ [.finish 0])

def cancelAgain : List ServerEvent :=
  .start (.cancel 1) :: (List.replicate 3 (.step 0 {}) ++ [.finish 0])

def polledSuccess : List ServerEvent :=
  .start .poll :: (List.replicate 2 (.step 0 {}) ++
    .step 0 (replied 200 (.status { status := .success })) :: List.replicate 3 (.step 0 {}) ++
      [.finish 0])

/-- The second cancellation finds no running job any more, or no job at all that has not ended. -/
theorem canceled_again :
    oneJob.tasks = [] ∧ oneJob.store.db.WellFormed ∧
      (∀ J ∈ oneJob.store.db.jobRuns.rows, J.status = .pending) ∧
      (∀ P ∈ oneJob.store.db.pipelineRuns.rows, P.status.terminal = false) ∧
      ((server sampleApp).run (dispatched "run" ++ cancelRunning ++ cancelAgain) oneJob).any
        (fun q => ¬ q.store.db.StatusesAgree) = true ∧
      ((server sampleApp).run (dispatched "run" ++ polledSuccess) oneJob).any (fun q =>
        ServerPool.NoCancel q ∧ q.store.db.pipelineRuns.rows.all fun P =>
          P.status = .success ∧ q.store.db.Finished P) = true ∧
      ((server sampleApp).run (dispatched "run" ++ polledSuccess ++ cancelAgain) oneJob).any (fun q =>
        q.store.db.pipelineRuns.rows.all (·.status = .canceled)) = true := by
  decide +kernel

/-- The first of three jobs runs, the pipeline is canceled, and the runner reports the job canceled. -/
def threeCanceled : List ServerEvent :=
  .start .dispatch :: (List.replicate 7 (.step 0 {}) ++
    .step 0 (replied 201 (.created ⟨"run", 0⟩)) :: List.replicate 3 (.step 0 {}) ++
    [.finish 0, .start (.cancel 1)] ++ List.replicate 2 (.step 0 {}) ++ .step 0 (replied 202 .other) ::
    List.replicate 6 (.step 0 {}) ++ [.finish 0, .start .poll] ++ List.replicate 3 (.step 0 {}) ++
    .step 0 (replied 200 (.status { status := .canceled })) :: List.replicate 3 (.step 0 {}) ++
    [.finish 0])

def canceledTwice : List ServerEvent :=
  .start (.cancel 1) :: (List.replicate 5 (.step 0 {}) ++ [.finish 0, .start .reconcile] ++
    List.replicate 4 (.step 0 {}) ++ [.finish 0])

theorem statuses_agree_canceled :
    (((server sampleApp).run threeCanceled threeJobs).bind
        ((server sampleApp).run canceledTwice)).isSome ∧
      ((server sampleApp).run threeCanceled threeJobs).any (fun q => ServerPool.NoCancel q ∧
        q.store.db.pipelineRuns.rows.all fun P => P.status = .canceled ∧ q.store.db.Finished P) ∧
      ∀ q q', (server sampleApp).run threeCanceled threeJobs = some q →
        (server sampleApp).run canceledTwice q = some q' → q.store.db.StatusesAgree ∧
          (ServerPool.NoCancel q → ∀ P ∈ q.store.db.pipelineRuns.rows, q.store.db.Finished P →
            ∃ P' ∈ q'.store.db.pipelineRuns.rows, P'.id = P.id ∧ P'.status = P.status ∧
              q'.store.db.Finished P') :=
  have hok : (server sampleApp).Along Orderly (threeCanceled ++ canceledTwice) threeJobs := by
    decide +kernel
  ⟨by decide +kernel, by decide +kernel, fun _ _ => statuses_agree rfl (by decide +kernel)
    (by decide +kernel) (by decide +kernel) hok⟩

end Janus.Server
