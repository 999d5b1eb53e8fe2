import Janus.Server.Passes

/-! Runs without cancellations: the passes of the scheduler, and users' enqueues beside them. -/

namespace Janus.Server

open Janus.Concurrency Janus.Data

def Role.owns : Role → Origin → Prop
  | .enqueue number _ _ _ _ _, origin => origin = .request number
  | .pushEvents, origin => ∃ eventId refIndex, origin = .push eventId refIndex
  | .reconcile, origin => ∃ eventId refIndex, origin = .push eventId refIndex
  | _, _ => False

section

variable {allowed : JobStatus → Prop} {own own' : Origin → Prop} {db db' : Database} {c : Call}
variable {x : Except String c.Result}

lemma Database.Untouched.wellFormed (h : db.Untouched db') (hc : db.SameConfig db')
    (wf : db.WellFormed) : db'.WellFormed := by
  refine ⟨?_, ?_, ?_, ?_, ?_⟩
  · simpa only [h.jobRuns, h.pipelineRuns] using wf.pipeline
  · simpa only [h.jobRuns, hc.runners] using wf.runner
  · simpa only [h.jobRuns, h.jobRunPrevious] using wf.previous
  · simpa only [h.jobRunPrevious] using wf.onePrevious
  · simpa only [h.jobRuns] using wf.indexUnique

structure SameJobs (t t' : Table JobRun.id) : Prop where
  fwd : ∀ J ∈ t.rows, ∃ J' ∈ t'.rows, J.Same J'
  bwd : ∀ J' ∈ t'.rows, ∃ J ∈ t.rows, J.Same J'

lemma sameJobs_modify (t : Table JobRun.id) (id : Id) (u : JobUpdate) (now : Timestamp) (key : Id) :
    SameJobs t (t.modify id (u.row now key) fun job => (u.row_same now key job).id) := by
  constructor
  · intro J hJ
    by_cases hid : J.id = id
    · exact ⟨u.row now key J, Table.mem_modify.mpr ⟨J, hJ, .inl ⟨hid, rfl⟩⟩, u.row_same now key J⟩
    · exact ⟨J, Table.mem_modify.mpr ⟨J, hJ, .inr ⟨hid, rfl⟩⟩, .rfl⟩
  · intro J' hJ'
    obtain ⟨J, hJ, ⟨-, rfl⟩ | ⟨-, rfl⟩⟩ := Table.mem_modify.mp hJ'
    · exact ⟨J, hJ, u.row_same now key J⟩
    · exact ⟨J', hJ, .rfl⟩

lemma SameJobs.wellFormed (h : SameJobs db.jobRuns db'.jobRuns)
    (hp : db'.pipelineRuns = db.pipelineRuns) (he : db'.jobRunPrevious = db.jobRunPrevious)
    (hc : db.SameConfig db') (wf : db.WellFormed) : db'.WellFormed := by
  refine ⟨?_, ?_, ?_, he ▸ wf.onePrevious, ?_⟩
  · intro J' hJ'
    obtain ⟨J, hJ, hs⟩ := h.bwd J' hJ'
    rw [hp, hs.pipelineRunId]
    exact wf.pipeline J hJ
  · intro J' hJ'
    obtain ⟨J, hJ, hs⟩ := h.bwd J' hJ'
    rw [hc.runners, hs.runnerId]
    exact wf.runner J hJ
  · intro edge hedge
    obtain ⟨J, hJ, K, hK, rfl, hpip, hidx⟩ := wf.previous edge (he ▸ hedge)
    obtain ⟨J', hJ', hs⟩ := h.fwd J hJ
    obtain ⟨K', hK', hs'⟩ := h.fwd K hK
    refine ⟨J', hJ', K', hK', by rw [hs.id, hs'.id], ?_, ?_⟩
    · rw [hs.pipelineRunId, hs'.pipelineRunId, hpip]
    · rw [hs.jobIndex, hs'.jobIndex, hidx]
  · intro J' hJ' K' hK' hpip hidx
    obtain ⟨J, hJ, hs⟩ := h.bwd J' hJ'
    obtain ⟨K, hK, hs'⟩ := h.bwd K' hK'
    rw [hs.pipelineRunId, hs'.pipelineRunId] at hpip
    rw [hs.jobIndex, hs'.jobIndex] at hidx
    have hJK := wf.indexUnique J hJ K hK hpip hidx
    exact db'.jobRuns.eq_of_mem hJ' hK' (by rw [hs.id, hs'.id, hJK])

theorem Call.Effect.wellFormed (h : Call.Effect db db' c x) (hc : db.SameConfig db')
    (hpermit : ∀ i, c = .insert i → Permits allowed own db c) (wf : db.WellFormed) :
    db'.WellFormed := by
  cases h with
  | untouched tables _ => exact tables.wellFormed hc wf
  | jobRun id u now key jobRuns pipelineRuns edges =>
    exact (jobRuns ▸ sameJobs_modify db.jobRuns id u now key).wellFormed pipelineRuns edges hc wf
  | pipelineRun id u now jobRuns pipelineRuns edges =>
    refine ⟨?_, ?_, ?_, ?_, ?_⟩
    · intro J hJ
      obtain ⟨p, hp, hid⟩ := wf.pipeline J (jobRuns ▸ hJ)
      rw [pipelineRuns]
      by_cases hpid : p.id = id
      · exact ⟨u.row db now id p, Table.mem_modify.mpr ⟨p, hp, .inl ⟨hpid, rfl⟩⟩,
          (u.row_id db now id p).trans hid⟩
      · exact ⟨p, Table.mem_modify.mpr ⟨p, hp, .inr ⟨hpid, rfl⟩⟩, hid⟩
    · simpa only [jobRuns, hc.runners] using wf.runner
    · simpa only [jobRuns, edges] using wf.previous
    · simpa only [edges] using wf.onePrevious
    · simpa only [jobRuns] using wf.indexUnique
  | createPipelineRun _ _ _ _ _ _ _ id now jobRuns pipelineRuns edges _ =>
    refine ⟨?_, ?_, ?_, ?_, ?_⟩
    · intro J hJ
      obtain ⟨p, hp, hid⟩ := wf.pipeline J (jobRuns ▸ hJ)
      exact ⟨p, Table.rows_insert? pipelineRuns ▸ List.mem_append_left _ hp, hid⟩
    · simpa only [jobRuns, hc.runners] using wf.runner
    · simpa only [jobRuns, edges] using wf.previous
    · simpa only [edges] using wf.onePrevious
    · simpa only [jobRuns] using wf.indexUnique
  | createJobRun pipelineId jobIndex runnerId name policy runId key pipeline runner jobRuns pipelineRuns
      edges _ =>
    obtain ⟨⟨p, hp, hpid, -⟩, hsmall⟩ := (hpermit _ rfl).resolve_left id
    have hrows := Table.rows_insert? jobRuns
    have hmem : ∀ J ∈ db'.jobRuns.rows, J ∈ db.jobRuns.rows ∨
        J = Database.newJobRun runId key pipelineId jobIndex runnerId name policy := by
      intro J hJ
      simpa [hrows] using hJ
    have hold : ∀ J ∈ db.jobRuns.rows, J ∈ db'.jobRuns.rows := by
      intro J hJ
      simp [hrows, hJ]
    refine ⟨?_, ?_, ?_, edges ▸ wf.onePrevious, ?_⟩
    · intro J hJ
      rw [pipelineRuns]
      rcases hmem J hJ with hJ | rfl
      · exact wf.pipeline J hJ
      · exact ⟨p, hp, hpid⟩
    · intro J hJ
      rw [hc.runners]
      rcases hmem J hJ with hJ | rfl
      · exact wf.runner J hJ
      · exact runner
    · intro edge hedge
      obtain ⟨J, hJ, K, hK, he, hrest⟩ := wf.previous edge (edges ▸ hedge)
      exact ⟨J, hold J hJ, K, hold K hK, he, hrest⟩
    · intro J hJ K hK hpip hidx
      rcases hmem J hJ with hJ | rfl <;> rcases hmem K hK with hK | rfl
      · exact wf.indexUnique J hJ K hK hpip hidx
      · exact absurd hidx (hsmall J hJ hpip).ne
      · exact absurd hidx (hsmall K hK hpip.symm).ne'
      · rfl
  | addPreviousJob jobRunId previousJobRunId _ _ jobRuns pipelineRuns edges _ =>
    obtain ⟨J, hJ, K, hK, rfl, rfl, -, hpip, hidx, hnone⟩ := (hpermit _ rfl).resolve_left id
    have hmem : ∀ edge ∈ db'.jobRunPrevious.rows,
        edge ∈ db.jobRunPrevious.rows ∨ edge = ⟨J.id, K.id⟩ := by
      intro edge hedge
      simpa [Table.rows_insert? edges] using hedge
    refine ⟨?_, ?_, ?_, ?_, ?_⟩
    · simpa only [jobRuns, pipelineRuns] using wf.pipeline
    · simpa only [jobRuns, hc.runners] using wf.runner
    · intro edge hedge
      rw [jobRuns]
      rcases hmem edge hedge with hedge | rfl
      · exact wf.previous edge hedge
      · exact ⟨J, hJ, K, hK, rfl, hpip, hidx⟩
    · intro edge hedge edge' hedge' hid
      rcases hmem edge hedge with hedge | rfl <;> rcases hmem edge' hedge' with hedge' | rfl
      · exact wf.onePrevious edge hedge edge' hedge' hid
      · exact absurd hid (hnone edge hedge)
      · exact absurd hid.symm (hnone edge' hedge')
      · rfl
    · simpa only [jobRuns] using wf.indexUnique

lemma EnqueuePermits.grows (hpermit : EnqueuePermits own db c) (h : Call.Effect db db' c x)
    (hc : db.SameConfig db') : db.Grows db' := by
  cases h with
  | untouched tables _ => exact tables.grows hc
  | jobRun _ _ _ _ _ _ _ => cases hpermit
  | pipelineRun _ _ _ _ _ _ => cases hpermit
  | createPipelineRun _ _ _ _ _ _ _ _ _ jobRuns pipelineRuns edges _ =>
    exact ⟨fun J hJ => jobRuns ▸ hJ,
      fun p hp => Table.rows_insert? pipelineRuns ▸ List.mem_append_left _ hp,
      fun e he => edges ▸ he, hc⟩
  | createJobRun _ _ _ _ _ _ _ _ _ jobRuns pipelineRuns edges _ =>
    exact ⟨fun J hJ => Table.rows_insert? jobRuns ▸ List.mem_append_left _ hJ,
      fun p hp => pipelineRuns ▸ hp, fun e he => edges ▸ he, hc⟩
  | addPreviousJob _ _ _ _ jobRuns pipelineRuns edges _ =>
    exact ⟨fun J hJ => jobRuns ▸ hJ, fun p hp => pipelineRuns ▸ hp,
      fun e he => Table.rows_insert? edges ▸ List.mem_append_left _ he, hc⟩

lemma SameJobs.leaves (h : SameJobs db.jobRuns db'.jobRuns)
    (hp : ∀ p ∈ db.pipelineRuns.rows, ∃ p' ∈ db'.pipelineRuns.rows,
      p'.id = p.id ∧ p'.origin = p.origin)
    (he : db'.jobRunPrevious = db.jobRunPrevious) : db.Leaves own' db' :=
  ⟨hp, h.fwd, fun _ _ _ J' hJ' _ => h.bwd J' hJ', fun _ _ _ _ hedge _ => he ▸ hedge⟩

lemma SameJobs.of_eq {t t' : Table JobRun.id} (h : t' = t) : SameJobs t t' :=
  h ▸ ⟨fun J hJ => ⟨J, hJ, .rfl⟩, fun J hJ => ⟨J, hJ, .rfl⟩⟩

lemma PipelineUpdate.row_origin (now : Timestamp) (id : Id) (u : PipelineUpdate) (p : PipelineRun) :
    (u.row db now id p).origin = p.origin := by
  cases u <;> rfl

theorem Permits.leaves (hpermit : Permits allowed own db c) (h : Call.Effect db db' c x)
    (hdisjoint : ∀ origin, own origin → ¬ own' origin) : db.Leaves own' db' := by
  cases h with
  | untouched tables _ =>
    exact (SameJobs.of_eq tables.jobRuns).leaves
      (fun p hp => ⟨p, tables.pipelineRuns ▸ hp, rfl, rfl⟩) tables.jobRunPrevious
  | jobRun id u now key jobRuns pipelineRuns edges =>
    exact (jobRuns ▸ sameJobs_modify db.jobRuns id u now key).leaves
      (fun p hp => ⟨p, pipelineRuns ▸ hp, rfl, rfl⟩) edges
  | pipelineRun id u now jobRuns pipelineRuns edges =>
    refine (SameJobs.of_eq jobRuns).leaves (fun p hp => ?_) edges
    rw [pipelineRuns]
    by_cases hpid : p.id = id
    · exact ⟨u.row db now id p, Table.mem_modify.mpr ⟨p, hp, .inl ⟨hpid, rfl⟩⟩,
        u.row_id db now id p, u.row_origin now id p⟩
    · exact ⟨p, Table.mem_modify.mpr ⟨p, hp, .inr ⟨hpid, rfl⟩⟩, rfl, rfl⟩
  | createPipelineRun _ _ _ _ _ _ _ _ _ jobRuns pipelineRuns edges _ =>
    exact (SameJobs.of_eq jobRuns).leaves
      (fun p hp => ⟨p, Table.rows_insert? pipelineRuns ▸ List.mem_append_left _ hp, rfl, rfl⟩) edges
  | createJobRun pipelineId _ _ _ _ _ _ _ _ jobRuns pipelineRuns edges _ =>
    obtain ⟨⟨p, hp, hpid, hown⟩, -⟩ := hpermit.resolve_left id
    have hrows := Table.rows_insert? jobRuns
    refine ⟨fun q hq => ⟨q, pipelineRuns ▸ hq, rfl, rfl⟩, fun J hJ => ⟨J, ?_, .rfl⟩, ?_,
      fun _ _ _ _ hedge _ => edges ▸ hedge⟩
    · simp [hrows, hJ]
    · intro q hq hq' J hJ hid
      rw [hrows, List.mem_append, List.mem_singleton] at hJ
      rcases hJ with hJ | rfl
      · exact ⟨J, hJ, .rfl⟩
      · have : p = q := db.pipelineRuns.eq_of_mem hp hq (hpid.trans hid)
        exact (hdisjoint _ hown (this ▸ hq')).elim
  | addPreviousJob _ _ _ _ jobRuns pipelineRuns edges _ =>
    obtain ⟨J, hJ, K, hK, rfl, rfl, ⟨p, hp, hpid, hown⟩, -⟩ := hpermit.resolve_left id
    refine ⟨fun q hq => ⟨q, pipelineRuns ▸ hq, rfl, rfl⟩, fun L hL => ⟨L, jobRuns ▸ hL, .rfl⟩,
      fun _ _ _ L hL _ => ⟨L, jobRuns ▸ hL, .rfl⟩, ?_⟩
    rintro L hL ⟨q, hq, hqid, hq'⟩ edge hedge hid
    rw [Table.rows_insert? edges, List.mem_append, List.mem_singleton] at hedge
    rcases hedge with hedge | rfl
    · exact hedge
    · have hJL : J = L := Database.jobRun_eq hJ hL hid
      have : p = q := db.pipelineRuns.eq_of_mem hp hq (by rw [hpid, hqid, hJL])
      exact (hdisjoint _ hown (this ▸ hq')).elim

end

structure Course (P : Role → Prop) (allowed : JobStatus → Prop) (Inv : Database → Prop)
    (ok : ServerPool → ServerEvent → Prop) : Prop where
  uncancelled : ∀ id, ¬ P (.cancel id)
  starts : ∀ p r, ok p (.start r) → P r
  examines : ∀ p e c, ok p e → p.call? e = some c → p.store.db.WellFormed → Inv p.store.db →
    Examines allowed c p.store
  kept : ∀ r, P r → ∀ db db' c x, db.WellFormed → Inv db → Permits allowed r.owns db c →
    Call.Effect db db' c x → Inv db'

def courseDiscipline (app : AppState) (P : Role → Prop) (allowed : JobStatus → Prop)
    (Inv : Database → Prop) (r : Role) : Discipline Call Call.Result String Store where
  rely s s' := (r.scheduler = true → s.db.Grows s'.db) ∧ s.db.Leaves r.owns s'.db
  inv s := s.db.WellFormed ∧ Inv s.db
  admits c s x s' := (∃ o, c.exec app o s = (x, s')) ∧ Examines allowed c s
  before c s := P r ∧
    if r.scheduler then Permits allowed r.owns s.db c else EnqueuePermits r.owns s.db c

section

variable {app : AppState} {P : Role → Prop} {allowed : JobStatus → Prop} {Inv : Database → Prop}

lemma courseDiscipline_permits {r : Role} {c : Call} {s : Store}
    (h : (courseDiscipline app P allowed Inv r).before c s) :
    P r ∧ Permits allowed r.owns s.db c := by
  obtain ⟨hP, h⟩ := h
  refine ⟨hP, ?_⟩
  split at h
  · exact h
  · exact .inr h

lemma passRules_course {r : Role} (hP : P r) (hr : r.scheduler = true) :
    PassRules app allowed r.owns (courseDiscipline app P allowed Inv r) (.owing fun _ _ => True) := by
  have before (c : Call) (s : Store) (h : Permits allowed r.owns s.db c) :
      (courseDiscipline app P allowed Inv r).before c s := by
    simp only [courseDiscipline, hr, if_true]
    exact ⟨hP, h⟩
  exact passRules_owing (fun _ h => h.1) (fun _ _ h => h.1 hr) (fun _ _ h => h.2)
    (fun _ _ _ _ h => h.1) (fun _ _ _ _ h => h.2) (fun c s _ h _ => before c s h)
    (fun id s _ _ => before _ s (.inl trivial)) (fun _ _ _ _ _ _ => trivial)
    fun _ _ _ _ _ _ _ _ _ => trivial

lemma enqueueRules_course (number : ℕ) (workflow : Workflow) (triggerType : String)
    (triggerRef commitSha : Option String) (selections : List WorkflowRunArtifactSelection)
    (hP : P (.enqueue number workflow triggerType triggerRef commitSha selections)) :
    EnqueueRules app (· = .request number) (courseDiscipline app P allowed Inv
      (.enqueue number workflow triggerType triggerRef commitSha selections)) fun _ => True where
  wf _ h := h.1
  leaves _ _ h := h.2
  exec _ _ _ _ h := h.1
  before _ _ h _ _ := ⟨hP, h⟩
  stable _ _ _ _ _ := trivial
  keeps _ _ _ _ _ _ _ _ := trivial

lemma scheduled_safe {D : Discipline Call Call.Result String Store} {owed : Id → Store → Prop}
    {r : Role} (hr : r.scheduler = true) (rules : PassRules app allowed r.owns D (.owing owed))
    (s : Store) : Safe D (fun _ _ => True) (r.program app) s := by
  cases r with
  | recovery => exact Safe.mono (fun _ _ _ => trivial) (recoverIncompletePipelines_safe rules trivial)
  | pushEvents =>
    exact Safe.mono (fun _ _ _ => trivial)
      (processPushEvents_safe rules (fun e i => ⟨e, i, rfl⟩) trivial)
  | dispatch => exact Safe.mono (fun _ _ _ => trivial) (dispatchPendingJobs_safe rules trivial)
  | poll => exact Safe.mono (fun _ _ _ => trivial) (pollRunningJobs_safe rules trivial)
  | reconcile =>
    exact Safe.mono (fun _ _ _ => trivial)
      (reconcileOnce_safe rules (fun e i => ⟨e, i, rfl⟩) trivial)
  | cancel id => cases hr
  | enqueue number workflow triggerType triggerRef commitSha selections => cases hr

lemma enqueueing_safe {D : Discipline Call Call.Result String Store} {number : ℕ}
    (rules : EnqueueRules app (· = .request number) D fun _ => True) (workflow : Workflow)
    (triggerType : String) (triggerRef commitSha : Option String)
    (selections : List WorkflowRunArtifactSelection) (s : Store) :
    Safe D (fun _ _ => True)
      (Role.program app (.enqueue number workflow triggerType triggerRef commitSha selections)) s := by
  refine Safe.bind (Safe.mono ?_
    (enqueue_safe rules workflow triggerType triggerRef commitSha selections rfl trivial))
  intro x s' _
  cases x <;> trivial

lemma role_safe {r : Role} (hP : P r) (hr : ∀ id, r ≠ .cancel id) (s : Store) :
    Safe (courseDiscipline app P allowed Inv r) (fun _ _ => True) (r.program app) s := by
  by_cases hs : r.scheduler = true
  · exact scheduled_safe hs (passRules_course hP hs) s
  · cases r with
    | cancel id => exact (hr id rfl).elim
    | enqueue number workflow triggerType triggerRef commitSha selections =>
      exact enqueueing_safe (enqueueRules_course number workflow triggerType triggerRef commitSha
        selections hP) workflow triggerType triggerRef commitSha selections s
    | _ => exact (hs rfl).elim

lemma owns_disjoint {r r' : Role} (h : r.beside r' = true ∨ r'.beside r = true) (origin : Origin)
    (ho : r.owns origin) : ¬ r'.owns origin := by
  cases r <;> cases r' <;> simp_all [Role.owns, Role.beside, Role.scheduler] <;> grind

namespace Course

variable {ok : ServerPool → ServerEvent → Prop} (course : Course P allowed Inv ok)

include course

theorem outline (app : AppState) :
    System.Outline (server app) ok (fun s => s.db.WellFormed ∧ Inv s.db)
      (courseDiscipline app P allowed Inv) (fun _ _ _ => True) where
  inv_eq _ := rfl
  trans r s s' s'' h h' := ⟨fun hr => (h.1 hr).trans (h'.1 hr), h.2.trans h'.2⟩
  post_stable _ _ _ _ _ _ := trivial
  refl _ _ := ⟨fun _ => .rfl, .rfl⟩
  start p r _ hok := by
    have hP := course.starts p r hok
    exact role_safe hP (fun id h => course.uncancelled id (h ▸ hP)) p.store
  admits p i o r c next hinv hok ht _ :=
    ⟨⟨o, rfl⟩, course.examines p _ c hok (by simp only [Pool.call?, ht]) hinv.1 hinv.2⟩
  keeps r s s' hinv hstep := by
    obtain ⟨c, x, hb, ⟨o, hex⟩, -⟩ := hstep
    obtain ⟨hP, hp⟩ := courseDiscipline_permits hb
    have he := exec_effect hex
    exact ⟨he.wellFormed (exec_config hex) (fun _ _ => hp) hinv.1,
      course.kept r hP _ _ c x hinv.1 hinv.2 hp he⟩
  compat p i o r c next r' _ _ _ _ hbeside hb ha := by
    obtain ⟨⟨o, hex⟩, -⟩ := ha
    refine ⟨fun hr' => ?_, (courseDiscipline_permits hb).2.leaves (exec_effect hex)
      (owns_disjoint hbeside)⟩
    have hr := not_scheduler_beside hbeside hr'
    simp only [courseDiscipline, hr] at hb
    exact EnqueuePermits.grows hb.2 (exec_effect hex) (exec_config hex)
  environ p v _ hinv := by
    cases v
    exact ⟨hinv, fun _ => ⟨fun _ => .rfl, .rfl⟩⟩
  crash _ _ hinv := hinv

omit course in
lemma sound_of_idle {p : ServerPool} (hidle : p.tasks = []) (hwf : p.store.db.WellFormed)
    (hinv : Inv p.store.db) :
    System.Sound (server app) (fun s => s.db.WellFormed ∧ Inv s.db)
      (courseDiscipline app P allowed Inv) (fun _ _ _ => True) p := by
  refine ⟨⟨hwf, hinv⟩, ?_, ?_⟩ <;> rw [hidle]
  · intro t ht
    cases ht
  · exact .nil

variable {p p' : ServerPool} {es : List ServerEvent}

theorem invariant (hidle : p.tasks = []) (hwf : p.store.db.WellFormed) (hinv : Inv p.store.db)
    (hok : (server app).Along ok es p) (hrun : (server app).run es p = some p') :
    p'.store.db.WellFormed ∧ Inv p'.store.db :=
  (System.Along.invariant (fun _ _ _ hs hok ha => hs.apply (course.outline app) hok ha)
    (sound_of_idle hidle hwf hinv) hok hrun).1

theorem permits (hidle : p.tasks = []) (hwf : p.store.db.WellFormed) (hinv : Inv p.store.db)
    (hok : (server app).Along ok es p) :
    (server app).Along (fun q e => ∀ c, q.call? e = some c →
      q.store.db.WellFormed ∧ Inv q.store.db ∧ ∃ r : Role, Permits allowed r.owns q.store.db c)
      es p := by
  refine System.Along.of_invariant
    (fun _ _ _ hs hok ha => hs.apply (course.outline app) hok ha) ?_
    (sound_of_idle hidle hwf hinv) hok
  rintro q e q' hs - - c hc
  obtain ⟨i, o, r, next, -, ht⟩ := Pool.call?_eq_some hc
  exact ⟨hs.1.1, hs.1.2, r, (courseDiscipline_permits
    (hs.before (course.outline app) (List.mem_of_getElem? ht))).2⟩

end Course

end

end Janus.Server
