import Janus.Server.Effects

/-! How the rows of a pipeline hang together, and how they may grow beside a task. -/

namespace Janus.Server

open Janus.Data

namespace Database

def Previous (db : Database) (J K : JobRun) : Prop :=
  K ∈ db.jobRuns.rows ∧ (⟨J.id, K.id⟩ : PreviousJob) ∈ db.jobRunPrevious.rows

structure WellFormed (db : Database) : Prop where
  pipeline : ∀ J ∈ db.jobRuns.rows, ∃ p ∈ db.pipelineRuns.rows, p.id = J.pipelineRunId
  runner : ∀ J ∈ db.jobRuns.rows, (db.runners.find? J.runnerId).isSome
  previous : ∀ edge ∈ db.jobRunPrevious.rows, ∃ J ∈ db.jobRuns.rows, ∃ K ∈ db.jobRuns.rows,
    edge = ⟨J.id, K.id⟩ ∧ K.pipelineRunId = J.pipelineRunId ∧ J.jobIndex = K.jobIndex + 1
  onePrevious : ∀ edge ∈ db.jobRunPrevious.rows, ∀ edge' ∈ db.jobRunPrevious.rows,
    edge.jobRunId = edge'.jobRunId → edge = edge'
  indexUnique : ∀ J ∈ db.jobRuns.rows, ∀ K ∈ db.jobRuns.rows,
    J.pipelineRunId = K.pipelineRunId → J.jobIndex = K.jobIndex → J = K

instance (db : Database) (J : JobRun) : Decidable (∃ K, db.Previous J K) :=
  decidable_of_iff (∃ K ∈ db.jobRuns.rows, (⟨J.id, K.id⟩ : PreviousJob) ∈ db.jobRunPrevious.rows)
    ⟨fun ⟨K, hK, h⟩ => ⟨K, hK, h⟩, fun ⟨K, hK, h⟩ => ⟨K, hK, h⟩⟩

instance (db : Database) : Decidable db.WellFormed :=
  decidable_of_iff ((∀ J ∈ db.jobRuns.rows, ∃ p ∈ db.pipelineRuns.rows, p.id = J.pipelineRunId) ∧
      (∀ J ∈ db.jobRuns.rows, (db.runners.find? J.runnerId).isSome) ∧
      (∀ edge ∈ db.jobRunPrevious.rows, ∃ J ∈ db.jobRuns.rows, ∃ K ∈ db.jobRuns.rows,
        edge = ⟨J.id, K.id⟩ ∧ K.pipelineRunId = J.pipelineRunId ∧ J.jobIndex = K.jobIndex + 1) ∧
      (∀ edge ∈ db.jobRunPrevious.rows, ∀ edge' ∈ db.jobRunPrevious.rows,
        edge.jobRunId = edge'.jobRunId → edge = edge') ∧
      ∀ J ∈ db.jobRuns.rows, ∀ K ∈ db.jobRuns.rows,
        J.pipelineRunId = K.pipelineRunId → J.jobIndex = K.jobIndex → J = K)
    ⟨fun ⟨h₁, h₂, h₃, h₄, h₅⟩ => ⟨h₁, h₂, h₃, h₄, h₅⟩, fun ⟨h₁, h₂, h₃, h₄, h₅⟩ => ⟨h₁, h₂, h₃, h₄, h₅⟩⟩

variable {db db' db'' : Database} {J K K' : JobRun}

lemma jobRun_eq (hJ : J ∈ db.jobRuns.rows) (hK : K ∈ db.jobRuns.rows) (h : J.id = K.id) : J = K :=
  db.jobRuns.eq_of_mem hJ hK h

namespace WellFormed

variable (wf : db.WellFormed)

include wf

lemma previous_index (hJ : J ∈ db.jobRuns.rows) (h : db.Previous J K) :
    K.pipelineRunId = J.pipelineRunId ∧ J.jobIndex = K.jobIndex + 1 := by
  obtain ⟨J', hJ', K', hK', he, hp, hi⟩ := wf.previous _ h.2
  obtain ⟨hj, hk⟩ := PreviousJob.mk.inj he
  obtain rfl := jobRun_eq hJ hJ' hj
  obtain rfl := jobRun_eq h.1 hK' hk
  exact ⟨hp, hi⟩

lemma previous_unique (h : db.Previous J K) (h' : db.Previous J K') : K = K' := by
  have he := wf.onePrevious _ h.2 _ h'.2 rfl
  exact jobRun_eq h.1 h'.1 (PreviousJob.mk.inj he).2

lemma earlier_cases (hJ : J ∈ db.jobRuns.rows) (h : db.Previous J K) (hK' : K' ∈ db.jobRuns.rows)
    (hp : K'.pipelineRunId = J.pipelineRunId) (hi : K'.jobIndex < J.jobIndex) :
    K' = K ∨ K'.jobIndex < K.jobIndex := by
  obtain ⟨hpK, hiK⟩ := wf.previous_index hJ h
  rcases Nat.lt_or_ge K'.jobIndex K.jobIndex with hlt | hge
  · exact .inr hlt
  · exact .inl (wf.indexUnique _ hK' _ h.1 (hp.trans hpK.symm) (by omega))

lemma edges_eq_nil_or_singleton (id : Id) :
    db.jobRunPrevious.rows.filter (·.jobRunId = id) = [] ∨
      ∃ edge, db.jobRunPrevious.rows.filter (·.jobRunId = id) = [edge] := by
  have hnodup : (db.jobRunPrevious.rows.filter (·.jobRunId = id)).Nodup :=
    (List.map_id _ ▸ db.jobRunPrevious.unique).filter _
  rcases hl : db.jobRunPrevious.rows.filter (·.jobRunId = id) with _ | ⟨e, _ | ⟨e', es⟩⟩
  · exact .inl hl
  · exact .inr ⟨e, hl⟩
  · have hmem : ∀ d ∈ e :: e' :: es, d ∈ db.jobRunPrevious.rows ∧ d.jobRunId = id := by
      intro d hd
      rw [← hl, List.mem_filter] at hd
      exact ⟨hd.1, by simpa using hd.2⟩
    have hee : e = e' := wf.onePrevious e (hmem e (by simp)).1 e' (hmem e' (by simp)).1
      ((hmem e (by simp)).2.trans (hmem e' (by simp)).2.symm)
    rw [hl, hee] at hnodup
    simp at hnodup

lemma previousJobs_cases (J : JobRun) :
    (db.previousJobsForJobRun J.id = [] ∧ ∀ K, ¬ db.Previous J K) ∨
      ∃ K, db.Previous J K ∧ db.previousJobsForJobRun J.id = [K] := by
  rcases wf.edges_eq_nil_or_singleton J.id with hnil | ⟨edge, hone⟩
  · refine .inl ⟨by simp [previousJobsForJobRun, hnil, orderBy], ?_⟩
    intro K hK
    have : (⟨J.id, K.id⟩ : PreviousJob) ∈ db.jobRunPrevious.rows.filter (·.jobRunId = J.id) :=
      List.mem_filter.mpr ⟨hK.2, by simp⟩
    rw [hnil] at this
    cases this
  · have hmem : edge ∈ db.jobRunPrevious.rows.filter (·.jobRunId = J.id) := by simp [hone]
    obtain ⟨hedge, hid⟩ := List.mem_filter.mp hmem
    obtain ⟨J', hJ', K, hK, rfl, -, -⟩ := wf.previous _ hedge
    have hid' : J'.id = J.id := by simpa using hid
    refine .inr ⟨K, ⟨hK, hid' ▸ hedge⟩, ?_⟩
    simp [previousJobsForJobRun, hone, db.jobRuns.find?_of_mem hK, orderBy]

end WellFormed

structure Grows (db db' : Database) : Prop where
  jobRuns : ∀ J ∈ db.jobRuns.rows, J ∈ db'.jobRuns.rows
  pipelineRuns : ∀ p ∈ db.pipelineRuns.rows, p ∈ db'.pipelineRuns.rows
  jobRunPrevious : ∀ edge ∈ db.jobRunPrevious.rows, edge ∈ db'.jobRunPrevious.rows
  config : db.SameConfig db'

lemma Grows.rfl : db.Grows db := ⟨fun _ h => h, fun _ h => h, fun _ h => h, .rfl⟩

lemma Grows.trans (h : db.Grows db') (h' : db'.Grows db'') : db.Grows db'' :=
  ⟨fun J hJ => h'.jobRuns J (h.jobRuns J hJ), fun p hp => h'.pipelineRuns p (h.pipelineRuns p hp),
    fun e he => h'.jobRunPrevious e (h.jobRunPrevious e he), h.config.trans h'.config⟩

lemma Grows.previous (h : db.Grows db') (hK : db.Previous J K) : db'.Previous J K :=
  ⟨h.jobRuns K hK.1, h.jobRunPrevious _ hK.2⟩

lemma Untouched.grows (h : db.Untouched db') (hc : db.SameConfig db') : db.Grows db' :=
  ⟨fun _ hJ => h.jobRuns ▸ hJ, fun _ hp => h.pipelineRuns ▸ hp, fun _ he => h.jobRunPrevious ▸ he,
    hc⟩

def OwnJob (own : Origin → Prop) (db : Database) (J : JobRun) : Prop :=
  ∃ p ∈ db.pipelineRuns.rows, p.id = J.pipelineRunId ∧ own p.origin

structure Leaves (own : Origin → Prop) (db db' : Database) : Prop where
  pipelineRuns : ∀ p ∈ db.pipelineRuns.rows, ∃ p' ∈ db'.pipelineRuns.rows,
    p'.id = p.id ∧ p'.origin = p.origin
  jobRuns : ∀ J ∈ db.jobRuns.rows, ∃ J' ∈ db'.jobRuns.rows, J.Same J'
  ownJobs : ∀ p ∈ db.pipelineRuns.rows, own p.origin → ∀ J' ∈ db'.jobRuns.rows,
    J'.pipelineRunId = p.id → ∃ J ∈ db.jobRuns.rows, J.Same J'
  ownEdges : ∀ J ∈ db.jobRuns.rows, db.OwnJob own J → ∀ edge ∈ db'.jobRunPrevious.rows,
    edge.jobRunId = J.id → edge ∈ db.jobRunPrevious.rows

variable {own : Origin → Prop}

lemma OwnJob.leaves (hJ : db.OwnJob own J) (h : db.Leaves own db') {J' : JobRun} (hs : J.Same J') :
    db'.OwnJob own J' := by
  obtain ⟨p, hp, hid, ho⟩ := hJ
  obtain ⟨p', hp', hid', ho'⟩ := h.pipelineRuns p hp
  exact ⟨p', hp', by rw [hid', hid, hs.pipelineRunId], ho' ▸ ho⟩

lemma Leaves.rfl : db.Leaves own db :=
  ⟨fun p hp => ⟨p, hp, .refl _, .refl _⟩, fun J hJ => ⟨J, hJ, .rfl⟩, fun _ _ _ J hJ _ => ⟨J, hJ, .rfl⟩,
    fun _ _ _ _ he _ => he⟩

lemma Leaves.trans (h : db.Leaves own db') (h' : db'.Leaves own db'') : db.Leaves own db'' := by
  refine ⟨?_, ?_, ?_, ?_⟩
  · intro p hp
    obtain ⟨p', hp', hid, ho⟩ := h.pipelineRuns p hp
    obtain ⟨p'', hp'', hid', ho'⟩ := h'.pipelineRuns p' hp'
    exact ⟨p'', hp'', hid'.trans hid, ho'.trans ho⟩
  · intro J hJ
    obtain ⟨J', hJ', hs⟩ := h.jobRuns J hJ
    obtain ⟨J'', hJ'', hs'⟩ := h'.jobRuns J' hJ'
    exact ⟨J'', hJ'', hs.trans hs'⟩
  · intro p hp ho J'' hJ'' hid
    obtain ⟨p', hp', hid', ho'⟩ := h.pipelineRuns p hp
    obtain ⟨J', hJ', hs'⟩ := h'.ownJobs p' hp' (ho' ▸ ho) J'' hJ'' (hid.trans hid'.symm)
    obtain ⟨J, hJ, hs⟩ := h.ownJobs p hp ho J' hJ' (hs'.pipelineRunId ▸ hid)
    exact ⟨J, hJ, hs.trans hs'⟩
  · intro J hJ ho edge he hid
    obtain ⟨J', hJ', hs⟩ := h.jobRuns J hJ
    exact h.ownEdges J hJ ho edge
      (h'.ownEdges J' hJ' (ho.leaves h hs) edge he (hid.trans hs.id.symm)) hid

end Database

end Janus.Server
