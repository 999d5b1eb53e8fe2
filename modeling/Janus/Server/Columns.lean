import Janus.Server.Effects

/-! The columns that no statement changes once their row has been inserted. -/

namespace Janus.Server

open Janus.Data

structure JobColumns where
  id : Id
  pipelineRunId : Id
  jobIndex : ℕ
  runnerId : String
  runnerJobName : String

def JobRun.columns (job : JobRun) : JobColumns :=
  ⟨job.id, job.pipelineRunId, job.jobIndex, job.runnerId, job.runnerJobName⟩

structure PipelineColumns where
  id : Id
  workflowVersionId : Id
  triggerRef : Option String
  commitSha : Option String

def PipelineRun.columns (pipeline : PipelineRun) : PipelineColumns :=
  ⟨pipeline.id, pipeline.workflowVersionId, pipeline.triggerRef, pipeline.commitSha⟩

lemma JobRun.Same.columns {job job' : JobRun} (h : job.Same job') : job'.columns = job.columns := by
  simp only [JobRun.columns, h.id, h.pipelineRunId, h.jobIndex, h.runnerId, h.runnerJobName]

lemma PipelineUpdate.row_columns (u : PipelineUpdate) (db : Database) (now : Timestamp) (id : Id)
    (pipeline : PipelineRun) : (u.row db now id pipeline).columns = pipeline.columns := by
  cases u <;> rfl

namespace Database

structure Precedes (db db' : Database) : Prop where
  jobRuns : db.jobRuns.rows.map JobRun.columns <+: db'.jobRuns.rows.map JobRun.columns
  pipelineRuns :
    db.pipelineRuns.rows.map PipelineRun.columns <+: db'.pipelineRuns.rows.map PipelineRun.columns
  workflowVersions : db'.workflowVersions = db.workflowVersions

variable {db db' db'' : Database}

lemma Precedes.refl (db : Database) : db.Precedes db :=
  ⟨List.prefix_refl _, List.prefix_refl _, rfl⟩

lemma Precedes.trans (h : db.Precedes db') (h' : db'.Precedes db'') : db.Precedes db'' :=
  ⟨h.jobRuns.trans h'.jobRuns, h.pipelineRuns.trans h'.pipelineRuns,
    h'.workflowVersions.trans h.workflowVersions⟩

lemma Precedes.jobRun (h : db.Precedes db') {job : JobRun} (hj : job ∈ db.jobRuns.rows) :
    ∃ job' ∈ db'.jobRuns.rows, job'.columns = job.columns :=
  List.mem_map.mp (h.jobRuns.subset (List.mem_map_of_mem hj))

lemma Precedes.pipelineRun (h : db.Precedes db') {pipeline : PipelineRun}
    (hp : pipeline ∈ db.pipelineRuns.rows) :
    ∃ pipeline' ∈ db'.pipelineRuns.rows, pipeline'.columns = pipeline.columns :=
  List.mem_map.mp (h.pipelineRuns.subset (List.mem_map_of_mem hp))

end Database

lemma map_modify_columns {α β κ : Type} [DecidableEq κ] {key : α → κ} {t : Table key} {k : κ}
    {f : α → α} {hf : ∀ r, key (f r) = key r} {columns : α → β}
    (h : ∀ r, columns (f r) = columns r) :
    (t.modify k f hf).rows.map columns = t.rows.map columns := by
  simp only [Table.modify, List.map_map]
  refine List.map_congr_left fun r _ => ?_
  simp only [Function.comp_apply]
  split
  · exact h r
  · rfl

theorem exec_precedes {app : AppState} {c : Call} {o : Outcome} {s s' : Store}
    {x : Except String c.Result} (h : c.exec app o s = (x, s')) : s.db.Precedes s'.db := by
  have hversions := (exec_config h).workflowVersions
  cases exec_effect h with
  | untouched tables _ =>
    refine ⟨?_, ?_, hversions⟩
    · rw [tables.jobRuns]
    · rw [tables.pipelineRuns]
  | jobRun id u now key jobRuns pipelineRuns _ =>
    refine ⟨?_, by rw [pipelineRuns], hversions⟩
    rw [jobRuns, map_modify_columns fun job => (u.row_same now key job).columns]
  | pipelineRun id u now jobRuns pipelineRuns _ =>
    refine ⟨by rw [jobRuns], ?_, hversions⟩
    rw [pipelineRuns, map_modify_columns fun pipeline => u.row_columns s.db now id pipeline]
  | createPipelineRun _ _ _ _ _ _ _ _ _ jobRuns pipelineRuns _ _ =>
    refine ⟨by rw [jobRuns], ?_, hversions⟩
    rw [Table.rows_insert? pipelineRuns, List.map_append]
    exact List.prefix_append _ _
  | createJobRun _ _ _ _ _ _ _ _ _ jobRuns pipelineRuns _ _ =>
    refine ⟨?_, by rw [pipelineRuns], hversions⟩
    rw [Table.rows_insert? jobRuns, List.map_append]
    exact List.prefix_append _ _
  | addPreviousJob _ _ _ _ jobRuns pipelineRuns _ _ =>
    exact ⟨by rw [jobRuns], by rw [pipelineRuns], hversions⟩

lemma pipelineSnapshot_ok {db : Database} {pipelineId : Id} {snapshot : PipelineSnapshot}
    (h : db.pipelineSnapshot pipelineId = .ok (some snapshot)) {run : JobRun} :
    (∃ item ∈ snapshot.jobs, item.run = run) ↔ run ∈ db.jobRunsOf pipelineId := by
  simp only [Database.pipelineSnapshot] at h
  split at h
  · cases h
  · split at h
    · obtain rfl := Option.some.inj (Except.ok.inj h)
      simp only [List.mem_map, Database.listJobRunsForPipeline, Database.orderBy]
      constructor
      · rintro ⟨item, ⟨job, hj, rfl⟩, rfl⟩
        exact (List.perm_insertionSort _ _).mem_iff.mp hj
      · intro hr
        exact ⟨_, ⟨run, (List.perm_insertionSort _ _).mem_iff.mpr hr, rfl⟩, rfl⟩
    · cases h

namespace Database

def upstreamRun (db : Database) (pipelineId : Id) (jobIndex : ℕ) : Option JobRun :=
  db.jobRuns.rows.find? fun job => job.pipelineRunId = pipelineId ∧ job.jobIndex = jobIndex

variable {db db' : Database} {pipelineId : Id} {jobIndex : ℕ}

lemma Precedes.upstreamRun (h : db.Precedes db') {job : JobRun}
    (hj : db.upstreamRun pipelineId jobIndex = some job) :
    ∃ job', db'.upstreamRun pipelineId jobIndex = some job' ∧ job'.columns = job.columns := by
  let chosen (columns : JobColumns) : Bool :=
    columns.pipelineRunId = pipelineId ∧ columns.jobIndex = jobIndex
  have hfind (db : Database) : (db.jobRuns.rows.map JobRun.columns).find? chosen =
      (db.upstreamRun pipelineId jobIndex).map JobRun.columns := List.find?_map
  have hsome := h.jobRuns.find?_eq_some ((hfind db).trans (congrArg _ hj))
  rw [hfind db'] at hsome
  obtain ⟨job', hj', hcolumns⟩ := Option.map_eq_some_iff.mp hsome
  exact ⟨job', hj', hcolumns⟩

lemma find?_orderBy {α : Type} (key : α → ℕ) (k : ℕ) (rows : List α) :
    (orderBy key rows).find? (fun row => key row = k) = rows.find? fun row => key row = k := by
  have hinsert (row : α) (rows : List α) :
      (rows.orderedInsert (fun a b => key a ≤ key b) row).find? (fun row => key row = k) =
        (row :: rows).find? fun row => key row = k := by
    induction rows with
    | nil => rfl
    | cons first rows ih =>
      simp only [List.orderedInsert]
      split
      · rfl
      · next hlt =>
        simp only [List.find?_cons, ih]
        by_cases hfirst : key first = k <;> by_cases hrow : key row = k
        · exact absurd (hrow.trans hfirst.symm).le hlt
        · simp [hfirst, hrow]
        · simp [hfirst, hrow]
        · simp [hfirst, hrow]
  induction rows with
  | nil => rfl
  | cons row rows ih =>
    simp only [orderBy, List.insertionSort_cons] at ih ⊢
    rw [hinsert, List.find?_cons, List.find?_cons, ih]

variable (jobIndex) in
lemma pipelineSnapshot_find {snapshot : PipelineSnapshot}
    (h : db.pipelineSnapshot pipelineId = .ok (some snapshot)) :
    (snapshot.jobs.find? fun item => item.run.jobIndex = jobIndex).map JobRunDetail.run =
      db.upstreamRun pipelineId jobIndex := by
  simp only [pipelineSnapshot] at h
  split at h
  · cases h
  · split at h
    · obtain rfl := Option.some.inj (Except.ok.inj h)
      have hsorted := find?_orderBy JobRun.jobIndex jobIndex (db.jobRunsOf pipelineId)
      simp only [List.find?_map, Option.map_map, Function.comp_def, listJobRunsForPipeline]
      rw [hsorted, jobRunsOf, List.find?_filter, Option.map_id']
      rw [upstreamRun]
      congr 1
      funext job
      simp
    · cases h

end Database

end Janus.Server
