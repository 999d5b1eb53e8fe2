import Janus.Server.SchemaJobs

/-! The schemas that are stored are the schemas that are loaded. -/

namespace Janus.Server

open Janus.Concurrency Janus.Data

structure SchemaTables.Fresh (env : SqlEnv) (n : ℕ) (t : SchemaTables) : Prop where
  runnerJobs : ∀ row ∈ t.runnerJobs, ∀ k, n ≤ k → row.id ≠ env.newUuid k
  runnerJobDetails : t.runnerJobDetails.Fresh env n
  workflows : ∀ row ∈ t.workflows, ∀ k, n ≤ k → row.id ≠ env.newUuid k
  workflowVersions : ∀ row ∈ t.workflowVersions, ∀ k, n ≤ k →
    row.id ≠ env.newUuid k ∧ row.workflowId ≠ env.newUuid k
  jobSchemas : ∀ row ∈ t.jobSchemas, ∀ k, n ≤ k →
    row.id ≠ env.newUuid k ∧ row.workflowVersionId ≠ env.newUuid k
  jobSchemaDetails : t.jobSchemaDetails.Fresh env n

lemma DetailTables.Fresh.keep {env : SqlEnv} {n : ℕ} {d : DetailTables} {jobIds : List String}
    (h : d.Fresh env n) : (d.keep jobIds).Fresh env n where
  inputs row hrow := h.inputs row (List.mem_filter.mp hrow).1
  outputs row hrow := h.outputs row (List.mem_filter.mp hrow).1

lemma collect_placed {ρ ι κ : Type} [LE κ] [DecidableLE κ] {key : ρ → κ} (key' : ι → κ)
    {load : ρ → Except String RunnerJobDefinition} (place : String → ι → ρ)
    (schema : ι → RunnerJobDefinition) {env : SqlEnv} {n : ℕ} {items : List ι}
    (hkey : ∀ id item, key (place id item) = key' item)
    (hload : ∀ job ∈ placed schema n items,
      load (place (env.newUuid job.1) job.2) = .ok (schema job.2)) :
    collectResults load (Database.orderBy key (jobRows env place (placed schema n items))) =
      .ok ((Database.orderBy key' items).map schema) := by
  have hordered : Database.orderBy key (jobRows env place (placed schema n items)) =
      (Database.orderBy (fun job => key' job.2) (placed schema n items)).map fun job =>
        place (env.newUuid job.1) job.2 := by
    rw [jobRows, orderBy_map]
    simp only [hkey]
  have hitems : Database.orderBy key' items =
      (Database.orderBy (fun job => key' job.2) (placed schema n items)).map Prod.snd := by
    rw [← orderBy_map key' Prod.snd, map_placed]
  rw [hordered, hitems, List.map_map]
  refine collectResults_map fun job hjob => hload job ?_
  exact (List.perm_insertionSort _ _).mem_iff.mp hjob

def placeRunnerJob (runnerId id : String) (job : RunnerJobDefinition) : RunnerJobRow where
  id := id
  runnerId := runnerId
  jobName := job.name
  concurrency := job.concurrency.asStr
  timeoutSeconds := asColumn job.timeoutSeconds

section

variable {env : SqlEnv} {conn conn' : Connection} {t : SchemaTables} {n : ℕ} {runnerId : String}
variable {jobs : List RunnerJobDefinition}

def SchemaTables.replaced (env : SqlEnv) (n : ℕ) (t : SchemaTables) (runnerId : String)
    (jobs : List RunnerJobDefinition) : SchemaTables :=
  runnerJobInsertion.stored env (placeRunnerJob runnerId) id (t.deleteRunnerJobs runnerId)
    (placed id n jobs)

lemma replaceRunnerJobs_ok
    (h : (replaceRunnerJobs runnerId jobs).eval (SqlCall.exec env) conn = (.ok (), conn')) :
    conn'.tables = conn.tables.replaced env conn.issued runnerId jobs ∧
      conn'.issued = conn.issued + (jobs.map RunnerJobDefinition.rowCount).sum := by
  obtain ⟨opened, ran, htables, hissued, hbody, htables', hissued'⟩ := transaction_ok h
  obtain ⟨_, deleted, hdeleted, hbody⟩ := Program.eval_bind_ok hbody
  obtain ⟨hrun, hcount⟩ := execute_ok hdeleted
  have hdeleted' : deleted.tables = opened.tables.deleteRunnerJobs runnerId :=
    (Except.ok.inj hrun).symm
  obtain ⟨hstored, hcount'⟩ :=
    runnerJobInsertion.insertJobs_ok (placeRunnerJob runnerId) id hbody
  rw [htables', hissued', hstored, hcount', hdeleted', hcount, htables, hissued]
  exact ⟨rfl, rfl⟩

lemma deleteRunnerJobs_rows :
    ((t.deleteRunnerJobs runnerId).runnerJobs.filter fun row => row.runnerId = runnerId) = [] := by
  refine List.filter_eq_nil_iff.mpr fun row hrow => ?_
  have hne := (List.mem_filter.mp hrow).2
  simpa using hne

lemma fresh_deleteRunnerJobs (runnerId : String) (hfresh : t.Fresh env n) :
    ((t.deleteRunnerJobs runnerId).details .runnerJob).Fresh env n :=
  hfresh.runnerJobDetails.keep

lemma replaced_rows : (t.replaced env n runnerId jobs).runnerJobs =
    (t.deleteRunnerJobs runnerId).runnerJobs ++
      jobRows env (placeRunnerJob runnerId) (placed id n jobs) :=
  JobInsertion.rows_stored runnerJobInsertion env (placeRunnerJob runnerId) id

lemma loadRunnerJobDefinition_place {jobId : String} {job : RunnerJobDefinition} :
    t.loadRunnerJobDefinition (placeRunnerJob runnerId jobId job) =
      loadDefinition (t.details .runnerJob) jobId job.name job.concurrency.asStr
        (asColumn job.timeoutSeconds) := by
  simp only [SchemaTables.loadRunnerJobDefinition, placeRunnerJob, SchemaTables.details]

theorem listRunnerJobs_replaced (hinj : Function.Injective env.newUuid) (hfresh : t.Fresh env n)
    (hfits : ∀ job ∈ jobs, job.FitsU64) :
    (t.replaced env n runnerId jobs).listRunnerJobs runnerId =
      .ok (Database.orderBy RunnerJobDefinition.name jobs) := by
  have hrows : ((t.replaced env n runnerId jobs).runnerJobs.filter fun row =>
      row.runnerId = runnerId) = jobRows env (placeRunnerJob runnerId) (placed id n jobs) := by
    rw [replaced_rows, List.filter_append, deleteRunnerJobs_rows, List.nil_append]
    refine List.filter_eq_self.mpr fun row hrow => ?_
    obtain ⟨job, -, rfl⟩ := List.mem_map.mp hrow
    exact decide_eq_true rfl
  rw [SchemaTables.listRunnerJobs, hrows, collect_placed RunnerJobDefinition.name
    (placeRunnerJob runnerId) id (fun _ _ => rfl), List.map_id]
  intro job hjob
  rw [loadRunnerJobDefinition_place]
  exact runnerJobInsertion.load_stored (placeRunnerJob runnerId) id hinj
    (fresh_deleteRunnerJobs runnerId hfresh) hjob (hfits job.2 (mem_of_mem_placed hjob))

lemma only_execute (statement : Statement) : (execute statement).Only SqlCall.Inner :=
  Program.Only.request_iff.mpr trivial

lemma only_newUuid : newUuid.Only SqlCall.Inner := Program.Only.request_iff.mpr trivial

lemma only_insertNew (statement : String → Statement) : (insertNew statement).Only SqlCall.Inner :=
  only_newUuid.bind fun id => only_execute (statement id)

lemma only_insertJob {ρ ι : Type} (ins : JobInsertion ρ) (place : String → ι → ρ)
    (schema : ι → RunnerJobDefinition) (item : ι) :
    (insertJob ins place schema item).Only SqlCall.Inner := by
  refine only_newUuid.bind fun jobId => (only_execute _).bind fun _ => ?_
  exact (Program.Only.forM (fun _ => only_insertNew _) _).bind fun _ =>
    Program.Only.forM (fun _ => only_insertNew _) _

theorem replaceRunnerJobs_error {error : String}
    (h : (replaceRunnerJobs runnerId jobs).eval (SqlCall.exec env) conn = (.error error, conn')) :
    conn'.tables = conn.tables :=
  transaction_error ((only_execute _).bind fun _ =>
    Program.Only.forM (only_insertJob runnerJobInsertion (placeRunnerJob runnerId) id) _) h

lemma admits_replaced (hinj : Function.Injective env.newUuid) (hfresh : t.Fresh env n)
    (hrunner : runnerId ∈ t.runners) (hnames : (jobs.map RunnerJobDefinition.name).Nodup) :
    runnerJobInsertion.Admits (t.deleteRunnerJobs runnerId)
      (jobRows env (placeRunnerJob runnerId) (placed id n jobs)) where
  clear other hother row hrow := by
    obtain ⟨job, hjob, rfl⟩ := List.mem_map.mp hrow
    obtain ⟨hother, hrunner'⟩ := List.mem_filter.mp hother
    rintro (hid | ⟨hid, -⟩)
    · exact hfresh.runnerJobs other hother job.1 (le_of_mem_placed hjob) hid
    · exact of_decide_eq_true hrunner' hid
  distinct := by
    have hnames : ((placed id n jobs).map Prod.snd).Pairwise fun job job' => job.name ≠ job'.name := by
      rw [map_placed]
      exact List.pairwise_map.mp hnames
    refine List.pairwise_map.mpr ((placed_pairwise.and (List.pairwise_map.mp hnames)).imp fun h => ?_)
    rintro (hid | ⟨-, hname⟩)
    · exact h.1.ne (hinj hid)
    · exact h.2 hname
  referred row hrow := by
    obtain ⟨job, -, rfl⟩ := List.mem_map.mp hrow
    exact hrunner

theorem replaceRunnerJobs_of_names (hfaultless : env.Faultless)
    (hinj : Function.Injective env.newUuid) (hfresh : conn.tables.Fresh env conn.issued)
    (hrunner : runnerId ∈ conn.tables.runners) (hnames : (jobs.map RunnerJobDefinition.name).Nodup) :
    ∃ conn', (replaceRunnerJobs runnerId jobs).eval (SqlCall.exec env) conn = (.ok (), conn') := by
  refine Exists.elim (transaction_of_ok hfaultless fun opened htables hissued => ?_) fun _ h => h
  obtain ⟨deleted, hdeleted⟩ := execute_of_run opened hfaultless
    (show opened.tables.run (.deleteRunnerJobs runnerId) = .ok _ from rfl)
  obtain ⟨hrun, hcount⟩ := execute_ok hdeleted
  have hdeleted' : deleted.tables = conn.tables.deleteRunnerJobs runnerId := by
    rw [← Except.ok.inj hrun, htables]
  have hadmits : runnerJobInsertion.Admits deleted.tables
      (jobRows env (placeRunnerJob runnerId) (placed id deleted.issued jobs)) := by
    rw [hdeleted', hcount, hissued]
    exact admits_replaced hinj hfresh hrunner hnames
  have hfresh' : (deleted.tables.details .runnerJob).Fresh env deleted.issued := by
    rw [hdeleted', hcount, hissued]
    exact fresh_deleteRunnerJobs runnerId hfresh
  obtain ⟨ran, hran⟩ := JobInsertion.insertJobs_of_admits hfaultless hinj (fun _ _ => rfl) hadmits
    hfresh'
  exact ⟨(), ran, (Program.eval_bind_of_ok hdeleted).trans hran⟩

theorem names_of_replaceRunnerJobs
    (h : (replaceRunnerJobs runnerId jobs).eval (SqlCall.exec env) conn = (.ok (), conn')) :
    (jobs.map RunnerJobDefinition.name).Nodup := by
  obtain ⟨opened, ran, -, -, hbody, -, -⟩ := transaction_ok h
  obtain ⟨_, deleted, -, hbody⟩ := Program.eval_bind_ok hbody
  have hdistinct := (runnerJobInsertion.insertJobs_distinct (placeRunnerJob runnerId) id hbody).2
  have hnames : (placed id deleted.issued jobs).Pairwise fun job job' => job.2.name ≠ job'.2.name :=
    (List.pairwise_map.mp hdistinct).imp fun h hname => h (.inr ⟨rfl, hname⟩)
  have hjobs : ((placed id deleted.issued jobs).map Prod.snd).Pairwise
      fun job job' => job.name ≠ job'.name := List.pairwise_map.mpr hnames
  rw [map_placed] at hjobs
  exact List.pairwise_map.mpr hjobs

end

def placeJobSchema (workflowVersionId id : String) (schema : RunnerJobDefinition × ℕ) :
    JobSchemaRow where
  id := id
  workflowVersionId := workflowVersionId
  jobIndex := asColumn schema.2
  jobName := schema.1.name
  concurrency := schema.1.concurrency.asStr
  timeoutSeconds := asColumn schema.1.timeoutSeconds

def versionInsertion : RowInsertion StoredVersion where
  statement := .insertWorkflowVersion
  rows := SchemaTables.workflowVersions
  append t new := { t with workflowVersions := t.workflowVersions ++ new }
  Clash other row := other.id = row.id ∨
    other.workflowId = row.workflowId ∧ other.version = row.version
  Referred t row := row.workflowId ∈ t.workflows.map StoredWorkflow.id
  run_iff {t t' row} := by
    rw [SchemaTables.run]
    exact insertRow_map_iff (by simp) (by simp)
  rows_append := rfl
  append_nil {t} := by rw [List.append_nil]
  append_append := by simp
  referred_append h := h

def workflowInsertion : RowInsertion StoredWorkflow where
  statement := .insertWorkflow
  rows := SchemaTables.workflows
  append t new := { t with workflows := t.workflows ++ new }
  Clash other row := other.id = row.id
  Referred t row := row.repoId ∈ t.repos
  run_iff {t t' row} := by
    rw [SchemaTables.run]
    exact insertRow_map_iff (by simp) (by simp)
  rows_append := rfl
  append_nil {t} := by rw [List.append_nil]
  append_append := by simp
  referred_append h := h

lemma asColumn_eq {value : ℕ} (h : value < 2 ^ 63) : asColumn value = value := by
  unfold asColumn
  apply Int.bmod_eq_of_le <;> omega

lemma orderBy_jobIndex {α : Type} {as : List α} (h : as.length ≤ 2 ^ 63) :
    Database.orderBy (fun a => asColumn a.2) as.zipIdx = as.zipIdx := by
  have hindices : (as.zipIdx.map Prod.snd).Pairwise fun k k' => k < k' := by
    rw [List.zipIdx_map_snd]
    exact List.pairwise_lt_range'
  refine orderBy_eq_self ((List.pairwise_map.mp hindices).imp_of_mem fun ha hb hlt => ?_)
  have hbound := mem_zipIdx_bounds ha
  have hbound' := mem_zipIdx_bounds hb
  rw [asColumn_eq (by omega), asColumn_eq (by omega)]
  omega

section

variable {env : SqlEnv} {conn conn' : Connection} {t : SchemaTables} {n : ℕ}
variable {versionId : String} {schemas : List RunnerJobDefinition}

def SchemaTables.snapshotted (env : SqlEnv) (n : ℕ) (t : SchemaTables) (versionId : String)
    (schemas : List RunnerJobDefinition) : SchemaTables :=
  jobSchemaInsertion.stored env (placeJobSchema versionId) Prod.fst t
    (placed Prod.fst n schemas.zipIdx)

lemma loadWorkflowVersionJobSchema_place {schemaId : String} {schema : RunnerJobDefinition × ℕ} :
    t.loadWorkflowVersionJobSchema (placeJobSchema versionId schemaId schema) =
      loadDefinition (t.details .jobSchema) schemaId schema.1.name schema.1.concurrency.asStr
        (asColumn schema.1.timeoutSeconds) := by
  simp only [SchemaTables.loadWorkflowVersionJobSchema, placeJobSchema, SchemaTables.details]

lemma placeJobSchema_jobIndex {schemaId : String} {schema : RunnerJobDefinition × ℕ} :
    (placeJobSchema versionId schemaId schema).jobIndex = asColumn schema.2 := by
  simp only [placeJobSchema]

lemma snapshotted_rows : (t.snapshotted env n versionId schemas).jobSchemas =
    t.jobSchemas ++ jobRows env (placeJobSchema versionId) (placed Prod.fst n schemas.zipIdx) :=
  jobSchemaInsertion.rows_stored env (placeJobSchema versionId) Prod.fst

theorem workflowJobSchemas_snapshotted (hinj : Function.Injective env.newUuid)
    (hfresh : (t.details .jobSchema).Fresh env n)
    (hversion : ∀ row ∈ t.jobSchemas, row.workflowVersionId ≠ versionId)
    (hlength : schemas.length ≤ 2 ^ 63) (hfits : ∀ schema ∈ schemas, schema.FitsU64) :
    (t.snapshotted env n versionId schemas).workflowJobSchemas versionId = .ok schemas := by
  have hrows : ((t.snapshotted env n versionId schemas).jobSchemas.filter fun row =>
      row.workflowVersionId = versionId) =
        jobRows env (placeJobSchema versionId) (placed Prod.fst n schemas.zipIdx) := by
    rw [snapshotted_rows, List.filter_append, List.filter_eq_nil_iff.mpr, List.nil_append]
    · refine List.filter_eq_self.mpr fun row hrow => ?_
      obtain ⟨job, -, rfl⟩ := List.mem_map.mp hrow
      exact decide_eq_true rfl
    · exact fun row hrow h => hversion row hrow (of_decide_eq_true h)
  rw [SchemaTables.workflowJobSchemas, hrows,
    collect_placed (fun schema : RunnerJobDefinition × ℕ => asColumn schema.2)
      (placeJobSchema versionId) Prod.fst (fun _ _ => placeJobSchema_jobIndex),
    orderBy_jobIndex hlength, List.zipIdx_map_fst]
  intro job hjob
  have hmem : job.2.1 ∈ schemas := List.fst_mem_of_mem_zipIdx (mem_of_mem_placed hjob)
  rw [loadWorkflowVersionJobSchema_place]
  exact jobSchemaInsertion.load_stored (placeJobSchema versionId) Prod.fst hinj hfresh hjob
    (hfits job.2.1 hmem)

lemma distinct_jobSchemas (hinj : Function.Injective env.newUuid) (hlength : schemas.length ≤ 2 ^ 63) :
    (jobRows env (placeJobSchema versionId) (placed Prod.fst n schemas.zipIdx)).Pairwise
      fun other row => ¬jobSchemaInsertion.Clash other row := by
  have hindices : ((placed Prod.fst n schemas.zipIdx).map Prod.snd).Pairwise
      fun schema schema' => schema.2 ≠ schema'.2 := by
    rw [map_placed]
    refine List.pairwise_map.mp ?_
    rw [List.zipIdx_map_snd]
    exact List.nodup_range'
  refine List.pairwise_map.mpr
    ((placed_pairwise.and (List.pairwise_map.mp hindices)).imp_of_mem fun ha hb h => ?_)
  have hbound := mem_zipIdx_bounds (mem_of_mem_placed ha)
  have hbound' := mem_zipIdx_bounds (mem_of_mem_placed hb)
  rintro (hid | ⟨-, hindex⟩)
  · exact h.1.ne (hinj hid)
  · rw [placeJobSchema_jobIndex, placeJobSchema_jobIndex, asColumn_eq (by omega),
      asColumn_eq (by omega)] at hindex
    exact h.2 (Int.ofNat_inj.mp hindex)

lemma insertWorkflowVersionJobSchemas_ok
    (h : (insertWorkflowVersionJobSchemas versionId schemas).eval (SqlCall.exec env) conn =
      (.ok (), conn')) :
    conn'.tables = conn.tables.snapshotted env conn.issued versionId schemas ∧
      conn'.issued = conn.issued +
        (schemas.zipIdx.map fun schema => schema.1.rowCount).sum :=
  jobSchemaInsertion.insertJobs_ok (placeJobSchema versionId) Prod.fst h

lemma insertWorkflowVersionJobSchemas_of_fresh (hfaultless : env.Faultless)
    (hinj : Function.Injective env.newUuid)
    (hfresh : (conn.tables.details .jobSchema).Fresh env conn.issued)
    (hrows : ∀ row ∈ conn.tables.jobSchemas, ∀ k, conn.issued ≤ k → row.id ≠ env.newUuid k)
    (hversion : ∀ row ∈ conn.tables.jobSchemas, row.workflowVersionId ≠ versionId)
    (hreferred : versionId ∈ conn.tables.workflowVersions.map StoredVersion.id)
    (hlength : schemas.length ≤ 2 ^ 63) :
    ∃ conn', (insertWorkflowVersionJobSchemas versionId schemas).eval (SqlCall.exec env) conn =
      (.ok (), conn') := by
  refine jobSchemaInsertion.insertJobs_of_admits hfaultless hinj (fun _ _ => rfl)
    ⟨fun other hother row hrow => ?_, distinct_jobSchemas hinj hlength, fun row hrow => ?_⟩ hfresh
  · obtain ⟨job, hjob, rfl⟩ := List.mem_map.mp hrow
    rintro (hid | ⟨hid, -⟩)
    · exact hrows other hother job.1 (le_of_mem_placed hjob) hid
    · exact hversion other hother hid
  · obtain ⟨job, -, rfl⟩ := List.mem_map.mp hrow
    exact hreferred

lemma currentVersion_append {versions : List StoredVersion} {version : StoredVersion}
    (hrows : t.workflowVersions = versions ++ [version])
    (hnewer : ∀ other ∈ versions, other.workflowId = version.workflowId →
      other.version < version.version) :
    t.currentVersion version.workflowId = some version.id := by
  have hall : ∀ other ∈ versions.filter (fun row => row.workflowId = version.workflowId),
      other.version < version.version := fun other hother =>
    hnewer other (List.mem_filter.mp hother).1 (of_decide_eq_true (List.mem_filter.mp hother).2)
  have hfilter : t.workflowVersions.filter (fun row => row.workflowId = version.workflowId) =
      versions.filter (fun row => row.workflowId = version.workflowId) ++ [version] := by
    rw [hrows, List.filter_append]
    simp
  simp only [SchemaTables.currentVersion, hfilter]
  rw [List.find?_append, List.find?_eq_none.mpr, Option.none_or]
  · have hlargest : (versions.filter (fun row => row.workflowId = version.workflowId) ++
        [version]).all (fun other => other.version ≤ version.version) = true := by
      refine List.all_eq_true.mpr fun other hother => decide_eq_true ?_
      rcases List.mem_append.mp hother with hother | hother
      · exact (hall other hother).le
      · exact (congrArg StoredVersion.version (List.mem_singleton.mp hother)).le
    exact congrArg (Option.map StoredVersion.id) (List.find?_cons_of_pos hlargest)
  · intro other hother hlargest
    have hle := List.all_eq_true.mp hlargest version
      (List.mem_append_right _ List.mem_cons_self)
    exact absurd (of_decide_eq_true hle) (hall other hother).not_ge

lemma lt_nextVersion {workflowId : String} {row : StoredVersion} (hrow : row ∈ t.workflowVersions)
    (hworkflow : row.workflowId = workflowId) : row.version < t.nextVersion workflowId := by
  have hmem : row.version ∈
      (t.workflowVersions.filter (·.workflowId = workflowId)).map StoredVersion.version :=
    List.mem_map_of_mem (List.mem_filter.mpr ⟨hrow, decide_eq_true hworkflow⟩)
  rw [SchemaTables.nextVersion]
  generalize (t.workflowVersions.filter (·.workflowId = workflowId)).map StoredVersion.version =
    versions at hmem
  cases hmax : versions.max? with
  | none =>
    rw [List.max?_eq_none_iff.mp hmax] at hmem
    cases hmem
  | some version =>
    have hle := (List.max?_eq_some_iff.mp hmax).2 row.version hmem
    simp only [Option.getD_some]
    omega

def insertVersion (row : StoredVersion) (schemas : List RunnerJobDefinition) : Sql Unit := do
  execute (.insertWorkflowVersion row)
  insertWorkflowVersionJobSchemas row.id schemas

variable {row : StoredVersion}

lemma insertVersion_ok
    (h : (insertVersion row schemas).eval (SqlCall.exec env) conn = (.ok (), conn')) :
    conn'.tables = (versionInsertion.append conn.tables [row]).snapshotted env conn.issued row.id
        schemas ∧
      conn'.issued = conn.issued +
        (schemas.zipIdx.map fun schema => schema.1.rowCount).sum := by
  obtain ⟨_, inserted, hinserted, h⟩ := Program.eval_bind_ok h
  obtain ⟨hrun, hissued⟩ := execute_ok hinserted
  obtain ⟨-, -, htables⟩ := versionInsertion.run_iff.mp hrun
  have hsnapshot := insertWorkflowVersionJobSchemas_ok h
  rwa [htables, hissued] at hsnapshot

lemma found_insertVersion (hinj : Function.Injective env.newUuid)
    (hfresh : t.jobSchemaDetails.Fresh env n)
    (hversion : ∀ schema ∈ t.jobSchemas, schema.workflowVersionId ≠ row.id)
    (hnewer : ∀ other ∈ t.workflowVersions, other.workflowId = row.workflowId →
      other.version < row.version)
    (hlength : schemas.length ≤ 2 ^ 63) (hfits : ∀ schema ∈ schemas, schema.FitsU64) :
    ((versionInsertion.append t [row]).snapshotted env n row.id schemas).currentVersion
        row.workflowId = some row.id ∧
      ((versionInsertion.append t [row]).snapshotted env n row.id schemas).workflowJobSchemas
        row.id = .ok schemas :=
  ⟨currentVersion_append rfl hnewer,
    workflowJobSchemas_snapshotted hinj hfresh hversion hlength hfits⟩

lemma insertVersion_of_fresh (schemas : List RunnerJobDefinition) (hfaultless : env.Faultless) (hinj : Function.Injective env.newUuid)
    (hfresh : conn.tables.jobSchemaDetails.Fresh env conn.issued)
    (hrows : ∀ row ∈ conn.tables.jobSchemas, ∀ k, conn.issued ≤ k → row.id ≠ env.newUuid k)
    (hversion : ∀ schema ∈ conn.tables.jobSchemas, schema.workflowVersionId ≠ row.id)
    (hadmits : versionInsertion.Admits conn.tables [row]) (hlength : schemas.length ≤ 2 ^ 63) :
    ∃ conn', (insertVersion row schemas).eval (SqlCall.exec env) conn = (.ok (), conn') := by
  obtain ⟨inserted, hinserted⟩ := execute_of_run conn hfaultless hadmits.run
  obtain ⟨hrun, hissued⟩ := execute_ok hinserted
  have htables : inserted.tables = _ := Except.ok.inj (hrun.symm.trans hadmits.run)
  have hreferred : row.id ∈ inserted.tables.workflowVersions.map StoredVersion.id := by
    rw [htables]
    exact List.mem_map_of_mem (List.mem_append_right _ List.mem_cons_self)
  obtain ⟨conn', hrest⟩ := insertWorkflowVersionJobSchemas_of_fresh hfaultless hinj
    (by rw [htables, hissued]; exact hfresh) (by rw [htables, hissued]; exact hrows)
    (by rw [htables]; exact hversion) hreferred hlength
  exact ⟨conn', (Program.eval_bind_of_ok hinserted).trans hrest⟩

lemma insertVersion_of_parts {inserted : Connection}
    (hinserted : (execute (.insertWorkflowVersion row)).eval (SqlCall.exec env) conn =
      (.ok (), inserted))
    (h : (insertWorkflowVersionJobSchemas row.id schemas).eval (SqlCall.exec env) inserted =
      (.ok (), conn')) :
    (insertVersion row schemas).eval (SqlCall.exec env) conn = (.ok (), conn') :=
  (Program.eval_bind_of_ok hinserted).trans h

variable {repoId name triggerJson definitionJson workflowId : String} {enabled : Bool}

def SchemaTables.created (env : SqlEnv) (n : ℕ) (t : SchemaTables)
    (repoId name triggerJson definitionJson : String) (enabled : Bool)
    (schemas : List RunnerJobDefinition) : SchemaTables :=
  (versionInsertion.append
    (workflowInsertion.append t [⟨env.newUuid n, repoId, name, boolColumn enabled⟩])
    [⟨env.newUuid (n + 1), env.newUuid n, 1, triggerJson, definitionJson⟩]).snapshotted env (n + 2)
      (env.newUuid (n + 1)) schemas

lemma createWorkflow_tables
    (h : (createWorkflow repoId name enabled triggerJson definitionJson schemas).eval
      (SqlCall.exec env) conn = (.ok workflowId, conn')) :
    env.newUuid conn.issued = workflowId ∧
      conn'.tables = conn.tables.created env conn.issued repoId name triggerJson definitionJson
        enabled schemas ∧
      conn'.issued = conn.issued + 2 +
        (schemas.zipIdx.map fun schema => schema.1.rowCount).sum := by
  rw [createWorkflow, eval_newUuid, eval_newUuid] at h
  obtain ⟨opened, ran, htables, hissued, hbody, htables', hissued'⟩ := transaction_ok h
  obtain ⟨_, created, hcreated, hbody⟩ := Program.eval_bind_ok hbody
  obtain ⟨hrun, hcount⟩ := execute_ok hcreated
  obtain ⟨-, -, hworkflow⟩ := workflowInsertion.run_iff.mp hrun
  obtain ⟨_, inserted, hinserted, hbody⟩ := Program.eval_bind_ok hbody
  obtain ⟨_, snapshot, hsnapshot, hbody⟩ := Program.eval_bind_ok hbody
  obtain ⟨hresult, rfl⟩ := Prod.mk.inj hbody
  obtain rfl := Except.ok.inj hresult
  obtain ⟨hstored, hcount'⟩ := insertVersion_ok (insertVersion_of_parts hinserted hsnapshot)
  rw [hworkflow, htables, hcount, hissued] at hstored
  rw [hcount, hissued] at hcount'
  exact ⟨rfl, htables'.trans hstored, hissued'.trans hcount'⟩

theorem createWorkflow_ok (hinj : Function.Injective env.newUuid)
    (hfresh : conn.tables.Fresh env conn.issued) (hlength : schemas.length ≤ 2 ^ 63)
    (hfits : ∀ schema ∈ schemas, schema.FitsU64)
    (h : (createWorkflow repoId name enabled triggerJson definitionJson schemas).eval
      (SqlCall.exec env) conn = (.ok workflowId, conn')) :
    ∃ versionId, conn'.tables.currentVersion workflowId = some versionId ∧
      conn'.tables.workflowJobSchemas versionId = .ok schemas := by
  obtain ⟨rfl, htables, -⟩ := createWorkflow_tables h
  rw [htables]
  refine ⟨_, found_insertVersion hinj ?_ ?_ ?_ hlength hfits⟩
  · exact hfresh.jobSchemaDetails.mono (by omega)
  · exact fun schema hschema => (hfresh.jobSchemas schema hschema _ (Nat.le_succ _)).2
  · exact fun other hother heq => absurd heq (hfresh.workflowVersions other hother _ le_rfl).2

def SchemaTables.updated (env : SqlEnv) (n : ℕ) (t : SchemaTables)
    (workflowId name triggerJson definitionJson : String) (enabled : Bool)
    (schemas : List RunnerJobDefinition) : SchemaTables :=
  (versionInsertion.append
    { t with workflows := t.workflows.map fun row =>
              if row.id = workflowId then { row with name, enabled := boolColumn enabled } else row }
    [⟨env.newUuid n, workflowId, t.nextVersion workflowId, triggerJson,
      definitionJson⟩]).snapshotted env (n + 1) (env.newUuid n) schemas

lemma updateWorkflow_tables
    (h : (updateWorkflow workflowId name enabled triggerJson definitionJson schemas).eval
      (SqlCall.exec env) conn = (.ok versionId, conn')) :
    env.newUuid conn.issued = versionId ∧
      conn'.tables = conn.tables.updated env conn.issued workflowId name triggerJson definitionJson
        enabled schemas ∧
      conn'.issued = conn.issued + 1 +
        (schemas.zipIdx.map fun schema => schema.1.rowCount).sum := by
  obtain ⟨opened, ran, htables, hissued, hbody, htables', hissued'⟩ := transaction_ok h
  obtain ⟨version, read, hread, hbody⟩ := Program.eval_bind_ok hbody
  obtain ⟨hversion, hreadTables, hreadIssued⟩ := nextVersion_ok hread
  rw [eval_newUuid] at hbody
  obtain ⟨_, updated, hupdated, hbody⟩ := Program.eval_bind_ok hbody
  obtain ⟨hrun, hcount⟩ := execute_ok hupdated
  have hworkflow := Except.ok.inj hrun
  obtain ⟨_, inserted, hinserted, hbody⟩ := Program.eval_bind_ok hbody
  obtain ⟨_, snapshot, hsnapshot, hbody⟩ := Program.eval_bind_ok hbody
  obtain ⟨hresult, rfl⟩ := Prod.mk.inj hbody
  obtain rfl := Except.ok.inj hresult
  obtain ⟨hstored, hcount'⟩ := insertVersion_ok (insertVersion_of_parts hinserted hsnapshot)
  simp only [hreadTables, htables, hreadIssued, hissued] at hworkflow hcount
  rw [← hworkflow, hcount, hversion, htables, hreadIssued, hissued] at hstored
  rw [hcount] at hcount'
  exact ⟨by rw [hreadIssued, hissued], htables'.trans hstored, hissued'.trans hcount'⟩

theorem updateWorkflow_ok (hinj : Function.Injective env.newUuid)
    (hfresh : conn.tables.Fresh env conn.issued) (hlength : schemas.length ≤ 2 ^ 63)
    (hfits : ∀ schema ∈ schemas, schema.FitsU64)
    (h : (updateWorkflow workflowId name enabled triggerJson definitionJson schemas).eval
      (SqlCall.exec env) conn = (.ok versionId, conn')) :
    conn'.tables.currentVersion workflowId = some versionId ∧
      conn'.tables.workflowJobSchemas versionId = .ok schemas := by
  obtain ⟨rfl, htables, -⟩ := updateWorkflow_tables h
  rw [htables]
  refine found_insertVersion hinj ?_ ?_ ?_ hlength hfits
  · exact hfresh.jobSchemaDetails.mono (Nat.le_succ _)
  · exact fun schema hschema => (hfresh.jobSchemas schema hschema _ le_rfl).2
  · exact fun other hother hworkflow => lt_nextVersion hother hworkflow

lemma admits_version {env : SqlEnv} {k : ℕ} {version : ℤ}
    (hversions : ∀ other ∈ t.workflowVersions, other.id ≠ env.newUuid k)
    (hnewer : ∀ other ∈ t.workflowVersions, other.workflowId = workflowId → other.version < version)
    (hworkflow : workflowId ∈ t.workflows.map StoredWorkflow.id) :
    versionInsertion.Admits t
      [⟨env.newUuid k, workflowId, version, triggerJson, definitionJson⟩] where
  clear other hother row hrow := by
    obtain rfl := List.mem_singleton.mp hrow
    rintro (hid | ⟨hid, hversion⟩)
    · exact hversions other hother hid
    · exact (hnewer other hother hid).ne hversion
  distinct := List.pairwise_singleton _ _
  referred row hrow := by
    obtain rfl := List.mem_singleton.mp hrow
    exact hworkflow

theorem createWorkflow_of_fresh (hfaultless : env.Faultless)
    (hinj : Function.Injective env.newUuid) (hfresh : conn.tables.Fresh env conn.issued)
    (hrepo : repoId ∈ conn.tables.repos) (hlength : schemas.length ≤ 2 ^ 63) :
    ∃ workflowId conn', (createWorkflow repoId name enabled triggerJson definitionJson schemas).eval
      (SqlCall.exec env) conn = (.ok workflowId, conn') := by
  simp only [createWorkflow, eval_newUuid]
  refine transaction_of_ok hfaultless fun opened htables hissued => ?_
  have hworkflow : workflowInsertion.Admits opened.tables
      [⟨env.newUuid conn.issued, repoId, name, boolColumn enabled⟩] := by
    rw [htables]
    refine ⟨fun other hother row hrow => ?_, List.pairwise_singleton _ _, fun row hrow => ?_⟩
    · obtain rfl := List.mem_singleton.mp hrow
      exact hfresh.workflows other hother _ le_rfl
    · obtain rfl := List.mem_singleton.mp hrow
      exact hrepo
  obtain ⟨created, hcreated⟩ := execute_of_run opened hfaultless hworkflow.run
  obtain ⟨hrun, hcount⟩ := execute_ok hcreated
  have hcreated' : created.tables = _ := Except.ok.inj (hrun.symm.trans hworkflow.run)
  rw [htables] at hcreated'
  simp only at hissued
  have hadmits : versionInsertion.Admits created.tables
      [⟨env.newUuid (conn.issued + 1), env.newUuid conn.issued, 1, triggerJson, definitionJson⟩] := by
    rw [hcreated']
    refine admits_version ?_ ?_ ?_
    · exact fun other hother => (hfresh.workflowVersions other hother _ (Nat.le_succ _)).1
    · exact fun other hother heq =>
        absurd heq (hfresh.workflowVersions other hother _ le_rfl).2
    · exact List.mem_map_of_mem (List.mem_append_right _ List.mem_cons_self)
  obtain ⟨ran, hran⟩ := insertVersion_of_fresh schemas hfaultless hinj
    (by
      rw [hcreated', hcount, hissued]
      exact hfresh.jobSchemaDetails.mono (by omega))
    (by
      rw [hcreated', hcount, hissued]
      exact fun row hrow k hk => (hfresh.jobSchemas row hrow k (by omega)).1)
    (by
      rw [hcreated']
      exact fun schema hschema => (hfresh.jobSchemas schema hschema _ (Nat.le_succ _)).2)
    hadmits hlength
  obtain ⟨_, inserted, hinserted, hran⟩ := Program.eval_bind_ok hran
  refine ⟨env.newUuid conn.issued, ran, ?_⟩
  refine (Program.eval_bind_of_ok hcreated).trans ?_
  refine (Program.eval_bind_of_ok hinserted).trans ?_
  exact Program.eval_bind_of_ok hran

theorem updateWorkflow_of_fresh (hfaultless : env.Faultless)
    (hinj : Function.Injective env.newUuid) (hfresh : conn.tables.Fresh env conn.issued)
    (hworkflow : workflowId ∈ conn.tables.workflows.map StoredWorkflow.id)
    (hlength : schemas.length ≤ 2 ^ 63) :
    ∃ versionId conn',
      (updateWorkflow workflowId name enabled triggerJson definitionJson schemas).eval
        (SqlCall.exec env) conn = (.ok versionId, conn') := by
  refine transaction_of_ok hfaultless fun opened htables hissued => ?_
  obtain ⟨read, hread⟩ := nextVersion_of_faultless opened workflowId hfaultless
  obtain ⟨-, hreadTables, hreadIssued⟩ := nextVersion_ok hread
  obtain ⟨updated, hupdated⟩ := execute_of_run { read with issued := read.issued + 1 } hfaultless
    (show read.tables.run (.updateWorkflow workflowId name (boolColumn enabled)) = .ok _ from rfl)
  obtain ⟨hrun, hcount⟩ := execute_ok hupdated
  have hupdated' := Except.ok.inj hrun
  simp only [hreadTables, htables, hreadIssued, hissued] at hupdated' hcount
  have hadmits : versionInsertion.Admits updated.tables
      [⟨env.newUuid read.issued, workflowId, opened.tables.nextVersion workflowId, triggerJson,
        definitionJson⟩] := by
    rw [← hupdated', hreadIssued, hissued, htables]
    refine admits_version ?_ ?_ ?_
    · exact fun other hother => (hfresh.workflowVersions other hother _ le_rfl).1
    · exact fun other hother heq => lt_nextVersion hother heq
    · obtain ⟨row, hrow, hid⟩ := List.mem_map.mp hworkflow
      refine List.mem_map.mpr ⟨_, List.mem_map_of_mem hrow, ?_⟩
      rw [if_pos hid]
      exact hid
  obtain ⟨ran, hran⟩ := insertVersion_of_fresh schemas hfaultless hinj
    (by
      rw [← hupdated', hcount]
      exact hfresh.jobSchemaDetails.mono (Nat.le_succ _))
    (by
      rw [← hupdated', hcount]
      exact fun row hrow k hk => (hfresh.jobSchemas row hrow k (by omega)).1)
    (by
      rw [← hupdated', hreadIssued, hissued]
      exact fun schema hschema => (hfresh.jobSchemas schema hschema _ le_rfl).2)
    hadmits hlength
  obtain ⟨_, inserted, hinserted, hran⟩ := Program.eval_bind_ok hran
  refine ⟨env.newUuid read.issued, ran, ?_⟩
  refine (Program.eval_bind_of_ok hread).trans ?_
  rw [eval_newUuid]
  refine (Program.eval_bind_of_ok hupdated).trans ?_
  refine (Program.eval_bind_of_ok hinserted).trans ?_
  exact Program.eval_bind_of_ok hran

end

lemma fresh_empty {env : SqlEnv} {n : ℕ} {repos runners : List String} :
    ({ repos, runners } : SchemaTables).Fresh env n :=
  ⟨List.forall_mem_nil _, ⟨List.forall_mem_nil _, List.forall_mem_nil _⟩, List.forall_mem_nil _,
    List.forall_mem_nil _, List.forall_mem_nil _, ⟨List.forall_mem_nil _, List.forall_mem_nil _⟩⟩

/-- What is stored over a connection is what is loaded from it. A list has fewer than `2 ^ 63`
members. -/
structure StoresSchemas (env : SqlEnv) (conn : Connection) : Prop where
  replaced {runnerId : String} {jobs : List RunnerJobDefinition} {conn' : Connection} :
    (∀ job ∈ jobs, job.FitsU64) →
    (replaceRunnerJobs runnerId jobs).eval (SqlCall.exec env) conn = (.ok (), conn') →
    conn'.tables.listRunnerJobs runnerId = .ok (Database.orderBy RunnerJobDefinition.name jobs)
  replaces {runnerId : String} {jobs : List RunnerJobDefinition} :
    env.Faultless → runnerId ∈ conn.tables.runners → (jobs.map RunnerJobDefinition.name).Nodup →
    ∃ conn', (replaceRunnerJobs runnerId jobs).eval (SqlCall.exec env) conn = (.ok (), conn')
  rejected {runnerId : String} {jobs : List RunnerJobDefinition} :
    ¬(jobs.map RunnerJobDefinition.name).Nodup →
    ∃ error conn',
      (replaceRunnerJobs runnerId jobs).eval (SqlCall.exec env) conn = (.error error, conn')
  kept {runnerId error : String} {jobs : List RunnerJobDefinition} {conn' : Connection} :
    (replaceRunnerJobs runnerId jobs).eval (SqlCall.exec env) conn = (.error error, conn') →
    ∀ other, conn'.tables.listRunnerJobs other = conn.tables.listRunnerJobs other
  created {repoId name triggerJson definitionJson workflowId : String} {enabled : Bool}
    {schemas : List RunnerJobDefinition} {conn' : Connection} :
    schemas.length ≤ 2 ^ 63 → (∀ schema ∈ schemas, schema.FitsU64) →
    (createWorkflow repoId name enabled triggerJson definitionJson schemas).eval (SqlCall.exec env)
      conn = (.ok workflowId, conn') →
    ∃ versionId, conn'.tables.currentVersion workflowId = some versionId ∧
      conn'.tables.workflowJobSchemas versionId = .ok schemas
  creates {repoId name triggerJson definitionJson : String} {enabled : Bool}
    {schemas : List RunnerJobDefinition} :
    env.Faultless → repoId ∈ conn.tables.repos → schemas.length ≤ 2 ^ 63 →
    ∃ workflowId conn',
      (createWorkflow repoId name enabled triggerJson definitionJson schemas).eval
        (SqlCall.exec env) conn = (.ok workflowId, conn')
  updated {workflowId name triggerJson definitionJson versionId : String} {enabled : Bool}
    {schemas : List RunnerJobDefinition} {conn' : Connection} :
    schemas.length ≤ 2 ^ 63 → (∀ schema ∈ schemas, schema.FitsU64) →
    (updateWorkflow workflowId name enabled triggerJson definitionJson schemas).eval
      (SqlCall.exec env) conn = (.ok versionId, conn') →
    conn'.tables.currentVersion workflowId = some versionId ∧
      conn'.tables.workflowJobSchemas versionId = .ok schemas
  updates {workflowId name triggerJson definitionJson : String} {enabled : Bool}
    {schemas : List RunnerJobDefinition} :
    env.Faultless → workflowId ∈ conn.tables.workflows.map StoredWorkflow.id →
    schemas.length ≤ 2 ^ 63 →
    ∃ versionId conn',
      (updateWorkflow workflowId name enabled triggerJson definitionJson schemas).eval
        (SqlCall.exec env) conn = (.ok versionId, conn')

theorem stores_schemas {env : SqlEnv} {conn : Connection} (hinj : Function.Injective env.newUuid)
    (hfresh : conn.tables.Fresh env conn.issued) : StoresSchemas env conn where
  replaced hfits h := by
    rw [(replaceRunnerJobs_ok h).1]
    exact listRunnerJobs_replaced hinj hfresh hfits
  replaces hfaultless hrunner hnames :=
    replaceRunnerJobs_of_names hfaultless hinj hfresh hrunner hnames
  rejected {runnerId jobs} hnames := by
    rcases hresult : (replaceRunnerJobs runnerId jobs).eval (SqlCall.exec env) conn with
      ⟨error | _, conn'⟩
    · exact ⟨error, conn', rfl⟩
    · exact absurd (names_of_replaceRunnerJobs hresult) hnames
  kept h other := by rw [replaceRunnerJobs_error h]
  created hlength hfits h := createWorkflow_ok hinj hfresh hlength hfits h
  creates hfaultless hrepo hlength :=
    createWorkflow_of_fresh hfaultless hinj hfresh hrepo hlength
  updated hlength hfits h := updateWorkflow_ok hinj hfresh hlength hfits h
  updates hfaultless hworkflow hlength :=
    updateWorkflow_of_fresh hfaultless hinj hfresh hworkflow hlength

def countingEnv : SqlEnv where
  newUuid k := String.ofList (List.replicate k 'i')
  fails _ := none

lemma countingEnv_injective : Function.Injective countingEnv.newUuid := by
  intro k k' h
  have hlength := congrArg List.length (String.ofList_injective h)
  rwa [List.length_replicate, List.length_replicate] at hlength

def deploySchema : RunnerJobDefinition where
  name := "deploy"
  concurrency := .globalExclusive
  timeoutSeconds := 600
  inputs := .ofList [("token", ⟨.string, true, true, some 64, some "[a-z]+", none⟩),
    ("plan", ⟨.json, false, false, none, none, some 4096⟩)]
  outputs := .empty

def buildSchema : RunnerJobDefinition where
  name := "build"
  concurrency := .parallel
  timeoutSeconds := 60
  inputs := .empty
  outputs := .ofList [("image", ⟨.artifact, "image.tar", true⟩)]

theorem stores_schemas_deploy :
    ∃ conn', (replaceRunnerJobs "runner" [deploySchema, buildSchema]).eval
        (SqlCall.exec countingEnv) { tables := { runners := ["runner"] } } = (.ok (), conn') ∧
      conn'.tables.listRunnerJobs "runner" = .ok [buildSchema, deploySchema] := by
  have hstores : StoresSchemas countingEnv { tables := { runners := ["runner"] } } :=
    stores_schemas countingEnv_injective fresh_empty
  have hfits : ∀ job ∈ [deploySchema, buildSchema], job.FitsU64 := by decide
  obtain ⟨conn', h⟩ := hstores.replaces (fun _ => rfl) List.mem_cons_self
    (show ([deploySchema, buildSchema].map RunnerJobDefinition.name).Nodup by decide)
  exact ⟨conn', h, hstores.replaced hfits h⟩

end Janus.Server
