import Janus.Server.SchemaInsertions

/-! The loops that insert whole jobs, and what is loaded of each afterwards. -/

namespace Janus.Server

open Janus.Concurrency Janus.Data

structure JobInsertion (ρ : Type) extends RowInsertion ρ where
  owner : Owner
  id : ρ → String
  ownerIds_eq {t : SchemaTables} : t.ownerIds owner = (rows t).map id
  details_append {t : SchemaTables} {new : List ρ} :
    (append t new).details owner = t.details owner
  append_setDetails {t : SchemaTables} {d : DetailTables} {new : List ρ} :
    append (t.setDetails d owner) new = (append t new).setDetails d owner
  rows_setDetails {t : SchemaTables} {d : DetailTables} : rows (t.setDetails d owner) = rows t
  referred_setDetails {t : SchemaTables} {d : DetailTables} {row : ρ} :
    Referred t row → Referred (t.setDetails d owner) row

def runnerJobInsertion : JobInsertion RunnerJobRow where
  statement := .insertRunnerJob
  rows := SchemaTables.runnerJobs
  append t new := { t with runnerJobs := t.runnerJobs ++ new }
  Clash other row := other.id = row.id ∨ other.runnerId = row.runnerId ∧ other.jobName = row.jobName
  Referred t row := row.runnerId ∈ t.runners
  run_iff {t t' row} := by
    rw [SchemaTables.run]
    exact insertRow_map_iff (by simp) (by simp)
  rows_append := rfl
  append_nil {t} := by rw [List.append_nil]
  append_append := by simp
  referred_append h := h
  owner := .runnerJob
  id := RunnerJobRow.id
  ownerIds_eq := rfl
  details_append := rfl
  append_setDetails := rfl
  rows_setDetails := rfl
  referred_setDetails h := h

def jobSchemaInsertion : JobInsertion JobSchemaRow where
  statement := .insertJobSchema
  rows := SchemaTables.jobSchemas
  append t new := { t with jobSchemas := t.jobSchemas ++ new }
  Clash other row := other.id = row.id ∨
    other.workflowVersionId = row.workflowVersionId ∧ other.jobIndex = row.jobIndex
  Referred t row := row.workflowVersionId ∈ t.workflowVersions.map StoredVersion.id
  run_iff {t t' row} := by
    rw [SchemaTables.run]
    exact insertRow_map_iff (by simp) (by simp)
  rows_append := rfl
  append_nil {t} := by rw [List.append_nil]
  append_append := by simp
  referred_append h := h
  owner := .jobSchema
  id := JobSchemaRow.id
  ownerIds_eq := rfl
  details_append := rfl
  append_setDetails := rfl
  rows_setDetails := rfl
  referred_setDetails h := h

section

variable {ρ ι : Type}

def placed (schema : ι → RunnerJobDefinition) : ℕ → List ι → List (ℕ × ι)
  | _, [] => []
  | n, item :: items => (n, item) :: placed schema (n + (schema item).rowCount) items

def jobRows (env : SqlEnv) (place : String → ι → ρ) (jobs : List (ℕ × ι)) : List ρ :=
  jobs.map fun job => place (env.newUuid job.1) job.2

def jobDetails (env : SqlEnv) (schema : ι → RunnerJobDefinition) (jobs : List (ℕ × ι)) :
    DetailTables where
  inputs := jobs.flatMap fun job =>
    (detailRows env (job.1 + 1) (env.newUuid job.1) (schema job.2)).inputs
  outputs := jobs.flatMap fun job =>
    (detailRows env (job.1 + 1) (env.newUuid job.1) (schema job.2)).outputs

variable {schema : ι → RunnerJobDefinition} {n : ℕ} {items : List ι}

lemma map_placed : (placed schema n items).map Prod.snd = items := by
  induction items generalizing n with
  | nil => rfl
  | cons item items ih => exact congrArg (item :: ·) ih

lemma mem_of_mem_placed {job : ℕ × ι} (h : job ∈ placed schema n items) : job.2 ∈ items := by
  have hmem : job.2 ∈ (placed schema n items).map Prod.snd := List.mem_map_of_mem h
  rwa [map_placed] at hmem

lemma le_of_mem_placed {job : ℕ × ι} (h : job ∈ placed schema n items) : n ≤ job.1 := by
  induction items generalizing n with
  | nil => cases h
  | cons item items ih =>
    rcases List.mem_cons.mp h with rfl | h
    · exact le_rfl
    · exact (Nat.le_add_right _ _).trans (ih h)

lemma placed_pairwise : (placed schema n items).Pairwise fun job job' => job.1 < job'.1 := by
  induction items generalizing n with
  | nil => exact List.Pairwise.nil
  | cons item items ih =>
    refine List.Pairwise.cons (fun job hjob => ?_) ih
    have hle := le_of_mem_placed hjob
    have hcount : 0 < (schema item).rowCount := by
      unfold RunnerJobDefinition.rowCount
      omega
    omega

lemma filter_flatMap_key {α β κ : Type} [DecidableEq κ] {f : α → List β} (key : α → κ)
    {owner : β → κ} {as : List α} (howner : ∀ a ∈ as, ∀ b ∈ f a, owner b = key a)
    (hdistinct : as.Pairwise fun a a' => key a ≠ key a') {a : α} (ha : a ∈ as) :
    (as.flatMap f).filter (fun b => owner b = key a) = f a := by
  induction as with
  | nil => cases ha
  | cons a' as ih =>
    have hhead : ∀ b ∈ f a', owner b = key a' := howner a' List.mem_cons_self
    have htail : ∀ a ∈ as, ∀ b ∈ f a, owner b = key a := fun a ha =>
      howner a (List.mem_cons_of_mem _ ha)
    have hne : ∀ a ∈ as, key a' ≠ key a := fun a ha => List.rel_of_pairwise_cons hdistinct ha
    rw [List.flatMap_cons, List.filter_append]
    rcases List.mem_cons.mp ha with rfl | ha
    · rw [List.filter_eq_self.mpr fun b hb => decide_eq_true (hhead b hb)]
      rw [List.filter_eq_nil_iff.mpr, List.append_nil]
      intro b hb
      obtain ⟨c, hc, hb⟩ := List.mem_flatMap.mp hb
      rw [htail c hc b hb]
      simpa using (hne c hc).symm
    · rw [List.filter_eq_nil_iff.mpr, List.nil_append, ih htail hdistinct.of_cons ha]
      intro b hb
      rw [hhead b hb]
      simpa using hne a ha

variable {env : SqlEnv} {d : DetailTables}

lemma rowsOf_jobDetails (hinj : Function.Injective env.newUuid) (hfresh : d.Fresh env n)
    {job : ℕ × ι} (hjob : job ∈ placed schema n items) :
    (d.append (jobDetails env schema (placed schema n items))).rowsOf (env.newUuid job.1) =
      detailRows env (job.1 + 1) (env.newUuid job.1) (schema job.2) := by
  have hle := le_of_mem_placed hjob
  have hdistinct : (placed schema n items).Pairwise fun job job' =>
      env.newUuid job.1 ≠ env.newUuid job'.1 :=
    placed_pairwise.imp fun h heq => h.ne (hinj heq)
  have hinputs : d.inputs.filter (fun row => row.jobId = env.newUuid job.1) = [] :=
    List.filter_eq_nil_iff.mpr fun row hrow => by
      simpa using (hfresh.inputs row hrow job.1 hle).2
  have houtputs : d.outputs.filter (fun row => row.jobId = env.newUuid job.1) = [] :=
    List.filter_eq_nil_iff.mpr fun row hrow => by
      simpa using (hfresh.outputs row hrow job.1 hle).2
  simp only [DetailTables.rowsOf, DetailTables.append, jobDetails, List.filter_append, hinputs,
    houtputs, List.nil_append]
  rw [filter_flatMap_key (fun job => env.newUuid job.1) _ hdistinct hjob,
    filter_flatMap_key (fun job => env.newUuid job.1) _ hdistinct hjob]
  · intro job hjob row hrow
    obtain ⟨e, he, rfl⟩ := List.mem_map.mp hrow
    rfl
  · intro job hjob row hrow
    obtain ⟨e, he, rfl⟩ := List.mem_map.mp hrow
    rfl

end

def insertJob {ρ ι : Type} (ins : JobInsertion ρ) (place : String → ι → ρ)
    (schema : ι → RunnerJobDefinition) (item : ι) : Sql Unit := do
  let id ← newUuid
  execute (ins.statement (place id item))
  insertDetails ins.owner id (schema item)

namespace JobInsertion

variable {ρ ι : Type} (ins : JobInsertion ρ) (env : SqlEnv) (place : String → ι → ρ)
variable (schema : ι → RunnerJobDefinition)

def stored (t : SchemaTables) (jobs : List (ℕ × ι)) : SchemaTables :=
  (ins.append t (jobRows env place jobs)).setDetails
    ((t.details ins.owner).append (jobDetails env schema jobs)) ins.owner

variable {t : SchemaTables} {jobs jobs' : List (ℕ × ι)}

lemma stored_nil : ins.stored env place schema t [] = t := by
  have hdetails : (t.details ins.owner).append (jobDetails env schema []) = t.details ins.owner := by
    simp [DetailTables.append, jobDetails]
  rw [stored, hdetails, jobRows, List.map_nil, ins.append_nil, SchemaTables.setDetails_details]

lemma details_stored : (ins.stored env place schema t jobs).details ins.owner =
    (t.details ins.owner).append (jobDetails env schema jobs) :=
  SchemaTables.details_setDetails

lemma rows_stored : ins.rows (ins.stored env place schema t jobs) =
    ins.rows t ++ jobRows env place jobs := by
  rw [stored, ins.rows_setDetails, ins.rows_append]

lemma stored_append : ins.stored env place schema (ins.stored env place schema t jobs) jobs' =
    ins.stored env place schema t (jobs ++ jobs') := by
  have hdetails : ((t.details ins.owner).append (jobDetails env schema jobs)).append
      (jobDetails env schema jobs') =
        (t.details ins.owner).append (jobDetails env schema (jobs ++ jobs')) := by
    simp [DetailTables.append, jobDetails]
  rw [stored, details_stored, hdetails, stored, ins.append_setDetails, ins.append_append,
    SchemaTables.setDetails_setDetails, jobRows, jobRows, ← List.map_append]
  rfl

variable {env} {conn conn' : Connection} {item : ι} {items : List ι}

lemma insertJob_ok
    (h : (insertJob ins place schema item).eval (SqlCall.exec env) conn = (.ok (), conn')) :
    conn'.tables = ins.stored env place schema conn.tables [(conn.issued, item)] ∧
      conn'.issued = conn.issued + (schema item).rowCount := by
  rw [insertJob, eval_newUuid] at h
  obtain ⟨_, inserted, hinserted, h⟩ := Program.eval_bind_ok h
  obtain ⟨hrun, hissued⟩ := execute_ok hinserted
  obtain ⟨-, -, htables⟩ := ins.run_iff.mp hrun
  obtain ⟨hdetails, hcount⟩ := insertDetails_ok h
  change inserted.issued = conn.issued + 1 at hissued
  rw [hissued] at hcount hdetails
  refine ⟨?_, by omega⟩
  rw [hdetails, htables, ins.details_append]
  simp only [stored, jobRows, jobDetails, List.map_cons, List.map_nil, List.flatMap_cons,
    List.flatMap_nil, List.append_nil]

lemma insertJobs_ok
    (h : (items.forM (insertJob ins place schema)).eval (SqlCall.exec env) conn = (.ok (), conn')) :
    conn'.tables = ins.stored env place schema conn.tables (placed schema conn.issued items) ∧
      conn'.issued = conn.issued + (items.map fun item => (schema item).rowCount).sum := by
  induction items generalizing conn with
  | nil =>
    obtain ⟨-, rfl⟩ := Prod.mk.inj h
    exact ⟨(stored_nil ins env place schema).symm, rfl⟩
  | cons item items ih =>
    obtain ⟨_, inserted, hinserted, h⟩ := Program.eval_bind_ok h
    obtain ⟨htables, hissued⟩ := insertJob_ok ins place schema hinserted
    obtain ⟨hrest, hcount⟩ := ih h
    rw [htables, hissued, stored_append] at hrest
    refine ⟨hrest, ?_⟩
    rw [hcount, hissued, List.map_cons, List.sum_cons]
    omega

lemma insertJob_checked
    (h : (insertJob ins place schema item).eval (SqlCall.exec env) conn = (.ok (), conn')) :
    (∀ other ∈ ins.rows conn.tables, ¬ins.Clash other (place (env.newUuid conn.issued) item)) ∧
      ins.Referred conn.tables (place (env.newUuid conn.issued) item) := by
  rw [insertJob, eval_newUuid] at h
  obtain ⟨_, inserted, hinserted, h⟩ := Program.eval_bind_ok h
  obtain ⟨hclear, hreferred, -⟩ := ins.run_iff.mp (execute_ok hinserted).1
  exact ⟨hclear, hreferred⟩

lemma insertJobs_distinct
    (h : (items.forM (insertJob ins place schema)).eval (SqlCall.exec env) conn = (.ok (), conn')) :
    (∀ other ∈ ins.rows conn.tables, ∀ row ∈ jobRows env place (placed schema conn.issued items),
      ¬ins.Clash other row) ∧
      (jobRows env place (placed schema conn.issued items)).Pairwise fun other row =>
        ¬ins.Clash other row := by
  induction items generalizing conn with
  | nil => exact ⟨fun _ _ _ hrow => absurd hrow List.not_mem_nil, List.Pairwise.nil⟩
  | cons item items ih =>
    obtain ⟨_, inserted, hinserted, h⟩ := Program.eval_bind_ok h
    obtain ⟨htables, hissued⟩ := insertJob_ok ins place schema hinserted
    obtain ⟨hclear, hdistinct⟩ := ih h
    rw [htables, rows_stored, hissued] at hclear
    rw [hissued] at hdistinct
    refine ⟨fun other hother row hrow => ?_, List.Pairwise.cons (fun row hrow => ?_) hdistinct⟩
    · rcases List.mem_cons.mp hrow with rfl | hrow
      · exact (insertJob_checked ins place schema hinserted).1 other hother
      · exact hclear other (List.mem_append_left _ hother) row hrow
    · exact hclear _ (List.mem_append_right _ List.mem_cons_self) row hrow

variable {ins place schema}

lemma admits_stored {new : List ρ}
    (h : ins.Admits t (jobRows env place jobs ++ new)) :
    ins.Admits (ins.stored env place schema t jobs) new where
  clear other hother row hrow := by
    rw [rows_stored] at hother
    rcases List.mem_append.mp hother with hother | hother
    · exact h.clear other hother row (List.mem_append_right _ hrow)
    · exact (List.pairwise_append.mp h.distinct).2.2 other hother row hrow
  distinct := (List.pairwise_append.mp h.distinct).2.1
  referred row hrow :=
    ins.referred_setDetails (ins.referred_append (h.referred row (List.mem_append_right _ hrow)))

lemma fresh_stored {n : ℕ} (hinj : Function.Injective env.newUuid)
    (hfresh : (t.details ins.owner).Fresh env n) :
    ((ins.stored env place schema t [(n, item)]).details ins.owner).Fresh env
      (n + (schema item).rowCount) := by
  have hdetails : jobDetails env schema [(n, item)] =
      detailRows env (n + 1) (env.newUuid n) (schema item) := by
    simp only [jobDetails, List.flatMap_cons, List.flatMap_nil, List.append_nil]
  rw [details_stored, hdetails]
  exact (hfresh.mono (Nat.le_add_right _ _)).append (fresh_detailRows hinj)

lemma insertJob_of_admits (schema : ι → RunnerJobDefinition) (hfaultless : env.Faultless)
    (hinj : Function.Injective env.newUuid)
    (hid : ins.id (place (env.newUuid conn.issued) item) = env.newUuid conn.issued)
    (hadmits : ins.Admits conn.tables [place (env.newUuid conn.issued) item])
    (hfresh : (conn.tables.details ins.owner).Fresh env conn.issued) :
    ∃ conn', (insertJob ins place schema item).eval (SqlCall.exec env) conn = (.ok (), conn') := by
  rw [insertJob, eval_newUuid]
  obtain ⟨inserted, hinserted⟩ := execute_of_run { conn with issued := conn.issued + 1 } hfaultless
    hadmits.run
  obtain ⟨hrun, hissued⟩ := execute_ok hinserted
  have htables : inserted.tables = _ := Except.ok.inj (hrun.symm.trans hadmits.run)
  have howner : env.newUuid conn.issued ∈ inserted.tables.ownerIds ins.owner := by
    rw [htables, ins.ownerIds_eq, ins.rows_append]
    exact List.mem_map.mpr ⟨_, List.mem_append_right _ List.mem_cons_self, hid⟩
  have hfresh' : (inserted.tables.details ins.owner).Fresh env conn.issued := by
    rwa [htables, ins.details_append]
  obtain ⟨conn', hrest⟩ := insertDetails_of_fresh (schema item) hfaultless hinj hissued hfresh'
    howner
  exact ⟨conn', (Program.eval_bind_of_ok hinserted).trans hrest⟩

lemma insertJobs_of_admits (hfaultless : env.Faultless) (hinj : Function.Injective env.newUuid)
    (hid : ∀ id item, ins.id (place id item) = id)
    (hadmits : ins.Admits conn.tables (jobRows env place (placed schema conn.issued items)))
    (hfresh : (conn.tables.details ins.owner).Fresh env conn.issued) :
    ∃ conn', (items.forM (insertJob ins place schema)).eval (SqlCall.exec env) conn =
      (.ok (), conn') := by
  induction items generalizing conn with
  | nil => exact ⟨conn, rfl⟩
  | cons item items ih =>
    have hfirst : ins.Admits conn.tables [place (env.newUuid conn.issued) item] :=
      ⟨fun other hother row hrow => hadmits.clear other hother row (by
          rw [List.mem_singleton.mp hrow]
          exact List.mem_cons_self),
        List.pairwise_singleton _ _, fun row hrow => hadmits.referred row (by
          rw [List.mem_singleton.mp hrow]
          exact List.mem_cons_self)⟩
    obtain ⟨inserted, hinserted⟩ := insertJob_of_admits schema hfaultless hinj (hid _ item)
      hfirst hfresh
    obtain ⟨htables, hissued⟩ := insertJob_ok ins place schema hinserted
    have hrest : ins.Admits inserted.tables
        (jobRows env place (placed schema inserted.issued items)) := by
      rw [htables, hissued]
      exact admits_stored hadmits
    have hfresh' : (inserted.tables.details ins.owner).Fresh env inserted.issued := by
      rw [htables, hissued]
      exact fresh_stored hinj hfresh
    obtain ⟨conn', hrest⟩ := ih hrest hfresh'
    exact ⟨conn', (Program.eval_bind_of_ok hinserted).trans hrest⟩

lemma load_stored (ins : JobInsertion ρ) (place : String → ι → ρ)
    (schema : ι → RunnerJobDefinition) {n : ℕ} (hinj : Function.Injective env.newUuid)
    (hfresh : (t.details ins.owner).Fresh env n) {job : ℕ × ι} (hjob : job ∈ placed schema n items)
    (hfits : (schema job.2).FitsU64) :
    loadDefinition ((ins.stored env place schema t (placed schema n items)).details ins.owner)
      (env.newUuid job.1) (schema job.2).name (schema job.2).concurrency.asStr
      (asColumn (schema job.2).timeoutSeconds) = .ok (schema job.2) := by
  rw [details_stored]
  exact loadDefinition_rows hfits (rowsOf_jobDetails hinj hfresh hjob)

end JobInsertion

end Janus.Server
