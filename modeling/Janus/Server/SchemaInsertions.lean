import Janus.Server.SchemaTransactions

/-! The statements that insert a row into a table, and the loops that insert whole jobs. -/

namespace Janus.Server

open Janus.Concurrency Janus.Data

section

variable {α β : Type} {row : α} {rows rows' : List α} {referred : Bool}

lemma insertRow_iff {clashes : List (String × (α → Bool))} :
    insertRow clashes referred row rows = .ok rows' ↔
      (∀ clash ∈ clashes, ∀ other ∈ rows, clash.2 other = false) ∧ referred = true ∧
        rows ++ [row] = rows' := by
  unfold insertRow
  cases hfind : clashes.find? fun clash => rows.any clash.2 with
  | some clash =>
    have hclash := List.find?_some hfind
    obtain ⟨other, hother, hclashes⟩ := List.any_eq_true.mp hclash
    constructor
    · intro h
      cases h
    · intro h
      have hclear := h.1 clash (List.mem_of_find?_eq_some hfind) other hother
      rw [hclashes] at hclear
      cases hclear
  | none =>
    have hclear : ∀ clash ∈ clashes, ∀ other ∈ rows, clash.2 other = false := by
      intro clash hclash other hother
      have hnone := List.find?_eq_none.mp hfind clash hclash
      by_contra hclashes
      exact hnone (List.any_eq_true.mpr ⟨other, hother, Bool.eq_true_of_not_eq_false hclashes⟩)
    cases referred with
    | true => exact ⟨fun h => ⟨hclear, rfl, Except.ok.inj h⟩, fun h => congrArg _ h.2.2⟩
    | false =>
      constructor
      · intro h
        cases h
      · intro h
        cases h.2.1

lemma insertRow_map_iff {clashes : List (String × (α → Bool))} {Clash : α → Prop} {Referred : Prop}
    {f : List α → β} {b : β}
    (hclash : ∀ other, Clash other ↔ ∃ clash ∈ clashes, clash.2 other = true)
    (hreferred : Referred ↔ referred = true) :
    (insertRow clashes referred row rows).map f = .ok b ↔
      (∀ other ∈ rows, ¬Clash other) ∧ Referred ∧ b = f (rows ++ [row]) := by
  rw [hreferred]
  constructor
  · intro h
    obtain ⟨rows', hrows, rfl⟩ := map_ok h
    obtain ⟨hclear, hreferred, rfl⟩ := insertRow_iff.mp hrows
    refine ⟨fun other hother hclashes => ?_, hreferred, rfl⟩
    obtain ⟨clash, hmem, htrue⟩ := (hclash other).mp hclashes
    rw [hclear clash hmem other hother] at htrue
    cases htrue
  · rintro ⟨hclear, hreferred, rfl⟩
    have hrows : insertRow clashes referred row rows = .ok (rows ++ [row]) := by
      refine insertRow_iff.mpr ⟨fun clash hmem other hother => ?_, hreferred, rfl⟩
      by_contra hclashes
      have htrue := Bool.eq_true_of_not_eq_false hclashes
      exact hclear other hother ((hclash other).mpr ⟨clash, hmem, htrue⟩)
    rw [hrows]
    rfl

end

structure RowInsertion (ρ : Type) where
  statement : ρ → Statement
  rows : SchemaTables → List ρ
  append : SchemaTables → List ρ → SchemaTables
  Clash : ρ → ρ → Prop
  Referred : SchemaTables → ρ → Prop
  run_iff {t t' : SchemaTables} {row : ρ} : t.run (statement row) = .ok t' ↔
    (∀ other ∈ rows t, ¬Clash other row) ∧ Referred t row ∧ t' = append t [row]
  rows_append {t : SchemaTables} {new : List ρ} : rows (append t new) = rows t ++ new
  append_nil {t : SchemaTables} : append t [] = t
  append_append {t : SchemaTables} {new new' : List ρ} :
    append (append t new) new' = append t (new ++ new')
  referred_append {t : SchemaTables} {new : List ρ} {row : ρ} :
    Referred t row → Referred (append t new) row

namespace RowInsertion

variable {ρ ι : Type} (ins : RowInsertion ρ)

structure Admits (t : SchemaTables) (new : List ρ) : Prop where
  clear : ∀ other ∈ ins.rows t, ∀ row ∈ new, ¬ins.Clash other row
  distinct : new.Pairwise fun other row => ¬ins.Clash other row
  referred : ∀ row ∈ new, ins.Referred t row

variable {ins} {t : SchemaTables} {row : ρ} {new : List ρ}

lemma Admits.run (h : ins.Admits t (row :: new)) :
    t.run (ins.statement row) = .ok (ins.append t [row]) :=
  ins.run_iff.mpr ⟨fun other hother => h.clear other hother row List.mem_cons_self,
    h.referred row List.mem_cons_self, rfl⟩

lemma Admits.tail (h : ins.Admits t (row :: new)) : ins.Admits (ins.append t [row]) new where
  clear other hother := by
    rw [ins.rows_append] at hother
    rcases List.mem_append.mp hother with hother | hother
    · exact fun row' hrow' => h.clear other hother row' (List.mem_cons_of_mem _ hrow')
    · obtain rfl := List.mem_singleton.mp hother
      exact fun row' hrow' => List.rel_of_pairwise_cons h.distinct hrow'
  distinct := h.distinct.of_cons
  referred row' hrow' := ins.referred_append (h.referred row' (List.mem_cons_of_mem _ hrow'))

variable {env : SqlEnv} {conn conn' : Connection} {place : String → ι → ρ} {items : List ι}

def newRows (env : SqlEnv) (place : String → ι → ρ) (n : ℕ) (items : List ι) : List ρ :=
  (items.zipIdx n).map fun e => place (env.newUuid e.2) e.1

lemma insertAll_ok (ins : RowInsertion ρ) (place : String → ι → ρ)
    (h : (items.forM fun item => insertNew fun id => ins.statement (place id item)).eval
      (SqlCall.exec env) conn = (.ok (), conn')) :
    conn'.tables = ins.append conn.tables (newRows env place conn.issued items) ∧
      conn'.issued = conn.issued + items.length := by
  induction items generalizing conn with
  | nil =>
    obtain ⟨-, rfl⟩ := Prod.mk.inj h
    exact ⟨ins.append_nil.symm, rfl⟩
  | cons item items ih =>
    obtain ⟨_, inserted, hinserted, h⟩ := Program.eval_bind_ok h
    obtain ⟨hrun, hissued⟩ := insertNew_ok hinserted
    obtain ⟨-, -, htables⟩ := ins.run_iff.mp hrun
    obtain ⟨hrest, hcount⟩ := ih h
    rw [htables, ins.append_append, hissued] at hrest
    refine ⟨hrest, ?_⟩
    rw [hcount, hissued, List.length_cons]
    omega

lemma insertAll_of_admits (place : String → ι → ρ) (hfaultless : env.Faultless)
    (h : ins.Admits conn.tables (newRows env place conn.issued items)) :
    ∃ conn', (items.forM fun item => insertNew fun id => ins.statement (place id item)).eval
      (SqlCall.exec env) conn = (.ok (), conn') := by
  induction items generalizing conn with
  | nil => exact ⟨conn, rfl⟩
  | cons item items ih =>
    obtain ⟨inserted, hinserted⟩ := insertNew_of_run
      (fun id => ins.statement (place id item)) hfaultless h.run
    obtain ⟨hrun, hissued⟩ := insertNew_ok hinserted
    have htables : inserted.tables = _ := Except.ok.inj (hrun.symm.trans h.run)
    have hadmits : ins.Admits inserted.tables (newRows env place inserted.issued items) := by
      rw [htables, hissued]
      exact h.tail
    obtain ⟨conn', hrest⟩ := ih hadmits
    exact ⟨conn', (Program.eval_bind_of_ok hinserted).trans hrest⟩

end RowInsertion

namespace SchemaTables

variable {t : SchemaTables} {d d' : DetailTables} {owner : Owner}

@[simp] lemma details_setDetails : (t.setDetails d owner).details owner = d := by
  cases owner <;> rfl

@[simp] lemma setDetails_setDetails :
    (t.setDetails d owner).setDetails d' owner = t.setDetails d' owner := by
  cases owner <;> rfl

@[simp] lemma setDetails_details : t.setDetails (t.details owner) owner = t := by
  cases owner <;> rfl

@[simp] lemma ownerIds_setDetails {owner' : Owner} :
    (t.setDetails d owner).ownerIds owner' = t.ownerIds owner' := by
  cases owner <;> rfl

end SchemaTables

def inputInsertion (owner : Owner) : RowInsertion InputRow where
  statement := .insertInput owner
  rows t := (t.details owner).inputs
  append t new := t.setDetails
    { t.details owner with inputs := (t.details owner).inputs ++ new } owner
  Clash other row := other.id = row.id ∨ other.jobId = row.jobId ∧ other.inputName = row.inputName
  Referred t row := row.jobId ∈ t.ownerIds owner
  run_iff {t t' row} := by
    rw [SchemaTables.run, DetailTables.insertInput, map_map]
    exact insertRow_map_iff (by simp) (by simp)
  rows_append := by simp
  append_nil {t} := by
    rw [List.append_nil]
    exact SchemaTables.setDetails_details
  append_append := by simp
  referred_append h := by rwa [SchemaTables.ownerIds_setDetails]

def outputInsertion (owner : Owner) : RowInsertion OutputRow where
  statement := .insertOutput owner
  rows t := (t.details owner).outputs
  append t new := t.setDetails
    { t.details owner with outputs := (t.details owner).outputs ++ new } owner
  Clash other row := other.id = row.id ∨ other.jobId = row.jobId ∧ other.outputName = row.outputName
  Referred t row := row.jobId ∈ t.ownerIds owner
  run_iff {t t' row} := by
    rw [SchemaTables.run, DetailTables.insertOutput, map_map]
    exact insertRow_map_iff (by simp) (by simp)
  rows_append := by simp
  append_nil {t} := by
    rw [List.append_nil]
    exact SchemaTables.setDetails_details
  append_append := by simp
  referred_append h := by rwa [SchemaTables.ownerIds_setDetails]

def DetailTables.append (d d' : DetailTables) : DetailTables where
  inputs := d.inputs ++ d'.inputs
  outputs := d.outputs ++ d'.outputs

structure DetailTables.Fresh (env : SqlEnv) (n : ℕ) (d : DetailTables) : Prop where
  inputs : ∀ row ∈ d.inputs, ∀ k, n ≤ k → row.id ≠ env.newUuid k ∧ row.jobId ≠ env.newUuid k
  outputs : ∀ row ∈ d.outputs, ∀ k, n ≤ k → row.id ≠ env.newUuid k ∧ row.jobId ≠ env.newUuid k

namespace DetailTables

variable {env : SqlEnv} {n n' : ℕ} {d d' : DetailTables} {schema : RunnerJobDefinition}

lemma Fresh.mono (h : d.Fresh env n) (hle : n ≤ n') : d.Fresh env n' where
  inputs row hrow k hk := h.inputs row hrow k (hle.trans hk)
  outputs row hrow k hk := h.outputs row hrow k (hle.trans hk)

lemma Fresh.append (h : d.Fresh env n) (h' : d'.Fresh env n) : (d.append d').Fresh env n where
  inputs row hrow := (List.mem_append.mp hrow).elim (h.inputs row) (h'.inputs row)
  outputs row hrow := (List.mem_append.mp hrow).elim (h.outputs row) (h'.outputs row)

end DetailTables

def RunnerJobDefinition.rowCount (schema : RunnerJobDefinition) : ℕ :=
  1 + schema.inputs.entries.length + schema.outputs.entries.length

section

variable {env : SqlEnv} {n : ℕ} {schema : RunnerJobDefinition} {jobId : String}

lemma mem_zipIdx_bounds {α : Type} {as : List α} {e : α × ℕ} (h : e ∈ as.zipIdx n) :
    n ≤ e.2 ∧ e.2 < n + as.length := by
  have hsnd : e.2 ∈ (as.zipIdx n).map Prod.snd := List.mem_map_of_mem h
  rw [List.zipIdx_map_snd] at hsnd
  exact List.mem_range'_1.mp hsnd

lemma fresh_detailRows (hinj : Function.Injective env.newUuid) :
    (detailRows env (n + 1) (env.newUuid n) schema).Fresh env (n + schema.rowCount) := by
  unfold RunnerJobDefinition.rowCount
  constructor
  · intro row hrow k hk
    obtain ⟨e, he, rfl⟩ := List.mem_map.mp hrow
    have hbounds := mem_zipIdx_bounds he
    exact ⟨fun h => by have := hinj h; omega, fun h => by have := hinj h; omega⟩
  · intro row hrow k hk
    obtain ⟨e, he, rfl⟩ := List.mem_map.mp hrow
    have hbounds := mem_zipIdx_bounds he
    exact ⟨fun h => by have := hinj h; omega, fun h => by have := hinj h; omega⟩

lemma pairwise_zipIdx {α : Type} (m : BTreeMap α) :
    (m.entries.zipIdx n).Pairwise fun e e' => e.1.1 ≠ e'.1.1 ∧ e.2 ≠ e'.2 := by
  have hnames : ((m.entries.zipIdx n).map Prod.fst).Pairwise fun e e' => e.1 ≠ e'.1 := by
    rw [List.zipIdx_map_fst]
    exact m.sorted.imp fun h => h.ne
  have hids : ((m.entries.zipIdx n).map Prod.snd).Pairwise fun k k' => k ≠ k' := by
    rw [List.zipIdx_map_snd]
    exact List.nodup_range'
  exact (List.pairwise_map.mp hnames).and (List.pairwise_map.mp hids)

variable {owner : Owner} {t : SchemaTables}

lemma admits_inputRows (schema : RunnerJobDefinition) (hinj : Function.Injective env.newUuid)
    (hfresh : (t.details owner).Fresh env n) (howner : env.newUuid n ∈ t.ownerIds owner) :
    (inputInsertion owner).Admits t
      (inputRows env (n + 1) (env.newUuid n) schema.inputs.entries) where
  clear other hother row hrow := by
    obtain ⟨e, he, rfl⟩ := List.mem_map.mp hrow
    have hle : n ≤ e.2 := by have := mem_zipIdx_bounds he; omega
    rintro (hid | ⟨hjob, -⟩)
    · exact (hfresh.inputs other hother e.2 hle).1 hid
    · exact (hfresh.inputs other hother n le_rfl).2 hjob
  distinct := by
    refine List.pairwise_map.mpr ((pairwise_zipIdx schema.inputs).imp fun h => ?_)
    rintro (hid | ⟨-, hname⟩)
    · exact h.2 (hinj hid)
    · exact h.1 hname
  referred row hrow := by
    obtain ⟨e, he, rfl⟩ := List.mem_map.mp hrow
    exact howner

lemma admits_outputRows (schema : RunnerJobDefinition) (hinj : Function.Injective env.newUuid) {m : ℕ} (hle : n ≤ m)
    (hfresh : ∀ row ∈ (t.details owner).outputs, ∀ k, n ≤ k →
      row.id ≠ env.newUuid k ∧ row.jobId ≠ env.newUuid k)
    (howner : env.newUuid n ∈ t.ownerIds owner) :
    (outputInsertion owner).Admits t
      (outputRows env m (env.newUuid n) schema.outputs.entries) where
  clear other hother row hrow := by
    obtain ⟨e, he, rfl⟩ := List.mem_map.mp hrow
    have hle : n ≤ e.2 := hle.trans (mem_zipIdx_bounds he).1
    rintro (hid | ⟨hjob, -⟩)
    · exact (hfresh other hother e.2 hle).1 hid
    · exact (hfresh other hother n le_rfl).2 hjob
  distinct := by
    refine List.pairwise_map.mpr ((pairwise_zipIdx schema.outputs).imp fun h => ?_)
    rintro (hid | ⟨-, hname⟩)
    · exact h.2 (hinj hid)
    · exact h.1 hname
  referred row hrow := by
    obtain ⟨e, he, rfl⟩ := List.mem_map.mp hrow
    exact howner

end

section

variable {env : SqlEnv} {conn conn' : Connection} {owner : Owner} {jobId : String}
variable {schema : RunnerJobDefinition}

lemma insertDetails_ok
    (h : (insertDetails owner jobId schema).eval (SqlCall.exec env) conn = (.ok (), conn')) :
    conn'.tables = conn.tables.setDetails
        ((conn.tables.details owner).append (detailRows env conn.issued jobId schema)) owner ∧
      conn'.issued + 1 = conn.issued + schema.rowCount := by
  obtain ⟨_, inserted, hinserted, h⟩ := Program.eval_bind_ok h
  obtain ⟨hinputs, hissued⟩ := RowInsertion.insertAll_ok (inputInsertion owner)
    (fun id (input : String × JobInputDefinition) => inputRow id jobId input.1 input.2) hinserted
  obtain ⟨houtputs, hissued'⟩ := RowInsertion.insertAll_ok (outputInsertion owner)
    (fun id (output : String × JobOutputDefinition) => outputRow id jobId output.1 output.2) h
  rw [hinputs, hissued] at houtputs
  refine ⟨houtputs.trans ?_, ?_⟩
  · simp only [inputInsertion, outputInsertion, SchemaTables.details_setDetails,
      SchemaTables.setDetails_setDetails]
    rfl
  · rw [hissued', hissued, RunnerJobDefinition.rowCount]
    omega

lemma insertDetails_of_fresh (schema : RunnerJobDefinition) (hfaultless : env.Faultless)
    (hinj : Function.Injective env.newUuid) {n : ℕ} (hissued : conn.issued = n + 1) (hfresh : (conn.tables.details owner).Fresh env n)
    (howner : env.newUuid n ∈ conn.tables.ownerIds owner) :
    ∃ conn', (insertDetails owner (env.newUuid n) schema).eval (SqlCall.exec env) conn =
      (.ok (), conn') := by
  have hadmits := admits_inputRows schema hinj hfresh howner
  rw [← hissued] at hadmits
  obtain ⟨inserted, hinserted⟩ := RowInsertion.insertAll_of_admits
    (fun id (input : String × JobInputDefinition) => inputRow id (env.newUuid n) input.1 input.2)
    hfaultless hadmits
  obtain ⟨htables, hcount⟩ := RowInsertion.insertAll_ok _ _ hinserted
  have houtputs : (inserted.tables.details owner).outputs = (conn.tables.details owner).outputs := by
    rw [htables]
    simp only [inputInsertion, SchemaTables.details_setDetails]
  have howner' : env.newUuid n ∈ inserted.tables.ownerIds owner := by
    rw [htables]
    simpa only [inputInsertion, SchemaTables.ownerIds_setDetails] using howner
  have hadmits' := admits_outputRows schema hinj (by omega : n ≤ inserted.issued)
    (by rw [houtputs]; exact hfresh.outputs) howner'
  obtain ⟨conn', hrest⟩ := RowInsertion.insertAll_of_admits
    (fun id (output : String × JobOutputDefinition) => outputRow id (env.newUuid n) output.1 output.2)
    hfaultless hadmits'
  exact ⟨conn', (Program.eval_bind_of_ok hinserted).trans hrest⟩

end

end Janus.Server
