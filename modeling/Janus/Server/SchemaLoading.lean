import Janus.Data.Except
import Janus.Server.SchemaRows

/-! What is loaded from the rows of a job is the job. -/

namespace Janus.Server

open Janus.Concurrency Janus.Data

lemma toNat_bmod {value m : ℕ} (h : value < m) : (Int.bmod value m % m).toNat = value := by
  have hlt : (value : ℤ) < m := Int.ofNat_lt.mpr h
  rw [Int.bmod_emod, Int.emod_eq_of_lt (Int.natCast_nonneg _) hlt, Int.toNat_natCast]

lemma ofColumn_asColumn {value : ℕ} (h : value < 2 ^ 64) : ofColumn (asColumn value) = value := by
  have hcast : (2 : ℤ) ^ 64 = ((2 ^ 64 : ℕ) : ℤ) := (Int.natCast_pow 2 64).symm
  unfold ofColumn asColumn
  rw [hcast]
  exact toNat_bmod h

lemma map_ofColumn {value : Option ℕ} (h : ∀ n ∈ value, n < 2 ^ 64) :
    (value.map asColumn).map ofColumn = value := by
  cases value with
  | none => rfl
  | some n => exact congrArg some (ofColumn_asColumn (h n rfl))

lemma boolColumn_ne_zero (value : Bool) : (boolColumn value != 0) = value := by
  cases value <;> rfl

lemma parseRunnerInputType_asStr (kind : InputType) :
    parseRunnerInputType kind.asStr = .ok kind := by
  cases kind <;> rfl

lemma parseRunnerOutputType_asStr (kind : OutputType) :
    parseRunnerOutputType kind.asStr = .ok kind := by
  cases kind <;> rfl

lemma parseRunnerConcurrency_asStr (concurrency : Concurrency) :
    parseRunnerConcurrency concurrency.asStr = .ok concurrency := by
  cases concurrency <;> rfl

def JobInputDefinition.FitsU64 (input : JobInputDefinition) : Prop :=
  (∀ n ∈ input.maxLength, n < 2 ^ 64) ∧ ∀ n ∈ input.maxJsonBytes, n < 2 ^ 64

def RunnerJobDefinition.FitsU64 (schema : RunnerJobDefinition) : Prop :=
  schema.timeoutSeconds < 2 ^ 64 ∧ ∀ input ∈ schema.inputs.entries, input.2.FitsU64

instance : DecidablePred JobInputDefinition.FitsU64 := fun input =>
  inferInstanceAs (Decidable
    ((∀ n ∈ input.maxLength, n < 2 ^ 64) ∧ ∀ n ∈ input.maxJsonBytes, n < 2 ^ 64))

instance : DecidablePred RunnerJobDefinition.FitsU64 := fun schema =>
  inferInstanceAs (Decidable
    (schema.timeoutSeconds < 2 ^ 64 ∧ ∀ input ∈ schema.inputs.entries, input.2.FitsU64))

lemma loadInput_inputRow {id jobId inputName : String} {input : JobInputDefinition}
    (h : input.FitsU64) : loadInput (inputRow id jobId inputName input) = .ok (inputName, input) := by
  simp only [loadInput, inputRow, parseRunnerInputType_asStr, ok_bind, boolColumn_ne_zero,
    map_ofColumn h.1, map_ofColumn h.2]

lemma loadOutput_outputRow {id jobId outputName : String} {output : JobOutputDefinition} :
    loadOutput (outputRow id jobId outputName output) = .ok (outputName, output) := by
  simp only [loadOutput, outputRow, parseRunnerOutputType_asStr, ok_bind, boolColumn_ne_zero]

lemma collectResults_map {α β γ : Type} {f : α → Except String β} {g : γ → α} {h : γ → β}
    {cs : List γ} (hf : ∀ c ∈ cs, f (g c) = .ok (h c)) :
    collectResults f (cs.map g) = .ok (cs.map h) := by
  induction cs with
  | nil => rfl
  | cons c cs ih =>
    obtain ⟨hc, hcs⟩ := List.forall_mem_cons.mp hf
    simp only [List.map_cons, collectResults, hc, ok_bind, ih hcs]

lemma orderBy_map {α β κ : Type} [LE κ] [DecidableLE κ] (key : β → κ) (f : α → β) (as : List α) :
    Database.orderBy key (as.map f) = (Database.orderBy (fun a => key (f a)) as).map f := by
  rw [Database.orderBy, Database.orderBy]
  exact (List.map_insertionSort _ _ f as fun _ _ _ _ => Iff.rfl).symm

lemma orderBy_eq_self {α κ : Type} [LE κ] [DecidableLE κ] {key : α → κ} {as : List α}
    (h : as.Pairwise fun a b => key a ≤ key b) : Database.orderBy key as = as :=
  List.Pairwise.insertionSort_eq h

lemma ofList_entries {α : Type} (m : BTreeMap α) : OrderedMap.ofList m.entries = m := by
  refine OrderedMap.ext_get fun k => ?_
  cases hk : m.get k with
  | none =>
    rw [OrderedMap.ofList, OrderedMap.get_foldl_insert_of_ne, OrderedMap.get_empty]
    rintro ⟨k', a⟩ hmem rfl
    exact OrderedMap.get_eq_none_iff.mp hk a hmem
  | some a =>
    have hmem := OrderedMap.get_eq_some_iff.mp hk
    exact OrderedMap.get_foldl_insert_of_mem (e := (k, a)) (f := Prod.fst) (g := Prod.snd) hmem
      fun e he heq => OrderedMap.eq_of_mem_entries he hmem heq

def inputRows (env : SqlEnv) (n : ℕ) (jobId : String) (inputs : List (String × JobInputDefinition)) :
    List InputRow :=
  (inputs.zipIdx n).map fun e => inputRow (env.newUuid e.2) jobId e.1.1 e.1.2

def outputRows (env : SqlEnv) (n : ℕ) (jobId : String)
    (outputs : List (String × JobOutputDefinition)) : List OutputRow :=
  (outputs.zipIdx n).map fun e => outputRow (env.newUuid e.2) jobId e.1.1 e.1.2

def detailRows (env : SqlEnv) (n : ℕ) (jobId : String) (schema : RunnerJobDefinition) : DetailTables where
  inputs := inputRows env n jobId schema.inputs.entries
  outputs := outputRows env (n + schema.inputs.entries.length) jobId schema.outputs.entries

def DetailTables.rowsOf (t : DetailTables) (jobId : String) : DetailTables where
  inputs := t.inputs.filter fun row => row.jobId = jobId
  outputs := t.outputs.filter fun row => row.jobId = jobId

section

variable {env : SqlEnv} {n : ℕ} {jobId : String}

lemma orderBy_zipIdx {α β : Type} {m : BTreeMap α} (key : β → String) {f : (String × α) × ℕ → β}
    (hkey : ∀ e, key (f e) = e.1.1) :
    Database.orderBy key ((m.entries.zipIdx n).map f) = (m.entries.zipIdx n).map f := by
  have hsorted : ((m.entries.zipIdx n).map Prod.fst).Pairwise fun e e' => e.1 ≤ e'.1 := by
    rw [List.zipIdx_map_fst]
    exact m.sorted.imp fun h => h.le
  refine orderBy_eq_self (List.pairwise_map.mpr ?_)
  exact (List.pairwise_map.mp hsorted).imp fun h => by rwa [hkey, hkey]

lemma load_inputRows {inputs : BTreeMap JobInputDefinition}
    (h : ∀ input ∈ inputs.entries, input.2.FitsU64) :
    collectResults loadInput (Database.orderBy InputRow.inputName (inputRows env n jobId inputs.entries)) =
      .ok inputs.entries := by
  have hload : ∀ e ∈ inputs.entries.zipIdx n,
      loadInput (inputRow (env.newUuid e.2) jobId e.1.1 e.1.2) = .ok e.1 := fun e he =>
    loadInput_inputRow (h e.1 (List.fst_mem_of_mem_zipIdx he))
  rw [inputRows, orderBy_zipIdx InputRow.inputName fun _ => rfl, collectResults_map hload, List.zipIdx_map_fst]

lemma load_outputRows {outputs : BTreeMap JobOutputDefinition} :
    collectResults loadOutput
        (Database.orderBy OutputRow.outputName (outputRows env n jobId outputs.entries)) =
      .ok outputs.entries := by
  have hload : ∀ e ∈ outputs.entries.zipIdx n,
      loadOutput (outputRow (env.newUuid e.2) jobId e.1.1 e.1.2) = .ok e.1 := fun _ _ =>
    loadOutput_outputRow
  rw [outputRows, orderBy_zipIdx OutputRow.outputName fun _ => rfl, collectResults_map hload, List.zipIdx_map_fst]

lemma loadDefinition_rows {details : DetailTables} {schema : RunnerJobDefinition}
    (hfits : schema.FitsU64) (hrows : details.rowsOf jobId = detailRows env n jobId schema) :
    loadDefinition details jobId schema.name schema.concurrency.asStr
      (asColumn schema.timeoutSeconds) = .ok schema := by
  have hinputs := congrArg DetailTables.inputs hrows
  have houtputs := congrArg DetailTables.outputs hrows
  simp only [DetailTables.rowsOf, detailRows] at hinputs houtputs
  simp only [loadDefinition, hinputs, houtputs, load_inputRows hfits.2, load_outputRows, ok_bind,
    parseRunnerConcurrency_asStr, ofColumn_asColumn hfits.1, ofList_entries]

end

end Janus.Server
