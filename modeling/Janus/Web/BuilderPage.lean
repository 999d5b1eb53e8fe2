import Janus.Web.BuilderRows

/-! The page between two edits: every select stands on an output that is offered. -/

namespace Janus.Web

open Janus.Data Janus.Server

section

variable {catalog : List RunnerCatalogEntry} {rows : List BuilderRow} {row : BuilderRow}
variable {index place : ℕ}

@[simp] lemma getElem?_syncJobsJson :
    (syncJobsJson catalog rows)[index]? = rows[index]?.map (syncRow catalog rows index) :=
  List.getElem?_mapIdx

lemma mem_syncJobsJson (h : row ∈ syncJobsJson catalog rows) :
    ∃ index row', rows[index]? = some row' ∧ syncRow catalog rows index row' = row := by
  obtain ⟨index, hindex⟩ := List.getElem?_of_mem h
  rw [getElem?_syncJobsJson] at hindex
  obtain ⟨row', hrow', hrow⟩ := Option.map_eq_some_iff.mp hindex
  exact ⟨index, row', hrow', hrow⟩

lemma map_syncJobsJson {β : Type} {f : BuilderRow → β}
    (hf : ∀ rows index row, f (syncRow catalog rows index row) = f row) :
    (syncJobsJson catalog rows).map f = rows.map f := by
  apply List.ext_getElem?
  intro index
  rw [List.getElem?_map, getElem?_syncJobsJson, List.getElem?_map, Option.map_map]
  cases rows[index]? with
  | none => rfl
  | some row => exact congrArg some (hf rows index row)

lemma ids_syncJobsJson :
    (syncJobsJson catalog rows).map BuilderRow.id = rows.map BuilderRow.id :=
  map_syncJobsJson fun _ _ _ => rfl

@[simp] lemma buildDerivedJobs_syncJobsJson :
    buildDerivedJobs (syncJobsJson catalog rows) = buildDerivedJobs rows :=
  map_syncJobsJson fun _ _ _ => rfl

lemma BuilderRow.Rendered.sync (h : row.Rendered catalog) :
    (syncRow catalog rows index row).Rendered catalog where
  names := by
    rw [syncRow, List.map_map]
    have hname : InputRow.inputName ∘ renderOutputBindingOptions
        (outputOptionsFor catalog index (buildDerivedJobs rows)) = InputRow.inputName := by
      funext input
      exact inputName_render
    rw [hname]
    exact h.names
  inputs input hinput := by
    obtain ⟨input', hinput', rfl⟩ := List.mem_map.mp hinput
    exact (h.inputs input' hinput').render

lemma outputOptionsFor_nonempty {derived : List (String × String)} {expectedKind : String} :
    ∀ option ∈ outputOptionsFor catalog place derived expectedKind, option.isEmpty = false := by
  intro option h
  obtain ⟨jobIndex, outputName, rfl⟩ := mem_outputOptionsFor h
  exact jsonStringify_isEmpty (jobOutputJson_sound jobIndex outputName)

lemma syncJobsJson_syncJobsJson (h : ∀ row ∈ rows, row.Rendered catalog) :
    syncJobsJson catalog (syncJobsJson catalog rows) = syncJobsJson catalog rows := by
  apply List.ext_getElem?
  intro index
  rw [getElem?_syncJobsJson, getElem?_syncJobsJson, Option.map_map]
  cases hrow : rows[index]? with
  | none => rfl
  | some row =>
    have hinputs := (h row (List.mem_of_getElem? hrow)).inputs
    have hagain : (row.inputs.map (renderOutputBindingOptions
          (outputOptionsFor catalog index (buildDerivedJobs rows)))).map
        (renderOutputBindingOptions (outputOptionsFor catalog index (buildDerivedJobs rows))) =
        row.inputs.map (renderOutputBindingOptions
          (outputOptionsFor catalog index (buildDerivedJobs rows))) := by
      rw [List.map_map]
      exact List.map_congr_left fun input hinput =>
        render_render (hinputs input hinput) outputOptionsFor_nonempty
    simp only [Option.map_some, Function.comp, syncRow, buildDerivedJobs_syncJobsJson]
    rw [hagain]

end

structure Builder (catalog : List RunnerCatalogEntry) where
  rows : List BuilderRow
  nextId : ℕ
  distinct : (rows.map BuilderRow.id).Nodup
  fresh : ∀ row ∈ rows, row.id < nextId
  rendered : ∀ row ∈ rows, row.Rendered catalog
  synced : syncJobsJson catalog rows = rows

abbrev Builder.edited {catalog : List RunnerCatalogEntry} (builder : Builder catalog) (edit : Edit) :
    List BuilderRow :=
  editRows catalog builder.nextId builder.rows edit

section

variable {catalog : List RunnerCatalogEntry} {builder : Builder catalog} {edit : Edit}
variable {row : BuilderRow}

lemma inputs_addWorkflowRow {id : ℕ} {rows : List BuilderRow} {input : InputRow}
    (h : input ∈ (addWorkflowRow catalog id rows (newJob catalog)).inputs) :
    ∃ name kind, input = renderInputRow (promotedArtifactSourceOptions catalog) name kind none := by
  simp only [addWorkflowRow, renderInputTable] at h
  split at h
  · cases h
  · obtain ⟨entry, -, rfl⟩ := List.mem_map.mp h
    exact ⟨entry.1, entry.2.kind, rfl⟩

lemma rendered_addWorkflowRow {id : ℕ} {rows : List BuilderRow} :
    (addWorkflowRow catalog id rows (newJob catalog)).Rendered catalog where
  names := by
    simp only [addWorkflowRow, renderInputTable]
    split
    · exact .nil
    · rw [List.map_map]
      exact objectEntries_nodup
  inputs input hinput := by
    obtain ⟨name, kind, rfl⟩ := inputs_addWorkflowRow hinput
    exact rendered_renderInputRow

lemma mem_editRows (h : row ∈ builder.edited edit) :
    row ∈ builder.rows ∨
      row = addWorkflowRow catalog builder.nextId builder.rows (newJob catalog) := by
  cases edit with
  | add => simpa [editRows] using h
  | remove index => exact .inl (List.mem_of_mem_eraseIdx h)

lemma distinct_editRows :
    ((builder.edited edit).map BuilderRow.id).Nodup := by
  cases edit with
  | add =>
    rw [Builder.edited, editRows, List.map_append, List.nodup_append]
    refine ⟨builder.distinct, List.nodup_singleton _, ?_⟩
    rintro id hid id' hid' rfl
    obtain ⟨row, hrow, rfl⟩ := List.mem_map.mp hid
    have hnew : row.id = builder.nextId := List.mem_singleton.mp hid'
    exact absurd (builder.fresh row hrow) (by omega)
  | remove index =>
    exact builder.distinct.sublist ((List.eraseIdx_sublist _ _).map _)

lemma fresh_editRows (h : row ∈ builder.edited edit) :
    row.id < builder.nextId + 1 := by
  obtain h | rfl := mem_editRows h
  · exact Nat.lt_succ_of_lt (builder.fresh row h)
  · exact Nat.lt_succ_self _

lemma rendered_editRows (h : row ∈ builder.edited edit) :
    row.Rendered catalog := by
  obtain h | rfl := mem_editRows h
  · exact builder.rendered row h
  · exact rendered_addWorkflowRow

end

def Builder.edit {catalog : List RunnerCatalogEntry} (builder : Builder catalog) (edit : Edit) :
    Builder catalog where
  rows := syncJobsJson catalog (builder.edited edit)
  nextId := builder.nextId + 1
  distinct := by
    rw [ids_syncJobsJson]
    exact distinct_editRows
  fresh row h := by
    obtain ⟨index, row, hrow, rfl⟩ := mem_syncJobsJson h
    have hfresh := fresh_editRows (List.mem_of_getElem? hrow)
    exact hfresh
  rendered row h := by
    obtain ⟨index, row, hrow, rfl⟩ := mem_syncJobsJson h
    exact (rendered_editRows (List.mem_of_getElem? hrow)).sync
  synced := syncJobsJson_syncJobsJson fun row h => rendered_editRows h

def Builder.run {catalog : List RunnerCatalogEntry} (builder : Builder catalog)
    (edits : List Edit) : Builder catalog :=
  edits.foldl Builder.edit builder

section

variable (catalog : List RunnerCatalogEntry)

def offered (expectedKind : String) (job : String × String) : List String :=
  match getJobDefinition catalog job.1 job.2 with
  | none => []
  | some definition =>
    ((objectEntries definition.outputs).filter fun output =>
      output.2.kind.asStr = expectedKind).map Prod.fst

def outputsBefore (rows : List BuilderRow) (place : ℕ) (expectedKind : String) :
    List (ℕ × String) :=
  (rows.zipIdx.take place).flatMap fun row =>
    (offered catalog expectedKind row.1.job).map fun outputName => (row.2, outputName)

end

def outputText (output : ℕ × String) : String :=
  jsonStringify (jobOutputJson output.1 output.2)

lemma outputText_isEmpty (output : ℕ × String) : (outputText output).isEmpty = false :=
  jsonStringify_isEmpty (jobOutputJson_sound output.1 output.2)

lemma outputText_injective {output output' : ℕ × String} (h : outputText output = outputText output') :
    output = output' := by
  have hjson := jsonStringify_injective (jobOutputJson_sound _ _) (jobOutputJson_sound _ _) h
  simp only [jobOutputJson, Json.object.injEq, List.cons.injEq, Prod.mk.injEq, Json.number.injEq,
    Json.string.injEq, true_and, and_true] at hjson
  exact Prod.ext (Int.natCast_inj.mp hjson.1) hjson.2

def chosenOutput (input : InputRow) : Option (ℕ × String) :=
  if input.IsOutput then
    match property "job_index" (parseOutputBinding input.field.value),
        property "output_name" (parseOutputBinding input.field.value) with
    | some (.number jobIndex), some (.string outputName) => some (jobIndex.toNat, outputName)
    | _, _ => none
  else none

section

variable {catalog : List RunnerCatalogEntry} {rows : List BuilderRow} {row : BuilderRow}
variable {place : ℕ} {expectedKind : String} {output : ℕ × String} {input : InputRow}

lemma outputOptionsFor_eq :
    outputOptionsFor catalog place (buildDerivedJobs rows) expectedKind =
      (outputsBefore catalog rows place expectedKind).map outputText := by
  rw [outputOptionsFor, outputsBefore, buildDerivedJobs, List.zipIdx_map, ← List.map_take,
    List.flatMap_map, List.map_flatMap]
  congr 1
  funext row
  rw [offered]
  simp only [Prod.map]
  cases getJobDefinition catalog row.1.job.1 row.1.job.2 with
  | none => rfl
  | some definition =>
    rw [List.map_map, List.map_map]
    rfl

lemma mem_outputsBefore : output ∈ outputsBefore catalog rows place expectedKind ↔
    output.1 < place ∧ ∃ row, rows[output.1]? = some row ∧
      output.2 ∈ offered catalog expectedKind row.job := by
  simp only [outputsBefore, List.mem_flatMap, List.mem_map]
  constructor
  · rintro ⟨row, hrow, outputName, hname, rfl⟩
    obtain ⟨index, hindex⟩ := List.getElem?_of_mem hrow
    rw [List.getElem?_take, List.getElem?_zipIdx] at hindex
    by_cases hlt : index < place
    · rw [if_pos hlt] at hindex
      obtain ⟨row', hrow', rfl⟩ := Option.map_eq_some_iff.mp hindex
      simp only [Nat.zero_add]
      exact ⟨hlt, row', hrow', hname⟩
    · rw [if_neg hlt] at hindex
      cases hindex
  · rintro ⟨hlt, row, hrow, hname⟩
    refine ⟨(row, output.1), ?_, output.2, hname, rfl⟩
    refine List.mem_of_getElem? (i := output.1) ?_
    rw [List.getElem?_take, if_pos hlt, List.getElem?_zipIdx, hrow]
    simp

lemma outputText_mem {outputs : List (ℕ × String)} :
    outputText output ∈ outputs.map outputText ↔ output ∈ outputs := by
  constructor
  · intro h
    obtain ⟨output', houtput', heq⟩ := List.mem_map.mp h
    exact outputText_injective heq ▸ houtput'
  · exact List.mem_map_of_mem

lemma chosenOutput_of_text (h : input.IsOutput) (hvalue : input.field.value = outputText output) :
    chosenOutput input = some output := by
  rw [chosenOutput, if_pos h, hvalue, outputText,
    parseOutputBinding_jsonStringify (jobOutputJson_sound _ _) rfl]
  rfl

lemma chosenOutput_of_empty (hvalue : input.field.value = "") : chosenOutput input = none := by
  rw [chosenOutput, hvalue]
  exact ite_self _

inductive Bound (outputs : List (ℕ × String)) (input : InputRow) : Prop
  | output (output : ℕ × String) (h : output ∈ outputs) (field : input.field.value = outputText output)
      (value : input.bindingValue = outputText output)
  | nothing (h : outputs = []) (field : input.field.value = "") (value : input.bindingValue = "")

lemma chosenOutput_of_not_isOutput (h : ¬input.IsOutput) : chosenOutput input = none := if_neg h

def rechosen (outputs : List (ℕ × String)) : Option (ℕ × String) → Option (ℕ × String)
  | some output => if output ∈ outputs then some output else outputs.head?
  | none => outputs.head?

section

variable {promoted : List String} {outputs outputs' : List (ℕ × String)}
variable {outputOptions : String → List String}

lemma rechosen_of_none (h : rechosen outputs (some output) = none) : outputs = [] := by
  simp only [rechosen] at h
  split at h
  · cases h
  · exact List.head?_eq_none_iff.mp h

lemma rechosen_mem {chosen : Option (ℕ × String)} (h : rechosen outputs chosen = some output) :
    output ∈ outputs := by
  cases chosen with
  | none => exact List.mem_of_head? h
  | some chosen =>
    simp only [rechosen] at h
    split at h
    · obtain rfl := Option.some.inj h
      assumption
    · exact List.mem_of_head? h

lemma Bound.chosen_cases (h : Bound outputs input) (houtput : input.IsOutput) :
    (∃ output ∈ outputs, chosenOutput input = some output) ∨
      outputs = [] ∧ chosenOutput input = none := by
  cases h with
  | output output h field value => exact .inl ⟨output, h, chosenOutput_of_text houtput field⟩
  | nothing h field value => exact .inr ⟨h, chosenOutput_of_empty field⟩

lemma chosen_eq (hbound : Bound outputs input) (houtput : input.IsOutput) :
    input.chosen (outputs'.map outputText) =
      ((rechosen outputs' (chosenOutput input)).map outputText).getD "" := by
  have hhead : (outputs'.map outputText).head?.getD "" = (outputs'.head?.map outputText).getD "" := by
    rw [List.head?_map]
  cases hbound with
  | output output h field value =>
    rw [chosenOutput_of_text houtput field, InputRow.chosen, value, outputText_isEmpty,
      if_neg Bool.false_ne_true]
    by_cases hmem : output ∈ outputs'
    · simp only [rechosen, if_pos hmem]
      exact replaceOptions_of_mem (outputText_mem.mpr hmem) (outputText_isEmpty output) _ _
    · simp only [rechosen, if_neg hmem]
      rw [replaceOptions_of_notMem_eq (mt outputText_mem.mp hmem), hhead]
  | nothing h field value =>
    have hempty : "" ∉ outputs'.map outputText := by
      intro hmem
      obtain ⟨output, -, htext⟩ := List.mem_map.mp hmem
      have hne := outputText_isEmpty output
      rw [htext] at hne
      cases hne
    rw [chosenOutput_of_empty field, InputRow.chosen, value, field, ite_self,
      replaceOptions_of_notMem_eq hempty, hhead, rechosen]

lemma bound_render (hrendered : input.Rendered promoted) (houtput : input.IsOutput)
    (hbound : Bound outputs input)
    (hoptions : outputOptions input.expectedKind = outputs'.map outputText) :
    Bound outputs' (renderOutputBindingOptions outputOptions input) ∧
      chosenOutput (renderOutputBindingOptions outputOptions input) =
        rechosen outputs' (chosenOutput input) := by
  have hagain : (renderOutputBindingOptions outputOptions input).IsOutput := by
    rwa [InputRow.IsOutput, mode_render]
  have hfield : (renderOutputBindingOptions outputOptions input).field.value =
      ((rechosen outputs' (chosenOutput input)).map outputText).getD "" := by
    rw [render_of_isOutput hrendered houtput, hoptions, chosen_eq hbound houtput]
    rfl
  have hvalue : (renderOutputBindingOptions outputOptions input).bindingValue =
      ((rechosen outputs' (chosenOutput input)).map outputText).getD "" := by
    rw [render_of_isOutput hrendered houtput, hoptions, chosen_eq hbound houtput]
  cases hchosen : rechosen outputs' (chosenOutput input) with
  | none =>
    rw [hchosen] at hfield hvalue
    refine ⟨.nothing ?_ hfield hvalue, chosenOutput_of_empty hfield⟩
    cases hinput : chosenOutput input with
    | none => exact List.head?_eq_none_iff.mp (by rwa [hinput] at hchosen)
    | some output => exact rechosen_of_none (by rwa [hinput] at hchosen)
  | some output =>
    rw [hchosen] at hfield hvalue
    exact ⟨.output output (rechosen_mem hchosen) hfield hvalue, chosenOutput_of_text hagain hfield⟩

end

end

end Janus.Web
