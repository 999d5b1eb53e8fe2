import Janus.Web.RowEdits

/-! What is sent of the bindings after rows have been added and removed. -/

namespace Janus.Web

open Janus.Data Janus.Server

section

variable {catalog : List RunnerCatalogEntry} {promoted : List String} {input : InputRow}
variable {output : ℕ × String}

def unboundBinding (kind : InputType) (value : String) : Json :=
  match kind with
  | .artifact => kindJson "source_artifact"
  | .string => literalJson (.string "")
  | kind => readLiteralBinding kind value

lemma readInputBinding_of_isOutput (hrendered : input.Rendered promoted) (h : input.IsOutput) :
    (readInputBinding input).2 = (parseOutputBinding input.field.value).getD
      (unboundBinding input.inputKind input.field.value) := by
  have hmode := outputMode_of_mem hrendered.mode h
  obtain ⟨name, kind, mode, field, value⟩ := input
  simp only at hmode ⊢
  cases hparse : parseOutputBinding field.value <;> cases kind <;>
    simp only [reduceCtorEq, if_true, if_false] at hmode <;> subst hmode <;>
    simp [readInputBinding, unboundBinding, hparse]

lemma readInputBinding_of_text (hrendered : input.Rendered promoted) (h : input.IsOutput)
    (hvalue : input.field.value = outputText output) :
    (readInputBinding input).2 = jobOutputJson output.1 output.2 := by
  rw [readInputBinding_of_isOutput hrendered h, hvalue, outputText,
    parseOutputBinding_jsonStringify (jobOutputJson_sound _ _) rfl]
  rfl

lemma readInputBinding_of_empty (hrendered : input.Rendered promoted) (h : input.IsOutput)
    (hvalue : input.field.value = "") :
    (readInputBinding input).2 = unboundBinding input.inputKind "" := by
  rw [readInputBinding_of_isOutput hrendered h, hvalue]
  rfl

lemma hasKind_literalJson (x : Json) : hasKind (some (literalJson x)) "job_output" = false := by
  simp [hasKind, property, literalJson]

lemma hasKind_kindJson {kind : String} (h : kind ≠ "job_output") :
    hasKind (some (kindJson kind)) "job_output" = false := by
  simp [hasKind, property, kindJson, h]

lemma hasKind_promotedArtifactJson (sourceRunnerId sourceJobName outputName : String) :
    hasKind (some (promotedArtifactJson sourceRunnerId sourceJobName outputName)) "job_output" =
      false := by
  simp [hasKind, property, promotedArtifactJson]

lemma hasKind_unboundBinding (kind : InputType) (value : String) :
    hasKind (some (unboundBinding kind value)) "job_output" = false := by
  cases kind with
  | artifact => exact hasKind_kindJson (by decide)
  | string => exact hasKind_literalJson _
  | integer =>
    obtain ⟨x, hx⟩ := readLiteralBinding_literal .integer value
    rw [unboundBinding, hx]
    · exact hasKind_literalJson x
    · decide
    · decide
  | boolean => exact hasKind_literalJson _
  | json =>
    obtain ⟨x, hx⟩ := readLiteralBinding_literal .json value
    rw [unboundBinding, hx]
    · exact hasKind_literalJson x
    · decide
    · decide

lemma readInputBinding_literal {kind : InputType} (hkind : kind ≠ .artifact ∧ kind ≠ .string)
    (name value : String) (field : ValueField) :
    (readInputBinding ⟨name, kind, .literal, field, value⟩).2 = readLiteralBinding kind field.value := by
  cases kind <;> simp_all [readInputBinding]

lemma hasKind_of_not_isOutput (hrendered : input.Rendered (promotedArtifactSourceOptions catalog))
    (h : ¬input.IsOutput) : hasKind (some (readInputBinding input).2) "job_output" = false := by
  have hliteral (kind : InputType) (value : String) :
      hasKind (some (readLiteralBinding kind value)) "job_output" = false := by
    obtain ⟨x, hx⟩ := readLiteralBinding_literal kind value
    rw [hx]
    exact hasKind_literalJson x
  have hpromoted := hrendered.promoted
  have hmode := hrendered.mode
  obtain ⟨name, kind, mode, field, value⟩ := input
  simp only [InputRow.IsOutput, not_or] at h hmode hpromoted
  cases kind with
  | artifact =>
    simp only [bindingModesFor, List.mem_cons, List.not_mem_nil, or_false, h.1, false_or] at hmode
    obtain rfl | rfl := hmode
    · exact hasKind_kindJson (by decide)
    · obtain hempty | hmem := hpromoted rfl
      · simp only [readInputBinding, hempty]
        exact hasKind_promotedArtifactJson "" "" ""
      · obtain ⟨runner, -, hmem⟩ := List.mem_flatMap.mp hmem
        obtain ⟨job, -, hmem⟩ := List.mem_flatMap.mp hmem
        obtain ⟨output, -, hvalue⟩ := List.mem_map.mp hmem
        simp only [readInputBinding, ← hvalue,
          parseOutputBinding_jsonStringify (promotedArtifactJson_sound _ _ _) rfl, Option.getD_some]
        exact hasKind_promotedArtifactJson _ _ _
  | string =>
    simp only [bindingModesFor, List.mem_cons, List.not_mem_nil, or_false, h.2, false_or] at hmode
    obtain rfl | rfl | rfl := hmode
    · exact hasKind_literalJson _
    · exact hasKind_kindJson (by decide)
    · exact hasKind_kindJson (by decide)
  | integer =>
    simp only [bindingModesFor, List.mem_cons, List.not_mem_nil, or_false, h.2] at hmode
    subst hmode
    rw [readInputBinding_literal (by decide)]
    exact hliteral .integer field.value
  | boolean =>
    simp only [bindingModesFor, List.mem_cons, List.not_mem_nil, or_false, h.2] at hmode
    subst hmode
    rw [readInputBinding_literal (by decide)]
    exact hliteral .boolean field.value
  | json =>
    simp only [bindingModesFor, List.mem_cons, List.not_mem_nil, or_false, h.2] at hmode
    subst hmode
    rw [readInputBinding_literal (by decide)]
    exact hliteral .json field.value

lemma bindingIsMissing_unboundBinding {kind : InputType} (h : kind = .string ∨ kind = .integer) :
    bindingIsMissing (some (unboundBinding kind "")) = true := by
  obtain rfl | rfl := h <;> rfl

end

/-- What is sent after some edits, compared with what was chosen before them. An input of the name
`__proto__` is not sent. -/
structure SameBindings (catalog : List RunnerCatalogEntry) (before after : List BuilderRow) :
    Prop where
  designates : ∀ row ∈ serializedRows after, ∀ name,
    hasKind ((serializeRow row).inputs.get name) "job_output" = true →
    ∃ row₀ ∈ before, row₀.id = row.id ∧ ∃ input ∈ row₀.inputs, input.inputName = name ∧
      ∃ jobIndex outputName source,
        (serializeRow row).inputs.get name = some (jobOutputJson jobIndex outputName) ∧
        (serializedRows after)[jobIndex]? = some source ∧
        chosenSource before input = some (source.id, outputName)
  kept : ∀ row₀ ∈ before, ∀ input ∈ row₀.inputs, input.inputName ≠ "__proto__" →
    ∀ source, chosenSource before input = some source → source.1 ∈ after.map BuilderRow.id →
    ∀ row ∈ after, row.id = row₀.id →
      hasKind ((serializeRow row).inputs.get input.inputName) "job_output" = true
  missing : ∀ row₀ ∈ before, ∀ input ∈ row₀.inputs, input.inputName ≠ "__proto__" →
    ∀ source, chosenSource before input = some source → source.1 ∉ after.map BuilderRow.id →
    ∀ row ∈ after, row.id = row₀.id →
      bindingIsMissing ((serializeRow row).inputs.get input.inputName) = true
  reported : ∀ row₀ ∈ before, ∀ input ∈ row₀.inputs, input.inputName ≠ "__proto__" →
    ∀ source, chosenSource before input = some source → source.1 ∉ after.map BuilderRow.id →
    ∀ index row, (serializedRows after)[index]? = some row → row.id = row₀.id →
    ∀ definition inputDef, getJobDefinition catalog row.job.1 row.job.2 = some definition →
      definition.inputs.get input.inputName = some inputDef → inputDef.required = true →
      row.job.1 ≠ "" → row.job.2 ≠ "" →
      s!"Job {index + 1}: set required input {input.inputName}." ∈
        validateJobs catalog (serializeJobs after)

section

variable {catalog : List RunnerCatalogEntry} {builder builder' : Builder catalog}
variable {row source : BuilderRow} {input : InputRow} {place : ℕ} {output : ℕ × String}

lemma getElem?_serializedRows {rows : List BuilderRow} (h : rows[place]? = some source)
    (hblank : NoBlank (rows.take (place + 1))) : (serializedRows rows)[place]? = some source := by
  have hkept : serializedRows (rows.take (place + 1)) = rows.take (place + 1) := by
    refine List.filter_eq_self.mpr fun row hrow => ?_
    rw [hblank row hrow]
    rfl
  have hlt : place < rows.length := (List.getElem?_eq_some_iff.mp h).1
  rw [serializedRows, ← List.take_append_drop (place + 1) rows, List.filter_append]
  rw [serializedRows] at hkept
  rw [hkept, List.getElem?_append_left (by rw [List.length_take]; omega), List.getElem?_take,
    if_pos (Nat.lt_succ_self _), h]

lemma Builder.sent_cases (haligned : Aligned builder.rows) (hrow : row ∈ builder.rows)
    (hinput : input ∈ row.inputs) (houtput : input.IsOutput) (hname : input.inputName ≠ "__proto__") :
    (∃ jobIndex outputName source, (readInputBinding input).2 = jobOutputJson jobIndex outputName ∧
      (serializedRows builder.rows)[jobIndex]? = some source ∧
      chosenSource builder.rows input = some (source.id, outputName)) ∨
    (readInputBinding input).2 = unboundBinding input.inputKind "" ∧
      chosenSource builder.rows input = none := by
  have hrendered := (builder.rendered row hrow).inputs input hinput
  obtain ⟨place, hplace⟩ := List.getElem?_of_mem hrow
  cases Builder.bound hplace hinput houtput with
  | output output h field value =>
    obtain ⟨-, source, hsource, -⟩ := mem_outputsBefore.mp h
    have hchosen := chosenOutput_of_text houtput field
    refine .inl ⟨output.1, output.2, source, readInputBinding_of_text hrendered houtput field,
      getElem?_serializedRows hsource (haligned row hrow input hinput hname output hchosen), ?_⟩
    rw [chosenSource, hchosen, Option.bind_some, hsource]
    rfl
  | nothing h field value =>
    refine .inr ⟨readInputBinding_of_empty hrendered houtput field, ?_⟩
    rw [chosenSource, chosenOutput_of_empty field]
    rfl

lemma SerializedJob.input_of_get {job : SerializedJob} {name : String} {binding : Json}
    (h : job.inputs.get name = some binding) : job.input name = some binding := by
  rw [SerializedJob.input, h]
  rfl

lemma Builder.get_serializeRow (hrow : row ∈ builder.rows) (hinput : input ∈ row.inputs)
    (hname : input.inputName ≠ "__proto__") :
    (serializeRow row).inputs.get input.inputName = some (readInputBinding input).2 :=
  get_serializeInputs hinput (builder.rendered row hrow).names hname

lemma mem_validateJobs {rows : List BuilderRow} {index : ℕ} {definition : RunnerJobDefinition}
    {name : String} {inputDef : JobInputDefinition}
    (hrow : (serializedRows rows)[index]? = some row)
    (hdefinition : getJobDefinition catalog row.job.1 row.job.2 = some definition)
    (hinput : definition.inputs.get name = some inputDef) (hrequired : inputDef.required = true)
    (hrunner : row.job.1 ≠ "") (hjob : row.job.2 ≠ "")
    (hmissing : bindingIsMissing ((serializeRow row).input name) = true) :
    s!"Job {index + 1}: set required input {name}." ∈ validateJobs catalog (serializeJobs rows) := by
  have hserialized : (serializeJobs rows)[index]? = some (serializeRow row) := by
    rw [serializeJobs_eq, List.getElem?_map, hrow]
    rfl
  have hne : (serializeJobs rows).isEmpty = false := by
    cases hjobs : serializeJobs rows with
    | nil => rw [hjobs] at hserialized; cases hserialized
    | cons job jobs => rfl
  have hzip : (serializeRow row, index) ∈ (serializeJobs rows).zipIdx := by
    refine List.mem_of_getElem? (i := index) ?_
    rw [List.getElem?_zipIdx, hserialized]
    simp
  rw [validateJobs, hne, if_neg Bool.false_ne_true]
  refine List.mem_flatMap.mpr ⟨_, hzip, ?_⟩
  have hblank : ((serializeRow row).runnerId.isEmpty || (serializeRow row).runnerJobName.isEmpty) =
      false := by
    simpa [serializeRow] using And.intro hrunner hjob
  have hfound : getJobDefinition catalog (serializeRow row).runnerId
      (serializeRow row).runnerJobName = some definition := hdefinition
  rw [jobErrors]
  simp only [hblank, hfound, Bool.false_eq_true, if_false]
  refine List.mem_map.mpr ⟨(name, inputDef), List.mem_filter.mpr
    ⟨mem_objectEntries.mpr hinput, by simp [hrequired, hmissing]⟩, ?_⟩
  simp [String.append_assoc, toString]

lemma isOutput_of_chosen {rows : List BuilderRow} {place : ℕ × String}
    (h : chosenSource rows input = some place) : input.IsOutput := by
  by_contra hnot
  rw [chosenSource_of_not_isOutput hnot] at h
  cases h

section

variable {row₀ : BuilderRow} {chosen : ℕ × String}

lemma Retains.input_after (h : Retains builder builder') (hrow₀ : row₀ ∈ builder.rows)
    (hinput : input ∈ row₀.inputs) (hrow : row ∈ builder'.rows) (hid : row.id = row₀.id) :
    ∃ input' ∈ row.inputs, Follows builder.rows builder'.rows input input' := by
  obtain ⟨row₁, hrow₁, hid₁, hinputs⟩ := h.old row hrow (hid ▸ builder.fresh row₀ hrow₀)
  obtain rfl := List.inj_on_of_nodup_map builder.distinct hrow₁ hrow₀ (hid₁.trans hid)
  exact hinputs.after input hinput

lemma Retains.sent_missing (h : Retains builder builder') (haligned : Aligned builder'.rows)
    (hrow₀ : row₀ ∈ builder.rows) (hinput : input ∈ row₀.inputs)
    (hname : input.inputName ≠ "__proto__") (hsource : chosenSource builder.rows input = some chosen)
    (hgone : chosen.1 ∉ builder'.rows.map BuilderRow.id) (hrow : row ∈ builder'.rows)
    (hid : row.id = row₀.id) :
    ∃ binding, (serializeRow row).inputs.get input.inputName = some binding ∧
      bindingIsMissing (some binding) = true := by
  obtain ⟨input', hinput', hfollows⟩ := h.input_after hrow₀ hinput hrow hid
  have houtput := isOutput_of_chosen hsource
  have hname' : input'.inputName ≠ "__proto__" := hfollows.name ▸ hname
  have hnone : chosenSource builder'.rows input' = none := by
    rw [hfollows.source hname, hsource, Option.filter_some, if_neg (by simpa using hgone)]
  refine ⟨(readInputBinding input').2, ?_, ?_⟩
  · rw [← hfollows.name]
    exact Builder.get_serializeRow hrow hinput' hname'
  · obtain ⟨jobIndex, outputName, found, -, -, hfound⟩ | ⟨hsent, -⟩ :=
      Builder.sent_cases haligned hrow hinput' (hfollows.isOutput.mpr houtput) hname'
    · rw [hnone] at hfound
      cases hfound
    · rw [hsent]
      exact bindingIsMissing_unboundBinding
        (hfollows.kind ▸ hfollows.lost hname chosen hsource hgone)

lemma Retains.sent_kept (h : Retains builder builder') (haligned : Aligned builder'.rows)
    (hrow₀ : row₀ ∈ builder.rows) (hinput : input ∈ row₀.inputs)
    (hname : input.inputName ≠ "__proto__") (hsource : chosenSource builder.rows input = some chosen)
    (hstays : chosen.1 ∈ builder'.rows.map BuilderRow.id) (hrow : row ∈ builder'.rows)
    (hid : row.id = row₀.id) :
    hasKind ((serializeRow row).inputs.get input.inputName) "job_output" = true := by
  obtain ⟨input', hinput', hfollows⟩ := h.input_after hrow₀ hinput hrow hid
  have houtput := isOutput_of_chosen hsource
  have hname' : input'.inputName ≠ "__proto__" := hfollows.name ▸ hname
  rw [← hfollows.name, Builder.get_serializeRow hrow hinput' hname']
  obtain ⟨jobIndex, outputName, found, hsent, -, -⟩ | ⟨-, hnone⟩ :=
    Builder.sent_cases haligned hrow hinput' (hfollows.isOutput.mpr houtput) hname'
  · rw [hsent]
    simp [hasKind, property, jobOutputJson]
  · rw [hfollows.source hname, hsource, Option.filter_some, if_pos (decide_eq_true hstays)] at hnone
    cases hnone

end

lemma Builder.sent_input {name : String} (hrow : row ∈ builder.rows)
    (hjob : hasKind ((serializeRow row).inputs.get name) "job_output" = true) :
    name ≠ "__proto__" ∧ ∃ input ∈ row.inputs, input.inputName = name ∧ input.IsOutput := by
  have hfound : name ≠ "__proto__" ∧ ∃ input ∈ row.inputs, input.inputName = name := by
    by_contra hnot
    have hget : (serializeRow row).inputs.get name = none :=
      get_serializeInputs_of_notMem fun input hinput hname => by
        by_contra hne
        exact hnot ⟨hne, input, hinput, hname⟩
    rw [hget] at hjob
    cases hjob
  obtain ⟨hname, input, hinput, rfl⟩ := hfound
  refine ⟨hname, input, hinput, rfl, ?_⟩
  by_contra hnot
  rw [Builder.get_serializeRow hrow hinput hname,
    hasKind_of_not_isOutput ((builder.rendered row hrow).inputs input hinput) hnot] at hjob
  cases hjob

lemma Retains.sent_before (h : Retains builder builder') (haligned : Aligned builder'.rows)
    (hrow : row ∈ builder'.rows) {name : String}
    (hjob : hasKind ((serializeRow row).inputs.get name) "job_output" = true) :
    ∃ row₀ ∈ builder.rows, row₀.id = row.id ∧ ∃ input ∈ row₀.inputs, input.inputName = name ∧
      ∃ jobIndex outputName source,
        (serializeRow row).inputs.get name = some (jobOutputJson jobIndex outputName) ∧
        (serializedRows builder'.rows)[jobIndex]? = some source ∧
        chosenSource builder.rows input = some (source.id, outputName) := by
  obtain ⟨hname, input', hinput', rfl, houtput⟩ := Builder.sent_input hrow hjob
  rw [Builder.get_serializeRow hrow hinput' hname] at hjob ⊢
  have hlt : row.id < builder.nextId := by
    by_contra hnew
    exact h.new row hrow (not_lt.mp hnew) input' hinput' houtput
  obtain ⟨row₀, hrow₀, hid, hinputs⟩ := h.old row hrow hlt
  obtain ⟨input, hinput, hfollows⟩ := hinputs.before input' hinput'
  refine ⟨row₀, hrow₀, hid, input, hinput, hfollows.name.symm, ?_⟩
  obtain ⟨jobIndex, outputName, source, hsent, hget, hsource⟩ | ⟨hsent, -⟩ :=
    Builder.sent_cases haligned hrow hinput' houtput hname
  · rw [hfollows.source (hfollows.name ▸ hname)] at hsource
    exact ⟨jobIndex, outputName, source, congrArg some hsent, hget,
      (Option.filter_eq_some_iff.mp hsource).1⟩
  · rw [hsent, hasKind_unboundBinding] at hjob
    cases hjob

lemma Retains.sameBindings (h : Retains builder builder') (haligned : Aligned builder'.rows) :
    SameBindings catalog builder.rows builder'.rows where
  designates row hrow name hjob := h.sent_before haligned (List.mem_filter.mp hrow).1 hjob
  kept row₀ hrow₀ input hinput hname source hsource hstays row hrow hid :=
    h.sent_kept haligned hrow₀ hinput hname hsource hstays hrow hid
  missing row₀ hrow₀ input hinput hname source hsource hgone row hrow hid := by
    obtain ⟨binding, hget, hmissing⟩ :=
      h.sent_missing haligned hrow₀ hinput hname hsource hgone hrow hid
    rwa [hget]
  reported row₀ hrow₀ input hinput hname source hsource hgone index row hrow hid definition inputDef
      hdefinition hinputDef hrequired hrunner hjob := by
    have hrow' : row ∈ builder'.rows := (List.mem_filter.mp (List.mem_of_getElem? hrow)).1
    obtain ⟨binding, hget, hmissing⟩ :=
      h.sent_missing haligned hrow₀ hinput hname hsource hgone hrow' hid
    refine mem_validateJobs hrow hdefinition hinputDef hrequired hrunner hjob ?_
    rwa [SerializedJob.input_of_get hget]

end

/-- As long as no edit harms a binding, what is sent is what was chosen. -/
theorem sameBindings_run {catalog : List RunnerCatalogEntry} {builder : Builder catalog}
    {edits : List Edit} (hne : edits ≠ []) (h : builder.SafeRun edits) :
    SameBindings catalog builder.rows (builder.run edits).rows := by
  obtain ⟨hretains, haligned⟩ := retains_run h
  exact hretains.sameBindings (haligned hne)

def reportingJob (name : String) : RunnerJobDefinition where
  name := name
  concurrency := .parallel
  timeoutSeconds := 60
  inputs := .empty
  outputs := .ofList [("report", ⟨.string, "report.txt", true⟩)]

def deployJob : RunnerJobDefinition where
  name := "deploy"
  concurrency := .parallel
  timeoutSeconds := 60
  inputs := .ofList [("report", ⟨.string, true, false, none, none, none⟩)]
  outputs := .empty

def reportCatalog : List RunnerCatalogEntry :=
  [⟨"linux", "Linux", [reportingJob "build", reportingJob "test", reportingJob "lint", deployJob]⟩]

def reportInput : InputRow :=
  ⟨"report", .string, .outputValue, .select (outputText (1, "report")), outputText (1, "report")⟩

def buildRow : BuilderRow := ⟨0, "linux", "build", [], .required⟩
def testRow : BuilderRow := ⟨1, "linux", "test", [], .required⟩
def lintRow : BuilderRow := ⟨2, "linux", "lint", [], .required⟩
def deployRow : BuilderRow := ⟨3, "linux", "deploy", [reportInput], .required⟩

section

variable {rows : List BuilderRow} {row : BuilderRow} {place : ℕ}

lemma report_mem_offered {name : String} (h : name ∈ ["build", "test", "lint"]) :
    "report" ∈ offered reportCatalog "string" ("linux", name) := by
  have hmem : ("report", ⟨.string, "report.txt", true⟩) ∈
      objectEntries (reportingJob name).outputs := mem_objectEntries.mpr rfl
  have hdefinition : getJobDefinition reportCatalog "linux" name = some (reportingJob name) := by
    simp only [List.mem_cons, List.not_mem_nil, or_false] at h
    obtain rfl | rfl | rfl := h <;> rfl
  rw [offered, hdefinition]
  exact List.mem_map.mpr ⟨_, List.mem_filter.mpr ⟨hmem, by decide⟩, rfl⟩

lemma chosenOutput_reportInput : chosenOutput reportInput = some (1, "report") := by
  have hvalue : reportInput.field.value = outputText (1, "report") := rfl
  exact chosenOutput_of_text (.inr rfl) hvalue

lemma rendered_reportInput : reportInput.Rendered (promotedArtifactSourceOptions reportCatalog) :=
  ⟨by decide, fun _ => ⟨_, rfl⟩, fun h => by cases h⟩

lemma syncRow_deployRow (hplace : 1 < place) (hrow : rows[1]? = some row)
    (hjob : row = testRow ∨ row = lintRow) :
    syncRow reportCatalog rows place deployRow = deployRow := by
  have hmem : (1, "report") ∈ outputsBefore reportCatalog rows place "string" := by
    refine mem_outputsBefore.mpr ⟨hplace, row, hrow, ?_⟩
    obtain rfl | rfl := hjob
    · exact report_mem_offered (by decide)
    · exact report_mem_offered (by decide)
  have hbound : Bound (outputsBefore reportCatalog rows place "string") reportInput :=
    .output (1, "report") hmem rfl rfl
  have hchosen : reportInput.chosen ((outputsBefore reportCatalog rows place "string").map
      outputText) = outputText (1, "report") := by
    rw [chosen_eq hbound (.inr rfl), chosenOutput_reportInput, rechosen, if_pos hmem]
    rfl
  have hrender : renderOutputBindingOptions
      (outputOptionsFor reportCatalog place (buildDerivedJobs rows)) reportInput = reportInput := by
    rw [render_of_isOutput rendered_reportInput (.inr rfl), outputOptionsFor_eq]
    simp only [show reportInput.expectedKind = "string" from rfl, hchosen]
    rfl
  rw [syncRow, deployRow, List.map_cons, hrender]
  rfl

end

lemma distinct_reportRows : ([buildRow, testRow, lintRow, deployRow].map BuilderRow.id).Nodup := by
  decide

def reportBuilder : Builder reportCatalog where
  rows := [buildRow, testRow, lintRow, deployRow]
  nextId := 4
  distinct := distinct_reportRows
  fresh := by
    intro row hrow
    simp only [List.mem_cons, List.not_mem_nil, or_false] at hrow
    obtain rfl | rfl | rfl | rfl := hrow <;> decide
  rendered := by
    intro row hrow
    simp only [List.mem_cons, List.not_mem_nil, or_false] at hrow
    obtain rfl | rfl | rfl | rfl := hrow
    · exact ⟨.nil, fun _ h => by cases h⟩
    · exact ⟨.nil, fun _ h => by cases h⟩
    · exact ⟨.nil, fun _ h => by cases h⟩
    · refine ⟨List.nodup_singleton _, fun input hinput => ?_⟩
      obtain rfl := List.mem_singleton.mp hinput
      exact rendered_reportInput
  synced := by
    have hdeploy : syncRow reportCatalog [buildRow, testRow, lintRow, deployRow] 3 deployRow =
        deployRow := syncRow_deployRow (by decide) rfl (.inl rfl)
    exact congrArg (fun row => [buildRow, testRow, lintRow, row]) hdeploy

lemma noBlank_reportRows : NoBlank [buildRow, testRow, lintRow, deployRow] := by
  intro row hrow
  simp only [List.mem_cons, List.not_mem_nil, or_false] at hrow
  obtain rfl | rfl | rfl | rfl := hrow <;> decide

lemma safeRun_report : reportBuilder.SafeRun [.remove 2] := by
  refine ⟨fun place row hrow input hinput _ output source hchosen hsource => ?_, trivial⟩
  have hmem : row ∈ [buildRow, testRow, deployRow] := List.mem_of_getElem? hrow
  have hreport : input = reportInput := by
    simp only [List.mem_cons, List.not_mem_nil, or_false] at hmem
    obtain rfl | rfl | rfl := hmem
    · cases hinput
    · cases hinput
    · exact List.mem_singleton.mp hinput
  subst hreport
  rw [chosenOutput_reportInput] at hchosen
  obtain rfl := Option.some.inj hchosen
  obtain rfl : testRow = source := Option.some.inj hsource
  refine .stays rfl fun row hrow => noBlank_reportRows row ?_
  have htake : row ∈ [buildRow, testRow] := hrow
  simp only [List.mem_cons, List.not_mem_nil, or_false] at htake ⊢
  tauto

theorem sameBindings_run_report : SameBindings reportCatalog reportBuilder.rows
    (reportBuilder.run [.remove 2]).rows :=
  sameBindings_run (List.cons_ne_nil _ _) safeRun_report

theorem report_retargeted :
    ¬∀ (catalog : List RunnerCatalogEntry) (builder : Builder catalog) (edits : List Edit),
      edits ≠ [] → SameBindings catalog builder.rows (builder.run edits).rows := by
  intro h
  have hsame := h reportCatalog reportBuilder [.remove 0] (List.cons_ne_nil _ _)
  have hdeploy : syncRow reportCatalog [testRow, lintRow, deployRow] 2 deployRow = deployRow :=
    syncRow_deployRow (by decide) rfl (.inr rfl)
  have hafter : (reportBuilder.run [.remove 0]).rows = [testRow, lintRow, deployRow] :=
    congrArg (fun row => [testRow, lintRow, row]) hdeploy
  have hsent : serializedRows [testRow, lintRow, deployRow] = [testRow, lintRow, deployRow] := rfl
  have hread : (readInputBinding reportInput).2 = jobOutputJson 1 "report" :=
    readInputBinding_of_text rendered_reportInput (.inr rfl) rfl
  have hget : (serializeRow deployRow).inputs.get "report" = some (jobOutputJson 1 "report") := by
    rw [← hread]
    exact get_serializeInputs (List.mem_singleton_self reportInput) (List.nodup_singleton _)
      (by decide)
  rw [hafter] at hsame
  obtain ⟨row₀, hrow₀, hid, input, hinput, -, jobIndex, outputName, source, hjob, hsource, hchosen⟩ :=
    hsame.designates deployRow (by rw [hsent]; simp) "report" (by rw [hget]; rfl)
  rw [hget] at hjob
  rw [hsent] at hsource
  have hindex : (1, "report") = (jobIndex, outputName) :=
    outputText_injective (congrArg jsonStringify (Option.some.inj hjob))
  obtain ⟨rfl, rfl⟩ := Prod.mk.inj hindex
  obtain rfl : lintRow = source := Option.some.inj hsource
  have hbefore : row₀ ∈ [buildRow, testRow, lintRow, deployRow] := hrow₀
  simp only [List.mem_cons, List.not_mem_nil, or_false] at hbefore
  obtain rfl | rfl | rfl | rfl := hbefore
  · cases hinput
  · cases hinput
  · cases hinput
  · obtain rfl := List.mem_singleton.mp hinput
    have hchosen' : chosenSource reportBuilder.rows reportInput = some (testRow.id, "report") := by
      rw [chosenSource, chosenOutput_reportInput]
      rfl
    rw [hchosen'] at hchosen
    have hid' : testRow.id = lintRow.id := congrArg Prod.fst (Option.some.inj hchosen)
    exact absurd hid' (by decide)

end Janus.Web
