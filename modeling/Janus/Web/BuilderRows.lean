import Janus.Web.Reopening

/-! The rows of the page and what is made of them whenever one is added or removed:
`workflow_builder.js`, `workflow_builder_rows.js` and what they use of `workflow_builder_state.js`. -/

namespace Janus.Web

open Janus.Data Janus.Server

structure BuilderRow where
  id : ℕ
  runnerId : String
  runnerJobName : String
  inputs : List InputRow
  outcomePolicy : WorkflowJobOutcomePolicy

def BuilderRow.job (row : BuilderRow) : String × String :=
  (jsTrim row.runnerId, jsTrim row.runnerJobName)

def buildDerivedJobs (rows : List BuilderRow) : List (String × String) := rows.map BuilderRow.job

/-- The inputs have a prototype if one has been assigned to `__proto__`. -/
structure SerializedJob where
  runnerId : String
  runnerJobName : String
  inputs : BTreeMap Json
  inputsPrototype : Option Json
  outcomePolicy : WorkflowJobOutcomePolicy

def assignedPrototype (rows : List InputRow) : Option Json :=
  (rows.reverse.find? fun row => row.inputName = "__proto__").map fun row => (readInputBinding row).2

def serializeRow (row : BuilderRow) : SerializedJob where
  runnerId := row.job.1
  runnerJobName := row.job.2
  inputs := serializeInputs row.inputs
  inputsPrototype := assignedPrototype row.inputs
  outcomePolicy := row.outcomePolicy

/-- The methods of `Object.prototype`. -/
def objectMethods : List String :=
  ["constructor", "hasOwnProperty", "isPrototypeOf", "propertyIsEnumerable", "toLocaleString",
    "toString", "valueOf", "__defineGetter__", "__defineSetter__", "__lookupGetter__",
    "__lookupSetter__"]

/-- `job.inputs[inputName]`. A method, and `Object.prototype`, are values without a `kind`. -/
def SerializedJob.input (job : SerializedJob) (inputName : String) : Option Json :=
  ((job.inputs.get inputName).or (property inputName job.inputsPrototype)).or
    (if inputName = "__proto__" then some (job.inputsPrototype.getD (.object []))
    else if inputName ∈ objectMethods then some (.object [])
    else none)

def SerializedJob.isBlank (job : SerializedJob) : Bool :=
  job.runnerId.isEmpty && job.runnerJobName.isEmpty && job.inputs.entries.isEmpty

def serializeJobs (rows : List BuilderRow) : List SerializedJob :=
  (rows.map serializeRow).filter fun job => !job.isBlank

def serializedRows (rows : List BuilderRow) : List BuilderRow :=
  rows.filter fun row => !(serializeRow row).isBlank

lemma serializeJobs_eq (rows : List BuilderRow) :
    serializeJobs rows = (serializedRows rows).map serializeRow := List.filter_map

def bindingIsMissing (binding : Option Json) : Bool :=
  if (binding.map truthy).getD false = false then true
  else if hasKind binding "literal" then
    match property "value" binding with
    | none | some .null => true
    | some (.string value) => (jsTrim value).isEmpty
    | some _ => false
  else if hasKind binding "job_output" then
    match property "output_name" binding with
    | some (.string outputName) => outputName.isEmpty
    | _ => false
  else if hasKind binding "promoted_artifact" then
    ["source_runner_id", "source_job_name", "output_name"].any fun name =>
      !((property name binding).map truthy).getD false
  else false

section

variable (catalog : List RunnerCatalogEntry)

def jobErrors (job : SerializedJob) (index : ℕ) : List String :=
  let label := s!"Job {index + 1}"
  if job.runnerId.isEmpty || job.runnerJobName.isEmpty then
    (if job.runnerId.isEmpty then [label ++ ": choose a runner."] else []) ++
      (if job.runnerJobName.isEmpty then [label ++ ": choose a job."] else [])
  else
    match getJobDefinition catalog job.runnerId job.runnerJobName with
    | none => [label ++ ": selected job is not available for this runner."]
    | some definition =>
      ((objectEntries definition.inputs).filter fun input =>
        input.2.required && bindingIsMissing (job.input input.1)).map fun input =>
          label ++ ": set required input " ++ input.1 ++ "."

def validateJobs (jobs : List SerializedJob) : List String :=
  if jobs.isEmpty then ["Add at least one job."]
  else jobs.zipIdx.flatMap fun job => jobErrors catalog job.1 job.2

def fillRunnerOptions (selectedRunnerId : String) : String :=
  replaceOptions (catalog.map RunnerCatalogEntry.id) selectedRunnerId true (catalog.length = 1)

def takenJobNames (rows : List BuilderRow) (runnerId : String) : List String :=
  (rows.filter fun row => row.runnerId = runnerId).map BuilderRow.runnerJobName

def fillJobOptions (rows : List BuilderRow) (runnerId selectedJobName : String) : String :=
  let jobs := ((getRunner catalog runnerId).map RunnerCatalogEntry.jobs).getD []
  let taken := (takenJobNames rows runnerId).filter fun jobName => !jobName.isEmpty
  let availableJobs := jobs.filter fun job => job.name ∉ taken ∨ job.name = selectedJobName
  replaceOptions (availableJobs.map RunnerJobDefinition.name) selectedJobName true
    (availableJobs.length = 1)

def renderInputTable (runnerId runnerJobName : String) (inputs : BTreeMap WorkflowInputBinding) :
    List InputRow :=
  match getJobDefinition catalog runnerId runnerJobName with
  | none => []
  | some definition => (objectEntries definition.inputs).map fun input =>
      renderInputRow (promotedArtifactSourceOptions catalog) input.1 input.2.kind
        ((inputs.get input.1).map bindingJson)

def addWorkflowRow (id : ℕ) (rows : List BuilderRow) (job : WorkflowJobDefinition) : BuilderRow :=
  let runnerId := fillRunnerOptions catalog job.runnerId
  let runnerJobName := fillJobOptions catalog rows runnerId job.runnerJobName
  ⟨id, runnerId, runnerJobName, renderInputTable catalog runnerId runnerJobName job.inputs,
    job.outcomePolicy⟩

def newJob : WorkflowJobDefinition where
  runnerId := match catalog with
    | [runner] => runner.id
    | _ => ""
  runnerJobName := ""

def syncRow (rows : List BuilderRow) (index : ℕ) (row : BuilderRow) : BuilderRow :=
  { row with
    inputs := row.inputs.map
      (renderOutputBindingOptions (outputOptionsFor catalog index (buildDerivedJobs rows))) }

def syncJobsJson (rows : List BuilderRow) : List BuilderRow := rows.mapIdx (syncRow catalog rows)

inductive Edit
  | add
  | remove (index : ℕ)

def editRows (id : ℕ) (rows : List BuilderRow) : Edit → List BuilderRow
  | .add => rows ++ [addWorkflowRow catalog id rows (newJob catalog)]
  | .remove index => rows.eraseIdx index

end

abbrev InputRow.IsOutput (input : InputRow) : Prop :=
  input.mode = .outputArtifact ∨ input.mode = .outputValue

structure InputRow.Rendered (promotedArtifactOptions : List String) (input : InputRow) : Prop where
  mode : input.mode ∈ bindingModesFor input.inputKind
  select : input.IsOutput → ∃ value, input.field = .select value
  promoted : input.mode = .promotedArtifact →
    input.field.value = "" ∨ input.field.value ∈ promotedArtifactOptions

structure BuilderRow.Rendered (catalog : List RunnerCatalogEntry) (row : BuilderRow) : Prop where
  names : (row.inputs.map InputRow.inputName).Nodup
  inputs : ∀ input ∈ row.inputs, input.Rendered (promotedArtifactSourceOptions catalog)

section

variable {promoted options : List String} {name selected : String} {kind : InputType}
variable {raw : Option Json} {outputOptions : String → List String} {input : InputRow}

lemma replaceOptions_promoted :
    replaceOptions options selected true false = "" ∨
      replaceOptions options selected true false ∈ options := by
  by_cases h : selected ∈ options
  · exact .inr (by simp [replaceOptions, h])
  · exact .inl (by simp [replaceOptions, h])

lemma promotedArtifact_mem_modes (h : BindingMode.promotedArtifact ∈ bindingModesFor kind) :
    kind = .artifact := by
  cases kind <;> first | rfl | simp [bindingModesFor] at h

lemma outputMode_of_mem {mode : BindingMode} (h : mode ∈ bindingModesFor kind)
    (houtput : mode = .outputArtifact ∨ mode = .outputValue) :
    if kind = .artifact then mode = .outputArtifact else mode = .outputValue := by
  obtain rfl | rfl := houtput <;> cases kind <;> simp [bindingModesFor] at h ⊢

lemma mode_renderInputRow : (renderInputRow promoted name kind raw).mode ∈ bindingModesFor kind := by
  unfold renderInputRow
  by_cases h : (inferBinding name kind raw).mode ∈ bindingModesFor kind
  · simp only [if_pos h]
    exact h
  · simp only [if_neg h]
    cases kind <;> simp [bindingModesFor]

lemma rendered_renderInputRow : (renderInputRow promoted name kind raw).Rendered promoted where
  mode := mode_renderInputRow
  select houtput := by
    have hmode := outputMode_of_mem mode_renderInputRow houtput
    by_cases hkind : kind = .artifact
    · subst hkind
      exact ⟨_, rfl⟩
    · rw [if_neg hkind] at hmode
      refine ⟨"", ?_⟩
      simp only [renderInputRow] at hmode ⊢
      simp [valueFieldFor, hkind, hmode]
  promoted hmode := by
    have hkind := promotedArtifact_mem_modes (hmode ▸ mode_renderInputRow)
    simp only [renderInputRow] at hmode ⊢
    simp only [valueFieldFor, hkind, if_true, ValueField.value] at hmode ⊢
    simp only [hmode]
    exact replaceOptions_promoted

lemma not_isOutput_renderInputRow : ¬(renderInputRow promoted name kind none).IsOutput := by
  have hmode : (inferBinding name kind none).mode ∈ bindingModesFor kind ∧
      (inferBinding name kind none).mode ≠ .outputArtifact ∧
      (inferBinding name kind none).mode ≠ .outputValue := by
    cases kind with
    | string =>
      by_cases hcommit : name = "commit"
      · simp [inferBinding, hasKind, property, bindingModesFor, hcommit]
      · by_cases hbranch : name = "branch" <;>
          simp [inferBinding, hasKind, property, bindingModesFor, hcommit, hbranch]
    | artifact => simp [inferBinding, hasKind, property, bindingModesFor]
    | integer => simp [inferBinding, hasKind, property, bindingModesFor]
    | boolean => simp [inferBinding, hasKind, property, bindingModesFor]
    | json => simp [inferBinding, hasKind, property, bindingModesFor]
  simp only [InputRow.IsOutput, renderInputRow, if_pos hmode.1]
  exact fun h => h.elim hmode.2.1 hmode.2.2

@[simp] lemma inputName_render :
    (renderOutputBindingOptions outputOptions input).inputName = input.inputName := by
  unfold renderOutputBindingOptions
  split
  · split <;> rfl
  · rfl

@[simp] lemma inputKind_render :
    (renderOutputBindingOptions outputOptions input).inputKind = input.inputKind := by
  unfold renderOutputBindingOptions
  split
  · split <;> rfl
  · rfl

@[simp] lemma mode_render : (renderOutputBindingOptions outputOptions input).mode = input.mode := by
  unfold renderOutputBindingOptions
  split
  · split <;> rfl
  · rfl

lemma render_of_not_isOutput (h : ¬input.IsOutput) :
    renderOutputBindingOptions outputOptions input = input := by
  unfold renderOutputBindingOptions
  split
  · exact if_neg h
  · rfl

def InputRow.expectedKind (input : InputRow) : String :=
  if input.mode = .outputArtifact then "artifact" else input.inputKind.asStr

def InputRow.chosen (options : List String) (input : InputRow) : String :=
  replaceOptions options
    (if input.bindingValue.isEmpty then input.field.value else input.bindingValue) options.isEmpty true

lemma render_of_isOutput (hrendered : input.Rendered promoted) (h : input.IsOutput) :
    renderOutputBindingOptions outputOptions input =
      { input with
        field := .select (input.chosen (outputOptions input.expectedKind))
        bindingValue := input.chosen (outputOptions input.expectedKind) } := by
  obtain ⟨value, hvalue⟩ := hrendered.select h
  unfold renderOutputBindingOptions
  simp only [hvalue, if_pos h]
  simp only [InputRow.chosen, InputRow.expectedKind, hvalue, ValueField.value]

lemma InputRow.Rendered.render (h : input.Rendered promoted) :
    (renderOutputBindingOptions outputOptions input).Rendered promoted := by
  by_cases houtput : input.IsOutput
  · rw [render_of_isOutput h houtput]
    refine ⟨h.mode, fun _ => ⟨_, rfl⟩, fun hmode => ?_⟩
    simp only at hmode
    obtain hmode' | hmode' := houtput <;> rw [hmode'] at hmode <;> cases hmode
  · rw [render_of_not_isOutput houtput]
    exact h

lemma replaceOptions_of_notMem_eq (h : selected ∉ options) :
    replaceOptions options selected options.isEmpty true = options.head?.getD "" := by
  cases options with
  | nil => simp [replaceOptions]
  | cons option options =>
    rw [List.mem_cons, not_or] at h
    simp [replaceOptions, h.1, h.2]

/-- A select of outputs stands on one of them, if there are any. -/
def Settled (options : List String) (value : String) : Prop :=
  value ∈ options ∨ value = "" ∧ options = []

lemma settled_replaceOptions (hoptions : ∀ option ∈ options, option.isEmpty = false) :
    Settled options (replaceOptions options selected options.isEmpty true) := by
  by_cases h : selected ∈ options
  · rw [replaceOptions_of_mem h (hoptions selected h)]
    exact .inl h
  · rw [replaceOptions_of_notMem_eq h]
    cases options with
    | nil => exact .inr ⟨rfl, rfl⟩
    | cons option options => exact .inl List.mem_cons_self

lemma Settled.replaceOptions_eq (h : Settled options selected)
    (hoptions : ∀ option ∈ options, option.isEmpty = false) :
    replaceOptions options selected options.isEmpty true = selected := by
  obtain h | ⟨rfl, rfl⟩ := h
  · exact replaceOptions_of_mem h (hoptions selected h) _ _
  · rfl

lemma render_render (hrendered : input.Rendered promoted)
    (hoptions : ∀ option ∈ outputOptions input.expectedKind, option.isEmpty = false) :
    renderOutputBindingOptions outputOptions (renderOutputBindingOptions outputOptions input) =
      renderOutputBindingOptions outputOptions input := by
  by_cases houtput : input.IsOutput
  · have hsettled : Settled (outputOptions input.expectedKind)
        (input.chosen (outputOptions input.expectedKind)) := settled_replaceOptions hoptions
    have hagain : (renderOutputBindingOptions outputOptions input).IsOutput := by
      rwa [InputRow.IsOutput, mode_render]
    rw [render_of_isOutput hrendered.render hagain, render_of_isOutput hrendered houtput]
    have hkind : InputRow.expectedKind
        { input with
          field := .select (input.chosen (outputOptions input.expectedKind))
          bindingValue := input.chosen (outputOptions input.expectedKind) } = input.expectedKind :=
      rfl
    have hchosen : InputRow.chosen (outputOptions input.expectedKind)
        { input with
          field := .select (input.chosen (outputOptions input.expectedKind))
          bindingValue := input.chosen (outputOptions input.expectedKind) } =
        input.chosen (outputOptions input.expectedKind) := by
      rw [InputRow.chosen]
      simp only [ValueField.value, ite_self]
      exact hsettled.replaceOptions_eq hoptions
    simp only [hkind, hchosen]
  · rw [render_of_not_isOutput houtput, render_of_not_isOutput houtput]

end

end Janus.Web
