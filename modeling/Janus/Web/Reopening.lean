import Janus.Web.BuilderBindings

/-! A workflow that the server accepts, opened on the page and saved again. -/

namespace Janus.Web

open Janus.Data Janus.Server

section

variable {α : Type} {fields : BTreeMap α} {name : String} {a : α}

lemma objectEntries_perm : (objectEntries fields).Perm fields.entries := by
  refine ((List.mergeSort_perm _ _).append_right _).trans ?_
  have hnot : fields.entries.filter (fun e => (arrayIndex e.1).isNone) =
      fields.entries.filter fun e => !(arrayIndex e.1).isSome := by
    refine List.filter_congr fun e _ => ?_
    cases arrayIndex e.1 <;> rfl
  rw [hnot]
  exact List.filter_append_perm _ _

lemma mem_objectEntries : (name, a) ∈ objectEntries fields ↔ fields.get name = some a := by
  rw [objectEntries_perm.mem_iff, OrderedMap.get_eq_some_iff]

lemma objectEntries_nodup : ((objectEntries fields).map Prod.fst).Nodup :=
  (objectEntries_perm.map Prod.fst).nodup_iff.mpr fields.keys_nodup

end

section

variable {rows : List InputRow} {row : InputRow}

lemma serializeInputs_eq : serializeInputs rows =
    (rows.filter fun row => row.inputName ≠ "__proto__").foldl
      (fun inputs row => inputs.insert row.inputName (readInputBinding row).2) .empty := by
  rw [serializeInputs, List.foldl_map, List.foldl_filter]
  congr 1
  funext inputs row
  by_cases hproto : row.inputName = "__proto__" <;> simp [readInputBinding, hproto]

lemma get_serializeInputs_of_notMem {name : String}
    (h : ∀ row ∈ rows, row.inputName = name → name = "__proto__") :
    (serializeInputs rows).get name = none := by
  rw [serializeInputs_eq, OrderedMap.get_foldl_insert_of_ne, OrderedMap.get_empty]
  rintro row hrow rfl
  obtain ⟨hmem, hne⟩ := List.mem_filter.mp hrow
  exact of_decide_eq_true hne (h row hmem rfl)

lemma get_serializeInputs (hrow : row ∈ rows) (hunique : (rows.map InputRow.inputName).Nodup)
    (hne : row.inputName ≠ "__proto__") :
    (serializeInputs rows).get row.inputName = some (readInputBinding row).2 := by
  rw [serializeInputs_eq]
  refine OrderedMap.get_foldl_insert_of_mem
    (List.mem_filter.mpr ⟨hrow, decide_eq_true hne⟩) fun row' hrow' hname => ?_
  exact List.inj_on_of_nodup_map hunique (List.mem_filter.mp hrow').1 hrow hname

end

def serverCatalog (catalog : List RunnerCatalogEntry) : RunnerCatalog where
  getRunner runnerId :=
    .ok ((catalog.find? fun runner => runner.id = runnerId).map RunnerCatalogEntry.name)
  listRunnerJobs runnerId :=
    .ok (((catalog.find? fun runner => runner.id = runnerId).map RunnerCatalogEntry.jobs).getD [])

/-- The server accepts the workflow. -/
structure Accepted (jsonText : Value → String) (catalog : List RunnerCatalogEntry)
    (definition : WorkflowDefinition) : Prop where
  ids : (catalog.map RunnerCatalogEntry.id).Nodup
  validated : ∃ defs, validateWorkflowRunners jsonText (serverCatalog catalog) definition = .ok defs

section

variable {catalog : List RunnerCatalogEntry} {runnerId jobName : String}

lemma getRunner_eq_find (hids : (catalog.map RunnerCatalogEntry.id).Nodup) :
    getRunner catalog runnerId = catalog.find? fun runner => runner.id = runnerId := by
  rw [getRunner, ← List.head?_filter]
  have hfound : ∀ runner ∈ catalog.filter fun runner => runner.id = runnerId,
      runner.id = runnerId := fun runner h => of_decide_eq_true (List.mem_filter.mp h).2
  have hnodup : ((catalog.filter fun runner => runner.id = runnerId).map
      RunnerCatalogEntry.id).Nodup := hids.sublist (List.filter_sublist.map _)
  cases hfilter : catalog.filter fun runner => runner.id = runnerId with
  | nil => rfl
  | cons runner runners =>
    cases runners with
    | nil => rfl
    | cons runner' runners =>
      rw [hfilter] at hfound hnodup
      simp [hfound runner, hfound runner'] at hnodup

lemma getJobDefinition_iff (hids : (catalog.map RunnerCatalogEntry.id).Nodup)
    {schema : RunnerJobDefinition} : getJobDefinition catalog runnerId jobName = some schema ↔
      ∃ runner, catalog.find? (fun runner => runner.id = runnerId) = some runner ∧
        runner.jobs.find? (fun schema => schema.name = jobName) = some schema := by
  rw [getJobDefinition, getRunner_eq_find hids, Option.bind_eq_some_iff]

lemma advertises_iff (hids : (catalog.map RunnerCatalogEntry.id).Nodup)
    {job : WorkflowJobDefinition} {schema : RunnerJobDefinition} :
    Advertises (serverCatalog catalog) job schema ↔
      getJobDefinition catalog job.runnerId job.runnerJobName = some schema := by
  rw [getJobDefinition_iff hids, Advertises]
  cases hrunner : catalog.find? fun runner => runner.id = job.runnerId with
  | none => simp [serverCatalog, hrunner]
  | some runner => simp [serverCatalog, hrunner]

lemma mem_promotedArtifactSourceOptions {sourceRunnerId sourceJobName outputName : String}
    (h : validatePromotedArtifact (serverCatalog catalog) sourceRunnerId sourceJobName outputName =
      .ok ()) :
    jsonStringify (promotedArtifactJson sourceRunnerId sourceJobName outputName) ∈
      promotedArtifactSourceOptions catalog := by
  simp only [validatePromotedArtifact, serverCatalog, ok_bind] at h
  cases hrunner : catalog.find? fun runner => runner.id = sourceRunnerId with
  | none =>
    rw [hrunner] at h
    cases h
  | some runner =>
    rw [hrunner] at h
    simp only [Option.map_some, Option.getD_some] at h
    cases hjob : runner.jobs.find? fun job => job.name = sourceJobName with
    | none =>
      rw [hjob] at h
      cases h
    | some job =>
      rw [hjob] at h
      cases houtput : job.outputs.get outputName with
      | none =>
        simp only [houtput] at h
        cases h
      | some output =>
        simp only [houtput] at h
        by_cases hkind : output.kind = .artifact
        · have hid : runner.id = sourceRunnerId := by simpa using List.find?_some hrunner
          have hname : job.name = sourceJobName := by simpa using List.find?_some hjob
          subst hid hname
          refine List.mem_flatMap.mpr ⟨runner, List.mem_of_find?_eq_some hrunner,
            List.mem_flatMap.mpr ⟨job, List.mem_of_find?_eq_some hjob, ?_⟩⟩
          refine List.mem_map.mpr ⟨(outputName, output), List.mem_filter.mpr ⟨?_, ?_⟩, rfl⟩
          · exact mem_objectEntries.mpr houtput
          · exact decide_eq_true hkind
        · rw [if_neg hkind] at h
          cases h

end

def Offered (catalog : List RunnerCatalogEntry) (definition : WorkflowDefinition)
    (currentIndex : ℕ) (kind : InputType) (jobIndex : ℕ) (outputName : String) : Prop :=
  jobIndex < currentIndex ∧ ∃ job schema output, definition.jobs[jobIndex]? = some job ∧
    getJobDefinition catalog (jsTrim job.runnerId) (jsTrim job.runnerJobName) = some schema ∧
    schema.outputs.get outputName = some output ∧ output.kind.asStr = kind.asStr

section

variable {catalog : List RunnerCatalogEntry} {definition : WorkflowDefinition}
variable {currentIndex jobIndex : ℕ} {kind : InputType} {outputName : String}

lemma jobOutputJson_injective {i i' : ℕ} {o o' : String} (h : jobOutputJson i o = jobOutputJson i' o') :
    i = i' ∧ o = o' := by
  simpa [jobOutputJson, Int.ofNat_inj] using h

lemma mem_derivedJobs {names : String × String} {index : ℕ} :
    (names, index) ∈ (derivedJobs definition).zipIdx.take currentIndex ↔ index < currentIndex ∧
      ∃ job, definition.jobs[index]? = some job ∧
        (jsTrim job.runnerId, jsTrim job.runnerJobName) = names := by
  have hentry (i : ℕ) : ((derivedJobs definition).zipIdx.take currentIndex)[i]? =
        some (names, index) ↔
      i = index ∧ index < currentIndex ∧ ∃ job, definition.jobs[index]? = some job ∧
        (jsTrim job.runnerId, jsTrim job.runnerJobName) = names := by
    rw [List.getElem?_take, List.getElem?_zipIdx, derivedJobs, List.getElem?_map, Nat.zero_add]
    constructor
    · intro h
      obtain ⟨hlt, h⟩ := Option.ite_none_right_eq_some.mp h
      obtain ⟨names', hnames, h⟩ := Option.map_eq_some_iff.mp h
      obtain ⟨rfl, rfl⟩ := Prod.mk.inj h
      exact ⟨rfl, hlt, Option.map_eq_some_iff.mp hnames⟩
    · rintro ⟨rfl, hlt, job, hjob, rfl⟩
      rw [if_pos hlt, hjob]
      rfl
  rw [List.mem_iff_getElem?]
  constructor
  · rintro ⟨i, hi⟩
    exact ((hentry i).mp hi).2
  · exact fun h => ⟨index, (hentry index).mpr ⟨rfl, h⟩⟩

lemma mem_outputOptionsFor_iff : jsonStringify (jobOutputJson jobIndex outputName) ∈
      outputOptionsFor catalog currentIndex (derivedJobs definition) kind.asStr ↔
    Offered catalog definition currentIndex kind jobIndex outputName := by
  rw [outputOptionsFor, List.mem_flatMap]
  constructor
  · rintro ⟨⟨names, index⟩, hmem, h⟩
    obtain ⟨hlt, job, hjob, rfl⟩ := mem_derivedJobs.mp hmem
    cases hschema : getJobDefinition catalog (jsTrim job.runnerId) (jsTrim job.runnerJobName) with
    | none =>
      rw [hschema] at h
      cases h
    | some schema =>
      rw [hschema] at h
      obtain ⟨⟨name, output⟩, houtput, heq⟩ := List.mem_map.mp h
      obtain ⟨houtput, hkind⟩ := List.mem_filter.mp houtput
      obtain ⟨rfl, rfl⟩ := jobOutputJson_injective
        (jsonStringify_injective (jobOutputJson_sound _ _) (jobOutputJson_sound _ _) heq)
      exact ⟨hlt, job, schema, output, hjob, hschema, mem_objectEntries.mp houtput,
        of_decide_eq_true hkind⟩
  · rintro ⟨hlt, job, schema, output, hjob, hschema, houtput, hkind⟩
    refine ⟨(_, jobIndex), mem_derivedJobs.mpr ⟨hlt, job, hjob, rfl⟩, ?_⟩
    rw [hschema]
    exact List.mem_map.mpr ⟨(outputName, output),
      List.mem_filter.mpr ⟨mem_objectEntries.mpr houtput, decide_eq_true hkind⟩, rfl⟩

end

mutual

def SafeValue : Value → Prop
  | .null | .bool _ | .string _ => True
  | .number (.integer value) => -(2 ^ 53 - 1) ≤ value ∧ value ≤ 2 ^ 53 - 1
  | .number (.float _) => False
  | .array items => SafeItems items
  | .object fields => (fields.map Prod.fst).Nodup ∧ SafeFields fields

def SafeItems : List Value → Prop
  | [] => True
  | value :: values => SafeValue value ∧ SafeItems values

def SafeFields : List (String × Value) → Prop
  | [] => True
  | (_, value) :: fields => SafeValue value ∧ SafeFields fields

end

def SafeLiterals (definition : WorkflowDefinition) : Prop :=
  ∀ job ∈ definition.jobs, ∀ inputName value,
    job.inputs.get inputName = some (.literal value) → SafeValue value

lemma fieldsJson_names (fields : List (String × Value)) :
    (fieldsJson fields).map Prod.fst = fields.map Prod.fst := by
  induction fields with
  | nil => rfl
  | cons field fields ih => simp only [fieldsJson, List.map_cons, ih]

mutual

lemma valueJson_sound : ∀ {value : Value}, SafeValue value → (valueJson value).Sound
  | .null, _ | .bool _, _ | .string _, _ | .number (.integer _), _ => trivial
  | .number (.float _), h => h.elim
  | .array _, h => valuesJson_sound h
  | .object fields, h => ⟨by rw [fieldsJson_names]; exact h.1, fieldsJson_sound h.2⟩

lemma valuesJson_sound : ∀ {values : List Value}, SafeItems values →
    Json.SoundItems (valuesJson values)
  | [], _ => trivial
  | _ :: _, h => ⟨valueJson_sound h.1, valuesJson_sound h.2⟩

lemma fieldsJson_sound : ∀ {fields : List (String × Value)}, SafeFields fields →
    Json.SoundFields (fieldsJson fields)
  | [], _ => trivial
  | _ :: _, h => ⟨valueJson_sound h.1, fieldsJson_sound h.2⟩

end

/-- The page keeps a binding: a literal if it is not shown as another kind of binding or in a field of
one line, and a reference if it is offered. -/
def Kept (catalog : List RunnerCatalogEntry) (definition : WorkflowDefinition) (jobIndex : ℕ)
    (inputName : String) (kind : InputType) : WorkflowInputBinding → Prop
  | .literal value => kind ≠ .artifact ∧ (kind = .string →
      inputName ≠ "commit" ∧ inputName ≠ "branch" ∧
        ∀ text ∈ value.asStr, '\n' ∉ text.toList ∧ '\r' ∉ text.toList)
  | .jobOutput index outputName => Offered catalog definition jobIndex kind index outputName
  | .commit | .branch | .sourceArtifact | .promotedArtifact _ _ _ => True

section

variable {jsonText : Value → String} {catalog : List RunnerCatalogEntry}
variable {definition : WorkflowDefinition} {defs : List RunnerJobDefinition} {jobCount jobIndex : ℕ}
variable {inputName : String} {input : JobInputDefinition} {binding : WorkflowInputBinding}

lemma readBack_literal_iff {options : String → List String} {promoted : List String} {value : Value}
    (hkind : valueMatchesInputKind value input.kind = true) (hsafe : SafeValue value) :
    readBack options promoted inputName input.kind (.literal value) = bindingJson (.literal value) ↔
      Kept catalog definition jobIndex inputName input.kind (.literal value) := by
  cases htype : input.kind with
  | artifact => simp [Kept, readBack_artifact_literal]
  | string =>
    rw [htype] at hkind
    cases value with
    | string text => simp [Kept, readBack_string_literal, Value.asStr]
    | _ => cases hkind
  | integer =>
    rw [htype] at hkind
    cases value with
    | number number =>
      cases number with
      | integer value => simp [Kept, readBack_integer_literal]
      | float text => exact hsafe.elim
    | _ => cases hkind
  | boolean =>
    rw [htype] at hkind
    cases value with
    | bool value => simp [Kept, readBack_boolean_literal]
    | _ => cases hkind
  | json => simp [Kept, readBack_json_literal (valueJson_sound hsafe)]

lemma readBack_iff (hvalid : validateBinding jsonText (serverCatalog catalog) defs jobCount jobIndex
      inputName input binding = .ok ()) (hsafe : ∀ value, binding = .literal value → SafeValue value) :
    readBack (outputOptionsFor catalog jobIndex (derivedJobs definition))
        (promotedArtifactSourceOptions catalog) inputName input.kind binding = bindingJson binding ↔
      Kept catalog definition jobIndex inputName input.kind binding := by
  cases binding with
  | literal value =>
    simp only [validateBinding, validateLiteral] at hvalid
    by_cases hkind : valueMatchesInputKind value input.kind = true
    · exact readBack_literal_iff hkind (hsafe value rfl)
    · rw [if_neg hkind] at hvalid
      cases hvalid
  | commit =>
    by_cases hkind : input.kind = .string
    · rw [hkind]
      exact iff_of_true readBack_commit trivial
    · simp [validateBinding, hkind] at hvalid
  | branch =>
    by_cases hkind : input.kind = .string
    · rw [hkind]
      exact iff_of_true readBack_branch trivial
    · simp [validateBinding, hkind] at hvalid
  | sourceArtifact =>
    by_cases hkind : input.kind = .artifact
    · rw [hkind]
      exact iff_of_true readBack_sourceArtifact trivial
    · simp [validateBinding, hkind] at hvalid
  | promotedArtifact sourceRunnerId sourceJobName outputName =>
    by_cases hkind : input.kind = .artifact
    · simp only [validateBinding, if_pos hkind] at hvalid
      rw [hkind]
      exact iff_of_true (readBack_promotedArtifact (mem_promotedArtifactSourceOptions hvalid)) trivial
    · simp [validateBinding, hkind] at hvalid
  | jobOutput index outputName =>
    rw [readBack_jobOutput fun option h => mem_outputOptionsFor h, mem_outputOptionsFor_iff]
    rfl

end

/-- A statement about every input that the jobs of the workflow declare. -/
def ForInputs (catalog : List RunnerCatalogEntry) (definition : WorkflowDefinition)
    (P : ℕ → WorkflowJobDefinition → String → JobInputDefinition → Prop) : Prop :=
  ∀ jobIndex job schema inputName input, definition.jobs[jobIndex]? = some job →
    getJobDefinition catalog job.runnerId job.runnerJobName = some schema →
    schema.inputs.get inputName = some input → P jobIndex job inputName input

/-- A saved binding is read back, and an optional input without one is left without one. -/
def Unchanged (catalog : List RunnerCatalogEntry) (definition : WorkflowDefinition) : Prop :=
  ForInputs catalog definition fun jobIndex job inputName input =>
    (∀ binding, job.inputs.get inputName = some binding →
      readInputBinding (editorRow catalog definition jobIndex job (inputName, input)) =
        (inputName, bindingJson binding)) ∧
    (input.required = false → job.inputs.get inputName = none →
      (reopenedInputs catalog definition jobIndex job).get inputName = none)

section

variable {jsonText : Value → String} {catalog : List RunnerCatalogEntry}
variable {definition : WorkflowDefinition} {jobIndex : ℕ} {job : WorkflowJobDefinition}
variable {schema : RunnerJobDefinition} {inputName : String} {input : JobInputDefinition}

lemma editorRow_name : (editorRow catalog definition jobIndex job (inputName, input)).inputName =
    inputName :=
  openedRow_name

theorem reopenedInputs_get
    (hschema : getJobDefinition catalog job.runnerId job.runnerJobName = some schema)
    (hinput : schema.inputs.get inputName = some input) :
    (reopenedInputs catalog definition jobIndex job).get inputName =
      if inputName = "__proto__" then none
      else some (readInputBinding (editorRow catalog definition jobIndex job (inputName, input))).2 := by
  have hrows : editorRows catalog definition jobIndex job =
      (objectEntries schema.inputs).map (editorRow catalog definition jobIndex job) := by
    rw [editorRows, hschema]
  have hnames : (editorRows catalog definition jobIndex job).map InputRow.inputName =
      (objectEntries schema.inputs).map Prod.fst := by
    rw [hrows, List.map_map]
    exact List.map_congr_left fun entry _ => editorRow_name
  have hrow : editorRow catalog definition jobIndex job (inputName, input) ∈
      editorRows catalog definition jobIndex job := by
    rw [hrows]
    exact List.mem_map_of_mem (mem_objectEntries.mpr hinput)
  rw [reopenedInputs]
  by_cases hproto : inputName = "__proto__"
  · rw [if_pos hproto]
    exact get_serializeInputs_of_notMem fun _ _ _ => hproto
  · rw [if_neg hproto]
    have hget := get_serializeInputs hrow (hnames ▸ objectEntries_nodup)
      (by rwa [editorRow_name])
    rwa [editorRow_name] at hget

lemma readInputBinding_editorRow_iff (haccepted : Accepted jsonText catalog definition)
    (hsafe : SafeLiterals definition) {binding : WorkflowInputBinding}
    (hjob : definition.jobs[jobIndex]? = some job)
    (hschema : getJobDefinition catalog job.runnerId job.runnerJobName = some schema)
    (hinput : schema.inputs.get inputName = some input)
    (hbinding : job.inputs.get inputName = some binding) :
    readInputBinding (editorRow catalog definition jobIndex job (inputName, input)) =
        (inputName, bindingJson binding) ↔
      Kept catalog definition jobIndex inputName input.kind binding := by
  obtain ⟨hids, defs, hvalidated⟩ := haccepted
  obtain ⟨hadvertised, hjobs⟩ := validateWorkflowRunners_iff.mp hvalidated
  obtain ⟨schema', hdef, hadvertises⟩ := Forall₂.getElem? hadvertised hjob
  obtain rfl := Option.some.inj (((advertises_iff hids).mp hadvertises).symm.trans hschema)
  obtain ⟨input', hinput', hvalid⟩ :=
    (hjobs jobIndex job _ hjob hdef).bindings inputName binding hbinding
  obtain rfl := Option.some.inj (hinput.symm.trans hinput')
  rw [← readBack_iff hvalid fun value h =>
    hsafe job (List.mem_of_getElem? hjob) inputName value (h ▸ hbinding)]
  rw [Prod.ext_iff]
  refine (and_iff_right ?_).trans ?_
  · exact editorRow_name
  · rw [readBack, openedRow, editorRow, hbinding]
    rfl

theorem unchanged_iff (haccepted : Accepted jsonText catalog definition)
    (hsafe : SafeLiterals definition) :
    Unchanged catalog definition ↔
      ForInputs catalog definition fun jobIndex job inputName input =>
        (∀ binding, job.inputs.get inputName = some binding →
          Kept catalog definition jobIndex inputName input.kind binding) ∧
        (input.required = false → job.inputs.get inputName = none → inputName = "__proto__") := by
  unfold Unchanged ForInputs
  refine forall_congr' fun jobIndex => forall_congr' fun job => forall_congr' fun schema =>
    forall_congr' fun inputName => forall_congr' fun input => forall_congr' fun hjob =>
    forall_congr' fun hschema => forall_congr' fun hinput => and_congr ?_ ?_
  · exact forall_congr' fun binding => forall_congr' fun hbinding =>
      readInputBinding_editorRow_iff haccepted hsafe hjob hschema hinput hbinding
  · rw [reopenedInputs_get hschema hinput]
    simp

end

def sampleCatalog : List RunnerCatalogEntry :=
  [{ id := "runner-1", name := "Linux", jobs := [{
      name := "deploy"
      concurrency := .parallel
      timeoutSeconds := 60
      inputs := .ofList [("commit", ⟨.string, true, false, none, none, none⟩)]
      outputs := .empty }] }]

def sampleDeployment (binding : WorkflowInputBinding) : WorkflowDefinition :=
  ⟨[{ runnerId := "runner-1", runnerJobName := "deploy", inputs := .ofList [("commit", binding)] }]⟩

theorem unchanged_iff_deployment :
    (Accepted (fun _ => "") sampleCatalog (sampleDeployment .commit) ∧
      SafeLiterals (sampleDeployment .commit)) ∧
    (Unchanged sampleCatalog (sampleDeployment .commit) ↔
      ForInputs sampleCatalog (sampleDeployment .commit) fun jobIndex job inputName input =>
        (∀ binding, job.inputs.get inputName = some binding →
          Kept sampleCatalog (sampleDeployment .commit) jobIndex inputName input.kind binding) ∧
        (input.required = false → job.inputs.get inputName = none → inputName = "__proto__")) := by
  have haccepted : Accepted (fun _ => "") sampleCatalog (sampleDeployment .commit) :=
    ⟨by decide, _, rfl⟩
  have hsafe : SafeLiterals (sampleDeployment .commit) := by
    intro job hjob inputName value hvalue
    obtain rfl := List.mem_singleton.mp hjob
    have hentry := OrderedMap.get_eq_some_iff.mp hvalue
    obtain ⟨-, hbinding⟩ := Prod.mk.inj (List.mem_singleton.mp hentry)
    cases hbinding
  exact ⟨⟨haccepted, hsafe⟩, unchanged_iff haccepted hsafe⟩

theorem literal_commit_rewritten :
    ¬∀ (jsonText : Value → String) (catalog : List RunnerCatalogEntry)
        (definition : WorkflowDefinition), Accepted jsonText catalog definition →
      SafeLiterals definition → Unchanged catalog definition := by
  intro h
  have haccepted : Accepted (fun _ => "") sampleCatalog
      (sampleDeployment (.literal (.string "v1"))) := ⟨by decide, _, rfl⟩
  have hsafe : SafeLiterals (sampleDeployment (.literal (.string "v1"))) := by
    intro job hjob inputName value hvalue
    obtain rfl := List.mem_singleton.mp hjob
    have hentry := OrderedMap.get_eq_some_iff.mp hvalue
    obtain ⟨-, hbinding⟩ := Prod.mk.inj (List.mem_singleton.mp hentry)
    obtain rfl := WorkflowInputBinding.literal.inj hbinding
    trivial
  obtain ⟨hkept, -⟩ := h _ _ _ haccepted hsafe 0 _ _ "commit" _ rfl rfl rfl
  have hread : kindJson "commit" = literalJson (.string "v1") :=
    congrArg Prod.snd (hkept (.literal (.string "v1")) rfl)
  simp [kindJson, literalJson] at hread

end Janus.Web
