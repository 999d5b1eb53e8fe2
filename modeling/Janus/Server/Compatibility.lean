import Janus.Concurrency.Play
import Janus.Server.Bindings
import Janus.Server.Enqueue

/-! What a report that finds no incompatibility says of the validation of a workflow. -/

namespace Janus.Server

open Janus.Concurrency Janus.Data

def Advertises (catalog : RunnerCatalog) (job : WorkflowJobDefinition)
    (schema : RunnerJobDefinition) : Prop :=
  ∃ runnerName advertised, catalog.getRunner job.runnerId = .ok (some runnerName) ∧
    catalog.listRunnerJobs job.runnerId = .ok advertised ∧
    advertised.find? (fun schema => schema.name = job.runnerJobName) = some schema

structure JobAccepted (jsonText : Value → String) (catalog : RunnerCatalog)
    (defs : List RunnerJobDefinition) (jobCount jobIndex : ℕ) (job : WorkflowJobDefinition)
    (schema : RunnerJobDefinition) : Prop where
  bindings : ∀ inputName binding, job.inputs.get inputName = some binding →
    ∃ input, schema.inputs.get inputName = some input ∧
      validateBinding jsonText catalog defs jobCount jobIndex inputName input binding = .ok ()
  required : ∀ inputName input, schema.inputs.get inputName = some input → input.required = true →
    ∃ binding, job.inputs.get inputName = some binding ∧ workflowInputBindingIsEmpty binding = false

section

variable {jsonText : Value → String} {catalog : RunnerCatalog} {definition : WorkflowDefinition}
variable {defs : List RunnerJobDefinition} {jobCount jobIndex : ℕ} {job : WorkflowJobDefinition}
variable {schema : RunnerJobDefinition}

lemma runnerJobDefs_iff {jobs : List WorkflowJobDefinition} :
    runnerJobDefs catalog jobs = .ok defs ↔ List.Forall₂ (Advertises catalog) jobs defs := by
  induction jobs generalizing defs with
  | nil =>
    rw [List.forall₂_nil_left_iff]
    exact ⟨fun h => (Except.ok.inj h).symm, fun h => h ▸ rfl⟩
  | cons job jobs ih =>
    constructor
    · intro h
      simp only [runnerJobDefs] at h
      obtain ⟨found, hrunner, h⟩ := bind_ok h
      cases found with
      | none => exact (nomatch h)
      | some runnerName =>
        obtain ⟨advertised, hadvertised, h⟩ := bind_ok h
        split at h
        · exact (nomatch h)
        · next schema hschema =>
          obtain ⟨rest, hrest, h⟩ := bind_ok h
          obtain rfl := Except.ok.inj h
          exact .cons ⟨runnerName, advertised, hrunner, hadvertised, hschema⟩ (ih.mp hrest)
    · rintro (_ | ⟨⟨runnerName, advertised, hrunner, hadvertised, hschema⟩, hrest⟩)
      simp only [runnerJobDefs, hrunner, hadvertised, ok_bind, hschema, ih.mpr hrest]

lemma validateInputBindings_iff {runnerJob : RunnerJobDefinition}
    {inputs : List (String × WorkflowInputBinding)} :
    validateInputBindings jsonText catalog defs jobCount jobIndex job runnerJob inputs = .ok () ↔
      ∀ entry ∈ inputs, ∃ input, runnerJob.inputs.get entry.1 = some input ∧
        validateBinding jsonText catalog defs jobCount jobIndex entry.1 input entry.2 = .ok () := by
  constructor
  · exact fun h entry hentry => validateInputBindings_ok h hentry
  · intro h
    induction inputs with
    | nil => rfl
    | cons entry inputs ih =>
      obtain ⟨input, hinput, hbinding⟩ := h entry List.mem_cons_self
      simp only [validateInputBindings, hinput, hbinding]
      exact ih fun entry hentry => h entry (.tail _ hentry)

lemma validateRequiredWorkflowInputs_iff :
    validateRequiredWorkflowInputs jobIndex job schema = .ok () ↔
      ∀ inputName input, schema.inputs.get inputName = some input → input.required = true →
        ∃ binding, job.inputs.get inputName = some binding ∧
          workflowInputBindingIsEmpty binding = false := by
  have hmissing (inputName : String) :
      ((job.inputs.get inputName).map workflowInputBindingIsEmpty).getD true = false ↔
        ∃ binding, job.inputs.get inputName = some binding ∧
          workflowInputBindingIsEmpty binding = false := by
    cases job.inputs.get inputName <;> simp
  simp only [validateRequiredWorkflowInputs]
  split
  · next entry hfind =>
    refine iff_of_false (fun h => nomatch h) fun h => ?_
    obtain ⟨hrequired, hempty⟩ := by simpa using List.find?_some hfind
    have hget := OrderedMap.get_eq_some_iff.mpr (List.mem_of_find?_eq_some hfind)
    have hbound := (hmissing entry.1).mpr (h entry.1 entry.2 hget hrequired)
    exact Bool.false_ne_true (hbound.symm.trans hempty)
  · next hnone =>
    refine iff_of_true rfl fun inputName input hget hrequired => (hmissing inputName).mp ?_
    have hentry := List.find?_eq_none.mp hnone (inputName, input) (OrderedMap.get_eq_some_iff.mp hget)
    simpa [hrequired] using hentry

lemma validateJobBindings_iff {jobs : List (WorkflowJobDefinition × ℕ)} :
    validateJobBindings jsonText catalog defs jobCount jobs = .ok () ↔
      ∀ entry ∈ jobs, ∃ schema, defs[entry.2]? = some schema ∧
        JobAccepted jsonText catalog defs jobCount entry.2 entry.1 schema := by
  have haccepted (job : WorkflowJobDefinition) (jobIndex : ℕ) (schema : RunnerJobDefinition) :
      JobAccepted jsonText catalog defs jobCount jobIndex job schema ↔
        validateInputBindings jsonText catalog defs jobCount jobIndex job schema
            job.inputs.entries = .ok () ∧
          validateRequiredWorkflowInputs jobIndex job schema = .ok () := by
    rw [validateInputBindings_iff, validateRequiredWorkflowInputs_iff]
    constructor
    · rintro ⟨hb, hr⟩
      exact ⟨fun entry hentry => hb entry.1 entry.2 (OrderedMap.get_eq_some_iff.mpr hentry), hr⟩
    · rintro ⟨hb, hr⟩
      exact ⟨fun name binding hget => hb (name, binding) (OrderedMap.get_eq_some_iff.mp hget), hr⟩
  constructor
  · intro h entry hentry
    obtain ⟨schema, hschema, hb, hr⟩ := validateJobBindings_ok h hentry
    exact ⟨schema, hschema, (haccepted _ _ _).mpr ⟨hb, hr⟩⟩
  · intro h
    induction jobs with
    | nil => rfl
    | cons entry jobs ih =>
      obtain ⟨schema, hschema, ha⟩ := h entry List.mem_cons_self
      obtain ⟨hb, hr⟩ := (haccepted _ _ _).mp ha
      simp only [validateJobBindings, hschema, hb, hr]
      exact ih fun entry hentry => h entry (.tail _ hentry)

theorem validateWorkflowRunners_iff :
    validateWorkflowRunners jsonText catalog definition = .ok defs ↔
      List.Forall₂ (Advertises catalog) definition.jobs defs ∧
        ∀ (jobIndex : ℕ) (job : WorkflowJobDefinition) (schema : RunnerJobDefinition),
          definition.jobs[jobIndex]? = some job → defs[jobIndex]? = some schema →
          JobAccepted jsonText catalog defs definition.jobs.length jobIndex job schema := by
  rw [← runnerJobDefs_iff]
  constructor
  · intro h
    obtain ⟨defs', hdefs, h⟩ := bind_ok h
    obtain ⟨u, hjobs, h⟩ := bind_ok h
    obtain rfl := Except.ok.inj h
    refine ⟨hdefs, fun jobIndex job schema hj hs => ?_⟩
    obtain ⟨schema', hs', ha⟩ :=
      validateJobBindings_iff.mp hjobs (job, jobIndex) (List.mem_zipIdx_iff_getElem?.mpr hj)
    obtain rfl := Option.some.inj (hs.symm.trans hs')
    exact ha
  · rintro ⟨hdefs, hjobs⟩
    have hlength := (runnerJobDefs_iff.mp hdefs).length_eq
    have hbindings : validateJobBindings jsonText catalog defs definition.jobs.length
        definition.jobs.zipIdx = .ok () := by
      refine validateJobBindings_iff.mpr fun entry hentry => ?_
      have hj := List.mem_zipIdx_iff_getElem?.mp hentry
      obtain ⟨hlt, -⟩ := List.getElem?_eq_some_iff.mp hj
      have hs : defs[entry.2]? = some defs[entry.2] := List.getElem?_eq_getElem (hlength ▸ hlt)
      exact ⟨_, hs, hjobs entry.2 entry.1 _ hj hs⟩
    simp only [validateWorkflowRunners, hdefs, hbindings, ok_bind]

end

structure Compatible (boundInputs referencedOutputs : List String)
    (saved current : RunnerJobDefinition) : Prop where
  bound : ∀ inputName ∈ boundInputs, ∀ input, saved.inputs.get inputName = some input →
    ∃ input', current.inputs.get inputName = some input' ∧ input'.kind = input.kind
  required : ∀ inputName input', current.inputs.get inputName = some input' → input'.required = true →
    ∃ input, saved.inputs.get inputName = some input ∧ input.required = true
  referenced : ∀ outputName ∈ referencedOutputs, ∀ output, saved.outputs.get outputName = some output →
    ∃ output', current.outputs.get outputName = some output' ∧ output'.kind = output.kind

section

variable {jobIndex : ℕ} {jobName : String} {saved current : RunnerJobDefinition}
variable {boundInputs referencedOutputs : List String}

lemma changedInput_compatible {name : String} {input : JobInputDefinition}
    (h : ∀ d ∈ changedInput jobIndex jobName current boundInputs name input, d.incompatible = false) :
    (name ∈ boundInputs →
        ∃ input', current.inputs.get name = some input' ∧ input'.kind = input.kind) ∧
      ∀ input', current.inputs.get name = some input' → input'.required = true →
        input.required = true := by
  simp only [changedInput] at h
  split at h
  · next hnone =>
    constructor
    · intro hbound
      simp [hbound] at h
    · intro input' hinput'
      cases hnone.symm.trans hinput'
  · next input' hsome =>
    constructor
    · intro hbound
      refine ⟨input', hsome, ?_⟩
      by_contra hkind
      simp [Ne.symm hkind, hbound] at h
    · intro input'' hinput'' hrequired
      obtain rfl := Option.some.inj (hsome.symm.trans hinput'')
      by_contra hsaved
      simp only [hrequired, hsaved, List.mem_append] at h
      have hchanged := h _ (.inr (by rw [if_neg (by simp)]; exact List.mem_singleton_self _))
      simp [hsaved] at hchanged

lemma changedOutput_compatible {name : String} {output : JobOutputDefinition}
    (h : ∀ d ∈ changedOutput jobIndex jobName current referencedOutputs name output,
      d.incompatible = false) (hreferenced : name ∈ referencedOutputs) :
    ∃ output', current.outputs.get name = some output' ∧ output'.kind = output.kind := by
  simp only [changedOutput] at h
  split at h
  · simp [hreferenced] at h
  · next output' hsome =>
    refine ⟨output', hsome, ?_⟩
    by_contra hkind
    simp [Ne.symm hkind, hreferenced] at h

lemma addedInput_compatible {name : String} {input : JobInputDefinition}
    (h : ∀ d ∈ addedInput jobIndex jobName saved name input, d.incompatible = false)
    (hrequired : input.required = true) : ∃ input, saved.inputs.get name = some input := by
  rw [← OrderedMap.containsKey_iff]
  by_contra hnew
  simp [addedInput, hnew, hrequired] at h

lemma diffJobSchema_compatible (h : ∀ d ∈ diffJobSchema jobIndex jobName saved current boundInputs
    referencedOutputs, d.incompatible = false) :
    Compatible boundInputs referencedOutputs saved current := by
  simp only [diffJobSchema, List.mem_append, List.mem_flatMap, Prod.exists] at h
  have hchanged {name : String} {input : JobInputDefinition}
      (hget : saved.inputs.get name = some input) := changedInput_compatible
    fun d hd => h d (.inl (.inl (.inr ⟨name, input, OrderedMap.get_eq_some_iff.mp hget, hd⟩)))
  constructor
  · exact fun name hbound input hget => (hchanged hget).1 hbound
  · intro name input' hget hrequired
    obtain ⟨input, hsaved⟩ := addedInput_compatible (fun d hd =>
      h d (.inl (.inl (.inl ⟨name, input', OrderedMap.get_eq_some_iff.mp hget, hd⟩)))) hrequired
    exact ⟨input, hsaved, (hchanged hsaved).2 input' hget hrequired⟩
  · intro name hreferenced output hget
    exact changedOutput_compatible (fun d hd =>
      h d (.inr ⟨name, output, OrderedMap.get_eq_some_iff.mp hget, hd⟩)) hreferenced

end

def Database.advertised (db : Database) (runnerId jobName : String) : Option RunnerJobDefinition :=
  (db.listRunnerJobs runnerId).find? fun schema => schema.name = jobName

section

variable {app : AppState} {s : Store} {os : List Outcome} {β : Type}
variable {definition : WorkflowDefinition} {snapshot : List RunnerJobDefinition}

lemma play_query_ok {q : Query} {f : q.Result → Task β} {b : β}
    (h : ((call (.query q) >>= f).play (Call.exec app) os s).result = some (.ok b)) :
    ∃ a os', q.eval s.db = .ok a ∧ ((f a).play (Call.exec app) os' s).result = some (.ok b) := by
  revert h
  refine Program.play_request (P := fun e => e.result = some (.ok b) →
    ∃ a os', q.eval s.db = .ok a ∧ ((f a).play (Call.exec app) os' s).result = some (.ok b)) ?_ ?_ ?_
  · exact fun _ h => nomatch h
  · exact fun o os' m s' _ _ h => by cases h
  · intro o os' a s' _ hx h
    obtain ⟨rfl, ⟨e, he⟩ | heval⟩ := exec_query hx
    · cases he
    · exact ⟨a, os', heval.symm, h⟩

lemma play_queries_store {p : Task β} (hp : p.Only Call.isQuery) :
    (p.play (Call.exec app) os s).store = s := by
  refine Program.play_only (A := fun s' => s' = s) ?_ hp rfl os
  rintro c o s' hc rfl
  cases c with
  | query q => exact (exec_query (x := (Call.exec app (.query q) o s').1) rfl).1
  | _ => exact hc.elim

def Found (db : Database) (definition : WorkflowDefinition) (snapshot : List RunnerJobDefinition)
    (job : WorkflowJobDefinition) (jobIndex : ℕ) : Prop :=
  ∃ saved current, snapshot[jobIndex]? = some saved ∧
    db.advertised job.runnerId job.runnerJobName = some current ∧
    Compatible (workflowBoundInputs definition jobIndex)
      (workflowReferencedOutputs definition jobIndex) saved current

lemma jobSchemaDiff_found {job : WorkflowJobDefinition} {jobIndex : ℕ} {diff : List WorkflowSchemaDiff}
    (h : ((jobSchemaDiff definition snapshot job jobIndex).play (Call.exec app) os s).result =
      some (.ok diff)) (hdiff : ∀ d ∈ diff, d.incompatible = false) :
    Found s.db definition snapshot job jobIndex := by
  simp only [jobSchemaDiff] at h
  split at h
  · rw [Program.play_pure] at h
    cases h
    simp [jobRemoved] at hdiff
  · next saved hsaved =>
    obtain ⟨advertised, os', heval, h⟩ := play_query_ok h
    obtain rfl : s.db.listRunnerJobs job.runnerId = advertised := Except.ok.inj heval
    split at h
    · rw [Program.play_pure] at h
      cases h
      simp [jobRemoved] at hdiff
    · next current hcurrent =>
      rw [Program.play_pure] at h
      cases h
      exact ⟨saved, current, hsaved, hcurrent, diffJobSchema_compatible hdiff⟩

lemma jobSchemaDiffs_found {jobs : List (WorkflowJobDefinition × ℕ)} {diff : List WorkflowSchemaDiff}
    (h : ((jobSchemaDiffs definition snapshot jobs).play (Call.exec app) os s).result =
      some (.ok diff)) (hdiff : ∀ d ∈ diff, d.incompatible = false) :
    ∀ entry ∈ jobs, Found s.db definition snapshot entry.1 entry.2 := by
  induction jobs generalizing os diff with
  | nil => exact fun _ hentry => (List.not_mem_nil hentry).elim
  | cons entry jobs ih =>
    simp only [jobSchemaDiffs] at h
    obtain ⟨first, hfirst, h⟩ := Program.play_bind_ok h
    rw [play_queries_store (jobSchemaDiff_only _ _ _ _)] at h
    obtain ⟨rest, hrest, h⟩ := Program.play_bind_ok h
    rw [Program.play_pure] at h
    cases h
    rintro entry' hentry
    rcases List.mem_cons.mp hentry with rfl | hentry
    · exact jobSchemaDiff_found hfirst fun d hd => hdiff d (List.mem_append_left _ hd)
    · exact ih hrest (fun d hd => hdiff d (List.mem_append_right _ hd)) entry' hentry

theorem workflowSchemaReport_found {workflow : Workflow} {report : WorkflowSchemaReport}
    (h : ((workflowSchemaReport workflow).play (Call.exec app) os s).result = some (.ok report))
    (hstatus : report.status ≠ .incompatible) (hdefinition : workflow.definitionJson = .ok definition)
    {jobIndex : ℕ} {job : WorkflowJobDefinition} (hj : definition.jobs[jobIndex]? = some job) :
    Found s.db definition (s.db.workflowJobSchemas workflow.versionId) job jobIndex := by
  simp only [workflowSchemaReport, fromStr, hdefinition, Program.done_bind] at h
  obtain ⟨snapshot, os', heval, h⟩ := play_query_ok h
  obtain rfl : s.db.workflowJobSchemas workflow.versionId = snapshot := Except.ok.inj heval
  obtain ⟨diff, hdiffs, h⟩ := Program.play_bind_ok h
  rw [Program.play_pure] at h
  cases h
  refine jobSchemaDiffs_found hdiffs (fun d hd => ?_) (job, jobIndex)
    (List.mem_zipIdx_iff_getElem?.mpr hj)
  by_contra hincompatible
  refine hstatus ?_
  simp only [schemaStatus]
  rw [if_pos (List.any_eq_true.mpr ⟨d, List.mem_append_left _ hd, by simpa using hincompatible⟩)]

end

def Database.catalog (db : Database) : RunnerCatalog where
  getRunner id := .ok ((db.runners.find? id).map Runner.name)
  listRunnerJobs id := .ok (db.listRunnerJobs id)

def JobInputDefinition.Fits (jsonText : Value → String) (input : JobInputDefinition) (value : Value) :
    Prop :=
  (∀ maxLength ∈ input.maxLength, ∀ text ∈ value.asStr, text.length ≤ maxLength) ∧
    ∀ maxJsonBytes ∈ input.maxJsonBytes, (jsonText value).utf8ByteSize ≤ maxJsonBytes

/-- The literals of the workflow are within the limits of the inputs that are advertised. -/
def LiteralsFit (jsonText : Value → String) (db : Database) (definition : WorkflowDefinition) : Prop :=
  ∀ job ∈ definition.jobs, ∀ schema, db.advertised job.runnerId job.runnerJobName = some schema →
    ∀ inputName value input, job.inputs.get inputName = some (.literal value) →
      schema.inputs.get inputName = some input → input.Fits jsonText value

def PromotedSource (db : Database) (runnerId jobName outputName : String) : Prop :=
  ∃ schema output, db.advertised runnerId jobName = some schema ∧
    schema.outputs.get outputName = some output ∧ output.kind = .artifact

/-- The sources of promoted artifacts that the workflow names are advertised. -/
def PromotedAdvertised (db : Database) (definition : WorkflowDefinition) : Prop :=
  ∀ job ∈ definition.jobs, ∀ inputName runnerId jobName outputName,
    job.inputs.get inputName = some (.promotedArtifact runnerId jobName outputName) →
    PromotedSource db runnerId jobName outputName

section

variable {jsonText : Value → String} {db db' : Database} {definition : WorkflowDefinition}
variable {defs defs' : List RunnerJobDefinition} {jobIndex : ℕ} {inputName : String}

lemma validateLiteralInputConstraints_iff {input : JobInputDefinition} {value : Value} :
    validateLiteralInputConstraints jsonText inputName input value = .ok () ↔
      input.Fits jsonText value := by
  have hlength : validateLiteralLength inputName input value = .ok () ↔
      ∀ maxLength ∈ input.maxLength, ∀ text ∈ value.asStr, text.length ≤ maxLength := by
    simp only [validateLiteralLength]
    cases input.maxLength <;> cases value.asStr <;> simp
  have hsize : validateLiteralJsonSize jsonText inputName input value = .ok () ↔
      ∀ maxJsonBytes ∈ input.maxJsonBytes, (jsonText value).utf8ByteSize ≤ maxJsonBytes := by
    simp only [validateLiteralJsonSize]
    cases input.maxJsonBytes <;> simp
  rw [JobInputDefinition.Fits, ← hlength, ← hsize]
  constructor
  · intro h
    obtain ⟨⟨⟩, hl, hs⟩ := bind_ok h
    exact ⟨hl, hs⟩
  · rintro ⟨hl, hs⟩
    simp only [validateLiteralInputConstraints, hl, ok_bind, hs]

lemma validatePromotedArtifact_iff {runnerId jobName outputName : String}
    (hrunner : (db.runners.find? runnerId).isSome) :
    validatePromotedArtifact db.catalog runnerId jobName outputName = .ok () ↔
      PromotedSource db runnerId jobName outputName := by
  obtain ⟨runner, hrunner⟩ := Option.isSome_iff_exists.mp hrunner
  simp only [validatePromotedArtifact, Database.catalog, hrunner, Option.map_some, ok_bind,
    PromotedSource, Database.advertised]
  split
  · next hnone => simp [hnone]
  · next schema hschema =>
    split
    · next hnone => simp [hschema, hnone]
    · next output houtput =>
      split
      · next hkind => simp [hschema, houtput, hkind]
      · next hkind => simp [hschema, houtput, hkind]

lemma validateJobOutput_iff {jobCount : ℕ} (hlt : jobIndex < jobCount) {expectedKind : InputType}
    {binding : JobOutputBinding} :
    validateJobOutput defs jobCount jobIndex inputName expectedKind binding = .ok () ↔
      Declared defs jobIndex expectedKind binding.jobIndex binding.outputName := by
  refine ⟨validateJobOutput_ok, ?_⟩
  rintro ⟨hearlier, upstream, hupstream, output, houtput, hkind⟩
  have hcount : ¬ binding.jobIndex ≥ jobCount := by omega
  have hindex : ¬ binding.jobIndex ≥ jobIndex := by omega
  simp only [validateJobOutput, hcount, hindex, if_false, hupstream, houtput, hkind, if_true]

lemma validatePromotedArtifact_runner {runnerId jobName outputName : String}
    (h : validatePromotedArtifact db.catalog runnerId jobName outputName = .ok ()) :
    (db.runners.find? runnerId).isSome := by
  obtain ⟨found, hfound, h⟩ := bind_ok h
  cases found with
  | none => exact (nomatch h)
  | some runnerName =>
    obtain ⟨runner, hrunner, -⟩ := Option.map_eq_some_iff.mp (Except.ok.inj hfound)
    exact Option.isSome_iff_exists.mpr ⟨runner, hrunner⟩

lemma validateBinding_again {jobCount : ℕ} (hlt : jobIndex < jobCount)
    {input input' : JobInputDefinition} (hkind : input'.kind = input.kind)
    {binding : WorkflowInputBinding}
    (hold : validateBinding jsonText db.catalog defs jobCount jobIndex inputName input binding =
      .ok ())
    (hrunners : ∀ id, (db.runners.find? id).isSome → (db'.runners.find? id).isSome)
    (hdeclared : ∀ upstreamIndex outputName, binding = .jobOutput upstreamIndex outputName →
      Declared defs jobIndex input.kind upstreamIndex outputName →
        Declared defs' jobIndex input.kind upstreamIndex outputName)
    (hliteral : ∀ value, binding = .literal value → input'.Fits jsonText value)
    (hpromoted : ∀ runnerId jobName outputName,
      binding = .promotedArtifact runnerId jobName outputName →
        PromotedSource db' runnerId jobName outputName) :
    validateBinding jsonText db'.catalog defs' jobCount jobIndex inputName input' binding = .ok () := by
  cases binding with
  | commit =>
    simp only [validateBinding, hkind] at hold ⊢
    exact hold
  | branch =>
    simp only [validateBinding, hkind] at hold ⊢
    exact hold
  | sourceArtifact =>
    simp only [validateBinding, hkind] at hold ⊢
    exact hold
  | promotedArtifact runnerId jobName outputName =>
    simp only [validateBinding, hkind] at hold ⊢
    split at hold
    · next hartifact =>
      rw [if_pos hartifact]
      have hrunner := hrunners runnerId (validatePromotedArtifact_runner hold)
      exact (validatePromotedArtifact_iff hrunner).mpr (hpromoted runnerId jobName outputName rfl)
    · cases hold
  | literal value =>
    simp only [validateBinding, validateLiteral, hkind] at hold ⊢
    split at hold
    · next hmatches =>
      rw [if_pos hmatches]
      exact validateLiteralInputConstraints_iff.mpr (hliteral value rfl)
    · cases hold
  | jobOutput upstreamIndex outputName =>
    simp only [validateBinding, hkind] at hold ⊢
    cases hparse : parseJobOutputBinding (.jobOutput upstreamIndex outputName) with
    | none => rfl
    | some reference =>
      simp only [hparse] at hold
      simp only [parseJobOutputBinding] at hparse
      split at hparse
      · cases hparse
      · obtain rfl := Option.some.inj hparse
        refine (validateJobOutput_iff hlt).mpr (hdeclared _ _ rfl ?_)
        exact (validateJobOutput_iff hlt).mp hold

lemma validateBinding_fits {jobCount : ℕ} {input : JobInputDefinition} {value : Value}
    {catalog : RunnerCatalog} (h : validateBinding jsonText catalog defs jobCount jobIndex inputName
      input (.literal value) = .ok ()) : input.Fits jsonText value := by
  simp only [validateBinding, validateLiteral] at h
  split at h
  · exact validateLiteralInputConstraints_iff.mp h
  · cases h

lemma validateBinding_promoted {jobCount : ℕ} {input : JobInputDefinition}
    {runnerId jobName outputName : String}
    (h : validateBinding jsonText db.catalog defs jobCount jobIndex inputName input
      (.promotedArtifact runnerId jobName outputName) = .ok ()) :
    PromotedSource db runnerId jobName outputName := by
  simp only [validateBinding] at h
  split at h
  · exact (validatePromotedArtifact_iff (validatePromotedArtifact_runner h)).mp h
  · cases h

lemma advertises_catalog {job : WorkflowJobDefinition} {schema : RunnerJobDefinition} :
    Advertises db.catalog job schema ↔ (db.runners.find? job.runnerId).isSome ∧
      db.advertised job.runnerId job.runnerJobName = some schema := by
  constructor
  · rintro ⟨runnerName, advertised, hrunner, hadvertised, hschema⟩
    obtain ⟨runner, hrunner, -⟩ := Option.map_eq_some_iff.mp (Except.ok.inj hrunner)
    obtain rfl := Except.ok.inj hadvertised
    exact ⟨Option.isSome_iff_exists.mpr ⟨runner, hrunner⟩, hschema⟩
  · rintro ⟨hrunner, hschema⟩
    obtain ⟨runner, hrunner⟩ := Option.isSome_iff_exists.mp hrunner
    refine ⟨runner.name, _, ?_, rfl, hschema⟩
    simp only [Database.catalog, hrunner, Option.map_some]

lemma exists_defs {jobs : List WorkflowJobDefinition}
    (h : ∀ job ∈ jobs, ∃ schema, Advertises db.catalog job schema) :
    ∃ defs, List.Forall₂ (Advertises db.catalog) jobs defs := by
  induction jobs with
  | nil => exact ⟨[], .nil⟩
  | cons job jobs ih =>
    obtain ⟨schema, hschema⟩ := h job List.mem_cons_self
    obtain ⟨defs, hdefs⟩ := ih fun job hjob => h job (.tail _ hjob)
    exact ⟨schema :: defs, .cons hschema hdefs⟩

lemma Forall₂.getElem? {α β : Type} {R : α → β → Prop} {as : List α} {bs : List β}
    (h : List.Forall₂ R as bs) {i : ℕ} {a : α} (ha : as[i]? = some a) :
    ∃ b, bs[i]? = some b ∧ R a b := by
  induction h generalizing i with
  | nil => cases ha
  | cons hab _ ih =>
    cases i with
    | zero =>
      obtain rfl := Option.some.inj ha
      exact ⟨_, rfl, hab⟩
    | succ i => exact ih ha

lemma mem_workflowReferencedOutputs {job : WorkflowJobDefinition} (hj : job ∈ definition.jobs)
    {upstreamIndex : ℕ} {outputName : String}
    (hb : job.inputs.get inputName = some (.jobOutput upstreamIndex outputName)) :
    outputName ∈ workflowReferencedOutputs definition upstreamIndex := by
  refine List.mem_filterMap.mpr ⟨.jobOutput upstreamIndex outputName, ?_, if_pos rfl⟩
  refine List.mem_flatMap.mpr ⟨job, hj, ?_⟩
  exact List.mem_map.mpr ⟨_, OrderedMap.get_eq_some_iff.mp hb, rfl⟩

lemma mem_workflowBoundInputs {job : WorkflowJobDefinition}
    (hj : definition.jobs[jobIndex]? = some job) {binding : WorkflowInputBinding}
    (hb : job.inputs.get inputName = some binding) :
    inputName ∈ workflowBoundInputs definition jobIndex := by
  simp only [workflowBoundInputs, hj]
  exact List.mem_map.mpr ⟨_, OrderedMap.get_eq_some_iff.mp hb, rfl⟩

lemma JobAccepted.again {job : WorkflowJobDefinition} {saved current : RunnerJobDefinition}
    (hold : JobAccepted jsonText db.catalog defs definition.jobs.length jobIndex job saved)
    (hj : definition.jobs[jobIndex]? = some job)
    (hcompatible : Compatible (workflowBoundInputs definition jobIndex)
      (workflowReferencedOutputs definition jobIndex) saved current)
    (hrunners : ∀ id, (db.runners.find? id).isSome → (db'.runners.find? id).isSome)
    (hdeclared : ∀ kind upstreamIndex outputName,
      outputName ∈ workflowReferencedOutputs definition upstreamIndex →
      Declared defs jobIndex kind upstreamIndex outputName →
        Declared defs' jobIndex kind upstreamIndex outputName)
    (hliterals : ∀ inputName value input, job.inputs.get inputName = some (.literal value) →
      current.inputs.get inputName = some input → input.Fits jsonText value)
    (hpromoted : ∀ inputName runnerId jobName outputName,
      job.inputs.get inputName = some (.promotedArtifact runnerId jobName outputName) →
        PromotedSource db' runnerId jobName outputName) :
    JobAccepted jsonText db'.catalog defs' definition.jobs.length jobIndex job current := by
  obtain ⟨hlt, -⟩ := List.getElem?_eq_some_iff.mp hj
  constructor
  · intro inputName binding hb
    obtain ⟨input, hinput, hvalid⟩ := hold.bindings inputName binding hb
    obtain ⟨input', hinput', hkind⟩ :=
      hcompatible.bound inputName (mem_workflowBoundInputs hj hb) input hinput
    refine ⟨input', hinput', validateBinding_again hlt hkind hvalid hrunners ?_ ?_ ?_⟩
    · rintro upstreamIndex outputName rfl hd
      have hmem := mem_workflowReferencedOutputs (List.mem_of_getElem? hj) hb
      exact hdeclared _ _ _ hmem hd
    · rintro value rfl
      exact hliterals inputName value input' hb hinput'
    · rintro runnerId jobName outputName rfl
      exact hpromoted inputName runnerId jobName outputName hb
  · intro inputName input' hinput' hrequired
    obtain ⟨input, hinput, hsaved⟩ := hcompatible.required inputName input' hinput' hrequired
    exact hold.required inputName input hinput hsaved

end

/-- A workflow that was accepted, and whose report is not incompatible, is accepted again exactly when
its literals fit the limits of today and the sources of its promoted artifacts are advertised. -/
theorem accepted_again_iff (jsonText : Value → String) (app : AppState) (db : Database) (s : Store)
    (os : List Outcome) (workflow : Workflow) {definition : WorkflowDefinition}
    {report : WorkflowSchemaReport} (hdefinition : workflow.definitionJson = .ok definition)
    (haccepted : validateWorkflowRunners jsonText db.catalog definition =
      .ok (s.db.workflowJobSchemas workflow.versionId))
    (hrunners : ∀ id, (db.runners.find? id).isSome → (s.db.runners.find? id).isSome)
    (hreport : ((workflowSchemaReport workflow).play (Call.exec app) os s).result =
      some (.ok report)) (hstatus : report.status ≠ .incompatible) :
    (∃ defs, validateWorkflowRunners jsonText s.db.catalog definition = .ok defs) ↔
      LiteralsFit jsonText s.db definition ∧ PromotedAdvertised s.db definition := by
  constructor
  · rintro ⟨defs, hdefs⟩
    obtain ⟨hadvertised, hjobs⟩ := validateWorkflowRunners_iff.mp hdefs
    constructor
    · intro job hj schema hschema inputName value input hb hinput
      obtain ⟨jobIndex, hj⟩ := List.mem_iff_getElem?.mp hj
      obtain ⟨schema', hs, ha⟩ := Forall₂.getElem? hadvertised hj
      obtain rfl := Option.some.inj ((advertises_catalog.mp ha).2.symm.trans hschema)
      obtain ⟨input', hinput', hvalid⟩ := (hjobs jobIndex job _ hj hs).bindings inputName _ hb
      obtain rfl := Option.some.inj (hinput.symm.trans hinput')
      exact validateBinding_fits hvalid
    · intro job hj inputName runnerId jobName outputName hb
      obtain ⟨jobIndex, hj⟩ := List.mem_iff_getElem?.mp hj
      obtain ⟨schema, hs, -⟩ := Forall₂.getElem? hadvertised hj
      obtain ⟨input, -, hvalid⟩ := (hjobs jobIndex job _ hj hs).bindings inputName _ hb
      exact validateBinding_promoted hvalid
  · rintro ⟨hliterals, hpromoted⟩
    obtain ⟨hadvertised, hjobs⟩ := validateWorkflowRunners_iff.mp haccepted
    have hfound {jobIndex : ℕ} {job : WorkflowJobDefinition}
        (hj : definition.jobs[jobIndex]? = some job) :=
      workflowSchemaReport_found hreport hstatus hdefinition hj
    have hcatalog : ∀ job ∈ definition.jobs, ∃ schema, Advertises s.db.catalog job schema := by
      intro job hj
      obtain ⟨jobIndex, hj⟩ := List.mem_iff_getElem?.mp hj
      obtain ⟨saved, current, -, hcurrent, -⟩ := hfound hj
      obtain ⟨schema, -, ha⟩ := Forall₂.getElem? hadvertised hj
      exact ⟨current, advertises_catalog.mpr ⟨hrunners _ (advertises_catalog.mp ha).1, hcurrent⟩⟩
    obtain ⟨defs, hdefs⟩ := exists_defs hcatalog
    refine ⟨defs, validateWorkflowRunners_iff.mpr ⟨hdefs, fun jobIndex job current hj hs => ?_⟩⟩
    obtain ⟨saved, current', hsaved, hcurrent, hcompatible⟩ := hfound hj
    obtain ⟨schema, hs', ha⟩ := Forall₂.getElem? hdefs hj
    obtain rfl := Option.some.inj (hs.symm.trans hs')
    obtain rfl := Option.some.inj (hcurrent.symm.trans (advertises_catalog.mp ha).2)
    refine (hjobs jobIndex job saved hj hsaved).again hj hcompatible hrunners ?_ ?_ ?_
    · rintro kind upstreamIndex outputName hreferenced ⟨hearlier, upstream, hup, output, hout, hkind⟩
      obtain ⟨hlt, -⟩ := List.getElem?_eq_some_iff.mp hj
      have hupj := List.getElem?_eq_getElem (hearlier.trans hlt)
      obtain ⟨upstream', current, hup', hcurrent, hcompatible⟩ := hfound hupj
      obtain rfl := Option.some.inj (hup.symm.trans hup')
      obtain ⟨output', hout', hkind'⟩ :=
        hcompatible.referenced outputName hreferenced output hout
      obtain ⟨schema, hups, ha⟩ := Forall₂.getElem? hdefs hupj
      obtain rfl := Option.some.inj (hcurrent.symm.trans (advertises_catalog.mp ha).2)
      exact ⟨hearlier, current, hups, output', hout', hkind' ▸ hkind⟩
    · exact hliterals job (List.mem_of_getElem? hj) current' hcurrent
    · exact hpromoted job (List.mem_of_getElem? hj)

def refSchema (maxLength : Option ℕ) : RunnerJobDefinition :=
  { sampleSchema with
    inputs := .ofList [("ref", { kind := .string, required := true, sensitive := false, maxLength,
                                 pattern := none, maxJsonBytes := none })] }

def refDefinition : WorkflowDefinition :=
  ⟨[{ runnerId := "runner", runnerJobName := "build",
      inputs := .ofList [("ref", .literal (.string "main"))] }]⟩

def refWorkflow : Workflow := ⟨1, 1, "ci", true, 1, .ok ⟨"push", []⟩, .ok refDefinition⟩

def refDatabase (maxLength : Option ℕ) : Database :=
  { sampleDatabase 1 .empty .empty .empty with
    runnerJobs := [("runner", refSchema maxLength)]
    workflowVersions :=
      .single ⟨1, 1, 1, refWorkflow.triggerJson, refWorkflow.definitionJson, [refSchema none]⟩ }

theorem limited_literal :
    validateWorkflowRunners (fun _ => "") (refDatabase none).catalog refDefinition =
        .ok ((refDatabase (some 2)).workflowJobSchemas 1) ∧
      ((workflowSchemaReport refWorkflow).play (Call.exec sampleApp) [{}, {}]
        ⟨refDatabase (some 2), [], [], {}⟩).result = some (.ok ⟨.current, []⟩) ∧
      validateWorkflowRunners (fun _ => "") (refDatabase (some 2)).catalog refDefinition =
        .error "workflow input ref exceeds max length 2" :=
  ⟨rfl, rfl, rfl⟩

theorem accepted_again_unchanged : LiteralsFit (fun _ => "") (refDatabase none) refDefinition ∧
    PromotedAdvertised (refDatabase none) refDefinition :=
  have hreport : ((workflowSchemaReport refWorkflow).play (Call.exec sampleApp) [{}, {}]
      ⟨refDatabase none, [], [], {}⟩).result = some (.ok ⟨.current, []⟩) := rfl
  (accepted_again_iff (fun _ => "") sampleApp (refDatabase none) ⟨refDatabase none, [], [], {}⟩ [{}, {}]
    refWorkflow rfl rfl (fun _ h => h) hreport (by decide)).mp ⟨_, rfl⟩

end Janus.Server
