import Janus.Server.Compatibility

/-! The report of a workflow names each disagreement of its snapshot with the catalog, once. -/

namespace Janus.Server

open Janus.Concurrency Janus.Data

inductive FieldChange
  | added | removed | typeChanged | requirednessChanged
  deriving DecidableEq

namespace FieldChange

def inputKind : FieldChange → WorkflowSchemaDiffKind
  | added => .inputAdded
  | removed => .inputRemoved
  | typeChanged => .inputTypeChanged
  | requirednessChanged => .inputRequirednessChanged

def outputKind : FieldChange → WorkflowSchemaDiffKind
  | added => .outputAdded
  | removed => .outputRemoved
  | typeChanged => .outputTypeChanged
  | requirednessChanged => .outputRequirednessChanged

def Between {κ : Type} (saved current : Option (κ × Bool)) : FieldChange → Prop
  | added => saved = none ∧ current.isSome
  | removed => saved.isSome ∧ current = none
  | typeChanged => ∃ field ∈ saved, ∃ field' ∈ current, field.1 ≠ field'.1
  | requirednessChanged => ∃ field ∈ saved, ∃ field' ∈ current, field.2 ≠ field'.2

lemma forall_not_between {κ : Type} {saved current : Option (κ × Bool)} :
    (∀ change : FieldChange, ¬ change.Between saved current) ↔ saved = current := by
  constructor
  · intro h
    have hadded := h added
    have hremoved := h removed
    have htype := h typeChanged
    have hrequired := h requirednessChanged
    cases saved with
    | none => cases current <;> simp_all [Between]
    | some field =>
      cases current with
      | none => simp_all [Between]
      | some field' =>
        simp only [Between, Option.mem_def, Option.some.injEq, exists_eq_left', not_not] at htype hrequired
        rw [Prod.ext htype hrequired]
  · rintro rfl change
    cases change with
    | added => rintro ⟨rfl, h⟩; cases h
    | removed => rintro ⟨h, rfl⟩; cases h
    | typeChanged => rintro ⟨field, h, field', h', hne⟩; exact hne (by rw [Option.mem_unique h h'])
    | requirednessChanged =>
      rintro ⟨field, h, field', h', hne⟩; exact hne (by rw [Option.mem_unique h h'])

lemma inputKind_injective {change change' : FieldChange} (h : change.inputKind = change'.inputKind) :
    change = change' := by
  cases change <;> cases change' <;> first | rfl | cases h

lemma outputKind_injective {change change' : FieldChange}
    (h : change.outputKind = change'.outputKind) : change = change' := by
  cases change <;> cases change' <;> first | rfl | cases h

end FieldChange

namespace RunnerJobDefinition

variable (schema : RunnerJobDefinition)

def inputField (name : String) : Option (InputType × Bool) :=
  (schema.inputs.get name).map fun input => (input.kind, input.required)

def outputField (name : String) : Option (OutputType × Bool) :=
  (schema.outputs.get name).map fun output => (output.kind, output.required)

end RunnerJobDefinition

def SameInterface (saved current : RunnerJobDefinition) : Prop :=
  (∀ name, saved.inputField name = current.inputField name) ∧
    ∀ name, saved.outputField name = current.outputField name

abbrev Advertised := String → String → Option RunnerJobDefinition

section

variable (definition : WorkflowDefinition) (snapshot : List RunnerJobDefinition)
variable (advertised : Advertised)

def Compared (jobIndex : ℕ) (saved current : RunnerJobDefinition) : Prop :=
  ∃ job, definition.jobs[jobIndex]? = some job ∧ snapshot[jobIndex]? = some saved ∧
    advertised job.runnerId job.runnerJobName = some current

inductive Disagrees : WorkflowSchemaDiffKind → ℕ → Option String → Prop
  | job {jobIndex : ℕ} (listed : jobIndex < definition.jobs.length ∨ jobIndex < snapshot.length)
      (alone : ∀ saved current, ¬ Compared definition snapshot advertised jobIndex saved current) :
      Disagrees .jobRemoved jobIndex none
  | input {jobIndex : ℕ} {saved current : RunnerJobDefinition}
      (compared : Compared definition snapshot advertised jobIndex saved current) (name : String)
      (change : FieldChange)
      (between : change.Between (saved.inputField name) (current.inputField name)) :
      Disagrees change.inputKind jobIndex (some name)
  | output {jobIndex : ℕ} {saved current : RunnerJobDefinition}
      (compared : Compared definition snapshot advertised jobIndex saved current) (name : String)
      (change : FieldChange)
      (between : change.Between (saved.outputField name) (current.outputField name)) :
      Disagrees change.outputKind jobIndex (some name)

/-- One schema for each job, each job advertised, and the two of them with the same interface. -/
def Unchanged : Prop :=
  snapshot.length = definition.jobs.length ∧
    ∀ (jobIndex : ℕ) (job : WorkflowJobDefinition) (saved : RunnerJobDefinition),
      definition.jobs[jobIndex]? = some job → snapshot[jobIndex]? = some saved →
      ∃ current, advertised job.runnerId job.runnerJobName = some current ∧
        SameInterface saved current

end

def WorkflowSchemaDiff.place (diff : WorkflowSchemaDiff) :
    WorkflowSchemaDiffKind × ℕ × Option String :=
  (diff.kind, diff.jobIndex, diff.fieldName)

structure ExactReport (definition : WorkflowDefinition) (snapshot : List RunnerJobDefinition)
    (advertised : Advertised) (report : WorkflowSchemaReport) : Prop where
  once : (report.diff.map WorkflowSchemaDiff.place).Nodup
  places : ∀ kind jobIndex fieldName,
    (kind, jobIndex, fieldName) ∈ report.diff.map WorkflowSchemaDiff.place ↔
      Disagrees definition snapshot advertised kind jobIndex fieldName
  empty : report.diff = [] ↔ Unchanged definition snapshot advertised
  current : report.status = .current ↔ ∀ diff ∈ report.diff, diff.incompatible = false ∧
    (diff.kind = .inputAdded ∨ diff.kind = .outputAdded)
  incompatible : report.status = .incompatible ↔ ∃ diff ∈ report.diff, diff.incompatible = true

lemma nodup_flatMap_of_key {α β κ : Type} {key : α → κ} (key' : β → κ) {as : List α}
    {f : α → List β} (has : (as.map key).Nodup) (hkey : ∀ a ∈ as, ∀ b ∈ f a, key' b = key a)
    (hf : ∀ a ∈ as, (f a).Nodup) : (as.flatMap f).Nodup := by
  refine List.nodup_flatMap.mpr ⟨hf, ?_⟩
  refine (List.pairwise_map.mp has).imp_of_mem fun {a a'} ha ha' hne => ?_
  intro b hb hb'
  exact hne ((hkey a ha b hb).symm.trans (hkey a' ha' b hb'))

section

variable {jobIndex : ℕ} {jobName : String} {saved current : RunnerJobDefinition}
variable {names : List String} {place : WorkflowSchemaDiffKind × ℕ × Option String}

lemma addedInput_places (name : String) (input : JobInputDefinition) :
    (addedInput jobIndex jobName saved name input).map WorkflowSchemaDiff.place =
      if saved.inputs.containsKey name then [] else [(.inputAdded, jobIndex, some name)] := by
  simp only [addedInput]
  split <;> rfl

lemma addedOutput_places (name : String) (output : JobOutputDefinition) :
    (addedOutput jobIndex jobName saved name output).map WorkflowSchemaDiff.place =
      if saved.outputs.containsKey name then [] else [(.outputAdded, jobIndex, some name)] := by
  simp only [addedOutput]
  split <;> rfl

def fieldChanges {κ : Type} [DecidableEq κ] (field : κ × Bool) :
    Option (κ × Bool) → List FieldChange
  | none => [.removed]
  | some field' => (if field.1 = field'.1 then [] else [.typeChanged]) ++
      if field.2 = field'.2 then [] else [.requirednessChanged]

lemma mem_fieldChanges {κ : Type} [DecidableEq κ] {field : κ × Bool} {field' : Option (κ × Bool)}
    {change : FieldChange} :
    change ∈ fieldChanges field field' ↔ change.Between (some field) field' := by
  cases field' with
  | none => cases change <;> simp [fieldChanges, FieldChange.Between]
  | some field' =>
    simp only [fieldChanges]
    split <;> split <;> cases change <;> simp_all [FieldChange.Between]

lemma fieldChanges_nodup {κ : Type} [DecidableEq κ] (field : κ × Bool) (field' : Option (κ × Bool)) :
    (fieldChanges field field').Nodup := by
  cases field' with
  | none => exact List.nodup_singleton _
  | some field' =>
    simp only [fieldChanges]
    split <;> split <;> simp

lemma changedInput_places (name : String) (input : JobInputDefinition) :
    (changedInput jobIndex jobName current names name input).map WorkflowSchemaDiff.place =
      (fieldChanges (input.kind, input.required) (current.inputField name)).map fun change =>
        (change.inputKind, jobIndex, some name) := by
  simp only [changedInput, RunnerJobDefinition.inputField]
  cases current.inputs.get name with
  | none => rfl
  | some input' =>
    simp only [fieldChanges, Option.map_some, List.map_append]
    split <;> split <;> rfl

lemma changedOutput_places (name : String) (output : JobOutputDefinition) :
    (changedOutput jobIndex jobName current names name output).map WorkflowSchemaDiff.place =
      (fieldChanges (output.kind, output.required) (current.outputField name)).map fun change =>
        (change.outputKind, jobIndex, some name) := by
  simp only [changedOutput, RunnerJobDefinition.outputField]
  cases current.outputs.get name with
  | none => rfl
  | some output' =>
    simp only [fieldChanges, Option.map_some, List.map_append]
    split <;> split <;> rfl

end

section

variable {α κ : Type} [DecidableEq κ] (saved current : BTreeMap α) (field : α → κ × Bool)
variable (kind : FieldChange → WorkflowSchemaDiffKind) (jobIndex : ℕ)

def fieldPlaces : List (WorkflowSchemaDiffKind × ℕ × Option String) :=
  (current.entries.flatMap fun entry => if saved.containsKey entry.1 then []
    else [(kind .added, jobIndex, some entry.1)]) ++
  saved.entries.flatMap fun entry =>
    (fieldChanges (field entry.2) ((current.get entry.1).map field)).map fun change =>
      (kind change, jobIndex, some entry.1)

variable {saved current field kind jobIndex}

lemma mem_fieldPlaces {place : WorkflowSchemaDiffKind × ℕ × Option String} :
    place ∈ fieldPlaces saved current field kind jobIndex ↔
      ∃ name change, change.Between ((saved.get name).map field) ((current.get name).map field) ∧
        place = (kind change, jobIndex, some name) := by
  simp only [fieldPlaces, List.mem_append, List.mem_flatMap]
  constructor
  · rintro (⟨⟨name, a⟩, hentry, hplace⟩ | ⟨⟨name, a⟩, hentry, hplace⟩)
    · have hget := OrderedMap.get_eq_some_iff.mpr hentry
      split at hplace
      · cases hplace
      · next hsaved =>
        have hnone : saved.get name = none := by
          rw [OrderedMap.containsKey_iff] at hsaved
          exact Option.eq_none_iff_forall_not_mem.mpr fun b hb => hsaved ⟨b, hb⟩
        exact ⟨name, .added, by simp [FieldChange.Between, hnone, hget], List.mem_singleton.mp hplace⟩
    · have hget := OrderedMap.get_eq_some_iff.mpr hentry
      obtain ⟨change, hchange, rfl⟩ := List.mem_map.mp hplace
      refine ⟨name, change, ?_, rfl⟩
      rw [hget]
      exact mem_fieldChanges.mp hchange
  · rintro ⟨name, change, hbetween, rfl⟩
    cases hsaved : saved.get name with
    | none =>
      rw [hsaved] at hbetween
      have hadded : change = .added := by cases change <;> simp_all [FieldChange.Between]
      subst hadded
      obtain ⟨b, hcurrent⟩ := Option.isSome_iff_exists.mp hbetween.2
      obtain ⟨a, hget, -⟩ := Option.map_eq_some_iff.mp hcurrent
      refine .inl ⟨(name, a), OrderedMap.get_eq_some_iff.mp hget, ?_⟩
      have hkey : ¬ saved.containsKey name = true := by
        rw [OrderedMap.containsKey_iff, hsaved]
        simp
      rw [if_neg hkey]
      exact List.mem_singleton_self _
    | some a =>
      rw [hsaved] at hbetween
      refine .inr ⟨(name, a), OrderedMap.get_eq_some_iff.mp hsaved, ?_⟩
      exact List.mem_map_of_mem (mem_fieldChanges.mpr hbetween)

lemma fieldPlaces_nodup (hkind : ∀ change change', kind change = kind change' → change = change') :
    (fieldPlaces saved current field kind jobIndex).Nodup := by
  have hnames (m : BTreeMap α) : (m.entries.map fun entry => some entry.1).Nodup := by
    have h := m.keys_nodup.map (Option.some_injective String)
    rwa [OrderedMap.keys, List.map_map] at h
  refine List.nodup_append.mpr ⟨?_, ?_, ?_⟩
  · refine nodup_flatMap_of_key (fun place => place.2.2) (hnames current) ?_ ?_
    · rintro entry - place hplace
      split at hplace
      · cases hplace
      · rw [List.mem_singleton.mp hplace]
    · intro entry _
      split
      · exact List.nodup_nil
      · exact List.nodup_singleton _
  · refine nodup_flatMap_of_key (fun place => place.2.2) (hnames saved) ?_ ?_
    · rintro entry - place hplace
      obtain ⟨change, -, rfl⟩ := List.mem_map.mp hplace
      rfl
    · intro entry _
      refine (fieldChanges_nodup _ _).map fun change change' h => hkind _ _ ?_
      exact congrArg Prod.fst h
  · -- An addition is no change of a field that is saved.
    rintro place hadded place' hchanged rfl
    obtain ⟨entry, -, hplace⟩ := List.mem_flatMap.mp hadded
    obtain ⟨entry', -, hplace'⟩ := List.mem_flatMap.mp hchanged
    obtain ⟨change, hchange, heq⟩ := List.mem_map.mp hplace'
    split at hplace
    · cases hplace
    · obtain rfl := List.mem_singleton.mp hplace
      obtain rfl := hkind _ _ (congrArg Prod.fst heq)
      have hbetween := mem_fieldChanges.mp hchange
      cases hbetween.1

end

section

variable {jobIndex : ℕ} {jobName : String} {saved current : RunnerJobDefinition}
variable {names names' : List String}

lemma diffJobSchema_places :
    (diffJobSchema jobIndex jobName saved current names names').map WorkflowSchemaDiff.place =
      fieldPlaces saved.inputs current.inputs (fun input => (input.kind, input.required))
        FieldChange.inputKind jobIndex ++
      fieldPlaces saved.outputs current.outputs (fun output => (output.kind, output.required))
        FieldChange.outputKind jobIndex := by
  simp only [diffJobSchema, fieldPlaces, List.map_append, List.map_flatMap, addedInput_places,
    changedInput_places, addedOutput_places, changedOutput_places, List.append_assoc]
  rfl

lemma mem_diffJobSchema {place : WorkflowSchemaDiffKind × ℕ × Option String} :
    place ∈ (diffJobSchema jobIndex jobName saved current names names').map
        WorkflowSchemaDiff.place ↔
      (∃ name, ∃ change : FieldChange,
        change.Between (saved.inputField name) (current.inputField name) ∧
          place = (change.inputKind, jobIndex, some name)) ∨
      ∃ name, ∃ change : FieldChange,
        change.Between (saved.outputField name) (current.outputField name) ∧
          place = (change.outputKind, jobIndex, some name) := by
  rw [diffJobSchema_places, List.mem_append, mem_fieldPlaces, mem_fieldPlaces]
  rfl

lemma diffJobSchema_nodup :
    ((diffJobSchema jobIndex jobName saved current names names').map
      WorkflowSchemaDiff.place).Nodup := by
  rw [diffJobSchema_places]
  refine List.nodup_append.mpr ⟨fieldPlaces_nodup fun _ _ => FieldChange.inputKind_injective,
    fieldPlaces_nodup fun _ _ => FieldChange.outputKind_injective, ?_⟩
  rintro place hinput place' houtput rfl
  obtain ⟨name, change, -, rfl⟩ := mem_fieldPlaces.mp hinput
  obtain ⟨name', change', -, heq⟩ := mem_fieldPlaces.mp houtput
  have hkind := congrArg Prod.fst heq
  cases change <;> cases change' <;> cases hkind

end

section

variable (definition : WorkflowDefinition) (snapshot : List RunnerJobDefinition)
variable (advertised : Advertised)

def jobDiff (job : WorkflowJobDefinition) (jobIndex : ℕ) : List WorkflowSchemaDiff :=
  match snapshot[jobIndex]? with
  | none => [jobRemoved jobIndex job.runnerJobName job.runnerJobName
      s!"job-{jobIndex + 1} {job.runnerJobName} is missing from the saved schema snapshot"]
  | some saved => match advertised job.runnerId job.runnerJobName with
    | none => [jobRemoved jobIndex job.runnerJobName saved.name
        s!"job-{jobIndex + 1} {job.runnerJobName} is no longer advertised by its runner"]
    | some current => diffJobSchema jobIndex job.runnerJobName saved current
        (workflowBoundInputs definition jobIndex) (workflowReferencedOutputs definition jobIndex)

def reportDiff : List WorkflowSchemaDiff :=
  (definition.jobs.zipIdx.flatMap fun entry =>
    jobDiff definition snapshot advertised entry.1 entry.2) ++ extraSchemaDiffs definition snapshot

end

section

variable {definition : WorkflowDefinition} {snapshot : List RunnerJobDefinition}
variable {advertised : Advertised} {job : WorkflowJobDefinition} {jobIndex : ℕ}
variable {place : WorkflowSchemaDiffKind × ℕ × Option String}

lemma jobDiff_nodup :
    ((jobDiff definition snapshot advertised job jobIndex).map WorkflowSchemaDiff.place).Nodup := by
  simp only [jobDiff]
  split
  · exact List.nodup_singleton _
  · split
    · exact List.nodup_singleton _
    · exact diffJobSchema_nodup

lemma Compared.unique {saved current saved' current' : RunnerJobDefinition}
    (h : Compared definition snapshot advertised jobIndex saved current)
    (h' : Compared definition snapshot advertised jobIndex saved' current') :
    saved = saved' ∧ current = current' := by
  obtain ⟨job, hjob, hsaved, hcurrent⟩ := h
  obtain ⟨job', hjob', hsaved', hcurrent'⟩ := h'
  obtain rfl := Option.some.inj (hjob.symm.trans hjob')
  exact ⟨Option.some.inj (hsaved.symm.trans hsaved'),
    Option.some.inj (hcurrent.symm.trans hcurrent')⟩

lemma disagrees_compared {saved current : RunnerJobDefinition}
    (h : Compared definition snapshot advertised jobIndex saved current) (jobName : String)
    (names names' : List String) :
    place ∈ (diffJobSchema jobIndex jobName saved current names names').map
        WorkflowSchemaDiff.place ↔
      place.2.1 = jobIndex ∧
        Disagrees definition snapshot advertised place.1 place.2.1 place.2.2 := by
  rw [mem_diffJobSchema]
  constructor
  · rintro (⟨name, change, hbetween, rfl⟩ | ⟨name, change, hbetween, rfl⟩)
    · exact ⟨rfl, .input h name change hbetween⟩
    · exact ⟨rfl, .output h name change hbetween⟩
  · obtain ⟨kind, index, fieldName⟩ := place
    rintro ⟨rfl, hplace⟩
    cases hplace with
    | job _ alone => exact (alone saved current h).elim
    | input h' name change hbetween =>
      obtain ⟨rfl, rfl⟩ := h.unique h'
      exact .inl ⟨name, change, hbetween, rfl⟩
    | output h' name change hbetween =>
      obtain ⟨rfl, rfl⟩ := h.unique h'
      exact .inr ⟨name, change, hbetween, rfl⟩

lemma disagrees_alone
    (hlisted : jobIndex < definition.jobs.length ∨ jobIndex < snapshot.length)
    (halone : ∀ saved current, ¬ Compared definition snapshot advertised jobIndex saved current) :
    place = (.jobRemoved, jobIndex, none) ↔ place.2.1 = jobIndex ∧
      Disagrees definition snapshot advertised place.1 place.2.1 place.2.2 := by
  constructor
  · rintro rfl
    exact ⟨rfl, .job hlisted halone⟩
  · obtain ⟨kind, index, fieldName⟩ := place
    rintro ⟨rfl, hplace⟩
    cases hplace with
    | job _ _ => rfl
    | input h' _ _ _ => exact (halone _ _ h').elim
    | output h' _ _ _ => exact (halone _ _ h').elim

lemma mem_jobDiff (hj : definition.jobs[jobIndex]? = some job) :
    place ∈ (jobDiff definition snapshot advertised job jobIndex).map WorkflowSchemaDiff.place ↔
      place.2.1 = jobIndex ∧
        Disagrees definition snapshot advertised place.1 place.2.1 place.2.2 := by
  have hlisted : jobIndex < definition.jobs.length ∨ jobIndex < snapshot.length :=
    .inl (List.getElem?_eq_some_iff.mp hj).1
  simp only [jobDiff]
  split
  · next hsaved =>
    rw [← disagrees_alone hlisted]
    · exact List.mem_singleton
    · rintro saved current ⟨job', -, hsaved', -⟩
      cases hsaved.symm.trans hsaved'
  · next saved hsaved =>
    split
    · next hcurrent =>
      rw [← disagrees_alone hlisted]
      · exact List.mem_singleton
      · rintro saved' current ⟨job', hj', -, hcurrent'⟩
        obtain rfl := Option.some.inj (hj.symm.trans hj')
        cases hcurrent.symm.trans hcurrent'
    · next current hcurrent => exact disagrees_compared ⟨job, hj, hsaved, hcurrent⟩ _ _ _

lemma mem_drop_zipIdx {α : Type} {as : List α} {n : ℕ} {entry : α × ℕ} :
    entry ∈ as.zipIdx.drop n ↔ n ≤ entry.2 ∧ as[entry.2]? = some entry.1 := by
  simp only [List.mem_iff_getElem?, List.getElem?_drop, List.getElem?_zipIdx, Option.map_eq_some_iff]
  constructor
  · rintro ⟨i, a, ha, rfl⟩
    dsimp only
    rw [Nat.zero_add]
    exact ⟨Nat.le_add_right n i, ha⟩
  · rintro ⟨hle, ha⟩
    refine ⟨entry.2 - n, entry.1, ?_, ?_⟩
    · rw [Nat.add_sub_cancel' hle]
      exact ha
    · rw [Nat.add_sub_cancel' hle, Nat.zero_add]

lemma mem_extraSchemaDiffs :
    place ∈ (extraSchemaDiffs definition snapshot).map WorkflowSchemaDiff.place ↔
      definition.jobs.length ≤ place.2.1 ∧
        Disagrees definition snapshot advertised place.1 place.2.1 place.2.2 := by
  have halone {index : ℕ} (hle : definition.jobs.length ≤ index) (saved current) :
      ¬ Compared definition snapshot advertised index saved current := by
    rintro ⟨job, hjob, -⟩
    exact absurd (List.getElem?_eq_some_iff.mp hjob).1 (by omega)
  simp only [extraSchemaDiffs, List.map_map, List.mem_map, mem_drop_zipIdx]
  constructor
  · rintro ⟨entry, ⟨hle, hschema⟩, rfl⟩
    exact ⟨hle, .job (.inr (List.getElem?_eq_some_iff.mp hschema).1) (halone hle)⟩
  · obtain ⟨kind, index, fieldName⟩ := place
    rintro ⟨hle, hplace⟩
    cases hplace with
    | job listed alone =>
      have hlt : index < snapshot.length := listed.resolve_left (not_lt.mpr hle)
      exact ⟨(snapshot[index], index), ⟨hle, List.getElem?_eq_getElem hlt⟩, rfl⟩
    | input h' _ _ _ => exact (halone hle _ _ h').elim
    | output h' _ _ _ => exact (halone hle _ _ h').elim

lemma zipIdx_indices {α : Type} (as : List α) : (as.zipIdx.map Prod.snd).Nodup := by
  rw [List.zipIdx_map_snd]
  exact List.nodup_range' 

lemma extraSchemaDiffs_nodup :
    ((extraSchemaDiffs definition snapshot).map WorkflowSchemaDiff.place).Nodup := by
  have hindices : (((extraSchemaDiffs definition snapshot).map WorkflowSchemaDiff.place).map
      fun place => place.2.1).Nodup := by
    simp only [extraSchemaDiffs, List.map_map]
    have h := (List.drop_sublist definition.jobs.length snapshot.zipIdx).map Prod.snd
    exact (zipIdx_indices snapshot).sublist h
  exact .of_map _ hindices

lemma reportDiff_places : (reportDiff definition snapshot advertised).map WorkflowSchemaDiff.place =
    (definition.jobs.zipIdx.flatMap fun entry =>
      (jobDiff definition snapshot advertised entry.1 entry.2).map WorkflowSchemaDiff.place) ++
      (extraSchemaDiffs definition snapshot).map WorkflowSchemaDiff.place := by
  rw [reportDiff, List.map_append, List.map_flatMap]

lemma mem_reportDiff :
    place ∈ (reportDiff definition snapshot advertised).map WorkflowSchemaDiff.place ↔
      Disagrees definition snapshot advertised place.1 place.2.1 place.2.2 := by
  rw [reportDiff_places, List.mem_append, List.mem_flatMap,
    @mem_extraSchemaDiffs _ _ advertised]
  constructor
  · rintro (⟨entry, hentry, hplace⟩ | ⟨-, hplace⟩)
    · exact ((mem_jobDiff (List.mem_zipIdx_iff_getElem?.mp hentry)).mp hplace).2
    · exact hplace
  · intro hplace
    by_cases hle : definition.jobs.length ≤ place.2.1
    · exact .inr ⟨hle, hplace⟩
    · have hj := List.getElem?_eq_getElem (not_le.mp hle)
      exact .inl ⟨(_, place.2.1), List.mem_zipIdx_iff_getElem?.mpr hj,
        (mem_jobDiff hj).mpr ⟨rfl, hplace⟩⟩

lemma reportDiff_nodup :
    ((reportDiff definition snapshot advertised).map WorkflowSchemaDiff.place).Nodup := by
  rw [reportDiff_places]
  refine List.nodup_append.mpr ⟨?_, extraSchemaDiffs_nodup, ?_⟩
  · refine nodup_flatMap_of_key (fun place => place.2.1) (zipIdx_indices _) ?_ fun _ _ => jobDiff_nodup
    intro entry hentry place hplace
    exact ((mem_jobDiff (List.mem_zipIdx_iff_getElem?.mp hentry)).mp hplace).1
  · rintro place hjob place' hextra rfl
    obtain ⟨entry, hentry, hplace⟩ := List.mem_flatMap.mp hjob
    have hj := List.mem_zipIdx_iff_getElem?.mp hentry
    have hindex := ((mem_jobDiff hj).mp hplace).1
    have hle := ((@mem_extraSchemaDiffs _ _ advertised _).mp hextra).1
    have hlt := (List.getElem?_eq_some_iff.mp hj).1
    omega

lemma forall_not_disagrees :
    (∀ kind jobIndex fieldName, ¬ Disagrees definition snapshot advertised kind jobIndex fieldName) ↔
      Unchanged definition snapshot advertised := by
  constructor
  · intro h
    -- Every index that is listed on one side has both schemas.
    have hcompared {index : ℕ}
        (hlisted : index < definition.jobs.length ∨ index < snapshot.length) :
        ∃ saved current, Compared definition snapshot advertised index saved current := by
      by_contra hnone
      simp only [not_exists] at hnone
      exact h _ _ _ (.job hlisted hnone)
    constructor
    · by_contra hne
      rcases Nat.lt_or_gt_of_ne hne with hlt | hgt
      · obtain ⟨saved, current, job, -, hsaved, -⟩ := hcompared (.inl hlt)
        exact absurd (List.getElem?_eq_some_iff.mp hsaved).1 (lt_irrefl _)
      · obtain ⟨saved, current, job, hjob, -⟩ := hcompared (.inr hgt)
        exact absurd (List.getElem?_eq_some_iff.mp hjob).1 (lt_irrefl _)
    · intro index job saved hjob hsaved
      obtain ⟨saved', current, job', hjob', hsaved', hcurrent⟩ :=
        hcompared (.inl (List.getElem?_eq_some_iff.mp hjob).1)
      obtain rfl := Option.some.inj (hjob.symm.trans hjob')
      obtain rfl := Option.some.inj (hsaved.symm.trans hsaved')
      have hpair : Compared definition snapshot advertised index saved current :=
        ⟨job, hjob, hsaved, hcurrent⟩
      refine ⟨current, hcurrent, fun name => ?_, fun name => ?_⟩
      · exact FieldChange.forall_not_between.mp fun change hbetween =>
          h _ _ _ (.input hpair name change hbetween)
      · exact FieldChange.forall_not_between.mp fun change hbetween =>
          h _ _ _ (.output hpair name change hbetween)
  · rintro ⟨hlength, hjobs⟩ kind index fieldName hplace
    have hsame {saved current : RunnerJobDefinition}
        (h : Compared definition snapshot advertised index saved current) :
        SameInterface saved current := by
      obtain ⟨job, hjob, hsaved, hcurrent⟩ := h
      obtain ⟨current', hcurrent', hsame⟩ := hjobs index job saved hjob hsaved
      obtain rfl := Option.some.inj (hcurrent.symm.trans hcurrent')
      exact hsame
    cases hplace with
    | job listed alone =>
      have hlt : index < definition.jobs.length := by omega
      have hjob := List.getElem?_eq_getElem hlt
      have hsaved := List.getElem?_eq_getElem (hlength ▸ hlt)
      obtain ⟨current, hcurrent, -⟩ := hjobs index _ _ hjob hsaved
      exact alone _ current ⟨_, hjob, hsaved, hcurrent⟩
    | input h' name change hbetween =>
      exact FieldChange.forall_not_between.mpr ((hsame h').1 name) change hbetween
    | output h' name change hbetween =>
      exact FieldChange.forall_not_between.mpr ((hsame h').2 name) change hbetween

lemma schemaStatus_current {diff : List WorkflowSchemaDiff} :
    schemaStatus diff = .current ↔ ∀ d ∈ diff, d.incompatible = false ∧
      (d.kind = .inputAdded ∨ d.kind = .outputAdded) := by
  simp only [schemaStatus]
  split
  · next h =>
    obtain ⟨d, hd, hincompatible⟩ := List.any_eq_true.mp h
    refine iff_of_false (by decide) fun hall => ?_
    simp [(hall d hd).1] at hincompatible
  · next h =>
    have hcompatible : ∀ d ∈ diff, d.incompatible = false := by simpa using h
    split
    · next hstale =>
      obtain ⟨d, hd, hd'⟩ := List.any_eq_true.mp hstale
      refine iff_of_false (by decide) fun hall => ?_
      have hkind : ¬ d.kind = .inputAdded ∧ ¬ d.kind = .outputAdded := by
        simpa [WorkflowSchemaDiff.isStale, hcompatible d hd] using hd'
      exact not_or.mpr hkind (hall d hd).2
    · next hstale =>
      refine iff_of_true rfl fun d hd => ⟨hcompatible d hd, ?_⟩
      by_contra hkind
      refine hstale (List.any_eq_true.mpr ⟨d, hd, ?_⟩)
      simpa [WorkflowSchemaDiff.isStale, hcompatible d hd] using not_or.mp hkind

lemma schemaStatus_incompatible {diff : List WorkflowSchemaDiff} :
    schemaStatus diff = .incompatible ↔ ∃ d ∈ diff, d.incompatible = true := by
  rw [← List.any_eq_true, schemaStatus]
  split
  · next h => exact iff_of_true rfl h
  · next h =>
    refine iff_of_false ?_ h
    split
    · exact fun hstatus => by cases hstatus
    · exact fun hstatus => by cases hstatus

lemma exactReport : ExactReport definition snapshot advertised
    ⟨schemaStatus (reportDiff definition snapshot advertised),
      reportDiff definition snapshot advertised⟩ where
  once := reportDiff_nodup
  places kind jobIndex fieldName := @mem_reportDiff _ _ _ (kind, jobIndex, fieldName)
  empty := by
    rw [← forall_not_disagrees]
    constructor
    · intro hempty kind jobIndex fieldName hplace
      have h := (@mem_reportDiff _ _ _ (kind, jobIndex, fieldName)).mpr hplace
      dsimp only at hempty
      rw [hempty] at h
      exact List.not_mem_nil h
    · intro h
      refine List.eq_nil_iff_forall_not_mem.mpr fun d hd => ?_
      exact h _ _ _ (mem_reportDiff.mp (List.mem_map_of_mem hd))
  current := schemaStatus_current
  incompatible := schemaStatus_incompatible

end

section

variable {app : AppState} {s : Store} {os : List Outcome}
variable {definition : WorkflowDefinition} {snapshot : List RunnerJobDefinition}

lemma jobSchemaDiff_eq {job : WorkflowJobDefinition} {jobIndex : ℕ} {diff : List WorkflowSchemaDiff}
    (h : ((jobSchemaDiff definition snapshot job jobIndex).play (Call.exec app) os s).result =
      some (.ok diff)) : diff = jobDiff definition snapshot s.db.advertised job jobIndex := by
  simp only [jobSchemaDiff] at h
  simp only [jobDiff]
  cases hsaved : snapshot[jobIndex]? with
  | none =>
    rw [hsaved, Program.play_pure] at h
    cases h
    rfl
  | some saved =>
    rw [hsaved] at h
    obtain ⟨advertised, os', heval, h⟩ := play_query_ok h
    obtain rfl : s.db.listRunnerJobs job.runnerId = advertised := Except.ok.inj heval
    cases hcurrent : s.db.advertised job.runnerId job.runnerJobName with
    | none =>
      rw [Database.advertised] at hcurrent
      rw [hcurrent, Program.play_pure] at h
      cases h
      rfl
    | some current =>
      rw [Database.advertised] at hcurrent
      rw [hcurrent, Program.play_pure] at h
      cases h
      rfl

lemma jobSchemaDiffs_eq {jobs : List (WorkflowJobDefinition × ℕ)} {diff : List WorkflowSchemaDiff}
    (h : ((jobSchemaDiffs definition snapshot jobs).play (Call.exec app) os s).result =
      some (.ok diff)) :
    diff = jobs.flatMap fun entry =>
      jobDiff definition snapshot s.db.advertised entry.1 entry.2 := by
  induction jobs generalizing os diff with
  | nil =>
    rw [jobSchemaDiffs, Program.play_pure] at h
    cases h
    rfl
  | cons entry jobs ih =>
    simp only [jobSchemaDiffs] at h
    obtain ⟨first, hfirst, h⟩ := Program.play_bind_ok h
    rw [play_queries_store (jobSchemaDiff_only _ _ _ _)] at h
    obtain ⟨rest, hrest, h⟩ := Program.play_bind_ok h
    rw [Program.play_pure] at h
    cases h
    rw [List.flatMap_cons, jobSchemaDiff_eq hfirst, ih hrest]

lemma workflowSchemaReport_eq {workflow : Workflow} {report : WorkflowSchemaReport}
    (hdefinition : workflow.definitionJson = .ok definition)
    (h : ((workflowSchemaReport workflow).play (Call.exec app) os s).result = some (.ok report)) :
    ExactReport definition (s.db.workflowJobSchemas workflow.versionId) s.db.advertised report := by
  simp only [workflowSchemaReport, fromStr, hdefinition, Program.done_bind] at h
  obtain ⟨snapshot, os', heval, h⟩ := play_query_ok h
  obtain rfl : s.db.workflowJobSchemas workflow.versionId = snapshot := Except.ok.inj heval
  obtain ⟨diff, hdiffs, h⟩ := Program.play_bind_ok h
  rw [Program.play_pure] at h
  cases h
  rw [jobSchemaDiffs_eq hdiffs]
  exact exactReport

lemma play_query_answered {β : Type} {q : Query} {a : q.Result} {f : q.Result → Task β} {o : Outcome}
    (ho : o.fault = .none) (heval : q.eval s.db = .ok a) :
    (call (.query q) >>= f).play (Call.exec app) (o :: os) s =
      ((f a).play (Call.exec app) os s).tick := by
  refine Program.play_request_ok (c := Call.query q) ?_ os
  rw [exec_of_allowed (by rw [ho]; rfl)]
  exact Prod.ext heval rfl

lemma jobSchemaDiff_answered (job : WorkflowJobDefinition) (jobIndex : ℕ) (o : Outcome)
    (ho : o.fault = .none) :
    ∃ diff answered rest, (jobSchemaDiff definition snapshot job jobIndex).play (Call.exec app)
      (o :: os) s = ⟨some (.ok diff), answered, rest, s⟩ ∧ (rest = o :: os ∨ rest = os) := by
  simp only [jobSchemaDiff]
  split
  · exact ⟨_, 0, o :: os, Program.play_pure _ _ _, .inl rfl⟩
  · have hquery {f : List RunnerJobDefinition → Task (List WorkflowSchemaDiff)} :
        (Db.listRunnerJobs job.runnerId >>= f).play (Call.exec app) (o :: os) s =
          ((f (s.db.listRunnerJobs job.runnerId)).play (Call.exec app) os s).tick :=
      play_query_answered ho rfl
    rw [hquery]
    split
    · exact ⟨_, 1, os, by rw [Program.play_pure]; rfl, .inr rfl⟩
    · exact ⟨_, 1, os, by rw [Program.play_pure]; rfl, .inr rfl⟩

lemma jobSchemaDiffs_answered (jobs : List (WorkflowJobDefinition × ℕ))
    (hos : ∀ o ∈ os, o.fault = .none) (hlength : jobs.length ≤ os.length) :
    ∃ diff answered rest, (jobSchemaDiffs definition snapshot jobs).play (Call.exec app) os s =
      ⟨some (.ok diff), answered, rest, s⟩ := by
  induction jobs generalizing os with
  | nil => exact ⟨[], 0, os, Program.play_pure _ _ _⟩
  | cons entry jobs ih =>
    cases os with
    | nil => simp at hlength
    | cons o os =>
      have hos' : ∀ o ∈ os, o.fault = .none := fun o ho => hos o (List.mem_cons_of_mem _ ho)
      have hlength' : jobs.length ≤ os.length := Nat.le_of_succ_le_succ hlength
      obtain ⟨diff, answered, rest, hfirst, hrest⟩ :=
        @jobSchemaDiff_answered app s os definition snapshot entry.1 entry.2 o (hos o List.mem_cons_self)
      obtain ⟨diffs, answered', rest', hdiffs⟩ :
          ∃ diffs answered' rest', (jobSchemaDiffs definition snapshot jobs).play (Call.exec app)
            rest s = ⟨some (.ok diffs), answered', rest', s⟩ := by
        rcases hrest with rfl | rfl
        · exact ih hos (hlength'.trans (Nat.le_succ _))
        · exact ih hos' hlength'
      refine ⟨diff ++ diffs, answered + (answered' + 0), rest', ?_⟩
      simp only [jobSchemaDiffs, Program.play_bind, hfirst, Played.andThen, hdiffs,
        Program.play_pure]

end

/-- For every definition, snapshot and catalog the report is exact, and there is one unless a call
fails. -/
theorem schemaReport_exact (app : AppState) (s : Store) (workflow : Workflow)
    (definition : WorkflowDefinition) (hdefinition : workflow.definitionJson = .ok definition) :
    (∀ os report,
      ((workflowSchemaReport workflow).play (Call.exec app) os s).result = some (.ok report) →
        ExactReport definition (s.db.workflowJobSchemas workflow.versionId) s.db.advertised
          report) ∧
    ∀ os : List Outcome, (∀ o ∈ os, o.fault = .none) → definition.jobs.length < os.length →
      ∃ report, ((workflowSchemaReport workflow).play (Call.exec app) os s).result =
        some (.ok report) := by
  refine ⟨fun os report => workflowSchemaReport_eq hdefinition, fun os hos hlength => ?_⟩
  cases os with
  | nil => simp at hlength
  | cons o os =>
    have hquery {f : List RunnerJobDefinition → Task WorkflowSchemaReport} :
        (Db.workflowJobSchemas workflow.versionId >>= f).play (Call.exec app) (o :: os) s =
          ((f (s.db.workflowJobSchemas workflow.versionId)).play (Call.exec app) os s).tick :=
      play_query_answered (hos o List.mem_cons_self) rfl
    have hzip : definition.jobs.zipIdx.length ≤ os.length := by
      rw [List.length_zipIdx]
      exact Nat.le_of_lt_succ hlength
    obtain ⟨diffs, answered, rest, hdiffs⟩ := @jobSchemaDiffs_answered app s os definition
      (s.db.workflowJobSchemas workflow.versionId) definition.jobs.zipIdx (fun o ho => hos o (List.mem_cons_of_mem _ ho)) hzip
    simp only [workflowSchemaReport, fromStr, hdefinition, Program.done_bind, hquery,
      Program.play_bind, hdiffs, Played.andThen, Program.play_pure, Played.tick]
    exact ⟨_, rfl⟩

def changedSchema : RunnerJobDefinition :=
  { sampleSchema with
    inputs := .ofList [("ref", { kind := .integer, required := false, sensitive := false,
                                 maxLength := none, pattern := none, maxJsonBytes := none })]
    outputs := .ofList [("report", { kind := .artifact, path := "report.xml", required := true })] }

def changedDatabase : Database :=
  { refDatabase none with runnerJobs := [("runner", changedSchema)] }

def changedReport : WorkflowSchemaReport where
  status := .incompatible
  diff :=
    [⟨.inputTypeChanged, 0, "build", some "ref", some "string", some "integer", true,
        "job-1 input ref changed type from string to integer"⟩,
      ⟨.inputRequirednessChanged, 0, "build", some "ref", some "required", some "optional", false,
        "job-1 input ref changed requiredness from required to optional"⟩,
      ⟨.outputAdded, 0, "build", some "report", none, some "artifact required", false,
        "job-1 output report was added"⟩]

theorem schemaReport_exact_changed : refWorkflow.definitionJson = .ok refDefinition ∧
    ExactReport refDefinition [refSchema none] changedDatabase.advertised changedReport :=
  ⟨rfl, (schemaReport_exact sampleApp ⟨changedDatabase, [], [], {}⟩ refWorkflow refDefinition rfl).1
    [{}, {}] changedReport rfl⟩

end Janus.Server
