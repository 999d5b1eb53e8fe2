import Janus.Web.BuilderPage

/-! Which bindings keep their jobs while rows are added and removed. -/

namespace Janus.Web

open Janus.Data Janus.Server

section

variable {catalog : List RunnerCatalogEntry} {builder : Builder catalog} {edit : Edit}
variable {row source : BuilderRow} {input : InputRow} {place : ℕ} {output : ℕ × String}

lemma Builder.bound (hrow : builder.rows[place]? = some row) (hinput : input ∈ row.inputs)
    (houtput : input.IsOutput) :
    Bound (outputsBefore catalog builder.rows place input.expectedKind) input := by
  have hrendered := (builder.rendered row (List.mem_of_getElem? hrow)).inputs input hinput
  have hsync : syncRow catalog builder.rows place row = row := by
    have hget : (syncJobsJson catalog builder.rows)[place]? =
        builder.rows[place]?.map (syncRow catalog builder.rows place) := getElem?_syncJobsJson
    rw [builder.synced, hrow] at hget
    exact (Option.some.inj hget).symm
  have hfilled := List.map_inj_left.mp
    ((congrArg BuilderRow.inputs hsync).trans (List.map_id row.inputs).symm) input hinput
  rw [render_of_isOutput hrendered houtput, outputOptionsFor_eq] at hfilled
  have hnonempty : ∀ option ∈ (outputsBefore catalog builder.rows place input.expectedKind).map
      outputText, option.isEmpty = false := by
    intro option h
    obtain ⟨output, -, rfl⟩ := List.mem_map.mp h
    exact outputText_isEmpty output
  have hsettled : Settled ((outputsBefore catalog builder.rows place input.expectedKind).map
      outputText) (input.chosen ((outputsBefore catalog builder.rows place input.expectedKind).map
        outputText)) := settled_replaceOptions hnonempty
  generalize input.chosen ((outputsBefore catalog builder.rows place input.expectedKind).map
    outputText) = value at hfilled hsettled
  have hvalue : value = input.bindingValue := congrArg InputRow.bindingValue hfilled
  have hfield : value = input.field.value := congrArg (fun input => input.field.value) hfilled
  obtain hmem | ⟨hempty, hnone⟩ := hsettled
  · obtain ⟨output, houtput, htext⟩ := List.mem_map.mp hmem
    exact .output output houtput (hfield.symm.trans htext.symm) (hvalue.symm.trans htext.symm)
  · exact .nothing (List.map_eq_nil_iff.mp hnone) (hfield.symm.trans hempty)
      (hvalue.symm.trans hempty)

lemma place_editRows (hrow : (builder.edited edit)[place]? = some row)
    (hold : row ∈ builder.rows) :
    ∃ place', builder.rows[place']? = some row ∧ place' ≤ place + 1 ∧
      ∀ index < place, ∃ index' < place', builder.rows[index']? =
        (builder.edited edit)[index]? := by
  cases edit with
  | add =>
    have hlt : place < builder.rows.length := by
      by_contra hge
      rw [Builder.edited, editRows, List.getElem?_append_right (not_lt.mp hge)] at hrow
      have hnew := List.mem_singleton.mp (List.mem_of_getElem? hrow)
      have hid := builder.fresh row hold
      rw [hnew] at hid
      exact absurd hid (lt_irrefl _)
    rw [Builder.edited, editRows, List.getElem?_append_left hlt] at hrow
    refine ⟨place, hrow, Nat.le_succ _, fun index hindex => ⟨index, hindex, ?_⟩⟩
    rw [Builder.edited, editRows, List.getElem?_append_left (hindex.trans hlt)]
  | remove removed =>
    rw [Builder.edited, editRows, List.getElem?_eraseIdx] at hrow
    by_cases hlt : place < removed
    · rw [if_pos hlt] at hrow
      refine ⟨place, hrow, Nat.le_succ _, fun index hindex => ⟨index, hindex, ?_⟩⟩
      rw [Builder.edited, editRows, List.getElem?_eraseIdx, if_pos (hindex.trans hlt)]
    · rw [if_neg hlt] at hrow
      refine ⟨place + 1, hrow, le_rfl, fun index hindex => ?_⟩
      rw [Builder.edited, editRows, List.getElem?_eraseIdx]
      by_cases hbefore : index < removed
      · exact ⟨index, by omega, by rw [if_pos hbefore]⟩
      · exact ⟨index + 1, by omega, by rw [if_neg hbefore]⟩

lemma Builder.place_unique {index : ℕ} (h : builder.rows[index]? = some row)
    (h' : builder.rows[place]? = some row) : index = place := by
  obtain ⟨hlt, -⟩ := List.getElem?_eq_some_iff.mp h
  exact (List.getElem?_inj hlt (builder.distinct.of_map _)).mp (h.trans h'.symm)

end

def NoBlank (rows : List BuilderRow) : Prop := ∀ row ∈ rows, (serializeRow row).isBlank = false

inductive Unharmed (catalog : List RunnerCatalogEntry) (rows : List BuilderRow) (place : ℕ)
    (input : InputRow) (output : ℕ × String) (source : BuilderRow) : Prop
  | stays (h : rows[output.1]? = some source) (hblank : NoBlank (rows.take (output.1 + 1)))
  | found (index : ℕ) (hnot : output ∉ outputsBefore catalog rows place input.expectedKind)
      (hhead : (outputsBefore catalog rows place input.expectedKind).head? = some (index, output.2))
      (h : rows[index]? = some source) (hblank : NoBlank (rows.take (index + 1)))
  | lost (h : source ∉ rows) (hnone : outputsBefore catalog rows place input.expectedKind = [])
      (hkind : input.inputKind = .string ∨ input.inputKind = .integer)

/-- The edit harms no binding; an input of the name `__proto__` is not sent. -/
def Builder.Safe {catalog : List RunnerCatalogEntry} (builder : Builder catalog) (edit : Edit) :
    Prop :=
  ∀ place row, (builder.edited edit)[place]? = some row →
    ∀ input ∈ row.inputs, input.inputName ≠ "__proto__" →
    ∀ output source, chosenOutput input = some output → builder.rows[output.1]? = some source →
      Unharmed catalog (builder.edited edit) place input output source

section

variable {catalog : List RunnerCatalogEntry} {builder : Builder catalog} {edit : Edit}
variable {row source : BuilderRow} {input : InputRow} {place : ℕ} {output : ℕ × String}

lemma rechosen_none (hrow : (builder.edited edit)[place]? = some row)
    (hold : row ∈ builder.rows) (hinput : input ∈ row.inputs) (houtput : input.IsOutput)
    (hchosen : chosenOutput input = none) :
    rechosen (outputsBefore catalog (builder.edited edit) place
      input.expectedKind) none = none := by
  obtain ⟨place', hrow', -, hbefore⟩ := place_editRows hrow hold
  obtain ⟨output, -, h⟩ | ⟨hnone, -⟩ := (Builder.bound hrow' hinput houtput).chosen_cases houtput
  · rw [hchosen] at h
    cases h
  · rw [rechosen, List.head?_eq_none_iff, List.eq_nil_iff_forall_not_mem]
    intro output hmem
    obtain ⟨hlt, row', hrow', hoffered⟩ := mem_outputsBefore.mp hmem
    obtain ⟨index, hindex, hget⟩ := hbefore output.1 hlt
    have hmem' : (index, output.2) ∈ outputsBefore catalog builder.rows place' input.expectedKind :=
      mem_outputsBefore.mpr ⟨hindex, row', hget.trans hrow', hoffered⟩
    rw [hnone] at hmem'
    cases hmem'

lemma rechosen_some (hsafe : builder.Safe edit)
    (hrow : (builder.edited edit)[place]? = some row)
    (hold : row ∈ builder.rows) (hinput : input ∈ row.inputs) (houtput : input.IsOutput)
    (hname : input.inputName ≠ "__proto__") (hchosen : chosenOutput input = some output) :
    ∃ source, builder.rows[output.1]? = some source ∧
      ((∃ index, rechosen (outputsBefore catalog (builder.edited edit)
            place input.expectedKind) (some output) = some (index, output.2) ∧
          (builder.edited edit)[index]? = some source ∧
          NoBlank ((builder.edited edit).take (index + 1))) ∨
        rechosen (outputsBefore catalog (builder.edited edit)
            place input.expectedKind) (some output) = none ∧
          source ∉ builder.edited edit ∧
          (input.inputKind = .string ∨ input.inputKind = .integer)) := by
  obtain ⟨place', hrow', hplace, -⟩ := place_editRows hrow hold
  obtain ⟨output', hmem, h⟩ | ⟨-, h⟩ := (Builder.bound hrow' hinput houtput).chosen_cases houtput
  · obtain rfl := Option.some.inj (hchosen.symm.trans h)
    obtain ⟨hlt, source, hsource, hoffered⟩ := mem_outputsBefore.mp hmem
    refine ⟨source, hsource, ?_⟩
    cases hsafe place row hrow input hinput hname output source hchosen hsource with
    | stays h hblank =>
      have hbefore : output.1 < place := by
        by_contra hge
        have hsame : output.1 = place := by omega
        rw [hsame, hrow] at h
        obtain rfl := Option.some.inj h
        have hplaces := builder.place_unique hsource hrow'
        omega
      have hmem' : output ∈ outputsBefore catalog
          (builder.edited edit) place input.expectedKind :=
        mem_outputsBefore.mpr ⟨hbefore, source, h, hoffered⟩
      exact .inl ⟨output.1, by rw [rechosen, if_pos hmem'], h, hblank⟩
    | found index hnot hhead h hblank =>
      exact .inl ⟨index, by rw [rechosen, if_neg hnot, hhead], h, hblank⟩
    | lost h hnone hkind =>
      refine .inr ⟨?_, h, hkind⟩
      rw [hnone]
      rfl
  · rw [hchosen] at h
    cases h

end

def chosenSource (rows : List BuilderRow) (input : InputRow) : Option (ℕ × String) :=
  (chosenOutput input).bind fun output => rows[output.1]?.map fun row => (row.id, output.2)

structure Follows (rows rows' : List BuilderRow) (input input' : InputRow) : Prop where
  name : input'.inputName = input.inputName
  kind : input'.inputKind = input.inputKind
  isOutput : input'.IsOutput ↔ input.IsOutput
  source : input.inputName ≠ "__proto__" → chosenSource rows' input' =
    (chosenSource rows input).filter fun source => source.1 ∈ rows'.map BuilderRow.id
  lost : input.inputName ≠ "__proto__" → ∀ source, chosenSource rows input = some source →
    source.1 ∉ rows'.map BuilderRow.id → input.inputKind = .string ∨ input.inputKind = .integer

structure SameInputs (rows rows' : List BuilderRow) (inputs inputs' : List InputRow) : Prop where
  after : ∀ input ∈ inputs, ∃ input' ∈ inputs', Follows rows rows' input input'
  before : ∀ input' ∈ inputs', ∃ input ∈ inputs, Follows rows rows' input input'

structure Retains {catalog : List RunnerCatalogEntry} (builder builder' : Builder catalog) :
    Prop where
  nextId : builder.nextId ≤ builder'.nextId
  old : ∀ row' ∈ builder'.rows, row'.id < builder.nextId → ∃ row ∈ builder.rows, row.id = row'.id ∧
    SameInputs builder.rows builder'.rows row.inputs row'.inputs
  new : ∀ row' ∈ builder'.rows, builder.nextId ≤ row'.id → ∀ input ∈ row'.inputs, ¬input.IsOutput

def Aligned (rows : List BuilderRow) : Prop :=
  ∀ row ∈ rows, ∀ input ∈ row.inputs, input.inputName ≠ "__proto__" →
    ∀ output, chosenOutput input = some output → NoBlank (rows.take (output.1 + 1))

section

variable {catalog : List RunnerCatalogEntry} {builder builder' builder'' : Builder catalog}
variable {rows rows' rows'' : List BuilderRow} {input input' input'' : InputRow}
variable {source : ℕ × String}

lemma chosenSource_of_not_isOutput (h : ¬input.IsOutput) : chosenSource rows input = none := by
  rw [chosenSource, chosenOutput_of_not_isOutput h]
  rfl

lemma mem_of_chosenSource (h : chosenSource rows input = some source) :
    source.1 ∈ rows.map BuilderRow.id := by
  obtain ⟨output, -, h⟩ := Option.bind_eq_some_iff.mp h
  obtain ⟨row, hrow, rfl⟩ := Option.map_eq_some_iff.mp h
  exact List.mem_map_of_mem (List.mem_of_getElem? hrow)

lemma chosenSource_ids (h : rows.map BuilderRow.id = rows'.map BuilderRow.id) :
    chosenSource rows input = chosenSource rows' input := by
  rw [chosenSource, chosenSource]
  congr 1
  funext output
  have hget := congrArg (fun ids => ids[output.1]?) h
  simp only [List.getElem?_map] at hget
  have hmap : ∀ x : Option BuilderRow, x.map (fun row => (row.id, output.2)) =
      (x.map BuilderRow.id).map fun id => (id, output.2) := fun x => by
    rw [Option.map_map]
    rfl
  rw [hmap, hmap, hget]

lemma Follows.refl : Follows rows rows input input where
  name := rfl
  kind := rfl
  isOutput := Iff.rfl
  source _ := by
    cases hsource : chosenSource rows input with
    | none => rfl
    | some source => rw [Option.filter_some, if_pos (decide_eq_true (mem_of_chosenSource hsource))]
  lost _ source hsource hnot := absurd (mem_of_chosenSource hsource) hnot

lemma Follows.trans (h : Follows rows rows' input input')
    (hids : ∀ id ∈ rows''.map BuilderRow.id, id ∈ rows.map BuilderRow.id →
      id ∈ rows'.map BuilderRow.id) (h' : Follows rows' rows'' input' input'') :
    Follows rows rows'' input input'' where
  name := h'.name.trans h.name
  kind := h'.kind.trans h.kind
  isOutput := h'.isOutput.trans h.isOutput
  source hname := by
    rw [h'.source (h.name ▸ hname), h.source hname]
    cases hsource : chosenSource rows input with
    | none => rfl
    | some source =>
      by_cases hkept : source.1 ∈ rows''.map BuilderRow.id
      · have hbetween := hids _ hkept (mem_of_chosenSource hsource)
        rw [Option.filter_some, if_pos (decide_eq_true hbetween)]
      · by_cases hbetween : source.1 ∈ rows'.map BuilderRow.id
        · rw [Option.filter_some, if_pos (decide_eq_true hbetween)]
        · rw [Option.filter_some, if_neg (by simpa using hbetween), Option.filter_some,
            if_neg (by simpa using hkept)]
          rfl
  lost hname source hsource hnot := by
    by_cases hbetween : source.1 ∈ rows'.map BuilderRow.id
    · have hsource' : chosenSource rows' input' = some source := by
        rw [h.source hname, hsource, Option.filter_some, if_pos (decide_eq_true hbetween)]
      exact h.kind ▸ h'.lost (h.name ▸ hname) source hsource' hnot
    · exact h.lost hname source hsource hbetween

lemma Retains.refl : Retains builder builder where
  nextId := le_rfl
  old row hrow _ := ⟨row, hrow, rfl, fun input hinput => ⟨input, hinput, .refl⟩,
    fun input hinput => ⟨input, hinput, .refl⟩⟩
  new row hrow hnew := absurd (builder.fresh row hrow) (not_lt.mpr hnew)

lemma Retains.ids (h : Retains builder builder') {id : ℕ}
    (hid : id ∈ builder'.rows.map BuilderRow.id) (hlt : id < builder.nextId) :
    id ∈ builder.rows.map BuilderRow.id := by
  obtain ⟨row', hrow', rfl⟩ := List.mem_map.mp hid
  obtain ⟨row, hrow, hsame, -⟩ := h.old row' hrow' hlt
  exact hsame ▸ List.mem_map_of_mem hrow

lemma Retains.trans (h : Retains builder builder') (h' : Retains builder' builder'') :
    Retains builder builder'' where
  nextId := h.nextId.trans h'.nextId
  old row'' hrow'' hlt := by
    obtain ⟨row', hrow', hid', hinputs'⟩ := h'.old row'' hrow'' (hlt.trans_le h.nextId)
    obtain ⟨row, hrow, hid, hinputs⟩ := h.old row' hrow' (hid' ▸ hlt)
    have hids : ∀ id ∈ builder''.rows.map BuilderRow.id, id ∈ builder.rows.map BuilderRow.id →
        id ∈ builder'.rows.map BuilderRow.id := by
      intro id hid'' hid
      obtain ⟨row, hrow, rfl⟩ := List.mem_map.mp hid
      exact h'.ids hid'' ((builder.fresh row hrow).trans_le h.nextId)
    refine ⟨row, hrow, hid.trans hid', fun input hinput => ?_, fun input'' hinput'' => ?_⟩
    · obtain ⟨input', hinput', hfollows⟩ := hinputs.after input hinput
      obtain ⟨input'', hinput'', hfollows'⟩ := hinputs'.after input' hinput'
      exact ⟨input'', hinput'', hfollows.trans hids hfollows'⟩
    · obtain ⟨input', hinput', hfollows'⟩ := hinputs'.before input'' hinput''
      obtain ⟨input, hinput, hfollows⟩ := hinputs.before input' hinput'
      exact ⟨input, hinput, hfollows.trans hids hfollows'⟩
  new row'' hrow'' hnew := by
    intro input hinput houtput
    by_cases hlt : row''.id < builder'.nextId
    · obtain ⟨row', hrow', hid', hinputs'⟩ := h'.old row'' hrow'' hlt
      obtain ⟨input', hinput', hfollows⟩ := hinputs'.before input hinput
      exact h.new row' hrow' (hid' ▸ hnew) input' hinput' (hfollows.isOutput.mp houtput)
    · exact h'.new row'' hrow'' (not_lt.mp hlt) input hinput houtput

end

lemma serializeInputs_eq_empty_iff {inputs : List InputRow} :
    (serializeInputs inputs).entries = [] ↔ ∀ input ∈ inputs, input.inputName = "__proto__" := by
  have hfilter : (∀ input ∈ inputs, input.inputName = "__proto__") ↔
      inputs.filter (fun input => input.inputName ≠ "__proto__") = [] := by
    simp [List.filter_eq_nil_iff]
  rw [serializeInputs_eq, hfilter]
  obtain hnil | ⟨init, last, hlast⟩ :=
    List.eq_nil_or_concat (inputs.filter fun input => input.inputName ≠ "__proto__")
  · simp only [hnil, iff_true]
    rfl
  · rw [hlast, List.concat_eq_append, List.foldl_append]
    refine iff_of_false (fun h => ?_) (by simp)
    have hmem := OrderedMap.get_eq_some_iff.mp
      (OrderedMap.get_insert_self (m := init.foldl (fun inputs input =>
        inputs.insert input.inputName (readInputBinding input).2) .empty)
        (k := last.inputName) (a := (readInputBinding last).2))
    rw [List.foldl_cons, List.foldl_nil] at h
    rw [h] at hmem
    cases hmem

section

variable {catalog : List RunnerCatalogEntry} {builder : Builder catalog} {edit : Edit}
variable {rows : List BuilderRow} {row source : BuilderRow} {input : InputRow} {place : ℕ}

lemma isBlank_syncRow :
    (serializeRow (syncRow catalog rows place row)).isBlank = (serializeRow row).isBlank := by
  have hentries : (serializeInputs (syncRow catalog rows place row).inputs).entries = [] ↔
      (serializeInputs row.inputs).entries = [] := by
    rw [serializeInputs_eq_empty_iff, serializeInputs_eq_empty_iff, syncRow, List.forall_mem_map]
    simp only [inputName_render]
  have hempty : (serializeInputs (syncRow catalog rows place row).inputs).entries.isEmpty =
      (serializeInputs row.inputs).entries.isEmpty := by
    rw [Bool.eq_iff_iff, List.isEmpty_iff, List.isEmpty_iff]
    exact hentries
  simp only [SerializedJob.isBlank, serializeRow, BuilderRow.job, hempty]
  rfl

lemma NoBlank.sync {n : ℕ} (h : NoBlank (rows.take n)) :
    NoBlank ((syncJobsJson catalog rows).take n) := by
  intro row hrow
  obtain ⟨index, hindex⟩ := List.getElem?_of_mem hrow
  rw [List.getElem?_take] at hindex
  split at hindex
  · rw [getElem?_syncJobsJson] at hindex
    obtain ⟨row, hget, rfl⟩ := Option.map_eq_some_iff.mp hindex
    rw [isBlank_syncRow]
    refine h row (List.mem_of_getElem? (i := index) ?_)
    rw [List.getElem?_take, if_pos ‹_›, hget]
  · cases hindex

lemma id_notMem_editRows (hold : source ∈ builder.rows)
    (h : source ∉ builder.edited edit) :
    source.id ∉ (builder.edited edit).map BuilderRow.id := by
  intro hmem
  obtain ⟨row, hrow, hid⟩ := List.mem_map.mp hmem
  obtain hrow' | rfl := mem_editRows hrow
  · rw [List.inj_on_of_nodup_map builder.distinct hrow' hold hid] at hrow
    exact h hrow
  · exact absurd (builder.fresh source hold) (by rw [← hid]; exact lt_irrefl _)

lemma follows_edit (hsafe : builder.Safe edit)
    (hrow : (builder.edited edit)[place]? = some row)
    (hold : row ∈ builder.rows) (hinput : input ∈ row.inputs) :
    Follows builder.rows (builder.edit edit).rows input (renderOutputBindingOptions
        (outputOptionsFor catalog place (buildDerivedJobs
          (builder.edited edit))) input) ∧
      (input.inputName ≠ "__proto__" → ∀ output, chosenOutput (renderOutputBindingOptions
          (outputOptionsFor catalog place (buildDerivedJobs
            (builder.edited edit))) input) = some output →
        NoBlank ((builder.edit edit).rows.take (output.1 + 1))) := by
  by_cases houtput : input.IsOutput
  · have hrendered := (builder.rendered row hold).inputs input hinput
    obtain ⟨place', hrow', -⟩ := place_editRows hrow hold
    have hoptions : outputOptionsFor catalog place (buildDerivedJobs (builder.edited edit))
        input.expectedKind = (outputsBefore catalog (builder.edited edit) place
          input.expectedKind).map outputText := outputOptionsFor_eq
    obtain ⟨-, hchosen'⟩ :=
      bound_render hrendered houtput (Builder.bound hrow' hinput houtput) hoptions
    have hids : (builder.edit edit).rows.map BuilderRow.id =
        (builder.edited edit).map BuilderRow.id := ids_syncJobsJson
    refine ⟨⟨inputName_render, inputKind_render, by rw [InputRow.IsOutput, mode_render], ?_, ?_⟩, ?_⟩
    · intro hname
      rw [chosenSource_ids hids, hids, chosenSource, hchosen', chosenSource]
      cases hchosen : chosenOutput input with
      | none =>
        rw [rechosen_none hrow hold hinput houtput hchosen]
        rfl
      | some output =>
        obtain ⟨source, hsource, ⟨index, hindex, hget, -⟩ | ⟨hnone, hgone, -⟩⟩ :=
          rechosen_some hsafe hrow hold hinput houtput hname hchosen
        · have hmem : source.id ∈ (builder.edited edit).map BuilderRow.id :=
            List.mem_map_of_mem (List.mem_of_getElem? hget)
          rw [hindex]
          simp only [Option.bind_some, hget, hsource, Option.map_some, Option.filter_some]
          rw [if_pos (decide_eq_true hmem)]
        · have hnot := id_notMem_editRows (List.mem_of_getElem? hsource) hgone
          rw [hnone]
          simp only [Option.bind_some, Option.bind_none, hsource, Option.map_some,
            Option.filter_some]
          rw [if_neg (by simpa using hnot)]
    · intro hname chosen hsource' hnot
      rw [hids] at hnot
      obtain ⟨output, hchosen, hsource'⟩ := Option.bind_eq_some_iff.mp hsource'
      obtain ⟨source, hsource, ⟨index, -, hget, -⟩ | ⟨-, -, hkind⟩⟩ :=
        rechosen_some hsafe hrow hold hinput houtput hname hchosen
      · rw [hsource] at hsource'
        obtain rfl := Option.some.inj hsource'
        exact absurd (List.mem_map_of_mem (List.mem_of_getElem? hget)) hnot
      · exact hkind
    · intro hname output' hchosen''
      rw [hchosen'] at hchosen''
      cases hchosen : chosenOutput input with
      | none =>
        rw [hchosen, rechosen_none hrow hold hinput houtput hchosen] at hchosen''
        cases hchosen''
      | some output =>
        obtain ⟨source, -, ⟨index, hindex, -, hblank⟩ | ⟨hnone, -, -⟩⟩ :=
          rechosen_some hsafe hrow hold hinput houtput hname hchosen
        · rw [hchosen, hindex] at hchosen''
          obtain rfl := Option.some.inj hchosen''
          exact hblank.sync
        · rw [hchosen, hnone] at hchosen''
          cases hchosen''
  · rw [render_of_not_isOutput houtput]
    refine ⟨⟨rfl, rfl, Iff.rfl, fun _ => ?_, fun _ source hsource => ?_⟩, fun _ output h => ?_⟩
    · rw [chosenSource_of_not_isOutput houtput, chosenSource_of_not_isOutput houtput]
      rfl
    · rw [chosenSource_of_not_isOutput houtput] at hsource
      cases hsource
    · rw [chosenOutput_of_not_isOutput houtput] at h
      cases h

lemma not_isOutput_new {id : ℕ} {rows' : List BuilderRow}
    (h : input ∈ (syncRow catalog rows place
      (addWorkflowRow catalog id rows' (newJob catalog))).inputs) : ¬input.IsOutput := by
  obtain ⟨input, hinput, rfl⟩ := List.mem_map.mp h
  obtain ⟨name, kind, rfl⟩ := inputs_addWorkflowRow hinput
  rw [InputRow.IsOutput, mode_render]
  exact not_isOutput_renderInputRow

lemma retains_edit (hsafe : builder.Safe edit) :
    Retains builder (builder.edit edit) ∧ Aligned (builder.edit edit).rows := by
  refine ⟨⟨Nat.le_succ _, fun row' hrow' hlt => ?_, fun row' hrow' hnew input hinput => ?_⟩, ?_⟩
  · obtain ⟨place, row, hrow, rfl⟩ := mem_syncJobsJson hrow'
    obtain hold | rfl := mem_editRows (List.mem_of_getElem? hrow)
    · refine ⟨row, hold, rfl, fun input hinput => ?_, fun input' hinput' => ?_⟩
      · exact ⟨_, List.mem_map_of_mem hinput, (follows_edit hsafe hrow hold hinput).1⟩
      · obtain ⟨input, hinput, rfl⟩ := List.mem_map.mp hinput'
        exact ⟨input, hinput, (follows_edit hsafe hrow hold hinput).1⟩
    · exact absurd hlt (lt_irrefl _)
  · obtain ⟨place, row, hrow, rfl⟩ := mem_syncJobsJson hrow'
    obtain hold | rfl := mem_editRows (List.mem_of_getElem? hrow)
    · exact absurd (builder.fresh row hold) (not_lt.mpr hnew)
    · exact not_isOutput_new hinput
  · intro row' hrow' input' hinput' hname output hchosen
    obtain ⟨place, row, hrow, rfl⟩ := mem_syncJobsJson hrow'
    obtain hold | rfl := mem_editRows (List.mem_of_getElem? hrow)
    · obtain ⟨input, hinput, rfl⟩ := List.mem_map.mp hinput'
      rw [inputName_render] at hname
      exact (follows_edit hsafe hrow hold hinput).2 hname output hchosen
    · rw [chosenOutput_of_not_isOutput (not_isOutput_new hinput')] at hchosen
      cases hchosen

end

def Builder.SafeRun {catalog : List RunnerCatalogEntry} : Builder catalog → List Edit → Prop
  | _, [] => True
  | builder, edit :: edits => builder.Safe edit ∧ (builder.edit edit).SafeRun edits

lemma retains_run {catalog : List RunnerCatalogEntry} {builder : Builder catalog}
    {edits : List Edit} (h : builder.SafeRun edits) : Retains builder (builder.run edits) ∧
      (edits ≠ [] → Aligned (builder.run edits).rows) := by
  induction edits generalizing builder with
  | nil => exact ⟨.refl, fun hne => absurd rfl hne⟩
  | cons edit edits ih =>
    obtain ⟨hsafe, hrun⟩ := h
    obtain ⟨hedit, haligned⟩ := retains_edit hsafe
    obtain ⟨hretains, hlast⟩ := ih hrun
    refine ⟨hedit.trans hretains, fun _ => ?_⟩
    cases edits with
    | nil => exact haligned
    | cons edit' edits => exact hlast (List.cons_ne_nil _ _)

end Janus.Web
