import Janus.Server.Compatibility
import Janus.Web.WorkflowBuilder

/-! Which inputs of a saved workflow stay as they are when it is opened on the page and saved again. -/

namespace Janus.Web

open Janus.Data Janus.Server

lemma jsonParse_jsonStringify {x : Json} (hx : x.Sound) : jsonParse (jsonStringify x) = some x := by
  rw [jsonParse, jsonStringify, String.toList_ofList]
  exact Json.parse_text hx

lemma jsonStringify_injective {x y : Json} (hx : x.Sound) (hy : y.Sound)
    (h : jsonStringify x = jsonStringify y) : x = y :=
  Json.text_injective hx hy (String.ofList_injective h)

lemma jsonStringify_isEmpty {x : Json} (hx : x.Sound) : (jsonStringify x).isEmpty = false := by
  obtain ⟨⟨c, cs, hcs, -⟩, -⟩ := Json.text_ends hx
  rw [jsonStringify, hcs]
  exact Bool.eq_false_iff.mpr (by simp)

lemma not_isJsSpace {c : Char} (hc : Json.Visible c) : isJsSpace c = false := by
  obtain ⟨hlow, hhigh⟩ := hc
  have hne : ∀ n, 126 < n → c.toNat ≠ n := fun n hn => Nat.ne_of_lt (Nat.lt_of_le_of_lt hhigh hn)
  have hblank : ¬c.toNat ≤ 13 := by omega
  have hspace : c.toNat ≠ 0x20 := by omega
  have hwide : ¬0x2000 ≤ c.toNat := by omega
  simp [isJsSpace, hblank, hspace, hwide, hne]

lemma trimChars_of_visible {cs : List Char} (hfirst : ∃ c ds, cs = c :: ds ∧ Json.Visible c)
    (hlast : ∃ ds c, cs = ds ++ [c] ∧ Json.Visible c) : trimChars cs = cs := by
  obtain ⟨c, ds, hcs, hc⟩ := hfirst
  obtain ⟨es, d, hes, hd⟩ := hlast
  have hstart : cs.dropWhile isJsSpace = cs := by
    rw [hcs, List.dropWhile_cons_of_neg (by simp [not_isJsSpace hc])]
  have hend : cs.reverse.dropWhile isJsSpace = cs.reverse := by
    rw [hes, List.reverse_append]
    exact List.dropWhile_cons_of_neg (by simp [not_isJsSpace hd])
  rw [trimChars, hstart, hend, List.reverse_reverse]

lemma jsTrim_jsonStringify {x : Json} (hx : x.Sound) : jsTrim (jsonStringify x) = jsonStringify x := by
  obtain ⟨⟨c, cs, hcs, hc, -⟩, hlast⟩ := Json.text_ends hx
  rw [jsTrim, jsonStringify, String.toList_ofList, trimChars_of_visible ⟨c, cs, hcs, hc⟩ hlast]

lemma normalizeChars_of_printable {cs : List Char} (h : ∀ c ∈ cs, 32 ≤ c.toNat) :
    normalizeChars cs = cs := by
  induction cs with
  | nil => rfl
  | cons c cs ih =>
    have hreturn : c ≠ '\r' := by
      rintro rfl
      exact absurd (h '\r' List.mem_cons_self) (by decide)
    rw [normalizeChars, ih fun d hd => h d (List.mem_cons_of_mem _ hd)]
    · exact fun cs' hc => absurd hc hreturn
    · exact fun hc => absurd hc hreturn

lemma normalizeNewlines_jsonStringify {x : Json} (hx : x.Sound) :
    normalizeNewlines (jsonStringify x) = jsonStringify x := by
  rw [normalizeNewlines, jsonStringify, String.toList_ofList,
    normalizeChars_of_printable (Json.printable_text x hx)]

lemma stripNewlines_eq_iff {text : String} :
    stripNewlines text = text ↔ '\n' ∉ text.toList ∧ '\r' ∉ text.toList := by
  rw [stripNewlines]
  constructor
  · intro h
    have hfilter : text.toList.filter (fun c => c ≠ '\n' && c ≠ '\r') = text.toList := by
      conv_rhs => rw [← h, String.toList_ofList]
    have hall := List.filter_eq_self.mp hfilter
    exact ⟨fun hmem => absurd (hall _ hmem) (by decide), fun hmem => absurd (hall _ hmem) (by decide)⟩
  · rintro ⟨hnewline, hreturn⟩
    rw [List.filter_eq_self.mpr, String.ofList_toList]
    intro c hc
    have hne : c ≠ '\n' ∧ c ≠ '\r' :=
      ⟨ne_of_mem_of_not_mem hc hnewline, ne_of_mem_of_not_mem hc hreturn⟩
    simp [hne]

lemma toDigits_head (m : ℕ) : (Nat.toDigits 10 m).head? ≠ some '-' ∧
    (Nat.toDigits 10 m).head? ≠ some '+' := by
  have hdigit : ∀ c, (Nat.toDigits 10 m).head? = some c → c.isDigit = true := fun c h =>
    Json.isDigit_toDigits c (List.mem_of_mem_head? h)
  exact ⟨fun h => absurd (hdigit _ h) (by decide), fun h => absurd (hdigit _ h) (by decide)⟩

lemma integerText_visible (n : ℤ) : (∃ c ds, Json.integerText n = c :: ds ∧ Json.Visible c) ∧
    ∃ ds c, Json.integerText n = ds ++ [c] ∧ Json.Visible c := by
  obtain ⟨⟨c, cs, hcs, hc, -⟩, hlast⟩ := Json.text_ends (x := .number n) trivial
  exact ⟨⟨c, cs, hcs, hc⟩, hlast⟩

lemma jsTrim_integer (n : ℤ) :
    jsTrim (String.ofList (Json.integerText n)) = String.ofList (Json.integerText n) := by
  obtain ⟨hfirst, hlast⟩ := integerText_visible n
  rw [jsTrim, String.toList_ofList, trimChars_of_visible hfirst hlast]

lemma sanitizeNumber_integer (n : ℤ) :
    sanitizeNumber (String.ofList (Json.integerText n)) = String.ofList (Json.integerText n) := by
  have hfloat : isFloat (Json.integerText n) = true := by
    cases n with
    | ofNat m =>
      obtain ⟨htake, hdrop⟩ := Json.toDigits_parts m
      simp [isFloat, Json.integerText, (toDigits_head m).1, htake, hdrop, Json.readExponent]
    | negSucc m =>
      obtain ⟨htake, hdrop⟩ := Json.toDigits_parts (m + 1)
      simp [isFloat, Json.integerText, htake, hdrop, Json.readExponent]
  rw [sanitizeNumber, String.toList_ofList, if_pos hfloat]

lemma parseInt10_integer (n : ℤ) : parseInt10 (String.ofList (Json.integerText n)) = some n := by
  have hstart : (Json.integerText n).dropWhile isJsSpace = Json.integerText n := by
    obtain ⟨⟨c, ds, hcs, hc⟩, -⟩ := integerText_visible n
    rw [hcs, List.dropWhile_cons_of_neg (by simp [not_isJsSpace hc])]
  rw [parseInt10, String.toList_ofList, hstart]
  cases n with
  | ofNat m =>
    obtain ⟨htake, -⟩ := Json.toDigits_parts m
    simp [Json.integerText, toDigits_head m, htake, Nat.ofDigitChars_ten_toDigits]
  | negSucc m =>
    obtain ⟨htake, -⟩ := Json.toDigits_parts (m + 1)
    simp [Json.integerText, htake, Nat.ofDigitChars_ten_toDigits, Int.negSucc_eq]

lemma promotedArtifactJson_sound (sourceRunnerId sourceJobName outputName : String) :
    (promotedArtifactJson sourceRunnerId sourceJobName outputName).Sound := by
  simp [promotedArtifactJson, Json.Sound, Json.SoundFields]

lemma jobOutputJson_sound (jobIndex : ℕ) (outputName : String) :
    (jobOutputJson jobIndex outputName).Sound := by
  simp [jobOutputJson, Json.Sound, Json.SoundFields]

lemma parseOutputBinding_jsonStringify {x : Json} (hx : x.Sound) (htruthy : truthy x = true) :
    parseOutputBinding (jsonStringify x) = some x := by
  have hne : ¬(jsonStringify x).isEmpty = true := by
    rw [jsonStringify_isEmpty hx]
    exact Bool.false_ne_true
  rw [parseOutputBinding, if_neg hne, jsonParse_jsonStringify hx, Option.filter_some, if_pos htruthy]

lemma replaceOptions_of_mem {options : List String} {selected : String} (h : selected ∈ options)
    (hne : selected.isEmpty = false) (placeholder selectFirst : Bool) :
    replaceOptions options selected placeholder selectFirst = selected := by
  simp [replaceOptions, h, hne]

lemma replaceOptions_of_notMem {options : List String} {selected : String} (h : selected ∉ options) :
    replaceOptions options selected options.isEmpty true = "" ∨
      replaceOptions options selected options.isEmpty true ∈ options := by
  cases options with
  | nil => exact .inl (by simp [replaceOptions])
  | cons option options =>
    refine .inr ?_
    simp [replaceOptions, h]

section

variable {catalog : List RunnerCatalogEntry} {currentIndex jobIndex : ℕ} {outputName : String}
variable {derived : List (String × String)} {expectedKind : String}

lemma mem_outputOptionsFor {option : String}
    (h : option ∈ outputOptionsFor catalog currentIndex derived expectedKind) :
    ∃ jobIndex outputName, option = jsonStringify (jobOutputJson jobIndex outputName) := by
  obtain ⟨job, -, h⟩ := List.mem_flatMap.mp h
  cases hdefinition : getJobDefinition catalog job.1.1 job.1.2 with
  | none =>
    rw [hdefinition] at h
    cases h
  | some definition =>
    rw [hdefinition] at h
    obtain ⟨output, -, rfl⟩ := List.mem_map.mp h
    exact ⟨job.2, output.1, rfl⟩

lemma parse_chosen_iff {options : List String}
    (hoptions : ∀ option ∈ options, ∃ i o, option = jsonStringify (jobOutputJson i o)) :
    parseOutputBinding (replaceOptions options (jsonStringify (jobOutputJson jobIndex outputName))
        options.isEmpty true) = some (jobOutputJson jobIndex outputName) ↔
      jsonStringify (jobOutputJson jobIndex outputName) ∈ options := by
  have hsound := jobOutputJson_sound jobIndex outputName
  constructor
  · intro h
    by_contra hnot
    obtain hempty | hmem := replaceOptions_of_notMem hnot
    · rw [hempty] at h
      cases h
    · obtain ⟨i, o, ho⟩ := hoptions _ hmem
      rw [ho, parseOutputBinding_jsonStringify (jobOutputJson_sound i o) rfl] at h
      rw [ho, Option.some.inj h] at hmem
      exact hnot hmem
  · intro hmem
    rw [replaceOptions_of_mem hmem (jsonStringify_isEmpty hsound),
      parseOutputBinding_jsonStringify hsound rfl]

end

lemma getD_eq_iff {α : Type} {x : Option α} {fallback y : α} (h : fallback ≠ y) :
    x.getD fallback = y ↔ x = some y := by
  cases x with
  | none => simp [h]
  | some x => simp

def bindingKind : WorkflowInputBinding → String
  | .literal _ => "literal"
  | .commit => "commit"
  | .branch => "branch"
  | .sourceArtifact => "source_artifact"
  | .promotedArtifact _ _ _ => "promoted_artifact"
  | .jobOutput _ _ => "job_output"

section

variable {binding : WorkflowInputBinding} {kind : String} {options : String → List String}
variable {promoted : List String} {name : String} {inputKind : InputType} {raw : Option Json}

@[simp] lemma hasKind_bindingJson :
    hasKind (some (bindingJson binding)) kind = decide (bindingKind binding = kind) := by
  cases binding <;> rfl

@[simp] lemma property_value_literal {value : Value} :
    property "value" (some (bindingJson (.literal value))) = some (valueJson value) := rfl

lemma rawText_jobOutput (jobIndex : ℕ) (outputName : String) :
    rawText (some (bindingJson (.jobOutput jobIndex outputName))) =
      jsonStringify (jobOutputJson jobIndex outputName) := rfl

lemma rawText_promotedArtifact (sourceRunnerId sourceJobName outputName : String) :
    rawText (some (bindingJson (.promotedArtifact sourceRunnerId sourceJobName outputName))) =
      jsonStringify (promotedArtifactJson sourceRunnerId sourceJobName outputName) := rfl

def openedRow (options : String → List String) (promoted : List String) (name : String)
    (inputKind : InputType) (raw : Option Json) : InputRow :=
  renderOutputBindingOptions options (renderInputRow promoted name inputKind raw)

lemma openedRow_name : (openedRow options promoted name inputKind raw).inputName = name := by
  unfold openedRow renderOutputBindingOptions
  split
  · split <;> rfl
  · rfl

lemma openedRow_of_infer {mode : BindingMode} {value : String}
    (hinfer : inferBinding name inputKind raw = ⟨mode, value⟩)
    (hmode : mode ∈ bindingModesFor inputKind)
    (houtput : mode ≠ .outputArtifact ∧ mode ≠ .outputValue) :
    openedRow options promoted name inputKind raw =
      ⟨name, inputKind, mode, (valueFieldFor inputKind ⟨mode, value⟩ promoted).1,
        (valueFieldFor inputKind ⟨mode, value⟩ promoted).2.getD value⟩ := by
  unfold openedRow renderInputRow renderOutputBindingOptions
  simp only [hinfer, if_pos hmode]
  split
  · exact if_neg (not_or.mpr houtput)
  · rfl

lemma openedRow_jobOutput (jobIndex : ℕ) (outputName : String) :
    let selected := jsonStringify (jobOutputJson jobIndex outputName)
    let chosen := replaceOptions (options inputKind.asStr) selected
      (options inputKind.asStr).isEmpty true
    openedRow options promoted name inputKind (some (bindingJson (.jobOutput jobIndex outputName))) =
      ⟨name, inputKind, if inputKind = .artifact then .outputArtifact else .outputValue,
        .select chosen, chosen⟩ := by
  have hne := jsonStringify_isEmpty (jobOutputJson_sound jobIndex outputName)
  intro selected chosen
  cases inputKind <;>
    simp [openedRow, renderInputRow, inferBinding, bindingKind, rawText_jobOutput,
      bindingModesFor, valueFieldFor, renderOutputBindingOptions, chosen, selected, hne,
      InputType.asStr]

def readBack (options : String → List String) (promoted : List String) (name : String)
    (inputKind : InputType) (binding : WorkflowInputBinding) : Json :=
  (readInputBinding (openedRow options promoted name inputKind (some (bindingJson binding)))).2

lemma literalJson_injective {x y : Json} : literalJson x = literalJson y ↔ x = y := by
  simp [literalJson]

lemma literalJson_ne_jobOutputJson (x : Json) (jobIndex : ℕ) (outputName : String) :
    literalJson x ≠ jobOutputJson jobIndex outputName := by
  simp [literalJson, jobOutputJson]

lemma readLiteralBinding_literal (kind : InputType) (value : String) :
    ∃ x, readLiteralBinding kind value = literalJson x := by
  cases kind <;> simp only [readLiteralBinding] <;> repeat' (first | split | exact ⟨_, rfl⟩)

lemma readBack_artifact_literal (value : Value) :
    readBack options promoted name .artifact (.literal value) ≠ bindingJson (.literal value) := by
  have hinfer : inferBinding name .artifact (some (bindingJson (.literal value))) =
      ⟨.sourceArtifact, "source.tar.gz"⟩ := by
    simp [inferBinding, bindingKind]
  rw [readBack, openedRow_of_infer hinfer (by decide) (by decide)]
  simp [readInputBinding, bindingJson, kindJson, literalJson]

lemma readBack_string_literal {text : String} :
    readBack options promoted name .string (.literal (.string text)) =
        bindingJson (.literal (.string text)) ↔
      name ≠ "commit" ∧ name ≠ "branch" ∧ '\n' ∉ text.toList ∧ '\r' ∉ text.toList := by
  rw [← stripNewlines_eq_iff]
  by_cases hcommit : name = "commit"
  · have hinfer : inferBinding name .string (some (bindingJson (.literal (.string text)))) =
        ⟨.commit, ""⟩ := by
      simp [inferBinding, bindingKind, hcommit]
    rw [readBack, openedRow_of_infer hinfer (by decide) (by decide)]
    simp [readInputBinding, bindingJson, kindJson, literalJson, hcommit]
  · by_cases hbranch : name = "branch"
    · have hinfer : inferBinding name .string (some (bindingJson (.literal (.string text)))) =
          ⟨.branch, ""⟩ := by
        simp [inferBinding, bindingKind, hbranch]
      rw [readBack, openedRow_of_infer hinfer (by decide) (by decide)]
      simp [readInputBinding, bindingJson, kindJson, literalJson, hbranch]
    · have hinfer : inferBinding name .string (some (bindingJson (.literal (.string text)))) =
          ⟨.literal, text⟩ := by
        simp [inferBinding, bindingKind, hcommit, hbranch, valueJson]
      rw [readBack, openedRow_of_infer hinfer (by decide) (by decide)]
      simp [valueFieldFor, readInputBinding, ValueField.value, bindingJson, valueJson,
        literalJson_injective, hcommit, hbranch]

lemma readBack_boolean_literal (value : Bool) :
    readBack options promoted name .boolean (.literal (.bool value)) =
      bindingJson (.literal (.bool value)) := by
  cases value <;> rfl

lemma readBack_integer_literal (value : ℤ) :
    readBack options promoted name .integer (.literal (.number (.integer value))) =
      bindingJson (.literal (.number (.integer value))) := by
  have hinfer : inferBinding name .integer
      (some (bindingJson (.literal (.number (.integer value))))) =
        ⟨.literal, String.ofList (Json.integerText value)⟩ := by
    simp [inferBinding, bindingKind, valueString, valueJson, jsString]
  rw [readBack, openedRow_of_infer hinfer (by decide) (by decide)]
  simp [valueFieldFor, readInputBinding, ValueField.value, sanitizeNumber_integer,
    readLiteralBinding, jsTrim_integer, parseInt10_integer, bindingJson, valueJson]

lemma readBack_json_literal {value : Value} (hvalue : (valueJson value).Sound) :
    readBack options promoted name .json (.literal value) = bindingJson (.literal value) := by
  have hinfer : inferBinding name .json (some (bindingJson (.literal value))) =
      ⟨.literal, jsonStringify (valueJson value)⟩ := by
    simp [inferBinding, bindingKind, rawText]
  rw [readBack, openedRow_of_infer hinfer (by decide) (by decide)]
  simp [valueFieldFor, readInputBinding, ValueField.value, normalizeNewlines_jsonStringify hvalue,
    readLiteralBinding, jsTrim_jsonStringify hvalue, jsonStringify_isEmpty hvalue,
    jsonParse_jsonStringify hvalue, bindingJson]

lemma readBack_commit : readBack options promoted name .string .commit = bindingJson .commit := rfl

lemma readBack_branch : readBack options promoted name .string .branch = bindingJson .branch := rfl

lemma readBack_sourceArtifact :
    readBack options promoted name .artifact .sourceArtifact = bindingJson .sourceArtifact := rfl

lemma readBack_promotedArtifact {sourceRunnerId sourceJobName outputName : String}
    (hoffered : jsonStringify (promotedArtifactJson sourceRunnerId sourceJobName outputName) ∈
      promoted) :
    readBack options promoted name .artifact
        (.promotedArtifact sourceRunnerId sourceJobName outputName) =
      bindingJson (.promotedArtifact sourceRunnerId sourceJobName outputName) := by
  have hsound := promotedArtifactJson_sound sourceRunnerId sourceJobName outputName
  have hinfer : inferBinding name .artifact
      (some (bindingJson (.promotedArtifact sourceRunnerId sourceJobName outputName))) =
        ⟨.promotedArtifact, jsonStringify
          (promotedArtifactJson sourceRunnerId sourceJobName outputName)⟩ := by
    simp [inferBinding, bindingKind, rawText_promotedArtifact]
  rw [readBack, openedRow_of_infer hinfer (by decide) (by decide)]
  simp [valueFieldFor, readInputBinding, ValueField.value,
    replaceOptions_of_mem hoffered (jsonStringify_isEmpty hsound),
    parseOutputBinding_jsonStringify hsound rfl, bindingJson]

lemma readInputBinding_outputValue (hkind : inputKind ≠ .artifact ∧ inputKind ≠ .string)
    (value bindingValue : String) :
    (readInputBinding ⟨name, inputKind, .outputValue, .select value, bindingValue⟩).2 =
      (parseOutputBinding value).getD (readLiteralBinding inputKind value) := by
  cases hparse : parseOutputBinding value <;> cases inputKind <;>
    simp_all [readInputBinding, ValueField.value]

lemma readBack_jobOutput {jobIndex : ℕ} {outputName : String}
    (hoptions : ∀ option ∈ options inputKind.asStr,
      ∃ i o, option = jsonStringify (jobOutputJson i o)) :
    readBack options promoted name inputKind (.jobOutput jobIndex outputName) =
        bindingJson (.jobOutput jobIndex outputName) ↔
      jsonStringify (jobOutputJson jobIndex outputName) ∈ options inputKind.asStr := by
  have hliteral (kind : InputType) (value : String) :
      readLiteralBinding kind value ≠ jobOutputJson jobIndex outputName := by
    obtain ⟨x, hx⟩ := readLiteralBinding_literal kind value
    rw [hx]
    exact literalJson_ne_jobOutputJson x jobIndex outputName
  rw [← parse_chosen_iff hoptions, readBack, openedRow_jobOutput]
  cases inputKind with
  | artifact => exact getD_eq_iff (by simp [kindJson, bindingJson, jobOutputJson])
  | string => exact getD_eq_iff (literalJson_ne_jobOutputJson _ _ _)
  | integer =>
    rw [if_neg (by decide), readInputBinding_outputValue (by decide)]
    exact getD_eq_iff (hliteral _ _)
  | boolean =>
    rw [if_neg (by decide), readInputBinding_outputValue (by decide)]
    exact getD_eq_iff (hliteral _ _)
  | json =>
    rw [if_neg (by decide), readInputBinding_outputValue (by decide)]
    exact getD_eq_iff (hliteral _ _)

end

end Janus.Web
