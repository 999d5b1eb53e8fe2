import Janus.Data.Json
import Janus.Server.Workflows

/-! The page on which a workflow is put together: `workflow_builder_state.js`, with the rows of
`workflow_builder_tables.js` and the fields of `workflow_builder_bindings.js`. -/

namespace Janus.Web

open Janus.Data Janus.Server

def isJsSpace (c : Char) : Bool :=
  let n := c.toNat
  (9 ≤ n && n ≤ 13) || n = 0x20 || n = 0xA0 || n = 0x1680 || (0x2000 ≤ n && n ≤ 0x200A) ||
    n = 0x2028 || n = 0x2029 || n = 0x202F || n = 0x205F || n = 0x3000 || n = 0xFEFF

def trimChars (cs : List Char) : List Char :=
  ((cs.dropWhile isJsSpace).reverse.dropWhile isJsSpace).reverse

def jsTrim (text : String) : String := String.ofList (trimChars text.toList)

def jsonStringify (x : Json) : String := String.ofList x.text

def jsonParse (text : String) : Option Json := Json.parse text.toList

def property (name : String) : Option Json → Option Json
  | some (.object fields) => fields.lookup name
  | _ => none

def truthy : Json → Bool
  | .null => false
  | .bool value => value
  | .number value => value ≠ 0
  | .decimal text => (text.toList.takeWhile fun c => c ≠ 'e' && c ≠ 'E').any fun c =>
      c.isDigit && c ≠ '0'
  | .string text => text ≠ ""
  | .array _ | .object _ => true

mutual

/-- `String`. -/
def jsString : Json → String
  | .null => "null"
  | .bool value => if value then "true" else "false"
  | .number value => String.ofList (Json.integerText value)
  | .decimal text => text
  | .string text => text
  | .array items => jsStrings items
  | .object _ => "[object Object]"

def jsStrings : List Json → String
  | [] => ""
  | [.null] => ""
  | [x] => jsString x
  | .null :: xs => "," ++ jsStrings xs
  | x :: xs => jsString x ++ "," ++ jsStrings xs

end

/-- `parseInt(text, 10)`, where it is a number. -/
def parseInt10 (text : String) : Option ℤ :=
  let cs := text.toList.dropWhile isJsSpace
  let negative := cs.head? = some '-'
  let digits := (if negative ∨ cs.head? = some '+' then cs.tail else cs).takeWhile Char.isDigit
  if digits.isEmpty then none
  else
    let magnitude : ℤ := Nat.ofDigitChars 10 digits 0
    some (if negative then -magnitude else magnitude)

def arrayIndex (name : String) : Option ℕ :=
  let cs := name.toList
  let index := Nat.ofDigitChars 10 cs 0
  if Json.isInteger cs ∧ index < 2 ^ 32 - 1 then some index else none

/-- `Object.entries`, where such names come first. -/
def objectEntries {α : Type} (fields : BTreeMap α) : List (String × α) :=
  (fields.entries.filter fun e => (arrayIndex e.1).isSome).mergeSort
      (fun e e' => (arrayIndex e.1).getD 0 ≤ (arrayIndex e'.1).getD 0) ++
    fields.entries.filter fun e => (arrayIndex e.1).isNone

def stripNewlines (text : String) : String :=
  String.ofList (text.toList.filter fun c => c ≠ '\n' && c ≠ '\r')

def normalizeChars : List Char → List Char
  | '\r' :: '\n' :: cs => '\n' :: normalizeChars cs
  | '\r' :: cs => '\n' :: normalizeChars cs
  | c :: cs => c :: normalizeChars cs
  | [] => []

def normalizeNewlines (text : String) : String := String.ofList (normalizeChars text.toList)

def isFloat (cs : List Char) : Bool :=
  let magnitude := if cs.head? = some '-' then cs.tail else cs
  let integer := magnitude.takeWhile Char.isDigit
  match magnitude.dropWhile Char.isDigit with
  | '.' :: rest => !(rest.takeWhile Char.isDigit).isEmpty &&
      Json.readExponent (rest.dropWhile Char.isDigit)
  | rest => !integer.isEmpty && Json.readExponent rest

def sanitizeNumber (text : String) : String := if isFloat text.toList then text else ""

def replaceOptions (options : List String) (selectedValue : String) (placeholder selectFirst : Bool) :
    String :=
  let value := if selectedValue ∈ options then selectedValue
    else if placeholder then "" else options.head?.getD ""
  if selectFirst && value.isEmpty then options.head?.getD "" else value

structure RunnerCatalogEntry where
  id : String
  name : String
  jobs : List RunnerJobDefinition

section

variable (catalog : List RunnerCatalogEntry)

def getRunner (runnerId : String) : Option RunnerCatalogEntry :=
  (catalog.filter fun runner => runner.id = runnerId).getLast?

def getJobDefinition (runnerId jobName : String) : Option RunnerJobDefinition :=
  (getRunner catalog runnerId).bind fun runner => runner.jobs.find? fun job => job.name = jobName

def promotedArtifactJson (sourceRunnerId sourceJobName outputName : String) : Json :=
  .object [("kind", .string "promoted_artifact"), ("source_runner_id", .string sourceRunnerId),
    ("source_job_name", .string sourceJobName), ("output_name", .string outputName)]

def jobOutputJson (jobIndex : ℕ) (outputName : String) : Json :=
  .object [("kind", .string "job_output"), ("job_index", .number jobIndex),
    ("output_name", .string outputName)]

def promotedArtifactSourceOptions : List String :=
  catalog.flatMap fun runner => runner.jobs.flatMap fun job =>
    ((objectEntries job.outputs).filter fun output => output.2.kind = .artifact).map fun output =>
      jsonStringify (promotedArtifactJson runner.id job.name output.1)

def outputOptionsFor (currentIndex : ℕ) (derivedJobs : List (String × String))
    (expectedKind : String) : List String :=
  (derivedJobs.zipIdx.take currentIndex).flatMap fun job =>
    match getJobDefinition catalog job.1.1 job.1.2 with
    | none => []
    | some definition =>
      ((objectEntries definition.outputs).filter fun output =>
        output.2.kind.asStr = expectedKind).map fun output =>
          jsonStringify (jobOutputJson job.2 output.1)

end

inductive BindingMode
  | literal | commit | branch | sourceArtifact | promotedArtifact | outputArtifact | outputValue
  deriving DecidableEq

structure InferredBinding where
  mode : BindingMode
  value : String
  deriving DecidableEq

def hasKind (rawValue : Option Json) (kind : String) : Bool :=
  match property "kind" rawValue with
  | some (.string text) => text = kind
  | _ => false

def rawText (rawValue : Option Json) : String := (rawValue.map jsonStringify).getD ""

/-- `String(rawValue.value ?? '')`. -/
def valueString (rawValue : Option Json) : String :=
  match property "value" rawValue with
  | none | some .null => ""
  | some value => jsString value

def inferBinding (inputName : String) (kind : InputType) (rawValue : Option Json) :
    InferredBinding :=
  match kind with
  | .artifact =>
    if hasKind rawValue "source_artifact" then ⟨.sourceArtifact, "source.tar.gz"⟩
    else if hasKind rawValue "promoted_artifact" then ⟨.promotedArtifact, rawText rawValue⟩
    else if hasKind rawValue "job_output" then ⟨.outputArtifact, rawText rawValue⟩
    else if inputName = "source" then ⟨.sourceArtifact, "source.tar.gz"⟩
    else ⟨.sourceArtifact, "source.tar.gz"⟩
  | .string =>
    if hasKind rawValue "commit" then ⟨.commit, ""⟩
    else if hasKind rawValue "branch" then ⟨.branch, ""⟩
    else if hasKind rawValue "job_output" then ⟨.outputValue, rawText rawValue⟩
    else if inputName = "commit" then ⟨.commit, ""⟩
    else if inputName = "branch" then ⟨.branch, ""⟩
    else if hasKind rawValue "literal" then
      match property "value" rawValue with
      | some (.string text) => ⟨.literal, text⟩
      | _ => ⟨.literal, ""⟩
    else ⟨.literal, ""⟩
  | .boolean =>
    if hasKind rawValue "job_output" then ⟨.outputValue, rawText rawValue⟩
    else match hasKind rawValue "literal", property "value" rawValue with
      | true, some (.bool true) => ⟨.literal, "true"⟩
      | _, _ => ⟨.literal, "false"⟩
  | .integer =>
    if hasKind rawValue "job_output" then ⟨.outputValue, rawText rawValue⟩
    else if hasKind rawValue "literal" then ⟨.literal, valueString rawValue⟩
    else ⟨.literal, ""⟩
  | .json =>
    if hasKind rawValue "job_output" then ⟨.outputValue, rawText rawValue⟩
    else if hasKind rawValue "literal" then ⟨.literal, rawText (property "value" rawValue)⟩
    else ⟨.literal, ""⟩

def bindingModesFor : InputType → List BindingMode
  | .artifact => [.sourceArtifact, .outputArtifact, .promotedArtifact]
  | .string => [.literal, .outputValue, .commit, .branch]
  | .integer | .boolean | .json => [.literal, .outputValue]

inductive ValueField
  | note
  | input (value : String)
  | textarea (value : String)
  | select (value : String)
  deriving DecidableEq

def ValueField.value : ValueField → String
  | .note => ""
  | .input value | .textarea value | .select value => value

structure InputRow where
  inputName : String
  inputKind : InputType
  mode : BindingMode
  field : ValueField
  bindingValue : String
  deriving DecidableEq

def valueFieldFor (kind : InputType) (binding : InferredBinding)
    (promotedArtifactOptions : List String) : ValueField × Option String :=
  if kind = .artifact then
    (.select (match binding.mode with
      | .sourceArtifact => replaceOptions ["source.tar.gz"] "source.tar.gz" false false
      | .promotedArtifact => replaceOptions promotedArtifactOptions binding.value true false
      | _ => ""), some binding.value)
  else if binding.mode = .outputValue then (.select "", some binding.value)
  else if kind = .string ∧ binding.mode ≠ .literal then (.note, none)
  else if kind = .boolean then
    (.select (replaceOptions ["true", "false"]
      (if binding.value.isEmpty then "false" else binding.value) false false), none)
  else if kind = .json then (.textarea (normalizeNewlines binding.value), none)
  else if kind = .integer then (.input (sanitizeNumber binding.value), none)
  else (.input (stripNewlines binding.value), none)

def renderInputRow (promotedArtifactOptions : List String) (inputName : String) (kind : InputType)
    (rawValue : Option Json) : InputRow :=
  let binding := inferBinding inputName kind rawValue
  let mode := if binding.mode ∈ bindingModesFor kind then binding.mode
    else (bindingModesFor kind).head?.getD .literal
  let field := valueFieldFor kind ⟨mode, binding.value⟩ promotedArtifactOptions
  ⟨inputName, kind, mode, field.1, field.2.getD binding.value⟩

def renderOutputBindingOptions (outputOptions : String → List String) (row : InputRow) : InputRow :=
  match row.field with
  | .select value =>
    if row.mode = .outputArtifact ∨ row.mode = .outputValue then
      let selected := if row.bindingValue.isEmpty then value else row.bindingValue
      let options := outputOptions
        (if row.mode = .outputArtifact then "artifact" else row.inputKind.asStr)
      let chosen := replaceOptions options selected options.isEmpty true
      { row with field := .select chosen, bindingValue := chosen }
    else row
  | _ => row

def parseOutputBinding (value : String) : Option Json :=
  if value.isEmpty then none else (jsonParse value).filter truthy

def kindJson (kind : String) : Json := .object [("kind", .string kind)]

def literalJson (value : Json) : Json := .object [("kind", .string "literal"), ("value", value)]

def readLiteralBinding (kind : InputType) (value : String) : Json :=
  match kind with
  | .boolean => literalJson (.bool (value = "true"))
  | .integer =>
    let raw := jsTrim value
    match parseInt10 raw with
    | some parsed => literalJson (.number parsed)
    | none => literalJson (.string raw)
  | .json =>
    let raw := jsTrim value
    if raw.isEmpty then literalJson (.object [])
    else match jsonParse raw with
      | some parsed => literalJson parsed
      | none => literalJson (.string raw)
  | .artifact | .string => literalJson (.string value)

def readInputBinding (row : InputRow) : String × Json :=
  let value := row.field.value
  (row.inputName, match row.inputKind with
    | .artifact =>
      match row.mode with
      | .sourceArtifact => kindJson "source_artifact"
      | .promotedArtifact => (parseOutputBinding value).getD (promotedArtifactJson "" "" "")
      | _ => (parseOutputBinding value).getD (kindJson "source_artifact")
    | .string =>
      match row.mode with
      | .commit => kindJson "commit"
      | .branch => kindJson "branch"
      | .outputValue => (parseOutputBinding value).getD (literalJson (.string ""))
      | _ => literalJson (.string value)
    | kind =>
      match row.mode, parseOutputBinding value with
      | .outputValue, some outputBinding => outputBinding
      | _, _ => readLiteralBinding kind value)

/-- An assignment to `__proto__` makes no property. -/
def serializeInputs (rows : List InputRow) : BTreeMap Json :=
  (rows.map readInputBinding).foldl
    (fun inputs binding => if binding.1 = "__proto__" then inputs
      else inputs.insert binding.1 binding.2) .empty

mutual

def valueJson : Value → Json
  | .null => .null
  | .bool value => .bool value
  | .number (.integer value) => .number value
  | .number (.float text) => .decimal text
  | .string text => .string text
  | .array items => .array (valuesJson items)
  | .object fields => .object (fieldsJson fields)

def valuesJson : List Value → List Json
  | [] => []
  | value :: values => valueJson value :: valuesJson values

def fieldsJson : List (String × Value) → List (String × Json)
  | [] => []
  | (name, value) :: fields => (name, valueJson value) :: fieldsJson fields

end

def bindingJson : WorkflowInputBinding → Json
  | .literal value => literalJson (valueJson value)
  | .commit => kindJson "commit"
  | .branch => kindJson "branch"
  | .sourceArtifact => kindJson "source_artifact"
  | .promotedArtifact sourceRunnerId sourceJobName outputName =>
    promotedArtifactJson sourceRunnerId sourceJobName outputName
  | .jobOutput jobIndex outputName => jobOutputJson jobIndex outputName

section

variable (catalog : List RunnerCatalogEntry) (definition : WorkflowDefinition)

def derivedJobs : List (String × String) :=
  definition.jobs.map fun job => (jsTrim job.runnerId, jsTrim job.runnerJobName)

def editorRow (jobIndex : ℕ) (job : WorkflowJobDefinition) (input : String × JobInputDefinition) :
    InputRow :=
  renderOutputBindingOptions (outputOptionsFor catalog jobIndex (derivedJobs definition))
    (renderInputRow (promotedArtifactSourceOptions catalog) input.1 input.2.kind
      ((job.inputs.get input.1).map bindingJson))

def editorRows (jobIndex : ℕ) (job : WorkflowJobDefinition) : List InputRow :=
  match getJobDefinition catalog job.runnerId job.runnerJobName with
  | none => []
  | some jobDefinition => (objectEntries jobDefinition.inputs).map (editorRow catalog definition jobIndex job)

def reopenedInputs (jobIndex : ℕ) (job : WorkflowJobDefinition) : BTreeMap Json :=
  serializeInputs (editorRows catalog definition jobIndex job)

end

end Janus.Web
