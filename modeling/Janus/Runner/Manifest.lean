import Janus.Server.Models

/-! Job manifests and the checks they pass before the runner serves them. -/

namespace Janus.Runner

open Janus.Data Janus.Server

def reservedInputNames : List String :=
  ["id", "name", "workdir", "output_dir", "metadata_path", "janus_job_run_id"]

def isReservedInputName (name : String) : Bool := reservedInputNames.contains name

structure InputSpec where
  kind : InputType
  required : Bool
  sensitive : Bool := false
  maxLength : Option ℕ := none
  pattern : Option String := none
  maxJsonBytes : Option ℕ := none

structure OutputSpec where
  kind : OutputType
  path : String
  required : Bool

structure JobManifest where
  name : String
  script : String
  timeoutSeconds : ℕ
  concurrency : Concurrency
  inputs : BTreeMap InputSpec := .empty
  outputs : BTreeMap OutputSpec := .empty

inductive ManifestError
  | readFile (path source : String)
  | duplicateJobName (name path : String)
  | invalidJobName (name path : String)
  | invalidInputName (name path : String)
  | invalidInputConstraint (name path reason : String)
  | invalidOutputName (name path : String)
  | invalidOutputPath (output path : String)
  | invalidTimeout (path : String)
  | scriptNotAbsolute (script path : String)
  | scriptNotFound (script path : String)
  | scriptNotExecutable (script path : String)

inductive FileStat
  | notFound
  | failed (source : String)
  | file (mode : ℕ)

/-- What manifests are checked against: the files of the host, and the library of regular
expressions. -/
structure Host where
  stat : String → FileStat
  regex : (pattern : String) → Except String (String → Bool)

def isSafeName (name : String) : Bool :=
  match name.toList with
  | [] => false
  | first :: rest => first.isAlpha && rest.all fun ch => ch.isAlphanum || ch == '_' || ch == '-'

def validateJobName (name path : String) : Except ManifestError Unit :=
  if isSafeName name = false ∨ name.toList.contains '/' then .error (.invalidJobName name path)
  else .ok ()

def validateInputName (name path : String) : Except ManifestError Unit :=
  if isSafeName name = false ∨ isReservedInputName name = true then .error (.invalidInputName name path)
  else .ok ()

def validateOutputName (name path : String) : Except ManifestError Unit :=
  if isSafeName name then .ok () else .error (.invalidOutputName name path)

def isAbsolute (path : String) : Bool := path.toList.head? == some '/'

def hasParentDir (path : String) : Bool := (path.toList.splitOn '/').contains ['.', '.']

def validateOutputPath (output path : String) : Except ManifestError Unit :=
  if output.isEmpty ∨ isAbsolute output = true then .error (.invalidOutputPath output path)
  else if hasParentDir output then .error (.invalidOutputPath output path)
  else .ok ()

section

variable (host : Host)

def validateScriptPath (script path : String) : Except ManifestError Unit :=
  if isAbsolute script = false then .error (.scriptNotAbsolute script path)
  else match host.stat script with
    | .notFound => .error (.scriptNotFound script path)
    | .failed source => .error (.readFile script source)
    | .file mode => if mode &&& 0o111 = 0 then .error (.scriptNotExecutable script path) else .ok ()

def validateMaxLength (name : String) (spec : InputSpec) (path : String) : Except ManifestError Unit :=
  match spec.maxLength with
  | none => .ok ()
  | some maxLength =>
    if maxLength = 0 then
      .error (.invalidInputConstraint name path "max_length must be positive")
    else if spec.kind ≠ .string then
      .error (.invalidInputConstraint name path "max_length is only supported for string inputs")
    else .ok ()

def validatePattern (name : String) (spec : InputSpec) (path : String) : Except ManifestError Unit :=
  match spec.pattern with
  | none => .ok ()
  | some pattern =>
    if spec.kind ≠ .string then
      .error (.invalidInputConstraint name path "pattern is only supported for string inputs")
    else match host.regex pattern with
      | .error error => .error (.invalidInputConstraint name path ("invalid regex pattern: " ++ error))
      | .ok _ => .ok ()

def validateMaxJsonBytes (name : String) (spec : InputSpec) (path : String) :
    Except ManifestError Unit :=
  match spec.maxJsonBytes with
  | none => .ok ()
  | some maxJsonBytes =>
    if maxJsonBytes = 0 then
      .error (.invalidInputConstraint name path "max_json_bytes must be positive")
    else if spec.kind ≠ .json then
      .error (.invalidInputConstraint name path "max_json_bytes is only supported for json inputs")
    else .ok ()

def validateInputConstraints (name : String) (spec : InputSpec) (path : String) :
    Except ManifestError Unit := do
  validateMaxLength name spec path
  validatePattern host name spec path
  validateMaxJsonBytes name spec path

def JobManifest.validate (manifest : JobManifest) (path : String) : Except ManifestError Unit := do
  validateJobName manifest.name path
  validateScriptPath host manifest.script path
  if manifest.timeoutSeconds = 0 then throw (.invalidTimeout path)
  manifest.inputs.keys.forM fun name => validateInputName name path
  manifest.inputs.entries.forM fun input => validateInputConstraints host input.1 input.2 path
  manifest.outputs.keys.forM fun name => validateOutputName name path
  manifest.outputs.values.forM fun output => validateOutputPath output.path path

structure ManifestStore where
  manifests : BTreeMap JobManifest
  named : ∀ name manifest, manifests.get name = some manifest → manifest.name = name
  valid : ∀ name manifest, manifests.get name = some manifest →
    ∃ path, manifest.validate host path = .ok ()

namespace ManifestStore

variable {host}

def empty : ManifestStore host := ⟨.empty, fun _ _ h => (nomatch h), fun _ _ h => (nomatch h)⟩

def insert (store : ManifestStore host) (manifest : JobManifest) (path : String)
    (h : manifest.validate host path = .ok ()) : ManifestStore host where
  manifests := store.manifests.insert manifest.name manifest
  named name m hm := by
    by_cases hn : name = manifest.name
    · subst hn
      rw [OrderedMap.get_insert_self] at hm
      exact congrArg JobManifest.name (Option.some.inj hm).symm
    · exact store.named name m ((OrderedMap.get_insert_of_ne hn).symm.trans hm)
  valid name m hm := by
    by_cases hn : name = manifest.name
    · subst hn
      rw [OrderedMap.get_insert_self] at hm
      exact ⟨path, Option.some.inj hm ▸ h⟩
    · exact store.valid name m ((OrderedMap.get_insert_of_ne hn).symm.trans hm)

def loadFiles (store : ManifestStore host) :
    List (String × JobManifest) → Except ManifestError (ManifestStore host)
  | [] => .ok store
  | (path, manifest) :: files =>
    match h : manifest.validate host path with
    | .error error => .error error
    | .ok () =>
      if store.manifests.containsKey manifest.name then
        .error (.duplicateJobName manifest.name path)
      else loadFiles (store.insert manifest path h) files

def loadFromDir (host : Host) (files : List (String × JobManifest)) :
    Except ManifestError (ManifestStore host) :=
  loadFiles empty files

def get (store : ManifestStore host) (name : String) : Option JobManifest := store.manifests.get name

end ManifestStore

end

end Janus.Runner
