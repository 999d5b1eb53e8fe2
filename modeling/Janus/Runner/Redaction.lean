import Janus.Runner.Creation
import Janus.Runner.Literals

/-! What the metadata of a job says of its sensitive inputs. -/

namespace Janus.Runner

open Janus.Concurrency Janus.Data Janus.Server

variable {rt : Runtime} {manifest : JobManifest} {resolved resolved' : BTreeMap String}
variable {store : RunnerStore} {os : List Outcome}

def artifactBlobPath (rt : Runtime) (artifactId : String) : String :=
  rt.config.rootDir ++ "/artifacts/" ++ artifactId ++ "/blob"

def resolvedPath (rt : Runtime) (manifest : JobManifest) (input : String × Value) : Option String :=
  match checkInput rt manifest input.1 input.2 with
  | .ok (some artifactId) => some (artifactBlobPath rt artifactId)
  | _ => none

def resolveInput (rt : Runtime) (manifest : JobManifest) (resolved : BTreeMap String)
    (input : String × Value) : BTreeMap String :=
  match resolvedPath rt manifest input with
  | some path => resolved.insert input.1 path
  | none => resolved

lemma loadArtifact_ok {name artifactId path : String}
    (h : ((loadArtifact rt name artifactId).play (RunnerCall.exec rt) os store).result =
      some (.ok path)) : path = artifactBlobPath rt artifactId := by
  obtain ⟨metadata, -, h⟩ := Program.play_bind_ok h
  obtain ⟨expired, -, h⟩ := Program.play_bind_ok h
  split at h
  · rw [fail, Program.play_fail] at h
    cases h
  · rw [Program.play_pure] at h
    exact (Except.ok.inj (Option.some.inj h)).symm

lemma validateInput_ok {input : String × Value}
    (h : ((validateInput rt manifest resolved input.1 input.2).play (RunnerCall.exec rt) os
      store).result = some (.ok resolved')) :
    (∃ artifact, checkInput rt manifest input.1 input.2 = .ok artifact) ∧
      resolved' = resolveInput rt manifest resolved input := by
  obtain ⟨artifact, hcheck, h⟩ := Program.play_bind_ok h
  rw [Program.play_done] at hcheck h
  have hcheck := Option.some.inj hcheck
  refine ⟨⟨artifact, hcheck⟩, ?_⟩
  rw [resolveInput, resolvedPath, hcheck]
  cases artifact with
  | none =>
    rw [Program.play_pure] at h
    exact (Except.ok.inj (Option.some.inj h)).symm
  | some artifactId =>
    obtain ⟨path, hload, h⟩ := Program.play_bind_ok h
    rw [Program.play_pure] at h
    rw [loadArtifact_ok hload] at h
    exact (Except.ok.inj (Option.some.inj h)).symm

lemma validateEntries_ok {entries : List (String × Value)}
    (h : ((validateEntries rt manifest resolved entries).play (RunnerCall.exec rt) os store).result =
      some (.ok resolved')) :
    (∀ input ∈ entries, ∃ artifact, checkInput rt manifest input.1 input.2 = .ok artifact) ∧
      resolved' = entries.foldl (resolveInput rt manifest) resolved := by
  induction entries generalizing resolved os store with
  | nil =>
    rw [validateEntries, Program.play_pure] at h
    exact ⟨fun input hinput => (List.not_mem_nil hinput).elim, (Except.ok.inj (Option.some.inj h)).symm⟩
  | cons input entries ih =>
    obtain ⟨next, hinput, h⟩ := Program.play_bind_ok h
    obtain ⟨hcheck, rfl⟩ := validateInput_ok hinput
    obtain ⟨hchecks, hresolved⟩ := ih h
    exact ⟨List.forall_mem_cons.mpr ⟨hcheck, hchecks⟩, hresolved⟩

lemma get_resolveInput (resolved : BTreeMap String) (input : String × Value) (name : String) :
    (resolveInput rt manifest resolved input).get name =
      if input.1 = name then (resolvedPath rt manifest input).or (resolved.get name)
      else resolved.get name := by
  rw [resolveInput]
  cases resolvedPath rt manifest input with
  | none => exact (ite_self _).symm
  | some path =>
    dsimp only
    split
    · next h =>
      subst h
      exact OrderedMap.get_insert_self
    · next h => exact OrderedMap.get_insert_of_ne (Ne.symm h)

lemma get_resolved {entries : List (String × Value)} (h : (entries.map Prod.fst).Nodup)
    (resolved : BTreeMap String) (name : String) :
    (entries.foldl (resolveInput rt manifest) resolved).get name =
      ((entries.find? fun e => e.1 = name).bind (resolvedPath rt manifest)).or
        (resolved.get name) := by
  induction entries generalizing resolved with
  | nil => rfl
  | cons input entries ih =>
    obtain ⟨hnot, hnodup⟩ := List.nodup_cons.mp h
    rw [List.foldl_cons, ih hnodup, get_resolveInput]
    by_cases hname : input.1 = name
    · have hrest : entries.find? (fun e => e.1 = name) = none := by
        refine List.find?_eq_none.mpr fun e he heq => hnot ?_
        rw [hname, ← of_decide_eq_true heq]
        exact List.mem_map_of_mem he
      rw [hrest, if_pos hname, List.find?_cons_of_pos (by simpa using hname)]
      rfl
    · rw [if_neg hname, List.find?_cons_of_neg (by simpa using hname)]

lemma validateInputs_ok {inputs : BTreeMap Value}
    (h : ((validateInputs rt manifest inputs).play (RunnerCall.exec rt) os store).result =
      some (.ok resolved)) :
    (∀ name value, inputs.get name = some value →
        ∃ artifact, checkInput rt manifest name value = .ok artifact) ∧
      ∀ name, resolved.get name =
        (inputs.get name).bind fun value => resolvedPath rt manifest (name, value) := by
  rw [validateInputs] at h
  split at h
  · rw [fail, Program.play_fail] at h
    cases h
  · rw [fail, Program.play_fail] at h
    cases h
  · obtain ⟨hcheck, rfl⟩ := validateEntries_ok h
    refine ⟨fun name value hget => hcheck (name, value) (OrderedMap.get_eq_some_iff.mp hget), ?_⟩
    intro name
    rw [get_resolved OrderedMap.keys_nodup, OrderedMap.get_empty, Option.or_none, OrderedMap.get]
    cases hfind : inputs.entries.find? fun e => e.1 = name with
    | none => rfl
    | some e =>
      obtain rfl : e.1 = name := by simpa using List.find?_some hfind
      rfl

lemma checkInput_ok {name artifactId : String} {spec : InputSpec} {value : Value}
    (hspec : manifest.inputs.get name = some spec)
    (h : checkInput rt manifest name value = .ok (some artifactId)) : spec.kind = .artifact := by
  rw [checkInput] at h
  split at h
  · cases h
  · rw [hspec] at h
    dsimp only at h
    cases hkind : spec.kind with
    | artifact => rfl
    | string | json =>
      rw [hkind] at h
      obtain ⟨u, -, hnone⟩ := map_ok h
      cases hnone
    | integer | boolean =>
      rw [hkind] at h
      dsimp only at h
      split at h <;> cases h

lemma resolvedPath_of_ne_artifact {name : String} {spec : InputSpec} (value : Value)
    (hspec : manifest.inputs.get name = some spec) (hkind : spec.kind ≠ .artifact) :
    resolvedPath rt manifest (name, value) = none := by
  rw [resolvedPath]
  split
  · next h => exact (hkind (checkInput_ok hspec h)).elim
  · rfl

lemma resolvedPath_artifact {path name : String} {spec : InputSpec} {value : Value}
    (hvalid : manifest.validate rt.host path = .ok ())
    (hspec : manifest.inputs.get name = some spec) (hkind : spec.kind = .artifact)
    (hcheck : ∃ artifact, checkInput rt manifest name value = .ok artifact) :
    ∃ artifactId, value = .string artifactId ∧
      resolvedPath rt manifest (name, value) = some (artifactBlobPath rt artifactId) := by
  have hreserved := validate_inputName hvalid hspec
  obtain ⟨artifact, hcheck⟩ := hcheck
  cases value with
  | string artifactId =>
    refine ⟨artifactId, rfl, ?_⟩
    rw [resolvedPath]
    dsimp only
    rw [checkInput_artifact hspec hreserved hkind] at hcheck ⊢
    cases hid : validateArtifactId artifactId with
    | error error =>
      rw [hid] at hcheck
      cases hcheck
    | ok u => rfl
  | null | bool | number | array | object =>
    rw [checkInput, if_neg (by simp [hreserved]), hspec] at hcheck
    dsimp only at hcheck
    rw [hkind] at hcheck
    cases hcheck

lemma artifactBlobPath_inj {artifactId artifactId' : String}
    (h : artifactBlobPath rt artifactId = artifactBlobPath rt artifactId') :
    artifactId = artifactId' := by
  have hlist := congrArg String.toList h
  simp only [artifactBlobPath, String.toList_append, List.append_cancel_right_eq,
    List.append_cancel_left_eq] at hlist
  exact String.toList_inj.mp hlist

/-- The same inputs, up to the values of those that are declared sensitive. -/
structure SensitivePair (manifest : JobManifest) (inputs inputs' : BTreeMap Value) : Prop where
  names : ∀ name, inputs.containsKey name = inputs'.containsKey name
  others : ∀ name, (∀ spec, manifest.inputs.get name = some spec → spec.sensitive = false) →
    inputs.get name = inputs'.get name

/-- `create_job` takes the request up as a new job, and persists these metadata of it. -/
def Persists (rt : Runtime) (n : ℕ) (name key : String) (body : Bytes) (inputs : BTreeMap Value)
    (os : List Outcome) (store : RunnerStore) (metadata : JobMetadata) : Prop :=
  (∃ created, ((createJob rt n name key body inputs).play (RunnerCall.exec rt) os store).result =
      some (.ok created)) ∧
    store.jobDirs.containsKey (jobIdForIdempotencyKey rt key) = false ∧
    (((createJob rt n name key body inputs).play (RunnerCall.exec rt) os store).store.dir
      (jobIdForIdempotencyKey rt key)).metadata = some metadata

lemma Persists.metadata_eq {n : ℕ} {name key : String} {body : Bytes} {inputs : BTreeMap Value}
    {metadata : JobMetadata} (h : Persists rt n name key body inputs os store metadata)
    (hfound : rt.manifests.get name = some manifest) :
    metadata.inputs = redactSensitiveInputs manifest inputs ∧
      (∀ name value, inputs.get name = some value →
        ∃ artifact, checkInput rt manifest name value = .ok artifact) ∧
      ∀ name, metadata.resolvedArtifacts.get name =
        (inputs.get name).bind fun value => resolvedPath rt manifest (name, value) := by
  obtain ⟨⟨created, hcreated⟩, habsent, hmeta⟩ := h
  rcases createJob_play rt n name key body inputs os store with
    hrefused | ⟨manifest', resolved, setup, job, startedAt, hjob, hadm, hend⟩
  · obtain ⟨-, ⟨error, herror⟩ | hsome, -⟩ := hrefused _ hcreated
    · cases herror
    · rw [metadata_of_absent habsent] at hsome
      cases hsome
  · obtain rfl : manifest' = manifest :=
      Option.some.inj (hadm.accepted.found.symm.trans hfound)
    rcases hend _ hcreated with ⟨⟨error, herror⟩, -⟩ | ⟨-, hdone⟩
    · cases herror
    · have hwritten := hdone.metadata
      rw [hjob] at hwritten
      obtain rfl := Option.some.inj (hwritten.symm.trans hmeta)
      exact ⟨rfl, validateInputs_ok hadm.accepted.valid⟩

lemma SensitivePair.redact_eq {inputs inputs' : BTreeMap Value}
    (h : SensitivePair manifest inputs inputs') :
    redactSensitiveInputs manifest inputs = redactSensitiveInputs manifest inputs' := by
  refine OrderedMap.ext_get fun name => ?_
  rw [redactSensitiveInputs, redactSensitiveInputs, OrderedMap.get_mapValues,
    OrderedMap.get_mapValues]
  by_cases hsensitive : ∀ spec, manifest.inputs.get name = some spec → spec.sensitive = false
  · rw [h.others name hsensitive]
  · push Not at hsensitive
    obtain ⟨spec, hspec, htrue⟩ := hsensitive
    have hhidden : ∀ inputs : BTreeMap Value, (inputs.get name).map (fun value =>
        if ((manifest.inputs.get name).map InputSpec.sensitive).getD false = true then
          .string redactedInputValue else value) =
        (inputs.get name).map fun _ => .string redactedInputValue := by
      intro inputs
      rw [hspec]
      simp only [Option.map_some, Option.getD_some, if_pos (by simpa using htrue)]
    rw [hhidden, hhidden]
    have hnames := h.names name
    rw [OrderedMap.containsKey_eq_isSome, OrderedMap.containsKey_eq_isSome] at hnames
    cases hget : inputs.get name with
    | none =>
      rw [hget] at hnames
      rw [Option.isNone_iff_eq_none.mp (Option.isSome_eq_false_iff.mp hnames.symm)]
    | some value =>
      rw [hget] at hnames
      obtain ⟨value', hvalue'⟩ := Option.isSome_iff_exists.mp hnames.symm
      rw [hvalue']
      rfl

/-- The persisted metadata of two such requests tell the sensitive values apart exactly if one names
an artifact. -/
theorem sensitive_inputs_hidden_iff {n n' : ℕ} {name key : String} {body body' : Bytes}
    {inputs inputs' : BTreeMap Value} {os' : List Outcome} {store' : RunnerStore}
    {metadata metadata' : JobMetadata} (hfound : rt.manifests.get name = some manifest)
    (hpair : SensitivePair manifest inputs inputs')
    (h : Persists rt n name key body inputs os store metadata)
    (h' : Persists rt n' name key body' inputs' os' store' metadata') :
    (metadata.inputs = metadata'.inputs ∧
        metadata.resolvedArtifacts = metadata'.resolvedArtifacts) ↔
      ∀ input spec, manifest.inputs.get input = some spec → spec.kind = .artifact →
        spec.sensitive = true → inputs.get input = inputs'.get input := by
  obtain ⟨hinputs, hcheck, hresolved⟩ := h.metadata_eq hfound
  obtain ⟨hinputs', hcheck', hresolved'⟩ := h'.metadata_eq hfound
  obtain ⟨path, hvalid⟩ := rt.manifests.valid name manifest hfound
  have hsame : metadata.inputs = metadata'.inputs := by rw [hinputs, hinputs', hpair.redact_eq]
  rw [and_iff_right hsame]
  constructor
  · intro heq input spec hspec hkind _
    have hget := hresolved input
    rw [heq, hresolved'] at hget
    have hnames := hpair.names input
    rw [OrderedMap.containsKey_eq_isSome, OrderedMap.containsKey_eq_isSome] at hnames
    cases hvalue : inputs.get input with
    | none =>
      rw [hvalue] at hnames
      exact (Option.isNone_iff_eq_none.mp (Option.isSome_eq_false_iff.mp hnames.symm)).symm
    | some value =>
      rw [hvalue] at hnames
      obtain ⟨value', hvalue'⟩ := Option.isSome_iff_exists.mp hnames.symm
      obtain ⟨artifactId, rfl, hpath⟩ :=
        resolvedPath_artifact hvalid hspec hkind (hcheck input value hvalue)
      obtain ⟨artifactId', rfl, hpath'⟩ :=
        resolvedPath_artifact hvalid hspec hkind (hcheck' input value' hvalue')
      rw [hvalue, hvalue', Option.bind_some, Option.bind_some, hpath, hpath'] at hget
      rw [hvalue', artifactBlobPath_inj (Option.some.inj hget)]
  · intro hartifacts
    refine OrderedMap.ext_get fun input => ?_
    rw [hresolved, hresolved']
    by_cases hsensitive : ∀ spec, manifest.inputs.get input = some spec → spec.sensitive = false
    · rw [hpair.others input hsensitive]
    · push Not at hsensitive
      obtain ⟨spec, hspec, htrue⟩ := hsensitive
      by_cases hkind : spec.kind = .artifact
      · rw [hartifacts input spec hspec hkind (by simpa using htrue)]
      · have hnone : ∀ inputs : BTreeMap Value, (inputs.get input).bind (fun value =>
            resolvedPath rt manifest (input, value)) = none := by
          intro inputs
          cases inputs.get input with
          | none => rfl
          | some value => exact resolvedPath_of_ne_artifact value hspec hkind
        rw [hnone, hnone]

def secretManifest : JobManifest :=
  { sampleManifest with
    inputs := .ofList [("kubeconfig", { kind := .artifact, required := false, sensitive := true }),
      ("password", { kind := .string, required := false, sensitive := true })] }

def secretManifests : ManifestStore sampleHost :=
  match ManifestStore.loadFromDir sampleHost [("/etc/janus/jobs/deploy.toml", secretManifest)] with
  | .ok store => store
  | .error _ => .empty

def passwordBody (password : String) : Bytes := utf8 ("\x7b\"password\":\"" ++ password ++ "\"\x7d")

def kubeconfigBody (artifactId : String) : Bytes :=
  utf8 ("\x7b\"kubeconfig\":\"" ++ artifactId ++ "\"\x7d")

def secretHashes : List (Bytes × String) :=
  [(utf8 "deploy" ++ 0 :: passwordBody "hunter2",
      "6f2ab5472d2c22a758e2caee929f0b0d061904a18d203a2d341c9f90e4683a39"),
    (utf8 "deploy" ++ 0 :: passwordBody "swordfish",
      "b4c0810c4b974287324e5782816cef201d5910a0738b1c3c5e645ff54fab6127"),
    (utf8 "deploy" ++ 0 :: kubeconfigBody "art_0123456789abcdef0123456789abcdef",
      "13c082c480f8e948fe6667432de9e7db5a5db58a6887000f58f4d031512cb330"),
    (utf8 "deploy" ++ 0 :: kubeconfigBody "art_fedcba9876543210fedcba9876543210",
      "39b327598d0082d19afe44767b8267bb3cb3fa86be2258e8667dec0af5e586f7")]

def secretRuntime : Runtime :=
  { sampleRuntime with
    manifests := secretManifests
    sha256Hex := fun bytes =>
      (((sampleHashes ++ secretHashes).find? fun e => e.1 = bytes).map Prod.snd).getD "" }

def kubeconfigStore : RunnerStore :=
  { serving := true
    artifacts := .ofList [
      ("art_0123456789abcdef0123456789abcdef",
        ⟨"art_0123456789abcdef0123456789abcdef", "", 512, 1000000000⟩),
      ("art_fedcba9876543210fedcba9876543210",
        ⟨"art_fedcba9876543210fedcba9876543210", "", 512, 1000000000⟩)] }

def secretCreate (body : Bytes) (inputs : BTreeMap Value) :
    Played JobError JobCreated Outcome RunnerStore :=
  (createJob secretRuntime 0 "deploy" "a" body inputs).play (RunnerCall.exec secretRuntime)
    (List.replicate 20 {}) kubeconfigStore

def passwordInputs (password : String) : BTreeMap Value := .ofList [("password", .string password)]

def kubeconfigInputs (artifactId : String) : BTreeMap Value :=
  .ofList [("kubeconfig", .string artifactId)]

lemma secret_persists (body : Bytes) (inputs : BTreeMap Value)
    (h : (secretCreate body inputs).result.map Except.isOk = some true)
    (hsome : ((secretCreate body inputs).store.dir
      (jobIdForIdempotencyKey secretRuntime "a")).metadata.isSome = true) :
    ∃ metadata, Persists secretRuntime 0 "deploy" "a" body inputs (List.replicate 20 {})
      kubeconfigStore metadata := by
  obtain ⟨metadata, hmetadata⟩ := Option.isSome_iff_exists.mp hsome
  refine ⟨metadata, ?_, rfl, hmetadata⟩
  obtain ⟨x, hx, hok⟩ := Option.map_eq_some_iff.mp h
  cases x with
  | ok created => exact ⟨created, hx⟩
  | error error => cases hok

lemma sensitivePair_single {name : String} {spec : InputSpec} (value value' : Value)
    (hspec : manifest.inputs.get name = some spec) (hsensitive : spec.sensitive = true) :
    SensitivePair manifest (.ofList [(name, value)]) (.ofList [(name, value')]) := by
  refine ⟨fun _ => rfl, fun other hother => ?_⟩
  by_cases h : other = name
  · subst h
    rw [hother spec hspec] at hsensitive
    cases hsensitive
  · simp only [OrderedMap.ofList, List.foldl_cons, List.foldl_nil, OrderedMap.get_insert_of_ne h]

theorem sensitive_passwords_hidden :
    ∃ metadata metadata',
      Persists secretRuntime 0 "deploy" "a" (passwordBody "hunter2") (passwordInputs "hunter2")
        (List.replicate 20 {}) kubeconfigStore metadata ∧
      Persists secretRuntime 0 "deploy" "a" (passwordBody "swordfish") (passwordInputs "swordfish")
        (List.replicate 20 {}) kubeconfigStore metadata' ∧
      ((metadata.inputs = metadata'.inputs ∧
          metadata.resolvedArtifacts = metadata'.resolvedArtifacts) ↔
        ∀ input spec, secretManifest.inputs.get input = some spec → spec.kind = .artifact →
          spec.sensitive = true →
            (passwordInputs "hunter2").get input = (passwordInputs "swordfish").get input) := by
  obtain ⟨metadata, h⟩ := secret_persists (passwordBody "hunter2")
    (passwordInputs "hunter2") (by decide +kernel) (by decide +kernel)
  obtain ⟨metadata', h'⟩ := secret_persists (passwordBody "swordfish")
    (passwordInputs "swordfish") (by decide +kernel) (by decide +kernel)
  have hpair : SensitivePair secretManifest (passwordInputs "hunter2") (passwordInputs "swordfish") :=
    sensitivePair_single _ _ rfl rfl
  exact ⟨metadata, metadata', h, h', sensitive_inputs_hidden_iff rfl hpair h h'⟩

theorem sensitive_artifact_persisted :
    SensitivePair secretManifest (kubeconfigInputs "art_0123456789abcdef0123456789abcdef")
        (kubeconfigInputs "art_fedcba9876543210fedcba9876543210") ∧
      ∃ metadata metadata',
        Persists secretRuntime 0 "deploy" "a"
          (kubeconfigBody "art_0123456789abcdef0123456789abcdef")
          (kubeconfigInputs "art_0123456789abcdef0123456789abcdef") (List.replicate 20 {})
          kubeconfigStore metadata ∧
        Persists secretRuntime 0 "deploy" "a"
          (kubeconfigBody "art_fedcba9876543210fedcba9876543210")
          (kubeconfigInputs "art_fedcba9876543210fedcba9876543210") (List.replicate 20 {})
          kubeconfigStore metadata' ∧
        metadata.resolvedArtifacts ≠ metadata'.resolvedArtifacts := by
  obtain ⟨metadata, h⟩ := secret_persists
    (kubeconfigBody "art_0123456789abcdef0123456789abcdef")
    (kubeconfigInputs "art_0123456789abcdef0123456789abcdef") (by decide +kernel)
    (by decide +kernel)
  obtain ⟨metadata', h'⟩ := secret_persists
    (kubeconfigBody "art_fedcba9876543210fedcba9876543210")
    (kubeconfigInputs "art_fedcba9876543210fedcba9876543210") (by decide +kernel)
    (by decide +kernel)
  refine ⟨sensitivePair_single _ _ rfl rfl, metadata, metadata', h, h', fun heq => ?_⟩
  have hresolved := (h.metadata_eq rfl).2.2 "kubeconfig"
  have hresolved' := (h'.metadata_eq rfl).2.2 "kubeconfig"
  rw [heq, hresolved'] at hresolved
  exact absurd hresolved (by decide +kernel)

end Janus.Runner
