import Janus.Concurrency.Play
import Janus.Data.Except
import Janus.Runner.Runs
import Janus.Server.Bindings

/-! Which of the literals that the server has accepted for an input the runner accepts. -/

namespace Janus.Runner

open Janus.Concurrency Janus.Data Janus.Server

variable {rt : Runtime} {manifest : JobManifest} {name path : String} {spec : InputSpec}
variable {value : Value}

/-- `JobDefinitionResponse::from`. -/
def JobManifest.definition (manifest : JobManifest) : RunnerJobDefinition where
  name := manifest.name
  concurrency := manifest.concurrency
  timeoutSeconds := manifest.timeoutSeconds
  inputs := manifest.inputs.mapValues fun _ spec =>
    ⟨spec.kind, spec.required, spec.sensitive, spec.maxLength, spec.pattern, spec.maxJsonBytes⟩
  outputs := manifest.outputs.mapValues fun _ output => ⟨output.kind, output.path, output.required⟩

/-- The server accepts the literal for the input of the job that the runner advertises. -/
def ServerAccepts (rt : Runtime) (manifest : JobManifest) (name : String) (value : Value) : Prop :=
  ∃ inputDefinition, manifest.definition.inputs.get name = some inputDefinition ∧
    validateLiteral rt.jsonText name inputDefinition value = .ok () ∧
    (inputDefinition.required = true → workflowInputBindingIsEmpty (.literal value) = false)

/-- The runner accepts the value for the input, with these outcomes of its look at the artifact. -/
def RunnerAccepts (rt : Runtime) (manifest : JobManifest) (name : String) (value : Value)
    (outcomes : List Outcome) (store : RunnerStore) : Prop :=
  ∃ resolved, ((validateInput rt manifest .empty name value).play (RunnerCall.exec rt) outcomes
    store).result = some (.ok resolved)

/-- A text matches the pattern of its input, if it has one. -/
def MatchesPattern (rt : Runtime) (spec : InputSpec) (value : Value) : Prop :=
  ∀ pattern ∈ spec.pattern, ∀ isMatch, rt.host.regex pattern = .ok isMatch →
    ∀ text ∈ value.asStr, isMatch text = true

lemma serverAccepts_of_workflow {catalog : RunnerCatalog} {definition : WorkflowDefinition}
    {defs : List RunnerJobDefinition} {jobIndex : ℕ} {job : WorkflowJobDefinition}
    (h : validateWorkflowRunners rt.jsonText catalog definition = .ok defs)
    (hj : definition.jobs[jobIndex]? = some job)
    (hd : defs[jobIndex]? = some manifest.definition)
    (hb : job.inputs.get name = some (.literal value)) : ServerAccepts rt manifest name value := by
  obtain ⟨runnerJob, hd', hv, hr⟩ := validateWorkflowRunners_ok h hj
  obtain rfl := Option.some.inj (hd.symm.trans hd')
  obtain ⟨input, hi, hl⟩ := validateInputBindings_ok hv (OrderedMap.get_eq_some_iff.mp hb)
  refine ⟨input, hi, hl, fun hrequired => ?_⟩
  simp only [validateRequiredWorkflowInputs] at hr
  split at hr
  · exact (nomatch hr)
  · next hnone =>
    have hno := List.find?_eq_none.mp hnone _ (OrderedMap.get_eq_some_iff.mp hi)
    simpa [hrequired, hb] using hno

lemma validate_inputName (h : manifest.validate rt.host path = .ok ())
    (hg : manifest.inputs.get name = some spec) : isReservedInputName name = false := by
  obtain ⟨-, -, h⟩ := bind_ok h
  obtain ⟨-, -, h⟩ := bind_ok h
  have hk : ∃ u, manifest.inputs.keys.forM (fun name => validateInputName name path) = .ok u := by
    dsimp only at h
    split at h
    · exact (nomatch h)
    · obtain ⟨u, hu, -⟩ := bind_ok h
      exact ⟨u, hu⟩
  obtain ⟨u, hu⟩ := hk
  have hn := forM_ok hu (List.mem_map_of_mem (OrderedMap.get_eq_some_iff.mp hg))
  simp only [validateInputName] at hn
  split at hn
  · exact (nomatch hn)
  · next hr => exact Bool.eq_false_iff.mpr fun he => hr (.inr he)

lemma asStr_of_isString (h : value.isString = true) : ∃ text, value = .string text := by
  cases value with
  | string text => exact ⟨text, rfl⟩
  | null | bool | number | array | object => exact (nomatch h)

lemma validateLiteral_ok {inputDefinition : JobInputDefinition}
    (h : validateLiteral rt.jsonText name inputDefinition value = .ok ()) :
    valueMatchesInputKind value inputDefinition.kind = true ∧
      (∀ maxLength ∈ inputDefinition.maxLength, ∀ text ∈ value.asStr, text.length ≤ maxLength) ∧
      ∀ maxJsonBytes ∈ inputDefinition.maxJsonBytes,
        (rt.jsonText value).utf8ByteSize ≤ maxJsonBytes := by
  simp only [validateLiteral] at h
  split at h
  · next hk =>
    obtain ⟨u, hlength, hjson⟩ := bind_ok h
    refine ⟨hk, fun maxLength hm text ht => ?_, fun maxJsonBytes hm => ?_⟩
    · simp only [validateLiteralLength, Option.mem_def.mp hm, Option.mem_def.mp ht] at hlength
      split at hlength
      · exact (nomatch hlength)
      · next hle => exact not_lt.mp hle
    · simp only [validateLiteralJsonSize, Option.mem_def.mp hm] at hjson
      split at hjson
      · exact (nomatch hjson)
      · next hle => exact not_lt.mp hle
  · exact (nomatch h)

lemma ServerAccepts.literal (h : ServerAccepts rt manifest name value)
    (hg : manifest.inputs.get name = some spec) :
    valueMatchesInputKind value spec.kind = true ∧
      (∀ maxLength ∈ spec.maxLength, ∀ text ∈ value.asStr, text.length ≤ maxLength) ∧
      ∀ maxJsonBytes ∈ spec.maxJsonBytes, (rt.jsonText value).utf8ByteSize ≤ maxJsonBytes := by
  obtain ⟨inputDefinition, hd, hv, -⟩ := h
  simp only [JobManifest.definition, OrderedMap.get_mapValues, hg, Option.map_some,
    Option.some.injEq] at hd
  subst hd
  exact validateLiteral_ok hv

lemma validateString_ok {text : String} (hl : ∀ maxLength ∈ spec.maxLength, text.length ≤ maxLength)
    (hp : MatchesPattern rt spec (.string text)) :
    validateString rt name spec (.string text) = .ok () := by
  have hpattern : ∀ pattern, spec.pattern = some pattern → ∀ isMatch,
      rt.host.regex pattern = .ok isMatch → isMatch text = true :=
    fun pattern hs isMatch hr => hp pattern hs isMatch hr text rfl
  have hlength : ∀ maxLength, spec.maxLength = some maxLength → ¬maxLength < text.length :=
    fun maxLength hm => not_lt.mpr (hl maxLength hm)
  simp only [validateString, Value.asStr]
  split
  on_goal 2 => rw [if_neg (hlength _ ‹_›)]
  all_goals
    split
    · rfl
    · next pattern hs =>
      split
      · rfl
      · next isMatch hr =>
        rw [if_neg (by simp [hpattern pattern hs isMatch hr])]
        rfl

lemma validateJson_ok (hk : value.isNull = false)
    (hl : ∀ maxJsonBytes ∈ spec.maxJsonBytes, (rt.jsonText value).utf8ByteSize ≤ maxJsonBytes) :
    validateJson rt name spec value = .ok () := by
  rw [validateJson, if_neg (by simp [hk])]
  split
  · rfl
  · next maxJsonBytes hm => rw [if_neg (not_lt.mpr (hl maxJsonBytes hm))]

lemma checkInput_none (hs : ServerAccepts rt manifest name value)
    (hg : manifest.inputs.get name = some spec) (hp : MatchesPattern rt spec value)
    (hk : spec.kind ≠ .artifact) : checkInput rt manifest name value = .ok none := by
  obtain ⟨hm, hlength, hjson⟩ := hs.literal hg
  rw [checkInput]
  split
  · rfl
  · rw [hg]
    dsimp only
    cases hkind : spec.kind with
    | string =>
      rw [hkind] at hm
      obtain ⟨text, rfl⟩ := asStr_of_isString hm
      dsimp only
      rw [validateString_ok (fun maxLength h => hlength maxLength h text rfl) hp]
      rfl
    | integer =>
      rw [hkind] at hm
      exact if_pos hm
    | boolean =>
      rw [hkind] at hm
      exact if_pos hm
    | artifact => exact absurd hkind hk
    | json =>
      rw [hkind] at hm
      dsimp only
      rw [validateJson_ok (by simpa [valueMatchesInputKind] using hm) hjson]
      rfl

lemma checkInput_artifact {artifactId : String} (hg : manifest.inputs.get name = some spec)
    (hr : isReservedInputName name = false) (hk : spec.kind = .artifact) :
    checkInput rt manifest name (.string artifactId) =
      match validateArtifactId artifactId with
      | .error error => .error (.artifact error)
      | .ok () => .ok (some artifactId) := by
  rw [checkInput, if_neg (by simp [hr]), hg]
  dsimp only
  rw [hk]
  dsimp only [checkArtifactId, Value.asStr]
  cases validateArtifactId artifactId <;> rfl

lemma not_accepts {error : JobError} {outcomes : List Outcome} {store : RunnerStore}
    (h : checkInput rt manifest name value = .error error) :
    ¬RunnerAccepts rt manifest name value outcomes store := by
  rintro ⟨resolved, hr⟩
  rw [validateInput, h, Program.fail_bind, Program.play_done] at hr
  cases hr

def Usable (artifactId : String) (o o' : Outcome) (store : RunnerStore) : Prop :=
  o.fails = none ∧
    ∃ metadata, store.artifacts.get artifactId = some metadata ∧ o'.now < metadata.expiresAt

variable (rt name) in
lemma loadArtifact_play {artifactId : String} {o o' : Outcome} {store : RunnerStore} :
    (∃ path, ((loadArtifact rt name artifactId).play (RunnerCall.exec rt) [o, o'] store).result =
      some (.ok path)) ↔ Usable artifactId o o' store := by
  have hmissing : ∀ error, RunnerCall.exec rt (.loadArtifactMetadata artifactId) o store =
      (.error error, store) → ¬Usable artifactId o o' store →
      ((∃ path, ((loadArtifact rt name artifactId).play (RunnerCall.exec rt) [o, o'] store).result =
        some (.ok path)) ↔ Usable artifactId o o' store) := by
    intro error h hno
    have hplay : (loadArtifact rt name artifactId).play (RunnerCall.exec rt) [o, o'] store =
        ⟨some (.error error), 0, [o'], store⟩ := Program.play_request_error h [o']
    simp [hplay, hno]
  cases hf : o.fails with
  | some source =>
    refine hmissing (.artifact (.notFound artifactId)) ?_ fun h => by cases hf.symm.trans h.1
    simp only [RunnerCall.exec, Outcome.io, hf]
  | none =>
    cases hg : store.artifacts.get artifactId with
    | none =>
      refine hmissing (.artifact (.notFound artifactId)) ?_ ?_
      · simp only [RunnerCall.exec, Outcome.io, hf, hg]
      · rintro ⟨-, metadata, h, -⟩
        cases hg.symm.trans h
    | some metadata =>
      have hload : RunnerCall.exec rt (.loadArtifactMetadata artifactId) o store =
          (.ok metadata, store) := by
        simp only [RunnerCall.exec, Outcome.io, hf, hg]
      have hplay : (loadArtifact rt name artifactId).play (RunnerCall.exec rt) [o, o'] store =
          ((if decide (metadata.expiresAt ≤ o'.now) = true then
              fail (.expiredArtifact name artifactId)
            else pure (rt.config.rootDir ++ "/artifacts/" ++ artifactId ++ "/blob") :
              RunnerTask String).play (RunnerCall.exec rt) [] store).tick.tick :=
        (Program.play_request_ok hload [o']).trans
          (congrArg Played.tick (Program.play_request_ok rfl []))
      have husable : Usable artifactId o o' store ↔ ¬metadata.expiresAt ≤ o'.now := by
        rw [not_le]
        refine ⟨?_, fun h => ⟨hf, metadata, hg, h⟩⟩
        rintro ⟨-, metadata', hg', h⟩
        rwa [Option.some.inj (hg.symm.trans hg')]
      rw [hplay, husable]
      split
      · next he => simp [fail, Played.tick, of_decide_eq_true he]
      · next he => simpa [Played.tick] using he

/-- The runner accepts what the server has accepted, except that it looks at the artifact that the
value names. -/
theorem literals_agree (hvalid : manifest.validate rt.host path = .ok ())
    (haccepts : ServerAccepts rt manifest name value)
    (hinput : manifest.inputs.get name = some spec) (hmatches : MatchesPattern rt spec value) :
    (spec.kind ≠ .artifact → ∀ outcomes store, RunnerAccepts rt manifest name value outcomes store) ∧
      (spec.kind = .artifact → ∃ artifactId, value = .string artifactId ∧
        ∀ o o' store, RunnerAccepts rt manifest name value [o, o'] store ↔
          validateArtifactId artifactId = .ok () ∧ Usable artifactId o o' store) := by
  refine ⟨fun hk outcomes store => ⟨.empty, ?_⟩, fun hk => ?_⟩
  · rw [validateInput, checkInput_none haccepts hinput hmatches hk]
    exact congrArg Played.result (Program.play_pure outcomes _ store)
  · obtain ⟨hm, -⟩ := haccepts.literal hinput
    rw [hk] at hm
    obtain ⟨artifactId, rfl⟩ := asStr_of_isString hm
    refine ⟨artifactId, rfl, fun o o' store => ?_⟩
    rw [RunnerAccepts, validateInput,
      checkInput_artifact hinput (validate_inputName hvalid hinput) hk]
    cases hid : validateArtifactId artifactId with
    | error error =>
      constructor
      · rintro ⟨resolved, h⟩
        cases h
      · rintro ⟨h, -⟩
        cases h
    | ok u =>
      rw [and_iff_right rfl, ← loadArtifact_play rt name]
      dsimp only [Program.done_bind]
      rw [Program.play_bind]
      rcases h : ((loadArtifact rt name artifactId).play (RunnerCall.exec rt) [o, o'] store).result
        with _ | error | loaded
      · simp [Played.andThen, h]
      · simp [Played.andThen, h]
      · simp [Played.andThen, h]

def isVersionText (text : String) : Bool :=
  match text.toList with
  | 'v' :: digit :: digits => digit.isDigit && digits.all Char.isDigit
  | _ => false

def releaseHost : Host where
  stat _ := .file 0o755
  regex pattern := if pattern = "^v[0-9]+$" then .ok isVersionText else .error "unknown pattern"

def releaseRuntime : Runtime :=
  { sampleRuntime with
    host := releaseHost, manifests := .empty
    jsonText := fun value => (value.asStr.map fun text => "\"" ++ text ++ "\"").getD "" }

def releaseManifest : JobManifest :=
  { name := "release", script := "/opt/janus/release", timeoutSeconds := 600
    concurrency := .globalExclusive
    inputs := .ofList [
      ("version", { kind := .string, required := true, maxLength := some 16
                    pattern := some "^v[0-9]+$" }),
      ("notes", { kind := .json, required := false, maxJsonBytes := some 64 }),
      ("package", { kind := .artifact, required := false })] }

theorem literals_agree_release :
    ((InputType.string ≠ .artifact → ∀ outcomes store,
        RunnerAccepts releaseRuntime releaseManifest "version" (.string "v12") outcomes store) ∧
      (InputType.string = .artifact → ∃ artifactId, Value.string "v12" = .string artifactId ∧
        ∀ o o' store,
          RunnerAccepts releaseRuntime releaseManifest "version" (.string "v12") [o, o'] store ↔
            validateArtifactId artifactId = .ok () ∧ Usable artifactId o o' store)) ∧
    ((InputType.artifact ≠ .artifact → ∀ outcomes store,
        RunnerAccepts releaseRuntime releaseManifest "package"
          (.string "art_0123456789abcdef0123456789abcdef") outcomes store) ∧
      (InputType.artifact = .artifact → ∃ artifactId,
        Value.string "art_0123456789abcdef0123456789abcdef" = .string artifactId ∧
        ∀ o o' store,
          RunnerAccepts releaseRuntime releaseManifest "package"
            (.string "art_0123456789abcdef0123456789abcdef") [o, o'] store ↔
              validateArtifactId artifactId = .ok () ∧ Usable artifactId o o' store)) := by
  have hvalid : releaseManifest.validate releaseHost "/etc/janus/jobs/release.toml" = .ok () := by
    rfl
  have hversion : releaseManifest.inputs.get "version" =
      some { kind := .string, required := true, maxLength := some 16, pattern := some "^v[0-9]+$" } :=
    rfl
  have hpackage : releaseManifest.inputs.get "package" =
      some { kind := .artifact, required := false } :=
    rfl
  refine ⟨literals_agree hvalid ⟨_, rfl, rfl, fun _ => ?_⟩ hversion ?_,
    literals_agree hvalid ⟨_, rfl, rfl, fun _ => ?_⟩ hpackage ?_⟩
  · decide +kernel
  · intro pattern hpattern isMatch hr text ht
    obtain rfl := Option.some.inj hpattern
    obtain rfl := Option.some.inj ht
    obtain rfl : isVersionText = isMatch := Except.ok.inj hr
    decide +kernel
  · decide +kernel
  · exact fun pattern h => absurd h (Option.not_mem_none pattern)

theorem literals_disagree :
    releaseManifest.validate releaseHost "/etc/janus/jobs/release.toml" = .ok () ∧
    (ServerAccepts releaseRuntime releaseManifest "version" (.string "main") ∧
      ∀ outcomes store,
        ¬RunnerAccepts releaseRuntime releaseManifest "version" (.string "main") outcomes store) ∧
    ServerAccepts releaseRuntime releaseManifest "package" (.string "main") ∧
      ∀ outcomes store,
        ¬RunnerAccepts releaseRuntime releaseManifest "package" (.string "main") outcomes store :=
  ⟨rfl, ⟨⟨_, rfl, rfl, fun _ => by decide +kernel⟩, fun _ _ => not_accepts rfl⟩,
    ⟨_, rfl, rfl, fun _ => by decide +kernel⟩, fun _ _ => not_accepts rfl⟩

end Janus.Runner
