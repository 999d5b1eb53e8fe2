import Mathlib
import Janus.Concurrency.Play
import Janus.Runner.Runs

/-! The environment variables under which the inputs of a job reach its script. -/

namespace Janus.Runner

open Janus.Concurrency Janus.Data Janus.Server

def replaceDash (c : Char) : Char := if c = '-' then '_' else c

def normalizeInputEnv (name : String) : String :=
  "INPUT_" ++ String.ofList ((name.toList.map replaceDash).map Char.toUpper)

section

variable (rt : Runtime) (execution : JobExecution)

def janusEnv : BTreeMap String :=
  .ofList [("JANUS_JOB_ID", execution.metadata.jobId), ("JANUS_JOB_NAME", execution.metadata.name),
    ("JANUS_WORKDIR", jobPath rt execution.jobId "work"),
    ("JANUS_OUTPUT_DIR", jobPath rt execution.jobId "output"),
    ("JANUS_METADATA_PATH", jobPath rt execution.jobId "metadata.json")]

def inputEnvValue (input : String × Value) : String :=
  match execution.metadata.resolvedArtifacts.get input.1 with
  | some path => path
  | none =>
    match input.2.asStr with
    | some raw => raw
    | none => rt.jsonText input.2

def buildJobEnv : BTreeMap String :=
  execution.rawInputs.entries.foldl (fun env input =>
    env.insert (normalizeInputEnv input.1) (inputEnvValue rt execution input))
    (janusEnv rt execution)

/-- Each input reaches the script under a variable of its own, and so does what Janus tells it. -/
structure EnvFaithful : Prop where
  distinct : ∀ a ∈ execution.rawInputs.keys, ∀ b ∈ execution.rawInputs.keys,
    normalizeInputEnv a = normalizeInputEnv b → a = b
  reaches : ∀ input ∈ execution.rawInputs.entries,
    (buildJobEnv rt execution).get (normalizeInputEnv input.1) =
      some (inputEnvValue rt execution input)
  janus : ∀ key value, (janusEnv rt execution).get key = some value →
    (buildJobEnv rt execution).get key = some value

end

def IsSeparator (c : Char) : Prop := c = '-' ∨ c = '_'

def AlikeChar (a b : Char) : Prop := (IsSeparator a ∧ IsSeparator b) ∨ a.toLower = b.toLower

def Alike (a b : String) : Prop := List.Forall₂ AlikeChar a.toList b.toList

lemma toUpper_eq_toUpper_iff {a b : Char} : a.toUpper = b.toUpper ↔ a.toLower = b.toLower := by
  constructor
  · intro h
    rw [← Char.toLower_toUpper_eq_toLower a, h, Char.toLower_toUpper_eq_toLower]
  · intro h
    rw [← Char.toUpper_toLower_eq_toUpper a, h, Char.toUpper_toLower_eq_toUpper]

lemma eq_of_toLower {a b : Char} (ha : a.isAlpha = false) (h : a.toLower = b.toLower) : a = b := by
  have hb : b.isAlpha = false := by
    rw [← Char.isAlpha_toLower_eq_isAlpha b, ← h, Char.isAlpha_toLower_eq_isAlpha, ha]
  have hupper : ∀ {c : Char}, c.isAlpha = false → ¬c.isUpper := by
    intro c hc hu
    rw [Char.isAlpha, hu, Bool.true_or] at hc
    cases hc
  rwa [Char.toLower_eq_of_not_isUpper (hupper ha), Char.toLower_eq_of_not_isUpper (hupper hb)] at h

lemma alikeChar_iff {a b : Char} :
    (replaceDash a).toUpper = (replaceDash b).toUpper ↔ AlikeChar a b := by
  have hunder : ('_').isAlpha = false := by decide
  have hdash : ('-').isAlpha = false := by decide
  rw [toUpper_eq_toUpper_iff]
  by_cases ha : a = '-'
  · subst ha
    by_cases hb : b = '-'
    · subst hb
      exact iff_of_true rfl (.inr rfl)
    · rw [replaceDash, replaceDash, if_pos rfl, if_neg hb]
      constructor
      · intro h
        exact .inl ⟨.inl rfl, .inr (eq_of_toLower hunder h).symm⟩
      · rintro (⟨-, h | h⟩ | h)
        · exact (hb h).elim
        · rw [h]
        · exact (hb (eq_of_toLower hdash h).symm).elim
  · by_cases hb : b = '-'
    · subst hb
      rw [replaceDash, replaceDash, if_neg ha, if_pos rfl]
      constructor
      · intro h
        exact .inl ⟨.inr (eq_of_toLower hunder h.symm).symm, .inl rfl⟩
      · rintro (⟨h | h, -⟩ | h)
        · exact (ha h).elim
        · rw [h]
        · exact (ha (eq_of_toLower hdash h.symm).symm).elim
    · rw [replaceDash, replaceDash, if_neg ha, if_neg hb]
      constructor
      · exact .inr
      · rintro (⟨h | h, h' | h'⟩ | h)
        · exact (ha h).elim
        · exact (ha h).elim
        · exact (hb h').elim
        · rw [h, h']
        · exact h

lemma normalizeInputEnv_toList (name : String) : (normalizeInputEnv name).toList =
    "INPUT_".toList ++ name.toList.map fun c => (replaceDash c).toUpper := by
  simp only [normalizeInputEnv, String.toList_append, String.toList_ofList, List.map_map,
    Function.comp_def]

lemma normalizeInputEnv_eq_iff {a b : String} :
    normalizeInputEnv a = normalizeInputEnv b ↔ Alike a b := by
  rw [← String.toList_inj, normalizeInputEnv_toList, normalizeInputEnv_toList,
    List.append_cancel_left_eq, ← List.forall₂_eq_eq_eq, List.forall₂_map_left_iff,
    List.forall₂_map_right_iff, Alike]
  exact ⟨fun h => h.imp fun _ _ => alikeChar_iff.mp, fun h => h.imp fun _ _ => alikeChar_iff.mpr⟩

variable {rt : Runtime} {execution : JobExecution}

lemma normalizeInputEnv_ne_janus {name key value : String}
    (h : (janusEnv rt execution).get key = some value) : normalizeInputEnv name ≠ key := by
  intro heq
  have hhead : key.toList.head? = some 'I' := by
    rw [← heq, normalizeInputEnv_toList]
    rfl
  have hmem := OrderedMap.get_eq_some_iff.mp h
  simp only [janusEnv, OrderedMap.ofList, List.foldl_cons, List.foldl_nil, OrderedMap.mem_insert,
    Prod.mk.injEq] at hmem
  have hkey : key = "JANUS_METADATA_PATH" ∨ key = "JANUS_OUTPUT_DIR" ∨ key = "JANUS_WORKDIR" ∨
      key = "JANUS_JOB_NAME" ∨ key = "JANUS_JOB_ID" := by
    rcases hmem with ⟨h, -⟩ | ⟨⟨h, -⟩ | ⟨⟨h, -⟩ | ⟨⟨h, -⟩ | ⟨⟨h, -⟩ | ⟨h, -⟩, -⟩, -⟩, -⟩, -⟩
    · exact .inl h
    · exact .inr (.inl h)
    · exact .inr (.inr (.inl h))
    · exact .inr (.inr (.inr (.inl h)))
    · exact .inr (.inr (.inr (.inr h)))
    · cases h
  rcases hkey with rfl | rfl | rfl | rfl | rfl <;> exact absurd hhead (by decide)

/-- Every input reaches the script as it is exactly if no two of their names are alike. -/
theorem build_job_env_faithful_iff (rt : Runtime) (execution : JobExecution) :
    EnvFaithful rt execution ↔
      ∀ a ∈ execution.rawInputs.keys, ∀ b ∈ execution.rawInputs.keys, Alike a b → a = b := by
  constructor
  · intro h a ha b hb halike
    exact h.distinct a ha b hb (normalizeInputEnv_eq_iff.mpr halike)
  · intro h
    have hdistinct : ∀ a ∈ execution.rawInputs.keys, ∀ b ∈ execution.rawInputs.keys,
        normalizeInputEnv a = normalizeInputEnv b → a = b :=
      fun a ha b hb heq => h a ha b hb (normalizeInputEnv_eq_iff.mp heq)
    have hkeys : ∀ input ∈ execution.rawInputs.entries, input.1 ∈ execution.rawInputs.keys :=
      fun input hinput => List.mem_map_of_mem hinput
    refine ⟨hdistinct, ?_, ?_⟩
    · intro input hinput
      have hother : ∀ other ∈ execution.rawInputs.entries,
          normalizeInputEnv other.1 = normalizeInputEnv input.1 → other = input := by
        intro other hother heq
        exact OrderedMap.eq_of_mem_entries hother hinput
          (hdistinct other.1 (hkeys other hother) input.1 (hkeys input hinput) heq)
      rw [buildJobEnv]
      exact OrderedMap.get_foldl_insert_of_mem (f := fun input : String × Value =>
        normalizeInputEnv input.1) hinput hother
    · intro key value hkey
      rw [buildJobEnv, OrderedMap.get_foldl_insert_of_ne fun input _ =>
        normalizeInputEnv_ne_janus hkey]
      exact hkey

def dashedManifest : JobManifest :=
  { sampleManifest with
    inputs := .ofList [("log-level", { kind := .string, required := false }),
      ("log_level", { kind := .string, required := false })] }

def dashedInputs : BTreeMap Value :=
  .ofList [("log-level", .string "debug"), ("log_level", .string "warn")]

def dashedExecution : JobExecution where
  manifest := dashedManifest
  jobId := "job_0123456789abcdef0123456789abcdef"
  logLimitBytes := 10485760
  metadata :=
    { jobId := "job_0123456789abcdef0123456789abcdef", name := "deploy", idempotencyKey := "a"
      requestHash := "", status := .running, startedAt := 0
      inputs := redactSensitiveInputs dashedManifest dashedInputs, resolvedArtifacts := .empty }
  rawInputs := dashedInputs
  channel := 0

theorem job_env_input_overwritten :
    dashedManifest.validate sampleHost "/etc/janus/jobs/deploy.toml" = .ok () ∧
      ((validateInputs sampleRuntime dashedManifest dashedInputs).play
        (RunnerCall.exec sampleRuntime) [] {}).result =
          some (.ok dashedExecution.metadata.resolvedArtifacts) ∧
      (buildJobEnv sampleRuntime dashedExecution).get (normalizeInputEnv "log-level") =
        some "warn" ∧
      ¬EnvFaithful sampleRuntime dashedExecution := by
  refine ⟨by rfl, by rfl, by decide +kernel, fun h => ?_⟩
  have heq := h.distinct "log-level" (by decide +kernel) "log_level" (by decide +kernel)
    (by decide +kernel)
  exact absurd heq (by decide)

end Janus.Runner
