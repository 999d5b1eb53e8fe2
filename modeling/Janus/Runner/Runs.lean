import Janus.Runner.Tasks

/-! Every run of the runner keeps its invariant. -/

namespace Janus.Runner

open Janus.Concurrency Janus.Data Janus.Server RunnerStore

variable {R : Regime} {rt : Runtime} {p p' : RunnerPool} {e : RunnerEvent} {es : List RunnerEvent}

def Permitted (R : Regime) (rt : Runtime) (p : RunnerPool) (e : RunnerEvent) : Prop :=
  ∀ i o r c next, e = .step i o → p.tasks[i]? = some (r, .call c next) → Permits R rt r c o p.store

theorem safe_program (r : RunnerRole) (s : RunnerStore) :
    Safe (runnerDiscipline R rt r) (fun _ _ => True) (r.program rt) s := by
  cases r with
  | create n name key body => exact safe_createRole s
  | cancel jobId => exact safe_cancelJob jobId s
  | shutdown looks => exact safe_shutdown looks s
  | run m => exact safe_runJob s
  | boot => exact safe_boot s
  | upload bytes checksum => exact safe_upload bytes checksum s
  | cleanup => exact safe_cleanup s

theorem runnerOutline (R : Regime) (rt : Runtime) :
    (runnerSystem rt).Outline (Permitted R rt) (Sane R rt) (runnerDiscipline R rt)
      (fun _ _ _ => True) where
  inv_eq _ := rfl
  trans _ _ _ _ := rely_trans
  post_stable _ _ _ _ _ _ := trivial
  refl r s := rely_refl R r s
  start _ r _ _ := safe_program r _
  admits p i o r c next _ hok ht hready := ⟨o, hready, rfl, hok i o r c next rfl ht⟩
  keeps r s s' hs := by
    rintro ⟨c, x, hb, o, hready, he, hp⟩
    have heffect := RunnerCall.exec_effect rt o hready
    rw [he] at heffect
    exact hs.step hb hp heffect
  compat p i o r c next r' hs _ _ _ hbeside hb := by
    rintro ⟨o, hready, he, hp⟩
    have heffect := RunnerCall.exec_effect rt o hready
    rw [he] at heffect
    have hrely := hs.compat hb hp heffect hbeside
    cases r' with
    | boot => exact absurd rfl (beside_ne_boot hbeside).2
    | _ => exact hrely
  environ _ v := v.elim
  crash _ _ hs := hs.crashed

abbrev RunnerSound (R : Regime) (rt : Runtime) : RunnerPool → Prop :=
  System.Sound (runnerSystem rt) (Sane R rt) (runnerDiscipline R rt) fun _ _ _ => True

lemma RunnerSound.initial : RunnerSound R rt .initial :=
  ⟨Sane.initial, fun _ ht => absurd ht List.not_mem_nil, .nil⟩

lemma RunnerSound.apply (hs : RunnerSound R rt p) (hok : Permitted R rt p e)
    (ha : (runnerSystem rt).apply p e = some p') : RunnerSound R rt p' :=
  System.Sound.apply (runnerOutline R rt) hs hok ha

theorem RunnerSound.run (hs : RunnerSound R rt p) (h : (runnerSystem rt).Along (Permitted R rt) es p)
    (hrun : (runnerSystem rt).run es p = some p') : RunnerSound R rt p' :=
  h.invariant (fun _ _ _ hs hok ha => hs.apply hok ha) hs hrun

lemma RunnerSound.step_cases (hs : RunnerSound R rt p) (ha : (runnerSystem rt).apply p e = some p') :
    p'.store = p.store ∨ p'.store = p.store.crashed ∨
    ∃ i o r c next, e = .step i o ∧ p.tasks[i]? = some (r, .call c next) ∧ c.ready p.store = true ∧
      Before R rt r c p.store ∧ p'.store = (c.exec rt o p.store).2 ∧
      c.Effect rt p.store (c.exec rt o p.store).1 p'.store := by
  obtain ⟨r, rfl, -, rfl⟩ | ⟨i, o, r, c, next, rfl, ht, hready, rfl⟩ | ⟨i, r, x, rfl, -, rfl⟩ |
    ⟨rfl, rfl⟩ | ⟨v, -, -⟩ := System.apply_cases ha
  · exact .inl rfl
  · exact .inr (.inr ⟨i, o, r, c, next, rfl, ht, hready,
      System.Sound.before (runnerOutline R rt) hs (List.mem_of_getElem? ht), rfl,
      RunnerCall.exec_effect rt _ hready⟩)
  · exact .inl rfl
  · exact .inr (.inl rfl)
  · exact v.elim

lemma Permitted.free (p : RunnerPool) (e : RunnerEvent) : Permitted {} rt p e :=
  fun _ _ _ _ _ _ _ => ⟨fun h => h.elim, fun h => h.elim, fun h => h.elim⟩

variable (rt) in
lemma along_free (es : List RunnerEvent) (p : RunnerPool) :
    (runnerSystem rt).Along (Permitted {} rt) es p := by
  induction es generalizing p with
  | nil => trivial
  | cons e es ih => exact fun p' _ => ⟨Permitted.free p e, ih p'⟩

def sampleHost : Host where
  stat _ := .file 0o755
  regex _ := .error "no patterns"

def sampleManifest : JobManifest :=
  { name := "deploy", script := "/opt/janus/deploy", timeoutSeconds := 600
    concurrency := .globalExclusive
    inputs := .ofList [("package", { kind := .artifact, required := false }),
      ("settings", { kind := .json, required := false })] }

def sampleManifests : ManifestStore sampleHost :=
  match ManifestStore.loadFromDir sampleHost [("/etc/janus/jobs/deploy.toml", sampleManifest)] with
  | .ok store => store
  | .error _ => .empty

mutual

def nesting : Value → ℕ
  | .array items => nestingItems items + 1
  | .object fields => nestingFields fields + 1
  | _ => 0

def nestingItems : List Value → ℕ
  | [] => 0
  | item :: items => max (nesting item) (nestingItems items)

def nestingFields : List (String × Value) → ℕ
  | [] => 0
  | field :: fields => max (nestingField field) (nestingFields fields)

def nestingField : String × Value → ℕ
  | (_, value) => nesting value

end

def nestedArray : ℕ → Value
  | 0 => .array []
  | n + 1 => .array [nestedArray n]

def emptyBody : Bytes := utf8 "\x7b\x7d"

def packageBody : Bytes :=
  utf8 "\x7b\"package\":\"art_0123456789abcdef0123456789abcdef\"\x7d"

/-- The deepest array that `serde_json` reads. -/
def nestedBody : Bytes :=
  utf8 "\x7b\"settings\":" ++ List.replicate 126 91 ++ List.replicate 126 93 ++ utf8 "\x7d"

def sampleHashes : List (Bytes × String) :=
  [(utf8 "job" ++ 0 :: utf8 "a", "78b1768b4febf4a45a57e85e94b78edbff539f5c710ae987ebb6e0ebc67558fb"),
   (utf8 "job" ++ 0 :: utf8 "b", "63be39cbf6cc3f116e028fc02cbd8386c7fc224ea2440991afba81cce7597c7e"),
   (utf8 "deploy" ++ 0 :: emptyBody,
     "ec8aa07c0e9b10d5ea23786d080d74b2aa9b7e6f35fcfa76c8c58658b615434f"),
   (utf8 "deploy" ++ 0 :: packageBody,
     "8a76edfa0852c2ecc5692d451b2f0f2e180c1b75306303b84bf1104ab5ed5fbe"),
   (utf8 "deploy" ++ 0 :: nestedBody,
     "7ae9c654cece79d3c736ce6d4475621aa21022d777dcf85a7542e7ea5fef4209"),
   ([], "e3b0c44298fc1c149afbf4c8996fb92427ae41e4649b934ca495991b7852b855")]

/-- `serde_json` reads nothing that is nested deeper than 127 levels. -/
def sampleRuntime : Runtime where
  host := sampleHost
  manifests := sampleManifests
  config := ⟨"/var/lib/janus-runner", 10, true, true, 86400, 1000000, false⟩
  sha256Hex bytes := ((sampleHashes.find? fun e => e.1 = bytes).map Prod.snd).getD ""
  parseJson body :=
    if body = emptyBody then .ok (.object [])
    else if body = packageBody then
      .ok (.object [("package", .string "art_0123456789abcdef0123456789abcdef")])
    else if body = nestedBody then .ok (.object [("settings", nestedArray 125)])
    else .error "expected value"
  jsonText _ := ""
  readsBack metadata := nestingFields metadata.inputs.entries + 2 ≤ 127

def steps (i k : ℕ) : List RunnerEvent := List.replicate k (.step i {})

def booting : List RunnerEvent := .start .boot :: steps 0 2 ++ [.finish 0]

def creating (n : ℕ) (key : String) (body : Bytes) : List RunnerEvent :=
  .start (.create n "deploy" key body) :: steps 0 14 ++ [.finish 0]

end Janus.Runner
