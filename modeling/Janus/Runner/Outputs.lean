import Janus.Runner.Release
import Janus.Runner.Runs

/-! What a job that has come to its end advertises as its outputs, for every content of the directory
it has left them in. -/

namespace Janus.Runner

open Janus.Concurrency Janus.Data Janus.Server

inductive OutputNode
  | absent
  | other
  | unreadable (source : String)
  | file (content : Except String Bytes)

def OutputNode.content : OutputNode → Except String Bytes
  | .file content => content
  | .unreadable source => .error source
  | .absent => .error "No such file or directory"
  | .other => .error "Is a directory"

/-- What is at each path, and what the artifact store makes of the artifacts that are put into it one
after another. -/
structure OutputDir where
  node : String → OutputNode
  storing : ℕ → Outcome

/-- The text of a file as `fs::read_to_string` reads it. -/
def decodeUtf8 (bytes : Bytes) : Except String String :=
  match String.fromUTF8? ⟨bytes.toArray⟩ with
  | some text => .ok text
  | none => .error "stream did not contain valid UTF-8"

namespace OutputDir

def outcome (dir : OutputDir) (k : ℕ) (o : Outcome) : RunnerCall → Outcome
  | .statOutput _ path =>
    match dir.node path with
    | .absent => { output := .notFound }
    | .other => { output := .other }
    | .unreadable source => { fails := some source }
    | .file _ => { output := .file }
  | .readOutputBytes _ path =>
    match (dir.node path).content with
    | .ok bytes => { bytes }
    | .error source => { fails := some source }
  | .readOutput _ path =>
    match (dir.node path).content.bind decodeUtf8 with
    | .ok text => { text }
    | .error source => { fails := some source }
  | .storeArtifact _ _ => dir.storing k
  | _ => o

def exec (rt : Runtime) (dir : OutputDir) (c : RunnerCall) (o : Outcome) (s : RunnerStore × ℕ) :
    Except JobError c.Result × RunnerStore × ℕ :=
  let answer := c.exec rt (dir.outcome s.2 o c) s.1
  (answer.1, answer.2, match c with | .storeArtifact _ _ => s.2 + 1 | _ => s.2)

end OutputDir

inductive OutputReads (rt : Runtime) (bytes : Bytes) : OutputType → JobOutput → Prop
  | artifact (artifactId : String) :
    OutputReads rt bytes .artifact (.artifact artifactId (rt.sha256Hex bytes) bytes.length)
  | string {text : String} (h : decodeUtf8 bytes = .ok text) : OutputReads rt bytes .string (.string text)
  | integer {text : String} {value : ℤ} (h : decodeUtf8 bytes = .ok text)
    (hvalue : parseI64 (trim text) = some value) : OutputReads rt bytes .integer (.integer value)
  | boolean {text : String} {value : Bool} (h : decodeUtf8 bytes = .ok text)
    (hvalue : trim text = if value then "true" else "false") :
    OutputReads rt bytes .boolean (.boolean value)
  | json {text : String} {value : Value} (h : decodeUtf8 bytes = .ok text)
    (hvalue : rt.parseJson (utf8 text) = .ok value) (hnull : value ≠ .null) :
    OutputReads rt bytes .json (.json value)

section

variable (rt : Runtime) (dir : OutputDir) (jobId : String)

def OutputDir.file? (spec : OutputSpec) : Option (Except String Bytes) :=
  match safeOutputPath (jobPath rt jobId "output") spec.path with
  | none => none
  | some path =>
    match dir.node path with
    | .file content => some content
    | _ => none

def OutputDir.Omitted (spec : OutputSpec) : Prop :=
  spec.required = false ∧
    ∃ path, safeOutputPath (jobPath rt jobId "output") spec.path = some path ∧
      dir.node path = .absent

def OutputDir.Fits (spec : OutputSpec) (k : ℕ) : Prop :=
  ∃ bytes, dir.file? rt jobId spec = some (.ok bytes) ∧ (∃ output, OutputReads rt bytes spec.kind output) ∧
    (spec.kind = .artifact →
      bytes.length ≤ rt.config.artifactMaxSizeBytes ∧ (dir.storing k).fails = none)

def OutputDir.Fails (spec : OutputSpec) (k : ℕ) : Prop :=
  ¬dir.Omitted rt jobId spec ∧ ¬dir.Fits rt jobId spec k

def OutputDir.stored (specs : List (String × OutputSpec)) : ℕ :=
  specs.countP fun e => e.2.kind = .artifact ∧ (dir.file? rt jobId e.2).isSome

def OutputDir.AllFit : ℕ → List (String × OutputSpec) → Prop
  | _, [] => True
  | k, e :: specs =>
    ¬dir.Fails rt jobId e.2 k ∧ AllFit (k + dir.stored rt jobId [e]) specs

/-- Where an output is the first that fails, none before it has a file. -/
def OutputDir.FailsClean (specs : List (String × OutputSpec)) : Prop :=
  ∀ pre e post, specs = pre ++ e :: post → dir.AllFit rt jobId 0 pre →
    dir.Fails rt jobId e.2 (dir.stored rt jobId pre) → ∀ e' ∈ pre, dir.file? rt jobId e'.2 = none

def OutputDir.Registered (specs : BTreeMap OutputSpec) : BTreeMap JobOutput × Option JobError → Prop
  | (outputs, none) =>
    (∀ name output, outputs.get name = some output → ∃ spec bytes, specs.get name = some spec ∧
      dir.file? rt jobId spec = some (.ok bytes) ∧ OutputReads rt bytes spec.kind output) ∧
    (∀ name spec, specs.get name = some spec →
      (dir.file? rt jobId spec).isSome ∨ spec.required = true → (outputs.get name).isSome)
  | (outputs, some _) => outputs = .empty

end

def OutputDir.Unused (dir : OutputDir) (k : ℕ) (s : RunnerStore × ℕ) : Prop :=
  s.2 = k ∧ ∀ i, k ≤ i → s.1.artifacts.get (dir.storing i).artifactId = none

section

variable {rt : Runtime} {dir : OutputDir} {jobId path name : String} {spec : OutputSpec} {k : ℕ}
variable {bytes : Bytes} {content : Except String Bytes} {outputs : BTreeMap JobOutput}

lemma triple_answer {A : RunnerStore × ℕ → Prop} {c : RunnerCall} {answer : Except JobError c.Result}
    (h : ∀ o s, dir.exec rt c o s = (answer, s)) :
    Triple (dir.exec rt) A (request c) (fun a s => answer = .ok a ∧ A s)
      fun error _ => answer = .error error := by
  refine Triple.request (fun o s a s' hs hexec => ?_) fun o s error s' _ hexec => ?_
  · obtain ⟨hanswer, rfl⟩ := Prod.mk.inj ((h o s).symm.trans hexec)
    exact ⟨hanswer, hs⟩
  · exact (Prod.mk.inj ((h o s).symm.trans hexec)).1

lemma triple_found {α : Type} {A : RunnerStore × ℕ → Prop} {B : α → RunnerStore × ℕ → Prop}
    {E : JobError → RunnerStore × ℕ → Prop} {c : RunnerCall} (found : c.Result)
    {f : c.Result → RunnerTask α} (h : ∀ o s, dir.exec rt c o s = (.ok found, s))
    (hf : Triple (dir.exec rt) A (f found) B E) : Triple (dir.exec rt) A (request c >>= f) B E := by
  refine Triple.bind ((triple_answer h).mono (fun _ h => h) (fun _ _ h => h) ?_) fun a => ?_
  · exact fun _ _ h => by cases h
  · rintro os s ⟨hfound, hs⟩
    obtain rfl := Except.ok.inj hfound
    exact hf os s hs

lemma OutputReads.text {kind : OutputType} {output : JobOutput} (h : OutputReads rt bytes kind output)
    (hkind : kind ≠ .artifact) : ∃ text, decodeUtf8 bytes = .ok text := by
  cases h with
  | artifact => exact absurd rfl hkind
  | string h | integer h | boolean h | json h => exact ⟨_, h⟩

lemma outputReads_iff {kind : OutputType} {text : String} {output : JobOutput}
    (hkind : kind ≠ .artifact) (htext : decodeUtf8 bytes = .ok text) :
    OutputReads rt bytes kind output ↔ parseOutput rt kind path text = .ok output := by
  constructor
  · rintro (_ | hread | ⟨hread, hvalue⟩ | ⟨hread, hvalue⟩ | ⟨hread, hvalue, hnull⟩)
    · exact absurd rfl hkind
    · obtain rfl := Except.ok.inj (htext.symm.trans hread)
      rfl
    · obtain rfl := Except.ok.inj (htext.symm.trans hread)
      rw [parseOutput, hvalue]
    · obtain rfl := Except.ok.inj (htext.symm.trans hread)
      rename_i value
      cases value <;> simp [parseOutput, hvalue]
    · obtain rfl := Except.ok.inj (htext.symm.trans hread)
      rename_i value
      rw [parseOutput, hvalue]
      cases value with
      | null => exact absurd rfl hnull
      | _ => rfl
  · intro h
    cases kind with
    | artifact => exact absurd rfl hkind
    | string =>
      obtain rfl := Except.ok.inj h
      exact .string htext
    | integer =>
      rw [parseOutput] at h
      cases hvalue : parseI64 (trim text) with
      | none =>
        rw [hvalue] at h
        cases h
      | some value =>
        rw [hvalue] at h
        obtain rfl := Except.ok.inj h
        exact .integer htext hvalue
    | boolean =>
      rw [parseOutput] at h
      by_cases htrue : trim text = "true"
      · rw [if_pos htrue] at h
        obtain rfl := Except.ok.inj h
        exact .boolean htext htrue
      · rw [if_neg htrue] at h
        by_cases hfalse : trim text = "false"
        · rw [if_pos hfalse] at h
          obtain rfl := Except.ok.inj h
          exact .boolean htext hfalse
        · rw [if_neg hfalse] at h
          cases h
    | json =>
      rw [parseOutput] at h
      cases hvalue : rt.parseJson (utf8 text) with
      | error source =>
        rw [hvalue] at h
        cases h
      | ok value =>
        rw [hvalue] at h
        have hnull : value ≠ .null := by
          rintro rfl
          cases h
        have houtput : output = .json value := by
          cases value with
          | null => exact absurd rfl hnull
          | _ => exact (Except.ok.inj h).symm
        exact houtput ▸ .json htext hvalue hnull

lemma file?_eq (hpath : safeOutputPath (jobPath rt jobId "output") spec.path = some path)
    (hnode : dir.node path = .file content) : dir.file? rt jobId spec = some content := by
  simp only [OutputDir.file?, hpath, hnode]

def OutputRead (rt : Runtime) (dir : OutputDir) (jobId : String) (spec : OutputSpec) (k : ℕ)
    (output : JobOutput) (s : RunnerStore × ℕ) : Prop :=
  dir.Fits rt jobId spec k ∧ dir.Unused (k + if spec.kind = .artifact then 1 else 0) s ∧
    ∃ bytes, dir.file? rt jobId spec = some (.ok bytes) ∧ OutputReads rt bytes spec.kind output

lemma triple_readText (hkind : spec.kind ≠ .artifact)
    (hpath : safeOutputPath (jobPath rt jobId "output") spec.path = some path)
    (hnode : dir.node path = .file content) :
    Triple (dir.exec rt) (dir.Unused k)
      (request (.readOutput jobId path) >>= fun text => .done (parseOutput rt spec.kind path text))
      (OutputRead rt dir jobId spec k) fun _ _ => ¬dir.Fits rt jobId spec k := by
  have hread : ∀ o s, dir.exec rt (.readOutput jobId path) o s =
      ((content.bind decodeUtf8).mapError (.readFile path), s) := by
    intro o s
    simp only [OutputDir.exec, OutputDir.outcome, hnode, OutputNode.content]
    cases content.bind decodeUtf8 <;> rfl
  have hfile := file?_eq hpath hnode
  have hunfit : ∀ bytes, content = .ok bytes →
      (∀ output, ¬OutputReads rt bytes spec.kind output) → ¬dir.Fits rt jobId spec k := by
    rintro bytes rfl hnone ⟨bytes', hfile', ⟨output, hreads⟩, -⟩
    obtain rfl := Except.ok.inj (Option.some.inj (hfile.symm.trans hfile'))
    exact hnone output hreads
  refine Triple.bind ((triple_answer hread).mono (fun _ h => h) (fun _ _ h => h) ?_) fun text => ?_
  · intro error _ herror
    cases hcontent : content with
    | error source =>
      rintro ⟨bytes, hfile', -⟩
      rw [hfile, hcontent] at hfile'
      cases hfile'
    | ok bytes =>
      refine hunfit bytes hcontent fun output hreads => ?_
      cases htext : decodeUtf8 bytes with
      | ok text =>
        rw [hcontent, Except.bind, htext] at herror
        cases herror
      | error source =>
        obtain ⟨text, hok⟩ := hreads.text hkind
        cases htext.symm.trans hok
  · -- the content is the text that has been read
    have hbytes : (content.bind decodeUtf8).mapError (JobError.readFile path) = .ok text →
        ∃ bytes, content = .ok bytes ∧ decodeUtf8 bytes = .ok text := by
      intro hok
      cases content with
      | error source => cases hok
      | ok bytes =>
        refine ⟨bytes, rfl, ?_⟩
        cases htext : decodeUtf8 bytes with
        | error source =>
          rw [Except.bind, htext] at hok
          cases hok
        | ok text' =>
          rw [Except.bind, htext] at hok
          exact congrArg _ (Except.ok.inj hok)
    refine Triple.done ?_ ?_
    · rintro output hparse s ⟨hok, hunused⟩
      obtain ⟨bytes, rfl, htext⟩ := hbytes hok
      have hreads := (outputReads_iff hkind htext).mpr hparse
      refine ⟨⟨bytes, hfile, ⟨output, hreads⟩, fun h => absurd h hkind⟩, ?_, bytes, hfile, hreads⟩
      rw [if_neg hkind]
      exact hunused
    · rintro error hparse s ⟨hok, -⟩
      obtain ⟨bytes, rfl, htext⟩ := hbytes hok
      refine hunfit bytes rfl fun output hreads => ?_
      cases ((outputReads_iff hkind htext).mp hreads).symm.trans hparse

lemma readOutput_text {kind : OutputType} (hkind : kind ≠ .artifact) :
    readOutput rt jobId path kind =
      request (.readOutput jobId path) >>= fun text => .done (parseOutput rt kind path text) := by
  cases kind with
  | artifact => exact absurd rfl hkind
  | string | integer | boolean | json => rfl

lemma exec_storeArtifact (hids : Function.Injective fun i => (dir.storing i).artifactId)
    {s s' : RunnerStore × ℕ} (hunused : dir.Unused k s) {o : Outcome}
    {answer : Except JobError ArtifactMetadata} {sha256 : String} {size : ℕ}
    (hexec : dir.exec rt (.storeArtifact sha256 size) o s = (answer, s')) :
    (∃ source, (dir.storing k).fails = some source) ∧ (∃ error, answer = .error error) ∨
      (dir.storing k).fails = none ∧ dir.Unused (k + 1) s' ∧
        ∃ stored, answer = .ok stored ∧ stored.sha256 = sha256 ∧ stored.size = size := by
  obtain ⟨store, k'⟩ := s
  obtain ⟨rfl, hfresh⟩ := hunused
  have hfirst : store.artifacts.containsKey (dir.storing k').artifactId = false := by
    rw [OrderedMap.containsKey_eq_isSome, hfresh k' le_rfl]
    rfl
  simp only [OutputDir.exec, OutputDir.outcome, RunnerCall.exec, Outcome.io, hfirst] at hexec
  cases hfails : (dir.storing k').fails with
  | some source =>
    rw [hfails] at hexec
    exact .inl ⟨⟨source, rfl⟩, _, (Prod.mk.inj hexec).1.symm⟩
  | none =>
    rw [hfails] at hexec
    obtain ⟨hanswer, rfl⟩ := Prod.mk.inj hexec
    refine .inr ⟨rfl, ⟨rfl, fun i hi => ?_⟩, _, hanswer.symm, rfl, rfl⟩
    have hne : (dir.storing i).artifactId ≠ (dir.storing k').artifactId := fun h =>
      absurd (hids h) (Nat.ne_of_gt hi)
    exact (OrderedMap.get_insert_of_ne hne).trans (hfresh i (Nat.le_of_succ_le hi))

lemma triple_readArtifact (hids : Function.Injective fun i => (dir.storing i).artifactId)
    (hkind : spec.kind = .artifact)
    (hpath : safeOutputPath (jobPath rt jobId "output") spec.path = some path)
    (hnode : dir.node path = .file content) :
    Triple (dir.exec rt) (dir.Unused k) (readOutput rt jobId path .artifact)
      (OutputRead rt dir jobId spec k) fun _ _ => ¬dir.Fits rt jobId spec k := by
  have hread : ∀ o s, dir.exec rt (.readOutputBytes jobId path) o s =
      (content.mapError (.readFile path), s) := by
    intro o s
    simp only [OutputDir.exec, OutputDir.outcome, hnode, OutputNode.content]
    cases content <;> rfl
  have hfile := file?_eq hpath hnode
  refine Triple.bind ((triple_answer hread).mono (fun _ h => h) (fun _ _ h => h) ?_) fun bytes => ?_
  · intro error _ herror
    cases content with
    | ok bytes => cases herror
    | error source =>
      rintro ⟨bytes, hfile', -⟩
      cases hfile.symm.trans hfile'
  · have hcontent : content.mapError (JobError.readFile path) = .ok bytes → content = .ok bytes := by
      intro hok
      cases content with
      | error source => cases hok
      | ok bytes' => exact congrArg _ (Except.ok.inj hok)
    by_cases hsize : bytes.length ≤ rt.config.artifactMaxSizeBytes
    · have hcheck : checkUpload rt bytes (some (rt.sha256Hex bytes)) = .ok () := by
        simp [checkUpload, Nat.not_lt.mpr hsize]
      rw [storeBytes, hcheck]
      refine Triple.bind (B := fun stored s => OutputRead rt dir jobId spec k
        (.artifact stored.artifactId stored.sha256 stored.size) s) (Triple.request ?_ ?_)
        fun stored => Triple.pure fun _ h => h
      · rintro o s stored s' ⟨hok, hunused⟩ hexec
        obtain rfl := hcontent hok
        obtain ⟨-, error, herror⟩ | ⟨hfails, hunused', stored', hstored, hsha, hlength⟩ :=
          exec_storeArtifact hids hunused hexec
        · cases herror
        · obtain rfl := Except.ok.inj hstored
          have hreads : OutputReads rt bytes spec.kind
              (.artifact stored.artifactId stored.sha256 stored.size) := by
            rw [hkind, hsha, hlength]
            exact .artifact _
          refine ⟨⟨bytes, hfile, ⟨_, hreads⟩, fun _ => ⟨hsize, hfails⟩⟩, ?_, bytes, hfile, hreads⟩
          rw [if_pos hkind]
          exact hunused'
      · rintro o s error s' ⟨-, hunused⟩ hexec ⟨bytes', -, -, hfits⟩
        obtain ⟨⟨source, hfails⟩, -⟩ | ⟨-, -, stored', hstored, -⟩ :=
          exec_storeArtifact hids hunused hexec
        · cases hfails.symm.trans (hfits hkind).2
        · cases hstored
    · have hcheck : checkUpload rt bytes (some (rt.sha256Hex bytes)) =
          .error (.tooLarge bytes.length rt.config.artifactMaxSizeBytes) := by
        simp [checkUpload, Nat.lt_of_not_le hsize]
      rw [storeBytes, hcheck]
      refine Triple.bind (Triple.fail ?_) fun stored => Triple.pure fun _ h => h
      rintro s ⟨hok, -⟩ ⟨bytes', hfile', -, hfits⟩
      obtain rfl := hcontent hok
      obtain rfl := Except.ok.inj (Option.some.inj (hfile.symm.trans hfile'))
      exact hsize (hfits hkind).1

lemma stored_of_file (h : (dir.file? rt jobId spec).isSome = true) :
    dir.stored rt jobId [(name, spec)] = if spec.kind = .artifact then 1 else 0 := by
  by_cases hkind : spec.kind = .artifact <;> simp [OutputDir.stored, hkind, h]

lemma stored_of_none (h : dir.file? rt jobId spec = none) :
    dir.stored rt jobId [(name, spec)] = 0 := by
  simp [OutputDir.stored, h]

lemma not_fits_of_none (h : dir.file? rt jobId spec = none) : ¬dir.Fits rt jobId spec k := by
  rintro ⟨bytes, hfile, -⟩
  cases h.symm.trans hfile

lemma OutputDir.Omitted.file? (h : dir.Omitted rt jobId spec) : dir.file? rt jobId spec = none := by
  obtain ⟨-, path, hpath, hnode⟩ := h
  simp only [OutputDir.file?, hpath, hnode]

def OutputStep (rt : Runtime) (dir : OutputDir) (jobId name : String) (spec : OutputSpec) (k : ℕ)
    (before after : BTreeMap JobOutput) : Prop :=
  dir.Omitted rt jobId spec ∧ after = before ∨
    dir.Fits rt jobId spec k ∧ ∃ bytes output, dir.file? rt jobId spec = some (.ok bytes) ∧
      OutputReads rt bytes spec.kind output ∧ after = before.insert name output

lemma triple_registerOutput (hids : Function.Injective fun i => (dir.storing i).artifactId) :
    Triple (dir.exec rt) (dir.Unused k) (registerOutput rt jobId name spec outputs)
      (fun after s => OutputStep rt dir jobId name spec k outputs after ∧
        dir.Unused (k + dir.stored rt jobId [(name, spec)]) s)
      fun _ _ => dir.Fails rt jobId spec k := by
  unfold registerOutput
  cases hpath : safeOutputPath (jobPath rt jobId "output") spec.path with
  | none =>
    have hfile : dir.file? rt jobId spec = none := by simp only [OutputDir.file?, hpath]
    refine Triple.fail fun _ _ => ⟨?_, not_fits_of_none hfile⟩
    rintro ⟨-, path, hsome, -⟩
    cases hpath.symm.trans hsome
  | some path =>
    have hmissing : (∀ content, dir.node path ≠ .file content) → dir.file? rt jobId spec = none := by
      intro hnode
      cases hat : dir.node path with
      | file content => exact absurd hat (hnode content)
      | absent | other | unreadable source => simp only [OutputDir.file?, hpath, hat]
    have hkept : dir.node path ≠ .absent → ¬dir.Omitted rt jobId spec := by
      rintro hnode ⟨-, path', hpath', habsent⟩
      obtain rfl := Option.some.inj (hpath.symm.trans hpath')
      exact hnode habsent
    cases hnode : dir.node path with
    | absent =>
      have hfile := hmissing fun content h => by cases hnode.symm.trans h
      refine triple_found (c := .statOutput jobId path) OutputFile.notFound (fun o s => ?_) ?_
      · simp only [OutputDir.exec, OutputDir.outcome, hnode]
        rfl
      refine Triple.ite (fun hrequired => ?_) fun hrequired => ?_
      · refine Triple.fail fun _ _ => ⟨?_, not_fits_of_none hfile⟩
        rintro ⟨hfalse, -⟩
        cases hrequired.symm.trans hfalse
      · refine Triple.pure fun s hs => ⟨.inl ⟨⟨?_, path, hpath, hnode⟩, rfl⟩, ?_⟩
        · exact Bool.eq_false_iff.mpr hrequired
        · rw [stored_of_none hfile]
          exact hs
    | other =>
      have hfile := hmissing fun content h => by cases hnode.symm.trans h
      refine triple_found (c := .statOutput jobId path) OutputFile.other (fun o s => ?_) ?_
      · simp only [OutputDir.exec, OutputDir.outcome, hnode]
        rfl
      refine Triple.fail fun _ _ => ⟨hkept ?_, not_fits_of_none hfile⟩
      exact fun h => by cases hnode.symm.trans h
    | unreadable source =>
      have hfile := hmissing fun content h => by cases hnode.symm.trans h
      have hstat : ∀ o s, dir.exec rt (.statOutput jobId path) o s =
          (.error (.readFile path source), s) := by
        intro o s
        simp only [OutputDir.exec, OutputDir.outcome, hnode]
        rfl
      refine Triple.bind ((triple_answer hstat).mono (fun _ h => h) (fun _ _ h => h)
        fun _ _ _ => ⟨hkept ?_, not_fits_of_none hfile⟩) fun found os s hs => by cases hs.1
      · exact fun h => by cases hnode.symm.trans h
    | file content =>
      have hfile := file?_eq hpath hnode
      have hthere : ¬dir.Omitted rt jobId spec := hkept fun h => by cases hnode.symm.trans h
      have hread : Triple (dir.exec rt) (dir.Unused k) (readOutput rt jobId path spec.kind)
          (OutputRead rt dir jobId spec k) fun _ _ => ¬dir.Fits rt jobId spec k := by
        by_cases hkind : spec.kind = .artifact
        · rw [hkind]
          exact triple_readArtifact hids hkind hpath hnode
        · rw [readOutput_text hkind]
          exact triple_readText hkind hpath hnode
      refine triple_found (c := .statOutput jobId path) OutputFile.file (fun o s => ?_) ?_
      · simp only [OutputDir.exec, OutputDir.outcome, hnode]
        rfl
      refine Triple.bind (hread.mono (fun _ h => h) (fun _ _ h => h) fun _ _ h => ⟨hthere, h⟩)
        fun output => Triple.pure fun s hs => ?_
      obtain ⟨hfits, hunused, bytes, hbytes, hreads⟩ := hs
      rw [stored_of_file (by rw [hfile]; rfl)]
      exact ⟨.inr ⟨hfits, bytes, output, hbytes, hreads, rfl⟩, hunused⟩

end

inductive Registers (rt : Runtime) (dir : OutputDir) (jobId : String) : ℕ → BTreeMap JobOutput →
    List (String × OutputSpec) → BTreeMap JobOutput × Option JobError → Prop
  | done {k : ℕ} {outputs : BTreeMap JobOutput} : Registers rt dir jobId k outputs [] (outputs, none)
  | fails {k : ℕ} {outputs : BTreeMap JobOutput} {e : String × OutputSpec}
    {specs : List (String × OutputSpec)} (error : JobError) (h : dir.Fails rt jobId e.2 k) :
    Registers rt dir jobId k outputs (e :: specs) (outputs, some error)
  | next {k : ℕ} {outputs outputs' : BTreeMap JobOutput} {e : String × OutputSpec}
    {specs : List (String × OutputSpec)} {result : BTreeMap JobOutput × Option JobError}
    (h : OutputStep rt dir jobId e.1 e.2 k outputs outputs')
    (hrest : Registers rt dir jobId (k + dir.stored rt jobId [e]) outputs' specs result) :
    Registers rt dir jobId k outputs (e :: specs) result

section

variable {rt : Runtime} {dir : OutputDir} {jobId : String} {k : ℕ} {e e' : String × OutputSpec}
variable {specs pre post : List (String × OutputSpec)} {outputs outputs' : BTreeMap JobOutput}
variable {result : BTreeMap JobOutput × Option JobError} {error : JobError}

lemma triple_registerOutputs (hids : Function.Injective fun i => (dir.storing i).artifactId) :
    Triple (dir.exec rt) (dir.Unused k) (registerOutputs rt jobId outputs specs)
      (fun result _ => Registers rt dir jobId k outputs specs result) fun _ _ => False := by
  induction specs generalizing k outputs with
  | nil => exact Triple.pure fun _ _ => .done
  | cons e specs ih =>
    refine Triple.bind (Triple.attempt (B := fun registered s => match registered with
      | .ok outputs' => OutputStep rt dir jobId e.1 e.2 k outputs outputs' ∧
          dir.Unused (k + dir.stored rt jobId [e]) s
      | .error _ => dir.Fails rt jobId e.2 k) (triple_registerOutput hids)) ?_
    rintro (error | outputs')
    · exact Triple.pure fun _ hfails => .fails error hfails
    · rintro os s ⟨hstep, hunused⟩
      exact (ih.mono (fun _ h => h) (fun _ _ hrest => .next hstep hrest) fun _ _ h => h) os s hunused

lemma registers_of_played (hids : Function.Injective fun i => (dir.storing i).artifactId)
    {os : List Outcome} {s : RunnerStore × ℕ} (hunused : dir.Unused k s)
    {ended : Except JobError (BTreeMap JobOutput × Option JobError)}
    (h : ((registerOutputs rt jobId outputs specs).play (dir.exec rt) os s).result = some ended) :
    ∃ result, ended = .ok result ∧ Registers rt dir jobId k outputs specs result := by
  have hend : ((registerOutputs rt jobId outputs specs).play (dir.exec rt) os s).Ends
      (fun result _ => Registers rt dir jobId k outputs specs result) fun _ _ => False :=
    triple_registerOutputs hids os s hunused
  rw [Played.Ends, h] at hend
  cases ended with
  | error error => exact hend.elim
  | ok result => exact ⟨result, rfl, hend⟩

lemma OutputStep.not_fails (h : OutputStep rt dir jobId e.1 e.2 k outputs outputs') :
    ¬dir.Fails rt jobId e.2 k := by
  rintro ⟨homitted, hfits⟩
  obtain ⟨h, -⟩ | ⟨h, -⟩ := h
  · exact homitted h
  · exact hfits h

lemma OutputStep.isSome (h : OutputStep rt dir jobId e.1 e.2 k outputs outputs') {name : String}
    (hname : (outputs.get name).isSome = true) : (outputs'.get name).isSome = true := by
  obtain ⟨-, rfl⟩ | ⟨-, bytes, output, -, -, rfl⟩ := h
  · exact hname
  · by_cases heq : name = e.1
    · rw [heq, OrderedMap.get_insert_self]
      rfl
    · rw [OrderedMap.get_insert_of_ne heq]
      exact hname

lemma stored_cons : dir.stored rt jobId (e :: specs) =
    dir.stored rt jobId [e] + dir.stored rt jobId specs := by
  rw [OutputDir.stored, ← List.singleton_append, List.countP_append]
  rfl

lemma Registers.stopped (h : Registers rt dir jobId k outputs (pre ++ e :: post) result)
    (hpre : dir.AllFit rt jobId k pre)
    (hfails : dir.Fails rt jobId e.2 (k + dir.stored rt jobId pre)) :
    (∃ error, result.2 = some error) ∧
      (∀ name, (outputs.get name).isSome = true → (result.1.get name).isSome = true) ∧
      ∀ e' ∈ pre, (dir.file? rt jobId e'.2).isSome = true → (result.1.get e'.1).isSome = true := by
  induction pre generalizing k outputs with
  | nil =>
    cases h with
    | fails error _ => exact ⟨⟨error, rfl⟩, fun _ h => h, fun e' he' => absurd he' List.not_mem_nil⟩
    | next hstep _ => exact absurd hfails hstep.not_fails
  | cons first pre ih =>
    obtain ⟨hfirst, hpre⟩ := hpre
    cases h with
    | fails error h => exact absurd h hfirst
    | next hstep hrest =>
      rw [stored_cons, ← Nat.add_assoc] at hfails
      obtain ⟨herror, hkept, hregistered⟩ := ih hrest hpre hfails
      refine ⟨herror, fun name hname => hkept name (hstep.isSome hname), fun e' he' hfile => ?_⟩
      rcases List.mem_cons.mp he' with rfl | he'
      · refine hkept _ ?_
        obtain ⟨homitted, -⟩ | ⟨-, bytes, output, -, -, rfl⟩ := hstep
        · rw [homitted.file?] at hfile
          cases hfile
        · rw [OrderedMap.get_insert_self]
          rfl
      · exact hregistered e' he' hfile

lemma Registers.failed (h : Registers rt dir jobId k outputs specs (outputs', some error)) :
    ∃ pre e post, specs = pre ++ e :: post ∧ dir.AllFit rt jobId k pre ∧
      dir.Fails rt jobId e.2 (k + dir.stored rt jobId pre) ∧
      ((∀ e' ∈ pre, dir.file? rt jobId e'.2 = none) → outputs' = outputs) := by
  induction specs generalizing k outputs with
  | nil => cases h
  | cons e specs ih =>
    cases h with
    | fails error hfails => exact ⟨[], e, specs, rfl, trivial, hfails, fun _ => rfl⟩
    | next hstep hrest =>
      obtain ⟨pre, failed, post, rfl, hpre, hfails, hsame⟩ := ih hrest
      refine ⟨e :: pre, failed, post, rfl, ⟨hstep.not_fails, hpre⟩, ?_, fun hnone => ?_⟩
      · rw [stored_cons, ← Nat.add_assoc]
        exact hfails
      · rw [hsame fun e' he' => hnone e' (List.mem_cons_of_mem _ he')]
        obtain ⟨-, rfl⟩ | ⟨-, bytes, output, hfile, -⟩ := hstep
        · rfl
        · cases (hnone e List.mem_cons_self).symm.trans hfile

lemma Registers.completed (h : Registers rt dir jobId k outputs specs (outputs', none))
    (hnames : (specs.map Prod.fst).Nodup) :
    (∀ name, name ∉ specs.map Prod.fst → outputs'.get name = outputs.get name) ∧
      ∀ e ∈ specs, dir.Omitted rt jobId e.2 ∧ outputs'.get e.1 = outputs.get e.1 ∨
        ∃ bytes output, dir.file? rt jobId e.2 = some (.ok bytes) ∧
          OutputReads rt bytes e.2.kind output ∧ outputs'.get e.1 = some output := by
  induction specs generalizing k outputs with
  | nil =>
    cases h
    exact ⟨fun _ _ => rfl, fun e he => absurd he List.not_mem_nil⟩
  | cons e specs ih =>
    obtain ⟨hnew, htail⟩ := List.nodup_cons.mp hnames
    cases h with
    | next hstep hrest =>
      obtain ⟨hframe, hothers⟩ := ih hrest htail
      have hstays : ∀ name, name ≠ e.1 → (∀ after, OutputStep rt dir jobId e.1 e.2 k outputs after →
          after.get name = outputs.get name) := by
        rintro name hname after (⟨-, rfl⟩ | ⟨-, bytes, output, -, -, rfl⟩)
        · rfl
        · exact OrderedMap.get_insert_of_ne hname
      refine ⟨fun name hname => ?_, fun e' he' => ?_⟩
      · obtain ⟨hself, hlater⟩ := not_or.mp (mt List.mem_cons.mpr hname)
        exact (hframe name hlater).trans (hstays name hself _ hstep)
      · rcases List.mem_cons.mp he' with rfl | he'
        · rw [hframe _ hnew]
          obtain ⟨homitted, rfl⟩ | ⟨-, bytes, output, hfile, hreads, rfl⟩ := hstep
          · exact .inl ⟨homitted, rfl⟩
          · exact .inr ⟨bytes, output, hfile, hreads, OrderedMap.get_insert_self⟩
        · have hne : e'.1 ≠ e.1 := fun heq => hnew (heq ▸ List.mem_map_of_mem he')
          rw [← hstays _ hne _ hstep]
          exact hothers e' he'

end

def Bare (metadata : JobMetadata) : Prop :=
  metadata.outputs = .empty ∧ metadata.outputMetadata.artifacts = {}

def FailsBare (jobId : String) (store : RunnerStore) (s : RunnerStore × ℕ) : Prop :=
  ∀ metadata, (s.1.dir jobId).metadata = some metadata → metadata.status = .failed →
    (store.dir jobId).metadata = some metadata ∨ Bare metadata

def EndCall : RunnerCall → Prop
  | .persistMetadata _ _ metadata => metadata.status = .failed → Bare metadata
  | .now | .fileSize _ _ | .removeWorkDir _ | .writeFile _ _ | .removeRunning _ | .statOutput _ _
  | .readOutput _ _ | .readOutputBytes _ _ | .storeArtifact _ _ => True
  | _ => False

section

variable (rt : Runtime) (dir : OutputDir) (jobId : String) (specs : BTreeMap OutputSpec)

/-- What is registered is what is declared and there, or nothing; a job that is persisted as failed
advertises nothing. -/
def OutputDir.Faithful (store : RunnerStore) : Prop :=
  (∀ os result, ((registerOutputs rt jobId .empty specs.entries).play (dir.exec rt) os
    (store, 0)).result = some (.ok result) → dir.Registered rt jobId specs result) ∧
  ∀ m execution outcome os, execution.jobId = jobId → execution.manifest.outputs = specs →
    execution.metadata.outputs = .empty →
    FailsBare jobId store
      ((finishJob rt m execution outcome).play (dir.exec rt) os (store, 0)).store

end

section

variable {rt : Runtime} {dir : OutputDir} {jobId : String} {specs : BTreeMap OutputSpec}
variable {store : RunnerStore} {m : ℕ} {execution : JobExecution}

lemma exec_failsBare (c : RunnerCall) (o : Outcome) (s : RunnerStore × ℕ) (hc : EndCall c)
    (h : FailsBare jobId store s) : FailsBare jobId store (dir.exec rt c o s).2 := by
  have hsame : ∀ store', (dir.exec rt c o s).2.1 = store' →
      (store'.dir jobId).metadata = (s.1.dir jobId).metadata →
      FailsBare jobId store (dir.exec rt c o s).2 := by
    rintro store' rfl hdir metadata hmeta hfailed
    exact h metadata (hdir.symm.trans hmeta) hfailed
  cases c with
  | now | fileSize | removeRunning => exact hsame _ rfl rfl
  | removeWorkDir | writeFile | statOutput | readOutput | readOutputBytes =>
    refine hsame _ rfl ?_
    simp only [OutputDir.exec, RunnerCall.exec, Outcome.io]
    split <;> rfl
  | storeArtifact sha256 size =>
    refine hsame _ rfl ?_
    simp only [OutputDir.exec, RunnerCall.exec, Outcome.io]
    split
    · rfl
    · split <;> rfl
  | persistMetadata writer jobId' metadata =>
    simp only [OutputDir.exec, OutputDir.outcome, RunnerCall.exec, Outcome.io]
    intro written hmeta hfailed
    have hrelease : ∀ store : RunnerStore, (writer.release store).dir jobId = store.dir jobId := by
      intro store
      cases writer <;> rfl
    cases hfails : o.fails with
    | some source =>
      rw [hfails] at hmeta
      exact h written (by rw [← hrelease]; exact hmeta) hfailed
    | none =>
      rw [hfails] at hmeta
      have hpersist : ((s.1.persist jobId' metadata).dir jobId).metadata = some written := by
        rw [← hrelease]
        exact hmeta
      rw [RunnerStore.metadata_persist] at hpersist
      split at hpersist
      · obtain rfl := Option.some.inj hpersist
        exact .inr (hc hfailed)
      · exact h written hpersist hfailed
  | _ => exact hc.elim

lemma throughout_endCall {α : Type} {A : RunnerStore × ℕ → Prop} {p : RunnerTask α}
    (hp : p.Only EndCall) (hA : ∀ s, A s → FailsBare jobId store s) :
    Throughout (dir.exec rt) A p (FailsBare jobId store) :=
  .of_only exec_failsBare hp hA

lemma registerOutputs_endCall (outputs : BTreeMap JobOutput) (specs : List (String × OutputSpec)) :
    (registerOutputs rt jobId outputs specs).Only EndCall := by
  induction specs generalizing outputs with
  | nil => exact Program.Only.pure _
  | cons e specs ih =>
    refine .bind (.attempt ?_) ?_
    · unfold registerOutput
      cases safeOutputPath (jobPath rt jobId "output") e.2.path with
      | none => exact Program.Only.fail _
      | some path =>
        refine .bind (Program.Only.request_iff.mpr trivial) fun found => ?_
        cases found with
        | other => exact Program.Only.fail _
        | notFound => exact .ite (fun _ => Program.Only.fail _) fun _ => Program.Only.pure _
        | file =>
          refine .bind ?_ fun _ => Program.Only.pure _
          by_cases hkind : e.2.kind = .artifact
          · rw [hkind]
            refine .bind (Program.Only.request_iff.mpr trivial) fun bytes => ?_
            refine .bind ?_ fun _ => Program.Only.pure _
            unfold storeBytes
            cases checkUpload rt bytes (some (rt.sha256Hex bytes)) with
            | error error => exact Program.Only.fail _
            | ok _ => exact Program.Only.request_iff.mpr trivial
          · rw [readOutput_text hkind]
            exact .bind (Program.Only.request_iff.mpr trivial) fun _ => Program.Only.done _
    · rintro (error | outputs')
      · exact Program.Only.pure _
      · exact ih outputs'

lemma buildOutputMetadata_endCall {stdoutTruncated stderrTruncated : Bool}
    {outputs : BTreeMap JobOutput} {f : JobOutputMetadata → RunnerTask Unit}
    (hf : ∀ outputMetadata : JobOutputMetadata,
      (outputs = .empty → outputMetadata.artifacts = {}) → (f outputMetadata).Only EndCall) :
    (buildOutputMetadata jobId stdoutTruncated stderrTruncated outputs >>= f).Only EndCall := by
  refine (congrArg (Program.Only EndCall)
    (Program.bind_assoc (request (.fileSize jobId "stdout.log")) _ f)).mpr ?_
  refine .bind (Program.Only.request_iff.mpr trivial) fun stdout => ?_
  refine (congrArg (Program.Only EndCall)
    (Program.bind_assoc (request (.fileSize jobId "stderr.log")) _ f)).mpr ?_
  refine .bind (Program.Only.request_iff.mpr trivial) fun stderr => ?_
  refine hf _ ?_
  rintro rfl
  rfl

lemma finishOk_endCall {finishedAt : Timestamp} {outcome : ExecutionOutcome}
    {finalStatus : RunnerJobStatus} {reason : TerminalReason} {category : Option FailureCategory}
    {outputs : BTreeMap JobOutput} (houtputs : finalStatus = .failed → outputs = .empty) :
    (finishOk rt m execution finishedAt outcome finalStatus reason category outputs).Only EndCall := by
  refine buildOutputMetadata_endCall fun outputMetadata hnone => ?_
  refine .bind (.attempt (Program.Only.request_iff.mpr fun hfailed => ?_)) fun _ => ?_
  · exact ⟨houtputs hfailed, hnone (houtputs hfailed)⟩
  · refine .ite (fun _ => ?_) fun _ => Program.Only.done _
    exact .bind (.attempt (Program.Only.request_iff.mpr trivial)) fun _ => Program.Only.done _

lemma finishError_endCall (hempty : execution.metadata.outputs = .empty) {finishedAt : Timestamp}
    {error : JobError} : (finishError m execution finishedAt error).Only EndCall := by
  refine buildOutputMetadata_endCall fun outputMetadata hnone => ?_
  refine .bind (.attempt (Program.Only.request_iff.mpr fun _ => ?_)) fun _ => ?_
  · exact ⟨hempty, hnone hempty⟩
  · exact .bind (.attempt (Program.Only.request_iff.mpr trivial)) fun _ => Program.Only.done _

lemma throughout_finishOutcome (hids : Function.Injective fun i => (dir.storing i).artifactId)
    (hclean : dir.FailsClean rt execution.jobId execution.manifest.outputs.entries)
    (hempty : execution.metadata.outputs = .empty) (finishedAt : Timestamp)
    (outcome : ExecutionOutcome) :
    Throughout (dir.exec rt) (fun s => dir.Unused 0 s ∧ FailsBare jobId store s)
      (finishOutcome rt m execution finishedAt outcome) (FailsBare jobId store) := by
  unfold finishOutcome
  by_cases hsuccess : outcome.status = .success
  · rw [if_pos hsuccess, hempty]
    refine Throughout.bind (throughout_endCall (registerOutputs_endCall _ _) fun _ h => h.2)
      ((triple_registerOutputs hids).mono (fun _ h => h.1) (fun _ _ h => h) fun _ _ h => h) ?_
    rintro ⟨outputs, _ | error⟩
    · exact throughout_endCall (finishOk_endCall fun h => by cases h) fun _ h => h.2
    · rintro os s ⟨hregisters, hbare⟩
      obtain ⟨pre, e, post, hsplit, hpre, hfails, hsame⟩ := Registers.failed hregisters
      rw [Nat.zero_add] at hfails
      have houtputs := hsame (hclean pre e post hsplit hpre hfails)
      exact throughout_endCall (A := fun s => FailsBare jobId store s)
        (finishOk_endCall fun _ => houtputs) (fun _ h => h) os s hbare
  · rw [if_neg hsuccess]
    exact throughout_endCall (finishOk_endCall fun _ => hempty) fun _ h => h.2

lemma throughout_finishJob (hids : Function.Injective fun i => (dir.storing i).artifactId)
    (hclean : dir.FailsClean rt execution.jobId execution.manifest.outputs.entries)
    (hempty : execution.metadata.outputs = .empty) (outcome : Except JobError ExecutionOutcome) :
    Throughout (dir.exec rt) (fun s => dir.Unused 0 s ∧ FailsBare jobId store s)
      (finishJob rt m execution outcome) (FailsBare jobId store) := by
  have hnow : Triple (dir.exec rt) (fun s => dir.Unused 0 s ∧ FailsBare jobId store s) nowRfc3339
      (fun _ s => dir.Unused 0 s) fun _ _ => True := by
    refine Triple.bind (B := fun _ s => dir.Unused 0 s)
      (Triple.request ?_ fun _ _ _ _ _ _ => trivial) fun now => Triple.pure fun _ h => h
    intro o s a s' hs hexec
    obtain ⟨-, rfl⟩ := Prod.mk.inj hexec
    exact hs.1
  have hends : ∀ {A : RunnerStore × ℕ → Prop} (p : RunnerTask Unit),
      Triple (dir.exec rt) A p (fun _ _ => True) fun _ _ => True := by
    intro A p os s _
    unfold Played.Ends
    split <;> trivial
  have hlast : (request (.removeRunning execution.jobId) : RunnerTask Unit).Only EndCall :=
    Program.Only.request_iff.mpr trivial
  refine Throughout.bind (throughout_endCall ?_ fun _ h => h.2) hnow fun finishedAt => ?_
  · exact .bind (Program.Only.request_iff.mpr trivial) fun _ => Program.Only.pure _
  · cases outcome with
    | ok outcome =>
      exact Throughout.bind (throughout_finishOutcome hids hclean hempty finishedAt outcome) (hends _)
        fun _ => throughout_endCall hlast fun _ h => h.2
    | error error =>
      exact Throughout.bind (throughout_endCall (finishError_endCall hempty) fun _ h => h.2) (hends _)
        fun _ => throughout_endCall hlast fun _ h => h.2

end

/-- The outputs are registered faithfully if and only if none that has a file comes before the first
that fails. -/
theorem outputs_faithful_iff (rt : Runtime) {dir : OutputDir} (jobId : String)
    (specs : BTreeMap OutputSpec) {store : RunnerStore}
    (hids : Function.Injective fun i => (dir.storing i).artifactId)
    (hunused : dir.Unused 0 (store, 0)) :
    dir.Faithful rt jobId specs store ↔ dir.FailsClean rt jobId specs.entries := by
  have hregisters : ∀ os result, ((registerOutputs rt jobId .empty specs.entries).play (dir.exec rt) os
      (store, 0)).result = some (.ok result) → Registers rt dir jobId 0 .empty specs.entries result := by
    intro os result hresult
    obtain ⟨result', hok, hregisters⟩ := registers_of_played hids hunused hresult
    exact Except.ok.inj hok ▸ hregisters
  constructor
  · rintro ⟨hfaithful, -⟩ pre e post hsplit hpre hfails e' he'
    let os : List Outcome := List.replicate (3 * specs.entries.length) {}
    obtain ⟨ended, hended⟩ : ∃ ended, ((registerOutputs rt jobId .empty specs.entries).play
        (dir.exec rt) os (store, 0)).result = some ended :=
      Program.play_within (within_registerOutputs _ _ _) List.length_replicate.ge _
    obtain ⟨result, rfl, hrun⟩ := registers_of_played hids hunused hended
    rw [← Nat.zero_add (dir.stored rt jobId pre)] at hfails
    obtain ⟨⟨error, herror⟩, -, hregistered⟩ := Registers.stopped (hsplit ▸ hrun) hpre hfails
    have hbare := hfaithful _ _ hended
    obtain ⟨outputs, reported⟩ := result
    obtain rfl : reported = some error := herror
    obtain rfl : outputs = .empty := hbare
    by_contra hfile
    have hsome := hregistered e' he' (Option.isSome_iff_ne_none.mpr hfile)
    cases hsome
  · intro hclean
    refine ⟨fun os result hresult => ?_, ?_⟩
    · obtain ⟨outputs, _ | error⟩ := result
      · obtain ⟨hframe, hdone⟩ := Registers.completed (hregisters os _ hresult) specs.keys_nodup
        refine ⟨fun name output hget => ?_, fun name spec hspec hthere => ?_⟩
        · have hname : name ∈ specs.entries.map Prod.fst := by
            by_contra hnot
            rw [hframe name hnot] at hget
            cases hget
          obtain ⟨⟨name, spec⟩, he, rfl⟩ := List.mem_map.mp hname
          obtain ⟨-, hnone⟩ | ⟨bytes, output', hfile, hreads, hsome⟩ := hdone _ he
          · cases hget.symm.trans hnone
          · obtain rfl := Option.some.inj (hget.symm.trans hsome)
            exact ⟨spec, bytes, OrderedMap.get_eq_some_iff.mpr he, hfile, hreads⟩
        · obtain ⟨homitted, -⟩ | ⟨bytes, output', -, -, hsome⟩ :=
            hdone _ (OrderedMap.get_eq_some_iff.mp hspec)
          · rcases hthere with hfile | hrequired
            · rw [homitted.file?] at hfile
              cases hfile
            · cases hrequired.symm.trans homitted.1
          · rw [hsome]
            rfl
      · obtain ⟨pre, e, post, hsplit, hpre, hfails, hsame⟩ :=
          Registers.failed (hregisters os _ hresult)
        rw [Nat.zero_add] at hfails
        exact hsame (hclean pre e post hsplit hpre hfails)
    · rintro m execution outcome os rfl rfl hempty
      refine throughout_finishJob hids hclean hempty outcome os (store, 0) ⟨hunused, ?_⟩
      exact fun metadata hmeta _ => .inl hmeta

def outputJobId : String := "job_4b86d0a2c0f1e7b9a3d5c6e8f7091a2b"

def bundleDir : OutputDir where
  node path :=
    if path = jobPath sampleRuntime outputJobId "output" ++ "/bundle" then .file (.ok []) else .absent
  storing i :=
    { artifactId := "art_018f6a5211117000800000000000ab01" ++ String.ofList (List.replicate i '0') }

lemma bundleDir_ids : Function.Injective fun i => (bundleDir.storing i).artifactId := by
  intro i j h
  have hlength := congrArg String.length h
  simpa [bundleDir, String.length_append] using hlength

def laterSpecs : BTreeMap OutputSpec :=
  .ofList [("archive", ⟨.string, "archive.txt", false⟩), ("bundle", ⟨.artifact, "bundle", true⟩)]

theorem outputs_faithful_iff_bundle : bundleDir.Faithful sampleRuntime outputJobId laterSpecs {} := by
  refine (outputs_faithful_iff sampleRuntime outputJobId laterSpecs bundleDir_ids
    ⟨rfl, fun i _ => rfl⟩).mpr ?_
  intro pre e post hsplit _ _ e' he'
  have harchive : bundleDir.file? sampleRuntime outputJobId ⟨.string, "archive.txt", false⟩ = none := by
    decide +kernel
  rcases pre with _ | ⟨first, _ | ⟨second, pre⟩⟩
  · cases he'
  · obtain rfl : ("archive", ⟨.string, "archive.txt", false⟩) = first := (List.cons.inj hsplit).1
    obtain rfl := List.mem_singleton.mp he'
    exact harchive
  · have htwo : laterSpecs.entries.length = 2 := by decide +kernel
    rw [hsplit] at htwo
    simp at htwo

def missingSpecs : BTreeMap OutputSpec :=
  .ofList [("bundle", ⟨.artifact, "bundle", true⟩), ("checksums", ⟨.string, "checksums.txt", true⟩)]

def leftover : Option (Except JobError (BTreeMap JobOutput × Option JobError)) → BTreeMap JobOutput
  | some (.ok (outputs, some _)) => outputs
  | _ => .empty

theorem missing_output_advertises_bundle :
    ¬bundleDir.Faithful sampleRuntime outputJobId missingSpecs {} := by
  rintro ⟨hfaithful, -⟩
  let result := ((registerOutputs sampleRuntime outputJobId .empty missingSpecs.entries).play
    (bundleDir.exec sampleRuntime) (List.replicate 4 {}) ({}, 0)).result
  have hleft : ((leftover result).get "bundle").isSome = true := by decide +kernel
  rcases hresult : result with _ | error | ⟨outputs, _ | error⟩
  · rw [hresult] at hleft
    cases hleft
  · rw [hresult] at hleft
    cases hleft
  · rw [hresult] at hleft
    cases hleft
  · obtain rfl : outputs = .empty := hfaithful _ _ hresult
    rw [hresult] at hleft
    cases hleft

end Janus.Runner
