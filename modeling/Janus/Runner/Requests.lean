import Janus.Runner.Invariant

/-! `create_job` keeps to the discipline of the runner. -/

namespace Janus.Runner

open Janus.Concurrency Janus.Data Janus.Server RunnerStore

variable {R : Regime} {rt : Runtime} {r : RunnerRole} {s s' : RunnerStore} {α β : Type}

def Stable (R : Regime) (r : RunnerRole) (P : RunnerStore → Prop) : Prop :=
  ∀ s s', P s → rely R r s s' → P s'

lemma safe_request {P : RunnerStore → Prop} {c : RunnerCall}
    {post : Except JobError c.Result → RunnerStore → Prop} (hs : P s) (hP : Stable R r P)
    (h : ∀ s, P s → Sane R rt s → Before R rt r c s ∧ ∀ o, c.ready s = true →
      Permits R rt r c o s → post (c.exec rt o s).1 (c.exec rt o s).2) :
    Safe (runnerDiscipline R rt r) post (request c) s := by
  refine Safe.request (P := P) hs (fun s s' hp hr _ => hP s s' hp hr) fun s' hp hi => ?_
  obtain ⟨hb, hx⟩ := h s' hp hi
  refine ⟨hb, ?_⟩
  rintro x s'' ⟨o, hready, he, hpermits⟩
  have hpost := hx o hready hpermits
  rwa [he] at hpost

lemma safe_call {P : RunnerStore → Prop} {c : RunnerCall} {f : c.Result → RunnerTask α}
    {post : Except JobError α → RunnerStore → Prop} (hs : P s) (hP : Stable R r P)
    (h : ∀ s, P s → Sane R rt s → Before R rt r c s ∧ ∀ o, c.ready s = true →
      Permits R rt r c o s → onOk post (fun a s' => Safe (runnerDiscipline R rt r) post (f a) s')
        (c.exec rt o s).1 (c.exec rt o s).2) :
    Safe (runnerDiscipline R rt r) post (request c >>= f) s :=
  Safe.bind (safe_request hs hP h)

lemma onOk_io {Q : α → RunnerStore → Prop} {post : Except JobError β → RunnerStore → Prop}
    {o : Outcome} {error : String → JobError} {a : Except JobError α × RunnerStore}
    (herror : ∀ source, o.fails = some source → post (.error (error source)) s)
    (hok : o.fails = none → onOk post Q a.1 a.2) :
    onOk post Q (o.io error s a).1 (o.io error s a).2 := by
  unfold Outcome.io
  split
  · next source h => exact herror source h
  · next h => exact hok h

lemma onOk_readMetadata {Q : MetadataFile → RunnerStore → Prop}
    {post : Except JobError β → RunnerStore → Prop} {o : Outcome} {jobId : String}
    (herror : ∀ source, o.fails = some source →
      post (.error (.readFile (jobPath rt jobId "metadata.json") source)) s)
    (hmissing : (s.dir jobId).metadata = none → Q .missing s)
    (hinvalid : ∀ metadata, (s.dir jobId).metadata = some metadata → rt.readsBack metadata = false →
      Q (.invalid o.text) s)
    (hread : ∀ metadata, (s.dir jobId).metadata = some metadata → rt.readsBack metadata = true →
      Q (.metadata metadata) s) :
    onOk post Q (RunnerCall.exec rt (.readMetadata jobId) o s).1
      (RunnerCall.exec rt (.readMetadata jobId) o s).2 := by
  refine onOk_io herror fun _ => ?_
  rcases hd : (s.dir jobId).metadata with _ | metadata
  · exact hmissing hd
  · cases hb : rt.readsBack metadata with
    | false =>
      simp only [hb]
      exact hinvalid metadata hd hb
    | true =>
      simp only [hb]
      exact hread metadata hd hb

section

variable (R : Regime) (rt : Runtime) (n : ℕ) (name key : String) (body : Bytes) (L : List Answer)

def RepeatsIn : Prop :=
  ∃ a ∈ L, a.name = name ∧ a.idempotencyKey = key ∧ a.body = body ∧ a.result.isOk = true

def MustAnswer : Prop := R.durable ∧ R.calm ∧ RepeatsIn name key body L

structure Requesting (s : RunnerStore) : Prop where
  serving : s.serving = true
  arrived : ∃ k ≤ s.history.answers.length, s.history.arrived.lookup n = some k ∧
    s.history.answers.take k = L
  keeps : MustAnswer R name key body L → s.Keeps (requestIdentity rt name key body)

structure Locking (s : RunnerStore) : Prop extends Requesting R rt n name key body L s where
  lock : s.createLock = some n

structure Starting (s : RunnerStore) : Prop extends Locking R rt n name key body L s where
  fresh : jobIdForIdempotencyKey rt key ∉ s.jobIds
  absent : (s.dir (jobIdForIdempotencyKey rt key)).metadata = none
  launched : (s.dir (jobIdForIdempotencyKey rt key)).launched = false

structure Started (s : RunnerStore) : Prop extends Locking R rt n name key body L s where
  inserted : n ∈ s.inserted
  fresh : jobIdForIdempotencyKey rt key ∉ s.jobIds
  unfinished : s.Unfinished (jobIdForIdempotencyKey rt key)
  launched : (s.dir (jobIdForIdempotencyKey rt key)).launched = false
  kept : s.Keeps (requestIdentity rt name key body)

end

variable {n : ℕ} {name key : String} {body : Bytes} {L : List Answer}

lemma Requesting.stable :
    Stable R (.create n name key body) (Requesting R rt n name key body L) := by
  intro s s' h hr
  obtain ⟨k, hk, hl, ht⟩ := h.arrived
  refine ⟨hr.serving h.serving, ⟨k, hk.trans hr.answers.length_le, hr.arrived n k hl, ?_⟩,
    fun hm => hr.keeps _ (h.keeps hm)⟩
  obtain ⟨rest, hrest⟩ := hr.answers
  rw [← hrest, List.take_append_of_le_length hk, ht]

lemma Locking.stable : Stable R (.create n name key body) (Locking R rt n name key body L) :=
  fun s s' h hr => ⟨Requesting.stable s s' h.toRequesting hr, (hr.lock n rfl h.lock).1⟩

lemma Starting.stable : Stable R (.create n name key body) (Starting R rt n name key body L) := by
  intro s s' h hr
  have hl := (hr.lock n rfl h.lock).2
  exact ⟨Locking.stable s s' h.toLocking hr, hl.jobIds _ h.fresh, hl.absent _ h.fresh h.absent,
    (hl.launched _ h.fresh).trans h.launched⟩

lemma Started.stable : Stable R (.create n name key body) (Started R rt n name key body L) := by
  intro s s' h hr
  have hl := (hr.lock n rfl h.lock).2
  exact ⟨Locking.stable s s' h.toLocking hr, hr.inserted n h.inserted, hl.jobIds _ h.fresh,
    hl.unfinished _ h.fresh h.unfinished, (hl.launched _ h.fresh).trans h.launched,
    hr.keeps _ h.kept⟩

lemma Requesting.repeats_iff (h : Requesting R rt n name key body L s) :
    s.Repeats n name key body ↔ RepeatsIn name key body L := by
  obtain ⟨k, -, hl, ht⟩ := h.arrived
  constructor
  · rintro ⟨k', hk', a, ha, hsame⟩
    cases hl.symm.trans hk'
    exact ⟨a, ht ▸ ha, hsame⟩
  · rintro ⟨a, ha, hsame⟩
    exact ⟨k, hl, a, ht ▸ ha, hsame⟩

lemma Requesting.calm (h : Requesting R rt n name key body L s) (hm : MustAnswer R name key body L)
    {c : RunnerCall} {o : Outcome} (hp : Permits R rt (.create n name key body) c o s) :
    CalmStep c o s :=
  hp.calm hm.2.1 n name key body rfl (h.repeats_iff.mpr hm.2.2)

structure InputsChecked (rt : Runtime) (manifest : JobManifest) (inputs : BTreeMap Value) : Prop where
  missing : missingInput manifest inputs = none
  unknown : unknownInput manifest inputs = none
  values : ∀ e ∈ inputs.entries, ∃ artifact, checkInput rt manifest e.1 e.2 = .ok artifact

def Locked (R : Regime) (rt : Runtime) (n : ℕ) (name key : String) (body : Bytes) (L : List Answer)
    (shows : α → RunnerStore → Prop) (x : Except JobError α) (s : RunnerStore) : Prop :=
  Locking R rt n name key body L s ∧ (∀ a, x = .ok a → shows a s) ∧
    (MustAnswer R name key body L → ∃ a, x = .ok a)

lemma Locked.ok {shows : α → RunnerStore → Prop} {a : α} (h : Locking R rt n name key body L s)
    (ha : shows a s) : Locked R rt n name key body L shows (.ok a) s :=
  ⟨h, fun b hb => by cases hb; exact ha, fun _ => ⟨a, rfl⟩⟩

lemma Locked.error {shows : α → RunnerStore → Prop} {e : JobError}
    (h : Locking R rt n name key body L s) (hn : ¬ MustAnswer R name key body L) :
    Locked R rt n name key body L shows (.error e) s :=
  ⟨h, fun _ hb => (nomatch hb), fun hm => (hn hm).elim⟩

lemma Locked.bind {shows : α → RunnerStore → Prop} {shows' : β → RunnerStore → Prop}
    {p : RunnerTask α} {f : α → RunnerTask β}
    (hp : Safe (runnerDiscipline R rt (.create n name key body))
      (Locked R rt n name key body L shows) p s)
    (hf : ∀ a s, Locking R rt n name key body L s → shows a s →
      Safe (runnerDiscipline R rt (.create n name key body))
        (Locked R rt n name key body L shows') (f a) s) :
    Safe (runnerDiscipline R rt (.create n name key body))
      (Locked R rt n name key body L shows') (p >>= f) s := by
  refine Safe.bind (Safe.mono ?_ hp)
  rintro (error | a) s hx
  · refine Locked.error hx.1 fun hm => ?_
    obtain ⟨_, ha⟩ := hx.2.2 hm
    cases ha
  · exact hf a s hx.1 (hx.2.1 a rfl)

lemma safe_loadArtifact (h : Locking R rt n name key body L s) (input artifactId : String) :
    Safe (runnerDiscipline R rt (.create n name key body))
      (Locked R rt n name key body L fun _ _ => True) (loadArtifact rt input artifactId) s := by
  refine safe_call h Locking.stable fun s h hs => ⟨trivial, fun o _ hp => ?_⟩
  refine onOk_io (fun source hf => ?_) fun hf => ?_
  · refine .error h fun hm => ?_
    have := (h.calm hm hp).1
    simp [hf] at this
  · rcases hg : s.artifacts.get artifactId with _ | metadata
    · dsimp only [onOk]
      refine Locked.error h fun hm => ?_
      have := (h.calm hm hp).2
      simp [hg] at this
    · refine safe_call h Locking.stable fun s h hs => ⟨trivial, fun o _ hp => ?_⟩
      refine Safe.ite (fun he => ?_) fun _ => .ok h trivial
      refine .error h fun hm => ?_
      have hnow : o.now < metadata.expiresAt := h.calm hm hp
      exact absurd (of_decide_eq_true he) (not_le.mpr hnow)

lemma safe_validateInput (h : Locking R rt n name key body L s) (manifest : JobManifest)
    (resolved : BTreeMap String) (input : String) (value : Value)
    (hadm : MustAnswer R name key body L → ∃ artifact, checkInput rt manifest input value = .ok artifact) :
    Safe (runnerDiscipline R rt (.create n name key body))
      (Locked R rt n name key body L fun _ _ =>
        ∃ artifact, checkInput rt manifest input value = .ok artifact)
      (validateInput rt manifest resolved input value) s := by
  rw [validateInput]
  rcases hc : checkInput rt manifest input value with error | artifact
  · refine Locked.error h fun hm => ?_
    obtain ⟨artifact, ha⟩ := hadm hm
    rw [hc] at ha
    cases ha
  · cases artifact with
    | none => exact Locked.ok h ⟨none, rfl⟩
    | some artifactId =>
      rw [Program.done_bind]
      exact Locked.bind (safe_loadArtifact h input artifactId) fun _ _ h _ => Locked.ok h ⟨_, rfl⟩

lemma safe_validateEntries (manifest : JobManifest) {entries : List (String × Value)}
    (hadm : MustAnswer R name key body L → ∀ e ∈ entries,
      ∃ artifact, checkInput rt manifest e.1 e.2 = .ok artifact)
    (h : Locking R rt n name key body L s) (resolved : BTreeMap String) :
    Safe (runnerDiscipline R rt (.create n name key body))
      (Locked R rt n name key body L fun _ _ => ∀ e ∈ entries,
        ∃ artifact, checkInput rt manifest e.1 e.2 = .ok artifact)
      (validateEntries rt manifest resolved entries) s := by
  induction entries generalizing s resolved with
  | nil => exact Locked.ok h fun _ he => absurd he List.not_mem_nil
  | cons e entries ih =>
    refine Locked.bind (safe_validateInput h manifest resolved e.1 e.2
      fun hm => hadm hm e List.mem_cons_self) fun resolved s h he => ?_
    refine Safe.mono ?_ (ih (fun hm e he => hadm hm e (List.mem_cons_of_mem _ he)) h resolved)
    exact fun x s ⟨hl, hx, hm⟩ => ⟨hl, fun a ha => List.forall_mem_cons.mpr ⟨he, hx a ha⟩, hm⟩

lemma safe_validateInputs (manifest : JobManifest) (inputs : BTreeMap Value)
    (hadm : MustAnswer R name key body L → InputsChecked rt manifest inputs)
    (h : Locking R rt n name key body L s) :
    Safe (runnerDiscipline R rt (.create n name key body))
      (Locked R rt n name key body L fun _ _ => InputsChecked rt manifest inputs)
      (validateInputs rt manifest inputs) s := by
  rw [validateInputs]
  split
  · next name' _ hmissing =>
    refine Locked.error h fun hm => ?_
    rw [(hadm hm).missing] at hmissing
    cases hmissing
  · next name' _ hunknown =>
    refine Locked.error h fun hm => ?_
    rw [(hadm hm).unknown] at hunknown
    cases hunknown
  · next hmissing hunknown =>
    refine Safe.mono ?_ (safe_validateEntries manifest (fun hm => (hadm hm).values) h .empty)
    rintro x s' ⟨hl, hx, hm⟩
    exact ⟨hl, fun a ha => ⟨hmissing, hunknown, hx a ha⟩, hm⟩

def Created (rt : Runtime) (name key : String) (body : Bytes) (created : JobCreated)
    (s : RunnerStore) : Prop :=
  created.jobId = jobIdForIdempotencyKey rt key ∧ s.Keeps (requestIdentity rt name key body)

lemma safe_readExisting (h : Locking R rt n name key body L s) :
    Safe (runnerDiscipline R rt (.create n name key body))
      (Locked R rt n name key body L fun metadata s =>
        (s.dir (jobIdForIdempotencyKey rt key)).metadata = some metadata)
      (readMetadataFromPath rt (jobIdForIdempotencyKey rt key)) s := by
  refine safe_call h Locking.stable fun s h hs => ⟨trivial, fun o _ hp =>
    onOk_readMetadata (fun source hf => ?_) (fun hd => ?_) (fun metadata hd hb => ?_)
      fun metadata hd _ => .ok h hd⟩
  · refine Locked.error h fun hm => ?_
    have hfails : o.fails = none := h.calm hm hp
    rw [hf] at hfails
    cases hfails
  · refine Locked.error h fun hm => ?_
    obtain ⟨metadata, hk, -⟩ := h.keeps hm
    cases hd.symm.trans hk
  · refine Locked.error h fun hm => ?_
    rw [(hs.lasting hm.1).readable _ _ hd] at hb
    cases hb

lemma safe_loadExistingJobForRequest (h : Locking R rt n name key body L s) :
    Safe (runnerDiscipline R rt (.create n name key body))
      (Locked R rt n name key body L (Created rt name key body))
      (loadExistingJobForRequest rt (requestIdentity rt name key body)) s := by
  refine Locked.bind (safe_readExisting h) fun metadata s h hd => Safe.ite (fun hne => ?_) fun heq => ?_
  · refine Locked.error h fun hm => ?_
    obtain ⟨kept, hk, hi⟩ := h.keeps hm
    cases hd.symm.trans hk
    exact hne hi
  · have hid := not_not.mp heq
    exact Locked.ok h ⟨congrArg JobIdentity.jobId hid, metadata, hd, hid⟩

lemma Starting.not_mustAnswer (h : Starting R rt n name key body L s) :
    ¬ MustAnswer R name key body L := by
  intro hm
  obtain ⟨metadata, hk, -⟩ := h.keeps hm
  cases h.absent.symm.trans hk

def Inserted (R : Regime) (rt : Runtime) (n : ℕ) (name key : String) (body : Bytes)
    (L : List Answer) (s : RunnerStore) : Prop :=
  Starting R rt n name key body L s ∧ n ∈ s.inserted

lemma Inserted.stable : Stable R (.create n name key body) (Inserted R rt n name key body L) :=
  fun s s' h hr => ⟨Starting.stable s s' h.1 hr, hr.inserted n h.2⟩

lemma Starting.createDir {jobId : String} (h : Starting R rt n name key body L s) :
    Starting R rt n name key body L (s.setDir jobId (s.dir jobId)) where
  serving := h.serving
  arrived := h.arrived
  keeps hm := (h.not_mustAnswer hm).elim
  lock := h.lock
  fresh := h.fresh
  absent := by rw [dir_createDir, h.absent]
  launched := by rw [dir_createDir, h.launched]

lemma Inserted.started {job : JobMetadata} (h : Inserted R rt n name key body L s)
    (hi : job.identity = requestIdentity rt name key body) (hs : job.status = .running) :
    Started R rt n name key body L (s.persist (jobIdForIdempotencyKey rt key) job) where
  serving := h.1.serving
  arrived := h.1.arrived
  keeps hm := (h.1.not_mustAnswer hm).elim
  lock := h.1.lock
  inserted := h.2
  fresh := h.1.fresh
  unfinished := ⟨job, by rw [metadata_persist, if_pos rfl], by rw [hs]; rfl⟩
  launched := by rw [launched_persist, h.1.launched]
  kept := ⟨job, by rw [requestIdentity, metadata_persist, if_pos rfl], hi⟩

def SetUp (R : Regime) (rt : Runtime) (n : ℕ) (name key : String) (body : Bytes) (L : List Answer)
    (x : Except JobError Unit) (s : RunnerStore) : Prop :=
  Locking R rt n name key body L s ∧ (x = .ok () → Started R rt n name key body L s) ∧
    ¬ MustAnswer R name key body L

lemma Inserted.failed {e : JobError} (h : Inserted R rt n name key body L s) :
    SetUp R rt n name key body L (.error e) s :=
  ⟨h.1.toLocking, fun hx => (nomatch hx), h.1.not_mustAnswer⟩

lemma safe_createDirAll {sub : String} {f : Unit → RunnerTask Unit}
    (h : Inserted R rt n name key body L s)
    (hf : ∀ s, Inserted R rt n name key body L s →
      Safe (runnerDiscipline R rt (.create n name key body)) (SetUp R rt n name key body L) (f ()) s) :
    Safe (runnerDiscipline R rt (.create n name key body)) (SetUp R rt n name key body L)
      (request (.createDirAll n (jobIdForIdempotencyKey rt key) sub) >>= f) s := by
  refine safe_call h Inserted.stable fun s h _ => ⟨⟨rfl, h.1.lock, h.1.absent⟩, fun o _ _ => ?_⟩
  have hdir : Inserted R rt n name key body L
      (s.setDir (jobIdForIdempotencyKey rt key) (s.dir (jobIdForIdempotencyKey rt key))) :=
    ⟨h.1.createDir, h.2⟩
  simp only [RunnerCall.exec]
  split
  · split
    · exact hdir.failed
    · exact h.failed
  · exact hf _ hdir

lemma safe_writeFile {file : String} {f : Unit → RunnerTask Unit}
    (h : Inserted R rt n name key body L s)
    (hf : ∀ s, Inserted R rt n name key body L s →
      Safe (runnerDiscipline R rt (.create n name key body)) (SetUp R rt n name key body L) (f ()) s) :
    Safe (runnerDiscipline R rt (.create n name key body)) (SetUp R rt n name key body L)
      (request (.writeFile (jobIdForIdempotencyKey rt key) file) >>= f) s :=
  safe_call h Inserted.stable fun s h _ => ⟨trivial, fun _ _ _ =>
    onOk_io (fun _ _ => h.failed) fun _ => hf s h⟩

lemma safe_setupJob {job : JobMetadata} (h : Inserted R rt n name key body L s)
    (hi : job.identity = requestIdentity rt name key body) (hs : job.status = .running) :
    Safe (runnerDiscipline R rt (.create n name key body)) (SetUp R rt n name key body L)
      (setupJob n job) s := by
  have hid : job.jobId = jobIdForIdempotencyKey rt key := congrArg JobIdentity.jobId hi
  have hkey : job.idempotencyKey = key := congrArg JobIdentity.idempotencyKey hi
  rw [setupJob, hid]
  refine safe_createDirAll h fun s h => safe_createDirAll h fun s h => ?_
  refine safe_writeFile h fun s h => safe_writeFile h fun s h => ?_
  refine safe_request h Inserted.stable fun s h _ => ⟨?_, fun o _ _ => ?_⟩
  · exact ⟨rfl, h.1.lock, h.1.absent, hid, by rw [hkey], hs⟩
  · simp only [RunnerCall.exec, Outcome.io]
    split
    · exact h.failed
    · have hstarted := h.started hi hs
      exact ⟨hstarted.toLocking, fun _ => hstarted, h.1.not_mustAnswer⟩

lemma safe_startJob (h : Starting R rt n name key body L s) {manifest : JobManifest}
    (hget : rt.manifests.get name = some manifest) (inputs : BTreeMap Value) (logLimitBytes : ℕ)
    (resolved : BTreeMap String) :
    Safe (runnerDiscipline R rt (.create n name key body))
      (Locked R rt n name key body L (Created rt name key body))
      (startJob n manifest inputs logLimitBytes (requestIdentity rt name key body) resolved) s := by
  obtain rfl : manifest.name = name := rt.manifests.named name manifest hget
  refine Safe.bind (safe_call h Starting.stable fun s h _ => ⟨trivial, fun o _ _ => ?_⟩)
  refine safe_call h Starting.stable fun s h _ => ⟨⟨_, hget⟩, fun o _ _ => ?_⟩
  simp only [RunnerCall.exec]
  split
  · exact .error h.toLocking h.not_mustAnswer
  · refine Safe.bind (Safe.attempt (Safe.mono ?_ (safe_setupJob (L := L) ⟨⟨⟨⟨h.serving, h.arrived,
      fun hm => (h.not_mustAnswer hm).elim⟩, h.lock⟩, h.fresh, h.absent, h.launched⟩,
      List.mem_cons_self⟩ ?_ rfl)))
    · rintro (error | ⟨⟨⟩⟩) s ⟨hl, hs, hn⟩
      · refine safe_call hl Locking.stable fun s hl _ => ⟨trivial, fun o _ _ => ?_⟩
        exact .error ⟨⟨hl.serving, hl.arrived, fun hm => (hn hm).elim⟩, hl.lock⟩ hn
      · refine safe_call (hs rfl) Started.stable fun s h _ => ⟨?_, fun o _ _ => ?_⟩
        · exact ⟨rfl, h.lock, h.serving, h.inserted, rfl, rfl, h.fresh, h.kept, h.unfinished,
            h.launched⟩
        · exact .ok ⟨⟨h.serving, h.arrived, fun hm => (hn hm).elim⟩, h.lock⟩ ⟨rfl, h.kept⟩
    · rfl

lemma Locking.starting (h : Locking R rt n name key body L s) (hs : Sane R rt s)
    (hd : s.jobDirs.containsKey (jobIdForIdempotencyKey rt key) = false) :
    Starting R rt n name key body L s := by
  have hnone : s.jobDirs.get (jobIdForIdempotencyKey rt key) = none := by
    by_contra hsome
    have hc := OrderedMap.containsKey_iff.mpr (Option.ne_none_iff_exists'.mp hsome)
    rw [hd] at hc
    cases hc
  have hdir : s.dir (jobIdForIdempotencyKey rt key) = {} := by
    rw [RunnerStore.dir, hnone, Option.getD_none]
  have habsent : (s.dir (jobIdForIdempotencyKey rt key)).metadata = none := by rw [hdir]
  exact ⟨h, hs.not_mem_jobIds habsent, habsent, by rw [hdir]⟩

lemma Created.mono {created : JobCreated} (h : Created rt name key body created s)
    (hk : ∀ identity, s.Keeps identity → s'.Keeps identity) : Created rt name key body created s' :=
  ⟨h.1, hk _ h.2⟩

structure InputsAdmissible (rt : Runtime) (name : String) (inputs : BTreeMap Value) : Prop where
  logLimit : rt.config.defaultLogLimitMb * (1024 * 1024) < 2 ^ 64
  inputs : ∃ manifest, rt.manifests.get name = some manifest ∧ InputsChecked rt manifest inputs

lemma safe_createLocked (h : Locking R rt n name key body L s) {inputs : BTreeMap Value}
    (hadm : MustAnswer R name key body L → InputsAdmissible rt name inputs) :
    Safe (runnerDiscipline R rt (.create n name key body))
      (Locked R rt n name key body L fun created s =>
        InputsAdmissible rt name inputs ∧ Created rt name key body created s)
      (createLocked rt n name key body inputs) s := by
  rw [createLocked]
  split
  · next hnone =>
    refine Locked.error h fun hm => ?_
    obtain ⟨manifest, hget, -⟩ := (hadm hm).inputs
    cases hnone.symm.trans hget
  · next manifest hget =>
    have hchecked (hm : MustAnswer R name key body L) : InputsChecked rt manifest inputs := by
      obtain ⟨manifest', hget', hchecked⟩ := (hadm hm).inputs
      cases hget.symm.trans hget'
      exact hchecked
    refine Locked.bind (safe_validateInputs manifest inputs hchecked h) fun resolved s h hin => ?_
    refine Safe.ite (fun hlimit => .error h fun hm => ?_) fun hlimit => ?_
    · exact absurd (hadm hm).logLimit (not_lt.mpr hlimit)
    have hinputs : InputsAdmissible rt name inputs := ⟨not_le.mp hlimit, manifest, hget, hin⟩
    have hshow {p : RunnerTask JobCreated} {s : RunnerStore}
        (hp : Safe (runnerDiscipline R rt (.create n name key body))
          (Locked R rt n name key body L (Created rt name key body)) p s) :
        Safe (runnerDiscipline R rt (.create n name key body))
          (Locked R rt n name key body L fun created s =>
            InputsAdmissible rt name inputs ∧ Created rt name key body created s) p s :=
      hp.mono fun x s ⟨hl, hc, hm⟩ => ⟨hl, fun created hx => ⟨hinputs, hc created hx⟩, hm⟩
    refine safe_call h Locking.stable fun s h hs => ⟨trivial, fun o _ _ => ?_⟩
    refine Safe.ite (fun _ => hshow (safe_loadExistingJobForRequest h)) fun hd => ?_
    exact hshow (safe_startJob (h.starting hs (Bool.eq_false_iff.mpr hd)) hget _ _ _)

def Result (R : Regime) (rt : Runtime) (n : ℕ) (name key : String) (body : Bytes) (L : List Answer)
    (shows : Prop) (x : Except JobError JobCreated) (s : RunnerStore) : Prop :=
  Requesting R rt n name key body L s ∧
    (∀ created, x = .ok created → shows ∧ Created rt name key body created s) ∧
    (MustAnswer R name key body L → (∃ created, x = .ok created) ∨ s.shuttingDown = true)

lemma Result.stable {shows : Prop} {x : Except JobError JobCreated} :
    Stable R (.create n name key body) (Result R rt n name key body L shows x) :=
  fun s s' ⟨h, hc, hm⟩ hr => ⟨Requesting.stable s s' h hr,
    fun created hx => ⟨(hc created hx).1, (hc created hx).2.mono hr.keeps⟩,
    fun h => (hm h).imp_right hr.shuttingDown⟩

lemma Result.error {shows : Prop} {e : JobError} (h : Requesting R rt n name key body L s)
    (hn : MustAnswer R name key body L → s.shuttingDown = true) :
    Result R rt n name key body L shows (.error e) s :=
  ⟨h, fun _ hx => (nomatch hx), fun hm => .inr (hn hm)⟩

lemma Requesting.locked (h : Requesting R rt n name key body L s) :
    Locking R rt n name key body L { s with createLock := some n } :=
  ⟨⟨h.serving, h.arrived, h.keeps⟩, rfl⟩

lemma safe_createJob (h : Requesting R rt n name key body L s) {inputs : BTreeMap Value}
    (hadm : MustAnswer R name key body L →
      validateIdempotencyKey key = .ok () ∧ InputsAdmissible rt name inputs) :
    Safe (runnerDiscipline R rt (.create n name key body))
      (Result R rt n name key body L
        (validateIdempotencyKey key = .ok () ∧ InputsAdmissible rt name inputs))
      (createJob rt n name key body inputs) s := by
  refine safe_call h Requesting.stable fun s h _ => ⟨trivial, fun o _ _ => ?_⟩
  refine Safe.ite (fun hdown => .error h fun _ => hdown) fun _ => ?_
  rcases hkey : validateIdempotencyKey key with error | ⟨⟨⟩⟩
  · refine Result.error h fun hm => ?_
    cases hkey.symm.trans (hadm hm).1
  · rw [Program.done_bind]
    refine safe_call h Requesting.stable fun s h _ => ⟨rfl, fun o _ _ => ?_⟩
    refine Safe.bind (Safe.attempt (Safe.mono ?_ (safe_createLocked h.locked fun hm => (hadm hm).2)))
    intro x s hx
    refine safe_call (P := fun s => Locking R rt n name key body L s ∧ Result R rt n name key body L
        (.ok () = (.ok () : Except JobError Unit) ∧ InputsAdmissible rt name inputs) x s)
      ⟨hx.1, hx.1.toRequesting, fun created hc => ?_, fun hm => .inl (hx.2.2 hm)⟩
      (fun s s' ⟨h, hx⟩ hr => ⟨Locking.stable s s' h hr, Result.stable s s' hx hr⟩)
      fun s h _ => ⟨⟨rfl, h.1.lock⟩, fun o _ _ => ?_⟩
    · exact ⟨⟨rfl, (hx.2.1 created hc).1⟩, (hx.2.1 created hc).2⟩
    · obtain ⟨-, hr, hc, hm⟩ := h
      exact ⟨⟨hr.serving, hr.arrived, hr.keeps⟩, hc, hm⟩

lemma safe_createJobRequest (h : Requesting R rt n name key body L s)
    (hadm : MustAnswer R name key body L → Admissible rt name key body) :
    Safe (runnerDiscipline R rt (.create n name key body))
      (Result R rt n name key body L (Admissible rt name key body))
      (createJobRequest rt n name key body) s := by
  rw [createJobRequest]
  split
  · next source hp =>
    refine Result.error h fun hm => ?_
    obtain ⟨value, fields, manifest, hv, -⟩ := (hadm hm).inputs
    cases hp.symm.trans hv
  · next value hp =>
    split
    · next ho =>
      refine Result.error h fun hm => ?_
      obtain ⟨value', fields, manifest, hv, hf, -⟩ := (hadm hm).inputs
      cases hp.symm.trans hv
      cases ho.symm.trans hf
    · next fields ho =>
      refine Safe.mono ?_ (safe_createJob h fun hm => ⟨(hadm hm).key, (hadm hm).logLimit, ?_⟩)
      · rintro x s ⟨hr, hc, hm⟩
        refine ⟨hr, fun created hx => ⟨?_, (hc created hx).2⟩, hm⟩
        obtain ⟨hkey, hlimit, manifest, hget, hin⟩ := (hc created hx).1
        exact ⟨hkey, hlimit, value, fields, manifest, hp, ho, hget, hin.missing, hin.unknown,
          hin.values⟩
      · obtain ⟨value', fields', manifest, hv, hf, hget, hmissing, hunknown, hvalues⟩ :=
          (hadm hm).inputs
        cases hp.symm.trans hv
        cases ho.symm.trans hf
        exact ⟨manifest, hget, hmissing, hunknown, hvalues⟩

theorem safe_createRole (s : RunnerStore) :
    Safe (runnerDiscipline R rt (.create n name key body)) (fun _ _ => True)
      (createRole rt n name key body) s := by
  refine safe_call (P := fun _ => True) trivial (fun _ _ _ _ => trivial) fun s _ hs =>
    ⟨rfl, fun o hready _ => ?_⟩
  have hanswered (hm : MustAnswer R name key body s.history.answers) :
      ∃ created, Answered rt s name key body created := by
    obtain ⟨hd, -, a, ha, rfl, rfl, rfl, hok⟩ := hm
    cases hr : a.result with
    | error e => simp [hr, Except.isOk, Except.toBool] at hok
    | ok created => exact ⟨created, (hs.lasting hd).answers a ha created hr⟩
  have hserving : s.serving = true := by
    simp only [RunnerCall.ready, Bool.and_eq_true] at hready
    exact hready.1
  refine Safe.bind (Safe.attempt (Safe.mono ?_ (safe_createJobRequest (L := s.history.answers)
    ⟨hserving, ⟨_, le_rfl, ?_, List.take_length⟩, fun hm => ?_⟩ fun hm => ?_)))
  · intro x s hx
    refine safe_request hx Result.stable fun s hs _ => ?_
    obtain ⟨h, hc, hm⟩ := hs
    refine ⟨⟨rfl, ?_, ?_, ?_⟩, fun _ _ _ => trivial⟩
    · obtain ⟨k, hk, hl, -⟩ := h.arrived
      exact ⟨k, hk, hl⟩
    · exact fun created hx => ⟨(hc created hx).1, (hc created hx).2.1, (hc created hx).2.2⟩
    · intro hd hcalm hrep hup
      refine (hm ⟨hd, hcalm, h.repeats_iff.mp hrep⟩).resolve_right fun hdown => ?_
      cases hup.symm.trans hdown
  · simp [RunnerCall.exec]
  · obtain ⟨created, h⟩ := hanswered hm
    exact h.keeps
  · obtain ⟨created, h⟩ := hanswered hm
    exact h.admissible

end Janus.Runner
