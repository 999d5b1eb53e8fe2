import Janus.Runner.Runs

/-! Which jobs run beside each other, and what a refused request leaves behind. -/

namespace Janus.Runner

open Janus.Concurrency Janus.Data Janus.Server RunnerStore

variable {rt : Runtime} {s s' : RunnerStore} {α β : Type}

structure Exclusive (rt : Runtime) (runningJobs : BTreeMap RunningJob) : Prop where
  global : ∀ e ∈ runningJobs.entries, e.2.concurrency = .globalExclusive →
    ∀ e' ∈ runningJobs.entries, e' = e
  job : ∀ name manifest, rt.manifests.get name = some manifest →
    manifest.concurrency = .jobExclusive → ∀ e ∈ runningJobs.entries, e.2.name = name →
    ∀ e' ∈ runningJobs.entries, e'.2.name = name → e' = e

lemma enforceConcurrency_ok {manifest : JobManifest} {runningJobs : BTreeMap RunningJob}
    (h : enforceConcurrency manifest runningJobs = .ok ()) {e : String × RunningJob}
    (he : e ∈ runningJobs.entries) : manifest.concurrency ≠ .globalExclusive ∧
      e.2.concurrency ≠ .globalExclusive ∧
      (manifest.concurrency = .jobExclusive → e.2.name ≠ manifest.name) := by
  have hvalue : e.2 ∈ runningJobs.values := List.mem_map_of_mem he
  rw [enforceConcurrency] at h
  split at h
  · next hc =>
    split at h
    · cases h
    · next hnone =>
      simp only [List.any_eq_true, decide_eq_true_eq, not_exists, not_and] at hnone
      exact ⟨by simp [hc], hnone _ hvalue, by simp [hc]⟩
  · next hc =>
    split at h
    · cases h
    · next hnone =>
      have hfree := List.find?_eq_none.mp hnone _ hvalue
      simp only [decide_eq_true_eq, not_or] at hfree
      exact ⟨by simp [hc], hfree.1, fun _ => hfree.2⟩
  · split at h
    · next hempty =>
      rw [List.isEmpty_iff.mp hempty] at hvalue
      cases hvalue
    · cases h

lemma Exclusive.insert {manifest : JobManifest} {runningJobs : BTreeMap RunningJob} {name jobId : String}
    {n : ℕ} (h : Exclusive rt runningJobs)
    (hget : rt.manifests.get name = some manifest)
    (free : enforceConcurrency manifest runningJobs = .ok ()) :
    Exclusive rt
      (runningJobs.insert jobId ⟨jobId, manifest.name, manifest.concurrency, n⟩) := by
  have hname := rt.manifests.named name manifest hget
  refine ⟨fun e he hglobal e' he' => ?_, fun name' manifest' hget' hjob e he hn e' he' hn' => ?_⟩
  · rcases OrderedMap.mem_insert.mp he with rfl | ⟨he, -⟩
    · rcases OrderedMap.mem_insert.mp he' with rfl | ⟨he', -⟩
      · rfl
      · exact absurd hglobal (enforceConcurrency_ok free he').1
    · exact absurd hglobal (enforceConcurrency_ok free he).2.1
  · -- A job of this name beside the new one is excluded from the side of the new one.
    have hnew {e : String × RunningJob} (he : e ∈ runningJobs.entries) (hn : e.2.name = name')
        (hsame : manifest.name = name') : False := by
      subst hname hsame
      cases hget.symm.trans hget'
      exact (enforceConcurrency_ok free he).2.2 hjob hn
    rcases OrderedMap.mem_insert.mp he with rfl | ⟨he, -⟩
    · rcases OrderedMap.mem_insert.mp he' with rfl | ⟨he', -⟩
      · rfl
      · exact (hnew he' hn' hn).elim
    · rcases OrderedMap.mem_insert.mp he' with rfl | ⟨he', -⟩
      · exact (hnew he hn hn').elim
      · exact h.job name' manifest' hget' hjob e he hn e' he' hn'

lemma Exclusive.subset {runningJobs runningJobs' : BTreeMap RunningJob} (h : Exclusive rt runningJobs)
    (hsub : ∀ e ∈ runningJobs'.entries, e ∈ runningJobs.entries) : Exclusive rt runningJobs' where
  global e he hg e' he' := h.global e (hsub e he) hg e' (hsub e' he')
  job name manifest hget hjob e he hn e' he' hn' :=
    h.job name manifest hget hjob e (hsub e he) hn e' (hsub e' he') hn'

lemma Exclusive.step {R : Regime} {r : RunnerRole} {c : RunnerCall} {x : Except JobError c.Result}
    (h : Exclusive rt s.runningJobs) (hb : Before R rt r c s)
    (he : c.Effect rt s x s') : Exclusive rt s'.runningJobs := by
  cases he with
  | admitted n manifest jobId free =>
    obtain ⟨name, hget⟩ := hb
    exact h.insert hget free
  | removeRunning jobId => exact h.subset fun _ => mem_entries_of_remove
  | persisted writer jobId metadata =>
    rw [runningJobs_release]
    exact h
  | unpersisted writer jobId metadata =>
    rw [runningJobs_release]
    exact h
  | _ => exact h

def RunnerCall.Refuses : RunnerCall → Prop
  | .respond _ _ _ _ (.error (.concurrencyConflict _)) => True
  | _ => False

def RunnerCall.writesJobs : RunnerCall → Bool
  | .createDirAll _ _ _ | .writeFile _ _ | .persistMetadata _ _ _ | .removeWorkDir _
  | .removeJobDir _ => true
  | _ => false

def Untouched (rt : Runtime) (c : RunnerCall) (o : Outcome) (s : RunnerStore) : Prop :=
  c.writesJobs = false ∧ (c.exec rt o s).2.runningJobs = s.runningJobs ∧
    (c.exec rt o s).2.jobDirs = s.jobDirs

def RunnerCall.Quiet (c : RunnerCall) : Prop := ∀ rt o s, Untouched rt c o s

def JobError.IsConflict : JobError → Prop
  | .concurrencyConflict _ => True
  | _ => False

def Conflict (x : Except JobError α) : Prop := ∃ e, x = .error e ∧ e.IsConflict

lemma not_conflict_ok (a : α) : ¬ Conflict (.ok a) := fun ⟨_, he, _⟩ => (nomatch he)

lemma not_conflict_error {e : JobError} (h : ¬ e.IsConflict) : ¬ Conflict (.error e : Except JobError α) := by
  rintro ⟨e, he, hc⟩
  cases he
  exact h hc

lemma isConflict_of_conflict {e : JobError} (h : ¬ Conflict (.error e : Except JobError α)) :
    ¬ e.IsConflict := fun hc => h ⟨e, rfl, hc⟩

def refusals (rt : Runtime) : Discipline RunnerCall RunnerCall.Result JobError RunnerStore where
  rely _ _ := True
  inv _ := True
  admits c s x s' := ∃ o, c.exec rt o s = (x, s')
  before c _ := ¬ c.Refuses

def Committed (rt : Runtime) (p : RunnerTask α) : Prop :=
  ∀ s, Safe (refusals rt) (fun x _ => ¬ Conflict x) p s

/-- A program that touches `running_jobs` or the directory of the jobs only once it no longer
refuses. -/
def Clean (rt : Runtime) : RunnerTask α → Prop
  | .done _ => True
  | .call c next => ∀ o s, (Untouched rt c o s ∧ Clean rt (next (c.exec rt o s).1)) ∨
      Committed rt (next (c.exec rt o s).1)

lemma Clean.bind {p : RunnerTask α} {f : α → RunnerTask β} (hp : p.Only RunnerCall.Quiet)
    (hf : ∀ a, Clean rt (f a)) : Clean rt (p >>= f) := by
  induction p with
  | done r =>
    cases r with
    | ok a => exact hf a
    | error e => trivial
  | call c next ih => exact fun o s => .inl ⟨hp.1 rt o s, ih _ (hp.2 _)⟩

lemma Committed.attempt {p : RunnerTask α} {f : Except JobError α → RunnerTask β}
    (hp : Committed rt p) (hf : ∀ x, ¬ Conflict x → Committed rt (f x)) :
    Committed rt (p.attempt >>= f) :=
  fun s => Safe.bind (Safe.attempt ((hp s).mono fun x s hx => hf x hx s))

lemma Clean.attempt {p : RunnerTask α} {f : Except JobError α → RunnerTask β} (hp : Clean rt p)
    (hclean : ∀ x, Clean rt (f x)) (hf : ∀ x, ¬ Conflict x → Committed rt (f x)) :
    Clean rt (p.attempt >>= f) := by
  induction p with
  | done r => exact hclean r
  | call c next ih =>
    intro o s
    rcases hp o s with ⟨hu, hnext⟩ | hnext
    · exact .inl ⟨hu, ih _ hnext⟩
    · exact .inr (hnext.attempt hf)

def RunnerCall.Looking : RunnerCall → Prop
  | .arrive _ | .loadShuttingDown | .lockCreate _ | .unlockCreate _ | .loadArtifactMetadata _
  | .isExpired _ | .now | .jobDirExists _ | .readMetadata _ | .respond _ _ _ _ _ => True
  | _ => False

lemma RunnerCall.Looking.quiet {c : RunnerCall} (h : c.Looking) : c.Quiet := by
  intro rt o s
  refine ⟨by cases c <;> first | rfl | exact h.elim, ?_⟩
  have hsame {c : RunnerCall} (hs : (c.exec rt o s).2 = s) :
      (c.exec rt o s).2.runningJobs = s.runningJobs ∧ (c.exec rt o s).2.jobDirs = s.jobDirs := by
    rw [hs]
    exact ⟨rfl, rfl⟩
  cases c with
  | loadArtifactMetadata artifactId => exact hsame (io_store (A := (· = s)) rfl (by split <;> rfl))
  | readMetadata jobId => exact hsame (io_store (A := (· = s)) rfl (by split <;> rfl))
  | arrive | loadShuttingDown | lockCreate | unlockCreate | isExpired | now | jobDirExists
  | respond => exact ⟨rfl, rfl⟩
  | _ => exact h.elim

def RunnerCall.Reading : RunnerCall → Prop
  | .loadArtifactMetadata _ | .isExpired _ | .readMetadata _ => True
  | _ => False

lemma RunnerCall.Reading.looking {c : RunnerCall} (h : c.Reading) : c.Looking := by
  cases c <;> trivial

lemma loadArtifact_only (name artifactId : String) :
    (loadArtifact rt name artifactId).Only RunnerCall.Reading := by
  refine .bind (Program.Only.request_iff.mpr trivial) fun metadata => ?_
  refine .bind (Program.Only.request_iff.mpr trivial) fun expired => ?_
  cases (expired : Bool) with
  | true => exact Program.Only.fail _
  | false => exact Program.Only.pure _

lemma validateEntries_only (manifest : JobManifest) (resolved : BTreeMap String)
    (entries : List (String × Value)) :
    (validateEntries rt manifest resolved entries).Only RunnerCall.Reading := by
  induction entries generalizing resolved with
  | nil => exact Program.Only.pure _
  | cons e entries ih =>
    refine .bind (.bind (Program.Only.done _) fun artifact => ?_) fun resolved => ih resolved
    cases artifact with
    | none => exact Program.Only.pure _
    | some artifactId => exact .bind (loadArtifact_only e.1 artifactId) fun _ => Program.Only.pure _

variable (rt) in
lemma validateInputs_only (manifest : JobManifest) (inputs : BTreeMap Value) :
    (validateInputs rt manifest inputs).Only RunnerCall.Reading := by
  rw [validateInputs]
  split
  · exact Program.Only.fail _
  · exact Program.Only.fail _
  · exact validateEntries_only manifest .empty inputs.entries

lemma readMetadataFromPath_only (jobId : String) :
    (readMetadataFromPath rt jobId).Only RunnerCall.Reading := by
  refine .bind (Program.Only.request_iff.mpr trivial) fun file => ?_
  cases (file : MetadataFile) with
  | missing => exact Program.Only.fail _
  | invalid source => exact Program.Only.fail _
  | metadata metadata => exact Program.Only.pure _

lemma loadExistingJobForRequest_only (identity : JobIdentity) :
    (loadExistingJobForRequest rt identity).Only RunnerCall.Reading := by
  refine .bind (readMetadataFromPath_only _) fun metadata => ?_
  split
  · exact Program.Only.fail _
  · exact Program.Only.pure _

lemma clean_done (x : Except JobError α) : Clean rt (.done x) := trivial

lemma clean_of_looking {p : RunnerTask α} (hp : p.Only RunnerCall.Looking) : Clean rt p := by
  induction p with
  | done x => trivial
  | call c next ih => exact fun o s => .inl ⟨hp.1.quiet rt o s, ih _ (hp.2 _)⟩

lemma clean_bind {p : RunnerTask α} {f : α → RunnerTask β} (hp : p.Only RunnerCall.Looking)
    (hf : ∀ a, Clean rt (f a)) : Clean rt (p >>= f) :=
  .bind (hp.mono fun _ => RunnerCall.Looking.quiet) hf

lemma io_conflict {o : Outcome} {error : String → JobError} {x : Except JobError α}
    (herror : ∀ source, ¬ (error source).IsConflict) (hx : ¬ Conflict x) :
    ¬ Conflict (o.io error s (x, s')).1 := by
  unfold Outcome.io
  split
  · exact not_conflict_error (herror _)
  · exact hx

variable (rt) in
lemma writesJobs_conflict {c : RunnerCall} (hw : c.writesJobs = true) (o : Outcome)
    (s : RunnerStore) : ¬ Conflict (c.exec rt o s).1 := by
  cases c with
  | createDirAll n jobId sub =>
    simp only [RunnerCall.exec]
    split
    · exact not_conflict_error fun h => h
    · exact not_conflict_ok _
  | removeJobDir jobId =>
    simp only [RunnerCall.exec]
    split
    · exact not_conflict_error fun h => h
    · exact not_conflict_ok _
  | writeFile jobId file => exact io_conflict (fun _ h => h) (not_conflict_ok _)
  | persistMetadata writer jobId metadata =>
    simp only [RunnerCall.exec, Outcome.io]
    split
    · exact not_conflict_error fun h => h
    · exact not_conflict_ok _
  | removeWorkDir jobId => exact io_conflict (fun _ h => h) (not_conflict_ok _)
  | _ => cases hw

lemma Committed.request {c : RunnerCall} {f : c.Result → RunnerTask β} (hc : ¬ c.Refuses)
    (hx : ∀ o s, ¬ Conflict (c.exec rt o s).1) (hf : ∀ a, Committed rt (f a)) :
    Committed rt (Janus.Runner.request c >>= f) := by
  refine fun s => Safe.bind fun s' _ _ => ⟨hc, ?_⟩
  rintro (e | a) s'' ⟨o, he⟩
  · have hnot := hx o s'
    rw [he] at hnot
    exact not_conflict_error (isConflict_of_conflict hnot)
  · exact hf a s''

lemma Committed.write {c : RunnerCall} {f : c.Result → RunnerTask β} (hw : c.writesJobs = true)
    (hf : ∀ a, Committed rt (f a)) : Committed rt (Janus.Runner.request c >>= f) :=
  .request (by cases c <;> first | exact fun h => h | cases hw) (writesJobs_conflict rt hw) hf

lemma Committed.done {x : Except JobError α} (hx : ¬ Conflict x) : Committed rt (.done x) :=
  fun _ => hx

lemma committed_setupJob (n : ℕ) (job : JobMetadata) : Committed rt (setupJob n job) := by
  refine .write rfl fun _ => .write rfl fun _ => .write rfl fun _ => .write rfl fun _ => fun s => ?_
  refine fun s' _ _ => ⟨fun h => h, ?_⟩
  rintro x s'' ⟨o, he⟩
  have hx := writesJobs_conflict rt (c := .persistMetadata (.create n) job.jobId job) rfl o s'
  rw [he] at hx
  exact hx

lemma clean_startJob (n : ℕ) (manifest : JobManifest) (inputs : BTreeMap Value) (logLimitBytes : ℕ)
    (identity : JobIdentity) (resolved : BTreeMap String) :
    Clean rt (startJob n manifest inputs logLimitBytes identity resolved) := by
  refine clean_bind (.bind (Program.Only.request_iff.mpr trivial) fun _ => Program.Only.pure _)
    fun startedAt o s => ?_
  simp only [RunnerCall.exec, Untouched]
  split
  · exact .inl ⟨⟨rfl, rfl, rfl⟩, trivial⟩
  · refine .inr ((committed_setupJob n _).attempt fun x hx => ?_)
    cases x with
    | error error =>
      exact .request (fun h => h) (fun _ _ => not_conflict_ok _) fun _ =>
        Committed.done (not_conflict_error (isConflict_of_conflict hx))
    | ok _ =>
      exact .request (fun h => h) (fun _ _ => not_conflict_ok _) fun _ =>
        Committed.done (not_conflict_ok _)

lemma clean_createLocked (n : ℕ) (name key : String) (body : Bytes) (inputs : BTreeMap Value) :
    Clean rt (createLocked rt n name key body inputs) := by
  rw [createLocked]
  split
  · trivial
  · next manifest _ =>
    refine clean_bind ((validateInputs_only rt manifest inputs).mono fun _ => RunnerCall.Reading.looking)
      fun resolved => ?_
    split
    · trivial
    · refine clean_bind (Program.Only.request_iff.mpr trivial) fun dirExists => ?_
      cases (dirExists : Bool) with
      | true => exact clean_of_looking ((loadExistingJobForRequest_only _).mono fun _ => RunnerCall.Reading.looking)
      | false => exact clean_startJob n manifest inputs _ _ resolved

lemma clean_createJob (n : ℕ) (name key : String) (body : Bytes) (inputs : BTreeMap Value) :
    Clean rt (createJob rt n name key body inputs) := by
  refine clean_bind (Program.Only.request_iff.mpr trivial) fun shuttingDown => ?_
  cases (shuttingDown : Bool) with
  | true => exact clean_done _
  | false =>
    refine clean_bind (Program.Only.done _) fun _ => ?_
    refine clean_bind (Program.Only.request_iff.mpr trivial) fun _ => ?_
    refine (clean_createLocked n name key body inputs).attempt (fun x => ?_) fun x hx => ?_
    · exact clean_bind (Program.Only.request_iff.mpr trivial) fun _ => clean_done x
    · exact .request (fun h => h) (fun _ _ => not_conflict_ok _) fun _ => .done hx

lemma clean_createJobRequest (n : ℕ) (name key : String) (body : Bytes) :
    Clean rt (createJobRequest rt n name key body) := by
  rw [createJobRequest]
  split
  · exact clean_done _
  · split
    · exact clean_done _
    · next fields _ => exact clean_createJob n name key body (.ofList fields)

lemma refuses_respond {n : ℕ} {name key : String} {body : Bytes} {x : Except JobError JobCreated}
    (h : (RunnerCall.respond n name key body x).Refuses) : Conflict x := by
  cases x with
  | ok created => exact h.elim
  | error error => cases error <;> first | exact ⟨_, rfl, trivial⟩ | exact h.elim

lemma clean_respond (n : ℕ) (name key : String) (body : Bytes) :
    Clean rt ((createJobRequest rt n name key body).attempt >>= fun result =>
      request (.respond n name key body result)) := by
  refine (clean_createJobRequest n name key body).attempt (fun x => ?_)
    fun x hx s s' _ _ => ⟨fun h => hx (refuses_respond h), ?_⟩
  · exact clean_of_looking (Program.Only.request_iff.mpr trivial)
  · rintro x s'' ⟨o, he⟩
    cases he
    exact not_conflict_ok _

def RequestTouches (rt : Runtime) (n : ℕ) (p : RunnerPool) (e : RunnerEvent) : Prop :=
  ∃ i o r c next, e = .step i o ∧ p.tasks[i]? = some (r, .call c next) ∧ r.creates n ∧
    ¬ Untouched rt c o p.store

def RequestRefused (n : ℕ) (p : RunnerPool) (e : RunnerEvent) : Prop :=
  ∃ name key body reason,
    p.call? e = some (.respond n name key body (.error (.concurrencyConflict reason)))

def Arrived (n : ℕ) (s : RunnerStore) : Prop := ∃ k, s.history.arrived.lookup n = some k

variable {p p' : RunnerPool} {e : RunnerEvent} {es : List RunnerEvent}

lemma Arrived.mono {n : ℕ} (h : Arrived n p.store) (ha : (runnerSystem rt).apply p e = some p') :
    Arrived n p'.store := by
  obtain ⟨r, rfl, -, rfl⟩ | ⟨i, o, r, c, next, rfl, ht, hready, rfl⟩ | ⟨i, r, x, rfl, -, rfl⟩ |
    ⟨rfl, rfl⟩ | ⟨v, -, -⟩ := System.apply_cases ha
  · exact h
  · obtain ⟨k, hk⟩ := h
    exact ⟨k, lookup_step (RunnerCall.exec_effect rt _ hready) hk⟩
  · exact h
  · exact h
  · exact v.elim

lemma arrive_of_program {r : RunnerRole} {n : ℕ} {c : RunnerCall}
    {next : Except JobError c.Result → RunnerTask Unit} (hr : r.creates n)
    (h : (.call c next : RunnerTask Unit) = r.program rt) : c = .arrive n := by
  cases r with
  | create n' name key body =>
    obtain rfl : n' = n := hr
    injection h
  | _ => exact hr.elim

lemma not_ready_of_arrived {n : ℕ} (h : Arrived n s) : (RunnerCall.arrive n).ready s = false := by
  obtain ⟨k, hk⟩ := h
  by_contra hready
  simp only [Bool.not_eq_false, RunnerCall.ready, Bool.and_eq_true, Bool.not_eq_true'] at hready
  rw [lookup_eq_none_of_any hready.2] at hk
  cases hk

lemma Committed.step {c : RunnerCall} {next : Except JobError c.Result → RunnerTask α}
    (h : Committed rt (.call c next)) (o : Outcome) (s : RunnerStore) :
    Committed rt (next (c.exec rt o s).1) :=
  fun _ => ((h s s trivial trivial).2 _ _ ⟨o, rfl⟩).of_rely (fun _ _ _ _ _ => trivial)
    (fun _ _ _ hx _ _ => hx) trivial trivial

lemma Committed.not_refuses {c : RunnerCall} {next : Except JobError c.Result → RunnerTask α}
    (h : Committed rt (.call c next)) : ¬ c.Refuses := (h {} {} trivial trivial).1

def Underway (rt : Runtime) (p : RunnerPool) : Prop :=
  ∀ t ∈ p.tasks, ∀ n, t.1.creates n → t.2 = t.1.program rt ∨
    (Arrived n p.store ∧ (Clean rt t.2 ∨ Committed rt t.2))

lemma Underway.apply (h : Underway rt p) (ha : (runnerSystem rt).apply p e = some p') :
    Underway rt p' := by
  refine System.forall_tasks_apply (Φ := fun (r : RunnerRole) (q : RunnerTask Unit)
    (s : RunnerStore) => ∀ n, r.creates n → q = r.program rt ∨
      (Arrived n s ∧ (Clean rt q ∨ Committed rt q))) ha (fun _ _ _ => .inl rfl) ?_ ?_ h
  · intro r c next o hq hready n hn
    rcases hq n hn with hfresh | ⟨harrived, hrest⟩
    · obtain rfl := arrive_of_program hn hfresh
      refine .inr ⟨⟨p.store.history.answers.length, List.lookup_cons_self⟩, .inl ?_⟩
      cases r with
      | create n' name key body =>
        obtain rfl : n' = n := hn
        injection hfresh with _ hnext
        subst hnext
        exact clean_respond n' name key body
      | _ => exact hn.elim
    · refine .inr ⟨?_, ?_⟩
      · obtain ⟨k, hk⟩ := harrived
        exact ⟨k, lookup_step (RunnerCall.exec_effect rt _ hready) hk⟩
      · rcases hrest with hclean | hcommitted
        · exact (hclean o p.store).imp And.right id
        · exact .inr (hcommitted.step o p.store)
  · exact fun r q hq n hn => (hq n hn).imp_right fun hr => ⟨hr.1.mono ha, hr.2⟩

def Settled (rt : Runtime) (n : ℕ) (p : RunnerPool) : Prop :=
  Arrived n p.store ∧ ∀ t ∈ p.tasks, t.1.creates n → t.2 = t.1.program rt ∨ Committed rt t.2

lemma Settled.apply {n : ℕ} (h : Settled rt n p) (ha : (runnerSystem rt).apply p e = some p') :
    Settled rt n p' := by
  refine ⟨h.1.mono ha, System.forall_tasks_apply (Φ := fun (r : RunnerRole) (q : RunnerTask Unit) _ =>
    r.creates n → q = r.program rt ∨ Committed rt q) ha (fun _ _ => .inl rfl) ?_ (fun _ _ hq => hq) h.2⟩
  intro r c next o hq hready hn
  rcases hq hn with hfresh | hcommitted
  · obtain rfl := arrive_of_program hn hfresh
    cases (not_ready_of_arrived h.1).symm.trans hready
  · exact .inr (hcommitted.step o p.store)

lemma Underway.settled {n : ℕ} (h : Underway rt p) (hs : RunnerSound {} rt p)
    (ht : RequestTouches rt n p e) (ha : (runnerSystem rt).apply p e = some p') :
    Settled rt n p' := by
  obtain ⟨i, o, r, c, next, rfl, hi, hn, htouch⟩ := ht
  have hrest : Arrived n p.store ∧ Committed rt (next (c.exec rt o p.store).1) := by
    rcases h _ (List.mem_of_getElem? hi) n hn with hfresh | ⟨harrived, hclean | hcommitted⟩
    · obtain rfl := arrive_of_program hn hfresh
      exact absurd ⟨rfl, rfl, rfl⟩ htouch
    · exact ⟨harrived, (hclean o p.store).resolve_left fun hu => htouch hu.1⟩
    · exact ⟨harrived, hcommitted.step o p.store⟩
  refine ⟨hrest.1.mono ha, fun t ht' hn' => ?_⟩
  have hpair := (hs.apply (Permitted.free p _) ha).2.2
  have hstore : p' = ⟨(c.exec rt o p.store).2, p.tasks.set i (r, next (c.exec rt o p.store).1)⟩ := by
    obtain ⟨_, he, -⟩ | ⟨i', o', r', c', next', he, ht, -, rfl⟩ | ⟨_, _, _, he, -⟩ | ⟨he, -⟩ |
      ⟨v, -⟩ := System.apply_cases ha
    · cases he
    · cases he
      cases hi.symm.trans ht
      rfl
    · cases he
    · cases he
    · exact v.elim
  subst hstore
  obtain ⟨j, hj, rfl⟩ := List.getElem_of_mem ht'
  by_cases hij : i = j
  · subst hij
    rw [List.getElem_set_self]
    exact .inr hrest.2
  · -- Each request has its own number.
    have hlen : i < (p.tasks.set i (r, next (c.exec rt o p.store).1)).length := by
      rw [List.length_set]
      exact (List.getElem?_eq_some_iff.mp hi).1
    have hbeside := List.pairwise_iff_getElem.mp hpair
    refine absurd hn' (beside_creates (r := r) ?_ hn)
    rcases Nat.lt_or_gt_of_ne hij with hlt | hlt
    · have h := hbeside i j hlen hj hlt
      rw [List.getElem_set_self] at h
      exact .inl h
    · have h := hbeside j i hj hlen hlt
      rw [List.getElem_set_self] at h
      exact .inr h

structure Orderly (rt : Runtime) (p : RunnerPool) : Prop where
  sound : RunnerSound {} rt p
  exclusive : Exclusive rt p.store.runningJobs
  underway : Underway rt p

lemma Orderly.initial : Orderly rt RunnerPool.initial :=
  ⟨RunnerSound.initial, ⟨fun _ he => absurd he List.not_mem_nil, fun _ _ _ _ _ he => absurd he List.not_mem_nil⟩,
    fun _ ht => absurd ht List.not_mem_nil⟩

lemma Orderly.apply (h : Orderly rt p) (ha : (runnerSystem rt).apply p e = some p') :
    Orderly rt p' := by
  refine ⟨h.sound.apply (Permitted.free p e) ha, ?_, h.underway.apply ha⟩
  rcases h.sound.step_cases ha with hs | hs | ⟨i, o, r, c, next, -, -, -, hb, -, heffect⟩
  · rw [hs]
    exact h.exclusive
  · rw [hs]
    exact h.exclusive.subset fun _ he => absurd he List.not_mem_nil
  · exact h.exclusive.step hb heffect

lemma Orderly.run (h : (runnerSystem rt).run es RunnerPool.initial = some p) : Orderly rt p :=
  (along_free rt es RunnerPool.initial).invariant (fun _ _ _ h _ ha => h.apply ha) .initial h

lemma Settled.not_refused {n : ℕ} (h : Settled rt n p) (hs : RunnerSound {} rt p) :
    ¬ RequestRefused n p e := by
  rintro ⟨name, key, body, reason, hc⟩
  obtain ⟨i, o, r, next, rfl, ht⟩ := Pool.call?_eq_some hc
  have hb := System.Sound.before (runnerOutline {} rt) hs (List.mem_of_getElem? ht)
  have hr : r = .create n name key body := hb.1
  have hn : r.creates n := by
    rw [hr]
    rfl
  rcases h.2 _ (List.mem_of_getElem? ht) hn with hfresh | hcommitted
  · cases arrive_of_program hn hfresh
  · exact hcommitted.not_refuses trivial

theorem concurrency_respected (hrun : (runnerSystem rt).run es RunnerPool.initial = some p) :
    Exclusive rt p.store.runningJobs ∧
    ∀ n e p', (runnerSystem rt).apply p e = some p' → RequestTouches rt n p e →
      ∀ es', (runnerSystem rt).Along (fun q d => ¬ RequestRefused n q d) es' p' := by
  have h := Orderly.run hrun
  refine ⟨h.exclusive, fun n e p' ha ht es' => ?_⟩
  have hsettled := h.underway.settled h.sound ht ha
  refine (along_free rt es' p').of_invariant
    (I := fun q => RunnerSound {} rt q ∧ Settled rt n q) (fun q d q' hq _ hd => ?_)
    (fun q d q' hq _ _ => hq.2.not_refused hq.1) ⟨h.sound.apply (Permitted.free p e) ha, hsettled⟩
  exact ⟨hq.1.apply (Permitted.free q d) hd, hq.2.apply hd⟩

def refusing : List RunnerEvent :=
  booting ++ creating 0 "a" emptyBody ++ .start (.create 1 "deploy" "b" emptyBody) :: steps 0 8

theorem concurrency_respected_refusing :
    ∃ p, (runnerSystem sampleRuntime).run refusing RunnerPool.initial = some p ∧
    Exclusive sampleRuntime p.store.runningJobs ∧
    ∀ n e p', (runnerSystem sampleRuntime).apply p e = some p' →
      RequestTouches sampleRuntime n p e →
      ∀ es', (runnerSystem sampleRuntime).Along (fun q d => ¬ RequestRefused n q d) es' p' := by
  obtain ⟨p, hp⟩ := Option.isSome_iff_exists.mp (show ((runnerSystem sampleRuntime).run refusing
    RunnerPool.initial).isSome = true by decide +kernel)
  exact ⟨p, hp, concurrency_respected hp⟩

example : ((runnerSystem sampleRuntime).run refusing RunnerPool.initial).map (fun p =>
    (p.store.runningJobs.keys, p.store.history.answers.map fun a => a.result)) =
    some (["job_78b1768b4febf4a45a57e85e94b78edb"],
      [.ok ⟨"job_78b1768b4febf4a45a57e85e94b78edb", .running, 0⟩, .error (.concurrencyConflict
        "cannot start global_exclusive job while another job is running")]) := by
  decide +kernel

end Janus.Runner
