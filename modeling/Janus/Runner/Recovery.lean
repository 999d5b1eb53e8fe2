import Janus.Concurrency.Play
import Janus.Runner.Admission
import Janus.Runner.Runs

/-! What `recover_interrupted_jobs` makes of the directory of the jobs. -/

namespace Janus.Runner

open Janus.Concurrency Janus.Data Janus.Server

variable {rt : Runtime} {jobId : String} {dir : JobDir} {dir' : Option JobDir} {os : List Outcome}

def JobDir.Unreadable (rt : Runtime) (dir : JobDir) : Prop :=
  ∀ metadata, dir.metadata = some metadata → rt.readsBack metadata = false

def JobDir.Reads (rt : Runtime) (dir : JobDir) (metadata : JobMetadata) : Prop :=
  dir.metadata = some metadata ∧ rt.readsBack metadata = true

inductive RecoveredDir (rt : Runtime) (dir : JobDir) : Option JobDir → ℕ → Prop
  | removed (h : dir.Unreadable rt) : RecoveredDir rt dir none 1
  | failed {metadata : JobMetadata} (h : dir.Reads rt metadata) (hstatus : metadata.status = .running)
      (finishedAt : Timestamp) :
      RecoveredDir rt dir
        (some { dir with metadata := some (interrupted metadata .failed .infra finishedAt) }) 1
  | canceled {metadata : JobMetadata} (h : dir.Reads rt metadata)
      (hstatus : metadata.status = .cancelRequested ∨ metadata.status = .canceling)
      (finishedAt : Timestamp) :
      RecoveredDir rt dir
        (some { dir with metadata := some (interrupted metadata .canceled .canceled finishedAt) }) 1
  | kept {metadata : JobMetadata} (h : dir.Reads rt metadata)
      (hstatus : metadata.status.isTerminal = true) : RecoveredDir rt dir (some dir) 0

lemma JobDir.Reads.unique {metadata metadata' : JobMetadata} (h : dir.Reads rt metadata)
    (h' : dir.Reads rt metadata') : metadata = metadata' :=
  Option.some.inj (h.1.symm.trans h'.1)

lemma RecoveredDir.changed {k : ℕ} (h : RecoveredDir rt dir dir' k) :
    (k = 1 ∧ dir' ≠ some dir) ∨ (k = 0 ∧ dir' = some dir) := by
  have hdiffers : ∀ {metadata metadata' : JobMetadata}, dir.metadata = some metadata →
      metadata'.status ≠ metadata.status →
      some { dir with metadata := some metadata' } ≠ some dir := by
    intro metadata metadata' hmeta hstatus heq
    have hsame := congrArg JobDir.metadata (Option.some.inj heq)
    rw [hmeta] at hsame
    exact hstatus (congrArg JobMetadata.status (Option.some.inj hsame))
  cases h with
  | removed h => exact .inl ⟨rfl, fun heq => by cases heq⟩
  | failed h hstatus finishedAt =>
    refine .inl ⟨rfl, hdiffers h.1 ?_⟩
    rw [hstatus]
    exact fun heq => by cases heq
  | canceled h hstatus finishedAt =>
    refine .inl ⟨rfl, hdiffers h.1 ?_⟩
    rcases hstatus with hstatus | hstatus <;> rw [hstatus] <;> exact fun heq => by cases heq
  | kept h hstatus => exact .inr ⟨rfl, rfl⟩

def RunnerCall.writtenDir : RunnerCall → Option String
  | .createDirAll _ jobId _ | .writeFile jobId _ | .persistMetadata _ jobId _ | .removeWorkDir jobId
  | .removeJobDir jobId => some jobId
  | _ => none

abbrev RunnerLog := List (RunnerCall × Bool)

def DirEnded (rt : Runtime) (jobId : String) (dir : JobDir) (s : RunnerStore × RunnerLog)
    (e : Played JobError ℕ Outcome (RunnerStore × RunnerLog)) : Prop :=
  ∀ k, e.result = some (.ok k) →
    RecoveredDir rt dir (e.store.1.jobDirs.get jobId) k ∧
      (∀ id, id ≠ jobId → e.store.1.jobDirs.get id = s.1.jobDirs.get id) ∧
      ∀ c ∈ e.store.2, c ∈ s.2 ∨ c.1.writtenDir = none ∨ (k = 1 ∧ c.1.writtenDir = some jobId)

section

variable {s : RunnerStore × RunnerLog}

lemma DirEnded.of_not_ok {e : Played JobError ℕ Outcome (RunnerStore × RunnerLog)}
    (h : ∀ k, e.result ≠ some (.ok k)) : DirEnded rt jobId dir s e :=
  fun k hk => (h k hk).elim

lemma dirEnded_request {t : RunnerStore × RunnerLog} {c : RunnerCall}
    {f : c.Result → RunnerTask ℕ}
    (hok : ∀ o a t' os, c.exec rt o t.1 = (.ok a, t') →
      DirEnded rt jobId dir s ((f a).play (Program.logged (RunnerCall.exec rt)) os
        (t', (c, true) :: t.2))) :
    DirEnded rt jobId dir s
      ((request c >>= f).play (Program.logged (RunnerCall.exec rt)) os t) := by
  refine Program.play_request (P := DirEnded rt jobId dir s) ?_ ?_ ?_
  · exact fun _ => .of_not_ok fun k h => by cases h
  · exact fun _ _ _ _ _ _ => .of_not_ok fun k h => by cases h
  · rintro o os' a ⟨t', log⟩ rfl hexec
    obtain ⟨hx, hpair⟩ := Prod.mk.inj hexec
    obtain ⟨ht, rfl⟩ := Prod.mk.inj hpair
    rw [hx]
    exact hok o a t' os' (Prod.ext hx ht)

lemma dirEnded_pure {t : RunnerStore × RunnerLog} {k : ℕ}
    (hdir : RecoveredDir rt dir (t.1.jobDirs.get jobId) k)
    (hothers : ∀ id, id ≠ jobId → t.1.jobDirs.get id = s.1.jobDirs.get id)
    (hlog : ∀ c ∈ t.2, c ∈ s.2 ∨ c.1.writtenDir = none ∨ (k = 1 ∧ c.1.writtenDir = some jobId)) :
    DirEnded rt jobId dir s
      ((pure k : RunnerTask ℕ).play (Program.logged (RunnerCall.exec rt)) os t) := by
  rw [Program.play_pure]
  intro k' hk
  obtain rfl : k = k' := Except.ok.inj (Option.some.inj hk)
  exact ⟨hdir, hothers, hlog⟩

lemma forall_log_cons {c : RunnerCall × Bool} {log log' : RunnerLog} {k : ℕ}
    (hc : c.1.writtenDir = none ∨ (k = 1 ∧ c.1.writtenDir = some jobId))
    (hlog : ∀ c ∈ log, c ∈ log' ∨ c.1.writtenDir = none ∨ (k = 1 ∧ c.1.writtenDir = some jobId)) :
    ∀ c' ∈ c :: log, c' ∈ log' ∨ c'.1.writtenDir = none ∨ (k = 1 ∧ c'.1.writtenDir = some jobId) := by
  intro c' hc'
  rcases List.mem_cons.mp hc' with rfl | hc'
  · exact .inr hc
  · exact hlog c' hc'

lemma persistRecovered_eq (metadata : JobMetadata) (status : RunnerJobStatus)
    (category : FailureCategory) :
    (persistRecovered jobId metadata status category >>= fun _ => (pure 1 : RunnerTask ℕ)) =
      (request .now >>= fun now : Timestamp =>
        request (.persistMetadata .recovery jobId
          (interrupted metadata status category (now / 1000000000 * 1000000000))) >>= fun _ =>
        request (.writeFile jobId "stderr.log") >>= fun _ => pure 1) := by
  rw [persistRecovered, nowRfc3339]
  exact (Program.bind_assoc _ _ _).trans ((Program.bind_assoc (request RunnerCall.now) _ _).trans
    (congrArg (request RunnerCall.now >>= ·) (funext fun now => Program.bind_assoc _ _ _)))

lemma dir_of_get {store : RunnerStore} (h : store.jobDirs.get jobId = some dir) :
    store.dir jobId = dir := by
  rw [RunnerStore.dir, h]
  rfl

lemma persistRecovered_play {metadata : JobMetadata} {status : RunnerJobStatus}
    {category : FailureCategory} {t : RunnerStore × RunnerLog}
    (hdir : t.1.jobDirs.get jobId = some dir)
    (hothers : ∀ id, id ≠ jobId → t.1.jobDirs.get id = s.1.jobDirs.get id)
    (hlog : ∀ c ∈ t.2, c ∈ s.2 ∨ c.1.writtenDir = none ∨ (1 = 1 ∧ c.1.writtenDir = some jobId))
    (hrecovered : ∀ finishedAt, RecoveredDir rt dir
      (some { dir with metadata := some (interrupted metadata status category finishedAt) }) 1) :
    DirEnded rt jobId dir s
      ((persistRecovered jobId metadata status category >>= fun _ => (pure 1 : RunnerTask ℕ)).play
        (Program.logged (RunnerCall.exec rt)) os t) := by
  rw [persistRecovered_eq]
  refine dirEnded_request fun o now t' os' hexec => ?_
  obtain ⟨-, rfl⟩ := Prod.mk.inj hexec
  refine dirEnded_request fun o u t' os' hexec => ?_
  rcases exec_io rt (c := .persistMetadata .recovery jobId _) t.1 o rfl with
    ⟨source, -, hfailed⟩ | ⟨-, hdone⟩
  · cases hfailed.symm.trans hexec
  · obtain ⟨-, rfl⟩ := Prod.mk.inj (hdone.symm.trans hexec)
    refine dirEnded_request fun o u t' os' hexec => ?_
    rcases exec_io rt (c := .writeFile jobId "stderr.log") _ o rfl with
      ⟨source, -, hfailed⟩ | ⟨-, hdone⟩
    · cases hfailed.symm.trans hexec
    · obtain ⟨-, rfl⟩ := Prod.mk.inj (hdone.symm.trans hexec)
      refine dirEnded_pure ?_ ?_ ?_
      · have hget : ∀ metadata, (t.1.persist jobId metadata).jobDirs.get jobId =
            some { t.1.dir jobId with metadata := some metadata } :=
          fun _ => OrderedMap.get_insert_self
        rw [dir_of_get hdir] at hget
        exact (hget _).symm ▸ hrecovered _
      · exact fun id hid => (OrderedMap.get_insert_of_ne hid).trans (hothers id hid)
      · exact forall_log_cons (.inr ⟨rfl, rfl⟩) (forall_log_cons (.inr ⟨rfl, rfl⟩)
          (forall_log_cons (.inl rfl) hlog))

lemma exec_readMetadata {store store' : RunnerStore} {o : Outcome} {file : MetadataFile}
    (hdir : store.jobDirs.get jobId = some dir)
    (hexec : (RunnerCall.readMetadata jobId).exec rt o store = (.ok file, store')) :
    store' = store ∧ ((dir.Unreadable rt ∧ (file = .missing ∨ ∃ source, file = .invalid source)) ∨
      ∃ metadata, file = .metadata metadata ∧ dir.Reads rt metadata) := by
  simp only [RunnerCall.exec, dir_of_get hdir, Outcome.io] at hexec
  split at hexec
  · cases hexec
  · cases hmeta : dir.metadata with
    | none =>
      rw [hmeta] at hexec
      cases hexec
      refine ⟨rfl, .inl ⟨fun metadata h => ?_, .inl rfl⟩⟩
      cases hmeta.symm.trans h
    | some metadata =>
      rw [hmeta] at hexec
      obtain ⟨hok, rfl⟩ := Prod.mk.inj hexec
      refine ⟨rfl, ?_⟩
      have hfile := Except.ok.inj hok
      cases hreads : rt.readsBack metadata with
      | true =>
        exact .inr ⟨metadata, hfile.symm.trans (if_pos hreads), hmeta, hreads⟩
      | false =>
        refine .inl ⟨fun metadata' h => ?_,
          .inr ⟨_, hfile.symm.trans (if_neg (Bool.eq_false_iff.mp hreads))⟩⟩
        rwa [← Option.some.inj (hmeta.symm.trans h)]

lemma recoverJob_play (hdir : s.1.jobDirs.get jobId = some dir) :
    DirEnded rt jobId dir s
      ((recoverJob jobId).play (Program.logged (RunnerCall.exec rt)) os s) := by
  have hsame : ∀ k : ℕ, ∀ c ∈ (RunnerCall.readMetadata jobId, true) :: s.2,
      c ∈ s.2 ∨ c.1.writtenDir = none ∨ (k = 1 ∧ c.1.writtenDir = some jobId) :=
    fun k => forall_log_cons (.inl rfl) fun c hc => .inl hc
  have hremoved : dir.Unreadable rt → ∀ os, DirEnded rt jobId dir s
      ((request (.removeJobDir jobId) >>= fun _ => (pure 1 : RunnerTask ℕ)).play
        (Program.logged (RunnerCall.exec rt)) os (s.1, (.readMetadata jobId, true) :: s.2)) := by
    intro hunreadable os
    refine dirEnded_request fun o u t' os' hexec => ?_
    simp only [RunnerCall.exec] at hexec
    split at hexec
    · cases hexec
    · obtain ⟨-, rfl⟩ := Prod.mk.inj hexec
      refine dirEnded_pure ?_ ?_ ?_
      · rw [OrderedMap.get_remove_self]
        exact .removed hunreadable
      · exact fun id hid => OrderedMap.get_remove_of_ne hid
      · exact forall_log_cons (.inr ⟨rfl, rfl⟩) (hsame 1)
  refine dirEnded_request fun o file t' os' hexec => ?_
  obtain ⟨rfl, ⟨hunreadable, rfl | ⟨source, rfl⟩⟩ | ⟨metadata, rfl, hreads⟩⟩ :=
    exec_readMetadata hdir hexec
  · exact hremoved hunreadable os'
  · exact hremoved hunreadable os'
  · dsimp only
    cases hstatus : metadata.status with
    | running =>
      exact persistRecovered_play hdir (fun _ _ => rfl) (hsame 1) (.failed hreads hstatus)
    | cancelRequested =>
      exact persistRecovered_play hdir (fun _ _ => rfl) (hsame 1) (.canceled hreads (.inl hstatus))
    | canceling =>
      exact persistRecovered_play hdir (fun _ _ => rfl) (hsame 1) (.canceled hreads (.inr hstatus))
    | success | failed | timedOut | canceled | rejected =>
      refine dirEnded_pure ?_ (fun _ _ => rfl) (hsame 0)
      rw [hdir]
      exact .kept hreads (by rw [hstatus]; rfl)

end

structure RecoveredDirs (rt : Runtime) (jobIds : List String) (s s' : RunnerStore × RunnerLog)
    (changed : List String) : Prop where
  sublist : changed.Sublist jobIds
  dirs : ∀ id ∈ jobIds, ∀ dir, s.1.jobDirs.get id = some dir →
    ∃ k, RecoveredDir rt dir (s'.1.jobDirs.get id) k ∧ (k = 1 ↔ id ∈ changed)
  others : ∀ id, id ∉ jobIds → s'.1.jobDirs.get id = s.1.jobDirs.get id
  log : ∀ c ∈ s'.2, c ∈ s.2 ∨ ∀ id, c.1.writtenDir = some id → id ∈ changed

lemma recoverJobs_play {jobIds : List String} (hnodup : jobIds.Nodup)
    {s : RunnerStore × RunnerLog} (hdirs : ∀ id ∈ jobIds, ∃ dir, s.1.jobDirs.get id = some dir)
    {recovered count : ℕ}
    (h : ((recoverJobs recovered jobIds).play (Program.logged (RunnerCall.exec rt)) os s).result =
      some (.ok count)) :
    ∃ changed, count = recovered + changed.length ∧ RecoveredDirs rt jobIds s
      ((recoverJobs recovered jobIds).play (Program.logged (RunnerCall.exec rt)) os s).store
        changed := by
  induction jobIds generalizing os s recovered with
  | nil =>
    rw [recoverJobs, Program.play_pure] at h ⊢
    refine ⟨[], (Except.ok.inj (Option.some.inj h)).symm, .slnil, ?_, fun _ _ => rfl,
      fun c hc => .inl hc⟩
    exact fun id hid => (List.not_mem_nil hid).elim
  | cons jobId jobIds ih =>
    obtain ⟨hnot, hnodup⟩ := List.nodup_cons.mp hnodup
    obtain ⟨more, hmore, hrest⟩ := Program.play_bind_ok h
    obtain ⟨dir, hdir⟩ := hdirs jobId List.mem_cons_self
    obtain ⟨hone, hothers, hlog⟩ := recoverJob_play hdir more hmore
    have hstore := Program.play_bind_store hmore fun more => recoverJobs (recovered + more) jobIds
    rw [recoverJobs, hstore]
    have hdirs' : ∀ id ∈ jobIds, ∃ dir, ((recoverJob jobId).play
        (Program.logged (RunnerCall.exec rt)) os s).store.1.jobDirs.get id = some dir := by
      intro id hid
      have hne : id ≠ jobId := fun heq => hnot (heq ▸ hid)
      rw [hothers id hne]
      exact hdirs id (List.mem_cons_of_mem _ hid)
    obtain ⟨changed, rfl, hchanged⟩ := ih hnodup hdirs' hrest
    have hself : jobId ∉ changed := fun hmem => hnot (hchanged.sublist.subset hmem)
    have hnew : ∀ all, changed.Sublist all → all.Sublist (jobId :: jobIds) →
        (more = 1 ↔ jobId ∈ all) → (∀ id ∈ jobIds, id ∈ all ↔ id ∈ changed) →
        RecoveredDirs rt (jobId :: jobIds) s ((recoverJobs (recovered + more) jobIds).play
          (Program.logged (RunnerCall.exec rt))
          ((recoverJob jobId).play (Program.logged (RunnerCall.exec rt)) os s).rest
          ((recoverJob jobId).play (Program.logged (RunnerCall.exec rt)) os s).store).store all := by
      intro all hsub hall hfirst hsame
      refine ⟨hall, ?_, ?_, ?_⟩
      · intro id hid dir' hdir'
        rcases List.mem_cons.mp hid with rfl | hid
        · refine ⟨more, ?_, hfirst⟩
          rw [hchanged.others _ hnot]
          obtain rfl := Option.some.inj (hdir.symm.trans hdir')
          exact hone
        · have hne : id ≠ jobId := fun heq => hnot (heq ▸ hid)
          obtain ⟨k, hk, hiff⟩ := hchanged.dirs id hid dir' ((hothers id hne).trans hdir')
          exact ⟨k, hk, hiff.trans (hsame id hid).symm⟩
      · intro id hid
        obtain ⟨hne, hid⟩ := not_or.mp (mt List.mem_cons.mpr hid)
        exact (hchanged.others id hid).trans (hothers id hne)
      · intro c hc
        rcases hchanged.log c hc with hc | hc
        · rcases hlog c hc with hc | hnone | ⟨rfl, hwrites⟩
          · exact .inl hc
          · exact .inr fun id hid => by cases hnone.symm.trans hid
          · refine .inr fun id hid => ?_
            obtain rfl := Option.some.inj (hwrites.symm.trans hid)
            exact hfirst.mp rfl
        · exact .inr fun id hid => hsub.subset (hc id hid)
    rcases hone.changed with ⟨rfl, -⟩ | ⟨rfl, -⟩
    · refine ⟨jobId :: changed, by simp only [List.length_cons]; omega, hnew _ ?_ ?_ ?_ ?_⟩
      · exact List.sublist_cons_self _ _
      · exact hchanged.sublist.cons_cons _
      · exact iff_of_true rfl List.mem_cons_self
      · intro id hid
        have hne : id ≠ jobId := fun heq => hnot (heq ▸ hid)
        exact ⟨fun h => (List.mem_cons.mp h).resolve_left hne, List.mem_cons_of_mem _⟩
    · refine ⟨changed, rfl, hnew _ (List.Sublist.refl _) (hchanged.sublist.cons _) ?_ ?_⟩
      · exact iff_of_false (by omega) hself
      · exact fun id _ => Iff.rfl

structure OnlyLooked (recovered needed : ℕ) (os : List Outcome) (s : RunnerStore × RunnerLog)
    (e : Played JobError ℕ Outcome (RunnerStore × RunnerLog)) : Prop where
  store : e.store.1 = s.1
  log : ∀ c ∈ e.store.2, c ∈ s.2 ∨ c.1.writtenDir = none
  count : ∀ k, e.result = some (.ok k) → k = recovered
  ends : (∀ o ∈ os, o.fails = none) → needed ≤ os.length → e.result = some (.ok recovered)

lemma onlyLooked_request {c : RunnerCall} {f : c.Result → RunnerTask ℕ} {recovered needed : ℕ}
    {s : RunnerStore × RunnerLog} (hc : c.writtenDir = none)
    (hexec : ∀ o, (∃ m, o.fails ≠ none ∧ c.exec rt o s.1 = (.error m, s.1)) ∨
      ∃ a, c.exec rt o s.1 = (.ok a, s.1) ∧ ∀ os log, OnlyLooked recovered needed os (s.1, log)
        ((f a).play (Program.logged (RunnerCall.exec rt)) os (s.1, log))) :
    OnlyLooked recovered (needed + 1) os s
      ((request c >>= f).play (Program.logged (RunnerCall.exec rt)) os s) := by
  have hlog : ∀ b, ∀ c' ∈ (c, b) :: s.2, c' ∈ s.2 ∨ c'.1.writtenDir = none := by
    intro b c' hc'
    rcases List.mem_cons.mp hc' with rfl | hc'
    · exact .inr hc
    · exact .inl hc'
  cases os with
  | nil =>
    refine ⟨rfl, fun c hc => .inl hc, ?_, fun _ h => ?_⟩
    · intro k hk
      cases hk
    · simp at h
  | cons o os =>
    rcases hexec o with ⟨m, hfails, hexec⟩ | ⟨a, hexec, hrest⟩
    · have hlogged : Program.logged (RunnerCall.exec rt) c o s =
          (.error m, s.1, (c, false) :: s.2) := by
        simp only [Program.logged, hexec]
        rfl
      rw [request, Program.play_request_error hlogged]
      refine ⟨rfl, hlog false, ?_, fun h _ => (hfails (h o List.mem_cons_self)).elim⟩
      intro k hk
      cases hk
    · have hlogged : Program.logged (RunnerCall.exec rt) c o s =
          (.ok a, s.1, (c, true) :: s.2) := by
        simp only [Program.logged, hexec]
        rfl
      rw [request, Program.play_request_ok hlogged]
      obtain ⟨hstore, hnew, hcount, hends⟩ := hrest os ((c, true) :: s.2)
      refine ⟨hstore, fun c' hc' => ?_, hcount, fun h hlength => ?_⟩
      · rcases hnew c' hc' with hc' | hc'
        · exact hlog true c' hc'
        · exact .inr hc'
      · exact hends (fun o ho => h o (List.mem_cons_of_mem _ ho)) (Nat.le_of_succ_le_succ hlength)

def AllEnded (rt : Runtime) (store : RunnerStore) : Prop :=
  ∀ id dir, store.jobDirs.get id = some dir →
    ∃ metadata, dir.Reads rt metadata ∧ metadata.status.isTerminal = true

lemma recoverJobs_ended {jobIds : List String} {recovered : ℕ} {s : RunnerStore × RunnerLog}
    (hended : AllEnded rt s.1) (hdirs : ∀ id ∈ jobIds, ∃ dir, s.1.jobDirs.get id = some dir) :
    OnlyLooked recovered jobIds.length os s
      ((recoverJobs recovered jobIds).play (Program.logged (RunnerCall.exec rt)) os s) := by
  induction jobIds generalizing os s with
  | nil =>
    rw [recoverJobs, Program.play_pure]
    exact ⟨rfl, fun c hc => .inl hc, fun k hk => (Except.ok.inj (Option.some.inj hk)).symm,
      fun _ _ => rfl⟩
  | cons jobId jobIds ih =>
    obtain ⟨dir, hdir⟩ := hdirs jobId List.mem_cons_self
    obtain ⟨metadata, hreads, hterminal⟩ := hended jobId dir hdir
    have hassoc : (recoverJob jobId >>= fun more => recoverJobs (recovered + more) jobIds) = _ :=
      Program.bind_assoc (request (RunnerCall.readMetadata jobId)) _ _
    rw [recoverJobs, hassoc]
    refine onlyLooked_request rfl fun o => ?_
    cases hf : o.fails with
    | some source =>
      refine .inl ⟨.readFile (jobPath rt jobId "metadata.json") source, Option.some_ne_none _, ?_⟩
      simp only [RunnerCall.exec, Outcome.io, hf]
    | none =>
      refine .inr ⟨.metadata metadata, ?_, fun os log => ?_⟩
      · simp only [RunnerCall.exec, Outcome.io, hf, dir_of_get hdir, hreads.1, hreads.2]
        rfl
      · have hrest : OnlyLooked recovered jobIds.length os (s.1, log)
            ((recoverJobs (recovered + 0) jobIds).play (Program.logged (RunnerCall.exec rt)) os
              (s.1, log)) := ih hended fun id hid => hdirs id (List.mem_cons_of_mem _ hid)
        cases hstatus : metadata.status with
        | success | failed | timedOut | canceled | rejected =>
          simp only [hstatus]
          exact hrest
        | running | cancelRequested | canceling =>
          rw [hstatus] at hterminal
          cases hterminal

/-- `recover_interrupted_jobs` carried out with nothing beside it. -/
def recovery (rt : Runtime) (os : List Outcome) (store : RunnerStore) :
    Played JobError ℕ Outcome (RunnerStore × RunnerLog) :=
  recoverInterruptedJobs.play (Program.logged (RunnerCall.exec rt)) os (store, [])

/-- The directory of the jobs after a recovery that made the calls in `log` and counted `count`
jobs. -/
structure Recovered (rt : Runtime) (store store' : RunnerStore) (log : RunnerLog) (count : ℕ) :
    Prop where
  ended : AllEnded rt store'
  running : ∀ id dir metadata, store.jobDirs.get id = some dir → dir.Reads rt metadata →
    metadata.status = .running → ∃ finishedAt, store'.jobDirs.get id =
      some { dir with metadata := some (interrupted metadata .failed .infra finishedAt) }
  canceling : ∀ id dir metadata, store.jobDirs.get id = some dir → dir.Reads rt metadata →
    metadata.status = .cancelRequested ∨ metadata.status = .canceling →
      ∃ finishedAt, store'.jobDirs.get id =
        some { dir with metadata := some (interrupted metadata .canceled .canceled finishedAt) }
  terminal : ∀ id dir metadata, store.jobDirs.get id = some dir → dir.Reads rt metadata →
    metadata.status.isTerminal = true →
      store'.jobDirs.get id = some dir ∧ ∀ c ∈ log, c.1.writtenDir ≠ some id
  unreadable : ∀ id dir, store.jobDirs.get id = some dir → dir.Unreadable rt →
    store'.jobDirs.get id = none
  absent : ∀ id, store.jobDirs.get id = none → store'.jobDirs.get id = none
  count : ∃ changed : List String, changed.Nodup ∧
    (∀ id, id ∈ changed ↔ store'.jobDirs.get id ≠ store.jobDirs.get id) ∧ count = changed.length

/-- A recovery that changes nothing, writes nothing, and counts 0 if it comes to its end, as it does
if nothing fails. -/
structure NothingToRecover (rt : Runtime) (store : RunnerStore) (os : List Outcome) : Prop where
  unchanged : (recovery rt os store).store.1 = store
  unwritten : ∀ c ∈ (recovery rt os store).store.2, c.1.writtenDir = none
  count : ∀ k, (recovery rt os store).result = some (.ok k) → k = 0
  ends : (∀ o ∈ os, o.fails = none) → store.jobDirs.keys.length + 1 ≤ os.length →
    (recovery rt os store).result = some (.ok 0)

lemma get_of_mem_keys {store : RunnerStore} : ∀ id ∈ store.jobDirs.keys,
    ∃ dir, store.jobDirs.get id = some dir := by
  intro id hid
  obtain ⟨e, he, rfl⟩ := List.mem_map.mp hid
  exact ⟨e.2, OrderedMap.get_eq_some_iff.mpr he⟩

lemma mem_keys_of_get {store : RunnerStore} {id : String} (h : store.jobDirs.get id = some dir) :
    id ∈ store.jobDirs.keys :=
  List.mem_map_of_mem (OrderedMap.get_eq_some_iff.mp h)

lemma nothingToRecover {store : RunnerStore} (hended : AllEnded rt store) (os : List Outcome) :
    NothingToRecover rt store os := by
  have hlooked : OnlyLooked 0 (store.jobDirs.keys.length + 1) os (store, [])
      (recovery rt os store) := by
    refine onlyLooked_request rfl fun o => ?_
    cases hf : o.fails with
    | some source =>
      refine .inl ⟨.readFile (rt.config.rootDir ++ "/jobs") source, Option.some_ne_none _, ?_⟩
      simp only [RunnerCall.exec, Outcome.io, hf]
    | none =>
      refine .inr ⟨store.jobDirs.keys, ?_, fun os log => recoverJobs_ended hended get_of_mem_keys⟩
      simp only [RunnerCall.exec, Outcome.io, hf]
  refine ⟨hlooked.store, fun c hc => ?_, hlooked.count, hlooked.ends⟩
  exact (hlooked.log c hc).resolve_left List.not_mem_nil

def RecoveryEnded (rt : Runtime) (store : RunnerStore)
    (e : Played JobError ℕ Outcome (RunnerStore × RunnerLog)) : Prop :=
  ∀ count, e.result = some (.ok count) → ∃ changed, count = changed.length ∧
    RecoveredDirs rt store.jobDirs.keys (store, [(.readJobDirs, true)]) e.store changed

lemma recovery_play (os : List Outcome) (store : RunnerStore) :
    RecoveryEnded rt store (recovery rt os store) := by
  refine Program.play_request (P := RecoveryEnded rt store) (c := RunnerCall.readJobDirs) ?_ ?_ ?_
  · intro _ count h
    cases h
  · intro o os' m s' _ _ count h
    cases h
  · rintro o os' jobIds s' rfl hexec count h
    simp only [Program.logged, RunnerCall.exec, Outcome.io] at hexec
    cases hf : o.fails with
    | some source =>
      rw [hf] at hexec
      cases hexec
    | none =>
      rw [hf] at hexec
      cases hexec
      have hresult : ((recoverJobs 0 store.jobDirs.keys).play (Program.logged (RunnerCall.exec rt))
          os' (store, [(.readJobDirs, true)])).result = some (.ok count) := h
      have hdirs : ∀ id ∈ store.jobDirs.keys, ∃ dir,
          (store, [(RunnerCall.readJobDirs, true)]).1.jobDirs.get id = some dir := get_of_mem_keys
      obtain ⟨changed, rfl, hchanged⟩ := recoverJobs_play OrderedMap.keys_nodup hdirs hresult
      exact ⟨changed, Nat.zero_add _, hchanged⟩

namespace RecoveredDir

variable {k : ℕ} {metadata : JobMetadata}

lemma eq_failed (h : RecoveredDir rt dir dir' k) (hreads : dir.Reads rt metadata)
    (hstatus : metadata.status = .running) : ∃ finishedAt,
      dir' = some { dir with metadata := some (interrupted metadata .failed .infra finishedAt) } := by
  cases h with
  | removed h => cases (h metadata hreads.1).symm.trans hreads.2
  | failed h _ finishedAt =>
    obtain rfl := h.unique hreads
    exact ⟨finishedAt, rfl⟩
  | canceled h hstatus' =>
    obtain rfl := h.unique hreads
    rw [hstatus] at hstatus'
    rcases hstatus' with h | h <;> cases h
  | kept h hterminal =>
    obtain rfl := h.unique hreads
    rw [hstatus] at hterminal
    cases hterminal

lemma eq_canceled (h : RecoveredDir rt dir dir' k) (hreads : dir.Reads rt metadata)
    (hstatus : metadata.status = .cancelRequested ∨ metadata.status = .canceling) : ∃ finishedAt,
      dir' = some { dir with
        metadata := some (interrupted metadata .canceled .canceled finishedAt) } := by
  cases h with
  | removed h => cases (h metadata hreads.1).symm.trans hreads.2
  | failed h hstatus' =>
    obtain rfl := h.unique hreads
    rw [hstatus'] at hstatus
    rcases hstatus with h | h <;> cases h
  | canceled h _ finishedAt =>
    obtain rfl := h.unique hreads
    exact ⟨finishedAt, rfl⟩
  | kept h hterminal =>
    obtain rfl := h.unique hreads
    rcases hstatus with h | h <;> rw [h] at hterminal <;> cases hterminal

lemma eq_kept (h : RecoveredDir rt dir dir' k) (hreads : dir.Reads rt metadata)
    (hterminal : metadata.status.isTerminal = true) : k = 0 ∧ dir' = some dir := by
  cases h with
  | removed h => cases (h metadata hreads.1).symm.trans hreads.2
  | failed h hstatus =>
    obtain rfl := h.unique hreads
    rw [hstatus] at hterminal
    cases hterminal
  | canceled h hstatus =>
    obtain rfl := h.unique hreads
    rcases hstatus with h | h <;> rw [h] at hterminal <;> cases hterminal
  | kept => exact ⟨rfl, rfl⟩

lemma eq_none (h : RecoveredDir rt dir dir' k) (hunreadable : dir.Unreadable rt) : dir' = none := by
  have hnot : ∀ metadata, ¬dir.Reads rt metadata :=
    fun metadata hreads => by cases (hunreadable metadata hreads.1).symm.trans hreads.2
  cases h with
  | removed => rfl
  | failed h => exact (hnot _ h).elim
  | canceled h => exact (hnot _ h).elim
  | kept h => exact (hnot _ h).elim

end RecoveredDir

lemma RecoveredDir.ended (hstable : ∀ metadata status category finishedAt,
      rt.readsBack metadata = true →
        rt.readsBack (interrupted metadata status category finishedAt) = true)
    {k : ℕ} (h : RecoveredDir rt dir dir' k) {new : JobDir} (hnew : dir' = some new) :
    ∃ metadata, new.Reads rt metadata ∧ metadata.status.isTerminal = true := by
  cases h with
  | removed h => cases hnew
  | failed h hstatus finishedAt =>
    obtain rfl := Option.some.inj hnew
    exact ⟨_, ⟨rfl, hstable _ _ _ _ h.2⟩, rfl⟩
  | canceled h hstatus finishedAt =>
    obtain rfl := Option.some.inj hnew
    exact ⟨_, ⟨rfl, hstable _ _ _ _ h.2⟩, rfl⟩
  | kept h hstatus =>
    obtain rfl := Option.some.inj hnew
    exact ⟨_, h, hstatus⟩

/-- Recovery leaves only jobs that have ended, changes no others, counts its changes, and has nothing
left to do the next time. -/
theorem recovery_correct {store : RunnerStore} {count : ℕ}
    (hstable : ∀ metadata status category finishedAt, rt.readsBack metadata = true →
      rt.readsBack (interrupted metadata status category finishedAt) = true)
    (h : (recovery rt os store).result = some (.ok count)) :
    Recovered rt store (recovery rt os store).store.1 (recovery rt os store).store.2 count ∧
      ∀ os', NothingToRecover rt (recovery rt os store).store.1 os' := by
  obtain ⟨changed, rfl, hchanged⟩ := recovery_play os store count h
  generalize (recovery rt os store).store = s at hchanged ⊢
  have hdir : ∀ id dir, store.jobDirs.get id = some dir →
      ∃ k, RecoveredDir rt dir (s.1.jobDirs.get id) k ∧ (k = 1 ↔ id ∈ changed) :=
    fun id dir hget => hchanged.dirs id (mem_keys_of_get hget) dir hget
  have habsent : ∀ id, store.jobDirs.get id = none → s.1.jobDirs.get id = none := by
    intro id hnone
    refine (hchanged.others id fun hid => ?_).trans hnone
    obtain ⟨dir, hget⟩ := get_of_mem_keys id hid
    cases hnone.symm.trans hget
  have hended : AllEnded rt s.1 := by
    intro id new hnew
    cases hget : store.jobDirs.get id with
    | none => cases (habsent id hget).symm.trans hnew
    | some dir =>
      obtain ⟨k, hk, -⟩ := hdir id dir hget
      exact hk.ended hstable hnew
  refine ⟨⟨hended, ?_, ?_, ?_, ?_, habsent, changed, ?_, ?_, rfl⟩, nothingToRecover hended⟩
  · intro id dir metadata hget hreads hstatus
    obtain ⟨k, hk, -⟩ := hdir id dir hget
    exact hk.eq_failed hreads hstatus
  · intro id dir metadata hget hreads hstatus
    obtain ⟨k, hk, -⟩ := hdir id dir hget
    exact hk.eq_canceled hreads hstatus
  · intro id dir metadata hget hreads hterminal
    obtain ⟨k, hk, hiff⟩ := hdir id dir hget
    obtain ⟨rfl, hkept⟩ := hk.eq_kept hreads hterminal
    refine ⟨hkept, fun c hc hwrites => ?_⟩
    rcases hchanged.log c hc with hfirst | hwritten
    · obtain rfl := List.mem_singleton.mp hfirst
      cases hwrites
    · cases hiff.mpr (hwritten id hwrites)
  · intro id dir hget hunreadable
    obtain ⟨k, hk, -⟩ := hdir id dir hget
    exact hk.eq_none hunreadable
  · exact hchanged.sublist.nodup OrderedMap.keys_nodup
  · intro id
    cases hget : store.jobDirs.get id with
    | none =>
      refine iff_of_false (fun hid => ?_) fun hne => hne (habsent id hget)
      obtain ⟨dir, hdir⟩ := get_of_mem_keys id (hchanged.sublist.subset hid)
      cases hget.symm.trans hdir
    | some dir =>
      obtain ⟨k, hk, hiff⟩ := hdir id dir hget
      rw [← hiff]
      rcases hk.changed with ⟨rfl, hne⟩ | ⟨rfl, heq⟩
      · exact iff_of_true rfl hne
      · exact iff_of_false (by omega) (not_not_intro heq)

def dirOf (jobId : String) (status : RunnerJobStatus) (inputs : BTreeMap Value) : JobDir :=
  { metadata := some
      { jobId, name := "deploy", idempotencyKey := jobId, requestHash := "", status, startedAt := 0
        inputs, resolvedArtifacts := .empty } }

def mixedStore : RunnerStore :=
  { jobDirs := .ofList [("job_0", dirOf "job_0" .running .empty), ("job_1", {}),
      ("job_2", dirOf "job_2" .canceling .empty), ("job_3", dirOf "job_3" .success .empty),
      ("job_4", dirOf "job_4" .running (.ofList [("settings", nestedArray 127)]))] }

set_option maxRecDepth 8000 in
theorem recovery_correct_mixed :
    Recovered sampleRuntime mixedStore (recovery sampleRuntime (List.replicate 20 {}) mixedStore).store.1
        (recovery sampleRuntime (List.replicate 20 {}) mixedStore).store.2 4 ∧
      ∀ os', NothingToRecover sampleRuntime
        (recovery sampleRuntime (List.replicate 20 {}) mixedStore).store.1 os' :=
  recovery_correct (fun _ _ _ _ h => h) (by rfl)

end Janus.Runner
