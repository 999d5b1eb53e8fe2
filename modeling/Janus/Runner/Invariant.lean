import Janus.Runner.Discipline

/-! The steps of the runner keep its invariant, and what one task does the others rely on. -/

namespace Janus.Runner

open Janus.Concurrency Janus.Data Janus.Server

namespace RunnerStore

variable {s : RunnerStore} {jobId jobId' : String} {metadata : JobMetadata} {identity : JobIdentity}

lemma dir_setDir (dir : JobDir) :
    (s.setDir jobId dir).dir jobId' = if jobId' = jobId then dir else s.dir jobId' := by
  split
  · next h => rw [h, dir_setDir_self]
  · next h => exact dir_setDir_of_ne s jobId h dir

lemma dir_createDir : (s.setDir jobId (s.dir jobId)).dir jobId' = s.dir jobId' := by
  rw [dir_setDir]
  split
  · next h => rw [h]
  · rfl

lemma metadata_persist : ((s.persist jobId metadata).dir jobId').metadata =
    if jobId' = jobId then some metadata else (s.dir jobId').metadata := by
  rw [persist, dir_setDir]
  split <;> rfl

lemma launched_persist :
    ((s.persist jobId metadata).dir jobId').launched = (s.dir jobId').launched := by
  rw [persist, dir_setDir]
  split
  · next h => rw [h]
  · rfl

lemma metadata_launch {e : JobExecution} :
    ((s.launch e).dir jobId').metadata = (s.dir jobId').metadata := by
  change ((s.setDir e.jobId { s.dir e.jobId with launched := true }).dir jobId').metadata = _
  rw [dir_setDir]
  split
  · next h => rw [h]
  · rfl

lemma launched_launch {e : JobExecution} : ((s.launch e).dir jobId').launched =
    if jobId' = e.jobId then true else (s.dir jobId').launched := by
  change ((s.setDir e.jobId { s.dir e.jobId with launched := true }).dir jobId').launched = _
  rw [dir_setDir]
  split <;> rfl

@[simp] lemma dir_release (writer : Writer) : (writer.release s).dir jobId = s.dir jobId := by
  cases writer <;> rfl

lemma Keeps.of_metadata {s' : RunnerStore} (h : s.Keeps identity)
    (hm : (s'.dir identity.jobId).metadata = (s.dir identity.jobId).metadata) :
    s'.Keeps identity := by
  obtain ⟨metadata, h, hi⟩ := h
  exact ⟨metadata, hm.trans h, hi⟩

lemma Unfinished.of_metadata {s' : RunnerStore} (h : s.Unfinished jobId)
    (hm : (s'.dir jobId).metadata = (s.dir jobId).metadata) : s'.Unfinished jobId := by
  obtain ⟨metadata, h, ht⟩ := h
  exact ⟨metadata, hm.trans h, ht⟩

lemma tokens_begin {m i : ℕ} {e : JobExecution} (h : s.spawned[i]? = some e) :
    (s.begin m i e).tokens.Perm s.tokens := by
  obtain ⟨hi, rfl⟩ := List.getElem?_eq_some_iff.mp h
  refine List.perm_middle.trans ?_
  rw [← List.cons_append]
  exact (List.getElem_cons_eraseIdx_perm hi).append_right _

lemma tokens_release (writer : Writer) : (writer.release s).tokens.Sublist s.tokens := by
  cases writer with
  | finish m => exact (List.Sublist.refl _).append (List.filter_sublist.map _)
  | _ => exact .refl _

lemma jobIds_begin {m i : ℕ} {e : JobExecution} (h : s.spawned[i]? = some e) :
    (s.begin m i e).jobIds.Perm s.jobIds := (tokens_begin h).map _

lemma mem_jobIds {e : JobExecution} (h : e ∈ s.tokens) : e.jobId ∈ s.jobIds :=
  List.mem_map_of_mem h

lemma mem_tokens_of_executing {m : ℕ} {e : JobExecution} (h : (m, e) ∈ s.executing) :
    e ∈ s.tokens := List.mem_append_right _ (List.mem_map_of_mem h)

lemma mem_tokens_of_spawned {e : JobExecution} (h : e ∈ s.spawned) : e ∈ s.tokens :=
  List.mem_append_left _ h

lemma not_mem_jobIds_release (h : s.jobIds.Nodup) {m : ℕ} {e : JobExecution}
    (he : (m, e) ∈ s.executing) : e.jobId ∉ ((Writer.finish m).release s).jobIds := by
  have hperm : s.jobIds.Perm (((Writer.finish m).release s).jobIds ++
      ((s.executing.filter fun e => ¬ e.1 ≠ m).map Prod.snd).map JobExecution.jobId) := by
    rw [jobIds, jobIds, tokens, tokens, Writer.release, ← List.map_append, List.append_assoc,
      ← List.map_append]
    refine List.Perm.map _ (List.Perm.append_left _ (List.Perm.map _ ?_))
    simpa using (List.filter_append_perm (fun e : ℕ × JobExecution => e.1 ≠ m) s.executing).symm
  intro hmem
  refine (List.nodup_append.mp (hperm.nodup_iff.mp h)).2.2 _ hmem _ ?_ rfl
  exact List.mem_map_of_mem (List.mem_map_of_mem (f := Prod.snd)
    (List.mem_filter.mpr ⟨he, by simp⟩))

end RunnerStore

variable {R : Regime} {rt : Runtime} {r : RunnerRole} {c : RunnerCall} {s s' : RunnerStore}
variable {x : Except JobError c.Result} {jobId : String} {metadata : JobMetadata} {writer : Writer}

open RunnerStore

lemma Sane.not_mem_jobIds (h : Sane R rt s) (hm : (s.dir jobId).metadata = none) :
    jobId ∉ s.jobIds := by
  intro hmem
  obtain ⟨e, he, rfl⟩ := List.mem_map.mp hmem
  obtain ⟨-, -, ⟨metadata, hd, -⟩, -⟩ := h.tokens e he
  rw [hm] at hd
  cases hd

lemma Writer.Before.current (h : Sane R rt s) (hb : writer.Before rt r jobId metadata s) :
    (∃ n, writer = .create n ∧ r.creates n ∧ s.createLock = some n ∧
      (s.dir jobId).metadata = none) ∨
    ∃ current, (s.dir jobId).metadata = some current ∧ current.identity = metadata.identity := by
  cases writer with
  | create n => exact .inl ⟨n, rfl, hb.1, hb.2.1, hb.2.2.1⟩
  | cancel => exact .inr hb.1
  | canceling m =>
    obtain ⟨-, e, he, rfl, hi, -⟩ := hb
    obtain ⟨hid, ⟨current, hc, hci⟩, -⟩ := h.tokens e (mem_tokens_of_executing he)
    exact .inr ⟨current, hid ▸ hc, hci.trans hi.symm⟩
  | finish m =>
    obtain ⟨-, e, he, rfl, hi, -⟩ := hb
    obtain ⟨hid, ⟨current, hc, hci⟩, -⟩ := h.tokens e (mem_tokens_of_executing he)
    exact .inr ⟨current, hid ▸ hc, hci.trans hi.symm⟩
  | recovery =>
    obtain ⟨-, -, current, hc, hi, -⟩ := hb
    exact .inr ⟨current, hc, hi⟩

lemma Writer.Before.dirs (h : Sane R rt s) (hb : writer.Before rt r jobId metadata s) :
    metadata.jobId = jobId ∧ jobId = jobIdForIdempotencyKey rt metadata.idempotencyKey := by
  rcases hb.current h with ⟨n, rfl, -⟩ | ⟨current, hc, hi⟩
  · exact ⟨hb.2.2.2.1, hb.2.2.2.2.1⟩
  · obtain ⟨hd, hk⟩ := h.dirs jobId current hc
    have hid : current.jobId = metadata.jobId := congrArg JobIdentity.jobId hi
    have hkey : current.idempotencyKey = metadata.idempotencyKey :=
      congrArg JobIdentity.idempotencyKey hi
    exact ⟨hid ▸ hd, hkey ▸ hk⟩

lemma Writer.Before.keeps (h : Sane R rt s) (hb : writer.Before rt r jobId metadata s)
    {identity : JobIdentity} (hk : s.Keeps identity) : (s.persist jobId metadata).Keeps identity := by
  obtain ⟨kept, hd, hi⟩ := hk
  by_cases hj : identity.jobId = jobId
  · refine ⟨metadata, by rw [metadata_persist, if_pos hj], ?_⟩
    rcases hb.current h with ⟨n, -, -, -, hn⟩ | ⟨current, hc, hci⟩
    · rw [hj, hn] at hd
      cases hd
    · rw [hj, hc] at hd
      cases hd
      exact hci.symm.trans hi
  · exact ⟨kept, by rw [metadata_persist, if_neg hj, hd], hi⟩

lemma Writer.Before.unfinished (h : Sane R rt s) (hb : writer.Before rt r jobId metadata s)
    {e : JobExecution} (he : e ∈ (writer.release (s.persist jobId metadata)).tokens) :
    (s.persist jobId metadata).Unfinished e.jobId := by
  have hmem : e ∈ s.tokens := (tokens_release writer (s := s.persist jobId metadata)).subset he
  by_cases hj : e.jobId = jobId
  · refine ⟨metadata, by rw [metadata_persist, if_pos hj], ?_⟩
    cases writer with
    | create n => exact (h.not_mem_jobIds hb.2.2.1 (hj ▸ mem_jobIds hmem)).elim
    | cancel =>
      rw [hb.2]
      rfl
    | canceling m =>
      obtain ⟨-, -, -, -, -, hs⟩ := hb
      rw [hs]
      rfl
    | finish m =>
      obtain ⟨-, e', he', hj', -⟩ := hb
      have hnot := not_mem_jobIds_release h.nodup he'
      exact (hnot (hj'.trans hj.symm ▸ List.mem_map_of_mem he)).elim
    | recovery =>
      rw [h.stopped hb.2.1] at hmem
      cases hmem
  · refine (h.tokens e hmem).2.2.1.of_metadata ?_
    rw [metadata_persist, if_neg hj]

lemma dir_removeDir {J : String} : ({ s with jobDirs := s.jobDirs.remove jobId } : RunnerStore).dir J =
    if J = jobId then {} else s.dir J := by
  split
  · next h => simp [RunnerStore.dir, h, OrderedMap.get_remove_self]
  · next h => simp [RunnerStore.dir, OrderedMap.get_remove_of_ne h]

lemma Sane.keeps_step (h : Sane R rt s) (hb : Before R rt r c s) (he : c.Effect rt s x s')
    (hr : R.durable ∨ r ≠ .boot) {identity : JobIdentity} (hk : s.Keeps identity) :
    s'.Keeps identity := by
  have hlost (J : String) (hdur : R.durable)
      (hdead : ∀ metadata, (s.dir J).metadata = some metadata → rt.readsBack metadata = false) :
      identity.jobId ≠ J := by
    rintro rfl
    obtain ⟨metadata, hm, -⟩ := hk
    have hread := (h.lasting hdur).readable _ _ hm
    rw [hdead metadata hm] at hread
    cases hread
  cases he with
  | createDir n J sub => exact hk.of_metadata (by rw [dir_createDir])
  | persisted w J metadata => exact (Writer.Before.keeps h hb hk).of_metadata (by rw [dir_release])
  | unpersisted w J metadata => exact hk.of_metadata (by rw [dir_release])
  | launched m i e found => exact hk.of_metadata metadata_launch
  | removeDir J =>
    obtain ⟨hboot, -, hdead⟩ := hb
    have hne := hlost J (hr.resolve_right (· hboot)) hdead
    exact hk.of_metadata (by rw [dir_removeDir, if_neg hne])
  | clearDir J =>
    obtain ⟨hboot, -, hdead⟩ := hb
    have hne := hlost J (hr.resolve_right (· hboot)) hdead
    exact hk.of_metadata (by rw [dir_setDir, if_neg hne])
  | _ => exact hk

lemma Sane.nodup_step (h : Sane R rt s) (hb : Before R rt r c s) (he : c.Effect rt s x s') :
    s'.jobIds.Nodup := by
  cases he with
  | persisted w J metadata => exact h.nodup.sublist ((tokens_release w).map _)
  | unpersisted w J metadata => exact h.nodup.sublist ((tokens_release w).map _)
  | spawn n e =>
    have htokens : ({ s with spawned := s.spawned ++ [e] } : RunnerStore).tokens.Perm
        (e :: s.tokens) := by
      rw [RunnerStore.tokens, List.append_assoc]
      exact List.perm_middle
    have hperm : ({ s with spawned := s.spawned ++ [e] } : RunnerStore).jobIds.Perm
        (e.jobId :: s.jobIds) := htokens.map _
    exact hperm.nodup_iff.mpr (List.nodup_cons.mpr ⟨SpawnBefore.fresh hb, h.nodup⟩)
  | begun m i e found => exact (jobIds_begin found).nodup_iff.mpr h.nodup
  | launched m i e found => exact (jobIds_begin found).nodup_iff.mpr h.nodup
  | _ => exact h.nodup

lemma Sane.runs_step (h : Sane R rt s) (he : c.Effect rt s x s') :
    ∀ e ∈ s'.executing, e.1 ∈ s'.history.runs := by
  have hbegin (m i : ℕ) (execution : JobExecution) :
      ∀ e ∈ (s.begin m i execution).executing, e.1 ∈ (s.begin m i execution).history.runs := by
    intro e he
    rcases List.mem_cons.mp he with rfl | he
    · exact List.mem_cons_self
    · exact List.mem_cons_of_mem _ (h.runs e he)
  cases he with
  | persisted w J metadata =>
    cases w with
    | finish m => exact fun e he => h.runs e (List.mem_of_mem_filter he)
    | _ => exact h.runs
  | unpersisted w J metadata =>
    cases w with
    | finish m => exact fun e he => h.runs e (List.mem_of_mem_filter he)
    | _ => exact h.runs
  | begun m i e found => exact hbegin m i e
  | launched m i e found => exact hbegin m i e
  | _ => exact h.runs

lemma serving_release (w : Writer) : (w.release s).serving = s.serving := by
  cases w <;> rfl

lemma Sane.stopped_step (h : Sane R rt s) (hb : Before R rt r c s) (he : c.Effect rt s x s')
    (hs : s'.serving = false) : s'.tokens = [] := by
  have hbegin {m i : ℕ} {e : JobExecution} (found : s.spawned[i]? = some e)
      (hs : s.serving = false) : (s.begin m i e).tokens = [] :=
    List.perm_nil.mp (h.stopped hs ▸ tokens_begin found)
  cases he with
  | persisted w J metadata =>
    rw [serving_release] at hs
    exact List.sublist_nil.mp (h.stopped hs ▸ tokens_release w (s := s.persist J metadata))
  | unpersisted w J metadata =>
    rw [serving_release] at hs
    exact List.sublist_nil.mp (h.stopped hs ▸ tokens_release w)
  | spawn n e => exact absurd (SpawnBefore.serving hb) (by simpa using hs)
  | begun m i e found => exact hbegin found hs
  | launched m i e found => exact hbegin found hs
  | serve => cases hs
  | _ => exact h.stopped hs

lemma Sane.dirs_step (h : Sane R rt s) (hb : Before R rt r c s) (he : c.Effect rt s x s')
    {J : String} {metadata : JobMetadata} (hm : (s'.dir J).metadata = some metadata) :
    metadata.jobId = J ∧ J = jobIdForIdempotencyKey rt metadata.idempotencyKey := by
  cases he with
  | createDir n J' sub =>
    rw [dir_createDir] at hm
    exact h.dirs J metadata hm
  | persisted w J' metadata' =>
    rw [dir_release, metadata_persist] at hm
    split at hm
    · next hj =>
      cases hm
      subst hj
      exact Writer.Before.dirs h hb
    · exact h.dirs J metadata hm
  | unpersisted w J' metadata' =>
    rw [dir_release] at hm
    exact h.dirs J metadata hm
  | launched m i e found => exact h.dirs J metadata (metadata_launch ▸ hm)
  | removeDir J' =>
    rw [dir_removeDir] at hm
    split at hm
    · cases hm
    · exact h.dirs J metadata hm
  | clearDir J' =>
    rw [dir_setDir] at hm
    split at hm
    · cases hm
    · exact h.dirs J metadata hm
  | _ => exact h.dirs J metadata hm

def TokenSane (s : RunnerStore) (e : JobExecution) : Prop :=
  e.metadata.jobId = e.jobId ∧ s.Keeps e.metadata.identity ∧ s.Unfinished e.jobId ∧
    e.channel ∈ s.inserted

lemma TokenSane.of_metadata {e : JobExecution} (h : TokenSane s e)
    (hm : ∀ J, (s'.dir J).metadata = (s.dir J).metadata) (hi : ∀ n ∈ s.inserted, n ∈ s'.inserted) :
    TokenSane s' e :=
  ⟨h.1, h.2.1.of_metadata (hm _), h.2.2.1.of_metadata (hm _), hi _ h.2.2.2⟩

lemma inserted_release (w : Writer) : (w.release s).inserted = s.inserted := by
  cases w <;> rfl

lemma Sane.tokens_step (h : Sane R rt s) (hb : Before R rt r c s) (he : c.Effect rt s x s')
    {e : JobExecution} (hmem : e ∈ s'.tokens) : TokenSane s' e := by
  have hbegin {m i : ℕ} {e' : JobExecution} (found : s.spawned[i]? = some e')
      (hmem : e ∈ (s.begin m i e').tokens) : TokenSane (s.begin m i e') e :=
    h.tokens e ((tokens_begin found).subset hmem)
  cases he with
  | createDir n J sub =>
    exact TokenSane.of_metadata (h.tokens e hmem) (fun _ => by rw [dir_createDir]) fun _ hn => hn
  | persisted w J metadata =>
    have hold := h.tokens e ((tokens_release w (s := s.persist J metadata)).subset hmem)
    refine ⟨hold.1, ?_, ?_, ?_⟩
    · exact (Writer.Before.keeps h hb hold.2.1).of_metadata (by rw [dir_release])
    · exact (Writer.Before.unfinished h hb hmem).of_metadata (by rw [dir_release])
    · rw [inserted_release]
      exact hold.2.2.2
  | unpersisted w J metadata =>
    refine TokenSane.of_metadata (h.tokens e ((tokens_release w).subset hmem))
      (fun _ => by rw [dir_release]) fun n hn => ?_
    rwa [inserted_release]
  | admitted n manifest J free =>
    exact TokenSane.of_metadata (h.tokens e hmem) (fun _ => rfl)
      fun k hk => List.mem_cons_of_mem _ hk
  | spawn n e' =>
    obtain ⟨-, -, -, hins, hch, hid, -, hkeeps, hunf, -⟩ := hb
    have hcases : e ∈ s.tokens ∨ e = e' := by
      simp only [RunnerStore.tokens, List.mem_append, List.mem_singleton] at hmem ⊢
      tauto
    rcases hcases with hold | rfl
    · exact h.tokens e hold
    · exact ⟨hid, hkeeps, hunf, hch ▸ hins⟩
  | begun m i e' found => exact hbegin found hmem
  | launched m i e' found =>
    exact (hbegin found hmem).of_metadata (fun _ => metadata_launch) fun _ hn => hn
  | removeDir J =>
    have hnone : e ∈ s.tokens := hmem
    rw [h.stopped hb.2.1] at hnone
    cases hnone
  | clearDir J =>
    have hnone : e ∈ s.tokens := hmem
    rw [h.stopped hb.2.1] at hnone
    cases hnone
  | _ => exact h.tokens e hmem

lemma Sane.waiting_step (h : Sane R rt s) (hb : Before R rt r c s) (he : c.Effect rt s x s')
    {e : JobExecution} (hmem : e ∈ s'.spawned) : (s'.dir e.jobId).launched = false := by
  cases he with
  | createDir n J sub =>
    rw [dir_createDir]
    exact h.waiting e hmem
  | persisted w J metadata =>
    have hspawned : (w.release (s.persist J metadata)).spawned = s.spawned := by cases w <;> rfl
    rw [dir_release, launched_persist]
    exact h.waiting e (hspawned ▸ hmem)
  | unpersisted w J metadata =>
    have hspawned : (w.release s).spawned = s.spawned := by cases w <;> rfl
    rw [dir_release]
    exact h.waiting e (hspawned ▸ hmem)
  | spawn n e' =>
    rcases List.mem_append.mp hmem with hmem | hmem
    · exact h.waiting e hmem
    · obtain rfl := List.mem_singleton.mp hmem
      have hnew : (s.dir e.jobId).launched = false := SpawnBefore.launched hb
      exact hnew
  | begun m i e' found => exact h.waiting e (List.mem_of_mem_eraseIdx hmem)
  | launched m i e' found =>
    rw [launched_launch, if_neg]
    · exact h.waiting e (List.mem_of_mem_eraseIdx hmem)
    · intro hj
      have hnodup := (jobIds_begin (m := m) found).nodup_iff.mpr h.nodup
      have hleft : e.jobId ∈ (s.spawned.eraseIdx i).map JobExecution.jobId :=
        List.mem_map_of_mem hmem
      rw [RunnerStore.jobIds, RunnerStore.tokens, List.map_append, List.nodup_append] at hnodup
      exact hnodup.2.2 _ hleft _ (List.mem_cons_self) hj
  | removeDir J =>
    have hnone := mem_tokens_of_spawned (s := s) hmem
    rw [h.stopped hb.2.1] at hnone
    cases hnone
  | clearDir J =>
    have hnone := mem_tokens_of_spawned (s := s) hmem
    rw [h.stopped hb.2.1] at hnone
    cases hnone
  | _ => exact h.waiting e hmem

lemma mem_entries_of_remove {m : BTreeMap RunningJob} {k : String} {e : String × RunningJob}
    (h : e ∈ (m.remove k).entries) : e ∈ m.entries := List.mem_of_mem_filter h

lemma runningJobs_release (w : Writer) : (w.release s).runningJobs = s.runningJobs := by
  cases w <;> rfl

lemma Sane.keyed_step (h : Sane R rt s) (he : c.Effect rt s x s') {e : String × RunningJob}
    (hmem : e ∈ s'.runningJobs.entries) : e.2.jobId = e.1 := by
  cases he with
  | persisted w J metadata =>
    rw [runningJobs_release] at hmem
    exact h.keyed e hmem
  | unpersisted w J metadata => exact h.keyed e (runningJobs_release w ▸ hmem)
  | admitted n manifest J free =>
    rcases OrderedMap.mem_insert.mp hmem with rfl | ⟨hmem, -⟩
    · rfl
    · exact h.keyed e hmem
  | removeRunning J => exact h.keyed e (mem_entries_of_remove hmem)
  | _ => exact h.keyed e hmem

lemma history_release (w : Writer) : (w.release s).history = s.history := by
  cases w <;> rfl

lemma Sane.arrived_step (h : Sane R rt s) (he : c.Effect rt s x s') {n k : ℕ}
    (hk : s'.history.arrived.lookup n = some k) : k ≤ s'.history.answers.length := by
  cases he with
  | arrive n' serving fresh =>
    rw [List.lookup_cons] at hk
    split at hk
    · cases hk
      exact le_rfl
    · exact h.arrived n k hk
  | respond n' name key body result =>
    have := h.arrived n k hk
    simp only [List.length_append]
    omega
  | persisted w J metadata =>
    rw [history_release] at hk ⊢
    exact h.arrived n k hk
  | unpersisted w J metadata =>
    rw [history_release] at hk ⊢
    exact h.arrived n k hk
  | _ => exact h.arrived n k hk

lemma Answered.mono {name key : String} {body : Bytes} {created : JobCreated}
    (h : Answered rt s name key body created)
    (hk : ∀ identity, s.Keeps identity → s'.Keeps identity) : Answered rt s' name key body created :=
  ⟨h.admissible, h.jobId, hk _ h.keeps⟩

lemma ProcessSane.not_mem (h : ProcessSane rt s) {key : String}
    (hn : (s.dir (jobIdForIdempotencyKey rt key)).launched = false) : key ∉ s.history.processes := by
  intro hmem
  rw [(h.launched key hmem).1] at hn
  cases hn

lemma Sane.readable_step (h : Sane R rt s) (hd : R.durable)
    (hp : ∀ writer jobId metadata, c = .persistMetadata writer jobId metadata →
      rt.readsBack metadata = true) (he : c.Effect rt s x s')
    {J : String} {metadata : JobMetadata} (hm : (s'.dir J).metadata = some metadata) :
    rt.readsBack metadata = true := by
  have hread := (h.lasting hd).readable
  cases he with
  | createDir n J' sub =>
    rw [dir_createDir] at hm
    exact hread J metadata hm
  | persisted w J' metadata' =>
    rw [dir_release, metadata_persist] at hm
    split at hm
    · cases hm
      exact hp w J' metadata rfl
    · exact hread J metadata hm
  | unpersisted w J' metadata' =>
    rw [dir_release] at hm
    exact hread J metadata hm
  | launched m i e found => exact hread J metadata (metadata_launch ▸ hm)
  | removeDir J' =>
    rw [dir_removeDir] at hm
    split at hm
    · cases hm
    · exact hread J metadata hm
  | clearDir J' =>
    rw [dir_setDir] at hm
    split at hm
    · cases hm
    · exact hread J metadata hm
  | _ => exact hread J metadata hm

lemma Sane.answers_step (h : Sane R rt s) (hd : R.durable) (hb : Before R rt r c s)
    (he : c.Effect rt s x s') {a : Answer} (ha : a ∈ s'.history.answers) {created : JobCreated}
    (hc : a.result = .ok created) : Answered rt s' a.name a.idempotencyKey a.body created := by
  have hkeeps (identity : JobIdentity) (hk : s.Keeps identity) : s'.Keeps identity :=
    h.keeps_step hb he (.inl hd) hk
  have hold (ha : a ∈ s.history.answers) : Answered rt s' a.name a.idempotencyKey a.body created :=
    ((h.lasting hd).answers a ha created hc).mono hkeeps
  cases he with
  | respond n name key body result =>
    rcases List.mem_append.mp ha with ha | ha
    · exact hold ha
    · obtain rfl := List.mem_singleton.mp ha
      exact (hb.2.2.1 created hc).mono hkeeps
  | persisted w J metadata =>
    rw [history_release] at ha
    exact hold ha
  | unpersisted w J metadata =>
    rw [history_release] at ha
    exact hold ha
  | _ => exact hold ha

lemma ProcessSane.of_dir (h : ProcessSane rt s) (hp : s'.history.processes = s.history.processes)
    (hl : ∀ J, (s'.dir J).launched = (s.dir J).launched)
    (hm : ∀ J, (s.dir J).metadata.isSome = true → (s'.dir J).metadata.isSome = true) :
    ProcessSane rt s' := by
  refine ⟨fun key hkey => ?_, hp ▸ h.nodup⟩
  obtain ⟨h1, h2⟩ := h.launched key (hp ▸ hkey)
  exact ⟨(hl _).trans h1, hm _ h2⟩

lemma Sane.processes_step (h : Sane R rt s) (hd : R.durable) (hb : Before R rt r c s)
    (he : c.Effect rt s x s') : ProcessSane rt s' := by
  have hl := h.lasting hd
  have hs := hl.processes
  have hlost (J : String)
      (hdead : ∀ metadata, (s.dir J).metadata = some metadata → rt.readsBack metadata = false)
      {J' : String} (hm : (s.dir J').metadata.isSome = true) : J' ≠ J := by
    rintro rfl
    obtain ⟨metadata, hm⟩ := Option.isSome_iff_exists.mp hm
    have hread := hl.readable _ _ hm
    rw [hdead metadata hm] at hread
    cases hread
  cases he with
  | createDir n J sub =>
    exact hs.of_dir rfl (fun _ => by rw [dir_createDir]) fun _ hm => by rwa [dir_createDir]
  | persisted w J metadata =>
    refine hs.of_dir (by rw [history_release]; rfl) (fun _ => ?_) fun J' hm => ?_
    · rw [dir_release, launched_persist]
    · rw [dir_release, metadata_persist]
      split
      · rfl
      · exact hm
  | unpersisted w J metadata =>
    exact hs.of_dir (by rw [history_release]) (fun _ => by rw [dir_release])
      fun _ hm => by rwa [dir_release]
  | launched m i e found =>
    have hmem := mem_tokens_of_spawned (List.mem_of_getElem? found)
    obtain ⟨hid, ⟨current, hc, hci⟩, -⟩ := h.tokens e hmem
    have hjob : e.jobId = jobIdForIdempotencyKey rt e.metadata.idempotencyKey := by
      have hkey : current.idempotencyKey = e.metadata.idempotencyKey :=
        congrArg JobIdentity.idempotencyKey hci
      exact hkey ▸ hid ▸ (h.dirs _ _ hc).2
    refine ⟨fun key hkey => ?_, List.nodup_cons.mpr ⟨?_, hs.nodup⟩⟩
    · rw [launched_launch, metadata_launch]
      rcases List.mem_cons.mp hkey with rfl | hkey
      · refine ⟨if_pos hjob.symm, ?_⟩
        rw [← hjob]
        exact Option.isSome_iff_exists.mpr ⟨current, hid ▸ hc⟩
      · obtain ⟨h1, h2⟩ := hs.launched key hkey
        refine ⟨?_, h2⟩
        split
        · rfl
        · exact h1
    · refine hs.not_mem ?_
      rw [← hjob]
      exact h.waiting e (List.mem_of_getElem? found)
  | removeDir J =>
    refine ⟨fun key hkey => ?_, hs.nodup⟩
    obtain ⟨h1, h2⟩ := hs.launched key hkey
    rw [dir_removeDir, if_neg (hlost J hb.2.2 h2)]
    exact ⟨h1, h2⟩
  | clearDir J =>
    refine ⟨fun key hkey => ?_, hs.nodup⟩
    obtain ⟨h1, h2⟩ := hs.launched key hkey
    rw [dir_setDir, if_neg (hlost J hb.2.2 h2)]
    exact ⟨h1, h2⟩
  | _ => exact ⟨hs.launched, hs.nodup⟩

lemma shutdown_release (w : Writer) : (w.release s).shutdownReturned = s.shutdownReturned ∧
    (w.release s).shutdownLocked = s.shutdownLocked ∧ (w.release s).signaled = s.signaled := by
  cases w <;> exact ⟨rfl, rfl, rfl⟩

lemma Sane.returned_step (h : Sane R rt s) (hb : Before R rt r c s) (he : c.Effect rt s x s')
    (hr : s'.shutdownReturned = true) : s'.shutdownLocked = true := by
  cases he with
  | persisted w J metadata =>
    rw [(shutdown_release w).1] at hr
    rw [(shutdown_release w).2.1]
    exact h.returned hr
  | unpersisted w J metadata =>
    rw [(shutdown_release w).1] at hr
    rw [(shutdown_release w).2.1]
    exact h.returned hr
  | lockRunning => rfl
  | unlockRunning => exact hb.1
  | _ => exact h.returned hr

lemma Sane.signaled_step (h : Sane R rt s) (hd : R.sealed) (hb : Before R rt r c s)
    (hp : ∀ n manifest jobId, c = .insertRunning n manifest jobId →
      enforceConcurrency manifest s.runningJobs = .ok () → s.shutdownLocked = false)
    (he : c.Effect rt s x s') (hr : s'.shutdownReturned = true) :
    ∀ e ∈ s'.runningJobs.entries, e.2.channel ∈ s'.signaled := by
  cases he with
  | persisted w J metadata =>
    rw [(shutdown_release w).1] at hr
    rw [(shutdown_release w).2.2, runningJobs_release]
    exact h.signaled hd hr
  | unpersisted w J metadata =>
    rw [(shutdown_release w).1] at hr
    rw [(shutdown_release w).2.2, runningJobs_release]
    exact h.signaled hd hr
  | admitted n manifest J free =>
    have hopen := hp n manifest J rfl free
    rw [h.returned hr] at hopen
    cases hopen
  | removeRunning J => exact fun e he => h.signaled hd hr e (mem_entries_of_remove he)
  | signal J channel => exact fun e he => List.mem_cons_of_mem _ (h.signaled hd hr e he)
  | unlockRunning => exact hb.2 hd
  | _ => exact h.signaled hd hr

theorem Sane.step (h : Sane R rt s) (hb : Before R rt r c s) {o : Outcome}
    (hp : Permits R rt r c o s) (he : c.Effect rt s x s') : Sane R rt s' where
  nodup := h.nodup_step hb he
  runs := h.runs_step he
  stopped := h.stopped_step hb he
  dirs _ _ := h.dirs_step hb he
  tokens _ := h.tokens_step hb he
  waiting _ := h.waiting_step hb he
  keyed _ := h.keyed_step he
  arrived _ _ := h.arrived_step he
  lasting hd :=
    { readable := fun _ _ => h.readable_step hd (hp.durable hd) he
      answers := fun _ ha _ => h.answers_step hd hb he ha
      processes := h.processes_step hd hb he }
  returned hr := h.returned_step hb he hr
  signaled hd := h.signaled_step hd hb (hp.sealed hd) he

theorem Sane.of_disk
    (dirs : ∀ jobId metadata, (s.dir jobId).metadata = some metadata → metadata.jobId = jobId ∧
      jobId = jobIdForIdempotencyKey rt metadata.idempotencyKey)
    (arrived : ∀ n k, s.history.arrived.lookup n = some k → k ≤ s.history.answers.length)
    (lasting : R.durable → Lasting rt s) : Sane R rt s.crashed where
  nodup := .nil
  runs _ he := absurd he List.not_mem_nil
  stopped _ := rfl
  dirs := dirs
  tokens _ he := absurd he List.not_mem_nil
  waiting _ he := absurd he List.not_mem_nil
  keyed _ he := absurd he List.not_mem_nil
  arrived := arrived
  lasting hd :=
    { readable := (lasting hd).readable
      answers := fun a ha created hc =>
        ((lasting hd).answers a ha created hc).mono fun _ hk => hk.of_metadata rfl
      processes := ⟨(lasting hd).processes.launched, (lasting hd).processes.nodup⟩ }
  returned hr := absurd hr Bool.false_ne_true
  signaled _ hr := absurd hr Bool.false_ne_true

theorem Sane.crashed (h : Sane R rt s) : Sane R rt s.crashed := .of_disk h.dirs h.arrived h.lasting

lemma dir_initial : ({} : RunnerStore).dir jobId = {} := rfl

theorem Sane.initial : Sane R rt {} := by
  refine Sane.of_disk (s := {}) (fun J metadata hm => ?_) (fun n k hk => ?_) fun _ => ⟨?_, ?_, ?_, .nil⟩
  · rw [dir_initial] at hm
    cases hm
  · cases hk
  · intro J metadata hm
    rw [dir_initial] at hm
    cases hm
  · exact fun a ha => absurd ha List.not_mem_nil
  · exact fun key hkey => absurd hkey List.not_mem_nil

lemma lock_release (w : Writer) : (w.release s).createLock = s.createLock := by
  cases w <;> rfl

lemma beside_ne_boot {r r' : RunnerRole} (h : r.beside r' = true ∨ r'.beside r = true) :
    r ≠ .boot ∧ r' ≠ .boot := by
  constructor
  · rintro rfl
    cases r' <;> simp [RunnerRole.beside] at h
  · rintro rfl
    cases r <;> simp [RunnerRole.beside] at h

lemma beside_creates {r r' : RunnerRole} (h : r.beside r' = true ∨ r'.beside r = true) {n : ℕ}
    (hr : r.creates n) : ¬ r'.creates n := by
  intro hr'
  cases r <;> simp only [RunnerRole.creates] at hr
  cases r' <;> simp only [RunnerRole.creates] at hr'
  subst hr hr'
  simp [RunnerRole.beside] at h

lemma beside_run {m m' : ℕ}
    (h : (RunnerRole.run m).beside (.run m') = true ∨ (RunnerRole.run m').beside (.run m) = true) :
    m ≠ m' := by
  rintro rfl
  simp [RunnerRole.beside] at h

section

variable {r' : RunnerRole} (hbeside : r.beside r' = true ∨ r'.beside r = true)

include hbeside

lemma Sane.executing_compat (hb : Before R rt r c s) (he : c.Effect rt s x s') {m : ℕ}
    (hr : r' = .run m) {e : JobExecution} (hmem : (m, e) ∈ s.executing) : (m, e) ∈ s'.executing := by
  subst hr
  have hrelease {w : Writer} {J : String} {metadata : JobMetadata} {t : RunnerStore}
      (hw : w.Before rt r J metadata s) (ht : t.executing = s.executing) :
      (m, e) ∈ (w.release t).executing := by
    cases w with
    | finish m' =>
      obtain ⟨rfl, -⟩ := hw
      have hne := beside_run hbeside
      exact List.mem_filter.mpr ⟨ht ▸ hmem, by simpa using hne.symm⟩
    | _ => exact ht ▸ hmem
  cases he with
  | persisted w J metadata => exact hrelease hb rfl
  | unpersisted w J metadata => exact hrelease hb rfl
  | begun m' i e' found => exact List.mem_cons_of_mem _ hmem
  | launched m' i e' found => exact List.mem_cons_of_mem _ hmem
  | _ => exact hmem

lemma Sane.createLock_compat (hb : Before R rt r c s) (he : c.Effect rt s x s') {n : ℕ}
    (hr : r'.creates n) (hl : s.createLock = some n) : s'.createLock = some n := by
  cases he with
  | lockCreate n' free =>
    rw [free] at hl
    cases hl
  | unlockCreate n' =>
    obtain ⟨hr', hl'⟩ := hb
    rw [hl'] at hl
    cases hl
    exact absurd hr (beside_creates hbeside hr')
  | persisted w J metadata => rwa [lock_release]
  | unpersisted w J metadata => rwa [lock_release]
  | _ => exact hl

lemma Writer.Before.compat {n : ℕ} (hr : r'.creates n) (hl : s.createLock = some n)
    {J : String} {metadata : JobMetadata} (hb : writer.Before rt r J metadata s)
    (hJ : J ∉ s.jobIds) :
    (∃ current, (s.dir J).metadata = some current) ∧ metadata.status.isTerminal = false := by
  cases writer with
  | create n' =>
    obtain ⟨hr', hl', -⟩ := hb
    rw [hl'] at hl
    cases hl
    exact absurd hr (beside_creates hbeside hr')
  | cancel =>
    obtain ⟨⟨current, hc, -⟩, hs⟩ := hb
    exact ⟨⟨current, hc⟩, by rw [hs]; rfl⟩
  | canceling m =>
    obtain ⟨-, e, he, rfl, -⟩ := hb
    exact absurd (mem_jobIds (mem_tokens_of_executing he)) hJ
  | finish m =>
    obtain ⟨-, e, he, rfl, -⟩ := hb
    exact absurd (mem_jobIds (mem_tokens_of_executing he)) hJ
  | recovery => exact absurd hb.1 (beside_ne_boot hbeside).1

lemma Before.lockRely (hb : Before R rt r c s) (he : c.Effect rt s x s') {n : ℕ}
    (hr : r'.creates n) (hl : s.createLock = some n) : LockRely s s' := by
  cases he with
  | createDir n' J sub =>
    exact ⟨fun _ hJ => hJ, fun _ _ => by rw [dir_createDir], fun _ _ hm => by rwa [dir_createDir],
      fun _ _ hu => hu.of_metadata (by rw [dir_createDir])⟩
  | persisted w J metadata =>
    have hsub := (tokens_release w (s := s.persist J metadata)).map JobExecution.jobId
    refine ⟨fun J' hJ' hmem => hJ' (hsub.subset hmem), fun J' _ => ?_, fun J' hJ' hm => ?_,
      fun J' hJ' hu => ?_⟩
    · rw [dir_release, launched_persist]
    · rw [dir_release, metadata_persist]
      split
      · next hj =>
        subst hj
        obtain ⟨⟨current, hc⟩, -⟩ := Writer.Before.compat hbeside hr hl hb hJ'
        rw [hm] at hc
        cases hc
      · exact hm
    · by_cases hj : J' = J
      · subst hj
        refine ⟨metadata, ?_, (Writer.Before.compat hbeside hr hl hb hJ').2⟩
        rw [dir_release, metadata_persist, if_pos rfl]
      · exact hu.of_metadata (by rw [dir_release, metadata_persist, if_neg hj])
  | unpersisted w J metadata =>
    have hsub := (tokens_release w (s := s)).map JobExecution.jobId
    exact ⟨fun J' hJ' hmem => hJ' (hsub.subset hmem), fun _ _ => by rw [dir_release],
      fun _ _ hm => by rwa [dir_release], fun _ _ hu => hu.of_metadata (by rw [dir_release])⟩
  | spawn n' e =>
    have hl' := SpawnBefore.lock hb
    rw [hl'] at hl
    cases hl
    exact absurd hr (beside_creates hbeside (SpawnBefore.role hb))
  | begun m i e found =>
    exact ⟨fun J hJ hmem => hJ ((jobIds_begin found).subset hmem), fun _ _ => rfl, fun _ _ hm => hm,
      fun _ _ hu => hu⟩
  | launched m i e found =>
    have hmem := mem_jobIds (mem_tokens_of_spawned (List.mem_of_getElem? found))
    refine ⟨fun J hJ hmem => hJ ((jobIds_begin found).subset hmem), fun J hJ => ?_, fun J _ hm => ?_,
      fun J _ hu => hu.of_metadata metadata_launch⟩
    · rw [launched_launch, if_neg]
      · rfl
      · rintro rfl
        exact hJ hmem
    · rwa [metadata_launch]
  | removeDir J => exact absurd hb.1 (beside_ne_boot hbeside).1
  | clearDir J => exact absurd hb.1 (beside_ne_boot hbeside).1
  | _ => exact ⟨fun _ hJ => hJ, fun _ _ => rfl, fun _ _ hm => hm, fun _ _ hu => hu⟩

end

lemma serving_step (he : c.Effect rt s x s') (hs : s.serving = true) : s'.serving = true := by
  cases he with
  | persisted w J metadata => rwa [serving_release]
  | unpersisted w J metadata => rwa [serving_release]
  | serve => rfl
  | _ => exact hs

lemma shuttingDown_step (he : c.Effect rt s x s') (hs : s.shuttingDown = true) :
    s'.shuttingDown = true := by
  cases he with
  | persisted w J metadata => cases w <;> exact hs
  | unpersisted w J metadata => cases w <;> exact hs
  | setShuttingDown => rfl
  | _ => exact hs

lemma answers_prefix (he : c.Effect rt s x s') : s.history.answers <+: s'.history.answers := by
  cases he with
  | respond n name key body result => exact List.prefix_append _ _
  | persisted w J metadata =>
    rw [history_release]
    exact List.prefix_refl _
  | unpersisted w J metadata =>
    rw [history_release]
  | _ => exact List.prefix_refl _

lemma lookup_step (he : c.Effect rt s x s') {n k : ℕ}
    (hk : s.history.arrived.lookup n = some k) : s'.history.arrived.lookup n = some k := by
  cases he with
  | arrive n' serving fresh =>
    rw [List.lookup_cons]
    split
    · next heq =>
      obtain rfl := beq_iff_eq.mp heq
      rw [fresh] at hk
      cases hk
    · exact hk
  | persisted w J metadata =>
    rw [history_release]
    exact hk
  | unpersisted w J metadata =>
    rw [history_release]
    exact hk
  | _ => exact hk

lemma inserted_step (he : c.Effect rt s x s') {n : ℕ} (hn : n ∈ s.inserted) : n ∈ s'.inserted := by
  cases he with
  | persisted w J metadata =>
    rw [inserted_release]
    exact hn
  | unpersisted w J metadata =>
    rw [inserted_release]
    exact hn
  | admitted n' manifest J free => exact List.mem_cons_of_mem _ hn
  | _ => exact hn

lemma signal_step (he : c.Effect rt s x s') {channel : ℕ} (hn : channel ∈ s.signaled) :
    channel ∈ s'.signaled := by
  cases he with
  | persisted w J metadata =>
    rw [(shutdown_release w).2.2]
    exact hn
  | unpersisted w J metadata =>
    rw [(shutdown_release w).2.2]
    exact hn
  | signal J channel' => exact List.mem_cons_of_mem _ hn
  | _ => exact hn

lemma shutdownLocked_step (he : c.Effect rt s x s') (hs : s.shutdownLocked = true) :
    s'.shutdownLocked = true := by
  cases he with
  | persisted w J metadata => rwa [(shutdown_release w).2.1]
  | unpersisted w J metadata => rwa [(shutdown_release w).2.1]
  | lockRunning => rfl
  | _ => exact hs

lemma entries_step
    (hp : ∀ n manifest jobId, c = .insertRunning n manifest jobId →
      enforceConcurrency manifest s.runningJobs = .ok () → s.shutdownLocked = false)
    (he : c.Effect rt s x s') (hs : s.shutdownLocked = true) {e : String × RunningJob}
    (hmem : e ∈ s'.runningJobs.entries) : e ∈ s.runningJobs.entries := by
  cases he with
  | persisted w J metadata =>
    rw [runningJobs_release] at hmem
    exact hmem
  | unpersisted w J metadata =>
    rw [runningJobs_release] at hmem
    exact hmem
  | admitted n manifest J free =>
    rw [hp n manifest J rfl free] at hs
    cases hs
  | removeRunning J => exact mem_entries_of_remove hmem
  | _ => exact hmem

theorem Sane.compat (h : Sane R rt s) (hb : Before R rt r c s) {o : Outcome}
    (hp : Permits R rt r c o s) (he : c.Effect rt s x s') {r' : RunnerRole}
    (hbeside : r.beside r' = true ∨ r'.beside r = true) : Rely R r' s s' where
  keeps _ hk := h.keeps_step hb he (.inr (beside_ne_boot hbeside).1) hk
  serving := serving_step he
  shuttingDown := shuttingDown_step he
  answers := answers_prefix he
  arrived _ _ := lookup_step he
  inserted _ := inserted_step he
  executing _ hr _ := Sane.executing_compat hbeside hb he hr
  lock _ hr hl := ⟨Sane.createLock_compat hbeside hb he hr hl, Before.lockRely hbeside hb he hr hl⟩
  shutdownLocked := shutdownLocked_step he
  entries hd hs _ := entries_step (hp.sealed hd) he hs
  signaled _ := signal_step he

lemma LockRely.refl (s : RunnerStore) : LockRely s s :=
  ⟨fun _ hJ => hJ, fun _ _ => rfl, fun _ _ hm => hm, fun _ _ hu => hu⟩

lemma LockRely.trans {s s' s'' : RunnerStore} (h : LockRely s s') (h' : LockRely s' s'') :
    LockRely s s'' where
  jobIds J hJ := h'.jobIds J (h.jobIds J hJ)
  launched J hJ := (h'.launched J (h.jobIds J hJ)).trans (h.launched J hJ)
  absent J hJ hm := h'.absent J (h.jobIds J hJ) (h.absent J hJ hm)
  unfinished J hJ hu := h'.unfinished J (h.jobIds J hJ) (h.unfinished J hJ hu)

lemma Rely.refl (R : Regime) (r : RunnerRole) (s : RunnerStore) : Rely R r s s where
  keeps _ hk := hk
  serving hs := hs
  shuttingDown hs := hs
  answers := List.prefix_refl _
  arrived _ _ hk := hk
  inserted _ hn := hn
  executing _ _ _ he := he
  lock _ _ hl := ⟨hl, .refl s⟩
  shutdownLocked hs := hs
  entries _ _ _ he := he
  signaled _ hn := hn

lemma Rely.trans {s s' s'' : RunnerStore} (h : Rely R r s s') (h' : Rely R r s' s'') :
    Rely R r s s'' where
  keeps i hk := h'.keeps i (h.keeps i hk)
  serving hs := h'.serving (h.serving hs)
  shuttingDown hs := h'.shuttingDown (h.shuttingDown hs)
  answers := h.answers.trans h'.answers
  arrived n k hk := h'.arrived n k (h.arrived n k hk)
  inserted n hn := h'.inserted n (h.inserted n hn)
  executing m hr e he := h'.executing m hr e (h.executing m hr e he)
  lock n hr hl :=
    have hl' := h.lock n hr hl
    have hl'' := h'.lock n hr hl'.1
    ⟨hl''.1, hl'.2.trans hl''.2⟩
  shutdownLocked hs := h'.shutdownLocked (h.shutdownLocked hs)
  entries hd hs e he := h.entries hd hs e (h'.entries hd (h.shutdownLocked hs) e he)
  signaled n hn := h'.signaled n (h.signaled n hn)

lemma rely_refl (R : Regime) (r : RunnerRole) (s : RunnerStore) : rely R r s s := by
  cases r with
  | boot => exact ⟨rfl, rfl⟩
  | _ => exact .refl ..

lemma rely_trans {s s' s'' : RunnerStore} (h : rely R r s s') (h' : rely R r s' s'') :
    rely R r s s'' := by
  cases r with
  | boot => exact ⟨h'.jobDirs.trans h.jobDirs, h'.serving.trans h.serving⟩
  | _ => exact Rely.trans h h'

end Janus.Runner
