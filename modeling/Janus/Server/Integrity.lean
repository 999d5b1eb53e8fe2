import Janus.Server.Reachability

/-! The digests and the sizes that the server records of the outputs of jobs. -/

namespace Janus.Server

open Janus.Concurrency Janus.Data

def JobRunOutput.Intact (app : AppState) (s : Store) (output : JobRunOutput) : Prop :=
  ∃ id ∈ output.serverArtifactId, ∃ artifact ∈ s.db.serverArtifacts.find? id,
    ∃ bytes ∈ s.files.lookup artifact.storagePath,
      output.sha256 = some (app.sha256Hex bytes) ∧ output.sizeBytes = some bytes.length

instance (app : AppState) (s : Store) (output : JobRunOutput) : Decidable (output.Intact app s) :=
  inferInstanceAs (Decidable (∃ id ∈ output.serverArtifactId, _))

def Store.OutputsIntact (app : AppState) (s : Store) : Prop :=
  ∀ row ∈ s.db.jobRunArtifacts, row.2.kind = .artifact → row.2.Intact app s

instance (app : AppState) (s : Store) : Decidable (s.OutputsIntact app) :=
  inferInstanceAs (Decidable (∀ row ∈ s.db.jobRunArtifacts, _))

def JobOutput.Matches (app : AppState) (artifactId : String) (bytes : Bytes) : JobOutput → Prop
  | .artifact id sha256 size => id = artifactId → app.sha256Hex bytes = sha256 ∧ bytes.length = size
  | _ => True

instance (app : AppState) (artifactId : String) (bytes : Bytes) (output : JobOutput) :
    Decidable (output.Matches app artifactId bytes) := by
  cases output <;> unfold JobOutput.Matches <;> infer_instance

def receivedArtifact (app : AppState) (o : Outcome) (artifactId : String) : Option Bytes :=
  ((RunnerRequest.downloadArtifact artifactId).receive app.limits o.reply).toOption

/-- What a runner sends of an artifact is what the latest report says of it, an artifact is stored
once, and no file is overwritten. -/
def Call.Faithful (app : AppState) (o : Outcome) (s : Store × ServerTrace) : Call → Prop
  | .runner _ (.downloadArtifact artifactId) =>
    ∀ bytes ∈ receivedArtifact app o artifactId, ∀ report ∈ lastReport s.2,
      ∀ output ∈ report.entries, output.2.Matches app artifactId bytes
  | .insert (.insertServerArtifact pending) =>
    (Call.insert (.insertServerArtifact pending)).refusal o.fault = none →
      ∀ row ∈ s.1.db.serverArtifacts.rows, row.scope ≠ pending.scope
  | .file (.storeBytes _ _ _ _) => s.1.files.lookup o.uuid = none
  | .file (.storeFile _ _ _ _ _) => s.1.files.lookup o.uuid = none
  | _ => True

instance (app : AppState) (o : Outcome) (s : Store × ServerTrace) (c : Call) :
    Decidable (c.Faithful app o s) := by
  unfold Call.Faithful
  split <;> infer_instance

abbrev RecordedPool := Pool Role Call Call.Result String (Store × ServerTrace)

def FaithfulStep (app : AppState) (p : RecordedPool) : ServerEvent → Prop
  | .step i o => match p.tasks[i]? with
    | some (_, .call c _) => c.Faithful app o p.store
    | _ => True
  | _ => True

instance (app : AppState) (p : RecordedPool) (e : ServerEvent) : Decidable (FaithfulStep app p e) := by
  unfold FaithfulStep
  split
  · split <;> infer_instance
  · infer_instance

def Answered.Stored (s : Store) : Answered Call Call.Result String → Prop
  | ⟨.insert (.insertServerArtifact pending), .ok id⟩ =>
    (s.db.serverArtifacts.find? id).map ServerArtifact.storagePath = some pending.storagePath
  | ⟨.file (.storeBytes _ _ _ bytes), .ok pending⟩ =>
    s.files.lookup (PendingArtifact.storagePath pending) = some bytes
  | _ => True

def DownloadsMatch (app : AppState) (h : ServerTrace) : Prop :=
  ∀ runner artifactId bytes earlier report,
    ⟨.runner runner (.downloadArtifact artifactId), .ok bytes⟩ :: earlier <:+ h →
    lastReport earlier = some report →
    ∀ output ∈ report.entries, output.2.Matches app artifactId bytes

structure OutputsSeen (app : AppState) (r : Role) (h : ServerTrace) (s : Store × ServerTrace) :
    Prop where
  stored : ∀ a ∈ h, Answered.Stored s.1 a
  latest : ∀ report, lastReport h = some report → r.scheduler = true ∧ lastReport s.2 = some report
  matched : DownloadsMatch app h

def Call.reportless : Call → Prop
  | .runner _ (.getJobRun _) => False
  | _ => True

lemma reportless_footprint : Footprint Call.reportless where
  query _ := trivial
  processed _ := trivial
  cancelRun _ _ := trivial
  insert _ := trivial
  pipelineRun _ _ := trivial
  cancelRequested _ _ := trivial
  canceled _ := trivial

lemma program_reportless {app : AppState} {r : Role} (hr : r.scheduler = false) :
    (r.program app).Only Call.reportless := by
  cases r with
  | cancel pipelineId => exact reportless_footprint.cancelPipeline pipelineId
  | enqueue number workflow triggerType triggerRef commitSha selections =>
    exact .bind (reportless_footprint.enqueue _ _ _ _ _ _) fun _ => .pure _
  | _ => cases hr

section

variable {app : AppState} {s s' : Store} {c : Call} {x : Except String c.Result} {o : Outcome}
variable {g h : ServerTrace} {a : Answered Call Call.Result String}

lemma reportedOutputs_of_reportless (hc : c.reportless) : reportedOutputs ⟨c, x⟩ = none := by
  unfold reportedOutputs
  split
  · next heq =>
    cases heq
    exact hc.elim
  · rfl

lemma lastReport_cons (a : Answered Call Call.Result String) (h : ServerTrace) :
    lastReport (a :: h) = (reportedOutputs a).or (lastReport h) := by
  simp only [lastReport, List.findSome?_cons]
  cases reportedOutputs a <;> rfl

lemma Call.Stores.file (hs : Call.Stores app o s s' c x) (hc : c.Faithful app o (s, g)) {path : Id}
    {bytes : Bytes} (h : s.files.lookup path = some bytes) : s'.files.lookup path = some bytes := by
  have hstored (hfresh : s.files.lookup o.uuid = none) (stored : Bytes)
      (hfiles : s'.files = (o.uuid, stored) :: s.files) : s'.files.lookup path = some bytes := by
    have hne : path ≠ o.uuid := by
      rintro rfl
      cases hfresh.symm.trans h
    rw [hfiles, List.lookup_cons, beq_false_of_ne hne]
    exact h
  cases hs with
  | same _ files _ _ _ => exact files ▸ h
  | insert _ _ _ files _ => exact files ▸ h
  | storeBytes _ _ _ stored _ _ files => exact hstored hc stored files
  | storeFile _ _ _ _ _ stored _ files => exact hstored hc stored files
  | outputs _ _ _ _ files _ _ => exact files ▸ h

lemma exec_artifact (hx : c.exec app o s = (x, s')) (hc : c.Faithful app o (s, g)) {id : Id}
    {artifact : ServerArtifact} (h : s.db.serverArtifacts.find? id = some artifact) :
    s'.db.serverArtifacts.find? id = some artifact := by
  cases exec_stores hx with
  | same artifacts _ _ _ _ => exact artifacts ▸ h
  | insert pending answer _ _ _ =>
    subst answer
    obtain ⟨hr, -, hinserts⟩ := insert_exec hx
    cases hinserts with
    | renew row mem scope _ => exact (hc hr row mem scope).elim
    | add _ artifacts =>
      rw [Table.find?_eq_some_iff] at h ⊢
      rw [Table.rows_insert? artifacts]
      exact ⟨List.mem_append_left _ h.1, h.2⟩
  | storeBytes _ _ _ _ _ db _ => exact db ▸ h
  | storeFile _ _ _ _ _ _ db _ => exact db ▸ h
  | outputs _ _ _ artifacts _ _ _ => exact artifacts ▸ h

lemma exec_stored (hx : c.exec app o s = (x, s')) (hc : c.Faithful app o (s, g))
    (h : Answered.Stored s a) : Answered.Stored s' a := by
  unfold Answered.Stored at h ⊢
  split
  · obtain ⟨artifact, hfind, hpath⟩ := Option.map_eq_some_iff.mp h
    exact Option.map_eq_some_iff.mpr ⟨artifact, exec_artifact hx hc hfind, hpath⟩
  · exact (exec_stores hx).file hc h
  · trivial

lemma exec_intact (hx : c.exec app o s = (x, s')) (hc : c.Faithful app o (s, g))
    {output : JobRunOutput} (h : output.Intact app s) : output.Intact app s' := by
  obtain ⟨id, hid, artifact, hfind, bytes, hfile, hsha, hsize⟩ := h
  exact ⟨id, hid, artifact, exec_artifact hx hc hfind, bytes, (exec_stores hx).file hc hfile, hsha,
    hsize⟩

lemma exec_stored_self (hx : c.exec app o s = (x, s')) (hc : c.Faithful app o (s, g)) :
    Answered.Stored s' ⟨c, x⟩ := by
  unfold Answered.Stored
  split
  · next pending id heq =>
    cases heq
    obtain ⟨hr, rfl, hinserts⟩ := insert_exec hx
    refine Option.map_eq_some_iff.mpr ⟨pending.row, ?_, rfl⟩
    cases hinserts with
    | renew row mem scope _ => exact (hc hr row mem scope).elim
    | add _ artifacts =>
      refine Table.find?_eq_some_iff.mpr ⟨?_, rfl⟩
      rw [Table.rows_insert? artifacts]
      exact List.mem_append_right _ (List.mem_singleton_self _)
  · next bytes pending heq =>
    cases heq
    cases exec_stores hx with
    | same _ _ _ _ storeBytes =>
      obtain ⟨e, he⟩ := storeBytes _ _ _ _ rfl
      cases he
    | storeBytes _ _ _ _ answer _ files =>
      cases answer
      rw [files]
      exact List.lookup_cons_self
  · trivial

lemma OutputsSeen.other {r' : Role} (hk : OutputsSeen app r' h (s, g))
    (hx : c.exec app o s = (x, s')) (hc : c.Faithful app o (s, g))
    (hr : r'.scheduler = true → c.reportless) : OutputsSeen app r' h (s', ⟨c, x⟩ :: g) := by
  refine ⟨fun a ha => exec_stored hx hc (hk.stored a ha), fun report hreport => ?_, hk.matched⟩
  obtain ⟨hs, hlast⟩ := hk.latest report hreport
  rw [lastReport_cons, reportedOutputs_of_reportless (hr hs)]
  exact ⟨hs, hlast⟩

lemma DownloadsMatch.cons (hm : DownloadsMatch app h)
    (ha : ∀ runner artifactId bytes report,
      a = ⟨.runner runner (.downloadArtifact artifactId), .ok bytes⟩ → lastReport h = some report →
      ∀ output ∈ report.entries, output.2.Matches app artifactId bytes) :
    DownloadsMatch app (a :: h) := by
  intro runner artifactId bytes earlier report hs hreport
  rcases List.suffix_cons_iff.mp hs with heq | hs
  · obtain ⟨rfl, rfl⟩ := List.cons.inj heq
    exact ha runner artifactId bytes report rfl hreport
  · exact hm runner artifactId bytes earlier report hs hreport

lemma OutputsSeen.own {r : Role} (hk : OutputsSeen app r h (s, g))
    (hx : c.exec app o s = (x, s')) (hc : c.Faithful app o (s, g))
    (hr : r.scheduler = false → c.reportless) :
    OutputsSeen app r (⟨c, x⟩ :: h) (s', ⟨c, x⟩ :: g) := by
  constructor
  · rintro a ha
    rcases List.mem_cons.mp ha with rfl | ha
    · exact exec_stored_self hx hc
    · exact exec_stored hx hc (hk.stored a ha)
  · intro report hreport
    rw [lastReport_cons] at hreport ⊢
    cases hro : reportedOutputs ⟨c, x⟩ with
    | some outputs =>
      rw [hro] at hreport
      refine ⟨?_, hreport⟩
      by_contra hs
      rw [reportedOutputs_of_reportless (hr (by simpa using hs))] at hro
      cases hro
    | none =>
      rw [hro] at hreport
      exact hk.latest report hreport
  · refine hk.matched.cons ?_
    rintro runner artifactId bytes report heq hreport
    cases heq
    have hreceived : receivedArtifact app o artifactId = some bytes :=
      congrArg (fun answer => Except.toOption (Prod.fst answer)) hx
    exact hc bytes hreceived report (hk.latest report hreport).2

end

def RequestsReportless (p : RecordedPool) : Prop :=
  ∀ t ∈ p.tasks, t.1.scheduler = false → t.2.Only Call.reportless

section

variable {app : AppState} {p p' : RecordedPool} {e : ServerEvent}

lemma FaithfulStep.call {i : ℕ} {o : Outcome} {r : Role} {c : Call}
    {next : Except String c.Result → Task Unit} (h : FaithfulStep app p (.step i o))
    (ht : p.tasks[i]? = some (r, .call c next)) : c.Faithful app o p.store := by
  simp only [FaithfulStep, ht] at h
  exact h

lemma outputs_knowing (app : AppState) : System.Knowing (server app).recording
    (fun p e => FaithfulStep app p e ∧ RequestsReportless p) (fun h c => c.persisting h)
    (OutputsSeen app) where
  start := program_persisting
  nil _ _ := by
    refine ⟨fun _ ha => (List.not_mem_nil ha).elim, fun _ hreport => ?_, ?_⟩
    · cases hreport
    · intro _ _ _ _ _ hs
      cases List.suffix_nil.mp hs
  own p i o r c next h hok ht _ hk :=
    hk.own rfl (hok.1.call ht) fun hr => (hok.2 _ (List.mem_of_getElem? ht) hr).1
  other p i o r c next r' h hok ht hb hk :=
    hk.other rfl (hok.1.call ht) fun hr' =>
      (hok.2 _ (List.mem_of_getElem? ht) (not_scheduler_beside hb hr')).1
  environ s v r h hk := by
    cases v with
    | runEnds runId => exact ⟨hk.stored, hk.latest, hk.matched⟩

lemma apply_requestsReportless (hp : RequestsReportless p)
    (ha : (server app).recording.apply p e = some p') : RequestsReportless p' :=
  System.forall_tasks_apply (Φ := fun (r : Role) q _ => r.scheduler = false → q.Only Call.reportless)
    ha (fun _ hr => program_reportless hr) (fun _ _ _ _ h _ hr => (h hr).2 _) (fun _ _ h => h) hp

structure IntactInvariant (app : AppState) (p : RecordedPool) : Prop where
  outputs : p.store.1.OutputsIntact app
  requests : RequestsReportless p
  known : System.Known (server app).recording (fun h c => c.persisting h) (OutputsSeen app) p

lemma Persisted.intact {r : Role} {h : ServerTrace} {s : Store × ServerTrace} {jobRunId id : Id}
    {output : JobRunOutput} (hp : Persisted h jobRunId output id) (hid : id ∈ output.serverArtifactId)
    (hk : OutputsSeen app r h s) : output.Intact app s.1 := by
  obtain ⟨pending, bytes, runner, artifactId, earlier, report, sha256, size, hi, hb, hd, hreport, hmem,
    hsha, hsize⟩ := hp
  obtain ⟨artifact, hfind, hpath⟩ := Option.map_eq_some_iff.mp (hk.stored _ hi)
  have hfile : s.1.files.lookup pending.storagePath = some bytes := hk.stored _ hb
  obtain ⟨hsha', hsize'⟩ := hk.matched runner artifactId bytes earlier report hd hreport _ hmem rfl
  refine ⟨id, hid, artifact, hfind, bytes, hpath ▸ hfile, ?_, ?_⟩
  · rw [hsha, hsha']
  · rw [hsize, hsize']

lemma exec_outputsIntact {r : Role} {o : Outcome} {c : Call} {next : Except String c.Result → Task Unit}
    (hp : IntactInvariant app p) (ht : (r, .call c next) ∈ p.tasks)
    (hc : c.Faithful app o p.store) {x : Except String c.Result} {s' : Store}
    (hx : c.exec app o p.store.1 = (x, s')) : s'.OutputsIntact app := by
  have hold : ∀ row ∈ p.store.1.db.jobRunArtifacts, row.2.kind = .artifact → row.2.Intact app s' :=
    fun row hrow hkind => exec_intact hx hc (hp.outputs row hrow hkind)
  cases exec_stores hx with
  | same _ _ outputs _ _ => exact fun row hrow => hold row (outputs ▸ hrow)
  | insert _ _ _ _ outputs => exact fun row hrow => hold row (outputs ▸ hrow)
  | storeBytes _ _ _ _ _ db _ => exact fun row hrow => hold row (by rwa [db] at hrow)
  | storeFile _ _ _ _ _ _ db _ => exact fun row hrow => hold row (by rwa [db] at hrow)
  | outputs jobRunId u kept artifacts files outputs finish =>
    intro row hrow hkind
    rw [outputs] at hrow
    rcases List.mem_append.mp hrow with hrow | hrow
    · exact hold row (List.mem_of_mem_filter hrow) hkind
    · obtain ⟨output, ho, rfl⟩ := List.mem_map.mp hrow
      rcases finish with rfl | ⟨_, _, _, _, _, _, _, _, rfl⟩
      · cases ho
      · obtain ⟨h, hpersisting, hseen⟩ := hp.known.before ht
        have hpersisted := hpersisting output ho
        obtain ⟨id, hid⟩ := Option.isSome_iff_exists.mp (hpersisted.registered hkind)
        exact exec_intact hx hc ((hpersisted.seen id hid).intact hid hseen)

lemma IntactInvariant.apply (hp : IntactInvariant app p) (hf : FaithfulStep app p e)
    (ha : (server app).recording.apply p e = some p') : IntactInvariant app p' := by
  have hknown := hp.known.apply (outputs_knowing app) ⟨hf, hp.requests⟩ ha
  have hrequests := apply_requestsReportless hp.requests ha
  obtain ⟨r, rfl, -, rfl⟩ | ⟨i, o, r, c, next, rfl, ht, -, rfl⟩ | ⟨i, r, x, rfl, -, rfl⟩ |
    ⟨rfl, rfl⟩ | ⟨v, rfl, rfl⟩ := System.apply_cases ha
  · exact ⟨hp.outputs, hrequests, hknown⟩
  · exact ⟨exec_outputsIntact hp (List.mem_of_getElem? ht) (hf.call ht) rfl, hrequests, hknown⟩
  · exact ⟨hp.outputs, hrequests, hknown⟩
  · exact ⟨hp.outputs, hrequests, hknown⟩
  · cases v with
    | runEnds runId => exact ⟨hp.outputs, hrequests, hknown⟩

end

/-- While each download is what was last reported of it, each artifact is stored once and no file is
overwritten, the recorded digests and sizes are those of the stored bytes. -/
theorem outputs_intact (app : AppState) (s : Store) (events : List ServerEvent)
    (hs : s.OutputsIntact app)
    (hfaithful : (server app).recording.Along (FaithfulStep app) events ⟨(s, []), []⟩) :
    ∀ before, before <+: events → ∀ q, (server app).run before ⟨s, []⟩ = some q →
      q.store.OutputsIntact app := by
  rintro before ⟨rest, rfl⟩ q hq
  have hstart : IntactInvariant app ⟨(s, []), []⟩ :=
    ⟨hs, fun _ ht => (List.not_mem_nil ht).elim, by simp [System.Known]⟩
  have hrecorded := System.recording_run (S := server app) before ⟨(s, []), []⟩
  obtain ⟨q', hq', rfl⟩ := Option.map_eq_some_iff.mp (hrecorded.trans hq)
  exact (hfaithful.left.invariant (I := IntactInvariant app) (fun _ _ _ => .apply) hstart hq').outputs

def reportedOneByte (bytes : Bytes) : List ServerEvent :=
  dispatched "run" ++ [.start .poll, .step 0 {}, .step 0 {},
    .step 0 (replied 200 (.status { status := .success,
                                    outputs := OrderedMap.empty.insert "a" (.artifact "first" "" 1) })),
    .step 0 (replied 200 (.logs ⟨"", ""⟩)), .step 0 (downloaded bytes), .step 0 { uuid := 1 },
    .step 0 {}, .step 0 {}, .step 0 {}, .finish 0]

theorem substituted_download :
    oneJob.tasks = [] ∧ oneJob.store.OutputsIntact sampleApp ∧
      ((server sampleApp).run (reportedOneByte [1, 2]) oneJob).any fun q =>
        ¬ q.store.OutputsIntact sampleApp ∧ q.store.db.jobRuns.rows.all (·.status = .success) := by
  decide +kernel

theorem outputs_intact_sample :
    ((server sampleApp).run (reportedOneByte [1]) oneJob).isSome ∧
      ∀ q, (server sampleApp).run (reportedOneByte [1]) oneJob = some q →
        q.store.OutputsIntact sampleApp :=
  have hfaithful : (server sampleApp).recording.Along (FaithfulStep sampleApp) (reportedOneByte [1])
      ⟨(oneJob.store, []), []⟩ := by decide +kernel
  ⟨by decide +kernel, fun q => outputs_intact sampleApp oneJob.store _ (by decide +kernel) hfaithful _
    (List.prefix_refl _) q⟩

end Janus.Server
