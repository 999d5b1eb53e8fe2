import Janus.Server.Footprint

/-! The artifacts that the server keeps of what jobs put out, and the rows that refer to them. -/

namespace Janus.Server

open Janus.Concurrency Janus.Data

inductive Call.Stores (app : AppState) (o : Outcome) (s s' : Store) : (c : Call) → Except String c.Result → Prop
  | same {c : Call} {x : Except String c.Result}
      (artifacts : s'.db.serverArtifacts = s.db.serverArtifacts) (files : s'.files = s.files)
      (outputs : s'.db.jobRunArtifacts = s.db.jobRunArtifacts)
      (insert : ∀ artifact, c = .insert (.insertServerArtifact artifact) → ∃ e, x = .error e)
      (storeBytes : ∀ scopeType scopeId name bytes,
        c = .file (.storeBytes scopeType scopeId name bytes) → ∃ e, x = .error e) :
      Stores app o s s' c x
  | insert (artifact : PendingArtifact) {x : Except String Id} (answer : x = .ok artifact.id)
      (artifacts : s.db.insertServerArtifact artifact = .ok s'.db) (files : s'.files = s.files)
      (outputs : s'.db.jobRunArtifacts = s.db.jobRunArtifacts) :
      Stores app o s s' (.insert (.insertServerArtifact artifact)) x
  | storeBytes (scopeType : String) (scopeId : Id) (name : String) (bytes : Bytes)
      {x : Except String PendingArtifact}
      (answer : x = .ok ⟨o.uuid, scopeType, scopeId, name, app.sha256Hex bytes, bytes.length, o.uuid⟩)
      (db : s'.db = s.db) (files : s'.files = (o.uuid, bytes) :: s.files) :
      Stores app o s s' (.file (.storeBytes scopeType scopeId name bytes)) x
  | storeFile (scopeType : String) (scopeId : Id) (name : String) (pipelineId : Id)
      (commitSha : String) (bytes : Bytes) {x : Except String PendingArtifact}
      (db : s'.db = s.db) (files : s'.files = (o.uuid, bytes) :: s.files) :
      Stores app o s s' (.file (.storeFile scopeType scopeId name pipelineId commitSha)) x
  | outputs (jobRunId : Id) (u : JobUpdate) (kept : List JobRunOutput) {x : Except String u.Result}
      (artifacts : s'.db.serverArtifacts = s.db.serverArtifacts) (files : s'.files = s.files)
      (outputs : s'.db.jobRunArtifacts = s.db.jobRunArtifacts.filter (fun row => row.1 ≠ jobRunId) ++
        kept.map fun output => (jobRunId, output))
      (finish : kept = [] ∨ ∃ status durationMs exitCode terminalReason failureCategory metadata
        stdout stderr, u = .finishJobRun status durationMs exitCode terminalReason failureCategory
          metadata stdout stderr kept) : Stores app o s s' (.jobRun jobRunId u) x

def Call.keepsArtifacts : Call → Prop
  | .insert (.insertServerArtifact _) => False
  | .file (.storeBytes _ _ _ _) => False
  | _ => True

section

variable {app : AppState} {o : Outcome} {s s' : Store}

lemma Call.Stores.kept {c : Call} {x : Except String c.Result} (hc : c.keepsArtifacts)
    (artifacts : s'.db.serverArtifacts = s.db.serverArtifacts) (files : s'.files = s.files)
    (outputs : s'.db.jobRunArtifacts = s.db.jobRunArtifacts) : Call.Stores app o s s' c x := by
  refine .same artifacts files outputs ?_ ?_
  · rintro artifact rfl
    exact hc.elim
  · rintro scopeType scopeId name bytes rfl
    exact hc.elim

lemma FileCall.exec_stores {f : FileCall} {x : Except String f.Result} (h : f.exec app o s = (x, s')) :
    Call.Stores app o s s' (.file f) x := by
  cases f with
  | readBytes path =>
    simp only [FileCall.exec] at h
    split at h <;> cases h <;> exact .kept trivial rfl rfl rfl
  | storeBytes scopeType scopeId name bytes =>
    simp only [FileCall.exec, FileCall.exec.store] at h
    split at h <;> cases h
    · exact .same rfl rfl rfl (fun _ h => by cases h) fun _ _ _ _ _ => ⟨_, rfl⟩
    · exact .storeBytes scopeType scopeId name bytes rfl rfl rfl
  | archiveExists pipelineId commitSha =>
    cases h
    exact .kept trivial rfl rfl rfl
  | createSourceArchive barePath pipelineId commitSha =>
    simp only [FileCall.exec] at h
    split at h <;> cases h <;> exact .kept trivial rfl rfl rfl
  | storeFile scopeType scopeId name pipelineId commitSha =>
    simp only [FileCall.exec, FileCall.exec.store] at h
    split at h
    · next bytes hlookup =>
      split at h <;> cases h
      · exact .kept trivial rfl rfl rfl
      · exact .storeFile scopeType scopeId name pipelineId commitSha bytes rfl rfl
    · cases h
      exact .kept trivial rfl rfl rfl

lemma updateJobRun_stores (db : Database) (u : JobUpdate) (now : Timestamp) (key id : Id) :
    (db.updateJobRun u now key id).2.serverArtifacts = db.serverArtifacts ∧
      ((db.updateJobRun u now key id).2.jobRunArtifacts = db.jobRunArtifacts ∨
        ∃ kept, (db.updateJobRun u now key id).2.jobRunArtifacts =
            db.jobRunArtifacts.filter (fun row => row.1 ≠ id) ++ kept.map (fun output => (id, output)) ∧
          (kept = [] ∨ ∃ status durationMs exitCode terminalReason failureCategory metadata stdout
            stderr, u = .finishJobRun status durationMs exitCode terminalReason failureCategory
              metadata stdout stderr kept)) := by
  simp only [Database.updateJobRun]
  split
  · exact ⟨rfl, .inl rfl⟩
  · cases u with
    | finishJobRun status durationMs exitCode terminalReason failureCategory metadata stdout stderr
        outputs => exact ⟨rfl, .inr ⟨outputs, rfl, .inr ⟨_, _, _, _, _, _, _, _, rfl⟩⟩⟩
    | requeueJobRunForInfraRetry => exact ⟨rfl, .inr ⟨[], rfl, .inl rfl⟩⟩
    | _ => exact ⟨rfl, .inl rfl⟩

def Database.SameArtifacts (db db' : Database) : Prop :=
  db'.serverArtifacts = db.serverArtifacts ∧ db'.jobRunArtifacts = db.jobRunArtifacts

lemma Database.SameArtifacts.trans {db db' db'' : Database} (h : db.SameArtifacts db')
    (h' : db'.SameArtifacts db'') : db.SameArtifacts db'' := ⟨h'.1.trans h.1, h'.2.trans h.2⟩

lemma addSelections_artifacts {db db' : Database} {pipelineRunId : Id}
    {selections : List WorkflowRunArtifactSelection}
    (h : db.addWorkflowRunArtifactSelections pipelineRunId selections = .ok db') :
    db.SameArtifacts db' := by
  induction selections generalizing db with
  | nil =>
    cases h
    exact ⟨rfl, rfl⟩
  | cons selection selections ih =>
    simp only [Database.addWorkflowRunArtifactSelections] at h
    cases hs : db.addSelection pipelineRunId selection with
    | error e => simp [hs, Except.bind] at h
    | ok db₁ =>
      rw [hs] at h
      refine Database.SameArtifacts.trans ?_ (ih h)
      simp only [Database.addSelection] at hs
      split at hs
      · cases hs
      · split at hs <;> cases hs
        exact ⟨rfl, rfl⟩

lemma insertJobRun_artifacts {db db' : Database} {id key pipelineRunId : Id} {jobIndex : ℕ}
    {runnerId runnerJobName : String} {outcomePolicy : WorkflowJobOutcomePolicy}
    (h : db.insertJobRun id key pipelineRunId jobIndex runnerId runnerJobName outcomePolicy =
      .ok db') : db.SameArtifacts db' := by
  simp only [Database.insertJobRun] at h
  split at h
  · cases h
  · split at h
    · cases h
    · split at h <;> cases h
      exact ⟨rfl, rfl⟩

lemma insertJobRunLogs_artifacts {db db' : Database} {id : Id} (h : db.insertJobRunLogs id = .ok db') :
    db.SameArtifacts db' := by
  simp only [Database.insertJobRunLogs] at h
  split at h <;> cases h
  exact ⟨rfl, rfl⟩

lemma Insertion.exec_artifacts (i : Insertion) (hi : ∀ artifact, i ≠ .insertServerArtifact artifact)
    (db : Database) : db.SameArtifacts (i.exec o db).2 := by
  cases i with
  | createPipelineRun repoId workflowId versionId triggerType triggerRef commitSha origin =>
    simp only [Insertion.exec, Database.createPipelineRun]
    split
    · next h =>
      split at h
      · cases h
      · split at h <;> cases h
        exact ⟨rfl, rfl⟩
    · exact ⟨rfl, rfl⟩
  | addWorkflowRunArtifactSelections pipelineRunId selections =>
    simp only [Insertion.exec]
    split
    · next h => exact addSelections_artifacts h
    · exact ⟨rfl, rfl⟩
  | createJobRun pipelineRunId jobIndex runnerId runnerJobName outcomePolicy =>
    simp only [Insertion.exec]
    split
    · exact ⟨rfl, rfl⟩
    · next db' h =>
      split
      · exact insertJobRun_artifacts h
      · split
        · next hlogs => exact (insertJobRun_artifacts h).trans (insertJobRunLogs_artifacts hlogs)
        · exact insertJobRun_artifacts h
  | addPreviousJob jobRunId previousJobRunId =>
    simp only [Insertion.exec, Database.addPreviousJob]
    split
    · next h =>
      split at h
      · cases h
      · split at h <;> cases h
        exact ⟨rfl, rfl⟩
    · exact ⟨rfl, rfl⟩
  | insertServerArtifact artifact => exact (hi artifact rfl).elim

theorem exec_stores {c : Call} {x : Except String c.Result} (h : c.exec app o s = (x, s')) :
    Call.Stores app o s s' c x := by
  rcases exec_cases h with ⟨rfl, he⟩ | h
  · exact .same rfl rfl rfl (fun _ _ => he) fun _ _ _ _ _ => he
  · cases c with
    | jobRun id u =>
      simp only [Call.perform] at h
      obtain ⟨-, rfl⟩ := Prod.mk.inj h
      obtain ⟨hartifacts, hsame | ⟨kept, houtputs, hkept⟩⟩ :=
        updateJobRun_stores s.db u o.now o.dispatchKey id
      · exact .kept trivial hartifacts rfl hsame
      · exact .outputs id u kept hartifacts rfl houtputs hkept
    | insert i =>
      obtain ⟨rfl, rfl⟩ := Prod.mk.inj (show ((i.exec o s.db).1, _) = (x, s') from h)
      by_cases hi : ∃ artifact, i = .insertServerArtifact artifact
      · obtain ⟨artifact, rfl⟩ := hi
        simp only [Insertion.exec]
        cases hinsert : s.db.insertServerArtifact artifact with
        | ok db =>
          refine .insert artifact rfl hinsert rfl ?_
          simp only [Database.insertServerArtifact] at hinsert
          split at hinsert
          · cases hinsert
            rfl
          · split at hinsert <;> cases hinsert
            rfl
        | error e => exact .same rfl rfl rfl (fun _ _ => ⟨e, rfl⟩) fun _ _ _ _ h => by cases h
      · have hsame := i.exec_artifacts (o := o) (fun artifact h => hi ⟨artifact, h⟩) s.db
        refine .same hsame.1 rfl hsame.2 (fun artifact h => (hi ⟨artifact, ?_⟩).elim)
          fun _ _ _ _ h => by cases h
        injection h
    | file f => exact FileCall.exec_stores h
    | query q => cases h; exact .kept trivial rfl rfl rfl
    | pipelineRun id u => cases h; exact .kept trivial rfl rfl rfl
    | setJobRunInputPayload id payload => cases h; exact .kept trivial rfl rfl rfl
    | markPushEventProcessed id => cases h; exact .kept trivial rfl rfl rfl
    | runner r request => cases h; exact .kept trivial rfl rfl rfl
    | now => cases h; exact .kept trivial rfl rfl rfl

end

def ServerArtifact.scope (artifact : ServerArtifact) : String × Id × String :=
  (artifact.scopeType, artifact.scopeId, artifact.artifactName)

def PendingArtifact.scope (pending : PendingArtifact) : String × Id × String :=
  (pending.scopeType, pending.scopeId, pending.artifactName)

def PendingArtifact.row (pending : PendingArtifact) : ServerArtifact :=
  ⟨pending.id, pending.scopeType, pending.scopeId, pending.artifactName, pending.sha256,
    pending.sizeBytes, pending.storagePath⟩

def PendingArtifact.renew (pending : PendingArtifact) (row : ServerArtifact) : ServerArtifact :=
  { row with sha256 := pending.sha256, sizeBytes := pending.sizeBytes,
             storagePath := pending.storagePath }

lemma PendingArtifact.renew_id (pending : PendingArtifact) (row : ServerArtifact) :
    (pending.renew row).id = row.id := rfl

inductive Database.Inserts (db db' : Database) (pending : PendingArtifact) : Prop
  | renew (row : ServerArtifact) (mem : row ∈ db.serverArtifacts.rows)
      (scope : row.scope = pending.scope)
      (artifacts : db'.serverArtifacts = db.serverArtifacts.modify row.id pending.renew pending.renew_id)
  | add (free : ∀ row ∈ db.serverArtifacts.rows, row.scope ≠ pending.scope)
      (artifacts : db.serverArtifacts.insert? pending.row = some db'.serverArtifacts)

lemma Database.getServerArtifact_eq_none {db : Database} {pending : PendingArtifact}
    (h : db.getServerArtifact pending.scopeType pending.scopeId pending.artifactName = none) :
    ∀ row ∈ db.serverArtifacts.rows, row.scope ≠ pending.scope := by
  intro row hrow hscope
  refine List.find?_eq_none.mp h row hrow ?_
  simpa [ServerArtifact.scope, PendingArtifact.scope] using hscope

lemma Database.getServerArtifact_eq_some {db : Database} {pending : PendingArtifact}
    {row : ServerArtifact}
    (h : db.getServerArtifact pending.scopeType pending.scopeId pending.artifactName = some row) :
    row ∈ db.serverArtifacts.rows ∧ row.scope = pending.scope := by
  refine ⟨List.mem_of_find?_eq_some h, ?_⟩
  simpa [ServerArtifact.scope, PendingArtifact.scope] using List.find?_some h

lemma Database.inserts {db db' : Database} {pending : PendingArtifact}
    (h : db.insertServerArtifact pending = .ok db') : db.Inserts db' pending := by
  simp only [insertServerArtifact] at h
  split at h
  · next row hrow =>
    cases h
    obtain ⟨hmem, hscope⟩ := getServerArtifact_eq_some hrow
    exact .renew row hmem hscope rfl
  · next hnone =>
    split at h <;> cases h
    next artifacts hinsert => exact .add (getServerArtifact_eq_none hnone) hinsert

lemma Database.insertServerArtifact_error {db : Database} {pending : PendingArtifact} {e : String}
    (h : db.insertServerArtifact pending = .error e) :
    ∀ row ∈ db.serverArtifacts.rows, row.scope ≠ pending.scope := by
  simp only [insertServerArtifact] at h
  split at h
  · cases h
  · next hnone => exact getServerArtifact_eq_none hnone

def ServerPool.inserts (p : ServerPool) : ServerEvent → Option (PendingArtifact × Outcome)
  | .step i o => match p.tasks[i]? with
    | some (_, .call (.insert (.insertServerArtifact pending)) _) => some (pending, o)
    | _ => none
  | _ => none

def reportedOutputs : Answered Call Call.Result String → Option (BTreeMap JobOutput)
  | ⟨.runner _ (.getJobRun _), .ok status⟩ => some (JobStatusResponse.outputs status)
  | _ => none

def lastReport (h : ServerTrace) : Option (BTreeMap JobOutput) := h.findSome? reportedOutputs

def Persisted (h : ServerTrace) (jobRunId : Id) (output : JobRunOutput) (id : Id) : Prop :=
  ∃ pending bytes runner artifactId earlier report sha256 size,
    ⟨.insert (.insertServerArtifact pending), .ok id⟩ ∈ h ∧
    ⟨.file (.storeBytes "job_output" jobRunId output.outputName bytes), .ok pending⟩ ∈ h ∧
    ⟨.runner runner (.downloadArtifact artifactId), .ok bytes⟩ :: earlier <:+ h ∧
    lastReport earlier = some report ∧
    (output.outputName, .artifact artifactId sha256 size) ∈ report.entries ∧
    output.sha256 = some sha256 ∧ output.sizeBytes = some size

structure OutputPersisted (h : ServerTrace) (jobRunId : Id) (output : JobRunOutput) : Prop where
  registered : output.kind = .artifact → output.serverArtifactId.isSome
  seen : ∀ id ∈ output.serverArtifactId, Persisted h jobRunId output id

lemma OutputPersisted.mono {h h' : ServerTrace} {jobRunId : Id} {output : JobRunOutput}
    (hs : h <:+ h') (hp : OutputPersisted h jobRunId output) : OutputPersisted h' jobRunId output := by
  refine ⟨hp.registered, fun id hid => ?_⟩
  obtain ⟨pending, bytes, runner, artifactId, earlier, report, sha256, size, hi, hb, hd, hrest⟩ :=
    hp.seen id hid
  exact ⟨pending, bytes, runner, artifactId, earlier, report, sha256, size, hs.subset hi, hs.subset hb,
    hd.trans hs, hrest⟩

def Call.persisting (h : ServerTrace) : Call → Prop
  | .jobRun jobRunId (.finishJobRun _ _ _ _ _ _ _ _ outputs) =>
    ∀ output ∈ outputs, OutputPersisted h jobRunId output
  | _ => True

def Call.storesNone : Call → Prop
  | .jobRun _ (.finishJobRun _ _ _ _ _ _ _ _ outputs) => outputs = []
  | _ => True

lemma Call.storesNone.persisting {c : Call} (hc : c.storesNone) (h : ServerTrace) :
    c.persisting h := by
  cases c with
  | jobRun id u =>
    cases u with
    | finishJobRun status durationMs exitCode terminalReason failureCategory metadata stdout stderr
        outputs =>
      obtain rfl : outputs = [] := hc
      exact nofun
    | _ => trivial
  | _ => trivial

lemma storesNone_footprint : PassFootprint Call.storesNone where
  query _ := trivial
  processed _ := trivial
  cancelRun _ _ := trivial
  quiet c h := by
    cases c with
    | jobRun id u => exact h.elim
    | _ => trivial
  insert _ := trivial
  pipelineRun _ _ := trivial
  cancelRequested _ _ := trivial
  canceled _ := trivial
  status _ _ := trivial
  fail _ _ _ _ _ _ := rfl
  retry _ := trivial
  requeue _ := trivial
  exhausted _ := trivial

section

open Program

variable {app : AppState} {h : ServerTrace} {α : Type}

lemma storesNone_traced {p : Task α} (hp : p.Only Call.storesNone) :
    Safe (tracing fun h c => c.persisting h) (fun _ _ => True) p h :=
  Safe.traced_only (fun _ h hc _ => hc.persisting h) (fun _ _ _ _ _ => trivial) hp trivial

structure Reporting (start : ServerTrace) (report : BTreeMap JobOutput) (h : ServerTrace) : Prop where
  suffix : start <:+ h
  report : lastReport h = some report

lemma Reporting.cons {start h : ServerTrace} {report : BTreeMap JobOutput}
    (hr : Reporting start report h) (c : Call) (x : Except String c.Result)
    (hc : ∀ runner runId, c ≠ .runner runner (.getJobRun runId)) :
    Reporting start report (⟨c, x⟩ :: h) := by
  refine ⟨hr.suffix.trans (List.suffix_cons _ _), ?_⟩
  have hnone : reportedOutputs ⟨c, x⟩ = none := by
    cases c with
    | runner runner request =>
      cases request with
      | getJobRun runId => exact (hc runner runId rfl).elim
      | _ => rfl
    | _ => rfl
  simp only [lastReport, List.findSome?_cons, hnone]
  exact hr.report

lemma persistJobOutput_traced {runner : Runner} {jobRunId : Id} {report : BTreeMap JobOutput}
    {name : String} {output : JobOutput} (hmem : (name, output) ∈ report.entries)
    {start : ServerTrace} (hr : Reporting start report h) :
    Safe (tracing fun h c => c.persisting h) (fun r h' => Reporting start report h' ∧ h <:+ h' ∧
      ∀ persisted, r = .ok persisted → OutputPersisted h' jobRunId persisted) (persistJobOutput runner jobRunId name output) h := by
  cases output with
  | artifact artifactId sha256 size =>
    refine Safe.bind (Safe.traced_request trivial fun x => ?_)
    have hd := hr.cons (.runner runner (.downloadArtifact artifactId)) x nofun
    cases x with
    | error e => exact ⟨hd, List.suffix_cons _ _, nofun⟩
    | ok bytes =>
    refine Safe.bind (Safe.traced_request trivial fun y => ?_)
    have hb := hd.cons (.file (.storeBytes "job_output" jobRunId name bytes)) y nofun
    have hbs := (List.suffix_cons ⟨.runner runner (.downloadArtifact artifactId), .ok bytes⟩ h).trans
      (List.suffix_cons ⟨.file (.storeBytes "job_output" jobRunId name bytes), y⟩ _)
    cases y with
    | error e => exact ⟨hb, hbs, nofun⟩
    | ok pending =>
    refine Safe.bind (Safe.traced_request trivial fun z => ?_)
    have hi := hb.cons (.insert (.insertServerArtifact pending)) z nofun
    have his := hbs.trans (List.suffix_cons ⟨.insert (.insertServerArtifact pending), z⟩ _)
    cases z with
    | error e => exact ⟨hi, his, nofun⟩
    | ok id =>
    refine ⟨hi, his, ?_⟩
    intro persisted hp
    obtain rfl := Except.ok.inj hp
    refine ⟨fun _ => rfl, fun id' hid => ?_⟩
    obtain rfl : id = id' := Option.some.inj hid
    refine ⟨pending, bytes, runner, artifactId, h, report, sha256, size, ?_, ?_, ?_, hr.report, hmem,
      rfl, rfl⟩
    · exact List.mem_cons_self
    · exact List.mem_cons_of_mem _ List.mem_cons_self
    · exact (List.suffix_cons _ _).trans (List.suffix_cons _ _)
  | _ => exact ⟨hr, List.suffix_refl _, fun _ hp => by cases hp; exact ⟨nofun, nofun⟩⟩

lemma persistJobOutputs_traced {runner : Runner} {jobRunId : Id} {report : BTreeMap JobOutput}
    {outputs : List (String × JobOutput)} (hsub : outputs ⊆ report.entries) {start : ServerTrace}
    (hr : Reporting start report h) :
    Safe (tracing fun h c => c.persisting h) (fun r h' => h <:+ h' ∧ ∀ persisted, r = .ok persisted →
      ∀ output ∈ persisted, OutputPersisted h' jobRunId output)
      (persistJobOutputs runner jobRunId outputs) h := by
  induction outputs generalizing h with
  | nil => exact ⟨List.suffix_refl _, fun _ hp => by cases hp; exact nofun⟩
  | cons output outputs ih =>
    obtain ⟨hmem, hsub⟩ := List.cons_subset.mp hsub
    refine Safe.bind (Safe.mono ?_ (persistJobOutput_traced hmem hr))
    rintro r h₁ ⟨hr₁, hs₁, hfirst⟩
    cases r with
    | error e => exact ⟨hs₁, nofun⟩
    | ok first =>
    refine Safe.bind (Safe.mono ?_ (ih hsub hr₁))
    rintro r h₂ ⟨hs₂, hrest⟩
    cases r with
    | error e => exact ⟨hs₁.trans hs₂, nofun⟩
    | ok rest =>
    refine ⟨hs₁.trans hs₂, ?_⟩
    rintro persisted hp output ho
    obtain rfl := Except.ok.inj hp
    rcases List.mem_cons.mp ho with rfl | ho
    · exact (hfirst _ rfl).mono hs₂
    · exact hrest _ rfl output ho

lemma finishPolledJob_traced {job : JobRun} {runner : Runner} {runnerRunId : String}
    {status : JobStatusResponse} (hr : lastReport h = some status.outputs) :
    Safe (tracing fun h c => c.persisting h) (fun _ _ => True)
      (finishPolledJob app job runner runnerRunId status) h := by
  refine Safe.bind (Safe.attempt (Safe.traced_request trivial fun x => ?_))
  have hr' : Reporting h status.outputs (⟨.runner runner (.getJobLogs runnerRunId), x⟩ :: h) :=
    (Reporting.mk (List.suffix_refl h) hr).cons _ x nofun
  refine Safe.ite (fun _ => storesNone_traced ?_) fun _ => ?_
  · exact .bind (storesNone_footprint.jobs.requeueJob _) fun _ => storesNone_footprint.jobs.finalize _
  refine Safe.bind (Safe.attempt (Safe.mono ?_ (persistJobOutputs_traced (List.Subset.refl _) hr')))
  rintro r h' ⟨-, hpersisted⟩
  cases r with
  | error e => exact storesNone_traced (storesNone_footprint.jobs.retryOrFailInfraError _ _ _ _ _)
  | ok outputs =>
    refine Safe.bind (Safe.traced_request (hpersisted outputs rfl) fun y => ?_)
    cases y with
    | error e => trivial
    | ok u => exact storesNone_traced (storesNone_footprint.jobs.finalize _)

lemma recordPolledStatus_traced {job : JobRun} {runner : Runner} {runnerRunId : String}
    {status : Except String JobStatusResponse}
    (hr : ∀ answer, status = .ok answer → lastReport h = some answer.outputs) :
    Safe (tracing fun h c => c.persisting h) (fun _ _ => True)
      (recordPolledStatus app job runner runnerRunId status) h := by
  cases status with
  | error e => trivial
  | ok status =>
    simp only [recordPolledStatus]
    split
    · exact finishPolledJob_traced (hr status rfl)
    · refine storesNone_traced (.ite (fun _ => .pure _) fun _ => ?_)
      exact .bind (Only.request_iff.mpr trivial) fun _ => storesNone_footprint.jobs.finalize _

lemma pollJobAtRunner_traced {job : JobRun} {runner : Runner} {runnerRunId : String} :
    Safe (tracing fun h c => c.persisting h) (fun _ _ => True)
      (pollJobAtRunner app job runner runnerRunId) h := by
  refine Safe.bind (Safe.mono ?_ (storesNone_traced
    (storesNone_footprint.retryStuckCancellation _ _ _)))
  rintro (e | exhausted) h' -
  · trivial
  refine Safe.ite (fun _ => storesNone_traced (storesNone_footprint.jobs.finalize _)) fun _ => ?_
  refine Safe.bind (Safe.attempt (Safe.traced_request trivial fun answer => ?_))
  refine recordPolledStatus_traced fun status hs => ?_
  subst hs
  rfl

lemma pollRunningJobs_traced : Safe (tracing fun h c => c.persisting h) (fun _ _ => True)
    (pollRunningJobs app) h := by
  refine Safe.bind (Safe.traced_request trivial fun jobs => ?_)
  cases jobs with
  | error e => trivial
  | ok jobs =>
  refine Safe.forM (I := fun _ _ => True) (fun _ _ => trivial) (fun job jobs h _ => ?_) trivial
  suffices Safe (tracing fun h c => c.persisting h) (fun _ _ => True) _ h from
    Safe.mono (fun r _ _ => by cases r <;> trivial) this
  refine Safe.bind (Safe.traced_request trivial fun runner => ?_)
  cases runner with
  | error e => trivial
  | ok runner =>
    cases runner with
    | none => trivial
    | some runner =>
      rcases hrun : job.runnerRunId with - | runnerRunId
      · simp only [onOk]
        trivial
      · exact pollJobAtRunner_traced

theorem program_persisting (r : Role) :
    Safe (tracing fun h c => c.persisting h) (fun _ _ => True) (r.program app) [] := by
  have hcreate : ∀ runner jobRunId name key body,
      Call.storesNone (.runner runner (.createJobRun jobRunId name key body)) :=
    fun _ _ _ _ _ => trivial
  have hstart : ∀ jobRunId runId startedAt,
      Call.storesNone (.jobRun jobRunId (.setJobRunStarted runId startedAt)) := fun _ _ _ => trivial
  have hdispatch : Program.Only Call.storesNone (dispatchPendingJobs app) :=
    storesNone_footprint.dispatchPendingJobs hcreate hstart
  have h := storesNone_footprint.toFootprint
  cases r with
  | recovery => exact storesNone_traced h.recoverIncompletePipelines
  | pushEvents => exact storesNone_traced h.processPushEvents
  | dispatch => exact storesNone_traced hdispatch
  | poll => exact pollRunningJobs_traced
  | reconcile =>
    refine Safe.bind (Safe.mono ?_ (storesNone_traced h.recoverIncompletePipelines))
    rintro (e | u) h₁ -
    · trivial
    refine Safe.bind (Safe.mono ?_ (storesNone_traced h.processPushEvents))
    rintro (e | u) h₂ -
    · trivial
    refine Safe.bind (Safe.mono ?_ (storesNone_traced hdispatch))
    rintro (e | u) h₃ -
    · trivial
    exact pollRunningJobs_traced
  | cancel pipelineId => exact storesNone_traced (h.cancelPipeline pipelineId)
  | enqueue number workflow triggerType triggerRef commitSha selections =>
    exact storesNone_traced (.bind (h.enqueue _ _ _ _ _ _) fun _ => .pure _)

end

end Janus.Server
