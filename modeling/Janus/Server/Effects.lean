import Janus.Server.System

/-! What each call can make of the tables that decide the course of pipelines. -/

namespace Janus.Server

open Janus.Concurrency Janus.Data

structure Database.Untouched (db db' : Database) : Prop where
  jobRuns : db'.jobRuns = db.jobRuns
  pipelineRuns : db'.pipelineRuns = db.pipelineRuns
  jobRunPrevious : db'.jobRunPrevious = db.jobRunPrevious

structure Database.SameConfig (db db' : Database) : Prop where
  repos : db'.repos = db.repos
  runners : db'.runners = db.runners
  runnerJobs : db'.runnerJobs = db.runnerJobs
  workflows : db'.workflows = db.workflows
  workflowVersions : db'.workflowVersions = db.workflowVersions

/-- The calls that write one of the tables of `Untouched`. -/
def Call.mutates : Call → Bool
  | .jobRun _ _ => true
  | .pipelineRun _ _ => true
  | .insert (.createPipelineRun _ _ _ _ _ _ _) => true
  | .insert (.createJobRun _ _ _ _ _) => true
  | .insert (.addPreviousJob _ _) => true
  | _ => false

inductive Call.Effect (db db' : Database) : (c : Call) → Except String c.Result → Prop
  | untouched {c : Call} {x : Except String c.Result} (tables : db.Untouched db')
      (failed : c.mutates = true → ∃ e, x = .error e) : Effect db db' c x
  | jobRun (id : Id) (u : JobUpdate) (now : Timestamp) (key : Id) {x : Except String u.Result}
      (jobRuns : db'.jobRuns =
        db.jobRuns.modify id (u.row now key) fun job => (u.row_same now key job).id)
      (pipelineRuns : db'.pipelineRuns = db.pipelineRuns)
      (jobRunPrevious : db'.jobRunPrevious = db.jobRunPrevious) : Effect db db' (.jobRun id u) x
  | pipelineRun (id : Id) (u : PipelineUpdate) (now : Timestamp) {x : Except String Unit}
      (jobRuns : db'.jobRuns = db.jobRuns)
      (pipelineRuns : db'.pipelineRuns =
        db.pipelineRuns.modify id (u.row db now id) fun pipeline => u.row_id db now id pipeline)
      (jobRunPrevious : db'.jobRunPrevious = db.jobRunPrevious) :
      Effect db db' (.pipelineRun id u) x
  | createPipelineRun (repoId workflowId workflowVersionId : Id) (triggerType : String)
      (triggerRef commitSha : Option String) (origin : Origin) (id : Id) (now : Timestamp)
      {x : Except String Id} (jobRuns : db'.jobRuns = db.jobRuns)
      (pipelineRuns : db.pipelineRuns.insert? (Database.newPipelineRun id now repoId workflowId
        workflowVersionId triggerType triggerRef commitSha origin) = some db'.pipelineRuns)
      (jobRunPrevious : db'.jobRunPrevious = db.jobRunPrevious) (answer : x = .ok id) :
      Effect db db' (.insert (.createPipelineRun repoId workflowId workflowVersionId triggerType
        triggerRef commitSha origin)) x
  | createJobRun (pipelineRunId : Id) (jobIndex : ℕ) (runnerId runnerJobName : String)
      (outcomePolicy : WorkflowJobOutcomePolicy) (id key : Id) {x : Except String Id}
      (pipeline : (db.pipelineRuns.find? pipelineRunId).isSome)
      (runner : (db.runners.find? runnerId).isSome)
      (jobRuns : db.jobRuns.insert? (Database.newJobRun id key pipelineRunId jobIndex runnerId
        runnerJobName outcomePolicy) = some db'.jobRuns)
      (pipelineRuns : db'.pipelineRuns = db.pipelineRuns)
      (jobRunPrevious : db'.jobRunPrevious = db.jobRunPrevious)
      (answer : x = .ok id ∨ ∃ e, x = .error e) :
      Effect db db' (.insert (.createJobRun pipelineRunId jobIndex runnerId runnerJobName
        outcomePolicy)) x
  | addPreviousJob (jobRunId previousJobRunId : Id) {x : Except String Unit}
      (job : (db.jobRuns.find? jobRunId).isSome)
      (previous : (db.jobRuns.find? previousJobRunId).isSome)
      (jobRuns : db'.jobRuns = db.jobRuns)
      (pipelineRuns : db'.pipelineRuns = db.pipelineRuns)
      (jobRunPrevious :
        db.jobRunPrevious.insert? ⟨jobRunId, previousJobRunId⟩ = some db'.jobRunPrevious)
      (answer : x = .ok ()) :
      Effect db db' (.insert (.addPreviousJob jobRunId previousJobRunId)) x

section

variable {app : AppState} {o : Outcome} {s s' : Store}

lemma Database.Untouched.rfl {db : Database} : db.Untouched db := ⟨.refl _, .refl _, .refl _⟩

lemma Database.SameConfig.rfl {db : Database} : db.SameConfig db :=
  ⟨.refl _, .refl _, .refl _, .refl _, .refl _⟩

lemma exec_of_refusal {c : Call} {e : String} (h : c.refusal o.fault = some e) :
    c.exec app o s = (.error e, s) := by
  simp only [Call.exec, h]

lemma exec_of_allowed {c : Call} (h : c.refusal o.fault = none) :
    c.exec app o s = c.perform app o s := by
  simp only [Call.exec, h]

lemma exec_cases {c : Call} {x : Except String c.Result} (h : c.exec app o s = (x, s')) :
    (s' = s ∧ ∃ e, x = .error e) ∨ c.perform app o s = (x, s') := by
  cases hr : c.refusal o.fault with
  | some e =>
    rw [exec_of_refusal hr] at h
    cases h
    exact .inl ⟨rfl, e, rfl⟩
  | none => exact .inr (exec_of_allowed hr ▸ h)

lemma FileCall.exec_db (f : FileCall) : (f.exec app o s).2.db = s.db := by
  have hstore : ∀ a b c d, (FileCall.exec.store app o s a b c d).2.db = s.db := by
    intro a b c d
    simp only [FileCall.exec.store]
    split <;> rfl
  cases f with
  | readBytes path => simp only [FileCall.exec]; split <;> rfl
  | storeBytes a b c d => exact hstore a b c d
  | archiveExists p c => rfl
  | createSourceArchive b p c => simp only [FileCall.exec]; split <;> rfl
  | storeFile a b c p sha =>
    simp only [FileCall.exec]
    split
    · exact hstore a b c _
    · rfl

namespace Database

variable {db db' : Database}

lemma addSelection_tables {pipelineRunId : Id} {selection : WorkflowRunArtifactSelection}
    (h : db.addSelection pipelineRunId selection = .ok db') :
    db.Untouched db' ∧ db.SameConfig db' := by
  simp only [addSelection] at h
  split at h
  · cases h
  · split at h
    · cases h
      exact ⟨⟨rfl, rfl, rfl⟩, ⟨rfl, rfl, rfl, rfl, rfl⟩⟩
    · cases h

lemma Untouched.trans {db'' : Database} (h : db.Untouched db') (h' : db'.Untouched db'') :
    db.Untouched db'' :=
  ⟨h'.jobRuns.trans h.jobRuns, h'.pipelineRuns.trans h.pipelineRuns,
    h'.jobRunPrevious.trans h.jobRunPrevious⟩

lemma SameConfig.trans {db'' : Database} (h : db.SameConfig db') (h' : db'.SameConfig db'') :
    db.SameConfig db'' :=
  ⟨h'.repos.trans h.repos, h'.runners.trans h.runners, h'.runnerJobs.trans h.runnerJobs,
    h'.workflows.trans h.workflows, h'.workflowVersions.trans h.workflowVersions⟩

lemma addSelections_tables {pipelineRunId : Id} {selections : List WorkflowRunArtifactSelection}
    (h : db.addWorkflowRunArtifactSelections pipelineRunId selections = .ok db') :
    db.Untouched db' ∧ db.SameConfig db' := by
  induction selections generalizing db with
  | nil =>
    cases h
    exact ⟨.rfl, .rfl⟩
  | cons selection selections ih =>
    simp only [addWorkflowRunArtifactSelections] at h
    cases hs : db.addSelection pipelineRunId selection with
    | error e => simp [hs, Except.bind] at h
    | ok db₁ =>
      rw [hs] at h
      obtain ⟨hu, hc⟩ := addSelection_tables hs
      obtain ⟨hu', hc'⟩ := ih h
      exact ⟨hu.trans hu', hc.trans hc'⟩

lemma insertServerArtifact_tables {artifact : PendingArtifact}
    (h : db.insertServerArtifact artifact = .ok db') : db.Untouched db' ∧ db.SameConfig db' := by
  simp only [insertServerArtifact] at h
  split at h
  · cases h
    exact ⟨⟨rfl, rfl, rfl⟩, ⟨rfl, rfl, rfl, rfl, rfl⟩⟩
  · split at h
    · cases h
      exact ⟨⟨rfl, rfl, rfl⟩, ⟨rfl, rfl, rfl, rfl, rfl⟩⟩
    · cases h

lemma insertJobRunLogs_tables {jobRunId : Id} (h : db.insertJobRunLogs jobRunId = .ok db') :
    db.Untouched db' ∧ db.SameConfig db' := by
  simp only [insertJobRunLogs] at h
  split at h
  · cases h
    exact ⟨⟨rfl, rfl, rfl⟩, ⟨rfl, rfl, rfl, rfl, rfl⟩⟩
  · cases h

end Database

lemma updateJobRun_effect {db : Database} {u : JobUpdate} {now : Timestamp} {key id : Id} :
    Call.Effect db (db.updateJobRun u now key id).2 (.jobRun id u) (db.updateJobRun u now key id).1 := by
  simp only [Database.updateJobRun]
  split
  · exact .untouched .rfl fun _ => ⟨_, rfl⟩
  · refine .jobRun id u now key ?_ ?_ ?_ <;> cases u <;> rfl

lemma updateJobRun_config {db : Database} {u : JobUpdate} {now : Timestamp} {key id : Id} :
    db.SameConfig (db.updateJobRun u now key id).2 := by
  simp only [Database.updateJobRun]
  split
  · exact .rfl
  · cases u <;> exact ⟨rfl, rfl, rfl, rfl, rfl⟩

lemma Insertion.exec_effect (i : Insertion) (db : Database) :
    Call.Effect db (i.exec o db).2 (.insert i) (i.exec o db).1 := by
  cases i with
  | createPipelineRun repoId workflowId versionId triggerType triggerRef commitSha origin =>
    simp only [Insertion.exec]
    cases h : db.createPipelineRun o.uuid o.now repoId workflowId versionId triggerType triggerRef
        commitSha origin with
    | error e => exact .untouched .rfl fun _ => ⟨e, rfl⟩
    | ok db' =>
      simp only [Database.createPipelineRun] at h
      split at h
      · cases h
      · split at h
        · next rows hrows =>
          cases h
          exact .createPipelineRun _ _ _ _ _ _ _ o.uuid o.now rfl hrows rfl rfl
        · cases h
  | addWorkflowRunArtifactSelections pipelineRunId selections =>
    simp only [Insertion.exec]
    cases h : db.addWorkflowRunArtifactSelections pipelineRunId selections with
    | error e => exact .untouched .rfl fun _ => ⟨e, rfl⟩
    | ok db' => exact .untouched (Database.addSelections_tables h).1 fun hm => by cases hm
  | createJobRun pipelineRunId jobIndex runnerId runnerJobName outcomePolicy =>
    simp only [Insertion.exec]
    cases h : db.insertJobRun o.uuid o.dispatchKey pipelineRunId jobIndex runnerId runnerJobName
        outcomePolicy with
    | error e => exact .untouched .rfl fun _ => ⟨e, rfl⟩
    | ok db' =>
      dsimp only
      simp only [Database.insertJobRun] at h
      split at h
      · cases h
      · next hfk =>
        simp only [not_or, Option.isNone_iff_eq_none, ← ne_eq, Option.ne_none_iff_isSome] at hfk
        split at h
        · cases h
        · split at h
          · next rows hrows =>
            cases h
            have hrow (x : Except String Id) (hx : x = .ok o.uuid ∨ ∃ e, x = .error e) :
                Call.Effect db { db with jobRuns := rows } (.insert (.createJobRun pipelineRunId
                  jobIndex runnerId runnerJobName outcomePolicy)) x :=
              .createJobRun _ _ _ _ _ o.uuid o.dispatchKey hfk.1 hfk.2 hrows rfl rfl hx
            split
            · exact hrow _ (.inr ⟨_, rfl⟩)
            · split
              · next db'' hlogs =>
                obtain ⟨hu, -⟩ := Database.insertJobRunLogs_tables hlogs
                exact .createJobRun _ _ _ _ _ o.uuid o.dispatchKey hfk.1 hfk.2
                  (hu.jobRuns ▸ hrows) hu.pipelineRuns hu.jobRunPrevious (.inl rfl)
              · exact hrow _ (.inr ⟨_, rfl⟩)
          · cases h
  | addPreviousJob jobRunId previousJobRunId =>
    simp only [Insertion.exec]
    cases h : db.addPreviousJob jobRunId previousJobRunId with
    | error e => exact .untouched .rfl fun _ => ⟨e, rfl⟩
    | ok db' =>
      simp only [Database.addPreviousJob] at h
      split at h
      · cases h
      · next hfk =>
        simp only [not_or, Option.isNone_iff_eq_none, ← ne_eq, Option.ne_none_iff_isSome] at hfk
        split at h
        · next rows hrows =>
          cases h
          exact .addPreviousJob _ _ hfk.1 hfk.2 rfl rfl hrows rfl
        · cases h
  | insertServerArtifact artifact =>
    simp only [Insertion.exec]
    cases h : db.insertServerArtifact artifact with
    | error e => exact .untouched .rfl fun _ => ⟨e, rfl⟩
    | ok db' => exact .untouched (Database.insertServerArtifact_tables h).1 fun hm => by cases hm

lemma Insertion.exec_config (i : Insertion) (db : Database) : db.SameConfig (i.exec o db).2 := by
  cases i with
  | createPipelineRun repoId workflowId versionId triggerType triggerRef commitSha origin =>
    simp only [Insertion.exec, Database.createPipelineRun]
    split
    · next h =>
      split at h
      · cases h
      · split at h <;> cases h
        exact ⟨rfl, rfl, rfl, rfl, rfl⟩
    · exact .rfl
  | addWorkflowRunArtifactSelections pipelineRunId selections =>
    simp only [Insertion.exec]
    split
    · next h => exact (Database.addSelections_tables h).2
    · exact .rfl
  | createJobRun pipelineRunId jobIndex runnerId runnerJobName outcomePolicy =>
    simp only [Insertion.exec]
    split
    · exact .rfl
    · next db' h =>
      have hdb' : db.SameConfig db' := by
        simp only [Database.insertJobRun] at h
        split at h
        · cases h
        · split at h
          · cases h
          · split at h <;> cases h
            exact ⟨rfl, rfl, rfl, rfl, rfl⟩
      split
      · exact hdb'
      · split
        · next hlogs => exact hdb'.trans (Database.insertJobRunLogs_tables hlogs).2
        · exact hdb'
  | addPreviousJob jobRunId previousJobRunId =>
    simp only [Insertion.exec, Database.addPreviousJob]
    split
    · next h =>
      split at h
      · cases h
      · split at h <;> cases h
        exact ⟨rfl, rfl, rfl, rfl, rfl⟩
    · exact .rfl
  | insertServerArtifact artifact =>
    simp only [Insertion.exec]
    split
    · next h => exact (Database.insertServerArtifact_tables h).2
    · exact .rfl

theorem exec_effect {c : Call} {x : Except String c.Result} (h : c.exec app o s = (x, s')) :
    Call.Effect s.db s'.db c x := by
  rcases exec_cases h with ⟨rfl, he⟩ | h
  · exact .untouched .rfl fun _ => he
  · cases c with
    | query q => cases h; exact .untouched .rfl fun hm => by cases hm
    | jobRun id u =>
      simp only [Call.perform] at h
      have hu : Call.Effect s.db (s.db.updateJobRun u o.now o.dispatchKey id).2 (.jobRun id u)
          (s.db.updateJobRun u o.now o.dispatchKey id).1 := updateJobRun_effect
      cases hf : o.fault with
      | partway e =>
        rw [hf] at h
        cases h
        cases hu with
        | untouched tables failed => exact .untouched tables fun _ => ⟨e, rfl⟩
        | jobRun _ _ now key jobRuns pipelineRuns edges => exact .jobRun id u now key jobRuns pipelineRuns edges
      | none => rw [hf] at h; cases h; exact hu
      | refused e => rw [hf] at h; cases h; exact hu
    | pipelineRun id u => cases h; exact .pipelineRun id u o.now rfl rfl rfl
    | insert i => cases h; exact i.exec_effect s.db
    | setJobRunInputPayload id payload =>
      cases h; exact .untouched ⟨rfl, rfl, rfl⟩ fun hm => by cases hm
    | markPushEventProcessed id =>
      cases h; exact .untouched ⟨rfl, rfl, rfl⟩ fun hm => by cases hm
    | runner r request => cases h; exact .untouched .rfl fun hm => by cases hm
    | file f =>
      have hdb : s'.db = s.db := by
        have : (f.exec app o s).2.db = s.db := f.exec_db
        rw [show f.exec app o s = (x, s') from h] at this
        exact this
      exact hdb ▸ .untouched .rfl fun hm => by cases hm
    | now => cases h; exact .untouched .rfl fun hm => by cases hm

theorem exec_config {c : Call} {x : Except String c.Result} (h : c.exec app o s = (x, s')) :
    s.db.SameConfig s'.db := by
  rcases exec_cases h with ⟨rfl, -⟩ | h
  · exact .rfl
  · cases c with
    | jobRun id u => cases h; exact updateJobRun_config
    | insert i => cases h; exact i.exec_config s.db
    | file f =>
      have hdb : s'.db = s.db := by
        have : (f.exec app o s).2.db = s.db := f.exec_db
        rw [show f.exec app o s = (x, s') from h] at this
        exact this
      exact hdb ▸ .rfl
    | query q => cases h; exact .rfl
    | pipelineRun id u => cases h; exact ⟨rfl, rfl, rfl, rfl, rfl⟩
    | setJobRunInputPayload id payload => cases h; exact ⟨rfl, rfl, rfl, rfl, rfl⟩
    | markPushEventProcessed id => cases h; exact ⟨rfl, rfl, rfl, rfl, rfl⟩
    | runner r request => cases h; exact .rfl
    | now => cases h; exact .rfl

lemma exec_query {q : Query} {x : Except String q.Result}
    (h : (Call.query q).exec app o s = (x, s')) :
    s' = s ∧ ((∃ e, x = .error e) ∨ x = q.eval s.db) := by
  rcases exec_cases h with ⟨rfl, he⟩ | h
  · exact ⟨rfl, .inl he⟩
  · cases h
    exact ⟨rfl, .inr rfl⟩

end

end Janus.Server
