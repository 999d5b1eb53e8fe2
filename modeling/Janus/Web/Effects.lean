import Janus.Data.Except
import Janus.Server.Effects
import Janus.Web.System

/-! What each call can make of the tables that the routes write. -/

namespace Janus.Server

open Janus.Concurrency Janus.Data

structure Database.SameTriggers (db db' : Database) : Prop where
  pushEvents : db'.pushEvents = db.pushEvents
  selections : db'.workflowRunArtifactInputs = db.workflowRunArtifactInputs

def Call.keepsTriggers : Call → Prop
  | .insert (.addWorkflowRunArtifactSelections _ _) => False
  | .markPushEventProcessed _ => False
  | _ => True

section

variable {app : AppState} {o : Outcome} {s s' : Store}

lemma Database.SameTriggers.rfl {db : Database} : db.SameTriggers db := ⟨.refl _, .refl _⟩

lemma updateJobRun_triggers {db : Database} {u : JobUpdate} {now : Timestamp} {key id : Id} :
    db.SameTriggers (db.updateJobRun u now key id).2 := by
  simp only [Database.updateJobRun]
  split
  · exact .rfl
  · cases u <;> exact ⟨rfl, rfl⟩

lemma Insertion.exec_triggers {i : Insertion} (hi : (Call.insert i).keepsTriggers) (db : Database) :
    db.SameTriggers (i.exec o db).2 := by
  cases i with
  | createPipelineRun repoId workflowId workflowVersionId triggerType triggerRef commitSha origin =>
    simp only [exec, Database.createPipelineRun]
    split
    · next h =>
      split at h
      · cases h
      · split at h <;> cases h
        exact ⟨rfl, rfl⟩
    · exact .rfl
  | addWorkflowRunArtifactSelections pipelineRunId selections => exact hi.elim
  | createJobRun pipelineRunId jobIndex runnerId runnerJobName outcomePolicy =>
    simp only [exec, Database.insertJobRun]
    split
    · exact .rfl
    · next db' h =>
      have hdb' : db.SameTriggers db' := by
        split at h
        · cases h
        · split at h
          · cases h
          · split at h <;> cases h
            exact ⟨rfl, rfl⟩
      split
      · exact hdb'
      · simp only [Database.insertJobRunLogs]
        split
        · next db'' hlogs =>
          split at hlogs <;> cases hlogs
          exact ⟨hdb'.pushEvents, hdb'.selections⟩
        · exact hdb'
  | addPreviousJob jobRunId previousJobRunId =>
    simp only [exec, Database.addPreviousJob]
    split
    · next h =>
      split at h
      · cases h
      · split at h <;> cases h
        exact ⟨rfl, rfl⟩
    · exact .rfl
  | insertServerArtifact artifact =>
    simp only [exec, Database.insertServerArtifact]
    split
    · next h =>
      split at h
      · cases h
        exact ⟨rfl, rfl⟩
      · split at h <;> cases h
        exact ⟨rfl, rfl⟩
    · exact .rfl

theorem exec_triggers {c : Call} (hc : c.keepsTriggers) {x : Except String c.Result}
    (h : c.exec app o s = (x, s')) : s.db.SameTriggers s'.db := by
  rcases exec_cases h with ⟨rfl, -⟩ | h
  · exact .rfl
  · cases c with
    | jobRun id u => cases h; exact updateJobRun_triggers
    | insert i => cases h; exact Insertion.exec_triggers hc s.db
    | file f =>
      have hdb : (f.exec app o s).2.db = s.db := f.exec_db
      rw [show f.exec app o s = (x, s') from h] at hdb
      exact hdb ▸ .rfl
    | markPushEventProcessed id => exact hc.elim
    | pipelineRun id u => cases h; exact ⟨rfl, rfl⟩
    | setJobRunInputPayload id payload => cases h; exact ⟨rfl, rfl⟩
    | _ => cases h; exact .rfl

def WorkflowRunArtifactSelection.input (pipelineRunId : Id)
    (selection : WorkflowRunArtifactSelection) : ArtifactInput :=
  ⟨pipelineRunId, selection.jobIndex, selection.inputName, selection.serverArtifactId⟩

lemma addSelections_eq {db db' : Database} {pipelineRunId : Id}
    {selections : List WorkflowRunArtifactSelection}
    (h : db.addWorkflowRunArtifactSelections pipelineRunId selections = .ok db') :
    db' = { db with workflowRunArtifactInputs := db'.workflowRunArtifactInputs } ∧
      db'.workflowRunArtifactInputs.rows = db.workflowRunArtifactInputs.rows ++
        selections.map (WorkflowRunArtifactSelection.input pipelineRunId) := by
  induction selections generalizing db with
  | nil =>
    cases h
    simp
  | cons selection selections ih =>
    simp only [Database.addWorkflowRunArtifactSelections] at h
    cases hs : db.addSelection pipelineRunId selection with
    | error e => simp [hs, Except.bind] at h
    | ok db₁ =>
      rw [hs] at h
      obtain ⟨hdb, hrows⟩ := ih h
      simp only [Database.addSelection] at hs
      split at hs
      · cases hs
      · split at hs
        · next inputs hinputs =>
          cases hs
          refine ⟨hdb, ?_⟩
          rw [hrows, Table.rows_insert? hinputs, List.append_assoc]
          rfl
        · cases hs

lemma exec_marks {c : Call} {x : Except String c.Result} (h : c.exec app o s = (x, s')) :
    s'.db.pushEvents = s.db.pushEvents ∨ ∃ id, c = .markPushEventProcessed id ∧ s'.db.pushEvents =
      s.db.pushEvents.modify id (fun event => { event with processedAt := some o.now }) fun _ => rfl := by
  by_cases hc : c.keepsTriggers
  · exact .inl (exec_triggers hc h).pushEvents
  · rcases exec_cases h with ⟨rfl, -⟩ | h
    · exact .inl rfl
    · cases c with
      | markPushEventProcessed id =>
        cases h
        exact .inr ⟨id, rfl, rfl⟩
      | insert i =>
        cases i with
        | addWorkflowRunArtifactSelections pipelineRunId selections =>
          cases h
          simp only [Insertion.exec]
          split
          · next h =>
            rw [(addSelections_eq h).1]
            exact .inl rfl
          · exact .inl rfl
        | _ => exact (hc trivial).elim
      | _ => exact (hc trivial).elim

lemma exec_pushEvents {c : Call} {x : Except String c.Result} (h : c.exec app o s = (x, s')) :
    s'.db.pushEvents = s.db.pushEvents ∨ ∃ id, s'.db.pushEvents =
      s.db.pushEvents.modify id (fun event => { event with processedAt := some o.now }) fun _ => rfl :=
  (exec_marks h).imp_right fun ⟨id, _, hmodify⟩ => ⟨id, hmodify⟩

end

end Janus.Server

namespace Janus.Web

open Janus.Concurrency Janus.Data Janus.Server

def WebUpdate.database (o : SiteOutcome) (db : Database) : WebUpdate → Except String Database
  | .createPushEvent repoId eventKey refs => db.createPushEvent o.uuid o.now repoId eventKey refs
  | .createRunner name baseUrl => db.createRunner (toString o.uuid) name baseUrl
  | .setRunnerEnabled runnerId enabled => .ok (db.setRunnerEnabled runnerId enabled)
  | .updateRunner runnerId name baseUrl => db.updateRunner runnerId name baseUrl
  | .updateRunnerHealth runnerId state _ => .ok (db.updateRunnerHealth runnerId state)
  | .replaceRunnerJobs runnerId jobs _ => db.replaceRunnerJobs runnerId jobs
  | .createWorkflow repoId name enabled triggerJson definitionJson jobSchemas =>
    db.createWorkflow o.uuid o.versionId repoId name enabled triggerJson definitionJson jobSchemas
  | .updateWorkflow workflowId name enabled triggerJson definitionJson jobSchemas =>
    db.updateWorkflow o.versionId workflowId name enabled triggerJson definitionJson jobSchemas
  | .createAuditEvent _ _ _ => .ok db

inductive WebUpdate.Writes (o : SiteOutcome) (db : Database) : WebUpdate → Database → Prop
  | ignored (repoId : Id) (key : String) (refs : List PushEventRef)
      (stored : key ∈ db.eventKeys ∨ ∃ row ∈ db.pushEvents.rows, row.id = o.uuid) :
      Writes o db (.createPushEvent repoId key refs) db
  | createPushEvent (repoId : Id) (key : String) (refs : List PushEventRef)
      (pushEvents : Table PushEvent.id) (new : key ∉ db.eventKeys)
      (rows : db.pushEvents.insert? (Database.newPushEvent o.uuid o.now repoId key refs) =
        some pushEvents) :
      Writes o db (.createPushEvent repoId key refs) { db with pushEvents }
  | createRunner (name baseUrl : String) (runners : Table Runner.id)
      (rows : db.runners.insert? { id := toString o.uuid, name, baseUrl } = some runners) :
      Writes o db (.createRunner name baseUrl) { db with runners }
  | setRunnerEnabled (runnerId : String) (enabled : Bool) :
      Writes o db (.setRunnerEnabled runnerId enabled) (db.setRunnerEnabled runnerId enabled)
  | updateRunner (runnerId name baseUrl : String) (db' : Database)
      (runners : db.updateRunner runnerId name baseUrl = .ok db')
      (frame : db' = { db with runners := db'.runners, runnerJobs := db'.runnerJobs }) :
      Writes o db (.updateRunner runnerId name baseUrl) db'
  | updateRunnerHealth (runnerId state asked : String) :
      Writes o db (.updateRunnerHealth runnerId state asked) (db.updateRunnerHealth runnerId state)
  | replaceRunnerJobs (runnerId : String) (jobs : List RunnerJobDefinition) (asked : String)
      (runner : jobs ≠ [] → (db.runners.find? runnerId).isSome) :
      Writes o db (.replaceRunnerJobs runnerId jobs asked)
        { db with
          runnerJobs := db.deleteRunnerJobs runnerId ++ jobs.map fun job => (runnerId, job) }
  | createWorkflow (repoId : Id) (name : String) (enabled : Bool)
      (triggerJson : Except String WorkflowTrigger)
      (definitionJson : Except String WorkflowDefinition) (jobSchemas : List RunnerJobDefinition)
      (workflows : Table WorkflowRow.id) (workflowVersions : Table WorkflowVersionRow.id)
      (rows : db.workflows.insert? ⟨o.uuid, repoId, name, enabled⟩ = some workflows)
      (versions : db.insertWorkflowVersion
        ⟨o.versionId, o.uuid, 1, triggerJson, definitionJson, jobSchemas⟩ = .ok workflowVersions) :
      Writes o db (.createWorkflow repoId name enabled triggerJson definitionJson jobSchemas)
        { db with workflows, workflowVersions }
  | updateWorkflow (workflowId : Id) (name : String) (enabled : Bool)
      (triggerJson : Except String WorkflowTrigger)
      (definitionJson : Except String WorkflowDefinition) (jobSchemas : List RunnerJobDefinition)
      (workflowVersions : Table WorkflowVersionRow.id)
      (workflow : (db.workflows.find? workflowId).isSome)
      (versions : db.insertWorkflowVersion ⟨o.versionId, workflowId, db.nextVersion workflowId,
        triggerJson, definitionJson, jobSchemas⟩ = .ok workflowVersions) :
      Writes o db (.updateWorkflow workflowId name enabled triggerJson definitionJson jobSchemas)
        { db with
          workflows := db.workflows.modify workflowId
            (fun workflow => { workflow with name, enabled }) fun _ => rfl
          workflowVersions }
  | createAuditEvent (action targetType : String) (targetId : Option String) :
      Writes o db (.createAuditEvent action targetType targetId) db

lemma database_writes {o : SiteOutcome} {u : WebUpdate} {db db' : Database}
    (h : u.database o db = .ok db') : u.Writes o db db' := by
  cases u with
  | createPushEvent repoId key refs =>
    simp only [WebUpdate.database, Database.createPushEvent] at h
    split at h
    · next hk =>
      cases h
      exact .ignored repoId key refs (.inl hk)
    · next hk =>
      split at h
      · next hinsert =>
        cases h
        exact .ignored repoId key refs (.inr (Table.mem_of_insert?_none hinsert))
      · next rows hinsert =>
        split at h <;> cases h
        exact .createPushEvent repoId key refs rows hk hinsert
  | createRunner name baseUrl =>
    simp only [WebUpdate.database, Database.createRunner] at h
    split at h
    · cases h
    · split at h
      · next rows hrows =>
        cases h
        exact .createRunner name baseUrl rows hrows
      · cases h
  | setRunnerEnabled runnerId enabled =>
    cases h
    exact .setRunnerEnabled runnerId enabled
  | updateRunner runnerId name baseUrl =>
    refine .updateRunner runnerId name baseUrl db' h ?_
    simp only [WebUpdate.database, Database.updateRunner] at h
    split at h
    · cases h
    · split at h <;> cases h
      rfl
  | updateRunnerHealth runnerId state asked =>
    cases h
    exact .updateRunnerHealth runnerId state asked
  | replaceRunnerJobs runnerId jobs asked =>
    simp only [WebUpdate.database, Database.replaceRunnerJobs] at h
    split at h
    · cases h
    · next hrunner =>
      split at h <;> cases h
      refine .replaceRunnerJobs runnerId jobs asked fun hjobs => ?_
      simpa [hjobs, Option.isSome_iff_ne_none] using hrunner
  | createWorkflow repoId name enabled triggerJson definitionJson jobSchemas =>
    simp only [WebUpdate.database, Database.createWorkflow] at h
    split at h
    · cases h
    · split at h
      · cases h
      · next rows hrows =>
        obtain ⟨versions, hversions, rfl⟩ := map_ok h
        exact .createWorkflow repoId name enabled triggerJson definitionJson jobSchemas rows versions
          hrows hversions
  | updateWorkflow workflowId name enabled triggerJson definitionJson jobSchemas =>
    simp only [WebUpdate.database, Database.updateWorkflow] at h
    split at h
    · cases h
    · next hworkflow =>
      obtain ⟨versions, hversions, rfl⟩ := map_ok h
      refine .updateWorkflow workflowId name enabled triggerJson definitionJson jobSchemas versions
        ?_ hversions
      simpa [Option.isSome_iff_ne_none] using hworkflow
  | createAuditEvent action targetType targetId =>
    cases h
    exact .createAuditEvent action targetType targetId

inductive SiteCall.Effect (app : AppState) (o : SiteOutcome) (s s' : Site) :
    (c : SiteCall) → Except String c.Result → Prop
  | server (c : Call) {x : Except String c.Result}
      (exec : c.exec app o.toOutcome s.toStore = (x, s'.toStore))
      (unsettled : s'.unsettled = unsettledAfter s.unsettled c x) : Effect app o s s' (.server c) x
  | update (u : WebUpdate) (a : u.Result) {x : Except String u.Result} (answer : x = .ok a)
      (writes : u.Writes o s.db s'.db) (unsettled : s'.unsettled = s.unsettled) :
      Effect app o s s' (.update u) x
  | kept {c : SiteCall} {x : Except String c.Result} (db : s'.db = s.db)
      (unsettled : s'.unsettled = s.unsettled) (failed : ∀ u, c = .update u → ∃ e, x = .error e) :
      Effect app o s s' c x

section

variable {app : AppState} {o : SiteOutcome} {s s' : Site}

lemma WebUpdate.perform_effect {u : WebUpdate} {x : Except String u.Result}
    (h : u.perform o s = (x, s')) : SiteCall.Effect app o s s' (.update u) x := by
  have hwrite {u : WebUpdate} {a : u.Result} {x : Except String u.Result}
      (h : s.write a (u.database o s.db) = (x, s')) : SiteCall.Effect app o s s' (.update u) x := by
    cases hdb : u.database o s.db with
    | ok db =>
      rw [hdb] at h
      cases h
      exact .update u a rfl (database_writes hdb) rfl
    | error e =>
      rw [hdb] at h
      cases h
      exact .kept rfl rfl fun _ _ => ⟨e, rfl⟩
  cases u with
  | updateRunnerHealth runnerId state asked =>
    cases h
    exact .update (.updateRunnerHealth runnerId state asked) () rfl (.updateRunnerHealth _ _ _) rfl
  | replaceRunnerJobs runnerId jobs asked =>
    simp only [perform] at h
    split at h
    · next db hdb =>
      cases h
      exact .update (.replaceRunnerJobs runnerId jobs asked) () rfl (database_writes hdb) rfl
    · next e hdb =>
      cases h
      exact .kept rfl rfl fun _ _ => ⟨e, rfl⟩
  | createAuditEvent action targetType targetId =>
    cases h
    exact .update (.createAuditEvent action targetType targetId) () rfl (.createAuditEvent _ _ _) rfl
  | _ => exact hwrite h

theorem site_effect {c : SiteCall} {x : Except String c.Result} (h : c.exec app o s = (x, s')) :
    c.Effect app o s s' x := by
  cases c with
  | server c =>
    cases h
    exact .server c rfl rfl
  | query q =>
    simp only [SiteCall.exec] at h
    split at h <;> cases h
    · exact .kept rfl rfl fun _ hu => by cases hu
    · exact .kept rfl rfl fun _ hu => by cases hu
  | update u =>
    simp only [SiteCall.exec] at h
    split at h
    · next e _ =>
      cases h
      exact .kept rfl rfl fun _ _ => ⟨e, rfl⟩
    · exact WebUpdate.perform_effect h
  | catalog runner request refresh =>
    cases h
    exact .kept rfl rfl fun _ hu => by cases hu

lemma update_effect {u : WebUpdate} {x : Except String u.Result}
    (h : SiteCall.exec app o s (.update u) = (x, s')) :
    (∃ a, x = .ok a ∧ u.Writes o s.db s'.db) ∨ (s'.db = s.db ∧ ∃ e, x = .error e) := by
  cases site_effect h with
  | update u a answer writes _ => exact .inl ⟨a, answer, writes⟩
  | kept db _ failed => exact .inr ⟨db, failed u rfl⟩

lemma WebUpdate.Writes.repos {u : WebUpdate} {db db' : Database} (h : u.Writes o db db') :
    db'.repos = db.repos := by
  cases h with
  | updateRunner _ _ _ _ _ frame => rw [frame]
  | _ => rfl

lemma WebUpdate.Writes.pipelines {u : WebUpdate} {db db' : Database} (h : u.Writes o db db') :
    db'.pipelineRuns = db.pipelineRuns ∧
      db'.workflowRunArtifactInputs = db.workflowRunArtifactInputs := by
  cases h with
  | updateRunner _ _ _ _ _ frame =>
    rw [frame]
    exact ⟨rfl, rfl⟩
  | _ => exact ⟨rfl, rfl⟩

lemma site_exec_repos {c : SiteCall} {x : Except String c.Result} (h : c.exec app o s = (x, s')) :
    s'.db.repos = s.db.repos := by
  cases site_effect h with
  | server c exec _ => exact (exec_config exec).repos
  | update u a _ writes _ => exact writes.repos
  | kept db _ _ => rw [db]

end

lemma site_repos {app : WebState} {p p' : SitePool} {e : SiteEvent}
    (ha : (site app).apply p e = some p') : p'.store.db.repos = p.store.db.repos :=
  System.store_apply (R := fun s s' => s'.db.repos = s.db.repos) ha (fun _ => rfl)
    (fun _ _ _ => site_exec_repos rfl) (fun _ _ => rfl) fun _ => rfl

end Janus.Web
