import Janus.Server.Calls
import Janus.Web.Database

/-! The calls by which the routes and the refresh of the runners act, beside those of the scheduler. -/

namespace Janus.Web

open Janus.Concurrency Janus.Data Janus.Server

inductive WebUpdate
  | createPushEvent (repoId : Id) (eventKey : String) (refs : List PushEventRef)
  | createRunner (name baseUrl : String)
  | setRunnerEnabled (runnerId : String) (enabled : Bool)
  | updateRunner (runnerId name baseUrl : String)
  | updateRunnerHealth (runnerId state asked : String)
  | replaceRunnerJobs (runnerId : String) (jobs : List RunnerJobDefinition) (asked : String)
  | createWorkflow (repoId : Id) (name : String) (enabled : Bool)
      (triggerJson : Except String WorkflowTrigger)
      (definitionJson : Except String WorkflowDefinition) (jobSchemas : List RunnerJobDefinition)
  | updateWorkflow (workflowId : Id) (name : String) (enabled : Bool)
      (triggerJson : Except String WorkflowTrigger)
      (definitionJson : Except String WorkflowDefinition) (jobSchemas : List RunnerJobDefinition)
  | createAuditEvent (action targetType : String) (targetId : Option String)

def WebUpdate.Result : WebUpdate → Type
  | .createRunner _ _ => String
  | .createWorkflow _ _ _ _ _ _ => Id
  | .updateWorkflow _ _ _ _ _ _ => Id
  | _ => Unit

inductive CatalogRequest
  | capabilities
  | listJobs

def CatalogRequest.Result : CatalogRequest → Type
  | .capabilities => RunnerCapabilitiesResponse
  | .listJobs => List RunnerJobDefinition

def CatalogRequest.receive (limits : LimitsConfig) (reply : Except String HttpResponse) :
    (request : CatalogRequest) → Except String request.Result
  | .capabilities => reply.bind fun response =>
    if response.status ≠ 200 then
      .error ("runner capabilities returned " ++ StatusCode.display response.status)
    else
      readJsonResponse response limits.runnerJsonBytes fun
        | .capabilities response => some response
        | _ => none
  | .listJobs => reply.bind fun response =>
    if response.status ≠ 200 then
      .error ("runner returned " ++ StatusCode.display response.status)
    else
      readJsonResponse response limits.runnerJsonBytes fun
        | .jobs jobs => some jobs
        | _ => none

/-- `refresh_single_runner` and `refresh_runner_health`. -/
inductive Refresh
  | single
  | health

inductive SiteCall
  | server (c : Call)
  | query (q : WebQuery)
  | update (u : WebUpdate)
  | catalog (runner : Runner) (request : CatalogRequest) (refresh : Refresh)

def SiteCall.Result : SiteCall → Type
  | .server c => c.Result
  | .query q => q.Result
  | .update u => u.Result
  | .catalog _ request _ => request.Result

structure SiteOutcome extends Outcome where
  versionId : Id := 0

structure AuditEvent where
  action : String
  targetType : String
  targetId : Option String

structure CatalogHistory where
  fetched : List (String × String) := []
  refreshed : List (String × String × Bool) := []

structure Site extends Store where
  auditEvents : List AuditEvent := []
  catalogs : CatalogHistory := {}
  unsettled : List Id := []

def CatalogHistory.fetch (h : CatalogHistory) (runnerId asked : String) : CatalogHistory :=
  { h with fetched := (runnerId, asked) :: h.fetched }

def CatalogHistory.refresh (h : CatalogHistory) (runnerId asked : String) (answered : Bool) :
    CatalogHistory :=
  { h with refreshed := (runnerId, asked, answered) :: h.refreshed }

def CatalogHistory.ask {α : Type} (h : CatalogHistory) (runner : Runner) :
    Refresh → Except String α → CatalogHistory
  | .single, .error _ => h.refresh runner.id runner.baseUrl false
  | _, _ => h

def unsettledAfter (unsettled : List Id) : (c : Call) → Except String c.Result → List Id
  | .insert (.createPipelineRun _ _ _ _ _ _ _), .ok (pipelineId : Id) => pipelineId :: unsettled
  | .insert (.addWorkflowRunArtifactSelections pipelineId _), .ok _ =>
    unsettled.filter fun id => id ≠ pipelineId
  | _, _ => unsettled

def Site.setDb (s : Site) (db : Database) : Site := { s with db }

def Site.write {α : Type} (s : Site) (a : α) : Except String Database → Except String α × Site
  | .ok db => (.ok a, s.setDb db)
  | .error e => (.error e, s)

def WebUpdate.perform (o : SiteOutcome) (s : Site) : (u : WebUpdate) → Except String u.Result × Site
  | .createPushEvent repoId eventKey refs =>
    s.write () (s.db.createPushEvent o.uuid o.now repoId eventKey refs)
  | .createRunner name baseUrl =>
    s.write (toString o.uuid) (s.db.createRunner (toString o.uuid) name baseUrl)
  | .setRunnerEnabled runnerId enabled => s.write () (.ok (s.db.setRunnerEnabled runnerId enabled))
  | .updateRunner runnerId name baseUrl => s.write () (s.db.updateRunner runnerId name baseUrl)
  | .updateRunnerHealth runnerId state asked =>
    ({ s with catalogs := s.catalogs.refresh runnerId asked (state ≠ "unreachable") }).write ()
      (.ok (s.db.updateRunnerHealth runnerId state))
  | .replaceRunnerJobs runnerId jobs asked =>
    match s.db.replaceRunnerJobs runnerId jobs with
    | .ok db => (.ok (), { s.setDb db with catalogs := s.catalogs.fetch runnerId asked })
    | .error e => (.error e, s)
  | .createWorkflow repoId name enabled triggerJson definitionJson jobSchemas =>
    s.write o.uuid (s.db.createWorkflow o.uuid o.versionId repoId name enabled triggerJson
      definitionJson jobSchemas)
  | .updateWorkflow workflowId name enabled triggerJson definitionJson jobSchemas =>
    s.write o.versionId (s.db.updateWorkflow o.versionId workflowId name enabled triggerJson
      definitionJson jobSchemas)
  | .createAuditEvent action targetType targetId =>
    (.ok (), { s with auditEvents := ⟨action, targetType, targetId⟩ :: s.auditEvents })

def SiteOutcome.refusal (o : SiteOutcome) : Option String :=
  match o.fault with
  | .none => none
  | .refused e => some e
  | .partway e => some e

def SiteCall.exec (app : AppState) (o : SiteOutcome) (s : Site) :
    (c : SiteCall) → Except String c.Result × Site
  | .server c =>
    let answer := c.exec app o.toOutcome s.toStore
    (answer.1, { s with toStore := answer.2, unsettled := unsettledAfter s.unsettled c answer.1 })
  | .query q => match o.refusal with
    | some e => (.error e, s)
    | none => (.ok (q.eval s.db), s)
  | .update u => match o.refusal with
    | some e => (.error e, s)
    | none => u.perform o s
  | .catalog runner request refresh =>
    let answer := request.receive app.limits o.reply
    (answer, { s with catalogs := s.catalogs.ask runner refresh answer })

abbrev WebTask := Program SiteCall SiteCall.Result String

def call (c : SiteCall) : WebTask c.Result := .request c

def onServer {α : Type} : Server.Task α → WebTask α
  | .done r => .done r
  | .call c next => .call (.server c) fun x => onServer (next x)

namespace Db

def getRepo (repoId : Id) : WebTask (Option Repo) := call (.server (.query (.getRepo repoId)))

def getRunner (runnerId : String) : WebTask (Option Runner) :=
  call (.server (.query (.getRunner runnerId)))

def getWorkflow (workflowId : Id) : WebTask (Option Workflow) :=
  call (.query (.getWorkflow workflowId))

def getWorkflowByVersionId (workflowVersionId : Id) : WebTask (Option Workflow) :=
  call (.query (.getWorkflowByVersionId workflowVersionId))

def getPipelineRun (pipelineId : Id) : WebTask (Option PipelineRun) :=
  call (.query (.getPipelineRun pipelineId))

def listRunners : WebTask (List Runner) := call (.query .listRunners)

def workflowRunArtifactSelections (pipelineRunId : Id) :
    WebTask (List WorkflowRunArtifactSelection) :=
  call (.query (.workflowRunArtifactSelections pipelineRunId))

def listRecentPromotableArtifacts (repoId : Id) (sourceRunnerId sourceJobName outputName : String)
    (limit : ℕ) : WebTask (List PromotableArtifact) :=
  call (.query
    (.listRecentPromotableArtifacts repoId sourceRunnerId sourceJobName outputName limit))

def createPushEvent (repoId : Id) (eventKey : String) (refs : List PushEventRef) : WebTask Unit :=
  call (.update (.createPushEvent repoId eventKey refs))

def createRunner (name baseUrl : String) : WebTask String :=
  call (.update (.createRunner name baseUrl))

def setRunnerEnabled (runnerId : String) (enabled : Bool) : WebTask Unit :=
  call (.update (.setRunnerEnabled runnerId enabled))

def updateRunner (runnerId name baseUrl : String) : WebTask Unit :=
  call (.update (.updateRunner runnerId name baseUrl))

def updateRunnerHealth (runnerId state asked : String) : WebTask Unit :=
  call (.update (.updateRunnerHealth runnerId state asked))

def replaceRunnerJobs (runnerId : String) (jobs : List RunnerJobDefinition) (asked : String) :
    WebTask Unit :=
  call (.update (.replaceRunnerJobs runnerId jobs asked))

def createWorkflow (repoId : Id) (name : String) (enabled : Bool)
    (triggerJson : Except String WorkflowTrigger) (definitionJson : Except String WorkflowDefinition)
    (jobSchemas : List RunnerJobDefinition) : WebTask Id :=
  call (.update (.createWorkflow repoId name enabled triggerJson definitionJson jobSchemas))

def updateWorkflow (workflowId : Id) (name : String) (enabled : Bool)
    (triggerJson : Except String WorkflowTrigger) (definitionJson : Except String WorkflowDefinition)
    (jobSchemas : List RunnerJobDefinition) : WebTask Id :=
  call (.update (.updateWorkflow workflowId name enabled triggerJson definitionJson jobSchemas))

def createAuditEvent (action targetType : String) (targetId : Option String) : WebTask Unit :=
  call (.update (.createAuditEvent action targetType targetId))

end Db

namespace RunnerClient

def capabilities (runner : Runner) (refresh : Refresh) : WebTask RunnerCapabilitiesResponse :=
  call (.catalog runner .capabilities refresh)

def listJobs (runner : Runner) (refresh : Refresh) : WebTask (List RunnerJobDefinition) :=
  call (.catalog runner .listJobs refresh)

end RunnerClient

end Janus.Web
