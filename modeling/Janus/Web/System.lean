import Janus.Server.System
import Janus.Web.Routes

/-! The server with its routes: requests and refreshes run beside the scheduler and beside each
other. -/

namespace Janus.Web

open Janus.Concurrency Janus.Data Janus.Server

inductive SiteRole
  | server (r : Role)
  | refreshRunnerHealth
  | postReceive (repoId : Id) (refsRaw : String)
  | triggerRepo (sender : Sender) (repoId : Id) (branch commit : Option String)
  | createRunner (sender : Sender) (name baseUrl : String)
  | toggleRunner (sender : Sender) (runnerId : String)
  | updateRunner (sender : Sender) (runnerId name baseUrl : String)
  | testRunner (sender : Sender) (runnerId : String)
  | createWorkflow (sender : Sender) (repoId : Id) (parsed : Except String ParsedWorkflow)
  | updateWorkflow (sender : Sender) (workflowId repoId : Id)
      (parsed : Except String ParsedWorkflow)
  | runWorkflow (number : ℕ) (sender : Sender) (workflowId : Id) (branch commit : Option String)
      (artifactSelections : BTreeMap String)
  | rerunPipeline (number : ℕ) (sender : Sender) (pipelineId : Id)

def SiteRole.program (app : WebState) : SiteRole → WebTask Unit
  | .server r => onServer (r.program app.toAppState)
  | .refreshRunnerHealth => Web.refreshRunnerHealth
  | .postReceive repoId refsRaw => Web.postReceive app repoId refsRaw
  | .triggerRepo sender repoId branch commit => Web.triggerRepo app sender repoId branch commit
  | .createRunner sender name baseUrl => Web.createRunner app sender name baseUrl
  | .toggleRunner sender runnerId => Web.toggleRunner app sender runnerId
  | .updateRunner sender runnerId name baseUrl => Web.updateRunner app sender runnerId name baseUrl
  | .testRunner sender runnerId => Web.testRunner app sender runnerId
  | .createWorkflow sender repoId parsed => Web.createWorkflow app sender repoId parsed
  | .updateWorkflow sender workflowId repoId parsed =>
    Web.updateWorkflow app sender workflowId repoId parsed
  | .runWorkflow number sender workflowId branch commit artifactSelections =>
    Web.runWorkflow app number sender workflowId branch commit artifactSelections
  | .rerunPipeline number sender pipelineId => Web.rerunPipeline app number sender pipelineId

def SiteRole.beside : SiteRole → SiteRole → Bool
  | .server r, .server r' => r.beside r'
  | .refreshRunnerHealth, .refreshRunnerHealth => false
  | _, _ => true

def site (app : WebState) :
    System SiteRole SiteCall SiteCall.Result String Site SiteOutcome RunnerEvent where
  program := SiteRole.program app
  beside := SiteRole.beside
  exec c o s := c.exec app.toAppState o s
  environ
    | .runEnds runId, s => { s with history := s.history.ends runId }

abbrev SitePool := Pool SiteRole SiteCall SiteCall.Result String Site

abbrev SiteEvent := Event SiteRole SiteOutcome RunnerEvent

def sampleSite : WebState where
  toAppState := sampleApp
  csrfToken _ := ""
  validateBaseUrl _ := .ok ()

def sampleSender : Sender := ⟨⟨1, true⟩, ""⟩

def sampleSitePool (db : Database) : SitePool := ⟨{ db, files := [], archives := [], history := {} }, []⟩

end Janus.Web
