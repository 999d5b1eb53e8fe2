import Janus.Concurrency.Tracing
import Janus.Server.Scheduler

/-! The server as a system of tasks: the scheduler's passes follow one another, and the requests of
users run beside them. -/

namespace Janus.Server

open Janus.Concurrency Janus.Data

inductive Role
  | recovery
  | pushEvents
  | dispatch
  | poll
  | reconcile
  | cancel (pipelineId : Id)
  | enqueue (number : ℕ) (workflow : Workflow) (triggerType : String)
      (triggerRef commitSha : Option String)
      (artifactSelections : List WorkflowRunArtifactSelection)

def Role.scheduler : Role → Bool
  | .cancel _ => false
  | .enqueue _ _ _ _ _ _ => false
  | _ => true

def Role.beside : Role → Role → Bool
  | .enqueue number _ _ _ _ _, .enqueue number' _ _ _ _ _ => number ≠ number'
  | r, r' => !(r.scheduler && r'.scheduler)

lemma not_scheduler_beside {r r' : Role} (h : r.beside r' = true ∨ r'.beside r = true)
    (hr' : r'.scheduler = true) : r.scheduler = false := by
  cases r <;> cases r' <;> simp_all [Role.beside, Role.scheduler]

inductive RunnerEvent
  | runEnds (runId : String)

def Role.program (app : AppState) : Role → Task Unit
  | .recovery => recoverIncompletePipelines
  | .pushEvents => processPushEvents app
  | .dispatch => dispatchPendingJobs app
  | .poll => pollRunningJobs app
  | .reconcile => reconcileOnce app
  | .cancel pipelineId => cancelPipeline pipelineId
  | .enqueue number workflow triggerType triggerRef commitSha artifactSelections => do
    let _ ← enqueueWorkflowRunWithArtifacts workflow triggerType triggerRef commitSha
      artifactSelections (.request number)

def server (app : AppState) : System Role Call Call.Result String Store Outcome RunnerEvent where
  program := Role.program app
  beside := Role.beside
  exec c o s := c.exec app o s
  environ
    | .runEnds runId, s => { s with history := s.history.ends runId }

abbrev ServerPool := Pool Role Call Call.Result String Store

abbrev ServerTrace := Trace Call Call.Result String

abbrev ServerEvent := Event Role Outcome RunnerEvent

def Call.sends : Call → Option Id
  | .runner _ (.createJobRun jobRunId _ _ _) => some jobRunId
  | _ => none

def Call.examines : Call → Option Id
  | .query (.previousJobsForJobRun jobRunId) => some jobRunId
  | _ => none

def ServerPool.sends (p : ServerPool) (e : ServerEvent) : Option Id := (p.call? e).bind Call.sends

def ServerPool.examines (p : ServerPool) (e : ServerEvent) : Option Id :=
  (p.call? e).bind Call.examines

def ServerEvent.outcome : ServerEvent → Outcome
  | .step _ o => o
  | _ => {}

def sampleApp : AppState where
  scheduler := { maxInfraRetries := 1, maxCancelRetries := 1, cancelStuckTimeoutSeconds := 60 }
  limits := { runnerJsonBytes := 1000, runnerLogsBytes := 1000, runnerArtifactBytes := 1000,
              runnerErrorBytes := 1000 }
  serverArtifactBytes := 1000
  sha256Hex _ := ""
  patternMatches pattern text := pattern = text

def sampleSchema : RunnerJobDefinition where
  name := "build"
  concurrency := .parallel
  timeoutSeconds := 60
  inputs := .empty
  outputs := .empty

def sampleWorkflow (n : ℕ) : WorkflowDefinition :=
  ⟨List.replicate n { runnerId := "runner", runnerJobName := "build" }⟩

def sampleJob (id jobIndex : ℕ) : JobRun :=
  Database.newJobRun id id 1 jobIndex "runner" "build" .required

def sampleDatabase (n : ℕ) (pipelineRuns : Table PipelineRun.id) (jobRuns : Table JobRun.id)
    (edges : Table (id : PreviousJob → PreviousJob)) : Database where
  repos := .single { id := 1, barePath := "repo.git" }
  runners := .single { id := "runner" }
  runnerJobs := [("runner", sampleSchema)]
  workflows := .single ⟨1, 1, "ci", true⟩
  workflowVersions :=
    .single ⟨1, 1, 1, .ok ⟨"push", []⟩, .ok (sampleWorkflow n), List.replicate n sampleSchema⟩
  pushEvents := .empty
  pipelineRuns := pipelineRuns
  jobRuns := jobRuns
  jobRunPrevious := edges
  jobRunLogs := ⟨jobRuns.rows.map fun job => ⟨job.id, "", ""⟩, by
    rw [List.map_map]
    exact jobRuns.unique⟩
  jobRunArtifacts := []
  jobRunInputPayloads := []
  workflowRunArtifactInputs := .empty
  serverArtifacts := .empty

def samplePipeline : PipelineRun := Database.newPipelineRun 1 0 1 1 1 "manual" none none (.request 0)

def samplePool (db : Database) : ServerPool := ⟨⟨db, [], [], {}⟩, []⟩

def noPipelines : ServerPool := samplePool (sampleDatabase 2 .empty .empty .empty)

def sampleEnqueue (n : ℕ) : Role :=
  .enqueue 0 ⟨1, 1, "ci", true, 1, .ok ⟨"push", []⟩, .ok (sampleWorkflow n)⟩ "manual" none none []

def replied (status : ℕ) (payload : Payload) : Outcome where
  reply := .ok ⟨status, none, .ok { payload }⟩

def dispatched (runId : String) : List ServerEvent :=
  .start .dispatch :: (List.replicate 7 (.step 0 {}) ++
    [.step 0 (replied 201 (.created ⟨runId, 0⟩)), .step 0 {}, .finish 0])

def oneJob : ServerPool :=
  samplePool (sampleDatabase 1 (.single samplePipeline) (.single (sampleJob 10 0)) .empty)

def threeJobs : ServerPool :=
  samplePool (sampleDatabase 3 (.single samplePipeline)
    ⟨[sampleJob 10 0, sampleJob 11 1, sampleJob 12 2], by decide⟩ ⟨[⟨11, 10⟩, ⟨12, 11⟩], by decide⟩)

end Janus.Server
