import Janus.Concurrency.Eval
import Janus.Server.Database

/-! The tables in which the schemas of jobs are stored: the catalogs of the runners, and the snapshots
that the versions of a workflow take of them. -/

namespace Janus.Server

open Janus.Concurrency Janus.Data

def asColumn (value : ℕ) : ℤ := Int.bmod value (2 ^ 64)

def ofColumn (value : ℤ) : ℕ := (value % 2 ^ 64).toNat

def boolColumn (value : Bool) : ℤ := if value then 1 else 0

def Concurrency.asStr : Concurrency → String
  | .parallel => "parallel"
  | .jobExclusive => "job_exclusive"
  | .globalExclusive => "global_exclusive"

def Concurrency.parse : String → Option Concurrency
  | "parallel" => some .parallel
  | "job_exclusive" => some .jobExclusive
  | "global_exclusive" => some .globalExclusive
  | _ => none

def InputType.parse : String → Option InputType
  | "string" => some .string
  | "integer" => some .integer
  | "boolean" => some .boolean
  | "artifact" => some .artifact
  | "json" => some .json
  | _ => none

def OutputType.parse : String → Option OutputType
  | "artifact" => some .artifact
  | "string" => some .string
  | "integer" => some .integer
  | "boolean" => some .boolean
  | "json" => some .json
  | _ => none

structure InputRow where
  id : String
  jobId : String
  inputName : String
  inputType : String
  required : ℤ
  sensitive : ℤ
  maxLength : Option ℤ
  pattern : Option String
  maxJsonBytes : Option ℤ

structure OutputRow where
  id : String
  jobId : String
  outputName : String
  outputType : String
  required : ℤ
  outputPath : String

structure DetailTables where
  inputs : List InputRow := []
  outputs : List OutputRow := []

structure RunnerJobRow where
  id : String
  runnerId : String
  jobName : String
  concurrency : String
  timeoutSeconds : ℤ

structure JobSchemaRow where
  id : String
  workflowVersionId : String
  jobIndex : ℤ
  jobName : String
  concurrency : String
  timeoutSeconds : ℤ

structure StoredWorkflow where
  id : String
  repoId : String
  name : String
  enabled : ℤ

structure StoredVersion where
  id : String
  workflowId : String
  version : ℤ
  triggerJson : String
  definitionJson : String

structure SchemaTables where
  repos : List String := []
  runners : List String := []
  runnerJobs : List RunnerJobRow := []
  /-- `runner_job_inputs` and `runner_job_outputs`. -/
  runnerJobDetails : DetailTables := {}
  workflows : List StoredWorkflow := []
  workflowVersions : List StoredVersion := []
  jobSchemas : List JobSchemaRow := []
  /-- `workflow_version_job_schema_inputs` and `workflow_version_job_schema_outputs`. -/
  jobSchemaDetails : DetailTables := {}

def insertRow {α : Type} (clashes : List (String × (α → Bool))) (referred : Bool) (row : α)
    (rows : List α) : Except String (List α) :=
  match clashes.find? fun clash => rows.any clash.2 with
  | some clash => .error (uniqueFailed clash.1)
  | none => if referred then .ok (rows ++ [row]) else .error foreignKeyFailed

inductive Owner
  | runnerJob | jobSchema
  deriving DecidableEq

def Owner.inputs : Owner → String
  | .runnerJob => "runner_job_inputs"
  | .jobSchema => "workflow_version_job_schema_inputs"

def Owner.outputs : Owner → String
  | .runnerJob => "runner_job_outputs"
  | .jobSchema => "workflow_version_job_schema_outputs"

def Owner.column : Owner → String
  | .runnerJob => "runner_job_id"
  | .jobSchema => "workflow_version_job_schema_id"

namespace DetailTables

variable (owner : Owner) (jobIds : List String) (t : DetailTables)

def insertInput (row : InputRow) : Except String DetailTables :=
  (insertRow [(owner.inputs ++ ".id", fun other => other.id = row.id),
      (owner.inputs ++ "." ++ owner.column ++ ", " ++ owner.inputs ++ ".input_name",
        fun other => other.jobId = row.jobId && other.inputName = row.inputName)]
    (row.jobId ∈ jobIds) row t.inputs).map fun inputs => { t with inputs }

def insertOutput (row : OutputRow) : Except String DetailTables :=
  (insertRow [(owner.outputs ++ ".id", fun other => other.id = row.id),
      (owner.outputs ++ "." ++ owner.column ++ ", " ++ owner.outputs ++ ".output_name",
        fun other => other.jobId = row.jobId && other.outputName = row.outputName)]
    (row.jobId ∈ jobIds) row t.outputs).map fun outputs => { t with outputs }

def keep : DetailTables where
  inputs := t.inputs.filter fun row => row.jobId ∈ jobIds
  outputs := t.outputs.filter fun row => row.jobId ∈ jobIds

end DetailTables

inductive Statement
  | deleteRunnerJobs (runnerId : String)
  | insertRunnerJob (row : RunnerJobRow)
  | insertWorkflow (row : StoredWorkflow)
  | updateWorkflow (workflowId name : String) (enabled : ℤ)
  | insertWorkflowVersion (row : StoredVersion)
  | insertJobSchema (row : JobSchemaRow)
  | insertInput (owner : Owner) (row : InputRow)
  | insertOutput (owner : Owner) (row : OutputRow)

namespace SchemaTables

variable (t : SchemaTables)

def ownerIds : Owner → List String
  | .runnerJob => t.runnerJobs.map RunnerJobRow.id
  | .jobSchema => t.jobSchemas.map JobSchemaRow.id

def details : Owner → DetailTables
  | .runnerJob => t.runnerJobDetails
  | .jobSchema => t.jobSchemaDetails

def setDetails (details : DetailTables) : Owner → SchemaTables
  | .runnerJob => { t with runnerJobDetails := details }
  | .jobSchema => { t with jobSchemaDetails := details }

def deleteRunnerJobs (runnerId : String) : SchemaTables :=
  let runnerJobs := t.runnerJobs.filter fun row => row.runnerId ≠ runnerId
  { t with runnerJobs, runnerJobDetails := t.runnerJobDetails.keep (runnerJobs.map RunnerJobRow.id) }

def run : Statement → Except String SchemaTables
  | .deleteRunnerJobs runnerId => .ok (t.deleteRunnerJobs runnerId)
  | .insertRunnerJob row =>
    (insertRow [("runner_jobs.id", fun other => other.id = row.id),
        ("runner_jobs.runner_id, runner_jobs.job_name",
          fun other => other.runnerId = row.runnerId && other.jobName = row.jobName)]
      (row.runnerId ∈ t.runners) row t.runnerJobs).map fun runnerJobs => { t with runnerJobs }
  | .insertWorkflow row =>
    (insertRow [("workflows.id", fun other => other.id = row.id)] (row.repoId ∈ t.repos) row
      t.workflows).map fun workflows => { t with workflows }
  | .updateWorkflow workflowId name enabled =>
    .ok { t with workflows := t.workflows.map fun row =>
            if row.id = workflowId then { row with name, enabled } else row }
  | .insertWorkflowVersion row =>
    (insertRow [("workflow_versions.id", fun other => other.id = row.id),
        ("workflow_versions.workflow_id, workflow_versions.version",
          fun other => other.workflowId = row.workflowId && other.version = row.version)]
      (row.workflowId ∈ t.workflows.map StoredWorkflow.id) row t.workflowVersions).map
        fun workflowVersions => { t with workflowVersions }
  | .insertJobSchema row =>
    (insertRow [("workflow_version_job_schemas.id", fun other => other.id = row.id),
        ("workflow_version_job_schemas.workflow_version_id, workflow_version_job_schemas.job_index",
          fun other => other.workflowVersionId = row.workflowVersionId &&
            other.jobIndex = row.jobIndex)]
      (row.workflowVersionId ∈ t.workflowVersions.map StoredVersion.id) row t.jobSchemas).map
        fun jobSchemas => { t with jobSchemas }
  | .insertInput owner row =>
    ((t.details owner).insertInput owner (t.ownerIds owner) row).map (t.setDetails · owner)
  | .insertOutput owner row =>
    ((t.details owner).insertOutput owner (t.ownerIds owner) row).map (t.setDetails · owner)

/-- `SELECT COALESCE(MAX(version), 0) + 1`. -/
def nextVersion (workflowId : String) : ℤ :=
  ((t.workflowVersions.filter (·.workflowId = workflowId)).map StoredVersion.version).max?.getD 0 + 1

end SchemaTables

structure Connection where
  tables : SchemaTables
  savepoint : Option SchemaTables := none
  issued : ℕ := 0
  executed : ℕ := 0

inductive SqlCall
  | begin
  | commit
  | rollback
  | newUuid
  | nextVersion (workflowId : String)
  | execute (statement : Statement)

def SqlCall.Result : SqlCall → Type
  | .newUuid => String
  | .nextVersion _ => ℤ
  | _ => Unit

/-- What the connection is embedded in: the ids that are made, and the statements that fail for
reasons of their own. -/
structure SqlEnv where
  newUuid : ℕ → String
  fails : ℕ → Option String

section

variable (env : SqlEnv)

def Connection.guard {α : Type} (conn : Connection) (run : Except String α) : Except String α :=
  match env.fails conn.executed with
  | some source => .error source
  | none => run

def SqlCall.exec : (c : SqlCall) → Connection → Except String c.Result × Connection
  | .begin, conn =>
    match conn.guard env (.ok ()) with
    | .error source => (.error source, { conn with executed := conn.executed + 1 })
    | .ok _ => (.ok (), { conn with
        savepoint := some conn.tables, executed := conn.executed + 1 })
  | .commit, conn =>
    match conn.guard env (.ok ()) with
    | .error source => (.error source, { conn with executed := conn.executed + 1 })
    | .ok _ => (.ok (), { conn with savepoint := none, executed := conn.executed + 1 })
  | .rollback, conn =>
    (.ok (), { conn with tables := conn.savepoint.getD conn.tables, savepoint := none })
  | .newUuid, conn => (.ok (env.newUuid conn.issued), { conn with issued := conn.issued + 1 })
  | .nextVersion workflowId, conn =>
    (conn.guard env (.ok (conn.tables.nextVersion workflowId)),
      { conn with executed := conn.executed + 1 })
  | .execute statement, conn =>
    match conn.guard env (conn.tables.run statement) with
    | .error source => (.error source, { conn with executed := conn.executed + 1 })
    | .ok tables => (.ok (), { conn with tables, executed := conn.executed + 1 })

end

abbrev Sql := Program SqlCall SqlCall.Result String

def sql (c : SqlCall) : Sql c.Result := Program.request c

def execute (statement : Statement) : Sql Unit := sql (.execute statement)

def newUuid : Sql String := sql .newUuid

def committed {α : Type} (body : Sql α) : Sql α := do
  let a ← body
  let _ ← (sql .commit : Sql Unit)
  pure a

def settle {α : Type} : Except String α → Sql α
  | .ok a => pure a
  | .error error => do
    let _ ← (sql .rollback : Sql Unit)
    Program.fail error

def transaction {α : Type} (body : Sql α) : Sql α := do
  let _ ← (sql .begin : Sql Unit)
  let result ← (committed body).attempt
  settle result

def inputRow (id jobId inputName : String) (input : JobInputDefinition) : InputRow where
  id := id
  jobId := jobId
  inputName := inputName
  inputType := input.kind.asStr
  required := boolColumn input.required
  sensitive := boolColumn input.sensitive
  maxLength := input.maxLength.map asColumn
  pattern := input.pattern
  maxJsonBytes := input.maxJsonBytes.map asColumn

def outputRow (id jobId outputName : String) (output : JobOutputDefinition) : OutputRow where
  id := id
  jobId := jobId
  outputName := outputName
  outputType := output.kind.asStr
  required := boolColumn output.required
  outputPath := output.path

def insertNew (statement : String → Statement) : Sql Unit := do
  let id ← newUuid
  execute (statement id)

def insertDetails (owner : Owner) (jobId : String) (schema : RunnerJobDefinition) : Sql Unit := do
  schema.inputs.entries.forM fun input =>
    insertNew fun id => .insertInput owner (inputRow id jobId input.1 input.2)
  schema.outputs.entries.forM fun output =>
    insertNew fun id => .insertOutput owner (outputRow id jobId output.1 output.2)

def insertRunnerJobDefinition (runnerJobId : String) (schema : RunnerJobDefinition) : Sql Unit :=
  insertDetails .runnerJob runnerJobId schema

def replaceRunnerJobs (runnerId : String) (jobs : List RunnerJobDefinition) : Sql Unit :=
  transaction do
    execute (.deleteRunnerJobs runnerId)
    jobs.forM fun job => do
      let runnerJobId ← newUuid
      execute (.insertRunnerJob ⟨runnerJobId, runnerId, job.name, job.concurrency.asStr,
        asColumn job.timeoutSeconds⟩)
      insertRunnerJobDefinition runnerJobId job

def insertWorkflowVersionJobSchemas (workflowVersionId : String) (schemas : List RunnerJobDefinition) :
    Sql Unit :=
  schemas.zipIdx.forM fun schema => do
    let schemaId ← newUuid
    execute (.insertJobSchema ⟨schemaId, workflowVersionId, asColumn schema.2, schema.1.name,
      schema.1.concurrency.asStr, asColumn schema.1.timeoutSeconds⟩)
    insertDetails .jobSchema schemaId schema.1

def createWorkflow (repoId name : String) (enabled : Bool) (triggerJson definitionJson : String)
    (jobSchemas : List RunnerJobDefinition) : Sql String := do
  let workflowId ← newUuid
  let versionId ← newUuid
  transaction do
    execute (.insertWorkflow ⟨workflowId, repoId, name, boolColumn enabled⟩)
    execute (.insertWorkflowVersion ⟨versionId, workflowId, 1, triggerJson, definitionJson⟩)
    insertWorkflowVersionJobSchemas versionId jobSchemas
    pure workflowId

def updateWorkflow (workflowId name : String) (enabled : Bool) (triggerJson definitionJson : String)
    (jobSchemas : List RunnerJobDefinition) : Sql String :=
  transaction do
    let nextVersion ← (sql (.nextVersion workflowId) : Sql ℤ)
    let versionId ← newUuid
    execute (.updateWorkflow workflowId name (boolColumn enabled))
    execute (.insertWorkflowVersion ⟨versionId, workflowId, nextVersion, triggerJson, definitionJson⟩)
    insertWorkflowVersionJobSchemas versionId jobSchemas
    pure versionId

def parseColumn {α : Type} (invalid : String) (parse : String → Option α) (value : String) :
    Except String α :=
  match parse value with
  | some a => .ok a
  | none => .error (invalid ++ " " ++ value)

def parseRunnerInputType : String → Except String InputType :=
  parseColumn "invalid runner input type" InputType.parse

def parseRunnerOutputType : String → Except String OutputType :=
  parseColumn "invalid runner output type" OutputType.parse

def parseRunnerConcurrency : String → Except String Concurrency :=
  parseColumn "invalid runner concurrency" Concurrency.parse

def loadInput (row : InputRow) : Except String (String × JobInputDefinition) := do
  let kind ← parseRunnerInputType row.inputType
  .ok (row.inputName, ⟨kind, row.required != 0, row.sensitive != 0, row.maxLength.map ofColumn,
    row.pattern, row.maxJsonBytes.map ofColumn⟩)

def loadOutput (row : OutputRow) : Except String (String × JobOutputDefinition) := do
  let kind ← parseRunnerOutputType row.outputType
  .ok (row.outputName, ⟨kind, row.outputPath, row.required != 0⟩)

def collectResults {α β : Type} (f : α → Except String β) : List α → Except String (List β)
  | [] => .ok []
  | a :: as => do
    let b ← f a
    let bs ← collectResults f as
    .ok (b :: bs)

def loadDefinition (details : DetailTables) (jobId jobName concurrency : String)
    (timeoutSeconds : ℤ) : Except String RunnerJobDefinition := do
  let inputs ← collectResults loadInput
    (Database.orderBy InputRow.inputName (details.inputs.filter fun row => row.jobId = jobId))
  let outputs ← collectResults loadOutput
    (Database.orderBy OutputRow.outputName (details.outputs.filter fun row => row.jobId = jobId))
  let concurrency ← parseRunnerConcurrency concurrency
  .ok ⟨jobName, concurrency, ofColumn timeoutSeconds, .ofList inputs, .ofList outputs⟩

namespace SchemaTables

variable (t : SchemaTables)

def loadRunnerJobDefinition (row : RunnerJobRow) : Except String RunnerJobDefinition :=
  loadDefinition t.runnerJobDetails row.id row.jobName row.concurrency row.timeoutSeconds

def listRunnerJobs (runnerId : String) : Except String (List RunnerJobDefinition) :=
  collectResults t.loadRunnerJobDefinition
    (Database.orderBy RunnerJobRow.jobName (t.runnerJobs.filter fun row => row.runnerId = runnerId))

def loadWorkflowVersionJobSchema (row : JobSchemaRow) : Except String RunnerJobDefinition :=
  loadDefinition t.jobSchemaDetails row.id row.jobName row.concurrency row.timeoutSeconds

def workflowJobSchemas (workflowVersionId : String) : Except String (List RunnerJobDefinition) :=
  collectResults t.loadWorkflowVersionJobSchema
    (Database.orderBy JobSchemaRow.jobIndex
      (t.jobSchemas.filter fun row => row.workflowVersionId = workflowVersionId))

/-- The version that `get_workflow` finds. -/
def currentVersion (workflowId : String) : Option String :=
  let versions := t.workflowVersions.filter fun row => row.workflowId = workflowId
  (versions.find? fun row => versions.all (·.version ≤ row.version)).map StoredVersion.id

end SchemaTables

end Janus.Server
