import Janus.Server.Calls

/-! How a workflow's saved schema snapshot compares with what its runners advertise. -/

namespace Janus.Server

inductive WorkflowSchemaStatus
  | current | stale | incompatible
  deriving DecidableEq

inductive WorkflowSchemaDiffKind
  | jobRemoved
  | inputAdded | inputRemoved
  | outputAdded | outputRemoved
  | inputTypeChanged | outputTypeChanged
  | inputRequirednessChanged | outputRequirednessChanged
  deriving DecidableEq

structure WorkflowSchemaDiff where
  kind : WorkflowSchemaDiffKind
  jobIndex : ℕ
  jobName : String
  fieldName : Option String
  saved : Option String
  current : Option String
  incompatible : Bool
  message : String
  deriving DecidableEq

structure WorkflowSchemaReport where
  status : WorkflowSchemaStatus
  diff : List WorkflowSchemaDiff

def WorkflowSchemaDiff.isStale (diff : WorkflowSchemaDiff) : Bool :=
  !diff.incompatible && !(diff.kind = .inputAdded || diff.kind = .outputAdded)

def requiredness (required : Bool) : String := if required then "required" else "optional"

def workflowBoundInputs (definition : WorkflowDefinition) (jobIndex : ℕ) : List String :=
  match definition.jobs[jobIndex]? with
  | some job => job.inputs.keys
  | none => []

def workflowReferencedOutputs (definition : WorkflowDefinition) (upstreamJobIndex : ℕ) :
    List String :=
  (definition.jobs.flatMap fun job => job.inputs.values).filterMap fun
    | .jobOutput jobIndex outputName =>
      if jobIndex = upstreamJobIndex then some outputName else none
    | _ => none

section

variable (jobIndex : ℕ) (jobName : String) (savedSchema currentSchema : RunnerJobDefinition)

def jobRemoved (saved message : String) : WorkflowSchemaDiff :=
  { kind := .jobRemoved, jobIndex, jobName, fieldName := none, saved := some saved, current := none,
    incompatible := true, message }

def addedInput (name : String) (current : JobInputDefinition) : List WorkflowSchemaDiff :=
  if savedSchema.inputs.containsKey name then []
  else
    [{ kind := .inputAdded, jobIndex, jobName, fieldName := some name, saved := none,
       current := some (requiredness current.required), incompatible := current.required,
       message :=
         if current.required then s!"job-{jobIndex + 1} input {name} was added and is required"
         else s!"job-{jobIndex + 1} input {name} was added and is optional" }]

def changedInput (boundInputs : List String) (name : String) (saved : JobInputDefinition) :
    List WorkflowSchemaDiff :=
  let incompatible := saved.required || boundInputs.contains name
  match currentSchema.inputs.get name with
  | none =>
    [{ kind := .inputRemoved, jobIndex, jobName, fieldName := some name,
       saved := some saved.kind.asStr, current := none, incompatible,
       message := s!"job-{jobIndex + 1} input {name} was removed" }]
  | some current =>
    (if saved.kind = current.kind then []
     else
      [{ kind := .inputTypeChanged, jobIndex, jobName, fieldName := some name,
         saved := some saved.kind.asStr, current := some current.kind.asStr, incompatible,
         message := s!"job-{jobIndex + 1} input {name} changed type from " ++ saved.kind.asStr ++
           " to " ++ current.kind.asStr }]) ++
    (if saved.required = current.required then []
     else
      [{ kind := .inputRequirednessChanged, jobIndex, jobName, fieldName := some name,
         saved := some (requiredness saved.required),
         current := some (requiredness current.required),
         incompatible := current.required && !saved.required,
         message := s!"job-{jobIndex + 1} input {name} changed requiredness from " ++
           requiredness saved.required ++ " to " ++ requiredness current.required }])

def addedOutput (name : String) (current : JobOutputDefinition) : List WorkflowSchemaDiff :=
  if savedSchema.outputs.containsKey name then []
  else
    [{ kind := .outputAdded, jobIndex, jobName, fieldName := some name, saved := none,
       current := some (current.kind.asStr ++ " " ++ requiredness current.required),
       incompatible := false, message := s!"job-{jobIndex + 1} output {name} was added" }]

def changedOutput (referencedOutputs : List String) (name : String) (saved : JobOutputDefinition) :
    List WorkflowSchemaDiff :=
  let incompatible := saved.required || referencedOutputs.contains name
  match currentSchema.outputs.get name with
  | none =>
    [{ kind := .outputRemoved, jobIndex, jobName, fieldName := some name,
       saved := some saved.kind.asStr, current := none, incompatible,
       message := s!"job-{jobIndex + 1} output {name} was removed" }]
  | some current =>
    (if saved.kind = current.kind then []
     else
      [{ kind := .outputTypeChanged, jobIndex, jobName, fieldName := some name,
         saved := some saved.kind.asStr, current := some current.kind.asStr, incompatible,
         message := s!"job-{jobIndex + 1} output {name} changed type from " ++ saved.kind.asStr ++
           " to " ++ current.kind.asStr }]) ++
    (if saved.required = current.required then []
     else
      [{ kind := .outputRequirednessChanged, jobIndex, jobName, fieldName := some name,
         saved := some (requiredness saved.required),
         current := some (requiredness current.required),
         incompatible := saved.required && !current.required,
         message := s!"job-{jobIndex + 1} output {name} changed requiredness from " ++
           requiredness saved.required ++ " to " ++ requiredness current.required }])

def diffJobSchema (boundInputs referencedOutputs : List String) : List WorkflowSchemaDiff :=
  (currentSchema.inputs.entries.flatMap fun (name, current) =>
    addedInput jobIndex jobName savedSchema name current) ++
  (savedSchema.inputs.entries.flatMap fun (name, saved) =>
    changedInput jobIndex jobName currentSchema boundInputs name saved) ++
  (currentSchema.outputs.entries.flatMap fun (name, current) =>
    addedOutput jobIndex jobName savedSchema name current) ++
  (savedSchema.outputs.entries.flatMap fun (name, saved) =>
    changedOutput jobIndex jobName currentSchema referencedOutputs name saved)

end

def jobSchemaDiff (definition : WorkflowDefinition) (snapshot : List RunnerJobDefinition)
    (job : WorkflowJobDefinition) (jobIndex : ℕ) : Task (List WorkflowSchemaDiff) :=
  match snapshot[jobIndex]? with
  | none => pure [jobRemoved jobIndex job.runnerJobName job.runnerJobName
      s!"job-{jobIndex + 1} {job.runnerJobName} is missing from the saved schema snapshot"]
  | some savedSchema => do
    let advertised ← Db.listRunnerJobs job.runnerId
    match advertised.find? fun schema => schema.name = job.runnerJobName with
    | none => pure [jobRemoved jobIndex job.runnerJobName savedSchema.name
        s!"job-{jobIndex + 1} {job.runnerJobName} is no longer advertised by its runner"]
    | some currentSchema =>
      pure (diffJobSchema jobIndex job.runnerJobName savedSchema currentSchema
        (workflowBoundInputs definition jobIndex) (workflowReferencedOutputs definition jobIndex))

def jobSchemaDiffs (definition : WorkflowDefinition) (snapshot : List RunnerJobDefinition) :
    List (WorkflowJobDefinition × ℕ) → Task (List WorkflowSchemaDiff)
  | [] => pure []
  | (job, jobIndex) :: jobs => do
    let diff ← jobSchemaDiff definition snapshot job jobIndex
    let rest ← jobSchemaDiffs definition snapshot jobs
    pure (diff ++ rest)

def extraSchemaDiffs (definition : WorkflowDefinition) (snapshot : List RunnerJobDefinition) :
    List WorkflowSchemaDiff :=
  (snapshot.zipIdx.drop definition.jobs.length).map fun (schema, index) =>
    jobRemoved index schema.name schema.name
      (s!"job-{index + 1} {schema.name} exists in the saved schema snapshot but not in the " ++
        "workflow definition")

def schemaStatus (diff : List WorkflowSchemaDiff) : WorkflowSchemaStatus :=
  if diff.any (·.incompatible) then .incompatible
  else if diff.any (·.isStale) then .stale
  else .current

def workflowSchemaReport (workflow : Workflow) : Task WorkflowSchemaReport := do
  let definition ← fromStr workflow.definitionJson
  let snapshot ← Db.workflowJobSchemas workflow.versionId
  let diff ← jobSchemaDiffs definition snapshot definition.jobs.zipIdx
  let diff := diff ++ extraSchemaDiffs definition snapshot
  pure { status := schemaStatus diff, diff }

end Janus.Server
