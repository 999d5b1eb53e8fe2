import Janus.Server.Columns
import Janus.Server.Footprint

/-! What the requests carry by which a job is given to its runner, each time it is dispatched. -/

namespace Janus.Server

open Janus.Concurrency Janus.Data

def Call.starts : Call → Option Id
  | .runner _ (.createJobRun jobRunId _ _ _) => some jobRunId
  | .jobRun jobRunId (.setJobRunStarted _ _) => some jobRunId
  | _ => none

def Call.idle (c : Call) : Prop := c.starts = none

lemma Call.isQuiet.idle {c : Call} (h : c.isQuiet) : c.idle := by
  cases c with
  | runner r request => cases request <;> first | rfl | exact h.elim
  | jobRun id u => exact h.elim
  | _ => rfl

lemma idle_footprint : PollFootprint Call.idle where
  query _ := rfl
  processed _ := rfl
  cancelRun _ _ := rfl
  quiet _ h := h.idle
  insert _ := rfl
  pipelineRun _ _ := rfl
  cancelRequested _ _ := rfl
  canceled _ := rfl
  status _ _ := rfl
  finish _ _ _ _ _ _ _ _ _ _ _ := rfl
  fail _ _ _ _ _ _ := rfl
  retry _ := rfl
  requeue _ := rfl
  exhausted _ := rfl

def Call.recordsNext {α : Type} : (c : Call) → (Except String c.Result → Task α) → Prop
  | .runner _ (.createJobRun jobRunId _ _ _), next => ∀ created : JobCreatedResponse,
    ∃ rest, next (.ok created) =
      .call (.jobRun jobRunId (.setJobRunStarted created.jobId created.startedAt)) rest
  | _, _ => True

def Records {α : Type} : Task α → Prop
  | .done _ => True
  | .call c next => c.recordsNext next ∧ ∀ x, Records (next x)

namespace Records

variable {α β : Type} {p : Task α}

lemma of_idle (hp : p.Only Call.idle) : Records p := by
  induction p with
  | done r => trivial
  | call c next ih =>
    refine ⟨?_, fun x => ih x (hp.2 x)⟩
    have hc : c.starts = none := hp.1
    cases c with
    | runner r request =>
      cases request with
      | createJobRun id name key body => exact (nomatch hc)
      | _ => trivial
    | _ => trivial

lemma bind {f : α → Task β} (hp : Records p) (hf : ∀ a, Records (f a)) : Records (p >>= f) := by
  induction p with
  | done r =>
    cases r with
    | ok a => exact hf a
    | error e => trivial
  | call c next ih =>
    refine ⟨?_, fun x => ih x (hp.2 x)⟩
    cases c with
    | runner r request =>
      cases request with
      | createJobRun id name key body =>
        intro created
        obtain ⟨rest, hrest⟩ := hp.1 created
        exact ⟨fun x => rest x >>= f, congrArg (· >>= f) hrest⟩
      | _ => trivial
    | _ => trivial

lemma forM {f : β → Task PUnit} {bs : List β} (hf : ∀ b, Records (f b)) : Records (bs.forM f) := by
  induction bs with
  | nil => trivial
  | cons b bs ih => exact bind (hf b) fun _ => ih

end Records

lemma createAndStartJob_records (job : JobRun) (runner : Runner) (payload : BTreeMap Value) :
    Records (createAndStartJob job runner payload) := by
  refine .bind (.of_idle (only_call rfl)) fun _ => ⟨fun created => ⟨_, rfl⟩, fun x => ?_⟩
  cases x with
  | ok created => exact ⟨trivial, fun _ => trivial⟩
  | error message =>
    refine .of_idle (.ite (fun _ => ?_) fun _ => .fail _)
    exact .bind (only_call rfl) fun _ => only_call rfl

lemma dispatchReadyJob_records (app : AppState) (job : JobRun) :
    Records (dispatchReadyJob app job) := by
  refine .bind (.of_idle (only_call rfl)) fun runner => ?_
  cases runner with
  | none => exact .of_idle (only_call rfl)
  | some runner =>
    simp only [dispatchAtRunner]
    split
    · refine .bind (.of_idle (only_call rfl)) fun pipeline => ?_
      cases pipeline with
      | none => trivial
      | some pipeline =>
        refine .bind (.of_idle (only_call rfl)) fun definitionJson => ?_
        refine .bind (.of_idle (.done _)) fun definition => ?_
        refine .bind (.of_idle (only_call rfl)) fun jobSchemas => ?_
        split
        · refine .bind (.of_idle (.attempt ((resolveJobInputs_only _ _ _ _ _).mono
            fun _ h => h.idle))) fun payload => ?_
          cases payload with
          | ok payload => exact createAndStartJob_records _ _ _
          | error message =>
            exact .of_idle (.ite (fun _ => idle_footprint.jobs.retryOrFailInfraError _ _ _ _ _) fun _ => .fail _)
        · trivial
    · trivial

lemma dispatchPendingJobs_records (app : AppState) : Records (dispatchPendingJobs app) := by
  refine .bind (.of_idle (only_call rfl)) fun jobs => .forM fun job => ?_
  refine .bind (.of_idle (only_call rfl)) fun previousJobs => ?_
  simp only [dispatchExaminedJob]
  split
  · exact .of_idle (.bind (only_call rfl) fun _ => only_call rfl)
  · trivial
  · exact dispatchReadyJob_records app job

lemma program_records (app : AppState) (r : Role) : Records (r.program app) := by
  cases r with
  | recovery => exact .of_idle idle_footprint.recoverIncompletePipelines
  | pushEvents => exact .of_idle idle_footprint.processPushEvents
  | dispatch => exact dispatchPendingJobs_records app
  | poll => exact .of_idle idle_footprint.pollRunningJobs
  | reconcile =>
    exact .bind (.of_idle idle_footprint.recoverIncompletePipelines) fun _ =>
      .bind (.of_idle idle_footprint.processPushEvents) fun _ => .bind (dispatchPendingJobs_records app) fun _ =>
      .of_idle idle_footprint.pollRunningJobs
  | cancel pipelineId => exact .of_idle (idle_footprint.cancelPipeline pipelineId)
  | enqueue number workflow triggerType triggerRef commitSha selections =>
    exact .of_idle (.bind (idle_footprint.enqueue _ _ _ _ _ _) fun _ => .pure _)

section

variable (db : Database) (reported : Id → List JobRunOutput)

def reportedOutput (run : JobRun) (outputName : String) : Option JobRunOutput :=
  (reported run.id).find? fun item => item.outputName = outputName

def Rebuilt (pipelineId : Id) (runnerId : String) : WorkflowInputBinding → Prop
  | .commit | .branch | .literal _ => True
  | .sourceArtifact | .promotedArtifact _ _ _ => False
  | .jobOutput jobIndex outputName => ∀ run ∈ db.upstreamRun pipelineId jobIndex,
    ∀ output ∈ reportedOutput reported run outputName, output.kind = .artifact → run.runnerId = runnerId

def Database.jobDefinition (pipeline : PipelineRun) (jobIndex : ℕ) : Option WorkflowJobDefinition :=
  match db.workflowDefinitionJson pipeline.workflowVersionId with
  | .ok (.ok definition) => definition.jobs[jobIndex]?
  | _ => none

def RebuiltJob (jobRunId : Id) : Prop :=
  ∀ job ∈ db.jobRuns.rows, job.id = jobRunId → ∀ pipeline ∈ db.pipelineRuns.rows,
    pipeline.id = job.pipelineRunId → ∀ jobDefinition ∈ db.jobDefinition pipeline job.jobIndex,
      ∀ input ∈ jobDefinition.inputs.entries,
        Rebuilt db reported pipeline.id jobDefinition.runnerId input.2

instance (pipelineId : Id) (runnerId : String) (binding : WorkflowInputBinding) :
    Decidable (Rebuilt db reported pipelineId runnerId binding) := by
  cases binding <;> unfold Rebuilt <;> infer_instance

instance (jobRunId : Id) : Decidable (RebuiltJob db reported jobRunId) := by
  unfold RebuiltJob
  infer_instance

def rebuiltValue (pipeline : PipelineColumns) : WorkflowInputBinding → Value
  | .commit => .string (pipeline.commitSha.getD "")
  | .branch => .string (pipeline.triggerRef.getD "")
  | .literal value => value
  | .sourceArtifact | .promotedArtifact _ _ _ => .null
  | .jobOutput jobIndex outputName =>
    match (db.upstreamRun pipeline.id jobIndex).bind (reportedOutput reported · outputName) with
    | some output =>
      if output.kind = .artifact then .string (output.runnerArtifactId.getD "")
      else output.value.getD .null
    | none => .null

def rebuiltInputs (pipeline : PipelineColumns) :
    List (String × WorkflowInputBinding) → BTreeMap Value → BTreeMap Value
  | [], resolved => resolved
  | (key, binding) :: bindings, resolved =>
    rebuiltInputs pipeline bindings (resolved.insert key (rebuiltValue db reported pipeline binding))

def rebuiltPayload (pipeline : PipelineColumns) (jobRunId : Id)
    (jobDefinition : WorkflowJobDefinition) : BTreeMap Value :=
  let resolved := rebuiltInputs db reported pipeline jobDefinition.inputs.entries .empty
  if resolved.containsKey "janus_job_run_id" then resolved
  else resolved.insert "janus_job_run_id" (idValue jobRunId)

def Carries (jobRunId : Id) (runnerId name : String) (body : List (String × Value)) : Prop :=
  ∃ job ∈ db.jobRuns.rows, job.id = jobRunId ∧ job.runnerId = runnerId ∧ job.runnerJobName = name ∧
    ∃ pipeline ∈ db.pipelineRuns.rows, pipeline.id = job.pipelineRunId ∧
      ∃ jobDefinition, db.jobDefinition pipeline job.jobIndex = some jobDefinition ∧
        body = (rebuiltPayload db reported pipeline.columns jobRunId jobDefinition).entries

end

lemma Carries.unique {db : Database} {reported : Id → List JobRunOutput} {jobRunId : Id}
    {runnerId runnerId' name name' : String} {body body' : List (String × Value)}
    (h : Carries db reported jobRunId runnerId name body)
    (h' : Carries db reported jobRunId runnerId' name' body') : name = name' ∧ body = body' := by
  obtain ⟨job, hj, hid, -, rfl, pipeline, hp, hpid, definition, hd, rfl⟩ := h
  obtain ⟨job', hj', hid', -, rfl, pipeline', hp', hpid', definition', hd', rfl⟩ := h'
  obtain rfl := db.jobRuns.eq_of_mem hj hj' (hid.trans hid'.symm)
  obtain rfl := db.pipelineRuns.eq_of_mem hp hp' (hpid.trans hpid'.symm)
  obtain rfl := Option.some.inj (hd.symm.trans hd')
  exact ⟨rfl, rfl⟩

def RunAccepted (jobRunId : Id) (accepted : String → Prop) (db : Database) : Prop :=
  ∀ job ∈ db.jobRuns.rows, job.id = jobRunId → ∀ runId ∈ job.runnerRunId, accepted runId

def dispatching (app : AppState) (final : Database) (reported : Id → List JobRunOutput)
    (jobRunId : Id) (accepted : String → Prop) : Discipline Call Call.Result String Store where
  rely _ _ := True
  inv s := RunAccepted jobRunId accepted s.db
  admits c s x s' := (∃ o, c.exec app o s = (x, s')) ∧ s.db.Precedes final ∧
    (∀ id, c = .query (.jobOutputs id) → s.db.jobOutputs id = reported id) ∧
    match c, x with
    | .runner _ (.createJobRun id _ _ _), .ok created =>
      id = jobRunId → accepted (JobCreatedResponse.jobId created)
    | _, _ => True
  before c _ := match c with
    | .runner runner (.createJobRun id name _ body) =>
      id = jobRunId → Carries final reported jobRunId runner.id name body
    | .jobRun id (.setJobRunStarted runId _) => id = jobRunId → accepted runId
    | _ => True

section

variable {app : AppState} {final : Database} {reported : Id → List JobRunOutput} {jobRunId : Id}
variable {accepted : String → Prop} {α : Type}

lemma dispatching_only {p : Task α} (hp : p.Only fun c => c.starts ≠ some jobRunId) :
    Yields (dispatching app final reported jobRunId accepted) (fun _ => True) (fun _ => True) p := by
  refine Yields.of_only (fun c _ hc _ => ?_) hp
  cases c with
  | runner r request =>
    cases request with
    | createJobRun id name key body => exact fun hid => absurd (congrArg some hid) hc
    | _ => trivial
  | jobRun id u =>
    cases u with
    | setJobRunStarted runId startedAt => exact fun hid => absurd (congrArg some hid) hc
    | _ => trivial
  | _ => trivial

lemma dispatching_idle {p : Task α} (hp : p.Only Call.idle) :
    Yields (dispatching app final reported jobRunId accepted) (fun _ => True) (fun _ => True) p :=
  dispatching_only (hp.mono fun _ hc hs => nomatch hc.symm.trans hs)

lemma dispatching_query {q : Query} {P : q.Result → Prop}
    (h : ∀ (s : Store) a, s.db.Precedes final →
      (∀ id, q = .jobOutputs id → s.db.jobOutputs id = reported id) → q.eval s.db = .ok a → P a) :
    Yields (dispatching app final reported jobRunId accepted) (fun _ => True) P
      (call (.query q)) := by
  refine Yields.request (fun _ _ => trivial) (fun s a s' _ ha => ?_) fun _ _ _ _ _ => trivial
  obtain ⟨⟨o, ho⟩, hprecedes, hreported, -⟩ := ha
  refine h s a hprecedes (fun id hid => hreported id (congrArg _ hid)) ?_
  rcases (exec_query ho).2 with ⟨e, he⟩ | he
  · exact (nomatch he)
  · exact he.symm

lemma dispatching_okOr {value : Option α} {message : String} :
    Yields (dispatching app final reported jobRunId accepted) (fun _ => True)
      (fun a => value = some a) (okOr value message) := by
  cases value with
  | none => exact Yields.fail trivial
  | some a => exact Yields.pure rfl

lemma dispatching_findJobRunId (pipelineId : Id) (jobIndex : ℕ) :
    Yields (dispatching app final reported jobRunId accepted) (fun _ => True)
      (fun id => ∃ run, final.upstreamRun pipelineId jobIndex = some run ∧ run.id = id)
      (findJobRunId pipelineId jobIndex) := by
  refine Yields.bind (P := fun snapshot => ∀ found, snapshot = some found →
    ∀ item, (found.jobs.find? fun item => item.run.jobIndex = jobIndex) = some item →
      ∃ run, final.upstreamRun pipelineId jobIndex = some run ∧ run.id = item.run.id)
    (dispatching_query (q := .pipelineSnapshot pipelineId) ?_) fun snapshot hs => ?_
  · rintro s snapshot hprecedes - h found rfl item hitem
    have hfind := Database.pipelineSnapshot_find jobIndex h
    rw [hitem] at hfind
    obtain ⟨run, hrun, hcolumns⟩ := hprecedes.upstreamRun hfind.symm
    exact ⟨run, hrun, congrArg JobColumns.id hcolumns⟩
  · refine Yields.bind dispatching_okOr fun found hfound => dispatching_okOr.mono fun id hid => ?_
    obtain ⟨item, hitem, rfl⟩ := Option.map_eq_some_iff.mp hid
    exact hs found hfound item hitem

lemma dispatching_ensureRunnerHasArtifact {targetRunnerId sourceArtifactId : String} {run : JobRun}
    (hrun : run ∈ final.jobRuns.rows) (hsame : run.runnerId = targetRunnerId) :
    Yields (dispatching app final reported jobRunId accepted) (fun _ => True)
      (fun id => id = sourceArtifactId)
      (ensureRunnerHasArtifact targetRunnerId sourceArtifactId run.id) := by
  refine Yields.bind (dispatching_query (q := .pipelineForJobRun run.id) fun _ _ _ _ _ => trivial)
    fun pipeline _ => Yields.bind dispatching_okOr fun pipeline _ => ?_
  refine Yields.bind (P := fun snapshot => ∀ found, snapshot = some found → ∀ item ∈ found.jobs,
      item.run.id = run.id → item.run.runnerId = run.runnerId)
    (dispatching_query (q := .pipelineSnapshot pipeline.id) ?_) fun snapshot hs => ?_
  · rintro s snapshot hprecedes - h found rfl item hitem hid
    have hrow := (List.mem_filter.mp ((pipelineSnapshot_ok h).mp ⟨item, hitem, rfl⟩)).1
    obtain ⟨run', hrun', hcolumns⟩ := hprecedes.jobRun hrow
    have hid' : run'.id = run.id := (congrArg JobColumns.id hcolumns).trans hid
    rw [← final.jobRuns.eq_of_mem hrun' hrun hid']
    exact (congrArg JobColumns.runnerId hcolumns).symm
  · refine Yields.bind dispatching_okOr fun found hfound => ?_
    refine Yields.bind dispatching_okOr fun upstream hupstream => ?_
    have hid : upstream.run.id = run.id := by simpa using List.find?_some hupstream
    rw [if_pos ((hs found hfound upstream (List.mem_of_find?_eq_some hupstream) hid).trans hsame)]
    exact Yields.pure rfl

lemma dispatching_resolveJobOutput {pipeline : PipelineRun} {runnerId key outputName : String}
    {expectedKind : Option InputType} {jobIndex : ℕ}
    (h : Rebuilt final reported pipeline.id runnerId (.jobOutput jobIndex outputName)) :
    Yields (dispatching app final reported jobRunId accepted) (fun _ => True)
      (fun value => value = rebuiltValue final reported pipeline.columns
        (.jobOutput jobIndex outputName))
      (resolveJobOutput pipeline runnerId key expectedKind jobIndex outputName) := by
  refine Yields.bind (dispatching_findJobRunId _ _) fun upstreamRunId ⟨run, hrun, hid⟩ => ?_
  subst hid
  refine Yields.bind (P := fun outputs => outputs = reported run.id)
    (dispatching_query (q := .jobOutputs run.id) ?_) fun outputs hout => ?_
  · intro s outputs _ hreported hok
    exact (Except.ok.inj hok).symm.trans (hreported run.id rfl)
  subst hout
  refine Yields.bind dispatching_okOr fun output houtput => ?_
  have hvalue : rebuiltValue final reported pipeline.columns (.jobOutput jobIndex outputName) =
      if output.kind = .artifact then .string (output.runnerArtifactId.getD "")
      else output.value.getD .null := by
    have hupstream : (final.upstreamRun pipeline.columns.id jobIndex).bind
        (reportedOutput reported · outputName) = some output := by
      rw [PipelineRun.columns, hrun]
      exact houtput
    simp only [rebuiltValue, hupstream]
  split
  · exact Yields.fail trivial
  · split
    · next hartifact =>
      rw [if_pos hartifact] at hvalue
      refine Yields.bind dispatching_okOr fun sourceArtifactId hsource => ?_
      refine Yields.bind (dispatching_ensureRunnerHasArtifact
        (List.mem_of_find?_eq_some hrun) (h run hrun output houtput hartifact)) fun artifactId hid => ?_
      exact Yields.pure (by rw [hvalue, hid, hsource, Option.getD_some])
    · next hplain =>
      rw [if_neg hplain] at hvalue
      exact dispatching_okOr.mono fun value hstored => by rw [hvalue, hstored, Option.getD_some]

lemma dispatching_resolveBindings {pipeline : PipelineRun} {jobIndex : ℕ}
    {jobDefinition : WorkflowJobDefinition} {runnerJob : RunnerJobDefinition}
    {bindings : List (String × WorkflowInputBinding)}
    (h : ∀ input ∈ bindings, Rebuilt final reported pipeline.id jobDefinition.runnerId input.2)
    (resolved : BTreeMap Value) :
    Yields (dispatching app final reported jobRunId accepted) (fun _ => True)
      (fun inputs => inputs = rebuiltInputs final reported pipeline.columns bindings resolved)
      (resolveBindings pipeline jobIndex jobDefinition runnerJob bindings resolved) := by
  induction bindings generalizing resolved with
  | nil => exact Yields.pure rfl
  | cons entry bindings ih =>
    obtain ⟨key, binding⟩ := entry
    obtain ⟨hbinding, hrest⟩ := List.forall_mem_cons.mp h
    refine Yields.bind (P := fun value => value = rebuiltValue final reported pipeline.columns binding)
      ?_ fun value hvalue => ?_
    · cases binding with
      | commit => exact Yields.pure rfl
      | branch => exact Yields.pure rfl
      | literal value => exact Yields.pure rfl
      | sourceArtifact => exact hbinding.elim
      | promotedArtifact _ _ _ => exact hbinding.elim
      | jobOutput upstreamIndex outputName => exact dispatching_resolveJobOutput hbinding
    · rw [hvalue]
      exact ih hrest _

lemma dispatching_resolveJobInputs {pipeline : PipelineRun} {id : Id} {jobIndex : ℕ}
    {jobDefinition : WorkflowJobDefinition} {runnerJob : RunnerJobDefinition}
    (h : ∀ input ∈ jobDefinition.inputs.entries,
      Rebuilt final reported pipeline.id jobDefinition.runnerId input.2) :
    Yields (dispatching app final reported jobRunId accepted) (fun _ => True)
      (fun payload => payload = rebuiltPayload final reported pipeline.columns id jobDefinition)
      (resolveJobInputs pipeline id jobIndex jobDefinition runnerJob) := by
  refine Yields.bind (dispatching_resolveBindings h _) fun resolved hresolved => ?_
  rw [hresolved, rebuiltPayload]
  split
  · exact Yields.pure rfl
  · exact Yields.pure rfl

lemma dispatching_createAndStartJob {job : JobRun} {runner : Runner} {payload : BTreeMap Value}
    (h : job.id = jobRunId →
      Carries final reported jobRunId runner.id job.runnerJobName payload.entries) :
    Yields (dispatching app final reported jobRunId accepted) (fun _ => True) (fun _ => True)
      (createAndStartJob job runner payload) := by
  refine Yields.bind (dispatching_idle (only_call rfl)) fun _ _ => ?_
  refine Yields.bind (Yields.attempt (P := fun created => job.id = jobRunId →
    accepted (JobCreatedResponse.jobId created)) (Yields.request (fun _ _ => h) ?_
      fun _ _ _ _ _ => trivial)) fun result hresult => ?_
  · exact fun s created s' _ ha => ha.2.2.2
  cases result with
  | ok created =>
    exact Yields.request (fun _ _ => hresult) (fun _ _ _ _ _ => trivial) fun _ _ _ _ _ => trivial
  | error message =>
    refine dispatching_idle (.ite (fun _ => ?_) fun _ => .fail _)
    exact .bind (only_call rfl) fun _ => only_call rfl

lemma dispatching_resolveAndCreateJob {job : JobRun} {runner : Runner} {pipeline : PipelineRun}
    {jobDefinition : WorkflowJobDefinition} {runnerJob : RunnerJobDefinition}
    (h : job.id = jobRunId → (∀ input ∈ jobDefinition.inputs.entries,
        Rebuilt final reported pipeline.id jobDefinition.runnerId input.2) ∧
      Carries final reported jobRunId runner.id job.runnerJobName
        (rebuiltPayload final reported pipeline.columns job.id jobDefinition).entries) :
    Yields (dispatching app final reported jobRunId accepted) (fun _ => True) (fun _ => True)
      (resolveAndCreateJob app job runner pipeline jobDefinition runnerJob) := by
  refine Yields.bind (Yields.attempt (P := fun payload => job.id = jobRunId →
    payload = rebuiltPayload final reported pipeline.columns job.id jobDefinition) ?_)
    fun result hresult => ?_
  · by_cases hid : job.id = jobRunId
    · exact (dispatching_resolveJobInputs (h hid).1).mono fun payload hp _ => hp
    · exact (dispatching_idle ((resolveJobInputs_only _ _ _ _ _).mono fun _ hc => hc.idle)).mono
        fun _ _ h => absurd h hid
  cases result with
  | ok payload => exact dispatching_createAndStartJob fun hid => by rw [hresult hid]; exact (h hid).2
  | error message =>
    refine dispatching_idle (.ite (fun _ => ?_) fun _ => .fail _)
    exact idle_footprint.jobs.retryOrFailInfraError _ _ _ _ _

lemma dispatching_pipelineForJobRun (id : Id) :
    Yields (dispatching app final reported jobRunId accepted) (fun _ => True)
      (fun pipeline => ∀ found, pipeline = some found → ∃ job ∈ final.jobRuns.rows, job.id = id ∧
        ∃ pipeline' ∈ final.pipelineRuns.rows, pipeline'.columns = found.columns ∧
          pipeline'.id = job.pipelineRunId)
      (Db.pipelineForJobRun id) := by
  refine dispatching_query (q := .pipelineForJobRun id) ?_
  intro s pipeline hprecedes _ h found hfound
  obtain rfl : s.db.pipelineForJobRun id = pipeline := Except.ok.inj h
  obtain ⟨row, hrow, hp⟩ := Option.bind_eq_some_iff.mp hfound
  obtain ⟨job, hj, hcolumns⟩ := hprecedes.jobRun (Table.mem_of_find? hrow)
  obtain ⟨pipeline', hp', hcolumns'⟩ := hprecedes.pipelineRun (Table.mem_of_find? hp)
  have hid : row.id = id := Table.key_of_find? hrow
  refine ⟨job, hj, (congrArg JobColumns.id hcolumns).trans hid, pipeline', hp', hcolumns', ?_⟩
  calc pipeline'.id = found.id := congrArg PipelineColumns.id hcolumns'
    _ = row.pipelineRunId := Table.key_of_find? hp
    _ = job.pipelineRunId := (congrArg JobColumns.pipelineRunId hcolumns).symm

lemma dispatching_dispatchAtRunner {job : JobRun} {runner : Runner}
    (hrebuilt : RebuiltJob final reported jobRunId) (hrunner : runner.id = job.runnerId)
    (hjob : ∃ job' ∈ final.jobRuns.rows, job'.columns = job.columns) :
    Yields (dispatching app final reported jobRunId accepted) (fun _ => True) (fun _ => True)
      (dispatchAtRunner app job runner) := by
  obtain ⟨job', hj', hcolumns⟩ := hjob
  simp only [dispatchAtRunner]
  split
  · refine Yields.bind (dispatching_pipelineForJobRun job.id) fun pipeline hp => ?_
    cases pipeline with
    | none => exact Yields.pure trivial
    | some pipeline =>
      obtain ⟨job'', hj'', hid, pipeline', hp', hpcolumns, hpid⟩ := hp pipeline rfl
      have hid' : job''.id = job'.id := hid.trans (congrArg JobColumns.id hcolumns).symm
      obtain rfl := final.jobRuns.eq_of_mem hj'' hj' hid'
      refine Yields.bind (P := fun definitionJson =>
        final.workflowDefinitionJson pipeline.workflowVersionId = .ok definitionJson)
        (dispatching_query (q := .workflowDefinitionJson pipeline.workflowVersionId) ?_)
        fun definitionJson hdefinition => ?_
      · intro s definitionJson hprecedes _ h
        rw [Database.workflowDefinitionJson, hprecedes.workflowVersions]
        exact h
      cases definitionJson with
      | error e => exact Yields.fail trivial
      | ok definition =>
        refine Yields.bind (P := fun read => read = definition) (Yields.pure rfl) fun _ hread => ?_
        subst hread
        refine Yields.bind (P := fun _ => True)
          (dispatching_query (q := .workflowJobSchemas pipeline.workflowVersionId)
            fun _ _ _ _ _ => trivial) fun jobSchemas _ => ?_
        split
        · next jobDefinition runnerJob hd _ =>
          refine dispatching_resolveAndCreateJob fun hjid => ?_
          have hdef : final.jobDefinition pipeline' job''.jobIndex = some jobDefinition := by
            rw [Database.jobDefinition, show pipeline'.workflowVersionId = pipeline.workflowVersionId
              from congrArg PipelineColumns.workflowVersionId hpcolumns, hdefinition]
            rw [show job''.jobIndex = job.jobIndex from congrArg JobColumns.jobIndex hcolumns]
            exact hd
          have hfor := hrebuilt job'' hj'' (hid.trans hjid) pipeline' hp' hpid jobDefinition hdef
          rw [show pipeline'.id = pipeline.id from congrArg PipelineColumns.id hpcolumns] at hfor
          refine ⟨hfor, job'', hj'', hid.trans hjid, ?_, ?_, pipeline', hp', hpid, jobDefinition,
            hdef, ?_⟩
          · exact (congrArg JobColumns.runnerId hcolumns).trans hrunner.symm
          · exact congrArg JobColumns.runnerJobName hcolumns
          · rw [hpcolumns, hjid]
        · exact Yields.pure trivial
  · exact Yields.pure trivial

lemma dispatching_dispatchReadyJob {job : JobRun} (hrebuilt : RebuiltJob final reported jobRunId)
    (hjob : ∃ job' ∈ final.jobRuns.rows, job'.columns = job.columns) :
    Yields (dispatching app final reported jobRunId accepted) (fun _ => True) (fun _ => True)
      (dispatchReadyJob app job) := by
  refine Yields.bind (P := fun runner => ∀ found, runner = some found → found.id = job.runnerId)
    (dispatching_query (q := .getRunner job.runnerId) ?_) fun runner hr => ?_
  · rintro s runner - - h found rfl
    exact Table.key_of_find? (Except.ok.inj h)
  cases runner with
  | none => exact dispatching_idle (only_call rfl)
  | some runner => exact dispatching_dispatchAtRunner hrebuilt (hr runner rfl) hjob

lemma dispatching_dispatchPendingJobs (hrebuilt : RebuiltJob final reported jobRunId) :
    Yields (dispatching app final reported jobRunId accepted) (fun _ => True) (fun _ => True)
      (dispatchPendingJobs app) := by
  refine Yields.bind (P := fun jobs => ∀ job ∈ jobs, ∃ job' ∈ final.jobRuns.rows,
    job'.columns = job.columns) (dispatching_query (q := .listJobRunsByStatus [.pending]) ?_)
    fun jobs hjobs => Yields.forM fun job hj => ?_
  · intro s jobs hprecedes _ h job hj
    obtain rfl : s.db.listJobRunsByStatus [.pending] = jobs := Except.ok.inj h
    exact hprecedes.jobRun (List.mem_filter.mp hj).1
  refine Yields.bind (dispatching_idle (only_call rfl)) fun previousJobs _ => ?_
  simp only [dispatchExaminedJob]
  split
  · exact dispatching_idle (.bind (only_call rfl) fun _ => only_call rfl)
  · exact Yields.pure trivial
  · exact dispatching_dispatchReadyJob hrebuilt (hjobs job hj)

lemma dispatching_program (hrebuilt : RebuiltJob final reported jobRunId) (r : Role) :
    Yields (dispatching app final reported jobRunId accepted) (fun _ => True) (fun _ => True)
      (r.program app) := by
  cases r with
  | recovery => exact dispatching_idle idle_footprint.recoverIncompletePipelines
  | pushEvents => exact dispatching_idle idle_footprint.processPushEvents
  | dispatch => exact dispatching_dispatchPendingJobs hrebuilt
  | poll => exact dispatching_idle idle_footprint.pollRunningJobs
  | reconcile =>
    refine Yields.bind (dispatching_idle idle_footprint.recoverIncompletePipelines) fun _ _ => ?_
    refine Yields.bind (dispatching_idle idle_footprint.processPushEvents) fun _ _ => ?_
    refine Yields.bind (dispatching_dispatchPendingJobs hrebuilt) fun _ _ => ?_
    exact dispatching_idle idle_footprint.pollRunningJobs
  | cancel pipelineId => exact dispatching_idle (idle_footprint.cancelPipeline pipelineId)
  | enqueue number workflow triggerType triggerRef commitSha selections =>
    exact dispatching_idle (.bind (idle_footprint.enqueue _ _ _ _ _ _) fun _ => .pure _)

end

structure Dispatches (final : Database) (reported : Id → List JobRunOutput) (jobRunId : Id)
    (accepted : String → Prop) (app : AppState) (p : ServerPool) (e : ServerEvent) : Prop where
  precedes : p.store.db.Precedes final
  reported : ∀ id, p.call? e = some (.query (.jobOutputs id)) → p.store.db.jobOutputs id = reported id
  accepted : ∀ i o r runner name key body next created, e = .step i o →
    p.tasks[i]? = some (r, .call (.runner runner (.createJobRun jobRunId name key body)) next) →
    ((Call.runner runner (.createJobRun jobRunId name key body)).exec app o p.store).1 =
      .ok created → accepted (JobCreatedResponse.jobId created)

lemma RunAccepted.step {jobRunId : Id} {accepted : String → Prop} {app : AppState} {c : Call}
    {o : Outcome} {s s' : Store} {x : Except String c.Result} (h : RunAccepted jobRunId accepted s.db)
    (hb : ∀ runId startedAt, c = .jobRun jobRunId (.setJobRunStarted runId startedAt) → accepted runId)
    (he : c.exec app o s = (x, s')) : RunAccepted jobRunId accepted s'.db := by
  cases exec_effect he with
  | untouched tables _ => simpa only [RunAccepted, tables.jobRuns] using h
  | jobRun id u now key jobRuns _ _ =>
    intro job hj hid runId hrun
    rw [jobRuns] at hj
    obtain ⟨row, hrow, ⟨hrid, rfl⟩ | ⟨-, rfl⟩⟩ := Table.mem_modify.mp hj
    · rw [(u.row_same now key row).id] at hid
      cases u with
      | setJobRunStarted runId' startedAt =>
        obtain rfl := Option.some.inj hrun
        exact hb runId' startedAt (by rw [← hrid, hid])
      | requeueJobRunForInfraRetry => exact absurd hrun (Option.not_mem_none runId)
      | _ => exact h row hrow hid runId hrun
    · exact h job hrow hid runId hrun
  | pipelineRun _ _ _ jobRuns _ _ => simpa only [RunAccepted, jobRuns] using h
  | createPipelineRun _ _ _ _ _ _ _ _ _ jobRuns _ _ _ => simpa only [RunAccepted, jobRuns] using h
  | createJobRun _ _ _ _ _ _ _ _ _ jobRuns _ _ _ =>
    intro job hj hid runId hrun
    rw [Table.rows_insert? jobRuns] at hj
    rcases List.mem_append.mp hj with hj | hj
    · exact h job hj hid runId hrun
    · obtain rfl := List.mem_singleton.mp hj
      exact absurd hrun (Option.not_mem_none runId)
  | addPreviousJob _ _ _ _ jobRuns _ _ _ => simpa only [RunAccepted, jobRuns] using h

lemma dispatching_outline {app : AppState} {final : Database} {reported : Id → List JobRunOutput}
    {jobRunId : Id} {accepted : String → Prop} (hrebuilt : RebuiltJob final reported jobRunId) :
    System.Outline (server app) (Dispatches final reported jobRunId accepted app)
      (fun s => RunAccepted jobRunId accepted s.db)
      (fun _ => dispatching app final reported jobRunId accepted) (fun _ _ _ => True) where
  inv_eq _ := rfl
  trans _ _ _ _ _ _ := trivial
  post_stable _ _ _ _ _ _ := trivial
  refl _ _ := trivial
  start p r _ _ := Safe.mono (fun _ _ _ => trivial) (dispatching_program hrebuilt r p.store)
  admits p i o r c next _ hok ht _ := by
    refine ⟨⟨o, rfl⟩, hok.precedes, fun id hc => hok.reported id ?_, ?_⟩
    · simp only [Pool.call?, ht, hc]
    · split
      · next runner id name key body created _ hx =>
        rintro rfl
        exact hok.accepted i o r runner name key body next created rfl ht hx
      · trivial
  keeps _ s s' hinv := by
    rintro ⟨c, x, hb, ⟨o, ho⟩, -⟩
    refine hinv.step (fun runId startedAt hc => ?_) ho
    subst hc
    exact hb rfl
  compat _ _ _ _ _ _ _ _ _ _ _ _ _ _ := trivial
  environ p v _ hinv := by
    cases v with
    | runEnds runId => exact ⟨hinv, fun _ => trivial⟩
  crash _ _ hinv := hinv

end Janus.Server
