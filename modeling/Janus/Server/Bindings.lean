import Janus.Concurrency.Safety
import Janus.Data.Except
import Janus.Server.Columns
import Janus.Server.Inputs
import Janus.Server.Workflows

/-! The references to outputs in a workflow that the server has accepted, and how they resolve. -/

namespace Janus.Server

open Janus.Concurrency Janus.Data

variable {jsonText : Value → String} {catalog : RunnerCatalog} {definition : WorkflowDefinition}
variable {defs : List RunnerJobDefinition} {jobs : List WorkflowJobDefinition}

def Declared (defs : List RunnerJobDefinition) (jobIndex : ℕ) (expectedKind : InputType)
    (upstreamIndex : ℕ) (outputName : String) : Prop :=
  upstreamIndex < jobIndex ∧ ∃ upstream, defs[upstreamIndex]? = some upstream ∧
    ∃ output, upstream.outputs.get outputName = some output ∧
      output.kind.asStr = expectedKind.asStr

/-- Each reference of the workflow whose name of the output is in `P` is to an output that an earlier
job declares with the kind of the input. -/
def ReferencesDeclared (definition : WorkflowDefinition) (defs : List RunnerJobDefinition)
    (P : String → Prop) : Prop :=
  ∀ (jobIndex : ℕ) (job : WorkflowJobDefinition) (inputName : String) (upstreamIndex : ℕ)
    (outputName : String), definition.jobs[jobIndex]? = some job →
    job.inputs.get inputName = some (.jobOutput upstreamIndex outputName) → P outputName →
    ∃ runnerJob input, defs[jobIndex]? = some runnerJob ∧
      runnerJob.inputs.get inputName = some input ∧
      Declared defs jobIndex input.kind upstreamIndex outputName

lemma validateJobOutput_ok {jobCount jobIndex : ℕ} {inputName : String} {expectedKind : InputType}
    {binding : JobOutputBinding}
    (h : validateJobOutput defs jobCount jobIndex inputName expectedKind binding = .ok ()) :
    Declared defs jobIndex expectedKind binding.jobIndex binding.outputName := by
  simp only [validateJobOutput] at h
  split at h
  · exact (nomatch h)
  · split at h
    · exact (nomatch h)
    · next hlt =>
      split at h
      · exact (nomatch h)
      · next upstream hu =>
        split at h
        · exact (nomatch h)
        · next output ho =>
          split at h
          · next hk => exact ⟨not_le.mp hlt, upstream, hu, output, ho, hk⟩
          · exact (nomatch h)

lemma validateBinding_ok {jobCount jobIndex upstreamIndex : ℕ} {inputName outputName : String}
    {input : JobInputDefinition}
    (h : validateBinding jsonText catalog defs jobCount jobIndex inputName input
      (.jobOutput upstreamIndex outputName) = .ok ()) (hne : outputName.isEmpty = false) :
    Declared defs jobIndex input.kind upstreamIndex outputName := by
  simp only [validateBinding, parseJobOutputBinding, hne] at h
  exact validateJobOutput_ok h

lemma validateInputBindings_ok {jobCount jobIndex : ℕ} {job : WorkflowJobDefinition}
    {runnerJob : RunnerJobDefinition} {inputs : List (String × WorkflowInputBinding)}
    (h : validateInputBindings jsonText catalog defs jobCount jobIndex job runnerJob inputs = .ok ())
    {inputName : String} {binding : WorkflowInputBinding} (hb : (inputName, binding) ∈ inputs) :
    ∃ input, runnerJob.inputs.get inputName = some input ∧
      validateBinding jsonText catalog defs jobCount jobIndex inputName input binding = .ok () := by
  induction inputs with
  | nil => exact absurd hb List.not_mem_nil
  | cons entry inputs ih =>
    simp only [validateInputBindings] at h
    split at h
    · exact (nomatch h)
    · next input hi =>
      obtain ⟨_, hv, h⟩ := bind_ok h
      rcases List.mem_cons.mp hb with rfl | hb
      · exact ⟨input, hi, hv⟩
      · exact ih h hb

lemma validateJobBindings_ok {jobCount : ℕ} {js : List (WorkflowJobDefinition × ℕ)}
    (h : validateJobBindings jsonText catalog defs jobCount js = .ok ())
    {job : WorkflowJobDefinition} {jobIndex : ℕ} (hj : (job, jobIndex) ∈ js) :
    ∃ runnerJob, defs[jobIndex]? = some runnerJob ∧
      validateInputBindings jsonText catalog defs jobCount jobIndex job runnerJob
        job.inputs.entries = .ok () ∧
      validateRequiredWorkflowInputs jobIndex job runnerJob = .ok () := by
  induction js with
  | nil => exact absurd hj List.not_mem_nil
  | cons entry js ih =>
    simp only [validateJobBindings] at h
    split at h
    · exact (nomatch h)
    · next runnerJob hd =>
      obtain ⟨_, hb, h⟩ := bind_ok h
      obtain ⟨_, hr, h⟩ := bind_ok h
      rcases List.mem_cons.mp hj with rfl | hj
      · exact ⟨runnerJob, hd, hb, hr⟩
      · exact ih h hj

lemma validateWorkflowRunners_ok
    (h : validateWorkflowRunners jsonText catalog definition = .ok defs)
    {job : WorkflowJobDefinition} {jobIndex : ℕ} (hj : definition.jobs[jobIndex]? = some job) :
    ∃ runnerJob, defs[jobIndex]? = some runnerJob ∧
      validateInputBindings jsonText catalog defs definition.jobs.length jobIndex job runnerJob
        job.inputs.entries = .ok () ∧
      validateRequiredWorkflowInputs jobIndex job runnerJob = .ok () := by
  obtain ⟨defs', -, h⟩ := bind_ok h
  obtain ⟨_, hb, h⟩ := bind_ok h
  obtain rfl := Except.ok.inj h
  exact validateJobBindings_ok hb (List.mem_zipIdx_iff_getElem?.mpr hj)

lemma references_named (h : validateWorkflowRunners jsonText catalog definition = .ok defs) :
    ReferencesDeclared definition defs fun outputName => outputName.isEmpty = false := by
  intro jobIndex job inputName upstreamIndex outputName hj hb hne
  obtain ⟨runnerJob, hd, hv, -⟩ := validateWorkflowRunners_ok h hj
  obtain ⟨input, hi, hv⟩ := validateInputBindings_ok hv (OrderedMap.get_eq_some_iff.mp hb)
  exact ⟨runnerJob, input, hd, hi, validateBinding_ok hv hne⟩

/-- The complaints of `resolve_job_inputs` about what a reference is to. -/
inductive ResolutionError : String → Prop
  | missingUpstreamJob (jobIndex : ℕ) : ResolutionError s!"missing upstream job-{jobIndex + 1}"
  | missingUpstreamRun : ResolutionError "missing upstream run"
  | missingOutput (outputName : String) (jobIndex : ℕ) :
    ResolutionError s!"missing output {outputName} from job-{jobIndex + 1}"
  | kindMismatch (key : String) (expectedInputKind : Option InputType) (jobIndex : ℕ)
      (output : JobRunOutput) (message : String) :
    kindMismatch key expectedInputKind jobIndex output = some message → ResolutionError message

structure Reported (db : Database) (pipelineId : Id) (jobIndex : ℕ) (runs : Set Id)
    (runnerJob : RunnerJobDefinition) : Prop where
  started : ∃ job ∈ db.jobRunsOf pipelineId, job.jobIndex = jobIndex
  all : ∀ job ∈ db.jobRunsOf pipelineId, job.jobIndex = jobIndex → job.id ∈ runs
  succeeded : ∀ id ∈ runs, ∃ job ∈ db.jobRunsOf pipelineId, job.id = id ∧ job.status = .success
  reported : ∀ id ∈ runs, ∀ outputName output, runnerJob.outputs.get outputName = some output →
    (∃ item ∈ db.jobOutputs id, item.outputName = outputName) ∧
    ∀ item ∈ db.jobOutputs id, item.outputName = outputName → item.kind.asStr = output.kind.asStr

def resolving (app : AppState) (pipelineId : Id) (defs : List RunnerJobDefinition)
    (job : WorkflowJobDefinition) (runs : ℕ → Set Id) : Discipline Call Call.Result String Store where
  rely _ _ := True
  inv s := ∀ inputName upstreamIndex outputName upstream,
    job.inputs.get inputName = some (.jobOutput upstreamIndex outputName) →
    defs[upstreamIndex]? = some upstream →
    Reported s.db pipelineId upstreamIndex (runs upstreamIndex) upstream
  admits c s x s' := (∃ o, c.exec app o s = (x, s')) ∧ ∀ e, x = .error e → ¬ResolutionError e
  before _ _ := True

section

variable {app : AppState} {pipelineId : Id} {job : WorkflowJobDefinition} {runs : ℕ → Set Id}
variable {α : Type} {P : α → Prop}

lemma ResolutionError.begins {e : String} (h : ResolutionError e) :
    e.toList.take 9 = "missing u".toList ∨ e.toList.take 9 = "missing o".toList ∨
      e.toList.take 9 = "workflow ".toList := by
  cases h with
  | missingUpstreamJob jobIndex => exact .inl (by simp [toString, String.toList_append])
  | missingUpstreamRun => exact .inl rfl
  | missingOutput outputName jobIndex => exact .inr (.inl (by simp [toString, String.toList_append]))
  | kindMismatch key expectedInputKind jobIndex output message h =>
    simp only [Server.kindMismatch] at h
    split at h
    · split at h
      · exact (nomatch h)
      · obtain rfl := Option.some.inj h
        exact .inr (.inr (by simp [toString, String.toList_append]))
    · exact (nomatch h)

lemma yields_call {c : Call} {P : c.Result → Prop}
    (h : ∀ s a o s', (resolving app pipelineId defs job runs).inv s →
      c.exec app o s = (.ok a, s') → P a) :
    Yields (resolving app pipelineId defs job runs) (¬ResolutionError ·) P (call c) :=
  Yields.request (fun _ _ => trivial) (fun s a s' hi ha => ha.1.elim fun o ho => h s a o s' hi ho)
    fun _ e _ _ ha => ha.2 e rfl

lemma yields_query {q : Query} {P : q.Result → Prop}
    (h : ∀ s a, (resolving app pipelineId defs job runs).inv s → q.eval s.db = .ok a → P a) :
    Yields (resolving app pipelineId defs job runs) (¬ResolutionError ·) P (call (.query q)) := by
  refine yields_call fun s a o s' hi he => h s a hi ?_
  rcases exec_cases he with ⟨-, e, he⟩ | he
  · exact (nomatch he)
  · exact congrArg Prod.fst he

lemma yields_okOr {value : Option α} {message : String} (h : ∀ a, value = some a → P a)
    (hm : value = none → ¬ResolutionError message) :
    Yields (resolving app pipelineId defs job runs) (¬ResolutionError ·) P (okOr value message) := by
  cases value with
  | none => exact Yields.fail (hm rfl)
  | some a => exact Yields.pure (h a rfl)

lemma yields_any {c : Call} :
    Yields (resolving app pipelineId defs job runs) (¬ResolutionError ·) (fun _ => True) (call c) :=
  yields_call fun _ _ _ _ _ _ => trivial

lemma yields_other {value : Option α} {message : String}
    (h : message.toList.take 9 ∉ ["missing u".toList, "missing o".toList, "workflow ".toList]) :
    Yields (resolving app pipelineId defs job runs) (¬ResolutionError ·) (fun a => value = some a)
      (okOr value message) := by
  refine yields_okOr (fun a ha => ha) fun _ he => h ?_
  simpa using he.begins

lemma yields_ensureServerSourceArtifact (pipeline : PipelineRun) :
    Yields (resolving app pipelineId defs job runs) (¬ResolutionError ·) (fun _ => True)
      (ensureServerSourceArtifact pipeline) := by
  refine Yields.bind yields_any fun existing _ => ?_
  cases existing with
  | some existing => exact Yields.pure trivial
  | none =>
    refine Yields.bind yields_any fun repo _ => ?_
    refine Yields.bind (yields_other (by simp [toString])) fun repo _ => ?_
    refine Yields.bind (yields_other (by simp)) fun commitSha _ => ?_
    refine Yields.bind (P := fun _ => True) ?_ fun _ _ => ?_
    · refine Yields.bind yields_any fun archived _ => ?_
      split
      · exact Yields.pure trivial
      · exact yields_any
    · refine Yields.bind yields_any fun pending _ => ?_
      refine Yields.bind yields_any fun _ _ => ?_
      refine Yields.bind yields_any fun stored _ => ?_
      exact (yields_other (by simp)).mono fun _ _ => trivial

lemma yields_ensureSourceArtifact (pipeline : PipelineRun) (runnerId : String) :
    Yields (resolving app pipelineId defs job runs) (¬ResolutionError ·) (fun _ => True)
      (ensureSourceArtifact pipeline runnerId) := by
  refine Yields.bind (yields_ensureServerSourceArtifact pipeline) fun serverArtifact _ => ?_
  refine Yields.bind yields_any fun bytes _ => ?_
  refine Yields.bind yields_any fun runner _ => ?_
  refine Yields.bind (yields_other (by simp [toString])) fun runner _ => ?_
  exact Yields.bind yields_any fun upload _ => Yields.pure trivial

lemma yields_resolvePromotedArtifact (pipeline : PipelineRun) (jobIndex : ℕ) (runnerId key : String) :
    Yields (resolving app pipelineId defs job runs) (¬ResolutionError ·) (fun _ => True)
      (resolvePromotedArtifact pipeline jobIndex runnerId key) := by
  refine Yields.bind yields_any fun selection _ => ?_
  refine Yields.bind (yields_other (by simp [toString])) fun serverArtifactId _ => ?_
  refine Yields.bind yields_any fun artifact _ => ?_
  refine Yields.bind (yields_other (by simp [toString])) fun artifact _ => ?_
  refine Yields.bind yields_any fun bytes _ => ?_
  refine Yields.bind yields_any fun targetRunner _ => ?_
  refine Yields.bind (yields_other (by simp [toString])) fun targetRunner _ => ?_
  exact Yields.bind yields_any fun upload _ => Yields.pure trivial

variable {inputName outputName : String} {upstreamIndex : ℕ} {upstream : RunnerJobDefinition}

lemma yields_pipelineSnapshot
    (hb : job.inputs.get inputName = some (.jobOutput upstreamIndex outputName))
    (hd : defs[upstreamIndex]? = some upstream) :
    Yields (resolving app pipelineId defs job runs) (¬ResolutionError ·)
      (fun snapshot => ∀ found, snapshot = some found →
        (∃ item ∈ found.jobs, item.run.jobIndex = upstreamIndex) ∧
        (∀ item ∈ found.jobs, item.run.jobIndex = upstreamIndex →
          item.run.id ∈ runs upstreamIndex) ∧
        ∀ id ∈ runs upstreamIndex, ∃ item ∈ found.jobs, item.run.id = id)
      (Db.pipelineSnapshot pipelineId) := by
  refine yields_query (q := .pipelineSnapshot pipelineId) ?_
  rintro s snapshot hi h found rfl
  have hr := hi inputName upstreamIndex outputName upstream hb hd
  refine ⟨?_, fun item hitem hindex => ?_, fun id hid => ?_⟩
  · obtain ⟨run, hrun, hindex⟩ := hr.started
    obtain ⟨item, hitem, rfl⟩ := (pipelineSnapshot_ok h).mpr hrun
    exact ⟨item, hitem, hindex⟩
  · exact hr.all item.run ((pipelineSnapshot_ok h).mp ⟨item, hitem, rfl⟩) hindex
  · obtain ⟨run, hrun, rfl, -⟩ := hr.succeeded id hid
    obtain ⟨item, hitem, rfl⟩ := (pipelineSnapshot_ok h).mpr hrun
    exact ⟨item, hitem, rfl⟩

lemma yields_findJobRunId
    (hb : job.inputs.get inputName = some (.jobOutput upstreamIndex outputName))
    (hd : defs[upstreamIndex]? = some upstream) :
    Yields (resolving app pipelineId defs job runs) (¬ResolutionError ·)
      (fun id => id ∈ runs upstreamIndex) (findJobRunId pipelineId upstreamIndex) := by
  refine Yields.bind (yields_pipelineSnapshot hb hd) fun snapshot hs => ?_
  refine Yields.bind (yields_other (by simp [toString])) fun found hfound => ?_
  obtain ⟨⟨item, hitem, hindex⟩, hall, -⟩ := hs found hfound
  refine yields_okOr (fun id hid => ?_) fun hnone => ?_
  · obtain ⟨item, hfind, rfl⟩ := Option.map_eq_some_iff.mp hid
    exact hall item (List.mem_of_find?_eq_some hfind) (by simpa using List.find?_some hfind)
  · have := List.find?_eq_none.mp (Option.map_eq_none_iff.mp hnone) item hitem
    exact absurd hindex (of_decide_eq_false (Bool.eq_false_iff.mpr this))

lemma yields_pipelineForJobRun {id : Id} (hid : id ∈ runs upstreamIndex)
    (hb : job.inputs.get inputName = some (.jobOutput upstreamIndex outputName))
    (hd : defs[upstreamIndex]? = some upstream) :
    Yields (resolving app pipelineId defs job runs) (¬ResolutionError ·)
      (fun pipeline => ∀ found, pipeline = some found → found.id = pipelineId)
      (Db.pipelineForJobRun id) := by
  refine yields_query (q := .pipelineForJobRun id) ?_
  intro s pipeline hi h found hfound
  obtain ⟨run, hrun, rfl, -⟩ :=
    (hi inputName upstreamIndex outputName upstream hb hd).succeeded id hid
  obtain ⟨hrow, hpipeline⟩ := List.mem_filter.mp hrun
  obtain rfl : s.db.pipelineForJobRun run.id = pipeline := Except.ok.inj h
  simp only [Database.pipelineForJobRun, Table.find?_of_mem hrow, Option.bind_some] at hfound
  exact (Table.key_of_find? hfound).trans (of_decide_eq_true hpipeline)

lemma yields_ensureRunnerHasArtifact {targetRunnerId sourceArtifactId : String} {id : Id}
    (hid : id ∈ runs upstreamIndex)
    (hb : job.inputs.get inputName = some (.jobOutput upstreamIndex outputName))
    (hd : defs[upstreamIndex]? = some upstream) :
    Yields (resolving app pipelineId defs job runs) (¬ResolutionError ·) (fun _ => True)
      (ensureRunnerHasArtifact targetRunnerId sourceArtifactId id) := by
  refine Yields.bind (yields_pipelineForJobRun hid hb hd) fun pipeline hp => ?_
  refine Yields.bind (yields_other (by simp)) fun pipeline hpipeline => ?_
  obtain rfl := hp pipeline hpipeline
  refine Yields.bind (yields_pipelineSnapshot hb hd) fun snapshot hs => ?_
  refine Yields.bind (yields_other (by simp)) fun snapshot hsnapshot => ?_
  obtain ⟨-, -, hall⟩ := hs snapshot hsnapshot
  obtain ⟨item, hitem, hitemId⟩ := hall id hid
  refine Yields.bind (yields_okOr (P := fun _ => True) (fun _ _ => trivial) fun hnone => ?_)
    fun found _ => ?_
  · exact absurd (decide_eq_true hitemId) (List.find?_eq_none.mp hnone item hitem)
  · split
    · exact Yields.pure trivial
    · refine Yields.bind yields_any fun targetRunner _ => ?_
      refine Yields.bind (yields_other (by simp)) fun targetRunner _ => ?_
      refine Yields.bind (yields_other (by simp)) fun serverArtifactId _ => ?_
      refine Yields.bind yields_any fun serverArtifact _ => ?_
      refine Yields.bind (yields_other (by simp)) fun serverArtifact _ => ?_
      refine Yields.bind yields_any fun bytes _ => ?_
      exact Yields.bind yields_any fun upload _ => Yields.pure trivial

lemma yields_jobOutputs {id : Id} (hid : id ∈ runs upstreamIndex)
    (hb : job.inputs.get inputName = some (.jobOutput upstreamIndex outputName))
    (hd : defs[upstreamIndex]? = some upstream) {output : JobOutputDefinition}
    (ho : upstream.outputs.get outputName = some output) :
    Yields (resolving app pipelineId defs job runs) (¬ResolutionError ·)
      (fun outputs => (∃ item ∈ outputs, item.outputName = outputName) ∧
        ∀ item ∈ outputs, item.outputName = outputName → item.kind.asStr = output.kind.asStr)
      (Db.jobOutputs id) := by
  refine yields_query (q := .jobOutputs id) ?_
  rintro s outputs hi h
  obtain rfl : s.db.jobOutputs id = outputs := Except.ok.inj h
  exact (hi inputName upstreamIndex outputName upstream hb hd).reported id hid outputName output ho

lemma yields_resolveJobOutput {pipeline : PipelineRun} {runnerId : String}
    {expectedKind : InputType} {jobIndex : ℕ}
    (hb : job.inputs.get inputName = some (.jobOutput upstreamIndex outputName))
    (hdeclared : Declared defs jobIndex expectedKind upstreamIndex outputName) :
    Yields (resolving app pipeline.id defs job runs) (¬ResolutionError ·) (fun _ => True)
      (resolveJobOutput pipeline runnerId inputName (some expectedKind) upstreamIndex outputName) := by
  obtain ⟨-, upstream, hd, output, ho, hkind⟩ := hdeclared
  refine Yields.bind (yields_findJobRunId hb hd) fun upstreamRunId hid => ?_
  refine Yields.bind (yields_jobOutputs hid hb hd ho) fun outputs hout => ?_
  obtain ⟨⟨item, hitem, hname⟩, hkinds⟩ := hout
  refine Yields.bind (yields_okOr (P := fun item => item.kind.asStr = expectedKind.asStr) ?_ ?_)
    fun item hitem => ?_
  · intro found hfound
    refine (hkinds found (List.mem_of_find?_eq_some hfound) ?_).trans hkind
    simpa using List.find?_some hfound
  · exact fun hnone => absurd (decide_eq_true hname) (List.find?_eq_none.mp hnone item hitem)
  · have hmatch : kindMismatch inputName (some expectedKind) upstreamIndex item = none :=
      if_pos hitem
    rw [hmatch]
    dsimp only
    split
    · refine Yields.bind (yields_other (by simp [toString])) fun sourceArtifactId _ => ?_
      exact Yields.bind (yields_ensureRunnerHasArtifact hid hb hd) fun artifactId _ =>
        Yields.pure trivial
    · exact (yields_other (by simp [toString])).mono fun _ _ => trivial

lemma yields_resolveBindings {pipeline : PipelineRun} {jobIndex : ℕ} {runnerJob : RunnerJobDefinition}
    (hj : definition.jobs[jobIndex]? = some job) (hd : defs[jobIndex]? = some runnerJob)
    (h : ReferencesDeclared definition defs fun _ => True)
    {bindings : List (String × WorkflowInputBinding)}
    (hb : ∀ entry ∈ bindings, entry ∈ job.inputs.entries) (resolved : BTreeMap Value) :
    Yields (resolving app pipeline.id defs job runs) (¬ResolutionError ·) (fun _ => True)
      (resolveBindings pipeline jobIndex job runnerJob bindings resolved) := by
  induction bindings generalizing resolved with
  | nil => exact Yields.pure trivial
  | cons entry bindings ih =>
    obtain ⟨key, binding⟩ := entry
    obtain ⟨hentry, hb⟩ := List.forall_mem_cons.mp hb
    refine Yields.bind (P := fun _ => True) ?_ fun value _ => ih hb _
    cases binding with
    | commit => exact Yields.pure trivial
    | branch => exact Yields.pure trivial
    | sourceArtifact =>
      exact Yields.bind (yields_ensureSourceArtifact _ _) fun _ _ => Yields.pure trivial
    | promotedArtifact => exact yields_resolvePromotedArtifact _ _ _ _
    | jobOutput upstreamIndex outputName =>
      have hget := OrderedMap.get_eq_some_iff.mpr hentry
      obtain ⟨runnerJob', input, hd', hinput, hdeclared⟩ := h jobIndex job key _ _ hj hget trivial
      obtain rfl := Option.some.inj (hd.symm.trans hd')
      rw [hinput]
      exact yields_resolveJobOutput hget hdeclared
    | literal value => exact Yields.pure trivial

/-- Resolving the inputs of the jobs never complains about what their references are to, in any
pipeline in which the jobs that they refer to have succeeded and reported their outputs. -/
def ReferencesResolve (app : AppState) (definition : WorkflowDefinition)
    (defs : List RunnerJobDefinition) : Prop :=
  ∀ (jobIndex : ℕ) (job : WorkflowJobDefinition) (runnerJob : RunnerJobDefinition),
    definition.jobs[jobIndex]? = some job → defs[jobIndex]? = some runnerJob →
    ∀ (pipeline : PipelineRun) (jobRunId : Id) (runs : ℕ → Set Id),
      Yields (resolving app pipeline.id defs job runs) (¬ResolutionError ·) (fun _ => True)
        (resolveJobInputs pipeline jobRunId jobIndex job runnerJob)

lemma references_resolve (h : ReferencesDeclared definition defs fun _ => True) :
    ReferencesResolve app definition defs := by
  intro jobIndex job runnerJob hj hd pipeline jobRunId runs
  refine Yields.bind (yields_resolveBindings hj hd h (fun _ he => he) _) fun resolved _ => ?_
  split <;> exact Yields.pure trivial

end

/-- The references of an accepted workflow are sound, and so resolve, exactly when those are that the
validators skip: the references to an output without a name. -/
theorem accepted_workflows_resolve (app : AppState)
    (h : validateWorkflowRunners jsonText catalog definition = .ok defs) :
    (ReferencesDeclared definition defs fun _ => True) ∧ ReferencesResolve app definition defs ↔
      ReferencesDeclared definition defs fun outputName => outputName.isEmpty = true := by
  constructor
  · exact fun ⟨hdeclared, _⟩ jobIndex job inputName upstreamIndex outputName hj hb _ =>
      hdeclared jobIndex job inputName upstreamIndex outputName hj hb trivial
  · intro hempty
    have hdeclared : ReferencesDeclared definition defs fun _ => True := by
      intro jobIndex job inputName upstreamIndex outputName hj hb _
      cases hname : outputName.isEmpty with
      | true => exact hempty jobIndex job inputName upstreamIndex outputName hj hb hname
      | false => exact references_named h jobIndex job inputName upstreamIndex outputName hj hb hname
    exact ⟨hdeclared, references_resolve hdeclared⟩

def produceSchema : RunnerJobDefinition :=
  { sampleSchema with
    name := "produce", outputs := .ofList [("build_number", ⟨.integer, "number", true⟩)] }

def consumeSchema : RunnerJobDefinition :=
  { sampleSchema with
    name := "consume"
    inputs := .ofList [("build_number", ⟨.integer, false, false, none, none, none⟩)] }

def numberCatalog : RunnerCatalog where
  getRunner id := .ok (if id = "runner" then some "builder" else none)
  listRunnerJobs _ := .ok [consumeSchema, produceSchema]

def produceThenConsume : WorkflowDefinition :=
  ⟨[{ runnerId := "runner", runnerJobName := "produce" },
    { runnerId := "runner", runnerJobName := "consume"
      inputs := .ofList [("build_number", .jobOutput 0 "build_number")] }]⟩

theorem produceThenConsume_resolves :
    (ReferencesDeclared produceThenConsume [produceSchema, consumeSchema] fun _ => True) ∧
      ReferencesResolve sampleApp produceThenConsume [produceSchema, consumeSchema] ↔
    ReferencesDeclared produceThenConsume [produceSchema, consumeSchema]
      fun outputName => outputName.isEmpty = true :=
  have haccepted : validateWorkflowRunners (fun _ => "") numberCatalog produceThenConsume =
      .ok [produceSchema, consumeSchema] :=
    rfl
  accepted_workflows_resolve sampleApp haccepted

def consumeNothing : WorkflowDefinition :=
  ⟨[{ runnerId := "runner", runnerJobName := "consume"
      inputs := .ofList [("build_number", .jobOutput 7 "")] }]⟩

theorem consumeNothing_accepted :
    consumeNothing.validate = .ok () ∧
    validateWorkflowRunners (fun _ => "") numberCatalog consumeNothing = .ok [consumeSchema] ∧
    ¬(ReferencesDeclared consumeNothing [consumeSchema] fun _ => True) ∧
    ¬ReferencesResolve sampleApp consumeNothing [consumeSchema] := by
  refine ⟨rfl, rfl, fun h => ?_, fun h => ?_⟩
  · obtain ⟨-, -, -, -, hlt, -⟩ := h 0 _ "build_number" 7 "" rfl rfl trivial
    exact absurd hlt (by decide)
  · let store : Store :=
      ⟨sampleDatabase 1 (.single samplePipeline) (.single (sampleJob 10 0)) .empty, [], [], {}⟩
    have hsafe := h 0 _ consumeSchema rfl rfl samplePipeline 10 (fun _ => ∅) store store trivial ?_
    · exact hsafe.2 (.ok (some ⟨samplePipeline, [⟨sampleJob 10 0, []⟩]⟩)) store
        ⟨⟨{}, rfl⟩, fun _ he => (nomatch he)⟩ (.missingUpstreamJob 7)
    · intro inputName upstreamIndex outputName upstream hget hupstream
      have hentry : (inputName, WorkflowInputBinding.jobOutput upstreamIndex outputName) ∈
          [("build_number", WorkflowInputBinding.jobOutput 7 "")] :=
        OrderedMap.get_eq_some_iff.mp hget
      obtain ⟨rfl, rfl, rfl⟩ := by simpa using hentry
      exact (nomatch hupstream)

end Janus.Server
