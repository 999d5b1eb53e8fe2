import Janus.Server.Pipelines

/-! What an enqueue does to the tables, whoever runs beside it. -/

namespace Janus.Server

open Janus.Concurrency Janus.Data

def EnqueuePermits (own : Origin → Prop) (db : Database) : Call → Prop
  | .query _ => True
  | .insert (.createPipelineRun _ _ _ _ _ _ origin) => own origin
  | .insert (.addWorkflowRunArtifactSelections _ _) => True
  | .insert (.createJobRun pipelineRunId jobIndex _ _ _) =>
    (∃ p ∈ db.pipelineRuns.rows, p.id = pipelineRunId ∧ own p.origin) ∧
      ∀ K ∈ db.jobRuns.rows, K.pipelineRunId = pipelineRunId → K.jobIndex < jobIndex
  | .insert (.addPreviousJob jobRunId previousJobRunId) =>
    ∃ J ∈ db.jobRuns.rows, ∃ K ∈ db.jobRuns.rows, J.id = jobRunId ∧ K.id = previousJobRunId ∧
      db.OwnJob own J ∧ K.pipelineRunId = J.pipelineRunId ∧ J.jobIndex = K.jobIndex + 1 ∧
      ∀ edge ∈ db.jobRunPrevious.rows, edge.jobRunId ≠ jobRunId
  | _ => False

def Call.isQuery : Call → Prop
  | .query _ => True
  | _ => False

lemma jobSchemaDiff_only (definition : WorkflowDefinition) (snapshot : List RunnerJobDefinition)
    (job : WorkflowJobDefinition) (jobIndex : ℕ) :
    (jobSchemaDiff definition snapshot job jobIndex).Only Call.isQuery := by
  simp only [jobSchemaDiff]
  split
  · exact .pure _
  · refine .bind (Program.Only.request_iff.mpr trivial) fun advertised => ?_
    split <;> exact .pure _

lemma workflowSchemaReport_only (workflow : Workflow) :
    (workflowSchemaReport workflow).Only Call.isQuery := by
  have hdiffs (definition : WorkflowDefinition) (snapshot : List RunnerJobDefinition)
      (jobs : List (WorkflowJobDefinition × ℕ)) :
      (jobSchemaDiffs definition snapshot jobs).Only Call.isQuery := by
    induction jobs with
    | nil => exact .pure _
    | cons job jobs ih =>
      exact .bind (jobSchemaDiff_only _ _ _ _) fun _ => .bind ih fun _ => .pure _
  exact .bind (.done _) fun _ => .bind (Program.Only.request_iff.mpr trivial) fun _ =>
    .bind (hdiffs _ _ _) fun _ => .pure _

structure EnqueueRules (app : AppState) (own : Origin → Prop)
    (D : Discipline Call Call.Result String Store) (A : Store → Prop) : Prop where
  wf : ∀ s, D.inv s → s.db.WellFormed
  leaves : ∀ s s', D.rely s s' → s.db.Leaves own s'.db
  exec : ∀ c s x s', D.admits c s x s' → ∃ o, c.exec app o s = (x, s')
  before : ∀ c s, EnqueuePermits own s.db c → D.inv s → A s → D.before c s
  stable : ∀ s s', A s → D.rely s s' → D.inv s' → A s'
  keeps : ∀ c s x s', EnqueuePermits own s.db c → A s → D.inv s → D.admits c s x s' → A s'

structure Building (own : Origin → Prop) (pipelineId : Id) (n : ℕ) (previous : Option Id)
    (db : Database) : Prop where
  pipeline : ∃ p ∈ db.pipelineRuns.rows, p.id = pipelineId ∧ own p.origin
  jobRuns : ∀ K ∈ db.jobRuns.rows, K.pipelineRunId = pipelineId → K.jobIndex < n
  previous : ∀ k, previous = some k →
    ∃ K ∈ db.jobRuns.rows, K.id = k ∧ K.pipelineRunId = pipelineId ∧ K.jobIndex + 1 = n

structure Linking (own : Origin → Prop) (pipelineId : Id) (n : ℕ) (runId : Id) (previous : Option Id)
    (db : Database) : Prop where
  pipeline : ∃ p ∈ db.pipelineRuns.rows, p.id = pipelineId ∧ own p.origin
  jobRuns : ∀ K ∈ db.jobRuns.rows, K.pipelineRunId = pipelineId → K.jobIndex < n + 1
  job : ∃ J ∈ db.jobRuns.rows, J.id = runId ∧ J.pipelineRunId = pipelineId ∧ J.jobIndex = n
  edges : ∀ edge ∈ db.jobRunPrevious.rows, edge.jobRunId ≠ runId
  previous : ∀ k, previous = some k →
    ∃ K ∈ db.jobRuns.rows, K.id = k ∧ K.pipelineRunId = pipelineId ∧ K.jobIndex + 1 = n

section

variable {own : Origin → Prop} {pipelineId runId : Id} {n : ℕ} {previous : Option Id}
variable {db db' : Database}

lemma Database.Leaves.job (hl : db.Leaves own db') {id : Id} {m : ℕ}
    (h : ∃ K ∈ db.jobRuns.rows, K.id = id ∧ K.pipelineRunId = pipelineId ∧ K.jobIndex = m) :
    ∃ K ∈ db'.jobRuns.rows, K.id = id ∧ K.pipelineRunId = pipelineId ∧ K.jobIndex = m := by
  obtain ⟨K, hK, hid, hp, hi⟩ := h
  obtain ⟨K', hK', hs⟩ := hl.jobRuns K hK
  exact ⟨K', hK', hs.id.trans hid, hs.pipelineRunId.trans hp, hs.jobIndex.trans hi⟩

lemma Database.Leaves.ownPipeline (hl : db.Leaves own db')
    (h : ∃ p ∈ db.pipelineRuns.rows, p.id = pipelineId ∧ own p.origin) :
    ∃ p ∈ db'.pipelineRuns.rows, p.id = pipelineId ∧ own p.origin := by
  obtain ⟨p, hp, hid, ho⟩ := h
  obtain ⟨p', hp', hid', ho'⟩ := hl.pipelineRuns p hp
  exact ⟨p', hp', hid'.trans hid, ho' ▸ ho⟩

lemma Database.Leaves.ownIndices (hl : db.Leaves own db')
    (h : ∃ p ∈ db.pipelineRuns.rows, p.id = pipelineId ∧ own p.origin)
    (hn : ∀ K ∈ db.jobRuns.rows, K.pipelineRunId = pipelineId → K.jobIndex < n) :
    ∀ K ∈ db'.jobRuns.rows, K.pipelineRunId = pipelineId → K.jobIndex < n := by
  obtain ⟨p, hp, rfl, ho⟩ := h
  intro K' hK' hid
  obtain ⟨K, hK, hs⟩ := hl.ownJobs p hp ho K' hK' hid
  exact hs.jobIndex ▸ hn K hK (hs.pipelineRunId ▸ hid)

lemma Building.leaves (h : Building own pipelineId n previous db) (hl : db.Leaves own db') :
    Building own pipelineId n previous db' := by
  refine ⟨hl.ownPipeline h.pipeline, hl.ownIndices h.pipeline h.jobRuns, ?_⟩
  intro k hk
  obtain ⟨K, hK, hid, hp, hi⟩ := h.previous k hk
  obtain ⟨K', hK', hid', hp', hi'⟩ := hl.job ⟨K, hK, hid, hp, rfl⟩
  exact ⟨K', hK', hid', hp', hi' ▸ hi⟩

lemma Linking.leaves (h : Linking own pipelineId n runId previous db) (hl : db.Leaves own db') :
    Linking own pipelineId n runId previous db' := by
  refine ⟨hl.ownPipeline h.pipeline, hl.ownIndices h.pipeline h.jobRuns, hl.job h.job, ?_, ?_⟩
  · intro edge he hid
    obtain ⟨J, hJ, hj, hp, -⟩ := h.job
    obtain ⟨p, hpm, hpid, ho⟩ := h.pipeline
    exact h.edges edge (hl.ownEdges J hJ ⟨p, hpm, hpid.trans hp.symm, ho⟩ edge he (hid.trans hj.symm)) hid
  · intro k hk
    obtain ⟨K, hK, hid, hp, hi⟩ := h.previous k hk
    obtain ⟨K', hK', hid', hp', hi'⟩ := hl.job ⟨K, hK, hid, hp, rfl⟩
    exact ⟨K', hK', hid', hp', hi' ▸ hi⟩

lemma Building.start {id : Id} {now : Timestamp} {repoId workflowId workflowVersionId : Id}
    {triggerType : String} {triggerRef commitSha : Option String} {origin : Origin}
    (wf : db.WellFormed) (horigin : own origin)
    (hrows : db.pipelineRuns.insert? (Database.newPipelineRun id now repoId workflowId
      workflowVersionId triggerType triggerRef commitSha origin) = some db'.pipelineRuns)
    (hj : db'.jobRuns = db.jobRuns) : Building own id 0 none db' := by
  refine ⟨⟨_, Table.rows_insert? hrows ▸ List.mem_append_right _ (List.mem_singleton_self _), rfl,
    horigin⟩, ?_, by simp⟩
  intro K hK hid
  obtain ⟨p, hp, hpid⟩ := wf.pipeline K (hj ▸ hK)
  exact (Table.not_mem_of_insert? hrows hp (hpid.trans hid)).elim

lemma Building.created {id key : Id} {runnerId runnerJobName : String}
    {outcomePolicy : WorkflowJobOutcomePolicy} (h : Building own pipelineId n previous db)
    (wf : db.WellFormed)
    (hrows : db.jobRuns.insert? (Database.newJobRun id key pipelineId n runnerId runnerJobName
      outcomePolicy) = some db'.jobRuns)
    (hp : db'.pipelineRuns = db.pipelineRuns) (he : db'.jobRunPrevious = db.jobRunPrevious) :
    Linking own pipelineId n id previous db' := by
  have hrows' := Table.rows_insert? hrows
  refine ⟨hp ▸ h.pipeline, ?_, ?_, ?_, ?_⟩
  · intro K hK hid
    rw [hrows', List.mem_append, List.mem_singleton] at hK
    rcases hK with hK | rfl
    · exact (h.jobRuns K hK hid).trans (Nat.lt_succ_self n)
    · exact Nat.lt_succ_self n
  · exact ⟨_, hrows' ▸ List.mem_append_right _ (List.mem_singleton_self _), rfl, rfl, rfl⟩
  · intro edge hedge hid
    obtain ⟨J, hJ, K, -, rfl, -⟩ := wf.previous edge (he ▸ hedge)
    exact Table.not_mem_of_insert? hrows hJ hid
  · intro k hk
    obtain ⟨K, hK, hK'⟩ := h.previous k hk
    exact ⟨K, hrows' ▸ List.mem_append_left _ hK, hK'⟩

lemma Linking.linked (h : Linking own pipelineId n runId previous db)
    (hj : db'.jobRuns = db.jobRuns) (hp : db'.pipelineRuns = db.pipelineRuns) :
    Building own pipelineId (n + 1) (some runId) db' := by
  refine ⟨hp ▸ h.pipeline, hj ▸ h.jobRuns, ?_⟩
  rintro k hk
  cases hk
  obtain ⟨J, hJ, hid, hpid, hi⟩ := h.job
  exact ⟨J, hj ▸ hJ, hid, hpid, by omega⟩

end

section

variable {app : AppState} {own : Origin → Prop} {D : Discipline Call Call.Result String Store}
variable {A : Store → Prop} {s : Store}

lemma EnqueueRules.stable_building (rules : EnqueueRules app own D A) {pipelineId : Id} {n : ℕ}
    {previous : Option Id} (s s' : Store)
    (h : A s ∧ Building own pipelineId n previous s.db) (hr : D.rely s s') (hi : D.inv s') :
    A s' ∧ Building own pipelineId n previous s'.db :=
  ⟨rules.stable s s' h.1 hr hi, h.2.leaves (rules.leaves s s' hr)⟩

lemma linkPreviousJob_safe (rules : EnqueueRules app own D A) {pipelineId runId : Id} {n : ℕ}
    {previous : Option Id} (hA : A s) (hs : Linking own pipelineId n runId previous s.db) :
    Safe D (onOk (β := Unit) (fun _ s' => A s') fun _ s' =>
        A s' ∧ Building own pipelineId (n + 1) (some runId) s'.db)
      (linkPreviousJob runId previous) s := by
  cases previous with
  | none => exact ⟨hA, hs.linked rfl rfl⟩
  | some k =>
    refine Safe.request (P := fun s => A s ∧ Linking own pipelineId n runId (some k) s.db) ⟨hA, hs⟩
      (fun s s' h hr hi => ⟨rules.stable s s' h.1 hr hi, h.2.leaves (rules.leaves s s' hr)⟩) ?_
    intro s' ⟨hA', hs'⟩ hi
    have hpermit : EnqueuePermits own s'.db (.insert (.addPreviousJob runId k)) := by
      obtain ⟨J, hJ, hid, hp, hn⟩ := hs'.job
      obtain ⟨K, hK, hkid, hkp, hkn⟩ := hs'.previous k rfl
      obtain ⟨p, hpm, hpid, ho⟩ := hs'.pipeline
      exact ⟨J, hJ, K, hK, hid, hkid, ⟨p, hpm, hpid.trans hp.symm, ho⟩, hkp.trans hp.symm,
        hn.trans hkn.symm, hs'.edges⟩
    refine ⟨rules.before _ s' hpermit hi hA', fun x s'' ha => ?_⟩
    have hA'' := rules.keeps _ s' x s'' hpermit hA' hi ha
    obtain ⟨o, ho⟩ := rules.exec _ _ _ _ ha
    cases exec_effect ho with
    | untouched _ failed =>
      obtain ⟨e, rfl⟩ := failed rfl
      exact hA''
    | addPreviousJob _ _ _ _ jobRuns pipelineRuns _ answer =>
      subst answer
      exact ⟨hA'', hs'.linked jobRuns pipelineRuns⟩

lemma createJobRuns_safe (rules : EnqueueRules app own D A) {pipelineId : Id}
    (jobs : List WorkflowJobDefinition) {n : ℕ} {previous : Option Id} (hA : A s)
    (hs : Building own pipelineId n previous s.db) :
    Safe D (fun _ s' => A s') (createJobRuns pipelineId (jobs.zipIdx n) previous) s := by
  induction jobs generalizing n previous s with
  | nil => exact hA
  | cons job jobs ih =>
    refine Safe.bind (Safe.request (P := fun s => A s ∧ Building own pipelineId n previous s.db)
      ⟨hA, hs⟩ rules.stable_building ?_)
    intro s' ⟨hA', hs'⟩ hi
    have hpermit : EnqueuePermits own s'.db (.insert (.createJobRun pipelineId n job.runnerId
        job.runnerJobName job.outcomePolicy)) :=
      ⟨hs'.pipeline, hs'.jobRuns⟩
    refine ⟨rules.before _ s' hpermit hi hA', fun x s'' ha => ?_⟩
    have hA'' := rules.keeps _ s' x s'' hpermit hA' hi ha
    obtain ⟨o, ho⟩ := rules.exec _ _ _ _ ha
    cases exec_effect ho with
    | untouched _ failed =>
      obtain ⟨e, rfl⟩ := failed rfl
      exact hA''
    | createJobRun _ _ _ _ _ id key _ _ jobRuns pipelineRuns edges answer =>
      have hlink := hs'.created (rules.wf s' hi) jobRuns pipelineRuns edges
      rcases answer with rfl | ⟨e, rfl⟩
      · refine Safe.bind (Safe.mono ?_ (linkPreviousJob_safe rules hA'' hlink))
        intro r t hr
        cases r with
        | ok u => exact ih hr.1 hr.2
        | error e => exact hr
      · exact hA''

lemma createPipeline_safe (rules : EnqueueRules app own D A) (workflow : Workflow)
    (triggerType : String) (triggerRef commitSha : Option String)
    (selections : List WorkflowRunArtifactSelection) {origin : Origin} (horigin : own origin)
    (jobs : List WorkflowJobDefinition) (hA : A s) :
    Safe D (fun _ s' => A s') (do
      let pipelineId ← Db.createPipelineRun workflow.repoId workflow.id workflow.versionId triggerType
        triggerRef commitSha origin
      Db.addWorkflowRunArtifactSelections pipelineId selections
      createJobRuns pipelineId jobs.zipIdx none
      pure pipelineId) s := by
  refine Safe.bind (Safe.request hA rules.stable ?_)
  intro s₁ hA₁ hi₁
  refine ⟨rules.before _ s₁ horigin hi₁ hA₁, fun x s₂ ha₁ => ?_⟩
  have hA₂ := rules.keeps _ s₁ x s₂ horigin hA₁ hi₁ ha₁
  obtain ⟨o, ho⟩ := rules.exec _ _ _ _ ha₁
  cases exec_effect ho with
  | untouched _ failed =>
    obtain ⟨e, rfl⟩ := failed rfl
    exact hA₂
  | createPipelineRun _ _ _ _ _ _ _ pipelineId now jobRuns pipelineRuns _ answer =>
    subst answer
    have hstart := Building.start (rules.wf s₁ hi₁) horigin pipelineRuns jobRuns
    refine Safe.bind (Safe.request (P := fun s => A s ∧ Building own pipelineId 0 none s.db)
      ⟨hA₂, hstart⟩ rules.stable_building ?_)
    intro s₃ ⟨hA₃, hs₃⟩ hi₃
    refine ⟨rules.before _ s₃ trivial hi₃ hA₃, fun x s₄ ha₃ => ?_⟩
    have hA₄ := rules.keeps _ s₃ x s₄ trivial hA₃ hi₃ ha₃
    cases x with
    | error e => exact hA₄
    | ok u =>
      obtain ⟨o, ho⟩ := rules.exec _ _ _ _ ha₃
      have hs₄ : Building own pipelineId 0 none s₄.db := by
        cases exec_effect ho with
        | untouched tables _ =>
          exact ⟨tables.pipelineRuns ▸ hs₃.pipeline, tables.jobRuns ▸ hs₃.jobRuns,
            tables.jobRuns ▸ hs₃.previous⟩
      refine Safe.bind (Safe.mono ?_ (createJobRuns_safe rules jobs hA₄ hs₄))
      intro r s₅ hA₅
      cases r <;> exact hA₅

theorem enqueue_safe (rules : EnqueueRules app own D A) (workflow : Workflow) (triggerType : String)
    (triggerRef commitSha : Option String) (selections : List WorkflowRunArtifactSelection)
    {origin : Origin} (horigin : own origin) (hA : A s) :
    Safe D (fun _ s' => A s') (enqueueWorkflowRunWithArtifacts workflow triggerType triggerRef
      commitSha selections origin) s := by
  refine Safe.bind (Safe.mono ?_ (Safe.of_only (Q := Call.isQuery) (A := A) rules.stable ?_ ?_
    (workflowSchemaReport_only workflow) hA))
  · intro r s₁ hA₁
    cases r with
    | error e => exact hA₁
    | ok report =>
      simp only [onOk_ok]
      split
      · exact hA₁
      · cases workflow.definitionJson with
        | error e => exact hA₁
        | ok definition =>
          refine Safe.bind ?_
          change Safe D _ (fromStr definition.validate >>= _) s₁
          cases hv : definition.validate with
          | error e => exact hA₁
          | ok u =>
            exact createPipeline_safe rules workflow triggerType triggerRef commitSha selections
              horigin definition.jobs hA₁
  · intro c s hc hA hi
    cases c with
    | query q => exact rules.before _ s trivial hi hA
    | _ => cases hc
  · intro c s x s' hc hA hi ha
    cases c with
    | query q => exact rules.keeps _ s x s' trivial hA hi ha
    | _ => cases hc

end

end Janus.Server
