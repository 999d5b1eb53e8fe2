import Janus.Concurrency.Chronicle
import Janus.Web.Disciplines
import Janus.Web.Versions

/-! The artifacts that are selected for the runs of workflows: what they are selected from, and what
calls make of the stored selections. -/

namespace Janus.Server

open Janus.Concurrency Janus.Data

def Database.selectionsOf (db : Database) (pipelineId : Id) : List WorkflowRunArtifactSelection :=
  (db.workflowRunArtifactInputs.rows.filter (·.pipelineRunId = pipelineId)).map
    ArtifactInput.selection

section

variable {app : AppState} {o : Outcome} {s s' : Store} {db : Database} {pipelineId : Id}

lemma workflowRunArtifactSelections_perm :
    (db.workflowRunArtifactSelections pipelineId).Perm (db.selectionsOf pipelineId) :=
  (List.perm_insertionSort _ _).trans (List.perm_insertionSort _ _)

lemma workflowRunArtifactSelection_of_mem {selection : WorkflowRunArtifactSelection}
    (h : selection ∈ db.selectionsOf pipelineId) :
    db.workflowRunArtifactSelection pipelineId selection.jobIndex selection.inputName =
      some selection.serverArtifactId := by
  obtain ⟨row, hrow, rfl⟩ := List.mem_map.mp h
  obtain ⟨hmem, hid⟩ := List.mem_filter.mp hrow
  obtain rfl : row.pipelineRunId = pipelineId := by simpa using hid
  have hfind := Table.find?_of_mem hmem
  exact congrArg (Option.map (·.serverArtifactId)) hfind

inductive Call.SelectionEffect (db db' : Database) : (c : Call) → Except String c.Result → Prop
  | stored (pipelineId : Id) (selections : List WorkflowRunArtifactSelection) {x : Except String Unit}
      (answer : x = .ok ()) (rows : db'.workflowRunArtifactInputs.rows =
        db.workflowRunArtifactInputs.rows ++
          selections.map (WorkflowRunArtifactSelection.input pipelineId)) :
      SelectionEffect db db' (.insert (.addWorkflowRunArtifactSelections pipelineId selections)) x
  | kept {c : Call} {x : Except String c.Result}
      (inputs : db'.workflowRunArtifactInputs = db.workflowRunArtifactInputs)
      (failed : ∀ pipelineId selections,
        c = .insert (.addWorkflowRunArtifactSelections pipelineId selections) → ∃ e, x = .error e) :
      SelectionEffect db db' c x

lemma exec_selections {c : Call} {x : Except String c.Result} (h : c.exec app o s = (x, s')) :
    Call.SelectionEffect s.db s'.db c x := by
  by_cases hc : c.keepsTriggers
  · refine .kept (exec_triggers hc h).selections ?_
    rintro pipelineId selections rfl
    exact hc.elim
  · rcases exec_cases h with ⟨rfl, e, rfl⟩ | h
    · exact .kept rfl fun _ _ _ => ⟨e, rfl⟩
    · cases c with
      | markPushEventProcessed id =>
        cases h
        exact .kept rfl nofun
      | insert i =>
        cases i with
        | addWorkflowRunArtifactSelections pipelineId selections =>
          simp only [Call.perform, Insertion.exec] at h
          split at h
          · next db' hdb =>
            cases h
            exact .stored pipelineId selections rfl (addSelections_eq hdb).2
          · next e hdb =>
            cases h
            exact .kept rfl fun _ _ _ => ⟨e, rfl⟩
        | _ => exact (hc trivial).elim
      | _ => exact (hc trivial).elim

end

structure PipelineRun.SameOrigin (P P' : PipelineRun) : Prop where
  id : P'.id = P.id
  repo : P'.repoId = P.repoId
  version : P'.workflowVersionId = P.workflowVersionId
  origin : P'.origin = P.origin

lemma PipelineRun.SameOrigin.rfl {P : PipelineRun} : P.SameOrigin P :=
  ⟨.refl _, .refl _, .refl _, .refl _⟩

lemma PipelineRun.SameOrigin.trans {P P' P'' : PipelineRun} (h : P.SameOrigin P')
    (h' : P'.SameOrigin P'') : P.SameOrigin P'' :=
  ⟨h'.id.trans h.id, h'.repo.trans h.repo, h'.version.trans h.version, h'.origin.trans h.origin⟩

lemma PipelineUpdate.row_sameOrigin (db : Database) (now : Timestamp) (id : Id) (u : PipelineUpdate)
    (P : PipelineRun) : P.SameOrigin (u.row db now id P) :=
  ⟨u.row_id db now id P, by cases u <;> rfl, u.row_version db now id P, by cases u <;> rfl⟩

structure Database.Promotes (db : Database) (repoId : Id) (runnerId jobName outputName : String)
    (artifactId : Id) (row : Id × JobRunOutput) (job : JobRun) (pipeline : PipelineRun) : Prop where
  storedOutput : row ∈ db.jobRunArtifacts
  storedJob : job ∈ db.jobRuns.rows
  storedPipeline : pipeline ∈ db.pipelineRuns.rows
  outputJob : row.1 = job.id
  jobPipeline : job.pipelineRunId = pipeline.id
  repo : pipeline.repoId = repoId
  succeeded : pipeline.status = .success ∧ job.status = .success
  producer : job.runnerId = runnerId ∧ job.runnerJobName = jobName
  outputName : row.2.outputName = outputName
  kind : row.2.kind = .artifact
  artifact : row.2.serverArtifactId = some artifactId

lemma promotes_of_listed {db : Database} {repoId : Id} {runnerId jobName outputName : String}
    {limit : ℕ} {artifact : PromotableArtifact}
    (h : artifact ∈ db.listRecentPromotableArtifacts repoId runnerId jobName outputName limit) :
    ∃ row job pipeline,
      db.Promotes repoId runnerId jobName outputName artifact.serverArtifactId row job pipeline := by
  have hmem := List.mem_of_mem_take h
  obtain ⟨⟨recency, artifact⟩, hsorted, rfl⟩ := List.mem_map.mp hmem
  rw [List.mem_insertionSort, List.mem_filterMap] at hsorted
  obtain ⟨row, hrow, hjoin⟩ := hsorted
  simp only [Database.promotableArtifact, Option.bind_eq_bind, Option.bind_eq_some_iff] at hjoin
  obtain ⟨stored, ⟨artifactId, hartifact, hstored⟩, job, hjob, pipeline, hpipeline, -, -, -, -, hif⟩ :=
    hjoin
  split at hif
  · next hwhere =>
    obtain ⟨hrepo, hpsuccess, hjsuccess, hrunner, hname, houtput, hkind⟩ := hwhere
    obtain ⟨-, rfl⟩ := Prod.mk.inj (Option.some.inj hif)
    refine ⟨row, job, pipeline, hrow, Table.mem_of_find? hjob, Table.mem_of_find? hpipeline,
      (Table.key_of_find? hjob).symm, (Table.key_of_find? hpipeline).symm, hrepo, ⟨hpsuccess, hjsuccess⟩,
      ⟨hrunner, hname⟩, houtput, hkind, ?_⟩
    rw [Table.key_of_find? hstored]
    exact hartifact
  · cases hif

end Janus.Server

namespace Janus.Web

open Janus.Concurrency Janus.Data Janus.Server

structure Chosen (past : Site → Prop) (repoId : Id) (requirement : ManualArtifactRequirement)
    (selection : WorkflowRunArtifactSelection) : Prop where
  jobIndex : selection.jobIndex = requirement.jobIndex
  inputName : selection.inputName = requirement.inputName
  promoted : ∃ s, past s ∧ ∃ row job pipeline, s.db.Promotes repoId requirement.sourceRunnerId
    requirement.sourceJobName requirement.outputName selection.serverArtifactId row job pipeline

namespace Annals

variable (x : Annals)

def Defines (versionId : Id) (repoId : Id) (definition : WorkflowDefinition) : Prop :=
  ∃ V ∈ x.1.db.workflowVersions.rows, V.id = versionId ∧ V.definitionJson = .ok definition ∧
    ∃ W ∈ x.1.db.workflows.rows, W.id = V.workflowId ∧ W.repoId = repoId

def Complete (repoId versionId : Id) (selections : List WorkflowRunArtifactSelection) : Prop :=
  ∃ definition, x.Defines versionId repoId definition ∧
    List.Forall₂ (Chosen (· ∈ x.2) repoId) (manualArtifactRequirements definition) selections

def Sourced (repoId versionId : Id) (selections : List WorkflowRunArtifactSelection) : Origin → Prop
  | .push _ _ => selections = []
  | .request _ => x.Complete repoId versionId selections
  | .rerun original _ => ∃ P ∈ x.1.db.pipelineRuns.rows, P.id = original ∧
    P.workflowVersionId = versionId ∧ P.id ∉ x.1.unsettled ∧
    selections.Perm (x.1.db.selectionsOf original)

structure Kept : Prop where
  versioned : x.1.db.Versioned
  stored : ∀ row ∈ x.1.db.workflowRunArtifactInputs.rows, ∃ P ∈ x.1.db.pipelineRuns.rows,
    P.id = row.pipelineRunId
  unsettled : ∀ id ∈ x.1.unsettled, x.1.db.selectionsOf id = []
  settled : ∀ P ∈ x.1.db.pipelineRuns.rows, P.id ∉ x.1.unsettled →
    x.Sourced P.repoId P.workflowVersionId (x.1.db.selectionsOf P.id) P.origin

structure Carries (own : Origin → Prop) (x x' : Annals) : Prop where
  past : ∀ s ∈ x.2, s ∈ x'.2
  pipelines : ∀ P ∈ x.1.db.pipelineRuns.rows, ∃ P' ∈ x'.1.db.pipelineRuns.rows, P.SameOrigin P'
  versions : ∀ V ∈ x.1.db.workflowVersions.rows, V ∈ x'.1.db.workflowVersions.rows
  workflows : ∀ W ∈ x.1.db.workflows.rows, ∃ W' ∈ x'.1.db.workflows.rows,
    W'.id = W.id ∧ W'.repoId = W.repoId
  settled : ∀ P ∈ x.1.db.pipelineRuns.rows, P.id ∉ x.1.unsettled →
    P.id ∉ x'.1.unsettled ∧ x'.1.db.selectionsOf P.id = x.1.db.selectionsOf P.id
  owned : ∀ P ∈ x.1.db.pipelineRuns.rows, own P.origin → P.id ∈ x.1.unsettled → P.id ∈ x'.1.unsettled

def Allows (own : Origin → Prop) : SiteCall → Prop
  | .server (.insert (.addWorkflowRunArtifactSelections pipelineId selections)) =>
    ∃ P ∈ x.1.db.pipelineRuns.rows, P.id = pipelineId ∧
      ((∃ eventId refIndex, P.origin = .push eventId refIndex) ∧ selections = [] ∨
        own P.origin ∧ P.id ∈ x.1.unsettled ∧
          x.Sourced P.repoId P.workflowVersionId selections P.origin)
  | _ => True

end Annals

section

variable {x x' x'' : Annals} {own own' : Origin → Prop} {repoId versionId : Id}
variable {selections : List WorkflowRunArtifactSelection}

lemma Annals.Carries.rfl : x.Carries own x :=
  ⟨fun _ h => h, fun P hP => ⟨P, hP, .rfl⟩, fun _ h => h, fun W hW => ⟨W, hW, .refl _, .refl _⟩,
    fun _ _ h => ⟨h, .refl _⟩, fun _ _ _ h => h⟩

lemma Annals.Carries.trans (h : x.Carries own x') (h' : x'.Carries own x'') : x.Carries own x'' := by
  refine ⟨fun s hs => h'.past s (h.past s hs), fun P hP => ?_, fun V hV => h'.versions V (h.versions V hV),
    fun W hW => ?_, fun P hP hset => ?_, fun P hP hown hun => ?_⟩
  · obtain ⟨P', hP', hsame⟩ := h.pipelines P hP
    obtain ⟨P'', hP'', hsame'⟩ := h'.pipelines P' hP'
    exact ⟨P'', hP'', hsame.trans hsame'⟩
  · obtain ⟨W', hW', hid, hrepo⟩ := h.workflows W hW
    obtain ⟨W'', hW'', hid', hrepo'⟩ := h'.workflows W' hW'
    exact ⟨W'', hW'', hid'.trans hid, hrepo'.trans hrepo⟩
  · obtain ⟨P', hP', hsame⟩ := h.pipelines P hP
    obtain ⟨hset', hsel⟩ := h.settled P hP hset
    obtain ⟨hset'', hsel'⟩ := h'.settled P' hP' (hsame.id ▸ hset')
    rw [hsame.id] at hset'' hsel'
    exact ⟨hset'', hsel'.trans hsel⟩
  · obtain ⟨P', hP', hsame⟩ := h.pipelines P hP
    have hun' := h'.owned P' hP' (hsame.origin ▸ hown) (hsame.id ▸ h.owned P hP hown hun)
    exact hsame.id ▸ hun'

lemma Chosen.mono {requirement : ManualArtifactRequirement}
    {selection : WorkflowRunArtifactSelection} {past past' : Site → Prop}
    (h : Chosen past repoId requirement selection) (hpast : ∀ s, past s → past' s) :
    Chosen past' repoId requirement selection := by
  obtain ⟨s, hs, hpromoted⟩ := h.promoted
  exact ⟨h.jobIndex, h.inputName, s, hpast s hs, hpromoted⟩

lemma Annals.Defines.carries {definition : WorkflowDefinition}
    (h : x.Defines versionId repoId definition) (hc : x.Carries own x') :
    x'.Defines versionId repoId definition := by
  obtain ⟨V, hV, hid, hdef, W, hW, hWid, hrepo⟩ := h
  obtain ⟨W', hW', hWid', hrepo'⟩ := hc.workflows W hW
  exact ⟨V, hc.versions V hV, hid, hdef, W', hW', hWid'.trans hWid, hrepo'.trans hrepo⟩

lemma Annals.Complete.carries (h : x.Complete repoId versionId selections) (hc : x.Carries own x') :
    x'.Complete repoId versionId selections := by
  obtain ⟨definition, hdefines, hchosen⟩ := h
  exact ⟨definition, hdefines.carries hc, hchosen.imp fun _ _ h => h.mono hc.past⟩

lemma Annals.Sourced.carries {origin : Origin} (h : x.Sourced repoId versionId selections origin)
    (hc : x.Carries own x') : x'.Sourced repoId versionId selections origin := by
  cases origin with
  | push eventId refIndex => exact h
  | request number => exact Annals.Complete.carries h hc
  | rerun original number =>
    obtain ⟨P, hP, rfl, hversion, hset, hperm⟩ := h
    obtain ⟨P', hP', hsame⟩ := hc.pipelines P hP
    obtain ⟨hset', hsel⟩ := hc.settled P hP hset
    exact ⟨P', hP', hsame.id, hsame.version.trans hversion, hsame.id ▸ hset', hsel ▸ hperm⟩

lemma Annals.Kept.empty (h : x.Kept) {id : Id} (hid : ∀ P ∈ x.1.db.pipelineRuns.rows, P.id ≠ id) :
    x.1.db.selectionsOf id = [] := by
  rw [Database.selectionsOf, List.filter_eq_nil_iff.mpr, List.map_nil]
  intro row hrow
  obtain ⟨P, hP, hPid⟩ := h.stored row hrow
  simpa [← hPid] using hid P hP

end

inductive Annals.Step (x x' : Annals) : SiteCall → Prop
  | select (pipelineId : Id) (selections : List WorkflowRunArtifactSelection)
      (pipelineRuns : x'.1.db.pipelineRuns = x.1.db.pipelineRuns)
      (rows : x'.1.db.workflowRunArtifactInputs.rows = x.1.db.workflowRunArtifactInputs.rows ++
        selections.map (WorkflowRunArtifactSelection.input pipelineId))
      (unsettled : x'.1.unsettled = x.1.unsettled.filter fun id => id ≠ pipelineId) :
      Step x x' (.server (.insert (.addWorkflowRunArtifactSelections pipelineId selections)))
  | create (P : PipelineRun)
      (pipelineRuns : x.1.db.pipelineRuns.insert? P = some x'.1.db.pipelineRuns)
      (inputs : x'.1.db.workflowRunArtifactInputs = x.1.db.workflowRunArtifactInputs)
      (unsettled : x'.1.unsettled = P.id :: x.1.unsettled) {c : SiteCall} : Step x x' c
  | other (fwd : ∀ P ∈ x.1.db.pipelineRuns.rows, ∃ P' ∈ x'.1.db.pipelineRuns.rows, P.SameOrigin P')
      (bwd : ∀ P' ∈ x'.1.db.pipelineRuns.rows, ∃ P ∈ x.1.db.pipelineRuns.rows, P.SameOrigin P')
      (inputs : x'.1.db.workflowRunArtifactInputs = x.1.db.workflowRunArtifactInputs)
      (unsettled : x'.1.unsettled = x.1.unsettled) {c : SiteCall} : Step x x' c

section

variable {app : AppState} {o : SiteOutcome} {x x' : Annals}

lemma Annals.Step.of_pipelineRuns {c : SiteCall}
    (hpipelines : x'.1.db.pipelineRuns = x.1.db.pipelineRuns)
    (inputs : x'.1.db.workflowRunArtifactInputs = x.1.db.workflowRunArtifactInputs)
    (unsettled : x'.1.unsettled = x.1.unsettled) : Annals.Step x x' c :=
  .other (fun P hP => ⟨P, hpipelines ▸ hP, .rfl⟩) (fun P hP => ⟨P, hpipelines ▸ hP, .rfl⟩) inputs
    unsettled

lemma unsettledAfter_of_failed {unsettled : List Id} {c : Call} {e : String} :
    unsettledAfter unsettled c (.error e) = unsettled := by
  cases c with
  | insert i => cases i <;> rfl
  | _ => rfl

lemma server_step {c : Call} {a : Except String c.Result}
    (h : c.exec app o.toOutcome x.1.toStore = (a, x'.1.toStore))
    (hunsettled : x'.1.unsettled = unsettledAfter x.1.unsettled c a) :
    Annals.Step x x' (.server c) := by
  cases exec_selections h with
  | stored pipelineId selections answer rows =>
    subst answer
    cases exec_effect h with
    | untouched tables _ => exact .select pipelineId selections tables.pipelineRuns rows hunsettled
  | kept inputs failed =>
    cases exec_effect h with
    | untouched tables refused =>
      refine .of_pipelineRuns tables.pipelineRuns inputs (hunsettled.trans ?_)
      have herror (he : ∃ e, a = .error e) : unsettledAfter x.1.unsettled c a = x.1.unsettled := by
        obtain ⟨e, rfl⟩ := he
        exact unsettledAfter_of_failed
      cases c with
      | insert i =>
        cases i with
        | createPipelineRun _ _ _ _ _ _ _ => exact herror (refused rfl)
        | addWorkflowRunArtifactSelections pipelineId selections => exact herror (failed _ _ rfl)
        | _ => rfl
      | _ => rfl
    | jobRun _ _ _ _ _ pipelineRuns _ => exact .of_pipelineRuns pipelineRuns inputs hunsettled
    | pipelineRun id u now _ pipelineRuns _ =>
      refine .other (fun P hP => ?_) (fun P' hP' => ?_) inputs hunsettled
      · rw [pipelineRuns]
        by_cases hid : P.id = id
        · exact ⟨_, Table.mem_modify.mpr ⟨P, hP, .inl ⟨hid, rfl⟩⟩, u.row_sameOrigin _ now id P⟩
        · exact ⟨P, Table.mem_modify.mpr ⟨P, hP, .inr ⟨hid, rfl⟩⟩, .rfl⟩
      · rw [pipelineRuns, Table.mem_modify] at hP'
        obtain ⟨P, hP, ⟨-, rfl⟩ | ⟨-, rfl⟩⟩ := hP'
        · exact ⟨P, hP, u.row_sameOrigin _ now id P⟩
        · exact ⟨_, hP, .rfl⟩
    | createPipelineRun _ _ _ _ _ _ _ id now _ pipelineRuns _ answer =>
      subst answer
      exact .create _ pipelineRuns inputs hunsettled
    | createJobRun _ _ _ _ _ _ _ _ _ _ pipelineRuns _ _ =>
      exact .of_pipelineRuns pipelineRuns inputs hunsettled
    | addPreviousJob _ _ _ _ _ pipelineRuns _ _ => exact .of_pipelineRuns pipelineRuns inputs hunsettled

lemma WebUpdate.Writes.workflows {u : WebUpdate} {db db' : Database} (h : u.Writes o db db') :
    ∀ W ∈ db.workflows.rows, ∃ W' ∈ db'.workflows.rows, W'.id = W.id ∧ W'.repoId = W.repoId := by
  have hkept (he : db'.workflows = db.workflows) :
      ∀ W ∈ db.workflows.rows, ∃ W' ∈ db'.workflows.rows, W'.id = W.id ∧ W'.repoId = W.repoId :=
    fun W hW => ⟨W, he ▸ hW, rfl, rfl⟩
  cases h with
  | updateRunner _ _ _ _ _ frame => exact hkept (by rw [frame])
  | createWorkflow _ _ _ _ _ _ workflows _ rows _ =>
    intro W hW
    refine ⟨W, ?_, rfl, rfl⟩
    rw [Table.rows_insert? rows]
    exact List.mem_append_left _ hW
  | updateWorkflow workflowId name enabled _ _ _ _ _ _ =>
    intro W hW
    by_cases hid : W.id = workflowId
    · refine ⟨{ W with name, enabled }, ?_, rfl, rfl⟩
      rw [Table.mem_modify]
      exact ⟨W, hW, .inl ⟨hid, rfl⟩⟩
    · refine ⟨W, ?_, rfl, rfl⟩
      rw [Table.mem_modify]
      exact ⟨W, hW, .inr ⟨hid, rfl⟩⟩
  | _ => exact hkept rfl

lemma site_exec_workflows {s s' : Site} {c : SiteCall} {a : Except String c.Result}
    (h : c.exec app o s = (a, s')) :
    ∀ W ∈ s.db.workflows.rows, ∃ W' ∈ s'.db.workflows.rows, W'.id = W.id ∧ W'.repoId = W.repoId := by
  cases site_effect h with
  | server c exec _ =>
    rw [(exec_config exec).workflows]
    exact fun W hW => ⟨W, hW, rfl, rfl⟩
  | update u a _ writes _ => exact writes.workflows
  | kept db _ _ =>
    rw [db]
    exact fun W hW => ⟨W, hW, rfl, rfl⟩

theorem annals_step {c : SiteCall} {a : Except String c.Result}
    (h : c.exec app o x.1 = (a, x'.1)) : Annals.Step x x' c := by
  cases site_effect h with
  | server c exec unsettled => exact server_step exec unsettled
  | update u a _ writes unsettled =>
    exact .of_pipelineRuns writes.pipelines.1 writes.pipelines.2 unsettled
  | kept db unsettled _ => exact .of_pipelineRuns (by rw [db]) (by rw [db]) unsettled

end

section

variable {app : AppState} {o : SiteOutcome} {x x' : Annals} {own own' : Origin → Prop}

lemma selectionsOf_congr {db db' : Database} (h : db'.workflowRunArtifactInputs = db.workflowRunArtifactInputs)
    (id : Id) : db'.selectionsOf id = db.selectionsOf id := by
  rw [Database.selectionsOf, Database.selectionsOf, h]

lemma selectionsOf_append {db db' : Database} {pipelineId : Id}
    {selections : List WorkflowRunArtifactSelection}
    (h : db'.workflowRunArtifactInputs.rows = db.workflowRunArtifactInputs.rows ++
      selections.map (WorkflowRunArtifactSelection.input pipelineId)) (id : Id) :
    db'.selectionsOf id = db.selectionsOf id ++ if pipelineId = id then selections else [] := by
  rw [Database.selectionsOf, Database.selectionsOf, h, List.filter_append, List.map_append]
  congr 1
  by_cases hid : pipelineId = id
  · rw [if_pos hid, List.filter_eq_self.mpr, List.map_map]
    · exact List.map_id _
    · intro row hrow
      obtain ⟨selection, -, rfl⟩ := List.mem_map.mp hrow
      exact decide_eq_true hid
  · rw [if_neg hid, List.filter_eq_nil_iff.mpr, List.map_nil]
    intro row hrow
    obtain ⟨selection, -, rfl⟩ := List.mem_map.mp hrow
    exact fun he => hid (of_decide_eq_true he)

theorem carries_exec {c : SiteCall} {a : Except String c.Result} (hallows : x.Allows own c)
    (hdisjoint : ∀ origin, own origin → ¬ own' origin)
    (hpush : ∀ eventId refIndex, ¬ own' (.push eventId refIndex))
    (hpast : x'.2 = x.1 :: x.2) (h : c.exec app o x.1 = (a, x'.1)) : x.Carries own' x' := by
  have hretains := site_exec_retains h
  refine ⟨fun s hs => hpast ▸ List.mem_cons_of_mem _ hs, ?_, hretains.workflowVersions,
    site_exec_workflows h, ?_, ?_⟩
  · cases annals_step h with
    | select _ _ pipelineRuns _ _ => exact fun P hP => ⟨P, pipelineRuns ▸ hP, .rfl⟩
    | create _ pipelineRuns _ _ =>
      rw [Table.rows_insert? pipelineRuns]
      exact fun P hP => ⟨P, List.mem_append_left _ hP, .rfl⟩
    | other fwd _ _ _ => exact fwd
  · intro P hP hset
    cases annals_step h with
    | select pipelineId selections _ rows unsettled =>
      refine ⟨fun hmem => hset (List.mem_of_mem_filter (unsettled ▸ hmem)), ?_⟩
      obtain ⟨P₀, hP₀, rfl, ⟨-, rfl⟩ | ⟨-, hun, -⟩⟩ := hallows
      · rw [selectionsOf_append rows, ite_self, List.append_nil]
      · rw [selectionsOf_append rows, if_neg fun he : P₀.id = P.id => hset (he ▸ hun),
          List.append_nil]
    | create P₀ pipelineRuns inputs unsettled =>
      refine ⟨fun hmem => ?_, selectionsOf_congr inputs _⟩
      rw [unsettled] at hmem
      rcases List.mem_cons.mp hmem with he | hmem
      · exact Table.not_mem_of_insert? pipelineRuns hP he
      · exact hset hmem
    | other _ _ inputs unsettled => exact ⟨unsettled ▸ hset, selectionsOf_congr inputs _⟩
  · intro P hP hown hun
    cases annals_step h with
    | select pipelineId selections _ rows unsettled =>
      rw [unsettled]
      refine List.mem_filter.mpr ⟨hun, decide_eq_true fun he => ?_⟩
      obtain ⟨P₀, hP₀, hid, hP₀own⟩ := hallows
      obtain rfl := Table.eq_of_mem hP hP₀ (he.trans hid.symm)
      rcases hP₀own with ⟨⟨eventId, refIndex, horigin⟩, -⟩ | ⟨hown₀, -⟩
      · exact hpush eventId refIndex (horigin ▸ hown)
      · exact hdisjoint _ hown₀ hown
    | create P₀ _ _ unsettled =>
      rw [unsettled]
      exact List.mem_cons_of_mem _ hun
    | other _ _ _ unsettled => exact unsettled ▸ hun

/-- A pipeline whose selections are stored had them before, or they are what the call stores. -/
lemma settled_exec {c : SiteCall} {a : Except String c.Result} {P' : PipelineRun} (hx : x.Kept)
    (hallows : x.Allows own c) (hpast : x'.2 = x.1 :: x.2) (h : c.exec app o x.1 = (a, x'.1))
    (hP' : P' ∈ x'.1.db.pipelineRuns.rows) (hset : P'.id ∉ x'.1.unsettled) :
    (∃ P ∈ x.1.db.pipelineRuns.rows, P.SameOrigin P' ∧ P.id ∉ x.1.unsettled ∧
        x'.1.db.selectionsOf P'.id = x.1.db.selectionsOf P.id) ∨
      P' ∈ x.1.db.pipelineRuns.rows ∧ P'.id ∈ x.1.unsettled ∧
        c = .server (.insert (.addWorkflowRunArtifactSelections P'.id (x'.1.db.selectionsOf P'.id))) := by
  have hcarries : x.Carries (fun _ => False) x' :=
    carries_exec hallows (fun _ _ => id) (fun _ _ => id) hpast h
  have hbefore (P : PipelineRun) (hP : P ∈ x.1.db.pipelineRuns.rows) (hsame : P.SameOrigin P')
      (hset : P.id ∉ x.1.unsettled) : ∃ P ∈ x.1.db.pipelineRuns.rows, P.SameOrigin P' ∧
        P.id ∉ x.1.unsettled ∧ x'.1.db.selectionsOf P'.id = x.1.db.selectionsOf P.id :=
    ⟨P, hP, hsame, hset, hsame.id ▸ (hcarries.settled P hP hset).2⟩
  cases annals_step h with
  | select pipelineId selections pipelineRuns rows unsettled =>
    rw [pipelineRuns] at hP'
    by_cases hun : P'.id ∈ x.1.unsettled
    · have hid : P'.id = pipelineId := by
        by_contra hne
        exact hset (unsettled ▸ List.mem_filter.mpr ⟨hun, decide_eq_true hne⟩)
      refine .inr ⟨hP', hun, ?_⟩
      rw [selectionsOf_append rows, hx.unsettled _ hun, if_pos hid.symm, List.nil_append, hid]
    · exact .inl (hbefore P' hP' .rfl hun)
  | create P₀ pipelineRuns inputs unsettled =>
    rw [unsettled, List.mem_cons, not_or] at hset
    rw [Table.rows_insert? pipelineRuns] at hP'
    rcases List.mem_append.mp hP' with hP' | hP'
    · exact .inl (hbefore P' hP' .rfl hset.2)
    · obtain rfl := List.mem_singleton.mp hP'
      exact absurd rfl hset.1
  | other fwd bwd inputs unsettled =>
    obtain ⟨P, hP, hsame⟩ := bwd P' hP'
    exact .inl (hbefore P hP hsame (hsame.id ▸ unsettled ▸ hset))

theorem kept_exec {c : SiteCall} {a : Except String c.Result} (hx : x.Kept)
    (hallows : x.Allows own c) (hpast : x'.2 = x.1 :: x.2) (h : c.exec app o x.1 = (a, x'.1)) :
    x'.Kept := by
  have hcarries : x.Carries (fun _ => False) x' :=
    carries_exec hallows (fun _ _ => id) (fun _ _ => id) hpast h
  refine ⟨site_exec_versioned h hx.versioned, fun row hrow => ?_, fun id hid => ?_, fun P' hP' hset => ?_⟩
  · have hstored {row : ArtifactInput} (hrow : row ∈ x.1.db.workflowRunArtifactInputs.rows) :
        ∃ P' ∈ x'.1.db.pipelineRuns.rows, P'.id = row.pipelineRunId := by
      obtain ⟨P, hP, hid⟩ := hx.stored row hrow
      obtain ⟨P', hP', hsame⟩ := hcarries.pipelines P hP
      exact ⟨P', hP', hsame.id.trans hid⟩
    cases annals_step h with
    | select pipelineId selections pipelineRuns rows unsettled =>
      obtain ⟨P₀, hP₀, rfl, -⟩ := hallows
      rw [rows] at hrow
      rcases List.mem_append.mp hrow with hrow | hrow
      · exact hstored hrow
      · obtain ⟨selection, -, rfl⟩ := List.mem_map.mp hrow
        exact ⟨P₀, pipelineRuns ▸ hP₀, rfl⟩
    | create _ _ inputs _ => exact hstored (inputs ▸ hrow)
    | other _ _ inputs _ => exact hstored (inputs ▸ hrow)
  · cases annals_step h with
    | select pipelineId selections pipelineRuns rows unsettled =>
      rw [unsettled, List.mem_filter] at hid
      have hne : id ≠ pipelineId := of_decide_eq_true hid.2
      rw [selectionsOf_append rows, if_neg hne.symm, List.append_nil]
      exact hx.unsettled id hid.1
    | create P₀ pipelineRuns inputs unsettled =>
      rw [selectionsOf_congr inputs]
      rw [unsettled] at hid
      rcases List.mem_cons.mp hid with rfl | hid
      · exact hx.empty fun P hP => Table.not_mem_of_insert? pipelineRuns hP
      · exact hx.unsettled id hid
    | other _ _ inputs unsettled =>
      rw [selectionsOf_congr inputs]
      exact hx.unsettled id (unsettled ▸ hid)
  · rcases settled_exec hx hallows hpast h hP' hset with ⟨P, hP, hsame, hset, hsel⟩ | ⟨hP, hun, rfl⟩
    · rw [hsame.repo, hsame.version, hsame.origin, hsel]
      exact (hx.settled P hP hset).carries hcarries
    · obtain ⟨P₀, hP₀, hid, ⟨⟨eventId, refIndex, horigin⟩, hnone⟩ | ⟨-, -, hsourced⟩⟩ := hallows
      · obtain rfl := Table.eq_of_mem hP₀ hP hid
        rw [horigin]
        exact hnone
      · obtain rfl := Table.eq_of_mem hP₀ hP hid
        exact hsourced.carries hcarries

end

end Janus.Web
