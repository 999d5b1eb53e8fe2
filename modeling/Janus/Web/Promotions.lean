import Janus.Server.Footprint
import Janus.Web.Selections

/-! The artifacts of a run are those that its user chose among the promotable ones, and a rerun takes
over those of its original. -/

namespace Janus.Server

open Janus.Concurrency Janus.Data

def Call.selectsNone : Call → Prop
  | .insert (.addWorkflowRunArtifactSelections _ _) => False
  | _ => True

lemma selectsNone_footprint : WatchFootprint Call.selectsNone where
  query _ := trivial
  cancelRun _ _ := trivial
  pipelineRun _ _ := trivial
  cancelRequested _ _ := trivial
  canceled _ := trivial
  transfer c hc := by
    cases c with
    | insert i =>
      cases i with
      | addWorkflowRunArtifactSelections _ _ => exact hc.elim
      | _ => trivial
    | _ => trivial
  blocked _ := trivial
  missing _ := trivial
  fail _ _ _ _ _ _ := trivial
  requeue _ := trivial
  finish _ _ _ _ _ _ _ _ _ _ _ := trivial
  status _ _ := trivial
  retry _ := trivial
  exhausted _ := trivial

end Janus.Server

namespace Janus.Web

open Janus.Concurrency Janus.Data Janus.Server

def SiteRole.owns : SiteRole → Origin → Prop
  | .runWorkflow number _ _ _ _ _, .request number' => number' = number
  | .rerunPipeline number _ _, .rerun _ number' => number' = number
  | _, _ => False

def SiteRole.apart : SiteRole → SiteRole → Bool
  | .runWorkflow number _ _ _ _ _, .runWorkflow number' _ _ _ _ _ => number ≠ number'
  | .rerunPipeline number _ _, .rerunPipeline number' _ _ => number ≠ number'
  | _, _ => true

lemma SiteRole.owns_apart {r r' : SiteRole} (h : r.apart r' = true ∨ r'.apart r = true)
    {origin : Origin} (hr : r.owns origin) : ¬ r'.owns origin := by
  intro hr'
  cases r <;> cases r' <;> cases origin <;> simp_all [owns, apart]

lemma SiteRole.not_owns_push (r : SiteRole) (eventId : Id) (refIndex : ℕ) :
    ¬ r.owns (.push eventId refIndex) := by
  cases r <;> exact id

def Site.ReadsSettled (s : Site) : SiteCall → Prop
  | .query (.workflowRunArtifactSelections pipelineId) => pipelineId ∉ s.unsettled
  | _ => True

instance (s : Site) : (c : SiteCall) → Decidable (s.ReadsSettled c)
  | .server _ | .update _ | .catalog _ _ _ => isTrue trivial
  | .query (.workflowRunArtifactSelections pipelineId) =>
    inferInstanceAs (Decidable (pipelineId ∉ s.unsettled))
  | .query (.getWorkflow _) | .query (.getWorkflowByVersionId _) | .query (.getPipelineRun _)
  | .query .listRunners | .query (.listRecentPromotableArtifacts _ _ _ _ _) => isTrue trivial

def SiteCall.selectsNone : SiteCall → Prop
  | .server c => c.selectsNone
  | _ => True

lemma siteSelectsNone : SiteFootprint SiteCall.selectsNone where
  read _ := trivial
  query _ := trivial
  update _ _ := trivial
  catalog _ _ _ := trivial

def choosing (app : AppState) (inv : Annals → Prop) (r : SiteRole) :
    Discipline SiteCall SiteCall.Result String Annals where
  rely := Annals.Carries r.owns
  inv := inv
  admits c x a x' := (∃ o, c.exec app o x.1 = (a, x'.1)) ∧ x'.2 = x.1 :: x.2 ∧ x.1.ReadsSettled c
  before c x := x.Allows r.owns c

section

variable {α : Type} {app : AppState} {inv : Annals → Prop} {r : SiteRole} {x x' : Annals}
variable {own : Origin → Prop}

lemma allows_of_selectsNone {c : SiteCall} (h : c.selectsNone) : x.Allows own c := by
  cases c with
  | server c =>
    cases c with
    | insert i =>
      cases i with
      | addWorkflowRunArtifactSelections _ _ => exact h.elim
      | _ => trivial
    | _ => trivial
  | _ => trivial

lemma Annals.Carries.weaken (h : x.Carries own x') : x.Carries (fun _ => False) x' :=
  ⟨h.past, h.pipelines, h.versions, h.workflows, h.settled, fun _ _ hown => hown.elim⟩

lemma choosing_chronicled : Chronicled (choosing app inv r) (SiteCall.Leads app) SiteCall.selectsNone
    (Annals.Carries fun _ => False) where
  rely _ _ h := h.weaken
  before _ _ h := allows_of_selectsNone h
  exec _ _ _ _ h := ⟨h.1, h.2.1⟩
  admits _ _ _ _ hallows h := by
    obtain ⟨⟨o, ho⟩, hpast, -⟩ := h
    exact carries_exec hallows (fun _ _ => id) (fun _ _ => id) hpast ho

lemma choosing_onServer : Chronicled (onServerDiscipline (choosing app inv r)) (Call.Leads app)
    (fun c => (SiteCall.server c).selectsNone) (Annals.Carries fun _ => False) :=
  chronicled_onServer choosing_chronicled

abbrev Lasting (A : Annals → Prop) : Prop := Lasts (Annals.Carries fun _ => False) A

def Annals.Justifies (x : Annals) (own : Origin → Prop) (repoId versionId : Id)
    (selections : List WorkflowRunArtifactSelection) (origin : Origin) : Prop :=
  (∃ eventId refIndex, origin = .push eventId refIndex) ∧ selections = [] ∨
    own origin ∧ x.Sourced repoId versionId selections origin

variable {repoId versionId : Id} {selections : List WorkflowRunArtifactSelection} {origin : Origin}

lemma lasting_justifies :
    Lasting fun (x : Annals) => x.Justifies own repoId versionId selections origin := by
  rintro x x' (hpush | ⟨hown, hsourced⟩) hc
  · exact .inl hpush
  · exact .inr ⟨hown, hsourced.carries hc⟩

lemma allows_stable {pipelineId : Id}
    (h : x.Allows own (.server (.insert (.addWorkflowRunArtifactSelections pipelineId selections))))
    (hc : x.Carries own x') :
    x'.Allows own (.server (.insert (.addWorkflowRunArtifactSelections pipelineId selections))) := by
  obtain ⟨P, hP, hid, hP'⟩ := h
  obtain ⟨P', hP', hsame⟩ := hc.pipelines P hP
  refine ⟨P', hP', hsame.id.trans hid, ?_⟩
  rw [hsame.origin, hsame.id, hsame.repo, hsame.version]
  rcases ‹_ ∨ _› with hpush | ⟨hown, hun, hsourced⟩
  · exact .inl hpush
  · exact .inr ⟨hown, hc.owned P hP hown hun, hsourced.carries hc⟩

lemma allows_created {workflowId pipelineId : Id} {triggerType : String}
    {triggerRef commitSha : Option String} {o : SiteOutcome}
    (hx : x.Justifies own repoId versionId selections origin) (hpast : x'.2 = x.1 :: x.2)
    (h : SiteCall.exec app o x.1 (.server (.insert (.createPipelineRun repoId workflowId versionId
      triggerType triggerRef commitSha origin))) = (.ok pipelineId, x'.1)) :
    x'.Allows own (.server (.insert (.addWorkflowRunArtifactSelections pipelineId selections))) := by
  have hcarries : x.Carries (fun _ => False) x' := by
    refine carries_exec (?_ : x.Allows own _) (fun _ _ => id) (fun _ _ => id) hpast h
    trivial
  obtain ⟨exec, unsettled⟩ := exec_server h
  cases exec_effect exec with
  | untouched _ refused =>
    obtain ⟨e, he⟩ := refused rfl
    cases he
  | createPipelineRun _ _ _ _ _ _ _ id now _ pipelineRuns _ answer =>
    obtain rfl := Except.ok.inj answer
    refine ⟨_, Table.rows_insert? pipelineRuns ▸ List.mem_append_right _ (List.mem_singleton_self _),
      rfl, ?_⟩
    rcases hx with hpush | ⟨hown, hsourced⟩
    · exact .inl hpush
    · exact .inr ⟨hown, unsettled ▸ List.mem_cons_self, hsourced.carries hcarries⟩

theorem gives_enqueue {workflow : Workflow} {triggerType : String} {triggerRef commitSha : Option String}
    (hx : x.Justifies r.owns workflow.repoId workflow.versionId selections origin) :
    Gives (onServerDiscipline (choosing app inv r)) (fun _ _ => True)
      (enqueueWorkflowRunWithArtifacts workflow triggerType triggerRef commitSha selections origin) x := by
  refine .bind (choosing_onServer.only lasting_justifies ((workflowSchemaReport_only workflow).mono ?_) hx)
    fun report x₁ hx₁ => ?_
  · intro c hc
    cases c with
    | query q => trivial
    | _ => exact hc.elim
  split
  · exact .fail
  · refine .bind (Q := fun _ (x : Annals) =>
      x.Justifies r.owns workflow.repoId workflow.versionId selections origin)
      (.done fun _ _ => hx₁) fun definition x₂ hx₂ => ?_
    refine .bind (Q := fun _ (x : Annals) =>
      x.Justifies r.owns workflow.repoId workflow.versionId selections origin)
      (.done fun _ _ => hx₂) fun _ x₃ hx₃ => ?_
    refine .bind (.request (Q := fun pipelineId (x : Annals) =>
      x.Allows r.owns (.server (.insert (.addWorkflowRunArtifactSelections pipelineId selections)))) hx₃
        (fun x x' h hr _ => lasting_justifies x x' h hr.weaken) fun x h _ => ⟨trivial, ?_⟩)
      fun pipelineId x₄ hx₄ => ?_
    · rintro a x' ⟨⟨o, ho⟩, hpast, -⟩ pipelineId rfl
      exact allows_created h hpast ho
    · refine .bind (.request (Q := fun _ _ => True) hx₄ (fun x x' h hr _ => allows_stable h hr)
        fun x h _ => ⟨h, fun _ _ _ _ _ => trivial⟩) fun _ x₅ _ => ?_
      refine .bind (choosing_onServer.only (A := fun _ => True) (fun _ _ _ _ => trivial)
        (createJobRuns_footprint (fun _ _ _ _ _ => trivial) (fun _ _ => trivial) pipelineId _ none) trivial)
        fun _ _ _ => .pure trivial

lemma gives_processPushEvents :
    Gives (onServerDiscipline (choosing app inv r)) (fun _ _ => True) (processPushEvents app) x := by
  have hcall {c : Call} (hc : c.selectsNone) (x : Annals) :
      Gives (onServerDiscipline (choosing app inv r)) (fun _ _ => True) (Server.call c) x :=
    choosing_onServer.only (A := fun _ => True) (fun _ _ _ _ => trivial) (Server.only_call hc) trivial
  refine .bind (hcall (by trivial) x) fun events _ _ => .forM (fun event x => ?_) events
  refine .bind (hcall (by trivial) x) fun workflows x _ => .bind (.forM (fun workflow x => ?_) _)
    fun _ x _ => hcall (by trivial) x
  refine .bind (Q := fun _ _ => True) (.done fun _ _ => trivial) fun trigger x _ => .ite (fun _ => ?_)
    fun _ => .pure trivial
  refine .forM (fun ref x => ?_) _
  obtain ⟨refUpdate, index⟩ := ref
  refine .ite (fun _ => ?_) fun _ => .pure trivial
  refine .bind (.attempt (gives_enqueue (.inl ⟨⟨event.id, index, rfl⟩, rfl⟩))) fun result x _ => ?_
  cases result with
  | ok _ => exact .pure trivial
  | error e => exact .ite (fun _ => .pure trivial) fun _ => .fail

lemma gives_role {role : Role} (h : ∀ number workflow triggerType triggerRef commitSha selections,
    role ≠ .enqueue number workflow triggerType triggerRef commitSha selections) :
    Gives (onServerDiscipline (choosing app inv r)) (fun _ _ => True) (role.program app) x := by
  have hplain {p : Server.Task Unit} (hp : p.Only Call.selectsNone) (x : Annals) :
      Gives (onServerDiscipline (choosing app inv r)) (fun _ _ => True) p x :=
    choosing_onServer.only (A := fun _ => True) (fun _ _ _ _ => trivial) hp trivial
  have hfoot := selectsNone_footprint
  have hrecovery (x : Annals) := hplain hfoot.recoverIncompletePipelines x
  have hdispatch (x : Annals) := hplain (p := dispatchPendingJobs app)
    (hfoot.dispatchPendingJobs (fun _ _ _ _ _ => trivial) fun _ _ _ => trivial) x
  have hpoll (x : Annals) := hplain (p := pollRunningJobs app) hfoot.pollRunningJobs x
  cases role with
  | recovery => exact hrecovery x
  | pushEvents => exact gives_processPushEvents
  | dispatch => exact hdispatch x
  | poll => exact hpoll x
  | reconcile =>
    exact .bind (hrecovery x) fun _ x _ => .bind gives_processPushEvents fun _ x _ =>
      .bind (hdispatch x) fun _ x _ => hpoll x
  | cancel pipelineId => exact hplain (hfoot.cancelPipeline pipelineId) x
  | enqueue number workflow triggerType triggerRef commitSha selections =>
    exact absurd rfl (h number workflow triggerType triggerRef commitSha selections)

def Annals.Serves (x : Annals) (workflow : Workflow) : Prop :=
  ∀ definition, workflow.definitionJson = .ok definition →
    x.Defines workflow.versionId workflow.repoId definition

lemma lasting_serves {workflow : Workflow} : Lasting fun (x : Annals) => x.Serves workflow :=
  fun _ _ h hc definition hdef => (h definition hdef).carries hc

lemma serves_getWorkflow {workflowId : Id} {workflow : Workflow}
    (h : x.1.db.getWorkflow workflowId = some workflow) : x.Serves workflow := by
  intro definition hdef
  obtain ⟨W, hW, hhead⟩ := Option.bind_eq_some_iff.mp h
  obtain ⟨V, hV, rfl⟩ := List.mem_map.mp (List.mem_of_mem_head? hhead)
  obtain ⟨hV, -⟩ := List.mem_filter.mp hV
  obtain ⟨hV, hid⟩ := List.mem_filter.mp hV
  exact ⟨V, hV, rfl, hdef, W, Table.mem_of_find? hW, (of_decide_eq_true hid).symm, rfl⟩

lemma gives_authorizedWorkflow {user : User} {workflowId : Id} :
    Gives (choosing app inv r) (fun workflow x => x.Serves workflow)
      (authorizedWorkflow user workflowId) x := by
  refine .bind (gives_internalError (gives_query choosing_chronicled (q := .getWorkflow workflowId)
    (A := fun _ => True) (Q := fun workflow (x : Annals) => ∀ w, workflow = some w → x.Serves w)
    (fun _ _ _ _ => trivial) trivial (fun x x' _ _ hs _ _ w hw => serves_getWorkflow (hs ▸ hw)) trivial))
    fun workflow x₁ hx₁ => ?_
  refine .bind (gives_okOr (Q := fun w (x : Annals) => x.Serves w) hx₁) fun w x₂ hx₂ => ?_
  exact .bind (choosing_chronicled.only lasting_serves (siteSelectsNone.authorizedRepo user w.repoId) hx₂)
    fun repo x₃ hx₃ => .ite (fun _ => .pure hx₃) fun _ => .fail

lemma lasting_defines {definition : WorkflowDefinition} :
    Lasting fun (x : Annals) => x.Defines versionId repoId definition :=
  fun _ _ h hc => h.carries hc

lemma lasting_chosen {requirement : ManualArtifactRequirement}
    {selection : WorkflowRunArtifactSelection} :
    Lasting fun (x : Annals) => Chosen (· ∈ x.2) repoId requirement selection :=
  fun _ _ h hc => h.mono hc.past

lemma gives_validateSelection {workflow : Workflow} {submitted : BTreeMap String}
    {requirement : ManualArtifactRequirement} :
    Gives (choosing app inv r) (fun selection x => Chosen (· ∈ x.2) workflow.repoId requirement selection)
      (validateManualArtifactSelection workflow submitted requirement) x := by
  refine .bind (gives_okOr (Q := fun _ _ => True) fun _ _ => trivial) fun selectedId x₁ _ => ?_
  refine .bind (gives_internalError (gives_query choosing_chronicled (q := .listRecentPromotableArtifacts
    workflow.repoId requirement.sourceRunnerId requirement.sourceJobName requirement.outputName 10)
    (A := fun _ => True) (Q := fun (eligible : List PromotableArtifact) (x : Annals) => ∀ artifact ∈ eligible,
      Chosen (· ∈ x.2) workflow.repoId requirement
        ⟨requirement.jobIndex, requirement.inputName, artifact.serverArtifactId⟩)
    (fun _ _ _ _ => trivial) trivial (fun x x' _ _ _ hpast _ => fun artifact hmem => ?_) trivial))
    fun eligible x₂ hx₂ => ?_
  · exact ⟨rfl, rfl, x.1, hpast ▸ List.mem_cons_self, promotes_of_listed hmem⟩
  · split
    · next artifact hfind => exact .pure (hx₂ artifact (List.mem_of_find?_eq_some hfind))
    · exact .fail

lemma gives_validateEachSelection {workflow : Workflow} {submitted : BTreeMap String}
    {requirements : List ManualArtifactRequirement} :
    Gives (choosing app inv r) (fun selections x =>
      List.Forall₂ (Chosen (· ∈ x.2) workflow.repoId) requirements selections)
      (validateEachSelection workflow submitted requirements) x := by
  induction requirements generalizing x with
  | nil => exact .pure .nil
  | cons requirement requirements ih =>
    refine .bind gives_validateSelection fun selection x₁ hx₁ => ?_
    refine .bind (choosing_chronicled.frame lasting_chosen ih hx₁) fun selections x₂ hx₂ => ?_
    exact .pure (.cons hx₂.2 hx₂.1)

lemma gives_enqueueWithArtifacts {workflow : Workflow} {triggerType : String}
    {triggerRef commitSha : Option String}
    (hx : x.Justifies r.owns workflow.repoId workflow.versionId selections origin) :
    Gives (choosing app inv r) (fun _ _ => True)
      (enqueueWithArtifacts workflow triggerType triggerRef commitSha selections origin) x :=
  gives_internalError (gives_onServer (gives_enqueue hx))

theorem gives_runWorkflow {web : WebState} {number : ℕ} {sender : Sender} {workflowId : Id}
    {branch commit : Option String} {artifactSelections : BTreeMap String}
    (hown : r.owns (.request number)) :
    Gives (choosing app inv r) (fun _ _ => True)
      (runWorkflow web number sender workflowId branch commit artifactSelections) x := by
  refine .bind (choosing_chronicled.runs (verifyCsrf_only _ _)) fun _ x₁ _ => ?_
  refine .bind gives_authorizedWorkflow fun workflow x₂ hx₂ => ?_
  refine .bind (gives_internalError (Q := fun _ (x : Annals) => x.Serves workflow) (.done fun _ _ => hx₂))
    fun trigger x₃ hx₃ => .ite (fun _ => ?_) fun _ => .fail
  refine .bind (choosing_chronicled.only lasting_serves (internalError_only (only_call trivial)) hx₃)
    fun repo x₄ hx₄ => ?_
  refine .bind (gives_okOr (Q := fun _ (x : Annals) => x.Serves workflow) fun _ _ => hx₄) fun repo x₅ hx₅ => ?_
  refine .bind (Q := fun selections (x : Annals) =>
    x.Complete workflow.repoId workflow.versionId selections) ?_
    fun selections x₆ hx₆ => ?_
  · refine .bind (gives_internalError (Q := fun definition (x : Annals) =>
      x.Defines workflow.versionId workflow.repoId definition) (.done fun d hd => hx₅ d hd))
      fun definition x₇ hx₇ => ?_
    refine .mono (fun selections x h => ⟨definition, h.symm⟩)
      (choosing_chronicled.frame lasting_defines gives_validateEachSelection hx₇)
  · refine .bind (gives_enqueueWithArtifacts (.inr ⟨hown, hx₆⟩)) fun pipelineId x₈ _ => ?_
    exact choosing_chronicled.runs (internalError_only (siteSelectsNone.written id))

def Annals.Has (x : Annals) (pipeline : PipelineRun) : Prop :=
  ∃ P ∈ x.1.db.pipelineRuns.rows, pipeline.SameOrigin P

lemma lasting_has {pipeline : PipelineRun} : Lasting fun (x : Annals) => x.Has pipeline := by
  rintro x x' ⟨P, hP, hsame⟩ hc
  obtain ⟨P', hP', hsame'⟩ := hc.pipelines P hP
  exact ⟨P', hP', hsame.trans hsame'⟩

lemma gives_authorizedPipeline {user : User} {pipelineId : Id} :
    Gives (choosing app inv r) (fun pipeline x => x.Has pipeline)
      (authorizedPipeline user pipelineId) x := by
  refine .bind (gives_internalError (gives_query choosing_chronicled (q := .getPipelineRun pipelineId)
    (A := fun _ => True) (Q := fun pipeline (x : Annals) => ∀ P, pipeline = some P → x.Has P)
    (fun _ _ _ _ => trivial) trivial (fun x x' _ _ hs _ _ P hP => ?_) trivial)) fun pipeline x₁ hx₁ => ?_
  · exact ⟨P, hs ▸ Table.mem_of_find? hP, .rfl⟩
  · refine .bind (gives_okOr (Q := fun P (x : Annals) => x.Has P) hx₁) fun P x₂ hx₂ => ?_
    exact .bind (choosing_chronicled.only lasting_has (siteSelectsNone.authorizedRepo user P.repoId) hx₂)
      fun repo x₃ hx₃ => .ite (fun _ => .pure hx₃) fun _ => .fail

lemma versionId_getWorkflowByVersionId {db : Database} {workflow : Workflow}
    (h : db.getWorkflowByVersionId versionId = some workflow) : workflow.versionId = versionId := by
  obtain ⟨V, hV, hmap⟩ := Option.bind_eq_some_iff.mp h
  obtain ⟨W, hW, rfl⟩ := Option.map_eq_some_iff.mp hmap
  have hkey : V.id = versionId := Table.key_of_find? hV
  exact hkey

theorem gives_rerunPipeline {web : WebState} {number : ℕ} {sender : Sender} {pipelineId : Id}
    (hown : ∀ original, r.owns (.rerun original number)) :
    Gives (choosing app inv r) (fun _ _ => True) (rerunPipeline web number sender pipelineId) x := by
  refine .bind (choosing_chronicled.runs (verifyCsrf_only _ _)) fun _ x₁ _ => ?_
  refine .bind gives_authorizedPipeline fun pipeline x₂ hx₂ => ?_
  refine .bind (gives_internalError (gives_query choosing_chronicled
    (q := .getWorkflowByVersionId pipeline.workflowVersionId)
    (Q := fun workflow (x : Annals) => x.Has pipeline ∧
      ∀ w, workflow = some w → w.versionId = pipeline.workflowVersionId) lasting_has
    trivial (fun x x' _ h _ _ _ => ⟨h, fun w hw => versionId_getWorkflowByVersionId hw⟩) hx₂))
    fun workflow x₃ hx₃ => ?_
  refine .bind (gives_okOr (Q := fun (w : Workflow) (x : Annals) => x.Has pipeline ∧
    w.versionId = pipeline.workflowVersionId) fun w hw => ⟨hx₃.1, hx₃.2 w hw⟩) fun workflow x₄ hx₄ => ?_
  refine .bind (gives_internalError (gives_query choosing_chronicled
    (q := .workflowRunArtifactSelections pipeline.id)
    (Q := fun selections (x : Annals) =>
      x.Sourced workflow.repoId workflow.versionId selections (.rerun pipeline.id number))
    lasting_has trivial (fun x x' _ h hs _ hadmits => ?_) hx₄.1)) fun selections x₅ hx₅ => ?_
  · obtain ⟨P, hP, hsame⟩ := h
    refine ⟨P, hP, hsame.id, hsame.version.trans hx₄.2.symm, ?_, ?_⟩
    · rw [hsame.id, hs]
      exact hadmits.2.2
    · rw [hs]
      exact workflowRunArtifactSelections_perm
  · exact .bind (gives_enqueueWithArtifacts (.inr ⟨hown pipeline.id, hx₅⟩)) fun _ _ _ => .pure trivial

def SiteRole.isRoute : SiteRole → Prop
  | .server (.enqueue _ _ _ _ _ _) => False
  | _ => True

instance (r : SiteRole) : Decidable r.isRoute :=
  match r with
  | .server (.enqueue _ _ _ _ _ _) => isFalse id
  | .server .recovery | .server .pushEvents | .server .dispatch | .server .poll | .server .reconcile
  | .server (.cancel _) | .refreshRunnerHealth | .postReceive _ _ | .triggerRepo _ _ _ _
  | .createRunner _ _ _ | .toggleRunner _ _ | .updateRunner _ _ _ _ | .testRunner _ _
  | .createWorkflow _ _ _ | .updateWorkflow _ _ _ _ | .runWorkflow _ _ _ _ _ _
  | .rerunPipeline _ _ _ => isTrue trivial

theorem gives_program {web : WebState} (hr : r.isRoute) (x : Annals) :
    Gives (choosing web.toAppState inv r) (fun _ _ => True) (r.program web) x := by
  have h := siteSelectsNone
  cases r with
  | server role =>
    refine gives_onServer (gives_role ?_)
    rintro number workflow triggerType triggerRef commitSha selections rfl
    exact hr
  | refreshRunnerHealth => exact choosing_chronicled.runs h.refreshRunnerHealth
  | postReceive repoId refsRaw => exact choosing_chronicled.runs (only_call trivial)
  | triggerRepo sender repoId branch commit =>
    exact choosing_chronicled.runs (.bind (verifyCsrf_only _ _) fun _ => .bind (h.authorizedRepo _ _) fun _ =>
      .bind (.done _) fun _ => internalError_only (only_call trivial))
  | createRunner sender name baseUrl => exact choosing_chronicled.runs (h.createRunner web sender name baseUrl)
  | toggleRunner sender runnerId => exact choosing_chronicled.runs (h.toggleRunner web sender runnerId)
  | updateRunner sender runnerId name baseUrl =>
    exact choosing_chronicled.runs (h.updateRunner web sender runnerId name baseUrl)
  | testRunner sender runnerId => exact choosing_chronicled.runs (h.testRunner web sender runnerId)
  | createWorkflow sender repoId parsed =>
    exact choosing_chronicled.runs (h.createWorkflow web sender repoId parsed)
  | updateWorkflow sender workflowId repoId parsed =>
    exact choosing_chronicled.runs (h.updateWorkflow web sender workflowId repoId parsed)
  | runWorkflow number sender workflowId branch commit artifactSelections =>
    exact gives_runWorkflow rfl
  | rerunPipeline number sender pipelineId => exact gives_rerunPipeline fun _ => rfl

end

/-- No run is enqueued but by a route, and reruns read the selections of pipelines that have theirs. -/
def Enqueues (p : SitePool) (e : SiteEvent) : Prop :=
  (∀ r ∈ e.start?, r.isRoute) ∧ ∀ c ∈ p.call? e, p.store.ReadsSettled c

instance (p : SitePool) (e : SiteEvent) :
    Decidable (Enqueues p e) :=
  inferInstanceAs (Decidable ((∀ r ∈ e.start?, r.isRoute) ∧ ∀ c ∈ p.call? e, p.store.ReadsSettled c))

theorem choosingOutline (app : WebState) :
    System.Outline ((site app).chronicle SiteRole.apart) (fun p e => Enqueues ⟨p.store.1, p.tasks⟩ e)
      Annals.Kept (choosing app.toAppState Annals.Kept) fun _ _ _ => True where
  inv_eq _ := rfl
  trans _ _ _ _ h h' := h.trans h'
  post_stable _ _ _ _ _ _ := trivial
  refl _ _ := .rfl
  start p r _ hok := Safe.mono (fun _ _ _ => trivial) (gives_program (hok.1 r rfl) p.store)
  admits p i o r c next _ hok ht _ := by
    refine ⟨⟨o, rfl⟩, rfl, hok.2 c ?_⟩
    simp only [Pool.call?, ht]
    rfl
  keeps r x x' hx := by
    rintro ⟨c, a, hallows, ⟨o, ho⟩, hpast, -⟩
    exact kept_exec hx hallows hpast ho
  compat p i o r c next r' _ _ _ _ hbeside hallows := by
    rintro ⟨⟨o, ho⟩, hpast, -⟩
    refine carries_exec hallows (fun origin => ?_) r'.not_owns_push hpast ho
    apply SiteRole.owns_apart
    exact hbeside.imp (fun h => (Bool.and_eq_true_iff.mp h).2) fun h => (Bool.and_eq_true_iff.mp h).2
  environ p v _ hx := by
    cases v with
    | runEnds runId =>
      have hcarries {own : Origin → Prop} : Annals.Carries own p.store
          (((site app).chronicle SiteRole.apart).environ (.runEnds runId) p.store) :=
        ⟨fun _ h => h, fun P hP => ⟨P, hP, .rfl⟩, fun _ h => h, fun W hW => ⟨W, hW, rfl, rfl⟩,
          fun _ _ h => ⟨h, rfl⟩, fun _ _ _ h => h⟩
      refine ⟨⟨hx.versioned, hx.stored, hx.unsettled, fun P hP hset => ?_⟩, fun r => hcarries⟩
      exact (hx.settled P hP hset).carries (hcarries : Annals.Carries (fun _ => False) _ _)
  crash _ _ hx := hx

/-- What is stored for the pipeline are selections of promotable artifacts, one for each requirement of
its version, and its jobs find them. -/
def Site.Furnished (s : Site) (past : Site → Prop) (P : PipelineRun) : Prop :=
  ∃ repoId definition selections,
    (∃ V ∈ s.db.workflowVersions.rows, V.id = P.workflowVersionId ∧ V.definitionJson = .ok definition ∧
      ∃ W ∈ s.db.workflows.rows, W.id = V.workflowId ∧ W.repoId = repoId) ∧
    (s.db.selectionsOf P.id).Perm selections ∧
    List.Forall₂ (Chosen past repoId) (manualArtifactRequirements definition) selections ∧
    ∀ selection ∈ selections,
      s.db.workflowRunArtifactSelection P.id selection.jobIndex selection.inputName =
        some selection.serverArtifactId

/-- The pipelines that go back to a request of a user, by reruns of such. -/
inductive Site.Descends (s : Site) : PipelineRun → Prop
  | run {P : PipelineRun} (number : ℕ) (stored : P ∈ s.db.pipelineRuns.rows)
      (settled : P.id ∉ s.unsettled) (origin : P.origin = .request number) : s.Descends P
  | rerun {P P₀ : PipelineRun} (number : ℕ) (stored : P ∈ s.db.pipelineRuns.rows)
      (settled : P.id ∉ s.unsettled) (origin : P.origin = .rerun P₀.id number)
      (original : s.Descends P₀) : s.Descends P

lemma Site.Descends.stored {s : Site} {P : PipelineRun} (h : s.Descends P) :
    P ∈ s.db.pipelineRuns.rows := by
  cases h with
  | run _ stored _ _ => exact stored
  | rerun _ stored _ _ _ => exact stored

/-- Only pushes have run, and nothing is stored of selections. -/
structure Site.Unrequested (s : Site) : Prop where
  versioned : s.db.Versioned
  pushes : ∀ P ∈ s.db.pipelineRuns.rows, ∃ eventId refIndex, P.origin = .push eventId refIndex
  selections : s.db.workflowRunArtifactInputs.rows = []
  unsettled : s.unsettled = []

lemma Site.Unrequested.kept {s : Site} (h : s.Unrequested) : Annals.Kept (s, []) := by
  have hnone (id : Id) : s.db.selectionsOf id = [] := by
    rw [Database.selectionsOf, h.selections]
    rfl
  refine ⟨h.versioned, ?_, fun id _ => hnone id, fun P hP _ => ?_⟩
  · rw [h.selections]
    exact fun _ hrow => absurd hrow List.not_mem_nil
  · obtain ⟨eventId, refIndex, horigin⟩ := h.pushes P hP
    rw [horigin]
    exact hnone P.id

section

variable {x : Annals} {P P₀ : PipelineRun} {number : ℕ}

lemma Annals.Kept.rerun (hx : x.Kept) (hP : P ∈ x.1.db.pipelineRuns.rows) (hset : P.id ∉ x.1.unsettled)
    (horigin : P.origin = .rerun P₀.id number) (hP₀ : P₀ ∈ x.1.db.pipelineRuns.rows) :
    P.workflowVersionId = P₀.workflowVersionId ∧ P₀.id ∉ x.1.unsettled ∧
      (x.1.db.selectionsOf P.id).Perm (x.1.db.selectionsOf P₀.id) := by
  have hsourced := hx.settled P hP hset
  rw [horigin] at hsourced
  obtain ⟨P₁, hP₁, hid, hversion, hset₁, hperm⟩ := hsourced
  obtain rfl := Table.eq_of_mem hP₁ hP₀ hid
  exact ⟨hversion.symm, hset₁, hperm⟩

lemma Annals.Kept.furnished (hx : x.Kept) (h : x.1.Descends P) : x.1.Furnished (· ∈ x.2) P := by
  have hfound {P : PipelineRun} {selections : List WorkflowRunArtifactSelection}
      (hperm : (x.1.db.selectionsOf P.id).Perm selections) : ∀ selection ∈ selections,
        x.1.db.workflowRunArtifactSelection P.id selection.jobIndex selection.inputName =
          some selection.serverArtifactId :=
    fun selection hmem => workflowRunArtifactSelection_of_mem (hperm.mem_iff.mpr hmem)
  induction h with
  | @run P number stored settled origin =>
    have hsourced := hx.settled P stored settled
    rw [origin] at hsourced
    obtain ⟨definition, hdefines, hchosen⟩ := hsourced
    exact ⟨P.repoId, definition, _, hdefines, .refl _, hchosen, hfound (.refl _)⟩
  | @rerun P P₀ number stored settled origin original ih =>
    obtain ⟨hversion, -, hperm⟩ := hx.rerun stored settled origin original.stored
    obtain ⟨repoId, definition, selections, hdefines, hperm₀, hchosen, -⟩ := ih
    have hall := hperm.trans hperm₀
    exact ⟨repoId, definition, selections, hversion ▸ hdefines, hall, hchosen, hfound hall⟩

end

/-- The site beside what its calls have met, with its requests apart. -/
abbrev Promoting (app : WebState) (p : Pool SiteRole SiteCall SiteCall.Result String Annals) : Prop :=
  System.Sound ((site app).chronicle SiteRole.apart) Annals.Kept (choosing app.toAppState Annals.Kept)
    (fun _ _ _ => True) p

lemma chosen_run {app : WebState} {p q : SitePool} {es : List SiteEvent} (hidle : p.tasks = [])
    (hp : p.store.Unrequested)
    (hok : (site app).Along (fun p e => System.StartsApart SiteRole.apart p e ∧ Enqueues p e) es p)
    (hrun : (site app).run es p = some q) :
    ∃ past, ((site app).chronicle SiteRole.apart).run es (p.remembering []) =
        some (q.remembering past) ∧ (∀ s ∈ past, Earlier app p es s) ∧ Promoting app (q.remembering past) := by
  obtain ⟨past, hrun', halong, hpast⟩ := System.chronicle_run_nil hok hrun
  have hstart : Promoting app (p.remembering []) := by
    refine ⟨hp.kept, ?_, ?_⟩ <;> simp only [Pool.remembering, hidle]
    · exact fun _ ht => absurd ht List.not_mem_nil
    · exact .nil
  exact ⟨past, hrun', hpast, halong.invariant
    (fun p e p' hs hok ha => hs.apply (choosingOutline app) hok ha) hstart hrun'⟩

/-- From a site on which only pushes have run: in every state that a run reaches, a pipeline that goes
back to a user's request has for each requirement of its version an artifact that was promotable to it
before, and no others; a rerun has the version and the artifacts of its original; what is enqueued for
a push has none. -/
theorem artifacts_promoted {app : WebState} {p q : SitePool} {es : List SiteEvent}
    (hidle : p.tasks = []) (hp : p.store.Unrequested)
    (hok : (site app).Along (fun p e => System.StartsApart SiteRole.apart p e ∧ Enqueues p e) es p)
    (hrun : (site app).run es p = some q) :
    (∀ P, q.store.Descends P → q.store.Furnished (Earlier app p es) P) ∧
      (∀ P ∈ q.store.db.pipelineRuns.rows, ∀ P₀ ∈ q.store.db.pipelineRuns.rows, ∀ number,
        P.origin = .rerun P₀.id number → P.id ∉ q.store.unsettled →
          P.workflowVersionId = P₀.workflowVersionId ∧
            (q.store.db.selectionsOf P.id).Perm (q.store.db.selectionsOf P₀.id)) ∧
      ∀ P ∈ q.store.db.pipelineRuns.rows, ∀ eventId refIndex, P.origin = .push eventId refIndex →
        q.store.db.selectionsOf P.id = [] := by
  obtain ⟨past, -, hpast, hsound⟩ := chosen_run hidle hp hok hrun
  have hkept : Annals.Kept (q.store, past) := hsound.1
  refine ⟨fun P hP => ?_, fun P hP P₀ hP₀ number horigin hset => ?_, fun P hP eventId refIndex horigin => ?_⟩
  · obtain ⟨repoId, definition, selections, hdefines, hperm, hchosen, hfound⟩ := hkept.furnished hP
    refine ⟨repoId, definition, selections, hdefines, hperm, hchosen.imp fun _ _ h => ?_, hfound⟩
    exact h.mono hpast
  · obtain ⟨hversion, -, hperm⟩ := hkept.rerun hP hset horigin hP₀
    exact ⟨hversion, hperm⟩
  · by_cases hset : P.id ∈ q.store.unsettled
    · exact hkept.unsettled P.id hset
    · have hsourced := hkept.settled P hP hset
      rw [horigin] at hsourced
      exact hsourced

def imageSchema : RunnerJobDefinition :=
  { sampleSchema with
    inputs := .ofList [("base", ⟨.artifact, true, false, none, none, none⟩)],
    outputs := .ofList [("image", ⟨.artifact, "image.tar", true⟩)] }

def imageWorkflow : WorkflowDefinition :=
  ⟨[{ runnerId := "runner", runnerJobName := "build",
      inputs := .ofList [("base", .promotedArtifact "runner" "build" "image")] }]⟩

def imageSite : SitePool := sampleSitePool
  { sampleDatabase 1 (.single { samplePipeline with status := .success, origin := .push 1 0 })
      (.single { sampleJob 10 0 with status := .success }) .empty with
    workflowVersions := .single ⟨1, 1, 1, .ok ⟨"manual", []⟩, .ok imageWorkflow, [imageSchema]⟩
    runnerJobs := [("runner", imageSchema)]
    jobRunArtifacts := [(10, ⟨"image", .artifact, none, some 5, none, none, none⟩)]
    serverArtifacts := .single ⟨5, "pipeline", 1, "image", "", 3, 5⟩ }

lemma imageSite_unrequested : imageSite.store.Unrequested := by
  refine ⟨⟨fun W hW => ⟨0, ?_⟩, by decide, by decide⟩, fun P hP => ⟨1, 0, ?_⟩, rfl, rfl⟩
  · obtain rfl := List.mem_singleton.mp hW
    rfl
  · obtain rfl := List.mem_singleton.mp hP
    rfl

def ranAndRerun : List SiteEvent :=
  .start (.runWorkflow 0 sampleSender 1 none none (.ofList [("artifact:0:base", "5")])) ::
    (List.replicate 6 (.step 0 {}) ++ [.step 0 { uuid := 2 }, .step 0 {},
      .start (.rerunPipeline 0 sampleSender 2), .step 0 { uuid := 11, dispatchKey := 11 }, .step 0 {},
      .finish 0] ++ List.replicate 6 (.step 0 {}) ++
        [.step 0 { uuid := 3 }, .step 0 {}, .step 0 { uuid := 12, dispatchKey := 12 }, .finish 0])

theorem artifacts_promoted_rerun :
    ∃ q, (site sampleSite).run ranAndRerun imageSite = some q ∧
      ∃ P ∈ q.store.db.pipelineRuns.rows, P.id = 3 ∧ P.origin = .rerun 2 0 ∧
        (q.store.db.selectionsOf 3).map (·.serverArtifactId) = [5] ∧
        q.store.Furnished (Earlier sampleSite imageSite ranAndRerun) P := by
  have hok : (site sampleSite).Along
      (fun p e => System.StartsApart SiteRole.apart p e ∧ Enqueues p e) ranAndRerun imageSite := by
    decide +kernel
  have hrun : ((site sampleSite).run ranAndRerun imageSite).any (fun q =>
      q.store.unsettled = [] ∧ q.tasks.length = 0 ∧
        (q.store.db.selectionsOf 3).map (·.serverArtifactId) = [5] ∧
        q.store.db.pipelineRuns.rows.map (fun P => (P.id, P.origin)) =
          [(1, .push 1 0), (2, .request 0), (3, .rerun 2 0)]) = true := by decide +kernel
  obtain ⟨q, hq, hend⟩ := (Option.any_eq_true _ _).mp hrun
  obtain ⟨hunsettled, -, hchosen, hrows⟩ := of_decide_eq_true hend
  obtain ⟨hfurnished, -, -⟩ := artifacts_promoted rfl imageSite_unrequested hok hq
  have hmem {id : Id} {origin : Origin} (h : (id, origin) ∈ [(1, Origin.push 1 0), (2, .request 0),
      (3, .rerun 2 0)]) : ∃ P ∈ q.store.db.pipelineRuns.rows, P.id = id ∧ P.origin = origin := by
    obtain ⟨P, hP, heq⟩ := List.mem_map.mp (hrows ▸ h)
    exact ⟨P, hP, congrArg Prod.fst heq, congrArg Prod.snd heq⟩
  obtain ⟨P₀, hP₀, hid₀, horigin₀⟩ := hmem (.tail _ (.head _))
  obtain ⟨P, hP, hid, horigin⟩ := hmem (.tail _ (.tail _ (.head _)))
  have hset (id : Id) : id ∉ q.store.unsettled := by
    rw [hunsettled]
    exact List.not_mem_nil
  refine ⟨q, hq, P, hP, hid, horigin, hchosen, hfurnished P ?_⟩
  exact .rerun 0 hP (hset _) (hid₀ ▸ horigin) (.run 0 hP₀ (hset _) horigin₀)

end Janus.Web
