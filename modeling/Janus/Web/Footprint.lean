import Janus.Web.Effects

/-! Which calls the routes make, whatever the answers are. -/

namespace Janus.Web

open Janus.Concurrency Janus.Data Janus.Server

def SiteCall.asksEvent : SiteCall → Prop
  | .update (.createPushEvent _ _ _) => True
  | _ => False

structure SiteFootprint (P : SiteCall → Prop) : Prop where
  read : ∀ q, P (.server (.query q))
  query : ∀ q, P (.query q)
  update : ∀ u, ¬ (SiteCall.update u).asksEvent → P (.update u)
  catalog : ∀ runner request refresh, P (.catalog runner request refresh)

section

open Program

variable {P : SiteCall → Prop} {α : Type}

lemma only_call {c : SiteCall} (h : P c) : (call c).Only P := Only.request_iff.mpr h

lemma only_onServer {p : Server.Task α} (hp : p.Only fun c => P (.server c)) :
    (onServer p).Only P := by
  induction p with
  | done r => trivial
  | call c next ih => exact ⟨hp.1, fun x => ih x (hp.2 x)⟩

lemma okOr_only (value : Option α) (message : String) : (okOr value message).Only P := by
  cases value <;> trivial

lemma internalError_only {p : WebTask α} (hp : p.Only P) : (internalError p).Only P := by
  refine .bind (.attempt hp) fun r => ?_
  cases r <;> trivial

lemma verifyCsrf_only (app : WebState) (sender : Sender) : (verifyCsrf app sender).Only P :=
  .ite (fun _ => .pure _) fun _ => .fail _

lemma adminUser_only (user : User) : (adminUser user).Only P :=
  .ite (fun _ => .pure _) fun _ => .fail _

namespace SiteFootprint

variable (h : SiteFootprint P) (app : WebState)

include h

lemma authorizedRepo (user : User) (repoId : Id) : (authorizedRepo user repoId).Only P :=
  .bind (.ite (fun _ => .pure _) fun _ => .fail _) fun _ =>
    .bind (internalError_only (only_call (h.read _))) fun _ => okOr_only _ _

lemma authorizedWorkflow (user : User) (workflowId : Id) :
    (authorizedWorkflow user workflowId).Only P :=
  .bind (internalError_only (only_call (h.query _))) fun _ => .bind (okOr_only _ _) fun _ =>
    .bind (h.authorizedRepo _ _) fun _ => .ite (fun _ => .pure _) fun _ => .fail _

lemma authorizedPipeline (user : User) (pipelineId : Id) :
    (authorizedPipeline user pipelineId).Only P :=
  .bind (internalError_only (only_call (h.query _))) fun _ => .bind (okOr_only _ _) fun _ =>
    .bind (h.authorizedRepo _ _) fun _ => .ite (fun _ => .pure _) fun _ => .fail _

lemma written {u : WebUpdate} (hu : ¬ (SiteCall.update u).asksEvent) :
    (call (.update u)).Only P := only_call (h.update u hu)

lemma refreshSingleRunner (runnerId : String) : (refreshSingleRunner runnerId).Only P := by
  refine .bind (only_call (h.read _)) fun runner => .bind (okOr_only _ _) fun runner => ?_
  refine .bind (only_call (h.catalog _ _ _)) fun capabilities => .ite (fun _ => ?_) fun _ => ?_
  · exact .bind (only_call (h.catalog _ _ _)) fun jobs => .bind (h.written id) fun _ => h.written id
  · exact .bind (h.written id) fun _ => .fail _

lemma refreshRunner (runner : Runner) : (refreshRunner runner).Only P := by
  refine .bind (.attempt (only_call (h.catalog _ _ _))) fun capabilities => ?_
  cases capabilities with
  | error e => exact h.written id
  | ok capabilities =>
    refine .ite (fun _ => ?_) fun _ => h.written id
    refine .bind (.attempt (only_call (h.catalog _ _ _))) fun jobs => ?_
    cases jobs with
    | error e => exact h.written id
    | ok jobs => exact .bind (h.written id) fun _ => h.written id

lemma refreshRunnerHealth : Web.refreshRunnerHealth.Only P :=
  .bind (only_call (h.query _)) fun _ => .forM (fun _ => h.refreshRunner _) _

lemma createRunner (sender : Sender) (name baseUrl : String) :
    (createRunner app sender name baseUrl).Only P :=
  .bind (adminUser_only _) fun _ => .bind (verifyCsrf_only _ _) fun _ => .bind (.done _) fun _ =>
    .bind (.done _) fun _ => .bind (internalError_only (h.written id)) fun _ =>
      .bind (internalError_only (h.written id)) fun _ =>
        internalError_only (h.refreshSingleRunner _)

lemma toggleRunner (sender : Sender) (runnerId : String) :
    (toggleRunner app sender runnerId).Only P :=
  .bind (adminUser_only _) fun _ => .bind (verifyCsrf_only _ _) fun _ =>
    .bind (internalError_only (only_call (h.read _))) fun _ => .bind (okOr_only _ _) fun _ =>
      .bind (internalError_only (h.written id)) fun _ => internalError_only (h.written id)

lemma updateRunner (sender : Sender) (runnerId name baseUrl : String) :
    (updateRunner app sender runnerId name baseUrl).Only P :=
  .bind (adminUser_only _) fun _ => .bind (verifyCsrf_only _ _) fun _ =>
    .bind (internalError_only (only_call (h.read _))) fun _ => .bind (okOr_only _ _) fun _ =>
      .bind (.done _) fun _ => .bind (.done _) fun _ =>
        .bind (internalError_only (h.written id)) fun _ => internalError_only (h.written id)

lemma testRunner (sender : Sender) (runnerId : String) : (testRunner app sender runnerId).Only P :=
  .bind (adminUser_only _) fun _ => .bind (verifyCsrf_only _ _) fun _ =>
    internalError_only (h.refreshSingleRunner _)

lemma createWorkflow (sender : Sender) (repoId : Id) (parsed : Except String ParsedWorkflow) :
    (createWorkflow app sender repoId parsed).Only P :=
  .bind (verifyCsrf_only _ _) fun _ => .bind (h.authorizedRepo _ _) fun _ => .bind (.done _) fun _ =>
    .bind (internalError_only (h.written id)) fun _ => internalError_only (h.written id)

lemma updateWorkflow (sender : Sender) (workflowId repoId : Id)
    (parsed : Except String ParsedWorkflow) :
    (updateWorkflow app sender workflowId repoId parsed).Only P :=
  .bind (verifyCsrf_only _ _) fun _ => .bind (h.authorizedWorkflow _ _) fun _ =>
    .ite (fun _ => .bind (.done _) fun _ => .bind (internalError_only (h.written id)) fun _ =>
      internalError_only (h.written id)) fun _ => .fail _

lemma validateManualArtifactSelections (workflow : Workflow) (submitted : BTreeMap String) :
    (validateManualArtifactSelections workflow submitted).Only P := by
  refine .bind (internalError_only (.done _)) fun definition => ?_
  induction manualArtifactRequirements definition with
  | nil => trivial
  | cons requirement requirements ih =>
    refine .bind (.bind (okOr_only _ _) fun selectedId => ?_) fun selection => .bind ih fun _ => .pure _
    refine .bind (internalError_only (only_call (h.query _))) fun eligible => ?_
    split
    · exact .pure _
    · exact .fail _

variable (henqueue : ∀ workflow triggerType triggerRef commitSha selections origin,
  (∀ eventId refIndex, origin ≠ .push eventId refIndex) →
    (onServer (enqueueWorkflowRunWithArtifacts workflow triggerType triggerRef commitSha selections
      origin)).Only P)

include henqueue

lemma runWorkflow (number : ℕ) (sender : Sender) (workflowId : Id) (branch commit : Option String)
    (artifactSelections : BTreeMap String) :
    (runWorkflow app number sender workflowId branch commit artifactSelections).Only P :=
  .bind (verifyCsrf_only _ _) fun _ => .bind (h.authorizedWorkflow _ _) fun workflow =>
    .bind (internalError_only (.done _)) fun _ => .ite (fun _ =>
      .bind (internalError_only (only_call (h.read _))) fun _ => .bind (okOr_only _ _) fun _ =>
        .bind (h.validateManualArtifactSelections workflow artifactSelections) fun _ =>
          .bind (internalError_only (henqueue _ _ _ _ _ _ nofun)) fun _ =>
            internalError_only (h.written id)) fun _ => .fail _

lemma rerunPipeline (number : ℕ) (sender : Sender) (pipelineId : Id) :
    (rerunPipeline app number sender pipelineId).Only P :=
  .bind (verifyCsrf_only _ _) fun _ => .bind (h.authorizedPipeline _ _) fun _ =>
    .bind (internalError_only (only_call (h.query _))) fun _ => .bind (okOr_only _ _) fun _ =>
      .bind (internalError_only (only_call (h.query _))) fun _ =>
        .bind (internalError_only (henqueue _ _ _ _ _ _ nofun)) fun _ => .pure _

end SiteFootprint

end

end Janus.Web
