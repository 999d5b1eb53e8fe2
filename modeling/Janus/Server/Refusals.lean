import Janus.Concurrency.Answers
import Janus.Server.Enqueue
import Janus.Server.Footprint

/-! How an enqueue fails: only of a workflow with an incompatible schema does its error say so. -/

namespace Janus.Server

open Janus.Concurrency Janus.Data

def incompatibleMark : String := "incompatible workflow schema for workflow"

def Outcome.Unmarked (o : Outcome) : Prop :=
  match o.fault with
  | .none => True
  | .refused e | .partway e => contains e incompatibleMark = false

instance (o : Outcome) : Decidable o.Unmarked :=
  match h : o.fault with
  | .none => isTrue (by simp only [Outcome.Unmarked, h])
  | .refused e => decidable_of_iff (contains e incompatibleMark = false) (by simp only [Outcome.Unmarked, h])
  | .partway e => decidable_of_iff (contains e incompatibleMark = false) (by simp only [Outcome.Unmarked, h])

def UnmarkedErrors (A : (c : Call) → Except String c.Result → Prop) : Prop :=
  ∀ c e, c.isQuery ∨ (∃ i, c = .insert i) → A c (.error e) → contains e incompatibleMark = false

lemma unmarked_of_lacks {text : String} (c : Char) (hc : c ∈ incompatibleMark.toList)
    (h : c ∉ text.toList) : contains text incompatibleMark = false :=
  decide_eq_false fun hpart => h (hpart.subset hc)

variable {A : (c : Call) → Except String c.Result → Prop}

lemma WorkflowDefinition.validateJobs_unmarked {jobs : List WorkflowJobDefinition} {index : ℕ} {e : String}
    (h : validateJobs jobs index = .error e) : contains e incompatibleMark = false := by
  have hdigits (n : ℕ) : 'p' ∉ Nat.toDigits 10 n := by
    intro hp
    have hdigit := Nat.isDigit_of_mem_toDigits (b := 10) (by decide) (by decide) hp
    exact absurd hdigit (by decide)
  have hmessage (n : ℕ) (what : String) (hwhat : 'p' ∉ what.toList) :
      contains (toString "workflow job " ++ toString n ++ toString what) incompatibleMark = false := by
    apply unmarked_of_lacks 'p' (by decide)
    simp only [String.toList_append, List.mem_append, not_or]
    refine ⟨⟨by decide, ?_⟩, hwhat⟩
    simpa using hdigits n
  induction jobs generalizing index with
  | nil => cases h
  | cons job jobs ih =>
    simp only [validateJobs] at h
    split at h
    · exact Except.error.inj h ▸ hmessage _ _ (by decide)
    · split at h
      · exact Except.error.inj h ▸ hmessage _ _ (by decide)
      · exact ih h

lemma WorkflowDefinition.validate_unmarked {definition : WorkflowDefinition} {e : String}
    (h : definition.validate = .error e) : contains e incompatibleMark = false := by
  simp only [validate] at h
  split at h
  · obtain rfl := Except.error.inj h
    exact unmarked_of_lacks 'p' (by decide) (by decide)
  · exact validateJobs_unmarked h

open Program in
lemma workflowSchemaReport_fails (hA : UnmarkedErrors A) (workflow : Workflow) :
    (workflowSchemaReport workflow).FailsIn A fun e =>
      workflow.definitionJson = .error e ∨ contains e incompatibleMark = false := by
  have hquery (q : Query) : (call (.query q)).FailsIn A fun e =>
      workflow.definitionJson = .error e ∨ contains e incompatibleMark = false :=
    .request fun e he => .inr (hA (.query q) e (.inl trivial) he)
  refine .bind (.done fun e he => .inl he) fun definition _ => .bind (hquery _) fun snapshot _ => ?_
  refine .bind ?_ fun diff _ => .pure _
  induction definition.jobs.zipIdx with
  | nil => exact .pure _
  | cons entry jobs ih =>
    obtain ⟨job, jobIndex⟩ := entry
    refine .bind ?_ fun _ _ => .bind ih fun _ _ => .pure _
    simp only [jobSchemaDiff]
    split
    · exact .pure _
    · refine .bind (hquery _) fun advertised _ => ?_
      split <;> exact .pure _

open Program in
lemma createJobRuns_fails (hA : UnmarkedErrors A) (pipelineId : Id)
    (jobs : List (WorkflowJobDefinition × ℕ)) (previous : Option Id) :
    (createJobRuns pipelineId jobs previous).FailsIn A fun e => contains e incompatibleMark = false := by
  have hinsert (i : Insertion) : (call (.insert i)).FailsIn A fun e =>
      contains e incompatibleMark = false :=
    .request fun e he => hA _ e (.inr ⟨i, rfl⟩) he
  induction jobs generalizing previous with
  | nil => exact .pure _
  | cons job jobs ih =>
    refine .bind (hinsert _) fun runId _ => .bind ?_ fun _ _ => ih _
    cases previous with
    | none => exact .pure _
    | some previous => exact hinsert _

open Program in
theorem enqueue_refused (hA : UnmarkedErrors A) {workflow : Workflow} {triggerType : String}
    {triggerRef commitSha : Option String} {selections : List WorkflowRunArtifactSelection}
    {origin : Origin} {e : String} (he : contains e incompatibleMark = true)
    (h : (enqueueWorkflowRunWithArtifacts workflow triggerType triggerRef commitSha selections
      origin).ReturnsBy A (.error e)) :
    (∃ report, (workflowSchemaReport workflow).ReturnsBy A (.ok report) ∧ report.status = .incompatible) ∨
      workflow.definitionJson = .error e := by
  have hinsert (i : Insertion) : (call (.insert i)).FailsIn A fun e =>
      contains e incompatibleMark = false :=
    .request fun e he => hA _ e (.inr ⟨i, rfl⟩) he
  rcases h.of_bind with ⟨report, hreport, h⟩ | ⟨e', h, heq⟩
  · split at h
    · next hstatus => exact .inl ⟨report, hreport, hstatus⟩
    · right
      rcases h.of_bind with ⟨definition, hdefinition, h⟩ | ⟨e', h, heq⟩
      · refine absurd he (Bool.eq_false_iff.mp ?_)
        refine FailsIn.bind (A := A) (p := fromStr definition.validate) (f := fun _ => _)
          (.done fun e he => WorkflowDefinition.validate_unmarked he) (fun _ _ => ?_) e h
        refine .bind (hinsert _) fun pipelineId _ => .bind (hinsert _) fun _ _ => ?_
        exact .bind (createJobRuns_fails hA _ _ _) fun _ _ => .pure _
      · cases heq
        exact h
  · cases heq
    rcases workflowSchemaReport_fails hA workflow e h with h | h
    · exact .inr h
    · exact absurd he (Bool.eq_false_iff.mp h)

lemma Query.eval_unmarked {db : Database} {q : Query} {e : String} (h : q.eval db = .error e) :
    contains e incompatibleMark = false := by
  have hrows : contains noRows incompatibleMark = false := unmarked_of_lacks 'h' (by decide) (by decide)
  cases q with
  | workflowDefinitionJson versionId =>
    simp only [eval, Database.workflowDefinitionJson] at h
    split at h
    · cases h
    · exact Except.error.inj h ▸ hrows
  | pipelineSnapshot pipelineId =>
    simp only [eval, Database.pipelineSnapshot] at h
    split at h
    · cases h
    · split at h
      · cases h
      · exact Except.error.inj h ▸ hrows
  | _ => cases h

lemma foreignKeyFailed_unmarked : contains foreignKeyFailed incompatibleMark = false :=
  unmarked_of_lacks 'p' (by decide) (by decide)

lemma addSelections_unmarked {db : Database} {pipelineId : Id}
    {selections : List WorkflowRunArtifactSelection} {e : String}
    (h : db.addWorkflowRunArtifactSelections pipelineId selections = .error e) :
    contains e incompatibleMark = false := by
  induction selections generalizing db with
  | nil => cases h
  | cons selection selections ih =>
    simp only [Database.addWorkflowRunArtifactSelections] at h
    cases hs : db.addSelection pipelineId selection with
    | ok db' =>
      rw [hs] at h
      exact ih h
    | error e' =>
      rw [hs] at h
      obtain rfl := Except.error.inj h
      simp only [Database.addSelection] at hs
      split at hs
      · exact Except.error.inj hs ▸ foreignKeyFailed_unmarked
      · split at hs
        · cases hs
        · exact Except.error.inj hs ▸ unmarked_of_lacks 'h' (by decide) (by decide +kernel)

lemma Insertion.exec_unmarked {o : Outcome} (ho : o.Unmarked) {db : Database} {i : Insertion} {e : String}
    (h : (i.exec o db).1 = .error e) : contains e incompatibleMark = false := by
  cases i with
  | createPipelineRun repoId workflowId workflowVersionId triggerType triggerRef commitSha origin =>
    simp only [exec, Database.createPipelineRun] at h
    split at h
    · cases h
    · next hdb =>
      obtain rfl := Except.error.inj h
      split at hdb
      · exact Except.error.inj hdb ▸ foreignKeyFailed_unmarked
      · split at hdb
        · cases hdb
        · exact Except.error.inj hdb ▸ unmarked_of_lacks 'h' (by decide) (by decide +kernel)
  | addWorkflowRunArtifactSelections pipelineId selections =>
    simp only [exec] at h
    split at h
    · cases h
    · next hdb => exact Except.error.inj h ▸ addSelections_unmarked hdb
  | createJobRun pipelineRunId jobIndex runnerId runnerJobName outcomePolicy =>
    simp only [exec, Database.insertJobRun] at h
    split at h
    · next hdb =>
      obtain rfl := Except.error.inj h
      split at hdb
      · exact Except.error.inj hdb ▸ foreignKeyFailed_unmarked
      · split at hdb
        · exact Except.error.inj hdb ▸ unmarked_of_lacks 'w' (by decide) (by decide)
        · split at hdb
          · cases hdb
          · exact Except.error.inj hdb ▸ unmarked_of_lacks 'h' (by decide) (by decide +kernel)
    · split at h
      · next hfault =>
        obtain rfl := Except.error.inj h
        simpa only [Outcome.Unmarked, hfault] using ho
      · simp only [Database.insertJobRunLogs] at h
        split at h
        · cases h
        · next hdb =>
          obtain rfl := Except.error.inj h
          split at hdb
          · cases hdb
          · exact Except.error.inj hdb ▸ unmarked_of_lacks 'h' (by decide) (by decide +kernel)
  | addPreviousJob jobRunId previousJobRunId =>
    simp only [exec, Database.addPreviousJob] at h
    split at h
    · cases h
    · next hdb =>
      obtain rfl := Except.error.inj h
      split at hdb
      · exact Except.error.inj hdb ▸ foreignKeyFailed_unmarked
      · split at hdb
        · cases hdb
        · exact Except.error.inj hdb ▸ unmarked_of_lacks 'h' (by decide) (by decide +kernel)
  | insertServerArtifact artifact =>
    simp only [exec, Database.insertServerArtifact] at h
    split at h
    · cases h
    · next hdb =>
      obtain rfl := Except.error.inj h
      split at hdb
      · cases hdb
      · split at hdb
        · cases hdb
        · exact Except.error.inj hdb ▸ unmarked_of_lacks 'h' (by decide) (by decide +kernel)

lemma exec_unmarked {app : AppState} {o : Outcome} {s : Store} (ho : o.Unmarked) {c : Call} {e : String}
    (hc : c.isQuery ∨ ∃ i, c = .insert i) (h : (c.exec app o s).1 = .error e) :
    contains e incompatibleMark = false := by
  have hfault {c : Call} {e : String} (h : c.refusal o.fault = some e) :
      contains e incompatibleMark = false := by
    unfold Call.refusal at h
    unfold Outcome.Unmarked at ho
    split at h
    case h_7 e' hf =>
      rw [hf] at ho
      exact Option.some.inj h ▸ ho
    case h_8 e' hf =>
      rw [hf] at ho
      exact Option.some.inj h ▸ ho
    all_goals cases h
  simp only [Call.exec] at h
  split at h
  · next hrefusal => exact Except.error.inj h ▸ hfault hrefusal
  · rcases hc with hc | ⟨i, rfl⟩
    · cases c with
      | query q => exact Query.eval_unmarked h
      | _ => exact hc.elim
    · exact Insertion.exec_unmarked ho h

end Janus.Server
