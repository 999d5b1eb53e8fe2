import Janus.Concurrency.Shape
import Janus.Data.Infix
import Janus.Server.Dispatch

/-! Which answers to a create request fail the job. -/

namespace Janus.Server

open Janus.Concurrency Janus.Data

def createRejections : List ℕ := [400, 401, 403, 404, 422]

def HttpResponse.chosenTexts (limits : LimitsConfig) (response : HttpResponse) : List String :=
  if response.status ≠ 201 ∧ response.status ≠ 200 then
    let body := match readResponseBytes response limits.runnerErrorBytes with
      | .ok body => body
      | .error _ => {}
    (runnerHttpErrorDetail body).toList ++ response.retryAfter.toList
  else
    match readResponseBytes response limits.runnerJsonBytes with
    | .error message => [message]
    | .ok body => match body.payload with
      | .created _ => []
      | _ => [body.parseError]

/-- One of these texts reads as a status by which jobs are rejected. -/
def HttpResponse.QuotesRejection (limits : LimitsConfig) (response : HttpResponse) : Prop :=
  ∃ text ∈ response.chosenTexts limits, isRunnerCreateTerminalRejection text = true

def rejectionTexts : List String :=
  ["400 Bad Request", "401 Unauthorized", "403 Forbidden", "404 Not Found",
    "422 Unprocessable Entity"]

lemma rejection_iff {text : String} : isRunnerCreateTerminalRejection text = true ↔
    ∃ pattern ∈ rejectionTexts, pattern.toList <:+: text.toList := by
  simp only [isRunnerCreateTerminalRejection, rejectionTexts, List.any_eq_true, contains,
    decide_eq_true_eq]

lemma rejectionTexts_ends : ∀ pattern ∈ rejectionTexts, ':' ∉ pattern.toList ∧
    '_' ∉ pattern.toList ∧ '=' ∉ pattern.toList ∧ pattern.toList.head? ≠ some ' ' ∧
      (∀ d ∈ "s".toList.inits, d ≠ [] → ¬ d <:+ pattern.toList) ∧
      (∀ d ∈ " retry".toList.inits, d ≠ [] → ¬ d <:+ pattern.toList) ∧
      ¬ pattern.toList <:+: "after".toList ∧ 6 ≤ pattern.toList.length := by
  decide +kernel

lemma rejection_detail (failed detail : String) :
    isRunnerCreateTerminalRejection (failed ++ ": " ++ detail) = true ↔
      isRunnerCreateTerminalRejection failed = true ∨
        isRunnerCreateTerminalRejection detail = true := by
  simp only [rejection_iff, ← exists_or, ← and_or_left]
  refine exists_congr fun pattern => and_congr_right fun hpattern => ?_
  obtain ⟨hcolon, -, -, hhead, -⟩ := rejectionTexts_ends pattern hpattern
  have hsplit : (failed ++ ": " ++ detail).toList =
      failed.toList ++ ':' :: ' ' :: detail.toList := by
    simp [String.toList_append]
  rw [hsplit, infix_separated hcolon, infix_cons_of_head hhead]

lemma rejection_retryAfter (failed value : String) :
    isRunnerCreateTerminalRejection (failed ++ (" retry_after=" ++ value ++ "s")) = true ↔
      isRunnerCreateTerminalRejection failed = true ∨
        isRunnerCreateTerminalRejection value = true := by
  simp only [rejection_iff, ← exists_or, ← and_or_left]
  refine exists_congr fun pattern => and_congr_right fun hpattern => ?_
  obtain ⟨-, hunderscore, hequals, -, hs, hretry, hafter, hlength⟩ :=
    rejectionTexts_ends pattern hpattern
  have hsplit : (failed ++ (" retry_after=" ++ value ++ "s")).toList =
      (failed.toList ++ " retry".toList) ++ '_' :: ("after".toList ++
        '=' :: (value.toList ++ "s".toList)) := by
    simp [String.toList_append]
  have hone : "s".toList.length ≤ pattern.toList.length := by
    have h : "s".toList.length = 1 := rfl
    omega
  have hsix : " retry".toList.length ≤ pattern.toList.length := hlength
  rw [hsplit, infix_separated hunderscore, infix_separated hequals,
    infix_append_of_ending hsix hretry, infix_append_of_ending hone hs]
  simp only [hafter, false_or]

lemma rejectionTexts_letters : ∀ pattern ∈ rejectionTexts,
    (∀ d ∈ "runner create job failed with ".toList, pattern.toList.head? ≠ some d) ∧
      ∃ c ∈ pattern.toList, c.isUpper := by
  have h : rejectionTexts.all (fun pattern =>
      ("runner create job failed with ".toList.all fun d => pattern.toList.head? ≠ some d) &&
        pattern.toList.any Char.isUpper) = true := by decide +kernel
  simpa only [List.all_eq_true, List.any_eq_true, Bool.and_eq_true, decide_eq_true_eq] using h

def displayed (status : ℕ) : List Char :=
  Nat.toDigits 10 status ++ ' ' ::
    ((StatusCode.canonicalReason status).getD "<unknown status code>").toList

lemma rejection_displayed (status : ℕ) :
    isRunnerCreateTerminalRejection ("runner create job failed with " ++
      StatusCode.display status) = true ↔
        ∃ pattern ∈ rejectionTexts, pattern.toList <:+: displayed status := by
  rw [rejection_iff]
  refine exists_congr fun pattern => and_congr_right fun hpattern => ?_
  have hsplit : ("runner create job failed with " ++ StatusCode.display status).toList =
      "runner create job failed with ".toList ++ displayed status := by
    simp [StatusCode.display, displayed, String.toList_append, ToString.toString, Nat.repr]
  rw [hsplit, infix_append_of_beginning (rejectionTexts_letters pattern hpattern).1]

lemma isDigit_not_isUpper {c : Char} (h : c.isDigit = true) : c.isUpper = false := by
  simp only [Char.isDigit, Bool.and_eq_true, decide_eq_true_eq, ge_iff_le,
    UInt32.le_iff_toNat_le] at h
  refine decide_eq_false fun hupper => ?_
  have hle := UInt32.le_iff_toNat_le.mp hupper.1
  have hnine : '9'.val.toNat = 57 := rfl
  have hcapital : 'A'.val.toNat = 65 := rfl
  omega

def knownStatuses : List ℕ :=
  [100, 101, 102, 200, 201, 202, 203, 204, 205, 206, 207, 208, 226, 300, 301, 302, 303, 304, 305, 307,
    308, 400, 401, 402, 403, 404, 405, 406, 407, 408, 409, 410, 411, 412, 413, 414, 415, 416, 417, 418,
    421, 422, 423, 424, 425, 426, 428, 429, 431, 451, 500, 501, 502, 503, 504, 505, 506, 507, 508, 510,
    511]

lemma canonicalReason_eq_none {status : ℕ} (h : status ∉ knownStatuses) :
    StatusCode.canonicalReason status = none := by
  unfold StatusCode.canonicalReason
  split <;> first | rfl | exact (h (by decide)).elim

lemma not_displayed {status : ℕ} (h : status ∉ knownStatuses) :
    ¬ ∃ pattern ∈ rejectionTexts, pattern.toList <:+: displayed status := by
  rintro ⟨pattern, hpattern, hwithin⟩
  obtain ⟨c, hc, hupper⟩ := (rejectionTexts_letters pattern hpattern).2
  have hlower : ∀ c ∈ displayed status, c.isUpper = false := by
    intro c hc
    rw [displayed, canonicalReason_eq_none h, List.mem_append] at hc
    rcases hc with hc | hc
    · exact isDigit_not_isUpper (Nat.isDigit_of_mem_toDigits (b := 10) (by decide) (by decide) hc)
    · have h : (' ' :: "<unknown status code>".toList).all (fun c => c.isUpper = false) = true := by
        decide +kernel
      exact of_decide_eq_true (List.all_eq_true.mp h c hc)
  rw [hlower c (hwithin.subset hc)] at hupper
  cases hupper

lemma displayed_known : ∀ status ∈ knownStatuses,
    ((∃ pattern ∈ rejectionTexts, pattern.toList <:+: displayed status) ↔
      status ∈ createRejections) := by
  decide +kernel

lemma rejection_status (status : ℕ) :
    isRunnerCreateTerminalRejection ("runner create job failed with " ++
      StatusCode.display status) = true ↔ status ∈ createRejections := by
  rw [rejection_displayed]
  by_cases hknown : status ∈ knownStatuses
  · exact displayed_known status hknown
  · have hrejections : ∀ status ∈ createRejections, status ∈ knownStatuses := by decide
    exact iff_of_false (not_displayed hknown) fun h => hknown (hrejections status h)

lemma rejection_httpError (response : HttpResponse) (maxErrorBytes : ℕ) :
    isRunnerCreateTerminalRejection
        (runnerHttpError "runner create job failed" response maxErrorBytes) = true ↔
      response.status ∈ createRejections ∨
        ∃ text ∈ (runnerHttpErrorDetail (match readResponseBytes response maxErrorBytes with
          | .ok body => body
          | .error _ => {})).toList ++ response.retryAfter.toList,
          isRunnerCreateTerminalRejection text = true := by
  simp only [runnerHttpError]
  generalize hdetail : runnerHttpErrorDetail (match readResponseBytes response maxErrorBytes with
    | .ok body => body
    | .error _ => {}) = detail
  cases detail with
  | none =>
    cases response.retryAfter with
    | none => simp [rejection_status]
    | some value => simp [rejection_retryAfter, rejection_status]
  | some detail =>
    cases response.retryAfter with
    | none => simp [rejection_detail, rejection_status]
    | some value => simp [rejection_retryAfter, rejection_detail, rejection_status, or_assoc]

lemma rejection_receive (limits : LimitsConfig) (response : HttpResponse) (jobRunId key : Id)
    (name : String) (body : List (String × Value)) :
    (∃ message, (RunnerRequest.createJobRun jobRunId name key body).receive limits (.ok response) =
        .error message ∧ isRunnerCreateTerminalRejection message = true) ↔
      response.status ∈ createRejections ∨ response.QuotesRejection limits := by
  simp only [RunnerRequest.receive, Except.bind, HttpResponse.QuotesRejection,
    HttpResponse.chosenTexts]
  split
  · simp only [Except.error.injEq, exists_eq_left']
    exact rejection_httpError response limits.runnerErrorBytes
  · next hstatus =>
    have hnot : response.status ∉ createRejections := by
      intro h
      simp only [createRejections, List.mem_cons, List.not_mem_nil, or_false] at h
      omega
    simp only [hnot, false_or, readJsonResponse]
    cases readResponseBytes response limits.runnerJsonBytes with
    | error message => simp [Except.bind]
    | ok body =>
      simp only [Except.bind]
      generalize body.payload = payload
      cases payload <;> simp

def FailsRejected {α : Type} (jobRunId : Id) (p : Task α) : Prop :=
  ∃ stderr rest, p = .call (.jobRun jobRunId (.finishJobRun .failed none none (some "spawn_error")
    (some "job") {} "" stderr [])) rest

def Call.Classifies {α : Type} : (c : Call) → (Except String c.Result → Task α) → Prop
  | .runner _ (.createJobRun jobRunId _ _ _), next =>
    (∀ created : JobCreatedResponse, ∃ rest, next (.ok created) =
      .call (.jobRun jobRunId (.setJobRunStarted created.jobId created.startedAt)) rest) ∧
    ∀ message, if isRunnerCreateTerminalRejection message then
      FailsRejected jobRunId (next (.error message))
    else next (.error message) = .done (.error message)
  | _, _ => True

lemma Call.Classifies.bind {α β : Type} (c : Call) (next : Except String c.Result → Task α)
    (f : α → Task β) (h : c.Classifies next) : c.Classifies fun x => next x >>= f := by
  cases c with
  | runner r request =>
    cases request with
    | createJobRun id name key body =>
      constructor
      · intro created
        obtain ⟨rest, hrest⟩ := h.1 created
        exact ⟨fun x => rest x >>= f, congrArg (· >>= f) hrest⟩
      · intro message
        have hmessage := h.2 message
        split
        · next hrejected =>
          rw [if_pos hrejected] at hmessage
          obtain ⟨stderr, rest, hrest⟩ := hmessage
          exact ⟨stderr, fun x => rest x >>= f, congrArg (· >>= f) hrest⟩
        · next hrejected =>
          rw [if_neg hrejected] at hmessage
          exact congrArg (· >>= f) hmessage
    | _ => trivial
  | _ => trivial

def classifying : Shape Call Call.Result String where
  goesOn c next := c.Classifies next
  bind := Call.Classifies.bind

lemma classifies_of_idle {α : Type} {p : Task α} (hp : p.Only Call.idle) : Shaped classifying p := by
  refine .of_only (fun {α} c next hc => ?_) hp
  cases c with
  | runner r request =>
    cases request with
    | createJobRun id name key body => cases hc
    | _ => trivial
  | _ => trivial

lemma failJobAfterRunnerCreateRejection_fails (job : JobRun) (stderr : String) :
    FailsRejected job.id (failJobAfterRunnerCreateRejection job stderr) :=
  ⟨stderr, fun x => Program.done x >>= fun _ => Db.finalizePipelineStatus job.pipelineRunId, rfl⟩

def afterCreate (job : JobRun) : Except String JobCreatedResponse → Task Unit
  | .ok created => Db.setJobRunStarted job.id created.jobId created.startedAt
  | .error message =>
    if isRunnerCreateTerminalRejection message then
      failJobAfterRunnerCreateRejection job ("failed to create runner job: " ++ message)
    else
      .fail message

lemma afterCreate_rejected {job : JobRun} {message : String}
    (h : isRunnerCreateTerminalRejection message = true) :
    FailsRejected job.id (afterCreate job (.error message)) := by
  rw [afterCreate, if_pos h]
  exact failJobAfterRunnerCreateRejection_fails job _

lemma createAndStartJob_eq (job : JobRun) (runner : Runner) (payload : BTreeMap Value) :
    createAndStartJob job runner payload = Db.setJobRunInputPayload job.id payload.entries >>= fun _ =>
      .call (.runner runner (.createJobRun job.id job.runnerJobName job.dispatchIdempotencyKey
        payload.entries)) (afterCreate job) := by
  refine congrArg (Db.setJobRunInputPayload job.id payload.entries >>= ·) (funext fun _ => ?_)
  refine congrArg (Program.call _) (funext fun x => ?_)
  cases x <;> rfl

lemma createAndStartJob_classifies (job : JobRun) (runner : Runner) (payload : BTreeMap Value) :
    Shaped classifying (createAndStartJob job runner payload) := by
  rw [createAndStartJob_eq]
  refine .bind (classifies_of_idle (only_call rfl)) fun _ => ⟨⟨fun created => ⟨_, rfl⟩, ?_⟩, fun x => ?_⟩
  · intro message
    split
    · next hrejected => exact afterCreate_rejected hrejected
    · next hrejected => exact if_neg hrejected
  · cases x with
    | ok created => exact ⟨trivial, fun _ => trivial⟩
    | error message =>
      refine classifies_of_idle (.ite (fun _ => ?_) fun _ => .fail _)
      exact .bind (only_call rfl) fun _ => only_call rfl

lemma dispatchReadyJob_classifies (app : AppState) (job : JobRun) :
    Shaped classifying (dispatchReadyJob app job) := by
  refine .bind (classifies_of_idle (only_call rfl)) fun runner => ?_
  cases runner with
  | none => exact classifies_of_idle (only_call rfl)
  | some runner =>
    refine .ite (fun _ => ?_) fun _ => .pure _
    refine .bind (classifies_of_idle (only_call rfl)) fun pipeline => ?_
    cases pipeline with
    | none => exact .pure _
    | some pipeline =>
      refine .bind (classifies_of_idle (only_call rfl)) fun definitionJson => ?_
      refine .bind (.done _) fun definition => ?_
      refine .bind (classifies_of_idle (only_call rfl)) fun jobSchemas => ?_
      split
      · refine .bind (classifies_of_idle (.attempt ((resolveJobInputs_only _ _ _ _ _).mono
          fun _ h => h.idle))) fun payload => ?_
        cases payload with
        | ok payload => exact createAndStartJob_classifies _ _ _
        | error message =>
          exact classifies_of_idle
            (.ite (fun _ => idle_footprint.jobs.retryOrFailInfraError _ _ _ _ _) fun _ => .fail _)
      · exact .pure _

lemma dispatchPendingJobs_classifies (app : AppState) :
    Shaped classifying (dispatchPendingJobs app) := by
  refine .bind (classifies_of_idle (only_call rfl)) fun jobs => .forM fun job => ?_
  refine .bind (classifies_of_idle (only_call rfl)) fun previousJobs => ?_
  simp only [dispatchExaminedJob]
  split
  · exact classifies_of_idle (.bind (only_call rfl) fun _ => only_call rfl)
  · exact .pure _
  · exact dispatchReadyJob_classifies app job

lemma program_classifies (app : AppState) (r : Role) : Shaped classifying (r.program app) := by
  cases r with
  | recovery => exact classifies_of_idle idle_footprint.recoverIncompletePipelines
  | pushEvents => exact classifies_of_idle idle_footprint.processPushEvents
  | dispatch => exact dispatchPendingJobs_classifies app
  | poll => exact classifies_of_idle idle_footprint.pollRunningJobs
  | reconcile =>
    exact .bind (classifies_of_idle idle_footprint.recoverIncompletePipelines) fun _ =>
      .bind (classifies_of_idle idle_footprint.processPushEvents) fun _ =>
        .bind (dispatchPendingJobs_classifies app) fun _ =>
          classifies_of_idle idle_footprint.pollRunningJobs
  | cancel pipelineId => exact classifies_of_idle (idle_footprint.cancelPipeline pipelineId)
  | enqueue number workflow triggerType triggerRef commitSha selections =>
    exact classifies_of_idle (.bind (idle_footprint.enqueue _ _ _ _ _ _) fun _ => .pure _)

def ServerPool.Rejects (p : ServerPool) (i : ℕ) (jobRunId : Id) : Prop :=
  ∃ r task, p.tasks[i]? = some (r, task) ∧ FailsRejected jobRunId task

section

variable {app : AppState} {p q : ServerPool} {i : ℕ} {o : Outcome} {response : HttpResponse}
variable {r : Role} {runner : Runner} {jobRunId key : Id} {name : String}
variable {body : List (String × Value)} {next : Except String JobCreatedResponse → Task Unit}

lemma rejects_iff (hshaped : ∀ t ∈ p.tasks, Shaped classifying t.2)
    (ht : p.tasks[i]? = some (r, .call (.runner runner (.createJobRun jobRunId name key body)) next))
    (hreply : o.reply = .ok response) (ha : (server app).apply p (.step i o) = some q) :
    ServerPool.Rejects q i jobRunId ↔
      response.status ∈ createRejections ∨ response.QuotesRejection app.limits := by
  obtain ⟨⟨hok, herror⟩, -⟩ := hshaped _ (List.mem_of_getElem? ht)
  rw [← rejection_receive app.limits response jobRunId key name body]
  let x := (RunnerRequest.createJobRun jobRunId name key body).receive app.limits (.ok response)
  have htask : q.tasks[i]? = some (r, next x) := by
    have hlt := (List.getElem?_eq_some_iff.mp ht).1
    have hanswer : ((server app).exec (.runner runner (.createJobRun jobRunId name key body)) o
        p.store).1 = x := by
      show (RunnerRequest.createJobRun jobRunId name key body).receive app.limits o.reply = x
      rw [hreply]
    simp only [System.apply, ht, server, if_true, Option.some.injEq] at ha
    subst ha
    rw [List.getElem?_set_self hlt]
    exact congrArg (fun x => some (r, next x)) hanswer
  have hrejects : ServerPool.Rejects q i jobRunId ↔ FailsRejected jobRunId (next x) := by
    constructor
    · rintro ⟨r', task, htask', hfails⟩
      obtain ⟨-, rfl⟩ := Prod.mk.inj (Option.some.inj (htask.symm.trans htask'))
      exact hfails
    · exact fun hfails => ⟨r, next x, htask, hfails⟩
  rw [hrejects]
  show _ ↔ ∃ message, x = .error message ∧ _
  generalize x = x
  cases x with
  | ok created =>
    refine iff_of_false ?_ fun h => by obtain ⟨message, h, -⟩ := h; cases h
    rintro ⟨stderr, rest, hfails⟩
    obtain ⟨rest', hrest⟩ := hok created
    cases hrest.symm.trans hfails
  | error message =>
    have hmessage := herror message
    constructor
    · intro hfails
      by_contra hnot
      have hrejected : ¬ isRunnerCreateTerminalRejection message = true :=
        fun h => hnot ⟨message, rfl, h⟩
      rw [if_neg hrejected] at hmessage
      obtain ⟨stderr, rest, hfails⟩ := hfails
      cases hmessage.symm.trans hfails
    · rintro ⟨message', hmessage', hrejected⟩
      obtain rfl := Except.error.inj hmessage'
      rwa [if_pos hrejected] at hmessage

end

/-- Wherever a task of a run awaits the answer to a create request, the response fails the job exactly
as its status says unless a text that the runner chose quotes such a status; two responses of one
status are treated alike unless one of them quotes. -/
theorem rejections_classified_iff (app : AppState) (es : List ServerEvent) (p q : ServerPool)
    (h : p.tasks = []) (hrun : (server app).run es p = some q) (i : ℕ) (r : Role) (runner : Runner)
    (jobRunId : Id) (name : String) (key : Id) (body : List (String × Value))
    (next : Except String JobCreatedResponse → Task Unit)
    (ht : q.tasks[i]? = some (r, .call (.runner runner (.createJobRun jobRunId name key body)) next))
    (o : Outcome) (response : HttpResponse) (hreply : o.reply = .ok response) (q' : ServerPool)
    (ha : (server app).apply q (.step i o) = some q') :
    ((ServerPool.Rejects q' i jobRunId ↔ response.status ∈ createRejections) ↔
      (response.status ∈ createRejections ∨ ¬ response.QuotesRejection app.limits)) ∧
    ∀ (o₁ : Outcome) (response₁ : HttpResponse) (q₁ : ServerPool), o₁.reply = .ok response₁ →
      (server app).apply q (.step i o₁) = some q₁ → response₁.status = response.status →
      ((ServerPool.Rejects q' i jobRunId ↔ ServerPool.Rejects q₁ i jobRunId) ↔
        (response.status ∈ createRejections ∨
          (response.QuotesRejection app.limits ↔ response₁.QuotesRejection app.limits))) := by
  have hshaped : ∀ t ∈ q.tasks, Shaped classifying t.2 := by
    refine System.shaped_run (program_classifies app) ?_ hrun
    intro t ht
    rw [h] at ht
    exact absurd ht List.not_mem_nil
  have hrejects := rejects_iff hshaped ht hreply ha
  constructor
  · rw [hrejects]
    tauto
  · intro o₁ response₁ q₁ hreply₁ ha₁ hstatus
    rw [hrejects, rejects_iff hshaped ht hreply₁ ha₁, hstatus]
    tauto

def quotedStatus : Outcome where
  reply := .ok ⟨503, none, .ok { text := "upstream: 404 Not Found" }⟩

def untilCreate : List ServerEvent := .start .dispatch :: List.replicate 7 (.step 0 {})

lemma server_step (app : AppState) (o : Outcome) {p : ServerPool} {i : ℕ} {r : Role} {c : Call}
    {next : Except String c.Result → Task Unit} (ht : p.tasks[i]? = some (r, .call c next)) :
    ∃ p', (server app).apply p (.step i o) = some p' := by
  simp only [System.apply, ht, server, if_true]
  exact ⟨_, rfl⟩

lemma untilCreate_oneJob : ∃ q r runner name key body next,
    (server sampleApp).run untilCreate oneJob = some q ∧
      q.tasks[0]? = some (r, .call (.runner runner (.createJobRun 10 name key body)) next) := by
  have hsends : ((server sampleApp).run untilCreate oneJob).bind
      (fun q => ServerPool.sends q (.step 0 quotedStatus)) = some 10 := by decide +kernel
  obtain ⟨q, hq, hsends⟩ := Option.bind_eq_some_iff.mp hsends
  obtain ⟨c, hc, hsends⟩ := Option.bind_eq_some_iff.mp hsends
  obtain ⟨i, o, r, next, he, ht⟩ := Pool.call?_eq_some hc
  obtain ⟨rfl, -⟩ := Event.step.inj he
  cases c with
  | runner runner request =>
    cases request with
    | createJobRun id name key body =>
      obtain rfl := Option.some.inj hsends
      exact ⟨q, r, runner, name, key, body, next, hq, ht⟩
    | _ => cases hsends
  | _ => cases hsends

lemma quotedStatus_quotes : ∀ response, quotedStatus.reply = .ok response →
    response.QuotesRejection sampleApp.limits := by
  intro response hresponse
  cases hresponse
  refine ⟨"upstream: 404 Not Found", ?_, ?_⟩
  · decide +kernel
  · decide +kernel

theorem quoted_rejection : ∃ q q', (server sampleApp).run untilCreate oneJob = some q ∧
    (server sampleApp).apply q (.step 0 quotedStatus) = some q' ∧
    ServerPool.Rejects q' 0 10 ∧ 503 ∉ createRejections := by
  obtain ⟨q, r, runner, name, key, body, next, hq, ht⟩ := untilCreate_oneJob
  have hshaped : ∀ t ∈ q.tasks, Shaped classifying t.2 :=
    System.shaped_run (program_classifies sampleApp) (fun _ ht => absurd ht List.not_mem_nil) hq
  obtain ⟨q', ha⟩ := server_step sampleApp quotedStatus ht
  exact ⟨q, q', hq, ha,
    (rejects_iff hshaped ht rfl ha).mpr (.inr (quotedStatus_quotes _ rfl)), by decide⟩

theorem rejections_classified_oneJob : ∃ q q', (server sampleApp).run untilCreate oneJob = some q ∧
    (server sampleApp).apply q (.step 0 quotedStatus) = some q' ∧
    ((ServerPool.Rejects q' 0 10 ↔ 503 ∈ createRejections) ↔
      (503 ∈ createRejections ∨
        ¬ HttpResponse.QuotesRejection sampleApp.limits
          ⟨503, none, .ok { text := "upstream: 404 Not Found" }⟩)) := by
  obtain ⟨q, r, runner, name, key, body, next, hq, ht⟩ := untilCreate_oneJob
  obtain ⟨q', ha⟩ := server_step sampleApp quotedStatus ht
  exact ⟨q, q', hq, ha, (rejections_classified_iff sampleApp untilCreate oneJob q rfl hq 0 r runner 10
    name key body next ht quotedStatus _ rfl q' ha).1⟩

end Janus.Server
