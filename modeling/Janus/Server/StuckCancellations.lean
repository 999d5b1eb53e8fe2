import Janus.Concurrency.Play
import Janus.Server.Finalization
import Janus.Server.Footprint

/-! What a poll makes of a cancellation that the runner does not complete. -/

namespace Janus.Server

open Janus.Concurrency Janus.Data

structure Turn (id : Id) where
  outcome : Outcome
  others : Store → Store
  leaves : ∀ s, (others s).db.jobRuns.find? id = s.db.jobRuns.find? id

def Turn.exec (app : AppState) {id : Id} (c : Call) (t : Turn id) (s : Store) :
    Except String c.Result × Store :=
  c.exec app t.outcome (t.others s)

def JobRun.Stuck (app : AppState) (now : Timestamp) (job : JobRun) : Prop :=
  (job.status = .cancelRequested ∨ job.status = .canceling) ∧
    ∃ startedAt, job.cancelStartedAt.or job.cancelRequestedAt = some startedAt ∧
      startedAt + app.scheduler.cancelStuckTimeoutSeconds * 1000000000 ≤ now

def polledStatuses : List JobStatus := [.running, .cancelRequested, .canceling]

/-- A pass of `poll_running_jobs` that comes to a job, and reads the clock when the job's cancellation
is stuck. -/
structure StuckPass (app : AppState) (job : JobRun) where
  start : Store
  listing : Turn job.id
  turns : List (Turn job.id)
  earlier : List JobRun
  later : List JobRun
  answered : ℕ
  arrived : Store
  lookup : Turn job.id
  clock : Turn job.id
  act : Turn job.id
  write : Turn job.id
  rest : List (Turn job.id)
  row : start.db.jobRuns.find? job.id = some job
  listed : listing.exec app (.query (.listJobRunsByStatus polledStatuses)) start =
    (.ok (earlier ++ job :: later), listing.others start)
  reached : (earlier.forM (pollRunningJob app)).play (fun c t => Turn.exec app c t) turns
    (listing.others start) =
      ⟨some (.ok ()), answered, lookup :: clock :: act :: write :: rest, arrived⟩
  stuck : job.Stuck app clock.outcome.now

namespace StuckPass

variable {app : AppState} {job : JobRun} (pass : StuckPass app job)

def finish : Store :=
  ((pollRunningJobs app).play (fun c t => Turn.exec app c t) (pass.listing :: pass.turns)
    pass.start).store

def Progresses : Prop :=
  ∃ row, pass.finish.db.jobRuns.find? job.id = some row ∧
    (row.cancelRetryCount = job.cancelRetryCount + 1 ∨ row.status = .failed)

def RunnerFound : Prop :=
  (Call.query (.getRunner job.runnerId)).refusal pass.lookup.outcome.fault = none ∧
    ((pass.lookup.others pass.arrived).db.runners.find? job.runnerId).isSome ∧ job.runnerRunId.isSome

/-- The runner answers the repeated cancel call with 202. -/
def Accepted : Prop := ∃ response, pass.act.outcome.reply = .ok response ∧ response.status = 202

def Recorded : Prop := (Call.jobRun job.id .recordCancelRetry).refusal pass.write.outcome.fault = none

def Failed : Prop :=
  (Call.jobRun job.id .markJobRunCancelRetryExhausted).refusal pass.act.outcome.fault = none

def GoesThrough : Prop :=
  pass.RunnerFound ∧
    if job.cancelRetryCount < app.scheduler.maxCancelRetries then pass.Accepted ∧ pass.Recorded
    else pass.Failed

def ObservesTerminal : Prop :=
  pass.RunnerFound ∧ job.cancelRetryCount < app.scheduler.maxCancelRetries ∧ pass.Accepted ∧
    pass.write.outcome.fault = .none ∧
    ∃ t rest runnerRunId status, pass.rest = t :: rest ∧
      (RunnerRequest.getJobRun runnerRunId).receive app.limits t.outcome.reply = .ok status ∧
      status.status.isTerminal = true

end StuckPass

def Call.keepsTo (id : Id) : Call → Prop
  | .jobRun i _ => i = id
  | _ => True

section

open Program

variable {app : AppState} {job : JobRun}

lemma Call.isQuiet.keepsTo {c : Call} (h : c.isQuiet) (id : Id) : c.keepsTo id := by
  cases c with
  | jobRun i u => exact h.elim
  | _ => trivial

lemma keepsTo_quiets {α : Type} {p : Task α} (hp : p.Only Call.isQuiet) (id : Id) :
    p.Only (Call.keepsTo id) :=
  hp.mono fun _ hc => hc.keepsTo id

lemma keepsTo_update (u : JobUpdate) : (call (.jobRun job.id u)).Only (Call.keepsTo job.id) :=
  only_call rfl

lemma keepsTo_finalize (pipelineId id : Id) :
    (Db.finalizePipelineStatus pipelineId).Only (Call.keepsTo id) :=
  only_call trivial

lemma retryOrFailInfraError_keepsTo (reason stderr : String) (metadata : JobOutputMetadata)
    (stdout : String) :
    (retryOrFailInfraError app job reason stderr metadata stdout).Only (Call.keepsTo job.id) := by
  refine .ite (fun _ => ?_) fun _ => ?_
  · exact .bind (.bind (keepsTo_update _) fun _ => .pure _) fun _ => keepsTo_finalize _ _
  · exact .bind (keepsTo_update _) fun _ => keepsTo_finalize _ _

lemma finishPolledJob_keepsTo (runner : Runner) (runnerRunId : String) (status : JobStatusResponse) :
    (finishPolledJob app job runner runnerRunId status).Only (Call.keepsTo job.id) := by
  refine .bind (.attempt (only_call trivial)) fun logs => .ite (fun _ => ?_)
    fun _ => ?_
  · exact .bind (.bind (keepsTo_update _) fun _ => .pure _) fun _ => keepsTo_finalize _ _
  · refine .bind (.attempt (keepsTo_quiets (persistJobOutputs_only _ _ _) _)) fun outputs => ?_
    cases outputs with
    | error e => exact retryOrFailInfraError_keepsTo _ _ _ _
    | ok outputs => exact .bind (keepsTo_update _) fun _ => keepsTo_finalize _ _

lemma recordPolledStatus_keepsTo (runner : Runner) (runnerRunId : String)
    (answer : Except String JobStatusResponse) :
    (recordPolledStatus app job runner runnerRunId answer).Only (Call.keepsTo job.id) := by
  cases answer with
  | error e => exact .pure _
  | ok status =>
    refine .ite (fun _ => finishPolledJob_keepsTo _ _ _) fun _ => .ite (fun _ => .pure _) fun _ => ?_
    exact .bind (keepsTo_update _) fun _ => keepsTo_finalize _ _

lemma retryStuckCancellation_keepsTo (runner : Runner) (runnerRunId : String) :
    (retryStuckCancellation app job runner runnerRunId).Only (Call.keepsTo job.id) := by
  refine .ite (fun _ => ?_) fun _ => .pure _
  cases job.cancelStartedAt.or job.cancelRequestedAt with
  | none => exact .pure _
  | some startedAt =>
    refine .bind (only_call trivial) fun now => .ite (fun _ => .pure _) fun _ => .ite (fun _ => ?_)
      fun _ => ?_
    · exact .bind (keepsTo_update _) fun _ => .pure _
    · exact .bind (only_call trivial) fun _ => .bind (keepsTo_update _) fun _ => .pure _

variable (app job) in
lemma pollRunningJob_keepsTo : (pollRunningJob app job).Only (Call.keepsTo job.id) := by
  refine .bind (only_call trivial) fun runner => ?_
  split
  · refine .bind (retryStuckCancellation_keepsTo _ _) fun exhausted => .ite (fun _ => ?_) fun _ => ?_
    · exact keepsTo_finalize _ _
    · exact .bind (.attempt (only_call trivial)) fun status => recordPolledStatus_keepsTo _ _ _
  · exact .pure _

end

section

variable {app : AppState} {id : Id} {row : JobRun} {s : Store}

lemma turn_refused (t : Turn id) {c : Call} {e : String}
    (h : c.refusal t.outcome.fault = some e) :
    Turn.exec app c t s = (.error e, t.others s) :=
  exec_of_refusal h

lemma play_turn {α : Type} {c : Call} {x : c.Result} {f : c.Result → Task α} {t : Turn id}
    {s' : Store} (h : Turn.exec app c t s = (.ok x, s')) (ts : List (Turn id)) :
    ((call c >>= f).play (fun c t => Turn.exec app c t) (t :: ts) s).store =
      ((f x).play (fun c t => Turn.exec app c t) ts s').store := by
  rw [call, Program.play_request_ok h]
  rfl

lemma play_turn_error {α : Type} {c : Call} {e : String} {f : c.Result → Task α} {t : Turn id}
    {s' : Store} (h : Turn.exec app c t s = (.error e, s')) (ts : List (Turn id)) :
    ((call c >>= f).play (fun c t => Turn.exec app c t) (t :: ts) s).store = s' := by
  rw [call, Program.play_request_error h]

lemma play_turn_attempt {α : Type} {c : Call} {f : Except String c.Result → Task α} {t : Turn id}
    (ts : List (Turn id)) :
    (((call c).attempt >>= f).play (fun c t => Turn.exec app c t) (t :: ts) s).store =
      ((f (Turn.exec app c t s).1).play (fun c t => Turn.exec app c t) ts
        (Turn.exec app c t s).2).store := by
  simp only [call, Program.request, Program.attempt, Program.call_bind, Program.play]
  cases (Turn.exec app c t s).1 <;> rfl

variable (app)

lemma turn_row (t : Turn id) {c : Call} (hc : ∀ u, c ≠ .jobRun id u)
    (hrow : s.db.jobRuns.find? id = some row) :
    (Turn.exec app c t s).2.db.jobRuns.find? id = some row := by
  rw [← t.leaves s, Table.find?_eq_some_iff] at hrow
  rw [Table.find?_eq_some_iff]
  refine ⟨?_, hrow.2⟩
  have heffect := exec_effect (Prod.eta (c.exec app t.outcome (t.others s))).symm
  change row ∈ (c.exec app t.outcome (t.others s)).2.db.jobRuns.rows
  cases heffect with
  | untouched tables _ => rw [tables.jobRuns]; exact hrow.1
  | jobRun i u now key jobRuns _ _ =>
    rw [jobRuns, Table.mem_modify]
    refine ⟨row, hrow.1, .inr ⟨?_, rfl⟩⟩
    rintro rfl
    exact hc u (by rw [hrow.2])
  | pipelineRun _ _ _ jobRuns _ _ => rw [jobRuns]; exact hrow.1
  | createPipelineRun _ _ _ _ _ _ _ _ _ jobRuns _ _ _ => rw [jobRuns]; exact hrow.1
  | createJobRun _ _ _ _ _ _ _ _ _ jobRuns _ _ _ =>
    rw [Table.rows_insert? jobRuns]
    exact List.mem_append_left _ hrow.1
  | addPreviousJob _ _ _ _ jobRuns _ _ _ => rw [jobRuns]; exact hrow.1

lemma play_row {α : Type} {p : Task α} (hp : p.Only fun c => ∀ u, c ≠ .jobRun id u)
    (hrow : s.db.jobRuns.find? id = some row) (ts : List (Turn id)) :
    (p.play (fun c t => Turn.exec app c t) ts s).store.db.jobRuns.find? id = some row := by
  have hkeeps (c : Call) (t : Turn id) (s : Store) (hc : ∀ u, c ≠ .jobRun id u)
      (hs : s.db.jobRuns.find? id = some row) :
      (Turn.exec app c t s).2.db.jobRuns.find? id = some row := turn_row app t hc hs
  exact Program.play_only hkeeps hp hrow ts

lemma turn_update (t : Turn id) {u : JobUpdate} (hu : u ≠ .requeueJobRunForInfraRetry)
    (h : (Call.jobRun id u).refusal t.outcome.fault = none)
    (hrow : s.db.jobRuns.find? id = some row) :
    (Turn.exec app (.jobRun id u) t s).2.db.jobRuns.find? id =
      some (u.row t.outcome.now t.outcome.dispatchKey row) := by
  rw [← t.leaves s, Table.find?_eq_some_iff] at hrow
  rw [Turn.exec, exec_of_allowed h, Table.find?_eq_some_iff, (u.row_same _ _ row).id]
  refine ⟨?_, hrow.2⟩
  have hjobs : ((Call.jobRun id u).perform app t.outcome (t.others s)).2.db.jobRuns =
      (t.others s).db.jobRuns.modify id (u.row t.outcome.now t.outcome.dispatchKey)
        fun job => (u.row_same _ _ job).id := by
    cases u with
    | requeueJobRunForInfraRetry => exact absurd rfl hu
    | _ => rfl
  rw [hjobs, Table.mem_modify]
  exact ⟨row, hrow.1, .inl ⟨hrow.2, rfl⟩⟩

end

section

variable {app : AppState}

lemma not_within_of_stuck {startedAt now : ℕ}
    (h : startedAt + app.scheduler.cancelStuckTimeoutSeconds * 1000000000 ≤ now) :
    withinStuckTimeout app startedAt now = false := by
  unfold withinStuckTimeout
  refine decide_eq_false ?_
  rw [numSeconds, Int.tdiv_eq_ediv_of_nonneg (by omega), asI64, BitVec.toInt_eq_toNat_cond,
    BitVec.toNat_ofNat]
  have hmod := Nat.mod_le app.scheduler.cancelStuckTimeoutSeconds (2 ^ 64)
  split <;> omega

variable (app) (job : JobRun) (runner : Runner) (runnerRunId : String)

def afterRetry (exhausted : Bool) : Task Unit :=
  if exhausted then Db.finalizePipelineStatus job.pipelineRunId
  else do
    let status ← (RunnerClient.getJobRun runner runnerRunId).attempt
    recordPolledStatus app job runner runnerRunId status

def retryOrPoll : Task Unit :=
  retryCancellation app job runner runnerRunId false >>= afterRetry app job runner runnerRunId

variable {app job runner runnerRunId}

lemma retryOrPoll_exhausted (h : ¬ job.cancelRetryCount < app.scheduler.maxCancelRetries) :
    retryOrPoll app job runner runnerRunId =
      (call (.jobRun job.id .markJobRunCancelRetryExhausted) >>= fun _ =>
        Db.finalizePipelineStatus job.pipelineRunId) := by
  rw [retryOrPoll, retryCancellation, if_neg Bool.false_ne_true, if_pos (not_lt.mp h),
    Program.bind_assoc]
  rfl

lemma retryOrPoll_retry (h : job.cancelRetryCount < app.scheduler.maxCancelRetries) :
    retryOrPoll app job runner runnerRunId =
      (call (.runner runner (.cancelJobRun runnerRunId)) >>= fun _ =>
        call (.jobRun job.id .recordCancelRetry) >>= fun _ =>
          (call (.runner runner (.getJobRun runnerRunId))).attempt >>=
            fun answer : Except String (Call.runner runner (.getJobRun runnerRunId)).Result =>
              recordPolledStatus app job runner runnerRunId answer) := by
  rw [retryOrPoll, retryCancellation, if_neg Bool.false_ne_true, if_neg (not_le.mpr h)]
  simp only [Program.bind_assoc]
  rfl

lemma receive_cancel {limits : LimitsConfig} {reply : Except String HttpResponse} :
    (∃ u, (RunnerRequest.cancelJobRun runnerRunId).receive limits reply = .ok u) ↔
      ∃ response, reply = .ok response ∧ response.status = 202 := by
  constructor
  · rintro ⟨u, h⟩
    cases reply with
    | error e => cases h
    | ok response =>
      refine ⟨response, rfl, ?_⟩
      by_contra hstatus
      simp only [RunnerRequest.receive, Except.bind, if_pos hstatus] at h
      cases h
  · rintro ⟨response, rfl, hstatus⟩
    exact ⟨(), by simp only [RunnerRequest.receive, Except.bind, hstatus]; rfl⟩

end

namespace StuckPass

open Program

variable {app : AppState} {job : JobRun} (pass : StuckPass app job)

def visit : Played String PUnit (Turn job.id) Store :=
  (pollRunningJob app job).play (fun c t => Turn.exec app c t)
    (pass.lookup :: pass.clock :: pass.act :: pass.write :: pass.rest) pass.arrived

lemma jobs_ne : (∀ other ∈ pass.earlier, other.id ≠ job.id) ∧
    ∀ other ∈ pass.later, other.id ≠ job.id := by
  have hlisted := exec_query pass.listed
  obtain ⟨-, ⟨e, he⟩ | heval⟩ := hlisted
  · cases he
  have hjobs := Except.ok.inj heval
  have hnodup : ((pass.earlier ++ job :: pass.later).map JobRun.id).Nodup := by
    rw [hjobs]
    exact (pass.listing.others pass.start).db.jobRuns.unique.sublist (List.filter_sublist.map _)
  rw [List.map_append, List.map_cons, List.nodup_append] at hnodup
  obtain ⟨-, hlater, hdisjoint⟩ := hnodup
  constructor
  · intro other hother heq
    exact hdisjoint other.id (List.mem_map_of_mem hother) job.id List.mem_cons_self heq
  · intro other hother heq
    exact (List.nodup_cons.mp hlater).1 (heq ▸ List.mem_map_of_mem hother)

variable (app) in
lemma others_row {jobs : List JobRun} (hjobs : ∀ other ∈ jobs, other.id ≠ job.id) {s : Store}
    {row : JobRun} (hrow : s.db.jobRuns.find? job.id = some row) (turns : List (Turn job.id)) :
    ((jobs.forM (pollRunningJob app)).play (fun c t => Turn.exec app c t) turns s).store.db.jobRuns.find?
      job.id = some row := by
  have honly : (jobs.forM (pollRunningJob app)).Only fun c => ∀ u, c ≠ .jobRun job.id u := by
    induction jobs with
    | nil => trivial
    | cons other jobs ih =>
      refine .bind ((pollRunningJob_keepsTo app other).mono ?_) fun _ =>
        ih fun o ho => hjobs o (List.mem_cons_of_mem _ ho)
      rintro c hc u rfl
      exact hjobs other List.mem_cons_self hc.symm
  exact play_row app honly hrow turns

lemma arrived_row : pass.arrived.db.jobRuns.find? job.id = some job := by
  have hstart : (pass.listing.others pass.start).db.jobRuns.find? job.id = some job :=
    (pass.listing.leaves pass.start).trans pass.row
  have h := others_row app pass.jobs_ne.1 hstart pass.turns
  rwa [pass.reached] at h

lemma finish_row {row : JobRun} (h : pass.visit.store.db.jobRuns.find? job.id = some row) :
    pass.finish.db.jobRuns.find? job.id = some row := by
  have hlist : pass.finish = (((pass.earlier ++ job :: pass.later).forM (pollRunningJob app)).play
      (fun c t => Turn.exec app c t) pass.turns (pass.listing.others pass.start)).store := by
    have hplay : (pollRunningJobs app).play (fun c t => Turn.exec app c t)
        (pass.listing :: pass.turns) pass.start = (((pass.earlier ++ job :: pass.later).forM
          (pollRunningJob app)).play (fun c t => Turn.exec app c t) pass.turns
            (pass.listing.others pass.start)).tick := play_request_ok pass.listed pass.turns
    rw [finish, hplay]
    rfl
  rw [hlist, play_forM_reached pass.reached, play_bind, Played.andThen]
  split
  · exact others_row app pass.jobs_ne.2 h _
  · exact h
  · exact h

lemma visit_lookup
    (h : (Call.query (.getRunner job.runnerId)).refusal pass.lookup.outcome.fault = none) :
    pass.visit.store = ((match (pass.lookup.others pass.arrived).db.runners.find? job.runnerId,
        job.runnerRunId with
      | some runner, some runnerRunId => pollJobAtRunner app job runner runnerRunId
      | _, _ => pure ()).play (fun c t => Turn.exec app c t)
        (pass.clock :: pass.act :: pass.write :: pass.rest)
        (pass.lookup.others pass.arrived)).store := by
  have hexec : Turn.exec app (.query (.getRunner job.runnerId)) pass.lookup pass.arrived =
      (.ok ((pass.lookup.others pass.arrived).db.runners.find? job.runnerId),
        pass.lookup.others pass.arrived) := exec_of_allowed h
  exact play_turn hexec _

lemma visit_unfound (h : ¬ pass.RunnerFound) :
    pass.visit.store.db.jobRuns.find? job.id = some job := by
  have hrow : (pass.lookup.others pass.arrived).db.jobRuns.find? job.id = some job :=
    (pass.lookup.leaves pass.arrived).trans pass.arrived_row
  cases hr : (Call.query (.getRunner job.runnerId)).refusal pass.lookup.outcome.fault with
  | some e =>
    have hplay : pass.visit.store = pass.lookup.others pass.arrived :=
      play_turn_error (turn_refused _ hr) _
    rw [hplay]
    exact hrow
  | none =>
    rw [pass.visit_lookup hr]
    split
    · next runner runnerRunId hrunner hrun =>
      exact absurd ⟨hr, by rw [hrunner]; rfl, by rw [hrun]; rfl⟩ h
    · rw [play_pure]
      exact hrow

lemma visit_found (h : pass.RunnerFound) : ∃ runner runnerRunId s,
    s.db.jobRuns.find? job.id = some job ∧
      pass.visit.store = ((retryOrPoll app job runner runnerRunId).play (fun c t => Turn.exec app c t)
        (pass.act :: pass.write :: pass.rest) s).store := by
  obtain ⟨hr, hrunner, hrun⟩ := h
  obtain ⟨runner, hrunner⟩ := Option.isSome_iff_exists.mp hrunner
  obtain ⟨runnerRunId, hrun⟩ := Option.isSome_iff_exists.mp hrun
  obtain ⟨hstatus, startedAt, hstarted, hold⟩ := pass.stuck
  refine ⟨runner, runnerRunId, pass.clock.others (pass.lookup.others pass.arrived), ?_, ?_⟩
  · rw [pass.clock.leaves, pass.lookup.leaves]
    exact pass.arrived_row
  · have hclock : Turn.exec app Call.now pass.clock (pass.lookup.others pass.arrived) =
        (.ok pass.clock.outcome.now, pass.clock.others (pass.lookup.others pass.arrived)) := rfl
    have hprogram : pollJobAtRunner app job runner runnerRunId = (call .now >>= fun now =>
        retryCancellation app job runner runnerRunId (withinStuckTimeout app startedAt now) >>=
          afterRetry app job runner runnerRunId) := by
      rw [pollJobAtRunner, retryStuckCancellation, if_pos hstatus, hstarted]
      exact Program.bind_assoc _ _ _
    rw [pass.visit_lookup hr]
    simp only [hrunner, hrun]
    rw [hprogram, play_turn hclock, not_within_of_stuck hold]
    rfl

section

variable {s : Store} {row : JobRun}

lemma polled_row (hstatus : job.status = .cancelRequested ∨ job.status = .canceling) {k : ℕ}
    {runner : Runner} {runnerRunId : String} {status : JobStatusResponse}
    (hrunning : status.status.isTerminal = false)
    (hrow : ∃ row, s.db.jobRuns.find? job.id = some row ∧ row.cancelRetryCount = k)
    (ts : List (Turn job.id)) :
    ∃ row, ((recordPolledStatus app job runner runnerRunId (.ok status)).play
      (fun c t => Turn.exec app c t) ts s).store.db.jobRuns.find? job.id = some row ∧
        row.cancelRetryCount = k := by
  let keepsCount (c : Call) : Prop := (∀ u, c ≠ .jobRun job.id u) ∨
    ∃ next, (next = JobStatus.cancelRequested ∨ next = .canceling) ∧
      c = .jobRun job.id (.setJobRunStatus next)
  have honly : (recordPolledStatus app job runner runnerRunId (.ok status)).Only keepsCount := by
    simp only [recordPolledStatus, hrunning, Bool.false_eq_true, if_false]
    split
    · exact .pure _
    · refine .bind (only_call (.inr ⟨_, ?_, rfl⟩)) fun _ => only_call (.inl fun u h => by cases h)
      have hlive : job.status.live = true := by rcases hstatus with h | h <;> rw [h] <;> rfl
      rcases polledStatus_cases hlive status.status with h | h | h
      · rw [h]
        exact hstatus
      · exact .inl h
      · exact .inr h
  have hkeeps (c : Call) (t : Turn job.id) (s : Store) (hc : keepsCount c)
      (hs : ∃ row, s.db.jobRuns.find? job.id = some row ∧ row.cancelRetryCount = k) :
      ∃ row, (Turn.exec app c t s).2.db.jobRuns.find? job.id = some row ∧
        row.cancelRetryCount = k := by
    obtain ⟨row, hrow, hcount⟩ := hs
    rcases hc with hc | ⟨next, hnext, rfl⟩
    · exact ⟨row, turn_row app t hc hrow, hcount⟩
    · cases hr : (Call.jobRun job.id (.setJobRunStatus next)).refusal t.outcome.fault with
      | some e =>
        rw [turn_refused t hr]
        exact ⟨row, (t.leaves s).trans hrow, hcount⟩
      | none =>
        refine ⟨_, turn_update app t (by simp) hr hrow, ?_⟩
        rcases hnext with rfl | rfl
        · exact hcount
        · exact hcount
  exact play_only hkeeps honly hrow ts

lemma exhausted_row (hcount : ¬ job.cancelRetryCount < app.scheduler.maxCancelRetries)
    (runner : Runner) (runnerRunId : String) (hrow : s.db.jobRuns.find? job.id = some row)
    (act : Turn job.id) (ts : List (Turn job.id)) :
    ((retryOrPoll app job runner runnerRunId).play (fun c t => Turn.exec app c t)
      (act :: ts) s).store.db.jobRuns.find? job.id =
        some (if (Call.jobRun job.id .markJobRunCancelRetryExhausted).refusal act.outcome.fault = none
          then row.markCancelRetryExhausted act.outcome.now else row) := by
  rw [retryOrPoll_exhausted hcount]
  cases hr : (Call.jobRun job.id .markJobRunCancelRetryExhausted).refusal act.outcome.fault with
  | some e =>
    rw [play_turn_error (turn_refused act hr), act.leaves, hrow]
    rfl
  | none =>
    have hupdated := turn_update app act (by simp) hr hrow
    have hfault : act.outcome.fault = .none := by
      cases hfault : act.outcome.fault with
      | none => rfl
      | refused e => rw [hfault] at hr; cases hr
      | partway e => rw [hfault] at hr; cases hr
    have hexec : Turn.exec app (.jobRun job.id .markJobRunCancelRetryExhausted) act s =
        (.ok (), (Turn.exec app (.jobRun job.id .markJobRunCancelRetryExhausted) act s).2) := by
      refine Prod.ext ?_ rfl
      rw [Turn.exec, exec_of_allowed hr]
      simp only [Call.perform, hfault]
      rfl
    rw [play_turn hexec]
    exact play_row app (only_call fun u h => by cases h) hupdated ts

lemma refused_row (hcount : job.cancelRetryCount < app.scheduler.maxCancelRetries)
    (runner : Runner) (runnerRunId : String) (hrow : s.db.jobRuns.find? job.id = some row)
    (act : Turn job.id)
    (href : ¬ ∃ response, act.outcome.reply = .ok response ∧ response.status = 202)
    (ts : List (Turn job.id)) :
    ((retryOrPoll app job runner runnerRunId).play (fun c t => Turn.exec app c t)
      (act :: ts) s).store.db.jobRuns.find? job.id = some row := by
  rw [retryOrPoll_retry hcount]
  have hcancel := turn_row app (c := .runner runner (.cancelJobRun runnerRunId)) act
    (fun u h => by cases h) hrow
  rcases hexec : Turn.exec app (.runner runner (.cancelJobRun runnerRunId)) act s with ⟨x, s'⟩
  rw [hexec] at hcancel
  have hreceive : (RunnerRequest.cancelJobRun runnerRunId).receive app.limits act.outcome.reply = x :=
    congrArg Prod.fst hexec
  cases x with
  | error e =>
    rw [play_turn_error hexec]
    exact hcancel
  | ok u => exact absurd (receive_cancel.mp ⟨u, hreceive⟩) href

lemma retried_row (hcount : job.cancelRetryCount < app.scheduler.maxCancelRetries)
    (hstatus : job.status = .cancelRequested ∨ job.status = .canceling)
    (runner : Runner) (runnerRunId : String) (hrow : s.db.jobRuns.find? job.id = some row)
    (act write : Turn job.id)
    (haccepted : ∃ response, act.outcome.reply = .ok response ∧ response.status = 202)
    (ts : List (Turn job.id))
    (hlive : write.outcome.fault = .none → ∀ t rest runnerRunId status, ts = t :: rest →
      (RunnerRequest.getJobRun runnerRunId).receive app.limits t.outcome.reply = .ok status →
        status.status.isTerminal = false) :
    ∃ row', ((retryOrPoll app job runner runnerRunId).play (fun c t => Turn.exec app c t)
      (act :: write :: ts) s).store.db.jobRuns.find? job.id = some row' ∧
        ((Call.jobRun job.id .recordCancelRetry).refusal write.outcome.fault = none →
          row'.cancelRetryCount = row.cancelRetryCount + 1) ∧
        ((Call.jobRun job.id .recordCancelRetry).refusal write.outcome.fault ≠ none → row' = row) := by
  rw [retryOrPoll_retry hcount]
  have hcancel := turn_row app (c := .runner runner (.cancelJobRun runnerRunId)) act
    (fun u h => by cases h) hrow
  rcases hexec : Turn.exec app (.runner runner (.cancelJobRun runnerRunId)) act s with ⟨x, s₁⟩
  rw [hexec] at hcancel
  have hreceived : ∃ u, (RunnerRequest.cancelJobRun runnerRunId).receive app.limits
      act.outcome.reply = .ok u := receive_cancel.mpr haccepted
  obtain ⟨u, hu⟩ := hreceived
  obtain rfl : .ok u = x := hu.symm.trans (congrArg Prod.fst hexec)
  rw [play_turn hexec]
  cases hr : (Call.jobRun job.id .recordCancelRetry).refusal write.outcome.fault with
  | some e =>
    refine ⟨row, ?_, fun h => absurd h (by simp), fun _ => rfl⟩
    rw [play_turn_error (turn_refused write hr), write.leaves]
    exact hcancel
  | none =>
    have hupdated := turn_update app write (by simp) hr hcancel
    rcases hrecord : Turn.exec app (.jobRun job.id .recordCancelRetry) write s₁ with ⟨x, s₂⟩
    rw [hrecord] at hupdated
    have hcounted : ∃ row', s₂.db.jobRuns.find? job.id = some row' ∧
        row'.cancelRetryCount = row.cancelRetryCount + 1 := ⟨_, hupdated, rfl⟩
    suffices h : ∃ row', ((call (.jobRun job.id .recordCancelRetry) >>= fun _ =>
        (call (.runner runner (.getJobRun runnerRunId))).attempt >>=
          fun answer : Except String (Call.runner runner (.getJobRun runnerRunId)).Result =>
            recordPolledStatus app job runner runnerRunId answer).play (fun c t => Turn.exec app c t)
          (write :: ts) s₁).store.db.jobRuns.find? job.id = some row' ∧
            row'.cancelRetryCount = row.cancelRetryCount + 1 by
      obtain ⟨row', hrow', hcount'⟩ := h
      exact ⟨row', hrow', fun _ => hcount', fun h => absurd rfl h⟩
    cases x with
    | error e =>
      rw [play_turn_error hrecord]
      exact hcounted
    | ok count =>
      have hfault : write.outcome.fault = .none := by
        cases hfault : write.outcome.fault with
        | none => rfl
        | refused e => rw [hfault] at hr; cases hr
        | partway e =>
          rw [Turn.exec, exec_of_allowed hr] at hrecord
          simp only [Call.perform, hfault, Prod.mk.injEq] at hrecord
          cases hrecord.1
      rw [play_turn hrecord]
      cases ts with
      | nil => exact hcounted
      | cons t rest =>
        rw [play_turn_attempt]
        rcases hget : Turn.exec app (.runner runner (.getJobRun runnerRunId)) t s₂ with ⟨y, s₃⟩
        have hkept : ∃ row', s₃.db.jobRuns.find? job.id = some row' ∧
            row'.cancelRetryCount = row.cancelRetryCount + 1 := by
          obtain ⟨row', hrow', hcount'⟩ := hcounted
          have hsame := turn_row app (c := .runner runner (.getJobRun runnerRunId)) t
            (fun u h => by cases h) hrow'
          rw [hget] at hsame
          exact ⟨row', hsame, hcount'⟩
        cases y with
        | error e => exact (play_pure rest _ s₃).symm ▸ hkept
        | ok status =>
          have hreceive := congrArg Prod.fst hget
          exact polled_row hstatus (hlive hfault t rest runnerRunId status rfl hreceive) hkept rest

end

lemma finish_cases (hlive : ¬ pass.ObservesTerminal) : ∃ row,
    pass.finish.db.jobRuns.find? job.id = some row ∧
      (pass.GoesThrough → if job.cancelRetryCount < app.scheduler.maxCancelRetries then
        row.cancelRetryCount = job.cancelRetryCount + 1 else row.status = .failed) ∧
      (¬ pass.GoesThrough → row = job) := by
  by_cases hfound : pass.RunnerFound
  · obtain ⟨runner, runnerRunId, s, hrow, hvisit⟩ := pass.visit_found hfound
    by_cases hcount : job.cancelRetryCount < app.scheduler.maxCancelRetries
    · by_cases haccepted : pass.Accepted
      · obtain ⟨row, hrow', hrecorded, hrefused⟩ := retried_row hcount pass.stuck.1 runner runnerRunId
          hrow pass.act pass.write haccepted pass.rest fun hfault t rest id status hts hget => by
            refine Bool.eq_false_iff.mpr fun hterminal => hlive ?_
            exact ⟨hfound, hcount, haccepted, hfault, t, rest, id, status, hts, hget, hterminal⟩
        refine ⟨row, pass.finish_row (hvisit ▸ hrow'), ?_, ?_⟩
        · rintro ⟨-, hgoes⟩
          rw [if_pos hcount] at hgoes ⊢
          exact hrecorded hgoes.2
        · intro hstays
          refine hrefused fun hr => hstays ⟨hfound, ?_⟩
          rw [if_pos hcount]
          exact ⟨haccepted, hr⟩
      · have hrow' := refused_row hcount runner runnerRunId hrow pass.act haccepted
          (pass.write :: pass.rest)
        refine ⟨job, pass.finish_row (hvisit ▸ hrow'), ?_, fun _ => rfl⟩
        rintro ⟨-, hgoes⟩
        rw [if_pos hcount] at hgoes
        exact absurd hgoes.1 haccepted
    · have hrow' := exhausted_row hcount runner runnerRunId hrow pass.act (pass.write :: pass.rest)
      refine ⟨_, pass.finish_row (hvisit ▸ hrow'), ?_, ?_⟩
      · rintro ⟨-, hgoes⟩
        rw [if_neg hcount] at hgoes ⊢
        have hcarried : (Call.jobRun job.id .markJobRunCancelRetryExhausted).refusal
          pass.act.outcome.fault = none := hgoes
        rw [if_pos hcarried]
        rfl
      · intro hstays
        rw [if_neg fun hr => hstays ⟨hfound, by rw [if_neg hcount]; exact hr⟩]
  · exact ⟨job, pass.finish_row (pass.visit_unfound hfound), fun h => absurd h.1 hfound, fun _ => rfl⟩

include pass in
lemma not_failed : job.status ≠ .failed := by
  obtain ⟨h | h, -⟩ := pass.stuck <;> rw [h] <;> decide

lemma progresses_iff (hlive : ¬ pass.ObservesTerminal) : pass.Progresses ↔ pass.GoesThrough := by
  obtain ⟨row, hrow, hgoes, hstays⟩ := pass.finish_cases hlive
  constructor
  · rintro ⟨row', hrow', hmoved⟩
    obtain rfl := Option.some.inj (hrow.symm.trans hrow')
    by_contra hnot
    rw [hstays hnot] at hmoved
    rcases hmoved with hcount | hfailed
    · omega
    · exact pass.not_failed hfailed
  · intro h
    refine ⟨row, hrow, ?_⟩
    have hmoved := hgoes h
    split at hmoved
    · exact .inl hmoved
    · exact .inr hmoved

end StuckPass

/-- The store after so many passes that came to the job while its cancellation was stuck, and went
through with it. Between two of them its row stays. -/
inductive StuckPasses (app : AppState) (id : Id) : ℕ → Store → Prop
  | none (s : Store) : StuckPasses app id 0 s
  | next {n : ℕ} {s : Store} {job : JobRun} (before : StuckPasses app id n s)
      (pass : StuckPass app job) (same : job.id = id)
      (between : pass.start.db.jobRuns.find? id = s.db.jobRuns.find? id)
      (live : ¬ pass.ObservesTerminal) (through : pass.GoesThrough) :
      StuckPasses app id (n + 1) pass.finish

lemma StuckPasses.row {app : AppState} {id : Id} {n : ℕ} {s : Store} (h : StuckPasses app id n s)
    (hn : 0 < n) : ∃ row, s.db.jobRuns.find? id = some row ∧ (row.status = .failed ∨
      n ≤ row.cancelRetryCount ∧ row.cancelRetryCount ≤ app.scheduler.maxCancelRetries) := by
  induction h with
  | none s => omega
  | @next n s job before pass same between live through ih =>
    subst same
    obtain ⟨row, hrow, hgoes, -⟩ := pass.finish_cases live
    have hmoved := hgoes through
    refine ⟨row, hrow, ?_⟩
    split at hmoved
    · next hcount =>
      refine .inr ⟨?_, by omega⟩
      have hspent : n ≤ job.cancelRetryCount := by
        rcases Nat.eq_zero_or_pos n with rfl | hpos
        · exact Nat.zero_le _
        · obtain ⟨row', hrow', hcases⟩ := ih hpos
          obtain rfl := Option.some.inj (pass.row.symm.trans (between.trans hrow'))
          exact (hcases.resolve_left pass.not_failed).1
      omega
    · exact .inl hmoved

lemma computedStatus_of_failed {db : Database} {row : JobRun} (hrow : row ∈ db.jobRuns.rows)
    (hfailed : row.status = .failed) (hrequired : row.outcomePolicy.allowsFailure = false) :
    (db.computedStatus row.pipelineRunId).terminal = true := by
  have hjob : row.outcome ∈ (db.jobRunsOf row.pipelineRunId).map JobRun.outcome :=
    List.mem_map_of_mem (List.mem_filter.mpr ⟨hrow, by simp⟩)
  rw [Database.computedStatus]
  rcases terminalPipelineStatus_cases ((db.jobRunsOf row.pipelineRunId).map JobRun.outcome) with
    ⟨-, h⟩ | ⟨-, -, h⟩ | ⟨-, -, h⟩ | ⟨-, h⟩ | ⟨-, hnone, -⟩
  · rw [h]; rfl
  · rw [h]; rfl
  · rw [h]; rfl
  · rw [h]; rfl
  · exact absurd ⟨row.outcome, hjob, hfailed, hrequired⟩ hnone

/-- A pass that comes to a stuck cancellation moves it if and only if the runner is known and accepts
the repeated request, and the database writes the result; after one such pass more than there are
retries the job has ended. -/
theorem stuck_cancellations_progress_iff (app : AppState) :
    (∀ (job : JobRun) (pass : StuckPass app job), ¬ pass.ObservesTerminal →
      (pass.Progresses ↔ pass.GoesThrough)) ∧
    ∀ id s, StuckPasses app id (app.scheduler.maxCancelRetries + 1) s →
      ∃ row, s.db.jobRuns.find? id = some row ∧ row.status.terminal = true ∧
        (row.outcomePolicy.allowsFailure = false →
          (s.db.computedStatus row.pipelineRunId).terminal = true) := by
  refine ⟨fun job pass hlive => pass.progresses_iff hlive, fun id s h => ?_⟩
  obtain ⟨row, hrow, hcases⟩ := h.row (Nat.succ_pos _)
  have hfailed : row.status = .failed := by
    rcases hcases with hfailed | hcount
    · exact hfailed
    · omega
  refine ⟨row, hrow, by rw [hfailed]; rfl, ?_⟩
  exact computedStatus_of_failed (Table.mem_of_find? hrow) hfailed

def stuckJob : JobRun :=
  { sampleJob 10 0 with
    status := .cancelRequested, runnerRunId := some "run", cancelRequestedAt := some 0 }

def stuckStore : Store :=
  (samplePool (sampleDatabase 1 (.single samplePipeline) (.single stuckJob) .empty)).store

def turnOf (outcome : Outcome) : Turn stuckJob.id := ⟨outcome, fun s => s, fun _ => rfl⟩

def stuckPass (answer : Outcome) : StuckPass sampleApp stuckJob where
  start := stuckStore
  listing := turnOf {}
  turns := [turnOf {}, turnOf { now := 60000000000 }, turnOf answer, turnOf {}]
  earlier := []
  later := []
  answered := 0
  arrived := stuckStore
  lookup := turnOf {}
  clock := turnOf { now := 60000000000 }
  act := turnOf answer
  write := turnOf {}
  rest := []
  row := rfl
  listed := rfl
  reached := rfl
  stuck := ⟨.inl rfl, 0, rfl, by decide⟩

lemma stuckPass_live (answer : Outcome) : ¬ (stuckPass answer).ObservesTerminal := by
  rintro ⟨-, -, -, -, t, rest, runnerRunId, status, hts, -⟩
  cases hts

theorem stuck_unreachable :
    ¬ (stuckPass {}).ObservesTerminal ∧ ¬ (stuckPass {}).Progresses := by
  refine ⟨stuckPass_live _, fun h => ?_⟩
  obtain ⟨-, hgoes⟩ := ((stuckPass {}).progresses_iff (stuckPass_live _)).mp h
  obtain ⟨⟨response, hreply, -⟩, -⟩ := hgoes
  cases hreply

theorem stuck_cancellations_progress_accepted :
    (stuckPass { reply := .ok ⟨202, none, .ok {}⟩ }).Progresses := by
  refine ((stuck_cancellations_progress_iff sampleApp).1 stuckJob _ (stuckPass_live _)).mpr ?_
  exact ⟨⟨rfl, rfl, rfl⟩, ⟨_, rfl, rfl⟩, rfl⟩

end Janus.Server
