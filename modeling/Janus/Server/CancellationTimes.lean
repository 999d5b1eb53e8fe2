import Janus.Server.Clocks
import Janus.Server.ObservedRuns

/-! How much time a cancellation is given before it is repeated, and before it is given up. -/

namespace Janus.Server

open Janus.Concurrency Janus.Data

def timing (app : AppState) (gap : ℕ) (r : Role) : Discipline Call Call.Result String Clocked where
  rely s s' := r.scheduler = true → s.Awaits s'
  inv s := s.Timely app gap
  admits c s x s' := ∃ o, (clocked app).exec c o s = (x, s') ∧ s.time ≤ o.now ∧
    c.Spaced gap o s.store
  before c s := (r.scheduler = false → c.isOutside) ∧ (r.scheduler = true → c.Repeats app gap s) ∧
    c.Due app gap s

def Clocked.Holds (s : Clocked) (J : JobRun) : Prop := ∃ R ∈ s.jobs, R.id = J.id ∧ J.Lasts R

def JobRun.Stopping (J : JobRun) : Prop := J.status = .cancelRequested ∨ J.status = .canceling

structure JobRun.Listed (gap : ℕ) (t : Timestamp) (J : JobRun) : Prop where
  rested : J.Stopping → ∀ x ∈ J.lastCancelRetryAt, x + gap ≤ t
  fresh : ¬ J.Stopping → J.cancelRetryCount = 0

structure Clocked.Todo (gap : ℕ) (Js : List JobRun) (s : Clocked) : Prop where
  nodup : (Js.map JobRun.id).Nodup
  holds : ∀ J ∈ Js, s.Holds J
  listed : ∀ J ∈ Js, J.Listed gap s.time

def Clocked.Ripe (app : AppState) (gap : ℕ) (J : JobRun) (s : Clocked) : Prop :=
  ∃ R ∈ s.jobs, R.id = J.id ∧ J.Lasts R ∧ R.Ripe app gap s.time

structure Clocked.Round (gap : ℕ) (J : JobRun) (Js : List JobRun) (s : Clocked) : Prop where
  todo : s.Todo gap Js
  other : J.id ∉ Js.map JobRun.id
  fresh : ¬ J.Stopping → ∃ R ∈ s.jobs, R.id = J.id ∧ R.cancelRetryCount = 0

section

variable {app : AppState} {gap : ℕ} {s s' : Clocked} {J R : JobRun} {Js : List JobRun}

lemma clocked_row (hR : R ∈ s.jobs) {R' : JobRun} (hR' : R' ∈ s.jobs) (hid : R'.id = R.id) : R' = R :=
  Database.jobRun_eq hR' hR hid

lemma Clocked.Holds.awaits (h : s.Holds J) (ha : s.Awaits s') : s'.Holds J := by
  obtain ⟨R, hR, hid, hlasts⟩ := h
  obtain ⟨R', hR', hid', hlasts'⟩ := ha.jobs R hR
  exact ⟨R', hR', hid'.trans hid, hlasts.trans hlasts'⟩

lemma JobRun.Listed.mono {t t' : Timestamp} (h : J.Listed gap t) (ht : t ≤ t') : J.Listed gap t' :=
  ⟨fun hst x hx => (h.rested hst x hx).trans ht, h.fresh⟩

lemma Clocked.Todo.awaits (h : s.Todo gap Js) (ha : s.Awaits s') : s'.Todo gap Js :=
  ⟨h.nodup, fun J hJ => (h.holds J hJ).awaits ha, fun J hJ => (h.listed J hJ).mono ha.time⟩

lemma Clocked.Ripe.awaits (h : s.Ripe app gap J) (ha : s.Awaits s') : s'.Ripe app gap J := by
  obtain ⟨R, hR, hid, hlasts, hripe⟩ := h
  obtain ⟨R', hR', hid', hlasts'⟩ := ha.jobs R hR
  exact ⟨R', hR', hid'.trans hid, hlasts.trans hlasts', hripe.lasts hlasts' ha.time⟩

lemma Clocked.Round.awaits (h : s.Round gap J Js) (ha : s.Awaits s') : s'.Round gap J Js := by
  refine ⟨h.todo.awaits ha, h.other, fun hst => ?_⟩
  obtain ⟨R, hR, hid, hcount⟩ := h.fresh hst
  obtain ⟨R', hR', hid', hlasts⟩ := ha.jobs R hR
  exact ⟨R', hR', hid'.trans hid, hlasts.count.trans hcount⟩

lemma Clocked.Todo.round (h : s.Todo gap (J :: Js)) : s.Round gap J Js := by
  obtain ⟨hother, hnodup⟩ := List.nodup_cons.mp h.nodup
  refine ⟨⟨hnodup, fun K hK => h.holds K (List.mem_cons_of_mem _ hK),
    fun K hK => h.listed K (List.mem_cons_of_mem _ hK)⟩, hother, fun hst => ?_⟩
  obtain ⟨R, hR, hid, hlasts⟩ := h.holds J List.mem_cons_self
  exact ⟨R, hR, hid, hlasts.count.trans ((h.listed J List.mem_cons_self).fresh hst)⟩

lemma Clocked.Todo.ripe (h : s.Todo gap (J :: Js)) (hst : J.Stopping) {x : Timestamp}
    (hx : J.cancelStartedAt.or J.cancelRequestedAt = some x) (hle : x + app.stuckTimeout ≤ s.time) :
    s.Ripe app gap J := by
  obtain ⟨R, hR, hid, hlasts⟩ := h.holds J List.mem_cons_self
  have hripe : J.Ripe app gap s.time := by
    refine ⟨?_, ⟨x, hx, hle⟩, (h.listed J List.mem_cons_self).rested hst⟩
    rcases hst with hst | hst <;> rw [hst] <;> decide
  exact ⟨R, hR, hid, hlasts, hripe.lasts hlasts (Nat.le_refl _)⟩

lemma Clocked.Ripe.repeats (h : s.Ripe app gap J) {runner : Runner} {runId : String}
    (hrunner : J.runnerId = runner.id) (hrun : J.runnerRunId = some runId) :
    (Call.runner runner (.cancelJobRun runId)).Repeats app gap s := by
  obtain ⟨R, hR, -, hlasts, hripe⟩ := h
  exact ⟨R, hR, hlasts.runner.trans hrunner, hlasts.run.trans hrun, hripe⟩

lemma Clocked.Todo.update {u : JobUpdate} {o : Outcome} {x : Except String u.Result}
    (h : s.Todo gap Js) (hother : J.id ∉ Js.map JobRun.id) (ht : s.time ≤ o.now)
    (hexec : (clocked app).exec (.jobRun J.id u) o s = (x, s')) : s'.Todo gap Js := by
  obtain ⟨hcall, htime⟩ := clocked_exec hexec
  refine ⟨h.nodup, fun K hK => ?_, fun K hK => (h.listed K hK).mono (htime ▸ ht)⟩
  obtain ⟨R, hR, hid, hlasts⟩ := h.holds K hK
  refine ⟨R, ?_, hid, hlasts⟩
  rcases exec_jobRun_cases hcall with ⟨hjobs, -⟩ | ⟨hjobs, -⟩
  · rw [Clocked.jobs, hjobs]
    exact hR
  · rw [Clocked.jobs, hjobs, Table.mem_modify]
    refine ⟨R, hR, .inr ⟨fun he => hother ?_, rfl⟩⟩
    rw [← he, hid]
    exact List.mem_map_of_mem hK

lemma JobUpdate.row_count_zero {u : JobUpdate} (hu : u ≠ .recordCancelRetry)
    (hR : R.cancelRetryCount = 0) (now : Timestamp) (key : Id) :
    (u.row now key R).cancelRetryCount = 0 := by
  cases u with
  | finishJobRun status _ _ _ _ _ _ _ _ =>
    simp only [row, JobRun.finish]
    split
    · exact hR
    · rfl
  | setJobRunStatus status =>
    simp only [row, JobRun.setStatus]
    split
    · exact hR
    · rfl
  | setJobRunStarted _ _ => rfl
  | requeueJobRunForInfraRetry => rfl
  | markJobRunCancelRequested _ => exact hR
  | markJobRunCancelRetryExhausted => exact hR
  | recordCancelRetry => exact absurd rfl hu

lemma Clocked.Round.update {u : JobUpdate} {o : Outcome} {x : Except String u.Result}
    (h : s.Round gap J Js) (hu : ¬ J.Stopping → u ≠ .recordCancelRetry) (ht : s.time ≤ o.now)
    (hexec : (clocked app).exec (.jobRun J.id u) o s = (x, s')) : s'.Round gap J Js := by
  refine ⟨h.todo.update h.other ht hexec, h.other, fun hst => ?_⟩
  obtain ⟨R, hR, hid, hcount⟩ := h.fresh hst
  obtain ⟨hcall, -⟩ := clocked_exec hexec
  rcases exec_jobRun_cases hcall with ⟨hjobs, -⟩ | ⟨hjobs, -⟩
  · exact ⟨R, by rw [Clocked.jobs, hjobs]; exact hR, hid, hcount⟩
  · refine ⟨u.row o.now o.dispatchKey R, ?_, (u.row_same _ _ R).id.trans hid,
      u.row_count_zero (hu hst) hcount _ _⟩
    rw [Clocked.jobs, hjobs, Table.mem_modify]
    exact ⟨R, hR, .inl ⟨hid, rfl⟩⟩

end

def Call.Polls (J : JobRun) (c : Call) : Prop :=
  c.keepsTo J.id ∧ (c.isFree ∨ c = .jobRun J.id (.setJobRunStatus .cancelRequested) ∧ ¬ J.Stopping)

section

open Program

variable {app : AppState} {J : JobRun}

lemma recordPolledStatus_polls (runner : Runner) (runId : String)
    (answer : Except String JobStatusResponse) :
    (recordPolledStatus app J runner runId answer).Only (Call.Polls J) := by
  cases answer with
  | error e => exact .pure _
  | ok status =>
    refine .ite (fun _ => ?_) fun _ => .ite (fun _ => .pure _) fun hne => ?_
    · refine Only.mono (fun c hc => ⟨hc.1, .inl hc.2⟩)
        (.and (finishPolledJob_keepsTo runner runId status)
          (free_footprint.finishPolledJob J runner runId status))
    · refine .bind (only_call ⟨rfl, ?_⟩) fun _ => only_call ⟨trivial, .inl trivial⟩
      by_cases hreq : polledStatus J.status status.status = .cancelRequested
      · rw [hreq] at hne ⊢
        refine .inr ⟨rfl, fun hst => ?_⟩
        rcases hst with hst | hst
        · exact hne hst
        · rw [hst] at hreq
          cases hstatus : status.status <;> rw [hstatus] at hreq <;> cases hreq
      · exact .inl hreq

variable {gap : ℕ} {r : Role} {s : Clocked} {Js : List JobRun} (hr : r.scheduler = true)

include hr

lemma timing_before {c : Call} (hrepeats : c.Repeats app gap s) (hc : c.Due app gap s) :
    (timing app gap r).before c s :=
  ⟨fun h => absurd hr (by rw [h]; exact Bool.false_ne_true), fun _ => hrepeats, hc⟩

lemma polls_safe {α : Type} {p : Task α} (hp : p.Only (Call.Polls J)) (hs : s.Round gap J Js) :
    Safe (timing app gap r) (fun _ s' => s'.Round gap J Js) p s := by
  refine Safe.of_only (fun s s' h hrely _ => h.awaits (hrely hr)) (fun c s hc h _ => ?_)
    (fun c s x s' hc h _ ha => ?_) hp hs
  · obtain ⟨-, hfree | ⟨rfl, hst⟩⟩ := hc
    · exact timing_before hr hfree.repeats hfree.due
    · refine timing_before hr trivial ?_
      rintro R hR hid -
      obtain ⟨R', hR', hid', hcount⟩ := h.fresh hst
      rw [clocked_row hR' hR (hid.trans hid'.symm)]
      exact hcount
  · obtain ⟨o, hexec, ht, -⟩ := ha
    cases hjob : c.updatesJob with
    | false => exact h.awaits (exec_awaits hjob ht hexec)
    | true =>
      cases c with
      | jobRun id u =>
        obtain rfl : id = J.id := hc.1
        refine h.update (fun _ => ?_) ht hexec
        rintro rfl
        obtain ⟨-, hfree | ⟨he, -⟩⟩ := hc
        · exact hfree
        · cases he
      | _ => cases hjob

omit hr in
lemma stuck_of_not_within (hT : app.scheduler.cancelStuckTimeoutSeconds < 2 ^ 63) {x now : ℕ}
    (hx : x ≤ now) (h : withinStuckTimeout app x now = false) : x + app.stuckTimeout ≤ now := by
  unfold withinStuckTimeout at h
  have hle := of_decide_eq_false h
  unfold AppState.stuckTimeout
  rw [numSeconds, Int.tdiv_eq_ediv_of_nonneg (by omega), asI64, BitVec.toInt_eq_toNat_cond,
    BitVec.toNat_ofNat, Nat.mod_eq_of_lt (hT.trans (by decide)), if_pos (by omega)] at hle
  omega

lemma ripe_write {u : JobUpdate} (hst : J.Stopping)
    (hu : ∀ t R, J.Lasts R → R.Ripe app gap t → u.Due app gap t R) (htodo : s.Todo gap (J :: Js))
    (hripe : s.Ripe app gap J) :
    Safe (timing app gap r) (fun _ s' => s'.Round gap J Js) (call (.jobRun J.id u)) s := by
  refine Safe.request (P := fun s => s.Todo gap (J :: Js) ∧ s.Ripe app gap J) ⟨htodo, hripe⟩
    (fun s s' h hrely _ => ⟨h.1.awaits (hrely hr), h.2.awaits (hrely hr)⟩) fun s₁ hs₁ _ => ?_
  obtain ⟨htodo, R, hR, hid, hlasts, hripe⟩ := hs₁
  refine ⟨timing_before hr trivial fun R' hR' hid' => ?_, ?_⟩
  · rw [clocked_row hR hR' (hid'.trans hid.symm)]
    exact hu _ R hlasts hripe
  · rintro x s₂ ⟨o, hexec, ht, -⟩
    exact htodo.round.update (fun hn => absurd hst hn) ht hexec

lemma retryStuckCancellation_timed (hT : app.scheduler.cancelStuckTimeoutSeconds < 2 ^ 63)
    {runner : Runner} {runId : String} (hrunner : J.runnerId = runner.id)
    (hrun : J.runnerRunId = some runId) (hs : s.Todo gap (J :: Js)) :
    Safe (timing app gap r) (fun _ s' => s'.Round gap J Js)
      (retryStuckCancellation app J runner runId) s := by
  have hstable (s s' : Clocked) (h : s.Todo gap (J :: Js)) (hrely : (timing app gap r).rely s s')
      (_ : (timing app gap r).inv s') : s'.Todo gap (J :: Js) := h.awaits (hrely hr)
  refine Safe.ite (fun hst => ?_) fun _ => hs.round
  cases hx : J.cancelStartedAt.or J.cancelRequestedAt with
  | none => exact hs.round
  | some x =>
    refine Safe.bind (Safe.request hs hstable fun s₁ hs₁ hi₁ => ⟨timing_before hr trivial trivial, ?_⟩)
    rintro y s₂ ⟨o, hexec, ht, -⟩
    have hs₂ := hs₁.awaits (exec_awaits rfl ht hexec)
    cases y with
    | error e => exact hs₂.round
    | ok now =>
      obtain ⟨hcall, htime⟩ := clocked_exec hexec
      have hnow : now = s₂.time := by
        rw [htime]
        exact (Except.ok.inj (Prod.mk.inj hcall).1).symm
      have hxle : x ≤ now := by
        obtain ⟨R, hR, -, hlasts⟩ := hs₁.holds J List.mem_cons_self
        rw [hnow, htime]
        refine ((hi₁ R hR).canceled_le x ?_).trans ht
        rcases JobRun.canceledAt_of_or hx with hx | hx
        · exact .inl (hlasts.requested x hx)
        · exact .inr (hlasts.started ▸ hx)
      refine Safe.ite (fun _ => hs₂.round) fun hnot => ?_
      have hle : x + app.stuckTimeout ≤ s₂.time :=
        hnow ▸ stuck_of_not_within hT hxle (by simpa using hnot)
      refine Safe.ite (fun hmax => ?_) fun _ => ?_
      · refine Safe.bind (Safe.mono ?_ (ripe_write hr hst (fun t R hlasts hripe => ?_) hs₂
          (hs₂.ripe hst hx hle)))
        · intro z s₃ hs₃
          cases z <;> exact hs₃
        · exact ⟨hripe, hlasts.count ▸ hmax⟩
      · refine Safe.bind (Safe.request (P := fun s => s.Todo gap (J :: Js) ∧ s.Ripe app gap J)
          ⟨hs₂, hs₂.ripe hst hx hle⟩ (fun s s' h hrely _ => ⟨h.1.awaits (hrely hr), h.2.awaits (hrely hr)⟩)
          fun s₃ hs₃ _ => ⟨timing_before hr (hs₃.2.repeats hrunner hrun) trivial, ?_⟩)
        rintro z s₄ ⟨o, hexec, ht, -⟩
        have ha := exec_awaits rfl ht hexec
        cases z with
        | error e => exact (hs₃.1.awaits ha).round
        | ok _ =>
          refine Safe.bind (Safe.mono ?_ (ripe_write hr hst (fun _ _ _ hripe => hripe)
            (hs₃.1.awaits ha) (hs₃.2.awaits ha)))
          intro z s₅ hs₅
          cases z <;> exact hs₅

omit hr in
lemma found_runner {runnerId : String} {runner : Runner} {o : Outcome} {s s' : Store}
    (h : (Call.query (.getRunner runnerId)).exec app o s = (.ok (some runner), s')) :
    runnerId = runner.id := by
  obtain ⟨-, ⟨e, he⟩ | heval⟩ := exec_query h
  · cases he
  · exact (Table.key_of_find? (Except.ok.inj heval).symm).symm

lemma pollRunningJob_timed (hT : app.scheduler.cancelStuckTimeoutSeconds < 2 ^ 63)
    (hs : s.Todo gap (J :: Js)) :
    Safe (timing app gap r) (fun _ s' => s'.Todo gap Js) (pollRunningJob app J) s := by
  have hstable (s s' : Clocked) (h : s.Todo gap (J :: Js)) (hrely : (timing app gap r).rely s s')
      (_ : (timing app gap r).inv s') : s'.Todo gap (J :: Js) := h.awaits (hrely hr)
  refine Safe.bind (Safe.request hs hstable fun s₁ hs₁ _ => ⟨timing_before hr trivial trivial, ?_⟩)
  rintro y s₂ ⟨o, hexec, ht, -⟩
  have hs₂ := hs₁.awaits (exec_awaits rfl ht hexec)
  cases y with
  | error e => exact hs₂.round.todo
  | ok found =>
    cases found with
    | none => exact hs₂.round.todo
    | some runner =>
      cases hrun : J.runnerRunId with
      | none => exact hs₂.round.todo
      | some runId =>
        have hrunner : J.runnerId = runner.id := found_runner (clocked_exec hexec).1
        refine Safe.bind (Safe.mono ?_ (retryStuckCancellation_timed hr hT hrunner hrun hs₂))
        intro z s₃ hs₃
        cases z with
        | error e => exact hs₃.todo
        | ok exhausted =>
          refine Safe.mono (fun _ _ h => h.todo) (polls_safe hr ?_ hs₃)
          refine .ite (fun _ => only_call ⟨trivial, .inl trivial⟩) fun _ => ?_
          exact .bind (.attempt (only_call ⟨trivial, .inl trivial⟩)) fun status =>
            recordPolledStatus_polls runner runId status

lemma pollRunningJobs_timed (hT : app.scheduler.cancelStuckTimeoutSeconds < 2 ^ 63) (s : Clocked) :
    Safe (timing app gap r) (fun _ _ => True) (pollRunningJobs app) s := by
  refine Safe.bind (Safe.request (P := fun _ => True) trivial (fun _ _ _ _ _ => trivial)
    fun s₁ _ hi₁ => ⟨timing_before hr trivial trivial, ?_⟩)
  rintro y s₂ ⟨o, hexec, ht, hspaced⟩
  have ha := exec_awaits rfl ht hexec
  obtain ⟨hcall, htime⟩ := clocked_exec hexec
  cases y with
  | error e => trivial
  | ok jobs =>
    have hjobs : jobs = s₁.jobs.filter fun job =>
        [JobStatus.running, .cancelRequested, .canceling].contains job.status := by
      obtain ⟨-, ⟨e, he⟩ | heval⟩ := exec_query hcall
      · cases he
      · exact Except.ok.inj heval
    have hlisted : s₂.Todo gap jobs := by
      refine ⟨?_, fun J hJ => ?_, fun J hJ => ?_⟩
      · rw [hjobs]
        exact s₁.store.db.jobRuns.unique.sublist (List.filter_sublist.map _)
      · rw [hjobs] at hJ
        exact Clocked.Holds.awaits ⟨J, (List.mem_filter.mp hJ).1, rfl, .refl J⟩ ha
      · rw [hjobs] at hJ
        obtain ⟨hmem, hst⟩ := List.mem_filter.mp hJ
        refine ⟨fun hstop x hx => htime ▸ hspaced J hmem (by simpa using hst) hstop x hx, fun hstop => ?_⟩
        refine (hi₁ J hmem).running ?_
        have hcases : J.status = .running ∨ J.status = .cancelRequested ∨ J.status = .canceling := by
          simpa using hst
        exact hcases.resolve_right hstop
    refine Safe.forM (I := fun Js s => s.Todo gap Js) (fun _ _ => trivial) (fun J Js s h => ?_) hlisted
    refine Safe.mono (fun z s' hs' => ?_) (pollRunningJob_timed hr hT h)
    cases z with
    | error e => trivial
    | ok _ => exact hs'

end

section

variable {app : AppState} {gap : ℕ} {r : Role}

lemma free_safe (hr : r.scheduler = true) {α : Type} {p : Task α} (hp : p.Only Call.isFree)
    (s : Clocked) : Safe (timing app gap r) (fun _ _ => True) p s :=
  Safe.of_only (A := fun _ => True) (fun _ _ _ _ _ => trivial)
    (fun _ _ hc _ _ => timing_before hr hc.repeats hc.due) (fun _ _ _ _ _ _ _ _ => trivial) hp trivial

lemma outside_timed (hr : r.scheduler = false) {α : Type} {p : Task α} (hp : p.Only Call.isOutside)
    (s : Clocked) : Safe (timing app gap r) (fun _ _ => True) p s := by
  refine Safe.of_only (A := fun _ => True) (fun _ _ _ _ _ => trivial) (fun c s hc _ _ => ?_)
    (fun _ _ _ _ _ _ _ _ => trivial) hp trivial
  exact ⟨fun _ => hc, fun h => absurd (h.symm.trans hr) Bool.true_eq_false.mp, hc.due⟩

lemma timing_bind {α : Type} {p : Task α} {f : α → Task Unit} {s : Clocked}
    (hp : Safe (timing app gap r) (fun _ _ => True) p s)
    (hf : ∀ a s, Safe (timing app gap r) (fun _ _ => True) (f a) s) :
    Safe (timing app gap r) (fun _ _ => True) (p >>= f) s := by
  refine Safe.bind (Safe.mono ?_ hp)
  intro x s₁ _
  cases x with
  | error e => trivial
  | ok a => exact hf a s₁

lemma dispatch_free : (dispatchPendingJobs app).Only Call.isFree :=
  free_footprint.dispatchPendingJobs (fun _ _ _ _ _ => trivial) fun _ _ _ => trivial

lemma timing_program (hT : app.scheduler.cancelStuckTimeoutSeconds < 2 ^ 63) (r : Role) (s : Clocked) :
    Safe (timing app gap r) (fun _ _ => True) (r.program app) s := by
  have hfree := free_push
  have houtside := outside_footprint
  cases r with
  | recovery => exact free_safe rfl hfree.recoverIncompletePipelines s
  | pushEvents => exact free_safe rfl hfree.processPushEvents s
  | dispatch => exact free_safe rfl dispatch_free s
  | poll => exact pollRunningJobs_timed rfl hT s
  | reconcile =>
    refine timing_bind (free_safe rfl hfree.recoverIncompletePipelines s) fun _ s₁ => ?_
    refine timing_bind (free_safe rfl hfree.processPushEvents s₁) fun _ s₂ => ?_
    exact timing_bind (free_safe rfl dispatch_free s₂) fun _ s₃ => pollRunningJobs_timed rfl hT s₃
  | cancel pipelineId => exact outside_timed rfl (houtside.cancelPipeline pipelineId) s
  | enqueue number workflow triggerType triggerRef commitSha selections =>
    exact outside_timed rfl (.bind (houtside.enqueue _ _ _ _ _ _) fun _ => .pure _) s

end

/-- The clock does not go back, and no pass lists a job within the `gap` after its last retry. -/
def Ticking (gap : ℕ) (p : ClockedPool) (e : ServerEvent) : Prop :=
  ∀ c ∈ p.call? e, p.store.time ≤ e.outcome.now ∧ c.Spaced gap e.outcome p.store.store

theorem timingOutline (gap : ℕ) {app : AppState}
    (hT : app.scheduler.cancelStuckTimeoutSeconds < 2 ^ 63) :
    System.Outline (clocked app) (Ticking gap) (Clocked.Timely app gap) (timing app gap)
      fun _ _ _ => True where
  inv_eq _ := rfl
  trans _ _ _ _ h h' hr := (h hr).trans (h' hr)
  post_stable _ _ _ _ _ _ := trivial
  refl _ s _ := .refl s
  start p r _ _ := timing_program hT r p.store
  admits p i o r c next _ hok ht _ := by
    obtain ⟨htime, hspaced⟩ := hok c (by simp [Pool.call?, ht])
    exact ⟨o, rfl, htime, hspaced⟩
  keeps r s s' hi := by
    rintro ⟨c, x, ⟨-, -, hdue⟩, o, hexec, ht, -⟩
    exact hi.exec ht hdue hexec
  compat p i o r c next r' _ _ _ _ hbeside := by
    rintro ⟨houtside, -⟩ ⟨o, hexec, ht, -⟩ hr'
    exact outside_awaits (houtside (not_scheduler_beside hbeside hr')) ht hexec
  environ p v _ hi := by
    cases v with
    | runEnds runId => exact ⟨hi, fun _ _ => ⟨Nat.le_refl _, fun R hR => ⟨R, hR, rfl, .refl R⟩⟩⟩
  crash _ _ hi := hi

/-- A cancellation has had its time when a pass repeats it at the runner, records that, or gives it
up. -/
structure Patient (app : AppState) (gap : ℕ) (p : ClockedPool) (e : ServerEvent) : Prop where
  repeated : ∀ i o r runner runId next, e = .step i o →
    p.tasks[i]? = some (r, .call (.runner runner (.cancelJobRun runId)) next) → r.scheduler = true →
      ∃ R ∈ p.store.jobs, R.runnerId = runner.id ∧ R.runnerRunId = some runId ∧ R.Ripe app gap o.now
  recorded : ∀ id, p.call? e = some (.jobRun id .recordCancelRetry) → ∀ R ∈ p.store.jobs, R.id = id →
    R.Ripe app gap e.outcome.now
  exhausted : ∀ id, p.call? e = some (.jobRun id .markJobRunCancelRetryExhausted) →
    ∀ R ∈ p.store.jobs, R.id = id → R.Ripe app gap e.outcome.now ∧ ∃ x, R.CanceledAt x ∧
      x + app.stuckTimeout + app.scheduler.maxCancelRetries * gap ≤ e.outcome.now

lemma patient_of_sound {app : AppState} {gap : ℕ} {p : ClockedPool} {e : ServerEvent}
    (hT : app.scheduler.cancelStuckTimeoutSeconds < 2 ^ 63)
    (h : System.Sound (clocked app) (Clocked.Timely app gap) (timing app gap) (fun _ _ _ => True) p)
    (hok : Ticking gap p e) : Patient app gap p e := by
  have hdue {c : Call} (hc : p.call? e = some c) : c.Due app gap p.store := by
    obtain ⟨i, o, r, next, rfl, ht⟩ := Pool.call?_eq_some hc
    exact (h.before (timingOutline gap hT) (List.mem_of_getElem? ht)).2.2
  constructor
  · rintro i o r runner runId next rfl ht hr
    have hrepeats := (h.before (timingOutline gap hT) (List.mem_of_getElem? ht)).2.1 hr
    have hc : p.call? (.step i o : ServerEvent) = some (.runner runner (.cancelJobRun runId)) := by
      simp [Pool.call?, ht]
    obtain ⟨R, hR, hrunner, hrun, hripe⟩ := hrepeats
    exact ⟨R, hR, hrunner, hrun, hripe.mono (hok _ hc).1⟩
  · intro id hc R hR hid
    exact JobRun.Ripe.mono (hdue hc R hR hid) (hok _ hc).1
  · intro id hc R hR hid
    obtain ⟨hripe, hspent⟩ := hdue hc R hR hid
    have hlater := hripe.mono (hok _ hc).1
    obtain ⟨x, hx, hle⟩ := (h.1 R hR).since_le hlater
    exact ⟨hlater, x, hx, (Nat.add_le_add_left (Nat.mul_le_mul_right gap hspent) _).trans hle⟩

lemma timing_start (gap : ℕ) {app : AppState} {p : ClockedPool} (hidle : p.tasks = [])
    (hnew : ∀ R ∈ p.store.jobs, R.Uncanceled) :
    System.Sound (clocked app) (Clocked.Timely app gap) (timing app gap) (fun _ _ _ => True) p := by
  refine ⟨fun R hR => (hnew R hR).timely, ?_, ?_⟩
  · rw [hidle]
    exact nofun
  · rw [hidle]
    exact .nil

/-- However the tasks interleave, a cancellation is repeated at the runner only once it has waited for
the timeout, and given up only after the timeout and a further `gap` for each of the retries. -/
theorem cancellations_given_time (gap : ℕ) {app : AppState} {p : ClockedPool} {es : List ServerEvent}
    (hT : app.scheduler.cancelStuckTimeoutSeconds < 2 ^ 63) (hidle : p.tasks = [])
    (hnew : ∀ R ∈ p.store.jobs, R.Uncanceled) (hok : (clocked app).Along (Ticking gap) es p) :
    (clocked app).Along (Patient app gap) es p := by
  refine System.Along.of_invariant (fun _ _ _ hs hok ha => hs.apply (timingOutline gap hT) hok ha) ?_
    (timing_start gap hidle hnew) hok
  exact fun q e _ hs hok _ => patient_of_sound hT hs hok

instance (gap : ℕ) (o : Outcome) (s : Store) (c : Call) : Decidable (c.Spaced gap o s) := by
  unfold Call.Spaced
  split <;> infer_instance

instance (gap : ℕ) (p : ClockedPool) (e : ServerEvent) : Decidable (Ticking gap p e) :=
  inferInstanceAs (Decidable (∀ c ∈ p.call? e, _ ∧ _))

def atTime (now : Timestamp) (es : List ServerEvent) : List ServerEvent :=
  es.map fun
    | .step i o => .step i { o with now }
    | e => e

def patientRun : List ServerEvent :=
  startedRun "run" ++ cancelWhileRunning ++
    atTime 60000000000 (.start .poll :: (List.replicate 3 (.step 0 {}) ++ [.step 0 acceptedCancel] ++
      List.replicate 2 (.step 0 {}) ++ [.finish 0])) ++
    atTime 120000000000 (.start .poll :: List.replicate 4 (.step 0 {}))

theorem cancellations_given_time_up :
    ((clocked sampleApp).run patientRun ⟨⟨oneJob.store, 0⟩, []⟩).any (fun q =>
        q.store.jobs.any fun R => R.status = .failed) = true ∧
      (clocked sampleApp).Along (Patient sampleApp 60000000000) patientRun ⟨⟨oneJob.store, 0⟩, []⟩ := by
  have hnew : ∀ R ∈ oneJob.store.db.jobRuns.rows, R.Uncanceled := by
    rintro R hR
    obtain rfl := List.mem_singleton.mp hR
    exact ⟨rfl, rfl, rfl, rfl⟩
  have hok : (clocked sampleApp).Along (Ticking 60000000000) patientRun ⟨⟨oneJob.store, 0⟩, []⟩ := by
    decide +kernel
  exact ⟨by decide +kernel, cancellations_given_time _ (by decide) rfl hnew hok⟩

end Janus.Server
