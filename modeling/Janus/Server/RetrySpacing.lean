import Janus.Server.CancellationTimes

/-! The time between the retries of a cancellation, in runs that leave the timeout between two
passes. -/

namespace Janus.Server

open Janus.Concurrency Janus.Data

def Call.retried : Call → Option Id
  | .jobRun id .recordCancelRetry => some id
  | _ => none

def Call.givenUp : Call → Option Id
  | .jobRun id .markJobRunCancelRetryExhausted => some id
  | _ => none

def Call.cancelRequested : Call → Option Id
  | .jobRun id (.markJobRunCancelRequested _) => some id
  | _ => none

/-- A retry of the cancellation of a stored job is recorded. -/
def Retries (id : Id) (p : ClockedPool) (e : ServerEvent) : Prop :=
  (∃ c ∈ p.call? e, c.retried = some id ∧ c.refusal e.outcome.fault = none) ∧
    ∃ R ∈ p.store.jobs, R.id = id

/-- No pass lists a job within the timeout after its last retry, and no cancellation is requested of a
job that the runner has begun to cancel by itself. -/
structure Unhurried (app : AppState) (p : ClockedPool) (e : ServerEvent) : Prop where
  ticking : Ticking app.stuckTimeout p e
  ordered : ∀ c ∈ p.call? e, ∀ id ∈ c.cancelRequested, ∀ R ∈ p.store.jobs, R.id = id →
    R.cancelRequestedAt = none → R.cancelStartedAt = none

/-- A job is given up only once the timeout has passed for its request and for each retry. -/
def GivesTime (app : AppState) (p : ClockedPool) (e : ServerEvent) : Prop :=
  ∀ c ∈ p.call? e, ∀ id ∈ c.givenUp, ∀ R ∈ p.store.jobs, R.id = id →
    ∃ x ∈ R.cancelRequestedAt.or R.cancelStartedAt,
      x + (app.scheduler.maxCancelRetries + 1) * app.stuckTimeout ≤ e.outcome.now

/-- The retries that are recorded later wait for the timeout. -/
def RetriesApart (app : AppState) (id : Id) (es : List ServerEvent) (p : ClockedPool) : Prop :=
  ∀ es₁ (e : ServerEvent) es₂ q q', es = es₁ ++ e :: es₂ → (clocked app).run es₁ p = some q →
    (clocked app).apply q e = some q' → Retries id q e →
      (clocked app).Along (fun r (d : ServerEvent) => Retries id r d →
        e.outcome.now + app.stuckTimeout ≤ d.outcome.now) es₂ q'

structure JobRun.Since (t : Timestamp) (R : JobRun) : Prop where
  last : ∀ y ∈ R.lastCancelRetryAt, t ≤ y
  canceled : R.lastCancelRetryAt = none → ∀ x, R.CanceledAt x → t ≤ x

def JobRun.Ordered (R : JobRun) : Prop :=
  ∀ x ∈ R.cancelRequestedAt, ∀ y ∈ R.cancelStartedAt, x ≤ y

section

variable {app : AppState} {t now : Timestamp} {R : JobRun} {u : JobUpdate} {key id : Id}
variable {p p' : ClockedPool} {e : ServerEvent}

lemma Call.retried_eq {c : Call} (h : c.retried = some id) : c = .jobRun id .recordCancelRetry := by
  unfold Call.retried at h
  split at h
  · obtain rfl := Option.some.inj h
    rfl
  · cases h

lemma Call.givenUp_eq {c : Call} (h : c.givenUp = some id) :
    c = .jobRun id .markJobRunCancelRetryExhausted := by
  unfold Call.givenUp at h
  split at h
  · obtain rfl := Option.some.inj h
    rfl
  · cases h

lemma JobRun.Since.ripe (h : R.Since t) (hripe : R.Ripe app app.stuckTimeout now) :
    t + app.stuckTimeout ≤ now := by
  cases hlast : R.lastCancelRetryAt with
  | none =>
    obtain ⟨x, hx, hle⟩ := hripe.stuck
    exact (Nat.add_le_add_right (h.canceled hlast x (canceledAt_of_or hx)) _).trans hle
  | some y => exact (Nat.add_le_add_right (h.last y hlast) _).trans (hripe.rested y hlast)

lemma JobRun.Uncanceled.since (h : R.Uncanceled) : R.Since t := by
  refine ⟨?_, fun _ => ?_⟩
  · simp [h.last]
  · simp [JobRun.CanceledAt, h.requested, h.started]

lemma JobRun.Uncanceled.ordered (h : R.Uncanceled) : R.Ordered := by
  simp [JobRun.Ordered, h.requested]

lemma JobRun.Since.setStatus (h : R.Since t) (ht : t ≤ now) (status : JobStatus) :
    (R.setStatus now status).Since t := by
  cases status with
  | cancelRequested =>
    refine ⟨h.last, fun hlast x hx => ?_⟩
    rcases hx with hx | hx
    · cases hrow : R.cancelRequestedAt with
      | none =>
        rw [JobRun.setStatus, hrow] at hx
        exact Option.some.inj hx ▸ ht
      | some y =>
        rw [JobRun.setStatus, hrow] at hx
        exact h.canceled hlast x (.inl (hrow.trans hx))
    · cases hx
  | canceling =>
    refine ⟨h.last, fun hlast x hx => ?_⟩
    rcases hx with hx | hx
    · exact h.canceled hlast x (.inl hx)
    · cases hrow : R.cancelStartedAt with
      | none =>
        rw [JobRun.setStatus, hrow] at hx
        exact Option.some.inj hx ▸ ht
      | some y =>
        rw [JobRun.setStatus, hrow] at hx
        exact h.canceled hlast x (.inr (hrow.trans hx))
  | canceled => exact ⟨h.last, h.canceled⟩
  | _ => exact JobRun.Uncanceled.since ⟨rfl, rfl, rfl, rfl⟩

lemma JobRun.Since.update (h : R.Since t) (ht : t ≤ now) (u : JobUpdate) (key : Id) :
    (u.row now key R).Since t := by
  cases u with
  | setJobRunStarted runId startedAt => exact JobRun.Uncanceled.since ⟨rfl, rfl, rfl, rfl⟩
  | requeueJobRunForInfraRetry => exact JobRun.Uncanceled.since ⟨rfl, rfl, rfl, rfl⟩
  | finishJobRun status durationMs exitCode reason category metadata stdout stderr outputs =>
    by_cases hst : status = .canceled
    · subst hst
      exact ⟨h.last, h.canceled⟩
    · apply JobRun.Uncanceled.since
      constructor <;> simp [JobUpdate.row, JobRun.finish, hst]
  | setJobRunStatus status => exact h.setStatus ht status
  | markJobRunCancelRequested reason =>
    refine ⟨h.last, fun hlast x hx => ?_⟩
    rcases hx with hx | hx
    · rcases mem_getD hx with hx | rfl
      · exact h.canceled hlast x (.inl hx)
      · exact ht
    · exact h.canceled hlast x (.inr hx)
  | recordCancelRetry => exact ⟨fun y hy => Option.some.inj hy ▸ ht, fun hlast => by cases hlast⟩
  | markJobRunCancelRetryExhausted => exact ⟨h.last, h.canceled⟩

lemma JobRun.Ordered.setStatus (h : R.Ordered) (hle : ∀ x ∈ R.cancelRequestedAt, x ≤ now)
    (status : JobStatus) : (R.setStatus now status).Ordered := by
  cases status with
  | cancelRequested =>
    intro _ _ y hy
    cases hy
  | canceling =>
    intro x hx y hy
    cases hrow : R.cancelStartedAt with
    | none =>
      rw [JobRun.setStatus, hrow] at hy
      exact Option.some.inj hy ▸ hle x hx
    | some z =>
      rw [JobRun.setStatus, hrow] at hy
      exact h x hx y (hrow.trans hy)
  | canceled => exact h
  | _ => exact JobRun.Uncanceled.ordered ⟨rfl, rfl, rfl, rfl⟩

lemma JobRun.Ordered.update (h : R.Ordered) (hle : ∀ x ∈ R.cancelRequestedAt, x ≤ now)
    (hu : ∀ reason, u = .markJobRunCancelRequested reason → R.cancelRequestedAt = none →
      R.cancelStartedAt = none) (key : Id) : (u.row now key R).Ordered := by
  cases u with
  | setJobRunStarted runId startedAt => exact JobRun.Uncanceled.ordered ⟨rfl, rfl, rfl, rfl⟩
  | requeueJobRunForInfraRetry => exact JobRun.Uncanceled.ordered ⟨rfl, rfl, rfl, rfl⟩
  | finishJobRun status durationMs exitCode reason category metadata stdout stderr outputs =>
    by_cases hst : status = .canceled
    · subst hst
      exact h
    · apply JobRun.Uncanceled.ordered
      constructor <;> simp [JobUpdate.row, JobRun.finish, hst]
  | setJobRunStatus status => exact h.setStatus hle status
  | markJobRunCancelRequested reason =>
    intro x hx y hy
    cases hrow : R.cancelRequestedAt with
    | none => cases hy.symm.trans (hu reason rfl hrow)
    | some z =>
      rw [JobUpdate.row, JobRun.markCancelRequested, hrow] at hx
      exact h x (hrow.trans hx) y hy
  | recordCancelRetry => exact h
  | markJobRunCancelRetryExhausted => exact h

lemma JobRun.Ordered.first_le (h : R.Ordered) {y : Timestamp} (hy : R.CanceledAt y) :
    ∃ x ∈ R.cancelRequestedAt.or R.cancelStartedAt, x ≤ y := by
  cases hrow : R.cancelRequestedAt with
  | none =>
    rcases hy with hy | hy
    · cases hrow.symm.trans hy
    · exact ⟨y, by rwa [Option.none_or], Nat.le_refl y⟩
  | some x =>
    refine ⟨x, by rw [Option.some_or]; rfl, ?_⟩
    rcases hy with hy | hy
    · exact (Option.some.inj (hrow.symm.trans hy)).le
    · exact h x hrow y hy

lemma forall_jobs_apply {Q : JobRun → Prop} (ha : (clocked app).apply p e = some p')
    (hnew : ∀ R, R.Uncanceled → Q R)
    (hupdate : ∀ id u key, ∀ R ∈ p.store.jobs, p.call? e = some (.jobRun id u) → R.id = id → Q R →
      Q (u.row e.outcome.now key R)) (h : ∀ R ∈ p.store.jobs, Q R) : ∀ R ∈ p'.store.jobs, Q R := by
  obtain ⟨r, rfl, -, rfl⟩ | ⟨i, o, r, c, next, rfl, ht, -, rfl⟩ | ⟨i, r, x, rfl, -, rfl⟩ |
    ⟨rfl, rfl⟩ | ⟨v, rfl, rfl⟩ := System.apply_cases ha
  · exact h
  · intro R hR
    have hc : p.call? (.step i o : ServerEvent) = some c := by
      simp [Pool.call?, ht]
    obtain hR | hR | ⟨id, u, R₀, hR₀, rfl, hid, rfl⟩ := jobs_exec rfl hR
    · exact h R hR
    · exact hnew R hR
    · exact hupdate id u o.dispatchKey R₀ hR₀ hc hid (h R₀ hR₀)
  · exact h
  · exact h
  · cases v with
    | runEnds runId => exact h

lemma time_apply (ha : (clocked app).apply p e = some p') (ht : Ticking app.stuckTimeout p e) :
    p.store.time ≤ p'.store.time := by
  obtain ⟨r, rfl, -, rfl⟩ | ⟨i, o, r, c, next, rfl, hget, -, rfl⟩ | ⟨i, r, x, rfl, -, rfl⟩ |
    ⟨rfl, rfl⟩ | ⟨v, rfl, rfl⟩ := System.apply_cases ha
  · exact Nat.le_refl _
  · exact (ht c (by simp [Pool.call?, hget])).1
  · exact Nat.le_refl _
  · exact Nat.le_refl _
  · exact Nat.le_refl _

lemma retried_now {o : Outcome} {s s' : Clocked} {x : Except String ℕ}
    (hr : (Call.jobRun id .recordCancelRetry).refusal o.fault = none)
    (h : (clocked app).exec (.jobRun id .recordCancelRetry) o s = (x, s')) (hR : R ∈ s'.jobs)
    (hid : R.id = id) : R.lastCancelRetryAt = some o.now := by
  obtain ⟨hcall, -⟩ := clocked_exec h
  have hjobs : s'.store.db.jobRuns = s.store.db.jobRuns.modify id
      (JobUpdate.recordCancelRetry.row o.now o.dispatchKey) fun R => (JobUpdate.row_same _ _ _ R).id := by
    rw [Call.exec, hr] at hcall
    rw [← (Prod.mk.inj hcall).2]
    rfl
  rw [Clocked.jobs, hjobs, Table.mem_modify] at hR
  obtain ⟨R₀, -, ⟨-, rfl⟩ | ⟨hne, rfl⟩⟩ := hR
  · rfl
  · exact absurd hid hne

lemma Retries.since (h : Retries id p e) (ha : (clocked app).apply p e = some p') :
    p'.store.time = e.outcome.now ∧ ∀ R ∈ p'.store.jobs, R.id = id → R.Since e.outcome.now := by
  obtain ⟨⟨c, hc, hretried, hrefusal⟩, -⟩ := h
  obtain ⟨i, o, r, next, rfl, ht⟩ := Pool.call?_eq_some hc
  obtain rfl := Call.retried_eq hretried
  simp only [System.apply, ht, Option.ite_none_right_eq_some, Option.some.injEq] at ha
  obtain ⟨-, rfl⟩ := ha
  refine ⟨rfl, fun R hR hid => ?_⟩
  have hlast := retried_now hrefusal rfl hR hid
  exact ⟨fun y hy => (Option.some.inj (hlast.symm.trans hy)).le, fun hnone => by cases hlast.symm.trans hnone⟩

end

section

variable {app : AppState} {p : ClockedPool} {es : List ServerEvent}

abbrev Timing (app : AppState) (p : ClockedPool) : Prop :=
  System.Sound (clocked app) (Clocked.Timely app app.stuckTimeout) (timing app app.stuckTimeout)
    (fun _ _ _ => True) p

lemma retriesApart (hT : app.scheduler.cancelStuckTimeoutSeconds < 2 ^ 63) (hp : Timing app p)
    (hok : (clocked app).Along (Unhurried app) es p) (id : Id) : RetriesApart app id es p := by
  rintro es₁ e es₂ q q' rfl hrun ha hretries
  have hstep : ∀ q e q', Timing app q → Unhurried app q e → (clocked app).apply q e = some q' →
      Timing app q' :=
    fun q e q' hs hok ha => hs.apply (timingOutline app.stuckTimeout hT) hok.ticking ha
  have hq := hok.left.invariant hstep hp hrun
  obtain ⟨he, hes⟩ := hok.append hrun q' ha
  obtain ⟨htime, hsince⟩ := hretries.since ha
  -- Every state after the retry has its row rested since then.
  refine System.Along.of_invariant (I := fun r => Timing app r ∧ e.outcome.now ≤ r.store.time ∧
    ∀ R ∈ r.store.jobs, R.id = id → R.Since e.outcome.now) ?_ ?_
    ⟨hstep q e q' hq he ha, htime.ge, hsince⟩ hes
  · rintro r d r' ⟨hr, hle, hrows⟩ hd happly
    refine ⟨hstep r d r' hr hd happly, hle.trans (time_apply happly hd.ticking), ?_⟩
    refine forall_jobs_apply (Q := fun R => R.id = id → R.Since e.outcome.now) happly
      (fun R h _ => h.since) (fun id' u key R hR hc hid h hid' => ?_) hrows
    exact (h ((u.row_same _ _ R).id.symm.trans hid')).update (hle.trans (hd.ticking _ hc).1) u key
  · rintro r d r' ⟨hr, -, hrows⟩ hd - ⟨⟨c, hc, hretried, -⟩, R, hR, hid⟩
    obtain rfl := Call.retried_eq hretried
    have hpatient := patient_of_sound hT hr hd.ticking
    exact (hrows R hR hid).ripe (hpatient.recorded id hc R hR hid)

lemma givesTime (hT : app.scheduler.cancelStuckTimeoutSeconds < 2 ^ 63) (hp : Timing app p)
    (hordered : ∀ R ∈ p.store.jobs, R.Ordered) (hok : (clocked app).Along (Unhurried app) es p) :
    (clocked app).Along (GivesTime app) es p := by
  refine System.Along.of_invariant (I := fun q => Timing app q ∧ ∀ R ∈ q.store.jobs, R.Ordered)
    ?_ ?_ ⟨hp, hordered⟩ hok
  · rintro q e q' ⟨hq, hrows⟩ he ha
    refine ⟨hq.apply (timingOutline app.stuckTimeout hT) he.ticking ha, ?_⟩
    refine forall_jobs_apply ha (fun R h => h.ordered) (fun id u key R hR hc hid h => ?_) hrows
    refine h.update (fun x hx => ?_) (fun reason hu => ?_) key
    · exact ((hq.1 R hR).canceled_le x (.inl hx)).trans (he.ticking _ hc).1
    · subst hu
      exact he.ordered _ hc id rfl R hR hid
  · rintro q e q' ⟨hq, hrows⟩ he - c hc id hgiven R hR hid
    obtain rfl := Call.givenUp_eq hgiven
    obtain ⟨-, y, hy, hle⟩ := (patient_of_sound hT hq he.ticking).exhausted id hc R hR hid
    obtain ⟨x, hx, hxy⟩ := JobRun.Ordered.first_le (hrows R hR) hy
    refine ⟨x, hx, ?_⟩
    calc x + (app.scheduler.maxCancelRetries + 1) * app.stuckTimeout
        = x + app.stuckTimeout + app.scheduler.maxCancelRetries * app.stuckTimeout := by
          rw [Nat.succ_mul, Nat.add_right_comm, Nat.add_assoc]
      _ ≤ y + app.stuckTimeout + app.scheduler.maxCancelRetries * app.stuckTimeout := by gcongr
      _ ≤ _ := hle

end

instance (app : AppState) (p : ClockedPool) (e : ServerEvent) : Decidable (Unhurried app p e) :=
  decidable_of_iff (Ticking app.stuckTimeout p e ∧ ∀ c ∈ p.call? e, ∀ id ∈ c.cancelRequested,
    ∀ R ∈ p.store.jobs, R.id = id → R.cancelRequestedAt = none → R.cancelStartedAt = none)
    ⟨fun h => ⟨h.1, h.2⟩, fun h => ⟨h.ticking, h.ordered⟩⟩

instance (id : Id) (p : ClockedPool) (e : ServerEvent) : Decidable (Retries id p e) :=
  inferInstanceAs (Decidable ((∃ c ∈ p.call? e, _ ∧ _) ∧ ∃ R ∈ p.store.jobs, _))

instance (app : AppState) (p : ClockedPool) (e : ServerEvent) : Decidable (GivesTime app p e) :=
  inferInstanceAs (Decidable (∀ c ∈ p.call? e, ∀ id ∈ c.givenUp, ∀ R ∈ p.store.jobs, _))

def twoRetries : AppState :=
  { sampleApp with scheduler := { sampleApp.scheduler with maxCancelRetries := 2 } }

/-- A pass that repeats the cancellation at `now`. -/
def retryAt (now : Timestamp) : List ServerEvent :=
  atTime now (.start .poll :: (List.replicate 3 (.step 0 {}) ++ [.step 0 acceptedCancel] ++
    List.replicate 2 (.step 0 {}) ++ [.finish 0]))

def giveUpAt (now : Timestamp) : List ServerEvent :=
  atTime now (.start .poll :: List.replicate 4 (.step 0 {}))

def retriedAt (first second last : Timestamp) : List ServerEvent :=
  startedRun "run" ++ cancelWhileRunning ++ retryAt first ++ retryAt second ++ giveUpAt last

def retriedPool : ClockedPool := ⟨⟨oneJob.store, 0⟩, []⟩

lemma retriedPool_uncanceled : ∀ R ∈ retriedPool.store.jobs, R.Uncanceled := by
  rintro R hR
  obtain rfl := List.mem_singleton.mp hR
  exact ⟨rfl, rfl, rfl, rfl⟩

def acceptedRetry (now : Timestamp) : ServerEvent := .step 0 { now }

def cancelingReply : Outcome where
  reply := .ok ⟨200, none, .ok { payload := .status { status := .canceling } }⟩

/-- The runner begins to cancel before its answer to the request is stored. -/
def requestedLate : List ServerEvent :=
  startedRun "run" ++ .start (.cancel 1) :: (List.replicate 2 (.step 0 {}) ++
    .start .poll :: (List.replicate 2 (.step 1 {}) ++ [.step 1 cancelingReply] ++
      List.replicate 2 (.step 1 {}) ++ [.finish 1])) ++
    atTime 59000000000 (.step 0 acceptedCancel :: List.replicate 2 (.step 0 {}) ++ [.finish 0]) ++
    retryAt 60000000000 ++ retryAt 120000000000 ++ giveUpAt 180000000000

lemma given_up_early :
    (clocked twoRetries).Along (Ticking twoRetries.stuckTimeout) requestedLate retriedPool ∧
      ((clocked twoRetries).run requestedLate retriedPool).any (fun q => q.store.jobs.any fun R =>
        R.cancelRequestedAt = some 59000000000 ∧ R.status = .failed) = true ∧
      ¬ (clocked twoRetries).Along (GivesTime twoRetries) requestedLate retriedPool := by
  refine ⟨?_, ?_, ?_⟩ <;> decide +kernel

end Janus.Server
