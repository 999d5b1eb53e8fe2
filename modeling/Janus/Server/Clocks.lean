import Janus.Server.Observation
import Janus.Server.StuckCancellations

/-! The server beside a clock, and what its rows say of the time that a cancellation has taken. -/

namespace Janus.Server

open Janus.Concurrency Janus.Data

/-- The store, and the time of the last call. -/
structure Clocked where
  store : Store
  time : Timestamp

def Clocked.jobs (s : Clocked) : List JobRun := s.store.db.jobRuns.rows

def clocked (app : AppState) : System Role Call Call.Result String Clocked Outcome RunnerEvent where
  program := Role.program app
  beside := Role.beside
  exec c o s := ((c.exec app o s.store).1, ⟨(c.exec app o s.store).2, o.now⟩)
  environ v s := { s with store := (server app).environ v s.store }

abbrev ClockedPool := Pool Role Call Call.Result String Clocked

def untimed (p : ClockedPool) : ServerPool := ⟨p.store.store, p.tasks⟩

lemma run_untimed {app : AppState} {es : List ServerEvent} {p q : ClockedPool}
    (h : (clocked app).run es p = some q) :
    (server app).run es (untimed p) = some (untimed q) := by
  induction es generalizing p with
  | nil => exact congrArg (Option.map untimed) h
  | cons e es ih =>
    obtain ⟨p', hp', hrun⟩ := Option.bind_eq_some_iff.mp h
    have happly : (server app).apply (untimed p) e = some (untimed p') := by
      obtain ⟨r, rfl, hb, rfl⟩ | ⟨i, o, r, c, next, rfl, ht, -, rfl⟩ | ⟨i, r, x, rfl, ht, rfl⟩ |
        ⟨rfl, rfl⟩ | ⟨v, rfl, rfl⟩ := System.apply_cases hp'
      · exact if_pos (List.all_eq_true.mpr hb)
      · simp only [System.apply, untimed, ht]
        rfl
      · simp only [System.apply, untimed, ht]
      · rfl
      · rfl
    rw [System.run_cons happly]
    exact ih hrun

/-- In nanoseconds. -/
@[irreducible] def AppState.stuckTimeout (app : AppState) : ℕ :=
  app.scheduler.cancelStuckTimeoutSeconds * 1000000000

def JobRun.CanceledAt (R : JobRun) (x : Timestamp) : Prop :=
  x ∈ R.cancelRequestedAt ∨ x ∈ R.cancelStartedAt

structure JobRun.Ripe (app : AppState) (gap : ℕ) (t : Timestamp) (R : JobRun) : Prop where
  stopping : R.status ≠ .running
  stuck : ∃ x, R.cancelStartedAt.or R.cancelRequestedAt = some x ∧ x + app.stuckTimeout ≤ t
  rested : ∀ x ∈ R.lastCancelRetryAt, x + gap ≤ t

structure JobRun.Uncanceled (R : JobRun) : Prop where
  requested : R.cancelRequestedAt = none
  started : R.cancelStartedAt = none
  last : R.lastCancelRetryAt = none
  count : R.cancelRetryCount = 0

structure JobRun.Timely (app : AppState) (gap : ℕ) (t : Timestamp) (R : JobRun) : Prop where
  canceled_le : ∀ x, R.CanceledAt x → x ≤ t
  last_le : ∀ x ∈ R.lastCancelRetryAt, x ≤ t
  running : R.status = .running → R.cancelRetryCount = 0
  counted : ∀ n, R.cancelRetryCount = n + 1 → ∃ x, R.CanceledAt x ∧ ∃ y ∈ R.lastCancelRetryAt,
    x + app.stuckTimeout + n * gap ≤ y

def Clocked.Timely (app : AppState) (gap : ℕ) (s : Clocked) : Prop :=
  ∀ R ∈ s.jobs, R.Timely app gap s.time

def JobUpdate.Due (app : AppState) (gap : ℕ) (t : Timestamp) (R : JobRun) : JobUpdate → Prop
  | .recordCancelRetry => R.Ripe app gap t
  | .markJobRunCancelRetryExhausted =>
    R.Ripe app gap t ∧ app.scheduler.maxCancelRetries ≤ R.cancelRetryCount
  | .setJobRunStatus status => status = .cancelRequested → R.cancelRetryCount = 0
  | _ => True

section

variable {app : AppState} {gap : ℕ} {t now : Timestamp} {R : JobRun} {u : JobUpdate}

lemma JobRun.Ripe.mono (h : R.Ripe app gap t) (ht : t ≤ now) : R.Ripe app gap now := by
  obtain ⟨hstopping, ⟨x, hx, hle⟩, hrested⟩ := h
  exact ⟨hstopping, ⟨x, hx, hle.trans ht⟩, fun y hy => (hrested y hy).trans ht⟩

lemma JobRun.Timely.mono (h : R.Timely app gap t) (ht : t ≤ now) : R.Timely app gap now :=
  ⟨fun x hx => (h.canceled_le x hx).trans ht, fun x hx => (h.last_le x hx).trans ht, h.running,
    h.counted⟩

lemma JobRun.canceledAt_of_or {x : Timestamp} (h : R.cancelStartedAt.or R.cancelRequestedAt = some x) :
    R.CanceledAt x := by
  rcases Option.or_eq_some_iff.mp h with hx | ⟨-, hx⟩
  · exact .inr hx
  · exact .inl hx

lemma JobRun.Timely.since_le (h : R.Timely app gap t) (hripe : R.Ripe app gap now) :
    ∃ x, R.CanceledAt x ∧ x + app.stuckTimeout + R.cancelRetryCount * gap ≤ now := by
  cases hcount : R.cancelRetryCount with
  | zero =>
    obtain ⟨x, hx, hle⟩ := hripe.stuck
    refine ⟨x, canceledAt_of_or hx, ?_⟩
    rw [Nat.zero_mul, Nat.add_zero]
    exact hle
  | succ n =>
    obtain ⟨x, hx, y, hy, hle⟩ := h.counted n hcount
    refine ⟨x, hx, ?_⟩
    calc x + app.stuckTimeout + (n + 1) * gap
        = x + app.stuckTimeout + n * gap + gap := by
          rw [Nat.succ_mul, ← Nat.add_assoc]
      _ ≤ y + gap := Nat.add_le_add_right hle gap
      _ ≤ now := hripe.rested y hy

lemma JobRun.Uncanceled.timely (h : R.Uncanceled) : R.Timely app gap t := by
  refine ⟨?_, ?_, fun _ => h.count, fun n hn => ?_⟩
  · simp [JobRun.CanceledAt, h.requested, h.started]
  · simp [h.last]
  · rw [h.count] at hn
    cases hn

lemma JobRun.Timely.of_kept {R' : JobRun} (h : R.Timely app gap t) (ht : t ≤ now)
    (hnew : ∀ x, R'.CanceledAt x → R.CanceledAt x ∨ x = now)
    (hold : ∀ x, R.CanceledAt x → R'.CanceledAt x) (hlast : R'.lastCancelRetryAt = R.lastCancelRetryAt)
    (hcount : R'.cancelRetryCount = R.cancelRetryCount)
    (hrun : R'.status = .running → R.status = .running) : R'.Timely app gap now := by
  refine ⟨fun x hx => ?_, fun x hx => ?_, fun hst => ?_, fun n hn => ?_⟩
  · rcases hnew x hx with hx | rfl
    · exact (h.canceled_le x hx).trans ht
    · exact Nat.le_refl x
  · exact (h.last_le x (hlast ▸ hx)).trans ht
  · exact hcount.trans (h.running (hrun hst))
  · obtain ⟨x, hx, y, hy, hle⟩ := h.counted n (hcount ▸ hn)
    exact ⟨x, hold x hx, y, hlast ▸ hy, hle⟩

lemma mem_getD {x : Timestamp} {a : Option Timestamp} (h : x ∈ some (a.getD now)) :
    x ∈ a ∨ x = now := by
  cases a with
  | none => exact .inr (Option.some.inj h).symm
  | some y => exact .inl h

lemma mem_some_getD {x : Timestamp} {a : Option Timestamp} (h : x ∈ a) : x ∈ some (a.getD now) := by
  cases a with
  | none => cases h
  | some y => exact h

lemma JobRun.Timely.setStatus (h : R.Timely app gap t) (ht : t ≤ now) {status : JobStatus}
    (hu : status = .cancelRequested → R.cancelRetryCount = 0) :
    (R.setStatus now status).Timely app gap now := by
  cases status with
  | cancelRequested =>
    have hcount : R.cancelRetryCount = 0 := hu rfl
    refine ⟨?_, fun x hx => (h.last_le x hx).trans ht, fun _ => hcount, fun n hn => ?_⟩
    · rintro x (hx | hx)
      · cases hrow : R.cancelRequestedAt with
        | none =>
          rw [JobRun.setStatus, hrow] at hx
          exact (Option.some.inj hx).ge
        | some y =>
          rw [JobRun.setStatus, hrow] at hx
          exact (h.canceled_le x (.inl (hrow.trans hx))).trans ht
      · cases hx
    · cases hcount.symm.trans hn
  | canceling =>
    refine h.of_kept ht ?_ ?_ rfl rfl nofun
    · rintro x (hx | hx)
      · exact .inl (.inl hx)
      · cases hrow : R.cancelStartedAt with
        | none =>
          rw [JobRun.setStatus, hrow] at hx
          exact .inr (Option.some.inj hx).symm
        | some y =>
          rw [JobRun.setStatus, hrow] at hx
          exact .inl (.inr (hrow.trans hx))
    · rintro x (hx | hx)
      · exact .inl hx
      · refine .inr ?_
        rw [JobRun.setStatus, Option.mem_def.mp hx]
        rfl
  | canceled => exact h.of_kept ht (fun _ hx => .inl hx) (fun _ hx => hx) rfl rfl nofun
  | _ => exact JobRun.Uncanceled.timely ⟨rfl, rfl, rfl, rfl⟩

lemma JobRun.Timely.update (h : R.Timely app gap t) (ht : t ≤ now) (hu : u.Due app gap t R) (key : Id) :
    (u.row now key R).Timely app gap now := by
  cases u with
  | setJobRunStarted runId startedAt => exact JobRun.Uncanceled.timely ⟨rfl, rfl, rfl, rfl⟩
  | requeueJobRunForInfraRetry => exact JobRun.Uncanceled.timely ⟨rfl, rfl, rfl, rfl⟩
  | finishJobRun status durationMs exitCode reason category metadata stdout stderr outputs =>
    by_cases hst : status = .canceled
    · subst hst
      exact h.of_kept ht (fun _ hx => .inl hx) (fun _ hx => hx) rfl rfl nofun
    · simp only [JobUpdate.row, JobRun.finish, hst, if_false]
      exact JobRun.Uncanceled.timely ⟨rfl, rfl, rfl, rfl⟩
  | setJobRunStatus status => exact h.setStatus ht hu
  | markJobRunCancelRequested reason =>
    refine h.of_kept ht ?_ ?_ rfl rfl nofun
    · rintro x (hx | hx)
      · exact (mem_getD hx).imp_left .inl
      · exact .inl (.inr hx)
    · exact fun x => Or.imp_left mem_some_getD
  | recordCancelRetry =>
    refine ⟨fun x hx => (h.canceled_le x hx).trans ht, ?_, fun hrun => absurd hrun hu.stopping, ?_⟩
    · rintro x hx
      exact (Option.some.inj hx).ge
    · rintro n hn
      obtain ⟨x, hx, hle⟩ := h.since_le (JobRun.Ripe.mono hu ht)
      refine ⟨x, hx, now, rfl, ?_⟩
      rw [← Nat.succ.inj hn]
      exact hle
  | markJobRunCancelRetryExhausted =>
    exact h.of_kept ht (fun _ hx => .inl hx) (fun _ hx => hx) rfl rfl nofun

end

structure JobRun.Lasts (J R : JobRun) : Prop where
  runner : R.runnerId = J.runnerId
  run : R.runnerRunId = J.runnerRunId
  requested : ∀ x ∈ J.cancelRequestedAt, R.cancelRequestedAt = some x
  started : R.cancelStartedAt = J.cancelStartedAt
  last : R.lastCancelRetryAt = J.lastCancelRetryAt
  count : R.cancelRetryCount = J.cancelRetryCount
  stopping : J.status ≠ .running → R.status ≠ .running

structure Clocked.Awaits (s s' : Clocked) : Prop where
  time : s.time ≤ s'.time
  jobs : ∀ R ∈ s.jobs, ∃ R' ∈ s'.jobs, R'.id = R.id ∧ R.Lasts R'

def Call.Due (app : AppState) (gap : ℕ) (s : Clocked) : Call → Prop
  | .jobRun id u => ∀ R ∈ s.jobs, R.id = id → u.Due app gap s.time R
  | _ => True

def Call.Repeats (app : AppState) (gap : ℕ) (s : Clocked) : Call → Prop
  | .runner r (.cancelJobRun runId) => ∃ R ∈ s.jobs, R.runnerId = r.id ∧ R.runnerRunId = some runId ∧
    R.Ripe app gap s.time
  | _ => True

def Call.Spaced (gap : ℕ) (o : Outcome) (s : Store) : Call → Prop
  | .query (.listJobRunsByStatus statuses) => ∀ R ∈ s.db.jobRuns.rows, R.status ∈ statuses →
    R.status = .cancelRequested ∨ R.status = .canceling →
      ∀ x ∈ R.lastCancelRetryAt, x + gap ≤ o.now
  | _ => True

def Call.isFree : Call → Prop
  | .jobRun _ .recordCancelRetry => False
  | .jobRun _ .markJobRunCancelRetryExhausted => False
  | .jobRun _ (.setJobRunStatus status) => status ≠ .cancelRequested
  | .runner _ (.cancelJobRun _) => False
  | _ => True

section

variable {app : AppState} {gap : ℕ} {o : Outcome} {s s' s'' : Clocked} {J R R' : JobRun}

lemma JobRun.Lasts.refl (R : JobRun) : R.Lasts R :=
  ⟨rfl, rfl, fun _ h => h, rfl, rfl, rfl, fun h => h⟩

lemma JobRun.Lasts.trans (h : J.Lasts R) (h' : R.Lasts R') : J.Lasts R' :=
  ⟨h'.runner.trans h.runner, h'.run.trans h.run, fun x hx => h'.requested x (h.requested x hx),
    h'.started.trans h.started, h'.last.trans h.last, h'.count.trans h.count,
    fun hs => h'.stopping (h.stopping hs)⟩

lemma Clocked.Awaits.refl (s : Clocked) : s.Awaits s :=
  ⟨Nat.le_refl _, fun R hR => ⟨R, hR, rfl, .refl R⟩⟩

lemma Clocked.Awaits.trans (h : s.Awaits s') (h' : s'.Awaits s'') : s.Awaits s'' := by
  refine ⟨h.time.trans h'.time, fun R hR => ?_⟩
  obtain ⟨R', hR', hid, hlasts⟩ := h.jobs R hR
  obtain ⟨R'', hR'', hid', hlasts'⟩ := h'.jobs R' hR'
  exact ⟨R'', hR'', hid'.trans hid, hlasts.trans hlasts'⟩

lemma JobRun.Ripe.lasts {t t' : Timestamp} (h : R.Ripe app gap t) (hl : R.Lasts R') (ht : t ≤ t') :
    R'.Ripe app gap t' := by
  obtain ⟨hstopping, ⟨x, hx, hle⟩, hrested⟩ := h.mono ht
  refine ⟨hl.stopping hstopping, ⟨x, ?_, hle⟩, hl.last ▸ hrested⟩
  rw [hl.started]
  rcases Option.or_eq_some_iff.mp hx with hx | ⟨hnone, hx⟩
  · rw [hx, Option.some_or]
  · rw [hnone, Option.none_or, hl.requested x hx]

lemma Call.isFree.due {c : Call} (h : c.isFree) : c.Due app gap s := by
  cases c with
  | jobRun id u =>
    rintro R - -
    cases u with
    | setJobRunStatus status => exact fun hst => absurd hst h
    | recordCancelRetry => exact h.elim
    | markJobRunCancelRetryExhausted => exact h.elim
    | _ => trivial
  | _ => trivial

lemma Call.isFree.repeats {c : Call} (h : c.isFree) : c.Repeats app gap s := by
  cases c with
  | runner r request =>
    cases request with
    | cancelJobRun runId => exact h.elim
    | _ => trivial
  | _ => trivial

lemma Call.isOutside.due {c : Call} (h : c.isOutside) : c.Due app gap s := by
  cases c with
  | jobRun id u =>
    rintro R - -
    cases u with
    | setJobRunStatus status =>
      obtain rfl : status = .canceled := h
      exact nofun
    | recordCancelRetry => exact h.elim
    | markJobRunCancelRetryExhausted => exact h.elim
    | _ => trivial
  | _ => trivial

lemma free_footprint : FinishFootprint Call.isFree where
  query _ := trivial
  pipelineRun _ _ := trivial
  transfer c h := by
    cases c with
    | jobRun id u => exact h.elim
    | runner r request =>
      cases request with
      | cancelJobRun runId => exact h.elim
      | _ => trivial
    | _ => trivial
  blocked _ := (by decide : JobStatus.blocked ≠ .cancelRequested)
  missing _ := (by decide : JobStatus.failed ≠ .cancelRequested)
  fail _ _ _ _ _ _ := trivial
  requeue _ := trivial
  finish _ _ _ _ _ _ _ _ _ _ _ := trivial

lemma free_push : PushFootprint Call.isFree where
  toBaseFootprint := free_footprint.toBaseFootprint
  processed _ := trivial
  insert _ := trivial

lemma clocked_exec {c : Call} {x : Except String c.Result} (h : (clocked app).exec c o s = (x, s')) :
    c.exec app o s.store = (x, s'.store) ∧ s'.time = o.now := by
  obtain ⟨rfl, rfl⟩ := Prod.mk.inj h
  exact ⟨rfl, rfl⟩

lemma exec_awaits {c : Call} {x : Except String c.Result} (hjob : c.updatesJob = false)
    (ht : s.time ≤ o.now) (h : (clocked app).exec c o s = (x, s')) : s.Awaits s' := by
  obtain ⟨hexec, htime⟩ := clocked_exec h
  exact ⟨htime ▸ ht, fun R hR => ⟨R, exec_jobRuns_grow hjob hexec R hR, rfl, .refl R⟩⟩

lemma outside_awaits {c : Call} {x : Except String c.Result} (hc : c.isOutside)
    (ht : s.time ≤ o.now) (h : (clocked app).exec c o s = (x, s')) : s.Awaits s' := by
  cases hjob : c.updatesJob with
  | false => exact exec_awaits hjob ht h
  | true =>
    obtain ⟨hexec, htime⟩ := clocked_exec h
    cases c with
    | jobRun id u =>
      have hlasts (R : JobRun) : R.Lasts (u.row o.now o.dispatchKey R) := by
        cases u with
        | setJobRunStatus status =>
          obtain rfl : status = .canceled := hc
          exact ⟨rfl, rfl, fun _ h => h, rfl, rfl, rfl, fun _ => nofun⟩
        | markJobRunCancelRequested reason =>
          refine ⟨rfl, rfl, fun x hx => ?_, rfl, rfl, rfl, fun _ => nofun⟩
          rw [JobUpdate.row, JobRun.markCancelRequested, Option.mem_def.mp hx]
          rfl
        | _ => exact hc.elim
      refine ⟨htime ▸ ht, fun R hR => ?_⟩
      rcases exec_jobRun_cases hexec with ⟨hjobs, -⟩ | ⟨hjobs, -⟩
      · exact ⟨R, by rw [Clocked.jobs, hjobs]; exact hR, rfl, .refl R⟩
      · by_cases hid : R.id = id
        · refine ⟨_, ?_, (u.row_same o.now o.dispatchKey R).id, hlasts R⟩
          rw [Clocked.jobs, hjobs, Table.mem_modify]
          exact ⟨R, hR, .inl ⟨hid, rfl⟩⟩
        · refine ⟨R, ?_, rfl, .refl R⟩
          rw [Clocked.jobs, hjobs, Table.mem_modify]
          exact ⟨R, hR, .inr ⟨hid, rfl⟩⟩
    | _ => cases hjob

lemma jobs_exec {c : Call} {x : Except String c.Result}
    (h : (clocked app).exec c o s = (x, s')) (hR : R ∈ s'.jobs) :
    R ∈ s.jobs ∨ R.Uncanceled ∨
      ∃ id u, ∃ R₀ ∈ s.jobs, c = .jobRun id u ∧ R₀.id = id ∧ R = u.row o.now o.dispatchKey R₀ := by
  obtain ⟨hcall, -⟩ := clocked_exec h
  cases hjob : c.updatesJob with
  | false =>
    cases exec_effect hcall with
    | untouched tables _ => exact .inl (by rw [Clocked.jobs, tables.jobRuns] at hR; exact hR)
    | jobRun id u _ _ _ _ _ => cases hjob
    | pipelineRun _ _ _ jobRuns _ _ => exact .inl (by rw [Clocked.jobs, jobRuns] at hR; exact hR)
    | createPipelineRun _ _ _ _ _ _ _ _ _ jobRuns _ _ _ =>
      exact .inl (by rw [Clocked.jobs, jobRuns] at hR; exact hR)
    | createJobRun _ _ _ _ _ _ _ _ _ jobRuns _ _ _ =>
      rw [Clocked.jobs, Table.rows_insert? jobRuns] at hR
      rcases List.mem_append.mp hR with hR | hR
      · exact .inl hR
      · obtain rfl := List.mem_singleton.mp hR
        exact .inr (.inl ⟨rfl, rfl, rfl, rfl⟩)
    | addPreviousJob _ _ _ _ jobRuns _ _ _ =>
      exact .inl (by rw [Clocked.jobs, jobRuns] at hR; exact hR)
  | true =>
    cases c with
    | jobRun id u =>
      rcases exec_jobRun_cases hcall with ⟨hjobs, -⟩ | ⟨hjobs, -⟩
      · rw [Clocked.jobs, hjobs] at hR
        exact .inl hR
      · rw [Clocked.jobs, hjobs, Table.mem_modify] at hR
        obtain ⟨R₀, hR₀, ⟨hid, rfl⟩ | ⟨-, rfl⟩⟩ := hR
        · exact .inr (.inr ⟨id, u, R₀, hR₀, rfl, hid, rfl⟩)
        · exact .inl hR₀
    | _ => cases hjob

lemma Clocked.Timely.exec {c : Call} {x : Except String c.Result} (h : s.Timely app gap)
    (ht : s.time ≤ o.now) (hdue : c.Due app gap s)
    (hexec : (clocked app).exec c o s = (x, s')) : s'.Timely app gap := by
  have htime := (clocked_exec hexec).2
  intro R hR
  obtain hR | hR | ⟨id, u, R₀, hR₀, rfl, hid, rfl⟩ := jobs_exec hexec hR
  · exact (h R hR).mono (htime ▸ ht)
  · exact hR.timely
  · rw [htime]
    exact (h R₀ hR₀).update ht (hdue R₀ hR₀ hid) _

end

end Janus.Server
