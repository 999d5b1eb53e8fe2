import Janus.Server.Observation
import Janus.Server.Order
import Janus.Server.Visits

/-! Whether a cancellation that has been recorded is ever undone. -/

namespace Janus.Server

open Janus.Concurrency Janus.Data

def Call.cancels : Call → Option Id
  | .jobRun id (.setJobRunStatus status) => if status = .canceled then some id else none
  | .jobRun id (.markJobRunCancelRequested _) => some id
  | _ => none

def ServerPool.Cancels (p : ServerPool) (e : ServerEvent) (id : Id) : Prop :=
  ∃ c ∈ p.call? e, c.cancels = some id ∧ c.refusal e.outcome.fault = none ∧
    ∃ R ∈ p.store.db.jobRuns.rows, R.id = id

def JobRun.Recalled (job : JobRun) : Prop :=
  job.status ≠ .pending ∧ job.status ≠ .running ∧
    (job.status.live = true → job.cancelReason.isSome = true)

def Store.Recalls (s : Store) (id : Id) : Prop := ∃ R ∈ s.db.jobRuns.rows, R.id = id ∧ R.Recalled

instance (p : ServerPool) (e : ServerEvent) (id : Id) : Decidable (p.Cancels e id) :=
  inferInstanceAs (Decidable (∃ c ∈ p.call? e, _))

def JobUpdate.Abides (R : JobRun) : JobUpdate → Prop
  | .setJobRunStarted _ _ => R.status = .pending
  | .requeueJobRunForInfraRetry =>
    R.status = .pending ∨ (R.status.live = true ∧ R.cancelReason = none)
  | .setJobRunStatus status => status.live = true → R.status.live = true
  | _ => True

instance (R : JobRun) : (u : JobUpdate) → Decidable (u.Abides R)
  | .setJobRunStarted _ _ => inferInstanceAs (Decidable (R.status = .pending))
  | .requeueJobRunForInfraRetry => inferInstanceAs (Decidable (_ ∨ (_ ∧ _)))
  | .setJobRunStatus _ => inferInstanceAs (Decidable (_ → _))
  | .finishJobRun _ _ _ _ _ _ _ _ _ => isTrue trivial
  | .markJobRunCancelRequested _ => isTrue trivial
  | .recordCancelRetry => isTrue trivial
  | .markJobRunCancelRetryExhausted => isTrue trivial

def Call.Abides (o : Outcome) (s : Store) : Call → Prop
  | .runner _ (.createJobRun id _ _ _) =>
    ∀ R ∈ s.db.jobRuns.rows, R.id = id → R.status = .pending
  | .jobRun id u => (Call.jobRun id u).refusal o.fault = none →
    ∀ R ∈ s.db.jobRuns.rows, R.id = id → u.Abides R
  | _ => True

instance (o : Outcome) (s : Store) (c : Call) : Decidable (c.Abides o s) := by
  unfold Call.Abides
  split <;> infer_instance

def Call.isSober : Call → Prop
  | .jobRun _ (.setJobRunStatus status) => status ≠ .pending ∧ status ≠ .running
  | .jobRun _ (.finishJobRun status _ _ _ _ _ _ _ _) => status.terminal = true
  | _ => True

section

variable {app : AppState} {o : Outcome} {s s' : Store} {R : JobRun} {id : Id} {u : JobUpdate}

lemma JobRun.recalled_of_terminal (h : R.status.terminal = true) : R.Recalled := by
  obtain ⟨hpend, hlive⟩ := JobStatus.terminal_iff.mp h
  refine ⟨hpend, fun hrun => ?_, fun hl => ?_⟩
  · rw [hrun] at hlive
    cases hlive
  · rw [hlive] at hl
    cases hl

lemma JobRun.recalled_markCancelRequested (R : JobRun) (now : Timestamp) (reason : String) :
    (R.markCancelRequested now reason).Recalled :=
  ⟨(by decide : JobStatus.cancelRequested ≠ .pending),
    (by decide : JobStatus.cancelRequested ≠ .running), fun _ => rfl⟩

lemma JobRun.Recalled.update (h : R.Recalled) (hu : u.Abides R) (hsober : (Call.jobRun id u).isSober)
    (now : Timestamp) (key : Id) : (u.row now key R).Recalled := by
  obtain ⟨hpend, hrun, hreason⟩ := h
  cases u with
  | setJobRunStarted runId startedAt => exact absurd hu hpend
  | finishJobRun status _ _ _ _ _ _ _ _ => exact recalled_of_terminal hsober
  | setJobRunStatus status =>
    refine ⟨hsober.1, hsober.2, fun hl => ?_⟩
    have hkept := hreason (hu hl)
    cases status <;> first | exact hkept | exact absurd rfl hsober.2 | cases hl
  | markJobRunCancelRequested reason => exact R.recalled_markCancelRequested now reason
  | recordCancelRetry => exact ⟨hpend, hrun, hreason⟩
  | requeueJobRunForInfraRetry =>
    rcases hu with hw | ⟨hl, hnone⟩
    · exact absurd hw hpend
    · rw [hnone] at hreason
      cases hreason hl
  | markJobRunCancelRetryExhausted => exact recalled_of_terminal rfl

lemma Store.Recalls.exec {c : Call} {x : Except String c.Result} (h : s.Recalls id)
    (hc : c.Abides o s) (hsober : c.isSober) (hexec : c.exec app o s = (x, s')) : s'.Recalls id := by
  obtain ⟨R, hR, rfl, hrecalled⟩ := h
  cases hjob : c.updatesJob with
  | false => exact ⟨R, (exec_extends hjob hexec).jobRuns R hR, rfl, hrecalled⟩
  | true =>
    cases c with
    | jobRun id u =>
      cases hr : (Call.jobRun id u).refusal o.fault with
      | some e =>
        rw [exec_of_refusal hr] at hexec
        cases hexec
        exact ⟨R, hR, rfl, hrecalled⟩
      | none =>
        rcases exec_jobRun_cases hexec with ⟨hjobs, -⟩ | ⟨hjobs, -⟩
        · exact ⟨R, hjobs ▸ hR, rfl, hrecalled⟩
        · by_cases hid : R.id = id
          · refine ⟨_, ?_, (u.row_same o.now o.dispatchKey R).id,
              hrecalled.update (hc hr R hR hid) hsober o.now o.dispatchKey⟩
            rw [hjobs, Table.mem_modify]
            exact ⟨R, hR, .inl ⟨hid, rfl⟩⟩
          · refine ⟨R, ?_, rfl, hrecalled⟩
            rw [hjobs, Table.mem_modify]
            exact ⟨R, hR, .inr ⟨hid, rfl⟩⟩
    | _ => cases hjob

lemma recalls_of_cancels {c : Call} (hc : c.cancels = some id) (hr : c.refusal o.fault = none)
    (hfound : ∃ R ∈ s.db.jobRuns.rows, R.id = id) : (c.exec app o s).2.Recalls id := by
  obtain ⟨R, hR, hid⟩ := hfound
  have hwritten {u : JobUpdate} (hu : (Call.jobRun id u).refusal o.fault = none)
      (hb : u.breaksUnique s.db o.dispatchKey id = false)
      (hrow : (u.row o.now o.dispatchKey R).Recalled) :
      ((Call.jobRun id u).exec app o s).2.Recalls id := by
    refine ⟨_, ?_, (u.row_same o.now o.dispatchKey R).id.trans hid, hrow⟩
    have hjobs : ((Call.jobRun id u).exec app o s).2.db.jobRuns =
        s.db.jobRuns.modify id (u.row o.now o.dispatchKey)
          (fun job => (u.row_same o.now o.dispatchKey job).id) := by
      rw [exec_of_allowed hu]
      change (s.db.updateJobRun u o.now o.dispatchKey id).2.jobRuns = _
      simp only [Database.updateJobRun, hb]
      cases u <;> rfl
    rw [hjobs, Table.mem_modify]
    exact ⟨R, hR, .inl ⟨hid, rfl⟩⟩
  cases c with
  | jobRun id' u =>
    cases u with
    | setJobRunStatus status =>
      simp only [Call.cancels] at hc
      split at hc
      · next hst =>
        subst hst
        obtain rfl := Option.some.inj hc
        exact hwritten hr rfl (JobRun.recalled_of_terminal rfl)
      · cases hc
    | markJobRunCancelRequested reason =>
      obtain rfl := Option.some.inj hc
      exact hwritten hr rfl (R.recalled_markCancelRequested o.now reason)
    | _ => cases hc
  | _ => cases hc

end

def sobriety (app : AppState) : Discipline Call Call.Result String Store where
  rely _ _ := True
  inv _ := True
  admits c s x s' := ∃ o, c.exec app o s = (x, s')
  before c _ := c.isSober

def soberAssertions : Assertions where
  idle _ := True
  next _ := True
  held _ := True
  ended _ := True
  owes _ := True

section

variable {app : AppState} {s : Store}

lemma sober_write {J : JobRun} {ended : Bool} {u : JobUpdate} (hu : Settles J ended u) :
    (Call.jobRun J.id u).isSober := by
  cases u with
  | finishJobRun status _ _ _ _ _ _ _ _ =>
    rcases hu with ⟨-, rfl⟩ | ⟨-, rfl | rfl | rfl⟩ <;> rfl
  | setJobRunStatus status => rcases hu.2 with rfl | rfl <;> exact ⟨nofun, nofun⟩
  | _ => trivial

lemma sober_onOk {α β : Type} (x : Except String α) (s : Store) :
    onOk (β := β) (fun _ _ => True) (fun _ _ => True) x s := by
  cases x <;> trivial

lemma sober_round (J : JobRun) : Round app (sobriety app) J soberAssertions where
  exec _ _ _ _ h := h
  held_stable _ _ _ _ _ := trivial
  over_stable _ _ _ _ _ := trivial
  owes_stable _ _ _ _ _ := trivial
  held_of_over _ _ := trivial
  next_of_held _ _ := trivial
  idle_of_held _ _ := trivial
  quiet c s hc _ _ := by
    refine ⟨?_, fun _ _ _ => ⟨trivial, fun _ => trivial⟩⟩
    cases c with
    | jobRun id u => cases hc
    | _ => trivial
  polled _ _ _ _ _ _ _ _ _ _ _ _ _ := trivial
  create _ _ _ _ _ _ _ _ := ⟨trivial, fun _ _ _ => trivial⟩
  start _ _ _ _ _ _ := ⟨trivial, fun x s _ => sober_onOk x s⟩
  missing s s' _ _ _ _ := by
    refine Safe.request (P := fun _ => True) trivial (fun _ _ _ _ _ => trivial) fun _ _ _ => ?_
    exact ⟨⟨nofun, nofun⟩, fun x s _ => sober_onOk x s⟩
  retry _ _ _ _ := ⟨trivial, fun x s _ => sober_onOk x s⟩
  settle _ _ _ hu _ _ _ := ⟨sober_write hu, fun x s _ => sober_onOk x s⟩
  finalize _ _ _ := ⟨trivial, fun x s _ => sober_onOk x s⟩

lemma sober_visits :
    Visits app (sobriety app) (fun _ => True) (fun _ _ => True) fun _ _ => soberAssertions where
  round J _ := sober_round J
  idle_eq _ _ := rfl
  next_eq _ _ := rfl
  held_of_todo _ _ _ _ := trivial
  idle_of_todo _ _ _ := trivial
  idle_stable _ _ _ _ _ := trivial
  exec _ _ _ _ h := h
  query _ _ _ _ := ⟨trivial, fun _ _ _ => trivial⟩
  list _ _ _ _ _ := trivial
  block _ _ _ _ _ _ := ⟨⟨nofun, nofun⟩, fun x s _ => sober_onOk x s⟩

lemma sober_footprint : Footprint Call.isSober where
  query _ := trivial
  processed _ := trivial
  cancelRun _ _ := trivial
  insert _ := trivial
  pipelineRun _ _ := trivial
  cancelRequested _ _ := trivial
  canceled _ := ⟨nofun, nofun⟩

lemma sober_only {α : Type} {p : Task α} (hp : p.Only Call.isSober) (s : Store) :
    Safe (sobriety app) (fun _ _ => True) p s :=
  Safe.of_only (A := fun _ => True) (fun _ _ _ _ _ => trivial) (fun _ _ hc _ _ => hc)
    (fun _ _ _ _ _ _ _ _ => trivial) hp trivial

lemma sober_bind {α : Type} {p : Task α} {f : α → Task Unit} (hp : Safe (sobriety app) (fun _ _ => True) p s)
    (hf : ∀ a s, Safe (sobriety app) (fun _ _ => True) (f a) s) :
    Safe (sobriety app) (fun _ _ => True) (p >>= f) s := by
  refine Safe.bind (Safe.mono ?_ hp)
  intro x s₁ _
  cases x with
  | error e => trivial
  | ok a => exact hf a s₁

lemma sober_program (r : Role) (s : Store) :
    Safe (sobriety app) (fun _ _ => True) (r.program app) s := by
  have outside := sober_footprint
  cases r with
  | recovery => exact sober_only outside.recoverIncompletePipelines s
  | pushEvents => exact sober_only outside.processPushEvents s
  | dispatch => exact visitPendingJobs_safe sober_visits trivial
  | poll => exact visitRunningJobs_safe sober_visits trivial
  | reconcile =>
    refine sober_bind (sober_only outside.recoverIncompletePipelines s) fun _ s₁ => ?_
    refine sober_bind (sober_only outside.processPushEvents s₁) fun _ s₂ => ?_
    refine sober_bind (visitPendingJobs_safe sober_visits trivial) fun _ s₃ => ?_
    exact visitRunningJobs_safe sober_visits trivial
  | cancel pipelineId => exact sober_only (outside.cancelPipeline pipelineId) s
  | enqueue number workflow triggerType triggerRef commitSha selections =>
    exact sober_only (.bind (outside.enqueue _ _ _ _ _ _) fun _ => .pure _) s

end

/-- The create requests and the writes of the run abide by the rows that they meet. -/
def Abiding (p : ServerPool) (e : ServerEvent) : Prop := ∀ c ∈ p.call? e, c.Abides e.outcome p.store

instance (p : ServerPool) (e : ServerEvent) : Decidable (Abiding p e) :=
  inferInstanceAs (Decidable (∀ c ∈ p.call? e, _))

lemma soberOutline (app : AppState) :
    System.Outline (server app) Abiding (fun _ => True) (fun _ => sobriety app) fun _ _ _ => True where
  inv_eq _ := rfl
  trans _ _ _ _ _ _ := trivial
  post_stable _ _ _ _ _ _ := trivial
  refl _ _ := trivial
  start p r _ _ := sober_program r p.store
  admits _ _ o _ _ _ _ _ _ _ := ⟨o, rfl⟩
  keeps _ _ _ _ _ := trivial
  compat _ _ _ _ _ _ _ _ _ _ _ _ _ _ := trivial
  environ _ _ _ _ := ⟨trivial, fun _ => trivial⟩
  crash _ _ _ := trivial

abbrev Sober (app : AppState) (p : ServerPool) : Prop :=
  System.Sound (server app) (fun _ => True) (fun _ => sobriety app) (fun _ _ _ => True) p

lemma Sober.call {app : AppState} {p : ServerPool} {e : ServerEvent} {c : Call} (h : Sober app p)
    (hc : c ∈ p.call? e) : c.isSober := by
  obtain ⟨i, o, r, next, rfl, ht⟩ := Pool.call?_eq_some hc
  exact System.Sound.before (soberOutline app) h (List.mem_of_getElem? ht)

lemma recalls_apply {app : AppState} {p p' : ServerPool} {e : ServerEvent} {id : Id}
    (h : Sober app p) (hrecalls : p.store.Recalls id) (hok : Abiding p e)
    (ha : (server app).apply p e = some p') : p'.store.Recalls id := by
  obtain ⟨r, rfl, -, rfl⟩ | ⟨i, o, r, c, next, rfl, ht, -, rfl⟩ | ⟨i, r, x, rfl, ht, rfl⟩ |
    ⟨rfl, rfl⟩ | ⟨v, rfl, rfl⟩ := System.apply_cases ha
  · exact hrecalls
  · have hc : c ∈ p.call? (.step i o : ServerEvent) := by simp [Pool.call?, ht]
    exact hrecalls.exec (hok c hc) (h.call hc) (show c.exec app o p.store = _ from rfl)
  · exact hrecalls
  · exact hrecalls
  · cases v
    exact hrecalls

lemma not_sent {p : ServerPool} {e : ServerEvent} {id : Id} (hrecalls : p.store.Recalls id)
    (hok : Abiding p e) : p.sends e ≠ some id := by
  intro hsends
  obtain ⟨c, hc, hid⟩ := Option.bind_eq_some_iff.mp hsends
  obtain ⟨R, hR, hRid, hrecalled⟩ := hrecalls
  have hc' := hok c hc
  cases c with
  | runner r request =>
    cases request with
    | createJobRun id' name key body =>
      obtain rfl := Option.some.inj hid
      exact hrecalled.1 (hc' R hR hRid)
    | _ => cases hid
  | _ => cases hid

/-- The job is never afterwards waiting or running, and no create request is sent for it. -/
def StaysCanceled (app : AppState) (id : Id) (es : List ServerEvent) (p : ServerPool) : Prop :=
  (server app).Along (fun (q : ServerPool) e => q.sends e ≠ some id) es p ∧
    ∀ before, before <+: es → ∀ q, (server app).run before p = some q →
      ∃ R ∈ q.store.db.jobRuns.rows, R.id = id ∧ R.status ≠ .pending ∧ R.status ≠ .running

theorem cancellations_kept {app : AppState} {p : ServerPool} {before after : List ServerEvent}
    {e : ServerEvent} (hidle : p.tasks = [])
    (hok : (server app).Along Abiding (before ++ e :: after) p) {q q' : ServerPool}
    (hrun : (server app).run before p = some q) (ha : (server app).apply q e = some q') {id : Id}
    (hcancels : q.Cancels e id) : StaysCanceled app id after q' := by
  have hsteps (p e p') (h : Sober app p) (hok : Abiding p e) (ha : (server app).apply p e = some p') :
      Sober app p' := h.apply (soberOutline app) hok ha
  have hsober : Sober app p := by
    refine ⟨trivial, ?_, ?_⟩ <;> rw [hidle]
    · intro t ht
      cases ht
    · exact .nil
  have hsober : Sober app q := hok.left.invariant hsteps hsober hrun
  obtain ⟨hoke, hok⟩ := hok.append hrun q' ha
  have hstart : Sober app q' ∧ q'.store.Recalls id := by
    refine ⟨hsteps q e q' hsober hoke ha, ?_⟩
    obtain ⟨c, hc, hid, hr, hfound⟩ := hcancels
    obtain ⟨i, o, r, next, rfl, ht⟩ := Pool.call?_eq_some hc
    have hstore : q'.store = (c.exec app o q.store).2 := by
      simp only [System.apply, ht] at ha
      exact (Option.some.inj ha) ▸ rfl
    rw [hstore]
    exact recalls_of_cancels hid hr hfound
  have hinvariant (p e p') (h : Sober app p ∧ p.store.Recalls id) (hok : Abiding p e)
      (ha : (server app).apply p e = some p') : Sober app p' ∧ p'.store.Recalls id :=
    ⟨hsteps p e p' h.1 hok ha, recalls_apply h.1 h.2 hok ha⟩
  refine ⟨.of_invariant hinvariant (fun p e _ h hok _ => not_sent h.2 hok) hstart hok, ?_⟩
  rintro before ⟨rest, rfl⟩ q₁ hq₁
  obtain ⟨-, R, hR, hid, hpend, hrunning, -⟩ := hok.left.invariant hinvariant hstart hq₁
  exact ⟨R, hR, hid, hpend, hrunning⟩

def listedThenCanceled : List ServerEvent :=
  [.start .dispatch, .step 0 {}, .start (.cancel 1), .step 1 {}, .step 1 {}]

def dispatchedRegardless : List ServerEvent :=
  List.replicate 6 (.step 0 {}) ++ [.step 0 (acceptedRun "run"), .step 0 {}]

theorem canceled_then_running :
    oneJob.tasks = [] ∧
      ((server sampleApp).run listedThenCanceled oneJob).any (fun q =>
        ServerPool.Cancels q (.step 1 {}) 10 ∧
          ((server sampleApp).apply q (.step 1 {})).any fun q' =>
            ¬ (server sampleApp).Along (fun (p : ServerPool) e => p.sends e ≠ some 10)
                dispatchedRegardless q' ∧
              ((server sampleApp).run dispatchedRegardless q').any fun p' =>
                ∃ R ∈ p'.store.db.jobRuns.rows, R.id = 10 ∧ R.status = .running) = true := by
  decide +kernel

def canceledWhileRunning : List ServerEvent :=
  dispatched "run" ++ [.start (.cancel 1), .step 0 {}, .step 0 {},
    .step 0 { reply := .ok ⟨202, none, .ok {}⟩ }]

def foundCanceled : List ServerEvent :=
  [.step 0 {}, .finish 0, .start .poll, .step 0 {}, .step 0 {}, .step 0 {},
    .step 0 (replied 200 (.status { status := .canceled })), .step 0 {}, .step 0 {}, .step 0 {}]

theorem cancellations_kept_requested :
    ∃ q q', (server sampleApp).run canceledWhileRunning oneJob = some q ∧
      (server sampleApp).apply q (.step 0 {}) = some q' ∧ ServerPool.Cancels q (.step 0 {}) 10 ∧
      StaysCanceled sampleApp 10 foundCanceled q' := by
  have hok : (server sampleApp).Along Abiding (canceledWhileRunning ++ .step 0 {} :: foundCanceled)
      oneJob := by decide +kernel
  have hrun : ((server sampleApp).run canceledWhileRunning oneJob).any (fun q =>
      ServerPool.Cancels q (.step 0 {}) 10 ∧ ((server sampleApp).apply q (.step 0 {})).isSome) =
        true := by decide +kernel
  obtain ⟨q, hq, hrest⟩ := (Option.any_eq_true _ _).mp hrun
  obtain ⟨hcancels, hsome⟩ := of_decide_eq_true hrest
  obtain ⟨q', hq'⟩ := Option.isSome_iff_exists.mp hsome
  exact ⟨q, q', hq, hq', hcancels, cancellations_kept rfl hok hq hq' hcancels⟩

end Janus.Server
