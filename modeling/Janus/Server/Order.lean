import Janus.Server.Course

/-! The jobs of a pipeline run one after the other. -/

namespace Janus.Server

open Janus.Concurrency Janus.Data

structure OrderRule (allowed : JobStatus → Prop) where
  advanced : JobStatus → Prop
  cleared : JobStatus → Bool → Prop
  pending : ¬ advanced .pending
  live : ∀ status, status.live = true → advanced status
  cleared_terminal : ∀ status canFail, cleared status canFail → status.terminal = true
  cleared_advanced : ∀ status canFail, cleared status canFail → advanced status
  ready : ∀ status canFail, nextReadyJobStatus [(status, canFail)] = some .pending →
    allowed status → cleared status canFail
  halted : ∀ status canFail, nextReadyJobStatus [(status, canFail)] = some .blocked →
    advanced .blocked → cleared status canFail

def OrderRule.Ordered {allowed : JobStatus → Prop} (rule : OrderRule allowed) (db : Database) : Prop :=
  ∀ J ∈ db.jobRuns.rows, rule.advanced J.status → ∀ K ∈ db.jobRuns.rows,
    K.pipelineRunId = J.pipelineRunId → K.jobIndex < J.jobIndex →
      rule.cleared K.status K.outcomePolicy.allowsFailure

namespace OrderRule

variable {allowed : JobStatus → Prop} {rule : OrderRule allowed} {own : Origin → Prop}
variable {db db' : Database} {J : JobRun}

lemma Ordered.behind (h : rule.Ordered db) (wf : db.WellFormed) (hJ : J ∈ db.jobRuns.rows)
    {K : JobRun} (hK : db.Previous J K) (hc : rule.cleared K.status K.outcomePolicy.allowsFailure) :
    ∀ K' ∈ db.jobRuns.rows, K'.pipelineRunId = J.pipelineRunId → K'.jobIndex < J.jobIndex →
      rule.cleared K'.status K'.outcomePolicy.allowsFailure := by
  intro K' hK' hp hi
  rcases wf.earlier_cases hJ hK hK' hp hi with rfl | hlt
  · exact hc
  · exact h K hK.1 (rule.cleared_advanced _ _ hc) K' hK'
      (hp.trans (wf.previous_index hJ hK).1.symm) hlt

lemma Ordered.ready (h : rule.Ordered db) (wf : db.WellFormed) (hJ : J ∈ db.jobRuns.rows)
    (hr : db.Ready allowed J) :
    ∀ K ∈ db.jobRuns.rows, K.pipelineRunId = J.pipelineRunId → K.jobIndex < J.jobIndex →
      rule.cleared K.status K.outcomePolicy.allowsFailure := by
  rcases hr.2 with h0 | ⟨K, hK, hallowed, hready⟩
  · intro K _ _ hi
    omega
  · exact h.behind wf hJ hK (rule.ready _ _ hready hallowed)

lemma Ordered.update (h : rule.Ordered db) (wf : db.WellFormed) (hJ : J ∈ db.jobRuns.rows)
    {u : JobUpdate} (hp : JobPermits allowed db J u)
    (hadv : rule.advanced (u.status.getD J.status)) :
    ∀ K ∈ db.jobRuns.rows, K.pipelineRunId = J.pipelineRunId → K.jobIndex < J.jobIndex →
      rule.cleared K.status K.outcomePolicy.allowsFailure := by
  have hlive (hl : J.status.live = true) := h J hJ (rule.live _ hl)
  have hactive (ha : db.Active allowed J) := ha.elim (h.ready wf hJ) hlive
  cases u with
  | setJobRunStarted _ _ => exact h.ready wf hJ hp
  | finishJobRun _ _ _ _ _ _ _ _ _ => exact hp.elim (fun hp => hactive hp.1) fun hp => hlive hp.1
  | setJobRunStatus status =>
    rcases hp with ⟨⟨-, K, hK, hb⟩, rfl⟩ | ⟨hl, -⟩
    · exact h.behind wf hJ hK (rule.halted _ _ hb hadv)
    · exact hlive hl
  | markJobRunCancelRequested _ => exact hp.elim
  | recordCancelRetry => exact hlive hp
  | requeueJobRunForInfraRetry => exact (rule.pending hadv).elim
  | markJobRunCancelRetryExhausted => exact hlive hp

lemma Ordered.of_eq (h : rule.Ordered db) (hj : db'.jobRuns = db.jobRuns) : rule.Ordered db' := by
  simpa only [Ordered, hj] using h

/-- A job that had not ended is ahead only where the jobs before it are cleared. -/
lemma Ordered.modify (h : rule.Ordered db) (hJ : J ∈ db.jobRuns.rows)
    (hun : J.status.terminal = false) {u : JobUpdate} {now : Timestamp} {key : Id}
    (hj : db'.jobRuns = db.jobRuns.modify J.id (u.row now key) fun job => (u.row_same now key job).id)
    (hbehind : rule.advanced (u.status.getD J.status) → ∀ K ∈ db.jobRuns.rows,
      K.pipelineRunId = J.pipelineRunId → K.jobIndex < J.jobIndex →
        rule.cleared K.status K.outcomePolicy.allowsFailure) : rule.Ordered db' := by
  intro L' hL' hadv K' hK' hpip hidx
  rw [hj] at hL' hK'
  obtain ⟨L, hL, hL'⟩ := Table.mem_modify.mp hL'
  obtain ⟨K, hK, hK'⟩ := Table.mem_modify.mp hK'
  rcases hL' with ⟨hid, rfl⟩ | ⟨-, rfl⟩
  · obtain rfl := Database.jobRun_eq hL hJ hid
    have hs := u.row_same now key L
    rw [hs.pipelineRunId] at hpip
    rw [hs.jobIndex] at hidx
    rw [u.row_status] at hadv
    rcases hK' with ⟨hid', rfl⟩ | ⟨-, rfl⟩
    · obtain rfl := Database.jobRun_eq hK hJ hid'
      exact absurd hidx (by rw [hs.jobIndex]; exact lt_irrefl _)
    · exact hbehind hadv K' hK hpip hidx
  · rcases hK' with ⟨hid', rfl⟩ | ⟨-, rfl⟩
    · obtain rfl := Database.jobRun_eq hK hJ hid'
      have hs := u.row_same now key K
      rw [hs.pipelineRunId] at hpip
      rw [hs.jobIndex] at hidx
      have hc := rule.cleared_terminal _ _ (h L' hL hadv K hK hpip hidx)
      exact absurd (hun.symm.trans hc) Bool.false_ne_true
    · exact h L' hL hadv K' hK hpip hidx

theorem Ordered.step (h : rule.Ordered db) (wf : db.WellFormed) {c : Call}
    {x : Except String c.Result} (hp : Permits allowed own db c) (he : Call.Effect db db' c x) :
    rule.Ordered db' := by
  cases he with
  | untouched tables _ => exact h.of_eq tables.jobRuns
  | pipelineRun _ _ _ jobRuns _ _ => exact h.of_eq jobRuns
  | createPipelineRun _ _ _ _ _ _ _ _ _ jobRuns _ _ _ => exact h.of_eq jobRuns
  | addPreviousJob _ _ _ _ jobRuns _ _ _ => exact h.of_eq jobRuns
  | createJobRun pipelineId jobIndex runnerId name policy runId key _ _ jobRuns _ _ _ =>
    obtain ⟨-, hsmall⟩ := hp.resolve_left id
    have hmem : ∀ J ∈ db'.jobRuns.rows, J ∈ db.jobRuns.rows ∨
        J = Database.newJobRun runId key pipelineId jobIndex runnerId name policy := by
      intro J hJ
      simpa [Table.rows_insert? jobRuns] using hJ
    intro J hJ hadv K hK hpip hidx
    rcases hmem J hJ with hJ | rfl
    · rcases hmem K hK with hK | rfl
      · exact h J hJ hadv K hK hpip hidx
      · exact absurd hidx (hsmall J hJ hpip.symm).not_gt
    · exact (rule.pending hadv).elim
  | jobRun runId u now key jobRuns _ _ =>
    obtain ⟨R, hR, rfl, hpermit⟩ := hp.resolve_right id
    exact h.modify hR (JobStatus.unfinished_iff.mpr hpermit.unfinished) jobRuns
      fun hadv => h.update wf hR hpermit hadv

lemma Ordered.of_pending (h : ∀ J ∈ db.jobRuns.rows, J.status = .pending) : rule.Ordered db := by
  intro J hJ hadv
  rw [h J hJ] at hadv
  exact (rule.pending hadv).elim

end OrderRule

lemma Permits.ready {allowed : JobStatus → Prop} {own : Origin → Prop} {db : Database} {J : JobRun}
    {c : Call} (h : Permits allowed own db c) (hc : c.sends = some J.id) (hJ : J ∈ db.jobRuns.rows) :
    db.Ready allowed J := by
  cases c with
  | runner r request =>
    cases request with
    | createJobRun id name key body =>
      obtain ⟨R, hR, hid, hready⟩ := h.resolve_right (fun h => h)
      cases hc
      exact Database.jobRun_eq hR hJ hid ▸ hready
    | _ => cases hc
  | _ => cases hc

/-- The pipelines as an enqueue that went through leaves them: every job waits, and every job but
the first has its previous job. -/
structure Created (db : Database) : Prop where
  wellFormed : db.WellFormed
  pending : ∀ J ∈ db.jobRuns.rows, J.status = .pending
  linked : ∀ J ∈ db.jobRuns.rows, J.jobIndex = 0 ∨ ∃ K, db.Previous J K

instance (db : Database) : Decidable (Created db) :=
  decidable_of_iff (db.WellFormed ∧ (∀ J ∈ db.jobRuns.rows, J.status = .pending) ∧
      ∀ J ∈ db.jobRuns.rows, J.jobIndex = 0 ∨ ∃ K, db.Previous J K)
    ⟨fun h => ⟨h.1, h.2.1, h.2.2⟩, fun h => ⟨h.wellFormed, h.pending, h.linked⟩⟩

def Role.worksOff : Role → Bool
  | .recovery | .dispatch | .poll => true
  | _ => false

/-- Only the scheduler's work runs, and no dispatch pass looks at a job behind a blocked one. -/
def NoBlockedPrevious (p : ServerPool) (e : ServerEvent) : Prop :=
  e.start?.all Role.worksOff ∧
    ∀ J ∈ p.store.db.jobRuns.rows, p.examines e = some J.id → ∀ K ∈ p.store.db.jobRuns.rows,
      ⟨J.id, K.id⟩ ∈ p.store.db.jobRunPrevious.rows → K.status ≠ .blocked

/-- Whatever job is sent to its runner, the earlier jobs of its pipeline let it start. -/
def SentInOrder (p : ServerPool) (e : ServerEvent) : Prop :=
  ∀ J ∈ p.store.db.jobRuns.rows, p.sends e = some J.id → ∀ K ∈ p.store.db.jobRuns.rows,
    K.pipelineRunId = J.pipelineRunId → K.jobIndex < J.jobIndex →
      Passed K.status K.outcomePolicy.allowsFailure

instance (p : ServerPool) (e : ServerEvent) : Decidable (NoBlockedPrevious p e) :=
  inferInstanceAs (Decidable (_ ∧ _))

instance (p : ServerPool) (e : ServerEvent) : Decidable (SentInOrder p e) :=
  inferInstanceAs (Decidable (∀ J ∈ p.store.db.jobRuns.rows, _))

def serialRule : OrderRule (· ≠ .blocked) where
  advanced status := status ≠ .pending ∧ status ≠ .blocked
  cleared := Passed
  pending h := h.1 rfl
  live status h := by cases status <;> simp_all [JobStatus.live]
  cleared_terminal _ _ := Passed.terminal
  cleared_advanced status canFail h := by
    rcases h with rfl | rfl | ⟨rfl, -⟩ <;> exact ⟨by decide, by decide⟩
  ready status canFail h hne := by
    cases status <;> cases canFail <;> simp_all [nextReadyJobStatus, Passed]
  halted _ _ _ h := (h.2 rfl).elim

def Linked (db : Database) : Prop :=
  ∀ J ∈ db.jobRuns.rows, J.jobIndex = 0 ∨ ∃ K, db.Previous J K

lemma Linked.step {db db' : Database} {own : Origin → Prop} {allowed : JobStatus → Prop} {c : Call}
    {x : Except String c.Result} (hown : ∀ origin, ¬ own origin) (h : Linked db)
    (hp : Permits allowed own db c) (he : Call.Effect db db' c x) : Linked db' := by
  have same (hj : SameJobs db.jobRuns db'.jobRuns) (hr : db'.jobRunPrevious = db.jobRunPrevious) :
      Linked db' := by
    intro J' hJ'
    obtain ⟨J, hJ, hs⟩ := hj.bwd J' hJ'
    rw [hs.jobIndex]
    refine (h J hJ).imp id ?_
    rintro ⟨K, hK, hedge⟩
    obtain ⟨K', hK', hs'⟩ := hj.fwd K hK
    exact ⟨K', hK', by rw [hr, hs.id, hs'.id]; exact hedge⟩
  cases he with
  | untouched tables _ => exact same (.of_eq tables.jobRuns) tables.jobRunPrevious
  | jobRun runId u now key jobRuns _ edges =>
    exact same (jobRuns ▸ sameJobs_modify db.jobRuns runId u now key) edges
  | pipelineRun _ _ _ jobRuns _ edges => exact same (.of_eq jobRuns) edges
  | createPipelineRun _ _ _ _ _ _ _ _ _ jobRuns _ edges _ => exact same (.of_eq jobRuns) edges
  | createJobRun _ _ _ _ _ _ _ _ _ _ _ _ _ =>
    obtain ⟨⟨p, -, -, ho⟩, -⟩ := hp.resolve_left id
    exact (hown _ ho).elim
  | addPreviousJob _ _ _ _ _ _ _ _ =>
    obtain ⟨J, -, K, -, -, -, ⟨p, -, -, ho⟩, -⟩ := hp.resolve_left id
    exact (hown _ ho).elim

lemma serial_course :
    Course (fun r => r.worksOff = true) (· ≠ .blocked)
      (fun db => serialRule.Ordered db ∧ Linked db) NoBlockedPrevious where
  uncancelled id h := by cases h
  starts _ _ h := h.1
  examines p e c hok hc _ hinv J hJ hid := by
    refine (hinv.2 J hJ).imp_right fun ⟨K, hK⟩ => ⟨K, hK, ?_⟩
    exact hok.2 J hJ (by simp [ServerPool.examines, hc, hid]) K hK.1 hK.2
  kept r hr db db' c x wf hinv hp he := by
    refine ⟨hinv.1.step wf hp he, hinv.2.step (fun origin ho => ?_) hp he⟩
    cases r <;> first | exact ho | cases hr

theorem sent_in_order {app : AppState} {p : ServerPool} {es : List ServerEvent}
    (hidle : p.tasks = []) (hcreated : Created p.store.db)
    (hok : (server app).Along NoBlockedPrevious es p) : (server app).Along SentInOrder es p := by
  refine System.Along.mono ?_ (serial_course.permits hidle hcreated.wellFormed
    ⟨.of_pending hcreated.pending, hcreated.linked⟩ hok)
  intro q e h J hJ hs
  obtain ⟨c, hc, hsends⟩ := Option.bind_eq_some_iff.mp hs
  obtain ⟨wf, hinv, r, hp⟩ := h c hc
  exact hinv.1.ready wf hJ (hp.ready hsends hJ)

def refusedFirst : List ServerEvent :=
  .start .dispatch :: (List.replicate 7 (.step 0 {}) ++
    .step 0 { reply := .ok { status := 400 } } :: List.replicate 12 (.step 0 {}))

theorem sent_behind_failed :
    threeJobs.tasks = [] ∧ Created threeJobs.store.db ∧
      (server sampleApp).Along (fun _ e => e.start?.all Role.worksOff = true) refusedFirst threeJobs ∧
      ¬ (server sampleApp).Along SentInOrder refusedFirst threeJobs := by
  decide +kernel

def firstSucceeds : List ServerEvent :=
  .start .dispatch :: (List.replicate 7 (.step 0 {}) ++
    .step 0 { reply := .ok ⟨201, none, .ok { payload := .created ⟨"run", 0⟩ }⟩ } ::
      List.replicate 3 (.step 0 {}) ++ [.finish 0, .start .poll] ++
      List.replicate 2 (.step 0 {}) ++
      [.step 0 { reply := .ok ⟨200, none, .ok { payload := .status { status := .success } }⟩ }] ++
      List.replicate 3 (.step 0 {}) ++ [.finish 0, .start .dispatch] ++
      List.replicate 8 (.step 0 {}))

theorem sent_in_order_first_succeeds :
    ((server sampleApp).run firstSucceeds threeJobs).isSome ∧
      (server sampleApp).Along NoBlockedPrevious firstSucceeds threeJobs ∧
      (server sampleApp).Along SentInOrder firstSucceeds threeJobs :=
  have hok : (server sampleApp).Along NoBlockedPrevious firstSucceeds threeJobs := by decide +kernel
  ⟨by decide +kernel, hok, sent_in_order rfl (by decide +kernel) hok⟩

def Role.cancels : Role → Bool
  | .cancel _ => true
  | _ => false

def EdgesStored (p : ServerPool) (e : ServerEvent) : Prop :=
  e.start?.all (fun r => !r.cancels) ∧
    ∀ J ∈ p.store.db.jobRuns.rows, p.examines e = some J.id → J.jobIndex = 0 ∨
      ∃ K ∈ p.store.db.jobRuns.rows, ⟨J.id, K.id⟩ ∈ p.store.db.jobRunPrevious.rows

/-- No job is sent to its runner before the job before it has ended. -/
def SentAfterPrevious (p : ServerPool) (e : ServerEvent) : Prop :=
  ∀ J ∈ p.store.db.jobRuns.rows, p.sends e = some J.id → ∀ K ∈ p.store.db.jobRuns.rows,
    K.pipelineRunId = J.pipelineRunId → K.jobIndex + 1 = J.jobIndex → K.status.terminal = true

instance (p : ServerPool) (e : ServerEvent) : Decidable (EdgesStored p e) :=
  inferInstanceAs (Decidable (_ ∧ _))

instance (p : ServerPool) (e : ServerEvent) : Decidable (SentAfterPrevious p e) :=
  inferInstanceAs (Decidable (∀ J ∈ p.store.db.jobRuns.rows, _))

def endedRule : OrderRule (fun _ => True) where
  advanced status := status ≠ .pending
  cleared status _ := status.terminal = true
  pending h := h rfl
  live status h := by cases status <;> simp_all [JobStatus.live]
  cleared_terminal _ _ h := h
  cleared_advanced _ _ h := (JobStatus.terminal_iff.mp h).1
  ready status canFail h _ := by
    cases status <;> cases canFail <;> simp_all [nextReadyJobStatus, JobStatus.terminal]
  halted status canFail h _ := by
    cases status <;> cases canFail <;> simp_all [nextReadyJobStatus, JobStatus.terminal]

lemma ended_course :
    Course (fun r => r.cancels = false) (fun _ => True) endedRule.Ordered EdgesStored where
  uncancelled id h := by cases h
  starts _ _ h := by simpa [Event.start?] using h.1
  examines p e c hok hc _ _ J hJ hid :=
    (hok.2 J hJ (by simp [ServerPool.examines, hc, hid])).imp_right fun ⟨K, hK, hedge⟩ =>
      ⟨K, ⟨hK, hedge⟩, trivial⟩
  kept r _ db db' c x wf hinv hp he := hinv.step wf hp he

def OneLive (db : Database) : Prop :=
  ∀ J ∈ db.jobRuns.rows, ∀ K ∈ db.jobRuns.rows, J.pipelineRunId = K.pipelineRunId →
    J.status.live = true → K.status.live = true → J = K

instance (db : Database) : Decidable (OneLive db) :=
  inferInstanceAs (Decidable (∀ J ∈ db.jobRuns.rows, _))

lemma oneLive_of_ordered {db : Database} (wf : db.WellFormed) (h : endedRule.Ordered db) :
    OneLive db := by
  have hlt (J) (hJ : J ∈ db.jobRuns.rows) (K) (hK : K ∈ db.jobRuns.rows)
      (hp : K.pipelineRunId = J.pipelineRunId) (hl : J.status.live = true)
      (hl' : K.status.live = true) : ¬ K.jobIndex < J.jobIndex := by
    intro hi
    have ht := h J hJ (endedRule.live _ hl) K hK hp hi
    rw [(JobStatus.terminal_iff.mp ht).2] at hl'
    cases hl'
  intro J hJ K hK hp hl hl'
  refine wf.indexUnique J hJ K hK hp ?_
  have h₁ := hlt J hJ K hK hp.symm hl hl'
  have h₂ := hlt K hK J hJ hp hl' hl
  omega

theorem one_live_job {app : AppState} {p : ServerPool} {es : List ServerEvent}
    (hidle : p.tasks = []) (hwf : p.store.db.WellFormed)
    (hpending : ∀ J ∈ p.store.db.jobRuns.rows, J.status = .pending)
    (hok : (server app).Along EdgesStored es p) :
    (server app).Along SentAfterPrevious es p ∧
      ∀ p', (server app).run es p = some p' → OneLive p'.store.db := by
  have hord : endedRule.Ordered p.store.db := .of_pending hpending
  constructor
  · refine System.Along.mono ?_ (ended_course.permits hidle hwf hord hok)
    intro q e h J hJ hs K hK hp hi
    obtain ⟨c, hc, hsends⟩ := Option.bind_eq_some_iff.mp hs
    obtain ⟨wf, hinv, r, hperm⟩ := h c hc
    exact hinv.ready wf hJ (hperm.ready hsends hJ) K hK hp (by omega)
  · intro p' hrun
    obtain ⟨wf, hinv⟩ := ended_course.invariant hidle hwf hord hok hrun
    exact oneLive_of_ordered wf hinv

def acceptedRun (runId : String) : Outcome where
  reply := .ok ⟨201, none, .ok { payload := .created ⟨runId, 0⟩ }⟩
  accepted := some runId

def dispatchBeforeEdge : List ServerEvent :=
  .start (sampleEnqueue 2) :: (List.replicate 3 (.step 0 {}) ++
    [.step 0 { uuid := 1 }, .step 0 {}, .step 0 { uuid := 10, dispatchKey := 10 },
      .step 0 { uuid := 11, dispatchKey := 11 }, .start .dispatch] ++
    List.replicate 7 (.step 1 {}) ++ [.step 1 (acceptedRun "first"), .step 1 {}] ++
    List.replicate 6 (.step 1 {}) ++ [.step 1 (acceptedRun "second"), .step 1 {}])

theorem two_live_jobs :
    noPipelines.tasks = [] ∧ noPipelines.store.db.WellFormed ∧
      (server sampleApp).Along (fun _ e => e.start?.all (fun r => !r.cancels) = true)
        dispatchBeforeEdge noPipelines ∧
      ¬ (server sampleApp).Along SentAfterPrevious dispatchBeforeEdge noPipelines ∧
      ((server sampleApp).run dispatchBeforeEdge noPipelines).any
        (fun p' => ¬ OneLive p'.store.db) = true := by
  decide +kernel

def dispatchAfterEdge : List ServerEvent :=
  .start (sampleEnqueue 2) :: (List.replicate 3 (.step 0 {}) ++
    [.step 0 { uuid := 1 }, .step 0 {}, .step 0 { uuid := 10, dispatchKey := 10 },
      .step 0 { uuid := 11, dispatchKey := 11 }, .step 0 {}, .start .dispatch] ++
    List.replicate 7 (.step 1 {}) ++ [.step 1 (acceptedRun "first")] ++
    List.replicate 2 (.step 1 {}))

theorem one_live_job_after_edge :
    ((server sampleApp).run dispatchAfterEdge noPipelines).isSome ∧
      (server sampleApp).Along SentAfterPrevious dispatchAfterEdge noPipelines ∧
      ∀ p', (server sampleApp).run dispatchAfterEdge noPipelines = some p' → OneLive p'.store.db :=
  have hok : (server sampleApp).Along EdgesStored dispatchAfterEdge noPipelines := by decide +kernel
  ⟨by decide +kernel, one_live_job rfl (by decide +kernel) (by decide +kernel) hok⟩

end Janus.Server
