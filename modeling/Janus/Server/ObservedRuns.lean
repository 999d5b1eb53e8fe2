import Janus.Server.Observation
import Janus.Server.Order
import Janus.Server.Visits

/-! The passes of the scheduler beside cancellations, and what their runs keep. -/

namespace Janus.Server

open Janus.Concurrency Janus.Data

def observing (app : AppState) (r : Role) : Discipline Call Call.Result String Store where
  rely s s' := r.scheduler = true → s.Overtakes s'
  inv := Store.Observed
  admits c s x s' := ∃ o, c.exec app o s = (x, s') ∧ (c.refusal o.fault = none → c.Heeds app o s)
  before c s := (r.scheduler = false → c.isOutside) ∧ c.Good app s

def Store.Awaits (s : Store) (J : JobRun) : Prop :=
  J.id ∉ s.history.finished ∧ ∃ R ∈ s.db.jobRuns.rows, J.Overtaken R

def Store.Visiting (Js : List JobRun) (s : Store) : Prop :=
  (Js.map JobRun.id).Nodup ∧ ∀ J ∈ Js, s.Awaits J

structure Store.Visits (Js : List JobRun) (J : JobRun) (s : Store) : Prop where
  visiting : s.Visiting Js
  other : J.id ∉ Js.map JobRun.id
  awaits : s.Awaits J

def Store.RunEnded (s : Store) (J : JobRun) : Prop :=
  J.status.live = true ∧ ∀ run ∈ s.history.runs, J.runnerRunId = some run.id → run.live = false

def observingAssertions (J : JobRun) (Js : List JobRun) : Assertions where
  idle _ := True
  next := Store.Visiting Js
  held := Store.Visits Js J
  ended s := s.Visits Js J ∧ s.RunEnded J
  owes := Store.Visiting Js

section

variable {app : AppState} {s s' : Store} {J : JobRun} {Js : List JobRun}

lemma Store.Awaits.overtakes (h : s.Awaits J) (ho : s.Overtakes s') : s'.Awaits J := by
  obtain ⟨hfin, R, hR, hJ⟩ := h
  obtain ⟨R', hR', hR''⟩ := ho.rows R hR
  exact ⟨ho.finished ▸ hfin, R', hR', hJ.trans hR''⟩

lemma Store.Visiting.overtakes (h : s.Visiting Js) (ho : s.Overtakes s') : s'.Visiting Js :=
  ⟨h.1, fun J hJ => (h.2 J hJ).overtakes ho⟩

lemma Store.Visits.overtakes (h : s.Visits Js J) (ho : s.Overtakes s') : s'.Visits Js J :=
  ⟨h.visiting.overtakes ho, h.other, h.awaits.overtakes ho⟩

lemma Store.RunEnded.overtakes (h : s.RunEnded J) (ho : s.Overtakes s') : s'.RunEnded J := by
  refine ⟨h.1, fun run hrun hid => ?_⟩
  by_contra hl
  obtain ⟨run₀, hrun₀, hid₀, hl₀⟩ := ho.runs run hrun (by simpa using hl)
  rw [h.2 run₀ hrun₀ (hid₀ ▸ hid)] at hl₀
  cases hl₀

lemma Call.isQuiet.not_updatesJob {c : Call} (h : c.isQuiet) : c.updatesJob = false := by
  cases c with
  | jobRun id u => cases h
  | _ => rfl

lemma JobUpdate.mem_finished_update {h : History} {id id' : Id} {u : JobUpdate}
    (hid : id' ∈ (h.update id u).finished) : id' = id ∨ id' ∈ h.finished := by
  cases hf : u.finishes with
  | true =>
    rw [u.history_of_finishes _ _ hf] at hid
    exact List.mem_cons.mp hid
  | false => exact .inr (u.history_of_not_finishes _ _ hf ▸ hid)

lemma Store.Awaits.update {K : JobRun} {id : Id} {u : JobUpdate} {o : Outcome}
    {x : Except String u.Result} (h : s.Awaits K) (hid : K.id ≠ id)
    (hexec : (Call.jobRun id u).exec app o s = (x, s')) : s'.Awaits K := by
  obtain ⟨hfin, R, hR, ho⟩ := h
  rcases exec_jobRun_cases hexec with ⟨hjobs, hhistory⟩ | ⟨hjobs, hhistory⟩
  · exact ⟨hhistory ▸ hfin, R, hjobs ▸ hR, ho⟩
  · refine ⟨fun hmem => ?_, R, ?_, ho⟩
    · rw [hhistory] at hmem
      exact (JobUpdate.mem_finished_update hmem).elim hid hfin
    · rw [hjobs, Table.mem_modify]
      exact ⟨R, hR, .inr ⟨fun he => hid (ho.id.symm.trans he), rfl⟩⟩

lemma Store.Visits.update {u : JobUpdate} {o : Outcome} {x : Except String u.Result}
    (h : s.Visits Js J) (hexec : (Call.jobRun J.id u).exec app o s = (x, s')) : s'.Visiting Js := by
  refine ⟨h.visiting.1, fun K hK => (h.visiting.2 K hK).update (fun he => ?_) hexec⟩
  exact h.other (he ▸ List.mem_map_of_mem hK)

variable {r : Role} (hr : r.scheduler = true)

include hr

lemma observing_before {c : Call} (h : c.Good app s) : (observing app r).before c s := by
  refine ⟨fun hn => ?_, h⟩
  rw [hr] at hn
  cases hn

lemma observing_write (app : AppState) (u : JobUpdate) (hs : s.Visits Js J) (hi : s.Observed)
    (hu : ∀ R ∈ s.db.jobRuns.rows, J.Overtaken R → R.id ∉ s.history.finished → u.Leaves s R) :
    (observing app r).before (.jobRun J.id u) s ∧ ∀ x s',
      (observing app r).admits (.jobRun J.id u) s x s' → s'.Visiting Js := by
  obtain ⟨hfin, R, hR, ho⟩ := hs.awaits
  have hleaves := hu R hR ho (ho.id ▸ hfin)
  refine ⟨observing_before hr ?_, ?_⟩
  · rw [← ho.id]
    exact good_update hi hR hleaves
  · rintro x s' ⟨o, hex, -⟩
    exact hs.update hex

omit hr in
lemma leaves_waiting {R : JobRun} {u : JobUpdate} (hi : s.Observed) (hR : R ∈ s.db.jobRuns.rows)
    (ho : J.Overtaken R) (hfin : R.id ∉ s.history.finished) (hpend : J.status = .pending)
    (hends : u.finishes = true → ∀ now key, (u.row now key R).status.terminal = true) :
    u.Leaves s R :=
  ⟨hfin, hends, fun _ hrun hl hrecorded hid =>
    (hi.no_run hR (ho.waiting hpend) hrun hl hrecorded hid).elim⟩

omit hr in
lemma leaves_ended {R : JobRun} {u : JobUpdate} (hi : s.Observed) (hR : R ∈ s.db.jobRuns.rows)
    (ho : J.Overtaken R) (hfin : R.id ∉ s.history.finished) (hended : s.RunEnded J)
    (hends : u.finishes = true → ∀ now key, (u.row now key R).status.terminal = true) :
    u.Leaves s R := by
  refine ⟨hfin, hends, fun run hrun hl hrecorded hid => ?_⟩
  have hfollows := hi.follows hR (ho.live hended.1) hrun hl hrecorded hid
  rw [hended.2 run hrun (ho.runnerRunId ▸ hfollows.2)] at hl
  cases hl

omit hr in
lemma Settles.leaves {R : JobRun} {ended : Bool} {u : JobUpdate} (hu : Settles J ended u)
    (hi : s.Observed) (hR : R ∈ s.db.jobRuns.rows) (ho : J.Overtaken R)
    (hfin : R.id ∉ s.history.finished) (hended : ended = true → s.RunEnded J) : u.Leaves s R := by
  cases u with
  | finishJobRun status _ _ _ _ _ _ _ _ =>
    rcases hu with ⟨hpend, rfl⟩ | ⟨he, hs⟩
    · exact leaves_waiting hi hR ho hfin hpend fun _ _ _ => rfl
    · refine leaves_ended hi hR ho hfin (hended he) fun _ _ _ => ?_
      rcases hs with rfl | rfl | rfl <;> rfl
  | setJobRunStatus status =>
    refine ⟨hfin, nofun, fun run hrun hl hrecorded hid => ⟨rfl, fun _ _ => .inl ?_⟩⟩
    obtain ⟨-, hrunId⟩ := hi.follows hR (ho.live hu.1) hrun hl hrecorded hid
    rcases hu.2 with rfl | rfl <;> exact ⟨rfl, hrunId⟩
  | requeueJobRunForInfraRetry =>
    rcases hu with hpend | he
    · exact leaves_waiting hi hR ho hfin hpend nofun
    · exact leaves_ended hi hR ho hfin (hended he) nofun
  | markJobRunCancelRetryExhausted =>
    exact ⟨hfin, fun _ _ _ => rfl, fun _ _ _ _ _ => ⟨rfl, fun _ _ => .inr ⟨rfl, rfl⟩⟩⟩
  | _ => cases hu

lemma observing_last (app : AppState) (u : JobUpdate) (hs : s.Visits Js J) (hi : s.Observed)
    (hu : ∀ R ∈ s.db.jobRuns.rows, J.Overtaken R → R.id ∉ s.history.finished → u.Leaves s R) :
    (observing app r).before (.jobRun J.id u) s ∧ ∀ x s',
      (observing app r).admits (.jobRun J.id u) s x s' →
        onOk (β := Unit) (fun _ _ => True) (fun _ s => s.Visiting Js) x s' := by
  obtain ⟨hb, hx⟩ := observing_write hr app u hs hi hu
  refine ⟨hb, fun x s' ha => ?_⟩
  cases x with
  | error e => trivial
  | ok a => exact hx _ s' ha

omit hr in
lemma Store.Awaits.extends (h : s.Awaits J) (he : s.Extends s') : s'.Awaits J := by
  obtain ⟨hfin, R, hR, ho⟩ := h
  exact ⟨he.finished ▸ hfin, R, he.jobRuns R hR, ho⟩

omit hr in
lemma Store.Visits.extends (h : s.Visits Js J) (he : s.Extends s') : s'.Visits Js J :=
  ⟨⟨h.visiting.1, fun K hK => (h.visiting.2 K hK).extends he⟩, h.other, h.awaits.extends he⟩

omit hr in
lemma Store.Awaits.recordCancelRetry {o : Outcome} {x : Except String ℕ} (h : s.Awaits J)
    (hexec : (Call.jobRun J.id .recordCancelRetry).exec app o s = (x, s')) : s'.Awaits J := by
  obtain ⟨hfin, R, hR, ho⟩ := h
  rcases exec_jobRun_cases hexec with ⟨hjobs, hhistory⟩ | ⟨hjobs, hhistory⟩
  · exact ⟨hhistory ▸ hfin, R, hjobs ▸ hR, ho⟩
  · have hfinished : s'.history.finished = s.history.finished := by
      rw [hhistory]
      rfl
    refine ⟨hfinished ▸ hfin, R.recordCancelRetry o.now, ?_, ho.trans ⟨rfl, rfl, .inl rfl⟩⟩
    rw [hjobs, Table.mem_modify]
    exact ⟨R, hR, .inl ⟨ho.id, rfl⟩⟩

omit hr in
lemma leaves_retry {R : JobRun} (hi : s.Observed) (hR : R ∈ s.db.jobRuns.rows) (ho : J.Overtaken R)
    (hfin : R.id ∉ s.history.finished) (hlive : J.status.live = true) :
    JobUpdate.recordCancelRetry.Leaves s R :=
  ⟨hfin, nofun, fun _ hrun hl hrecorded hid =>
    ⟨rfl, fun _ _ => .inl (hi.follows hR (ho.live hlive) hrun hl hrecorded hid)⟩⟩

omit hr in
lemma runEnded_of_polled {o : Outcome} {runner : Runner} {runId : String} {status : JobStatusResponse}
    (hlive : J.status.live = true) (hrun : J.runnerRunId = some runId)
    (hex : (Call.runner runner (.getJobRun runId)).exec app o s = (.ok status, s'))
    (hheeds : (Call.runner runner (.getJobRun runId)).Heeds app o s)
    (hterminal : status.status.isTerminal = true) : s.RunEnded J := by
  have hanswer : (RunnerRequest.getJobRun runId).receive app.limits o.reply = .ok status :=
    (Prod.mk.inj hex).1
  simp only [Call.Heeds, hanswer] at hheeds
  exact ⟨hlive, fun run hmem hid => hheeds hterminal run hmem (Option.some.inj (hid.symm.trans hrun))⟩

theorem observing_round (J : JobRun) (Js : List JobRun) :
    Round app (observing app r) J (observingAssertions J Js) where
  exec _ _ _ _ := fun ⟨o, ho, _⟩ => ⟨o, ho⟩
  held_stable _ _ h hrely _ := h.overtakes (hrely hr)
  over_stable _ _ h hrely _ := ⟨h.1.overtakes (hrely hr), h.2.overtakes (hrely hr)⟩
  owes_stable _ _ h hrely _ := h.overtakes (hrely hr)
  held_of_over _ h := h.1
  next_of_held _ h := h.visiting
  idle_of_held _ _ := trivial
  quiet c s hc h hi := by
    refine ⟨observing_before hr (good_of_extends hc.not_updatesJob hi), ?_⟩
    rintro x s' ⟨o, hex, -⟩
    have ho := exec_overtakes hc.not_updatesJob hc.not_sends hex
    exact ⟨h.overtakes ho, fun he => ⟨he.1.overtakes ho, he.2.overtakes ho⟩⟩
  polled runner runId s hlive hrun h _ x s' := by
    rintro ⟨o, hex, hheeds⟩ status rfl hterminal
    have ho := exec_overtakes rfl rfl hex
    have hended := runEnded_of_polled hlive hrun hex (hheeds rfl) hterminal
    exact ⟨h.overtakes ho, hended.overtakes ho⟩
  create runner name key body s hpend h hi := by
    refine ⟨observing_before hr (good_of_extends rfl hi), ?_⟩
    rintro x s' ⟨o, hex, -⟩
    exact h.extends (exec_extends rfl hex)
  start runId startedAt s hpend h hi :=
    observing_last hr app (.setJobRunStarted runId startedAt) h hi
      fun R hR ho hfin => leaves_waiting hi hR ho hfin hpend nofun
  missing s s' hpend h hi ha := by
    obtain ⟨o, hex, -⟩ := ha
    have ho := exec_overtakes rfl rfl hex
    refine Safe.request (h.overtakes ho) (fun _ _ h hrely _ => h.overtakes (hrely hr)) ?_
    intro s₁ hs₁ hi₁
    exact observing_last hr app (.setJobRunStatus .failed) hs₁ hi₁
      fun R hR ho hfin => leaves_waiting hi₁ hR ho hfin hpend nofun
  retry s hlive h hi := by
    obtain ⟨hb, hx⟩ := observing_write hr app .recordCancelRetry h hi
      fun R hR ho hfin => leaves_retry hi hR ho hfin hlive
    refine ⟨hb, fun x s' ha => ?_⟩
    cases x with
    | error e => trivial
    | ok n =>
      have hv := hx _ s' ha
      obtain ⟨o, hex, -⟩ := ha
      exact ⟨hv, h.other, h.awaits.recordCancelRetry hex⟩
  settle ended u s hu h hended hi := observing_last hr app u h hi fun R hR ho hfin =>
    hu.leaves hi hR ho hfin fun he => (hended he).2
  finalize s h hi := by
    refine ⟨observing_before hr (good_of_extends rfl hi), ?_⟩
    rintro x s' ⟨o, hex, -⟩
    have ho := exec_overtakes rfl rfl hex
    cases x with
    | error e => trivial
    | ok a => exact h.overtakes ho

end

section

variable {app : AppState} {r : Role} {s s' : Store}

theorem observing_visits (hr : r.scheduler = true) :
    Visits app (observing app r) (fun _ => True) Store.Visiting observingAssertions where
  round := observing_round hr
  idle_eq _ _ := rfl
  next_eq _ _ := rfl
  held_of_todo J Js s h := by
    obtain ⟨hnodup, hawaits⟩ := h
    obtain ⟨hJ, hnodup⟩ := List.nodup_cons.mp hnodup
    exact ⟨⟨hnodup, fun K hK => hawaits K (List.mem_cons_of_mem _ hK)⟩, hJ,
      hawaits J List.mem_cons_self⟩
  idle_of_todo _ _ _ := trivial
  idle_stable _ _ _ _ _ := trivial
  exec _ _ _ _ := fun ⟨o, ho, _⟩ => ⟨o, ho⟩
  query q s _ hi := ⟨observing_before hr (good_of_extends rfl hi), fun _ _ _ => trivial⟩
  list statuses s hstatuses _ hi := by
    refine ⟨s.db.jobRuns.unique.sublist (List.filter_sublist.map _), fun J hJ => ?_⟩
    obtain ⟨hmem, hst⟩ := List.mem_filter.mp hJ
    exact ⟨hi.unfinished hmem (hstatuses _ (by simpa using hst)), J, hmem, .refl J⟩
  block J Js s hpend h hi := observing_last hr app (.setJobRunStatus .blocked) h hi
    fun R hR ho hfin => leaves_waiting hi hR ho hfin hpend nofun

lemma outside_footprint : Footprint Call.isOutside where
  query _ := trivial
  processed _ := trivial
  cancelRun _ _ := trivial
  insert _ := trivial
  pipelineRun _ _ := trivial
  cancelRequested _ _ := trivial
  canceled _ := rfl

lemma outside_safe {α : Type} {p : Task α} (hp : p.Only Call.isOutside) (s : Store) :
    Safe (observing app r) (fun _ _ => True) p s := by
  refine Safe.of_only (Q := Call.isOutside) (A := fun _ => True) (fun _ _ _ _ _ => trivial)
    (fun c s hc _ hi => ?_) (fun _ _ _ _ _ _ _ _ => trivial) hp trivial
  exact ⟨fun _ => hc, fun _ _ _ hex hheeds => (outside_call hc hi hex hheeds).1⟩

lemma observing_program (r : Role) (s : Store) :
    Safe (observing app r) (fun _ _ => True) (r.program app) s := by
  cases r with
  | recovery => exact outside_safe outside_footprint.recoverIncompletePipelines s
  | pushEvents => exact outside_safe outside_footprint.processPushEvents s
  | dispatch => exact visitPendingJobs_safe (observing_visits rfl) trivial
  | poll => exact visitRunningJobs_safe (observing_visits rfl) trivial
  | reconcile =>
    have visits : Visits app (observing app .reconcile) _ _ _ := observing_visits rfl
    refine Safe.bind (Safe.mono ?_ (outside_safe outside_footprint.recoverIncompletePipelines s))
    intro x s₁ _
    cases x with
    | error e => trivial
    | ok u =>
      refine Safe.bind (Safe.mono ?_ (outside_safe outside_footprint.processPushEvents s₁))
      intro x s₂ _
      cases x with
      | error e => trivial
      | ok u =>
        refine Safe.bind (Safe.mono ?_ (visitPendingJobs_safe visits trivial))
        intro x s₃ _
        cases x with
        | error e => trivial
        | ok u => exact visitRunningJobs_safe visits trivial
  | cancel pipelineId => exact outside_safe (outside_footprint.cancelPipeline pipelineId) s
  | enqueue number workflow triggerType triggerRef commitSha selections =>
    exact outside_safe (.bind (outside_footprint.enqueue _ _ _ _ _ _) fun _ => .pure _) s

end

instance (app : AppState) (o : Outcome) (s : Store) (c : Call) : Decidable (c.Heeds app o s) := by
  unfold Call.Heeds
  split
  · infer_instance
  · infer_instance
  · split <;> infer_instance
  · infer_instance

/-- The writes of cancellations that are carried out meet the rows as they were read, and the runners
report no live run as ended. -/
def Heeding (app : AppState) (p : ServerPool) (e : ServerEvent) : Prop :=
  ∀ c ∈ p.call? e, c.refusal e.outcome.fault = none → c.Heeds app e.outcome p.store

instance (app : AppState) (p : ServerPool) (e : ServerEvent) : Decidable (Heeding app p e) :=
  inferInstanceAs (Decidable (∀ c ∈ p.call? e, _))

lemma Store.Observed.ends {s : Store} (h : s.Observed) (runId : String) :
    ({ s with history := s.history.ends runId } : Store).Observed := by
  refine ⟨h.finished, fun run hrun hlive hrecorded => ?_⟩
  obtain ⟨run₀, hrun₀, rfl⟩ := List.mem_map.mp hrun
  split at hlive
  · cases hlive
  · next hne =>
    rw [if_neg hne] at hrecorded ⊢
    exact h.runs run₀ hrun₀ hlive hrecorded

lemma Store.overtakes_ends (s : Store) (runId : String) :
    s.Overtakes { s with history := s.history.ends runId } := by
  refine ⟨fun R hR => ⟨R, hR, .refl R⟩, rfl, fun run hrun hlive => ?_⟩
  obtain ⟨run₀, hrun₀, rfl⟩ := List.mem_map.mp hrun
  split at hlive
  · cases hlive
  · next hne =>
    rw [if_neg hne]
    exact ⟨run₀, hrun₀, rfl, hlive⟩

theorem observingOutline (app : AppState) :
    System.Outline (server app) (Heeding app) Store.Observed (observing app) fun _ _ _ => True where
  inv_eq _ := rfl
  trans _ _ _ _ h h' hr := (h hr).trans (h' hr)
  post_stable _ _ _ _ _ _ := trivial
  refl _ s _ := .refl s
  start p r _ _ := observing_program r p.store
  admits p i o r c next _ hok ht _ := by
    exact ⟨o, rfl, hok c (by simp [Pool.call?, ht])⟩
  keeps r s s' _ := by
    rintro ⟨c, x, hb, o, hex, hheeds⟩
    exact (hb.2 o x s' hex hheeds).1
  compat p i o r c next r' hi _ _ _ hbeside hb := by
    rintro ⟨o, hex, hheeds⟩ hr'
    exact (outside_call (hb.1 (not_scheduler_beside hbeside hr')) hi hex hheeds).2
  environ p v _ hi := by
    cases v with
    | runEnds runId => exact ⟨hi.ends runId, fun _ _ => p.store.overtakes_ends runId⟩
  crash _ _ hi := hi

lemma keeps_apply {app : AppState} {p p' : ServerPool} {e : ServerEvent}
    (hs : System.Sound (server app) Store.Observed (observing app) (fun _ _ _ => True) p)
    (hok : Heeding app p e) (ha : (server app).apply p e = some p') : p.store.Keeps p'.store := by
  obtain ⟨r, rfl, -, rfl⟩ | ⟨i, o, r, c, next, rfl, ht, -, rfl⟩ | ⟨i, r, x, rfl, ht, rfl⟩ |
    ⟨rfl, rfl⟩ | ⟨v, rfl, rfl⟩ := System.apply_cases ha
  · exact ⟨fun _ hJ _ => hJ, fun _ hid => hid⟩
  · have hb := System.Sound.before (observingOutline app) hs (List.mem_of_getElem? ht)
    exact (hb.2 o _ _ rfl (hok c (by simp [Pool.call?, ht]))).2
  · exact ⟨fun _ hJ _ => hJ, fun _ hid => hid⟩
  · exact ⟨fun _ hJ _ => hJ, fun _ hid => hid⟩
  · cases v
    exact ⟨fun _ hJ _ => hJ, fun _ hid => hid⟩

/-- The step leaves the rows of the jobs that `finish_job_run` or `mark_job_run_cancel_retry_exhausted`
has ended. -/
def KeepsEnded (app : AppState) (p : ServerPool) (e : ServerEvent) : Prop :=
  ∀ p', (server app).apply p e = some p' → p.store.Keeps p'.store

/-- With cancellations that meet the rows as they read them, an ended job stays as it is, and no live
run is left behind a row that says that the job is over, unless its cancellation was given up. -/
theorem ended_and_observed {app : AppState} {p : ServerPool} {es : List ServerEvent}
    (hidle : p.tasks = []) (hnew : p.store.history = {}) (hok : (server app).Along (Heeding app) es p) :
    (server app).Along (KeepsEnded app) es p ∧
      ∀ before, before <+: es → ∀ q, (server app).run before p = some q → q.store.Observed := by
  have hobserved : p.store.Observed := ⟨by simp [hnew], by simp [hnew]⟩
  have hstart : System.Sound (server app) Store.Observed (observing app) (fun _ _ _ => True) p := by
    refine ⟨hobserved, ?_, ?_⟩ <;> rw [hidle]
    · intro t ht
      cases ht
    · exact .nil
  constructor
  · refine System.Along.of_invariant (fun _ _ _ hs hok ha => hs.apply (observingOutline app) hok ha) ?_
      hstart hok
    exact fun q e q' hs hok _ q'' ha => keeps_apply hs hok ha
  · rintro before ⟨rest, rfl⟩ q hq
    exact (hok.left.invariant (fun _ _ _ hs hok ha => hs.apply (observingOutline app) hok ha) hstart
      hq).1

def startedRun (runId : String) : List ServerEvent :=
  .start .dispatch :: (List.replicate 7 (.step 0 {}) ++ [.step 0 (acceptedRun runId), .step 0 {},
    .finish 0])

def acceptedCancel : Outcome where
  reply := .ok ⟨202, none, .ok {}⟩

def cancelWhileRunning : List ServerEvent :=
  .start (.cancel 1) :: (List.replicate 2 (.step 0 {}) ++ [.step 0 acceptedCancel] ++
    List.replicate 2 (.step 0 {}) ++ [.finish 0])

def givenUpRun : List ServerEvent :=
  startedRun "run" ++ cancelWhileRunning ++
    .start .poll :: (List.replicate 2 (.step 0 {}) ++ [.step 0 { now := 60000000000 },
      .step 0 acceptedCancel] ++ List.replicate 2 (.step 0 {}) ++ [.finish 0]) ++
    .start .poll :: (List.replicate 2 (.step 0 {}) ++ [.step 0 { now := 120000000000 }, .step 0 {}])

theorem live_behind_failed :
    oneJob.tasks = [] ∧ oneJob.store.history = {} ∧
      (server sampleApp).Along (Heeding sampleApp) givenUpRun oneJob ∧
      ((server sampleApp).run givenUpRun oneJob).any (fun p' =>
        ∃ run ∈ p'.store.history.runs, run.live = true ∧ run.recorded = true ∧
          ∀ R ∈ p'.store.db.jobRuns.rows, R.id = run.jobRunId → R.status = .failed ∧
            ¬ R.Follows run.id) = true := by
  refine ⟨rfl, rfl, ?_⟩
  decide +kernel

def endedRun : List ServerEvent :=
  startedRun "run" ++ [.environment (.runEnds "run")] ++ cancelWhileRunning ++
    .start .poll :: (List.replicate 2 (.step 0 {}) ++ [.step 0 { now := 1 },
      .step 0 (replied 200 (.status { status := .success }))] ++ List.replicate 2 (.step 0 {}))

theorem ended_and_observed_success :
    ((server sampleApp).run endedRun oneJob).any (fun q => q.store.history.finished = [10]) = true ∧
      (server sampleApp).Along (KeepsEnded sampleApp) endedRun oneJob ∧
      ∀ q, (server sampleApp).run endedRun oneJob = some q → q.store.Observed :=
  have hok : (server sampleApp).Along (Heeding sampleApp) endedRun oneJob := by decide +kernel
  have h := ended_and_observed rfl rfl hok
  ⟨by decide +kernel, h.1, h.2 _ (List.prefix_refl _)⟩

end Janus.Server
