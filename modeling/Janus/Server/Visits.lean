import Janus.Server.Rounds

/-! A pass visits the jobs of a list in turn, whatever runs beside it. -/

namespace Janus.Server

open Janus.Concurrency Janus.Data

structure Visits (app : AppState) (D : Discipline Call Call.Result String Store)
    (idle : Store → Prop) (todo : List JobRun → Store → Prop)
    (A : JobRun → List JobRun → Assertions) : Prop where
  round : ∀ J Js, Round app D J (A J Js)
  idle_eq : ∀ J Js, (A J Js).idle = idle
  next_eq : ∀ J Js, (A J Js).next = todo Js
  held_of_todo : ∀ J Js s, todo (J :: Js) s → (A J Js).held s
  idle_of_todo : ∀ Js s, todo Js s → idle s
  idle_stable : ∀ s s', idle s → D.rely s s' → D.inv s' → idle s'
  exec : ∀ c s x s', D.admits c s x s' → ∃ o, c.exec app o s = (x, s')
  query : ∀ q s, idle s → D.inv s → D.before (.query q) s ∧
    ∀ x s', D.admits (.query q) s x s' → idle s'
  list : ∀ statuses s, (∀ status ∈ statuses, status = .pending ∨ status.live = true) → idle s →
    D.inv s → todo (s.db.listJobRunsByStatus statuses) s
  block : ∀ J Js s, J.status = .pending → (A J Js).held s → D.inv s →
    D.before (.jobRun J.id (.setJobRunStatus .blocked)) s ∧
      ∀ x s', D.admits (.jobRun J.id (.setJobRunStatus .blocked)) s x s' →
        onOk (β := Unit) (fun _ s => idle s) (fun _ s => (A J Js).owes s) x s'

section

variable {app : AppState} {D : Discipline Call Call.Result String Store} {idle : Store → Prop}
variable {todo : List JobRun → Store → Prop} {A : JobRun → List JobRun → Assertions}
variable (visits : Visits app D idle todo A) {J : JobRun} {Js : List JobRun} {s : Store}

include visits

lemma Visits.after {α : Type} {p : Task α} (h : Safe D (A J Js).After p s) :
    Safe D (onOk (β := Unit) (fun _ s => idle s) fun _ s => todo Js s) p s := by
  simpa only [Assertions.After, visits.idle_eq, visits.next_eq] using h

lemma visitPendingJob_safe (hpend : J.status = .pending) (hs : (A J Js).held s) :
    Safe D (onOk (β := Unit) (fun _ s => idle s) fun _ s => todo Js s) (dispatchPendingJob app J)
      s := by
  have round := visits.round J Js
  refine visits.after (J := J) (Safe.bind (Safe.mono ?_ (quiet_safe round (quiet_call trivial) hs)))
  intro r s₁ hs₁
  cases r with
  | error e => exact round.idle_of_held s₁ hs₁
  | ok previousJobs =>
    simp only [onOk_ok, dispatchExaminedJob]
    split
    · refine settle_safe round (Safe.request hs₁ round.held_stable fun s₂ hs₂ hi => ?_)
      rw [visits.idle_eq]
      exact visits.block J Js s₂ hpend hs₂ hi
    · exact round.next_of_held s₁ hs₁
    · exact dispatchReadyJob_safe round hpend hs₁

lemma visitRunningJob_safe (hlive : J.status.live = true) (hs : (A J Js).held s) :
    Safe D (onOk (β := Unit) (fun _ s => idle s) fun _ s => todo Js s) (pollRunningJob app J) s :=
  visits.after (pollRunningJob_safe (visits.round J Js) hlive hs)

lemma visit_safe {f : JobRun → Task PUnit} {q : JobRun → Prop} {statuses : List JobStatus}
    (hstatuses : ∀ status ∈ statuses, status = .pending ∨ status.live = true)
    (hq : ∀ J : JobRun, J.status ∈ statuses → q J)
    (hf : ∀ J Js s, q J → (A J Js).held s →
      Safe D (onOk (β := Unit) (fun _ s => idle s) fun _ s => todo Js s) (f J) s)
    (hs : idle s) :
    Safe D (fun _ s => idle s)
      (Db.listJobRunsByStatus statuses >>= fun jobs => jobs.forM f) s := by
  refine Safe.bind (Safe.request hs visits.idle_stable fun s₁ hs₁ hi => ?_)
  obtain ⟨hb, hkeep⟩ := visits.query (.listJobRunsByStatus statuses) s₁ hs₁ hi
  refine ⟨hb, fun x s₂ ha => ?_⟩
  obtain ⟨o, ho⟩ := visits.exec _ _ _ _ ha
  obtain ⟨rfl, ⟨e, rfl⟩ | rfl⟩ := exec_query ho
  · exact hkeep _ s₂ ha
  · refine Safe.forM (I := fun Js s => todo Js s ∧ ∀ J ∈ Js, q J) (fun s h => visits.idle_of_todo _ s h.1)
      ?_ ⟨visits.list _ s₂ hstatuses hs₁ hi, fun J hJ => hq J (by simpa using (List.mem_filter.mp hJ).2)⟩
    intro J Js s ⟨ht, hall⟩
    refine Safe.mono ?_ (hf J Js s (hall J List.mem_cons_self) (visits.held_of_todo J Js s ht))
    intro r s' hr
    cases r with
    | error e => exact hr
    | ok u => exact ⟨hr, fun K hK => hall K (List.mem_cons_of_mem _ hK)⟩

theorem visitPendingJobs_safe (hs : idle s) :
    Safe D (fun _ s => idle s) (dispatchPendingJobs app) s :=
  visit_safe visits (q := fun J => J.status = .pending) (by decide) (fun J hJ => by simpa using hJ)
    (fun _ _ _ => visitPendingJob_safe visits) hs

theorem visitRunningJobs_safe (hs : idle s) :
    Safe D (fun _ s => idle s) (pollRunningJobs app) s := by
  refine visit_safe visits (q := fun J => J.status.live = true) (by decide) (fun J hJ => ?_)
    (fun _ _ _ => visitRunningJob_safe visits) hs
  cases hst : J.status <;> simp_all [JobStatus.live]

end

end Janus.Server
