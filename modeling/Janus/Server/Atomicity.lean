import Janus.Concurrency.Play
import Janus.Server.Enqueue

/-! How much of a pipeline an enqueue leaves behind that fails or is cut short. -/

namespace Janus.Server

open Janus.Concurrency Janus.Data

def Database.Chained (db : Database) (J : JobRun) : Prop :=
  ∃ K ∈ db.jobRunsOf J.pipelineRunId, K.jobIndex + 1 = J.jobIndex ∧
    db.jobRunPrevious.rows.filter (·.jobRunId = J.id) = [⟨J.id, K.id⟩]

def Database.HasJobs (db : Database) (pipelineId : Id) (n : ℕ) : Prop :=
  ((db.jobRunsOf pipelineId).map JobRun.jobIndex).Perm (List.range n) ∧
    ∀ J ∈ db.jobRunsOf pipelineId, 0 < J.jobIndex → db.Chained J

def Database.Whole (db : Database) (pipelineId : Id) (n : ℕ)
    (selections : List WorkflowRunArtifactSelection) : Prop :=
  db.HasJobs pipelineId n ∧ ∀ selection ∈ selections,
    db.workflowRunArtifactSelection pipelineId selection.jobIndex selection.inputName =
      some selection.serverArtifactId

def Database.lacks (db : Database) (pipelineId : Id) : Bool :=
  db.pipelineRuns.rows.all (·.id ≠ pipelineId)

def AllOrNothing (before : Database) (crashed : Bool) (n : ℕ)
    (selections : List WorkflowRunArtifactSelection) (e : Played String Id Outcome Store) : Prop :=
  ∀ p ∈ e.store.db.pipelineRuns.rows, before.lacks p.id = true →
    e.store.db.Whole p.id n selections ∧
      (crashed = false → e.result.any (fun r => !r.toBool) = true → e.store.db.jobRunsOf p.id = [])

instance (db : Database) (J : JobRun) : Decidable (db.Chained J) :=
  inferInstanceAs (Decidable (∃ K ∈ db.jobRunsOf J.pipelineRunId, _))

instance (db : Database) (pipelineId : Id) (n : ℕ) : Decidable (db.HasJobs pipelineId n) :=
  inferInstanceAs (Decidable (_ ∧ _))

instance (db : Database) (pipelineId : Id) (n : ℕ)
    (selections : List WorkflowRunArtifactSelection) :
    Decidable (db.Whole pipelineId n selections) :=
  inferInstanceAs (Decidable (_ ∧ _))

instance (before : Database) (crashed : Bool) (n : ℕ)
    (selections : List WorkflowRunArtifactSelection) (e : Played String Id Outcome Store) :
    Decidable (AllOrNothing before crashed n selections e) :=
  inferInstanceAs (Decidable (∀ p ∈ e.store.db.pipelineRuns.rows, _))

structure Database.Referenced (db : Database) : Prop where
  jobs : ∀ J ∈ db.jobRuns.rows, ∃ p ∈ db.pipelineRuns.rows, p.id = J.pipelineRunId
  edges : ∀ edge ∈ db.jobRunPrevious.rows, ∃ J ∈ db.jobRuns.rows, J.id = edge.jobRunId
  logs : ∀ logs ∈ db.jobRunLogs.rows, ∃ J ∈ db.jobRuns.rows, J.id = logs.jobRunId

def Database.Accepts (db : Database) (o : Outcome) (runnerId : String) : Prop :=
  (db.runners.find? runnerId).isSome ∧
    ∀ J ∈ db.jobRuns.rows, J.id ≠ o.uuid ∧ J.dispatchIdempotencyKey ≠ o.dispatchKey

def Fault.isPartway : Fault → Bool
  | .partway _ => true
  | _ => false

structure Chain (pipelineId : Id) (m : ℕ) (last : Id) (db : Database) : Prop where
  indices : (db.jobRunsOf pipelineId).map JobRun.jobIndex = List.range (m + 1)
  chained : ∀ J ∈ db.jobRunsOf pipelineId, 0 < J.jobIndex → db.Chained J
  last : ∃ K ∈ db.jobRunsOf pipelineId, K.id = last ∧ K.jobIndex = m
  edges : ∀ edge ∈ db.jobRunPrevious.rows, ∃ J ∈ db.jobRuns.rows, J.id = edge.jobRunId

structure Dangling (pipelineId : Id) (m : ℕ) (last runId : Id) (db : Database) : Prop where
  indices : (db.jobRunsOf pipelineId).map JobRun.jobIndex = List.range (m + 2)
  chained : ∀ J ∈ db.jobRunsOf pipelineId, 0 < J.jobIndex → J.jobIndex ≠ m + 1 → db.Chained J
  last : ∃ K ∈ db.jobRunsOf pipelineId, K.id = last ∧ K.jobIndex = m
  job : ∃ J ∈ db.jobRunsOf pipelineId, J.id = runId ∧ J.jobIndex = m + 1
  single : ∀ edge ∈ db.jobRunPrevious.rows, edge.jobRunId ≠ runId
  edges : ∀ edge ∈ db.jobRunPrevious.rows, ∃ J ∈ db.jobRuns.rows, J.id = edge.jobRunId

section

variable {db db' : Database} {pipelineId last runId : Id} {m n : ℕ}

lemma mem_jobRunsOf {J : JobRun} :
    J ∈ db.jobRunsOf pipelineId ↔ J ∈ db.jobRuns.rows ∧ J.pipelineRunId = pipelineId := by
  simp [Database.jobRunsOf]

lemma Chain.hasJobs (h : Chain pipelineId m last db) : db.HasJobs pipelineId (m + 1) :=
  ⟨h.indices ▸ .refl _, h.chained⟩

lemma Chain.not_hasJobs (h : Chain pipelineId m last db) (hn : m + 1 < n) :
    ¬ db.HasJobs pipelineId n := by
  rintro ⟨hperm, -⟩
  have hlength := hperm.length_eq
  rw [h.indices, List.length_range, List.length_range] at hlength
  omega

lemma Dangling.not_hasJobs (h : Dangling pipelineId m last runId db) :
    ¬ db.HasJobs pipelineId n := by
  rintro ⟨-, hchained⟩
  obtain ⟨J, hJ, hid, hidx⟩ := h.job
  obtain ⟨K, -, -, hedges⟩ := hchained J hJ (by omega)
  have hmem : (⟨J.id, K.id⟩ : PreviousJob) ∈
      db.jobRunPrevious.rows.filter (·.jobRunId = J.id) := by
    rw [hedges]
    exact List.mem_singleton_self _
  exact h.single _ (List.mem_filter.mp hmem).1 hid

lemma jobRunsOf_insert {id key : Id} {jobIndex : ℕ} {runnerId name : String}
    {policy : WorkflowJobOutcomePolicy}
    (hrows : db.jobRuns.insert? (Database.newJobRun id key pipelineId jobIndex runnerId name policy) =
      some db'.jobRuns) :
    db'.jobRunsOf pipelineId = db.jobRunsOf pipelineId ++
      [Database.newJobRun id key pipelineId jobIndex runnerId name policy] := by
  simp [Database.jobRunsOf, Table.rows_insert? hrows, Database.newJobRun]

lemma Chain.grow {id key : Id} {runnerId name : String} {policy : WorkflowJobOutcomePolicy}
    (h : Chain pipelineId m last db)
    (hrows : db.jobRuns.insert? (Database.newJobRun id key pipelineId (m + 1) runnerId name policy) =
      some db'.jobRuns)
    (he : db'.jobRunPrevious = db.jobRunPrevious) : Dangling pipelineId m last id db' := by
  have hof := jobRunsOf_insert hrows
  have hold : ∀ J ∈ db.jobRunsOf pipelineId, J ∈ db'.jobRunsOf pipelineId := by
    intro J hJ
    simp [hof, hJ]
  refine ⟨?_, ?_, ?_, ?_, ?_, ?_⟩
  · rw [hof, List.map_append, h.indices, List.range_succ (n := m + 1)]
    rfl
  · intro J hJ h0 hne
    rw [hof, List.mem_append, List.mem_singleton] at hJ
    rcases hJ with hJ | rfl
    · obtain ⟨K, hK, hidx, hedges⟩ := h.chained J hJ h0
      refine ⟨K, ?_, hidx, he ▸ hedges⟩
      have hp := (mem_jobRunsOf.mp hJ).2
      rw [hp] at hK ⊢
      exact hold K hK
    · exact (hne rfl).elim
  · obtain ⟨K, hK, hK'⟩ := h.last
    exact ⟨K, hold K hK, hK'⟩
  · exact ⟨_, hof ▸ List.mem_append_right _ (List.mem_singleton_self _), rfl, rfl⟩
  · intro edge hedge hid
    obtain ⟨J, hJ, hJid⟩ := h.edges edge (he ▸ hedge)
    exact Table.not_mem_of_insert? hrows hJ (hJid.trans hid)
  · intro edge hedge
    obtain ⟨J, hJ, hJid⟩ := h.edges edge (he ▸ hedge)
    exact ⟨J, Table.rows_insert? hrows ▸ List.mem_append_left _ hJ, hJid⟩

lemma Chain.of_untouched (h : Chain pipelineId m last db) (ht : db.Untouched db') :
    Chain pipelineId m last db' := by
  obtain ⟨indices, chained, last, edges⟩ := h
  constructor <;>
    simpa only [Database.jobRunsOf, Database.Chained, ht.jobRuns, ht.jobRunPrevious] using ‹_›

lemma Dangling.of_untouched (h : Dangling pipelineId m last runId db) (ht : db.Untouched db') :
    Dangling pipelineId m last runId db' := by
  obtain ⟨indices, chained, last, job, single, edges⟩ := h
  constructor <;>
    simpa only [Database.jobRunsOf, Database.Chained, ht.jobRuns, ht.jobRunPrevious] using ‹_›

lemma Dangling.link (h : Dangling pipelineId m last runId db) (hj : db'.jobRuns = db.jobRuns)
    (he : db.jobRunPrevious.insert? ⟨runId, last⟩ = some db'.jobRunPrevious) :
    Chain pipelineId (m + 1) runId db' := by
  have hof : db'.jobRunsOf pipelineId = db.jobRunsOf pipelineId := by
    simp only [Database.jobRunsOf, hj]
  have hedges := Table.rows_insert? he
  obtain ⟨R, hR, hRid, hRidx⟩ := h.job
  refine ⟨hof ▸ h.indices, ?_, ⟨R, hof ▸ hR, hRid, hRidx⟩, ?_⟩
  · intro J hJ h0
    rw [hof] at hJ
    have hp := (mem_jobRunsOf.mp hJ).2
    by_cases hidx : J.jobIndex = m + 1
    · obtain ⟨K, hK, hKid, hKidx⟩ := h.last
      have hinj : J = R := by
        have hnodup := (h.indices ▸ List.nodup_range : ((db.jobRunsOf pipelineId).map _).Nodup)
        exact List.inj_on_of_nodup_map hnodup hJ hR (hidx.trans hRidx.symm)
      subst hinj
      refine ⟨K, by rw [hp, hof]; exact hK, by omega, ?_⟩
      rw [hedges, List.filter_append, List.filter_eq_nil_iff.mpr]
      · simp [hRid, hKid]
      · intro edge hedge hid
        exact h.single edge hedge ((by simpa using hid : edge.jobRunId = J.id).trans hRid)
    · obtain ⟨K, hK, hKidx, hfilter⟩ := h.chained J hJ h0 hidx
      refine ⟨K, by rw [hp] at hK ⊢; exact hof ▸ hK, hKidx, ?_⟩
      have hne : R.id ≠ J.id := by
        intro hid
        exact hidx (Database.jobRun_eq (mem_jobRunsOf.mp hJ).1 (mem_jobRunsOf.mp hR).1 hid.symm ▸ hRidx)
      rw [hedges, List.filter_append, hfilter]
      simp [← hRid, hne]
  · intro edge hedge
    rw [hedges, List.mem_append, List.mem_singleton] at hedge
    rw [hj]
    rcases hedge with hedge | rfl
    · exact h.edges edge hedge
    · exact ⟨R, (mem_jobRunsOf.mp hR).1, hRid⟩

end

section

variable {app : AppState} {s s' : Store} {o : Outcome} {pipelineId last : Id} {m : ℕ}

def Call.buildsJobs : Call → Prop
  | .insert (.createJobRun _ _ _ _ _) => True
  | .insert (.addPreviousJob _ _) => True
  | _ => False

lemma createJobRuns_only (pipelineId : Id) (jobs : List (WorkflowJobDefinition × ℕ))
    (previous : Option Id) : (createJobRuns pipelineId jobs previous).Only Call.buildsJobs := by
  induction jobs generalizing previous with
  | nil => exact .pure _
  | cons job jobs ih =>
    refine .bind (Program.Only.request_iff.mpr trivial) fun runId => .bind ?_ fun _ => ih _
    cases previous with
    | none => exact .pure _
    | some k => exact Program.Only.request_iff.mpr trivial

lemma buildsJobs_keeps {c : Call} (hc : c.buildsJobs) {x : Except String c.Result}
    (h : c.exec app o s = (x, s')) : s'.db.pipelineRuns = s.db.pipelineRuns ∧
      s'.db.workflowRunArtifactInputs = s.db.workflowRunArtifactInputs := by
  rcases exec_cases h with ⟨rfl, -⟩ | h
  · exact ⟨rfl, rfl⟩
  · cases c with
    | insert i =>
      cases i with
      | createJobRun pipelineRunId jobIndex runnerId name policy =>
        simp only [Call.perform, Insertion.exec] at h
        split at h
        · cases h
          exact ⟨rfl, rfl⟩
        · next db' hdb =>
          have hdb' : db'.pipelineRuns = s.db.pipelineRuns ∧
              db'.workflowRunArtifactInputs = s.db.workflowRunArtifactInputs := by
            simp only [Database.insertJobRun] at hdb
            split at hdb
            · cases hdb
            · split at hdb
              · cases hdb
              · split at hdb <;> cases hdb
                exact ⟨rfl, rfl⟩
          split at h
          · cases h
            exact hdb'
          · split at h
            · next hlogs =>
              simp only [Database.insertJobRunLogs] at hlogs
              split at hlogs <;> cases hlogs
              cases h
              exact hdb'
            · cases h
              exact hdb'
      | addPreviousJob jobRunId previousJobRunId =>
        simp only [Call.perform, Insertion.exec, Database.addPreviousJob] at h
        split at h
        · next hdb =>
          split at hdb
          · cases hdb
          · split at hdb <;> cases hdb
            cases h
            exact ⟨rfl, rfl⟩
        · cases h
          exact ⟨rfl, rfl⟩
      | _ => cases hc
    | _ => cases hc

def LoopEnd (pipelineId : Id) (calls n : ℕ) (e : Played String Unit Outcome Store) : Prop :=
  (e.result = some (.ok ()) ∧ e.answered = calls ∧ e.store.db.HasJobs pipelineId n) ∨
    ((∀ a, e.result ≠ some (.ok a)) ∧ e.answered < calls ∧ ¬ e.store.db.HasJobs pipelineId n)

lemma createJobRuns_play (jobs : List WorkflowJobDefinition) (os : List Outcome)
    (h : Chain pipelineId m last s.db) :
    LoopEnd pipelineId (2 * jobs.length) (m + 1 + jobs.length)
      ((createJobRuns pipelineId (jobs.zipIdx (m + 1)) (some last)).play (Call.exec app) os s) := by
  induction jobs generalizing m last os s with
  | nil =>
    rw [List.zipIdx_nil, createJobRuns, Program.play_pure]
    exact .inl ⟨rfl, rfl, h.hasJobs⟩
  | cons job jobs ih =>
    have hshort : ¬ s.db.HasJobs pipelineId (m + 1 + (jobs.length + 1)) := h.not_hasJobs (by omega)
    refine Program.play_request (P := LoopEnd pipelineId _ _) (fun _ => ?_) ?_ ?_
    · exact .inr ⟨by simp, Nat.succ_pos _, hshort⟩
    · intro o os' e s₁ _ hx
      refine .inr ⟨by simp, Nat.succ_pos _, ?_⟩
      cases exec_effect hx with
      | untouched tables _ => exact (h.of_untouched tables).not_hasJobs (Nat.lt_add_of_pos_right (Nat.succ_pos _))
      | createJobRun _ _ _ _ _ id key _ _ jobRuns _ edges _ => exact (h.grow jobRuns edges).not_hasJobs
    · intro o os' runId s₁ _ hx
      cases exec_effect hx with
      | untouched _ failed =>
        obtain ⟨e, he⟩ := failed rfl
        cases he
      | createJobRun _ _ _ _ _ id key _ _ jobRuns _ edges answer =>
        obtain rfl : runId = id := by
          rcases answer with answer | ⟨e, he⟩
          · exact Except.ok.inj answer
          · cases he
        have hdangling := h.grow jobRuns edges
        have hlt : 1 < 2 * (job :: jobs).length := by
          rw [List.length_cons]
          omega
        refine Program.play_request (P := fun e => LoopEnd pipelineId _ _ e.tick)
          (fun _ => ?_) ?_ ?_
        · exact .inr ⟨by simp [Played.tick], hlt, hdangling.not_hasJobs⟩
        · intro o os'' e s₂ _ hx
          refine .inr ⟨by simp [Played.tick], hlt, ?_⟩
          cases exec_effect hx with
          | untouched tables _ => exact (hdangling.of_untouched tables).not_hasJobs
          | addPreviousJob _ _ _ _ jobRuns _ edges answer => cases answer
        · intro o os'' u s₂ _ hx
          cases exec_effect hx with
          | untouched _ failed =>
            obtain ⟨e, he⟩ := failed rfl
            cases he
          | addPreviousJob _ _ _ _ jobRuns _ edges _ =>
            have hn : m + 1 + (job :: jobs).length = m + 1 + 1 + jobs.length := by
              rw [List.length_cons]
              omega
            rcases ih os'' (hdangling.link jobRuns edges) with ⟨hr, ha, hj⟩ | ⟨hr, ha, hj⟩
            · exact .inl ⟨hr, congrArg (· + 2) ha, hn ▸ hj⟩
            · exact .inr ⟨hr, Nat.add_lt_add_right ha 2, hn ▸ hj⟩

lemma not_hasJobs_of_nil {db : Database} (h : db.jobRunsOf pipelineId = []) {n : ℕ} (hn : 0 < n) :
    ¬ db.HasJobs pipelineId n := by
  rintro ⟨hperm, -⟩
  have hlength := hperm.length_eq
  rw [h, List.map_nil, List.length_nil, List.length_range] at hlength
  omega

lemma insertJobRun_cases {db : Database} (hp : (db.pipelineRuns.find? pipelineId).isSome)
    (o : Outcome) (jobIndex : ℕ) (runnerId name : String) (policy : WorkflowJobOutcomePolicy) :
    (db.Accepts o runnerId ∧ ∃ rows, db.jobRuns.insert? (Database.newJobRun o.uuid o.dispatchKey
        pipelineId jobIndex runnerId name policy) = some rows ∧
      db.insertJobRun o.uuid o.dispatchKey pipelineId jobIndex runnerId name policy =
        .ok { db with jobRuns := rows }) ∨
    (¬ db.Accepts o runnerId ∧
      ∃ e, db.insertJobRun o.uuid o.dispatchKey pipelineId jobIndex runnerId name policy = .error e) := by
  simp only [Database.insertJobRun]
  split
  · next hfk =>
    refine .inr ⟨fun ha => ?_, _, rfl⟩
    rcases hfk with h | h
    · simp [Option.isNone_iff_eq_none.mp h] at hp
    · simp [Option.isNone_iff_eq_none.mp h, Database.Accepts] at ha
  · next hfk =>
    simp only [not_or, Option.isNone_iff_eq_none, ← ne_eq, Option.ne_none_iff_isSome] at hfk
    split
    · next hkey =>
      obtain ⟨J, hJ, hk⟩ := List.any_eq_true.mp hkey
      exact .inr ⟨fun ha => (ha.2 J hJ).2 (by simpa using hk), _, rfl⟩
    · next hkey =>
      split
      · next rows hrows =>
        refine .inl ⟨⟨hfk.2, fun J hJ => ⟨Table.not_mem_of_insert? hrows hJ, fun hk => ?_⟩⟩, rows,
          hrows, rfl⟩
        exact hkey (List.any_eq_true.mpr ⟨J, hJ, by simpa using hk⟩)
      · next hnone =>
        obtain ⟨J, hJ, hid⟩ := Table.mem_of_insert?_none hnone
        exact .inr ⟨fun ha => (ha.2 J hJ).1 hid, _, rfl⟩

lemma createFirst_cases {runnerId name : String} {policy : WorkflowJobOutcomePolicy}
    (hp : (s.db.pipelineRuns.find? pipelineId).isSome) (href : s.db.Referenced)
    {x : Except String Id}
    (h : (Call.insert (.createJobRun pipelineId 0 runnerId name policy)).exec app o s = (x, s')) :
    ((∃ e, x = .error e) ∧ s.db.Untouched s'.db ∧
      ¬ (o.fault.isPartway = true ∧ s.db.Accepts o runnerId)) ∨
    (((∃ e, x = .error e) ∧ o.fault.isPartway = true ∧ s.db.Accepts o runnerId ∨ ∃ id, x = .ok id) ∧
      s'.db.jobRunPrevious = s.db.jobRunPrevious ∧
      s.db.jobRuns.insert? (Database.newJobRun o.uuid o.dispatchKey pipelineId 0 runnerId name policy) =
        some s'.db.jobRuns ∧ ∀ id, x = .ok id → id = o.uuid) := by
  cases hr : (Call.insert (.createJobRun pipelineId 0 runnerId name policy)).refusal o.fault with
  | some e =>
    rw [exec_of_refusal hr] at h
    cases h
    refine .inl ⟨⟨e, rfl⟩, .rfl, fun hpart => ?_⟩
    rcases o with ⟨_ | _ | _⟩ <;> simp_all [Call.refusal, Fault.isPartway]
  | none =>
    rw [exec_of_allowed hr] at h
    simp only [Call.perform, Insertion.exec] at h
    rcases insertJobRun_cases hp o 0 runnerId name policy with ⟨ha, rows, hrows, hins⟩ | ⟨hna, e, hins⟩
    · simp only [hins] at h
      -- The second insert meets no row of logs, since those belong to jobs.
      have hlogs : ∃ db', Database.insertJobRunLogs { s.db with jobRuns := rows } o.uuid = .ok db' ∧
          db'.jobRunPrevious = s.db.jobRunPrevious ∧ db'.jobRuns = rows := by
        simp only [Database.insertJobRunLogs]
        split
        · exact ⟨_, rfl, rfl, rfl⟩
        · next hnone =>
          obtain ⟨logs, hmem, hid⟩ := Table.mem_of_insert?_none hnone
          obtain ⟨J, hJ, hJid⟩ := href.logs logs hmem
          exact ((ha.2 J hJ).1 (hJid.trans hid)).elim
      obtain ⟨db', hlogs, hedges, hjobs⟩ := hlogs
      refine .inr ?_
      cases hf : o.fault with
      | partway e =>
        simp only [hf] at h
        cases h
        exact ⟨.inl ⟨⟨e, rfl⟩, rfl, ha⟩, rfl, hrows, by simp⟩
      | none =>
        simp only [hf, hlogs] at h
        cases h
        exact ⟨.inr ⟨_, rfl⟩, hedges, hjobs ▸ hrows, fun id hid => (Except.ok.inj hid).symm⟩
      | refused e =>
        simp only [hf, hlogs] at h
        cases h
        exact ⟨.inr ⟨_, rfl⟩, hedges, hjobs ▸ hrows, fun id hid => (Except.ok.inj hid).symm⟩
    · simp only [hins] at h
      cases h
      exact .inl ⟨⟨e, rfl⟩, .rfl, fun hpart => hna hpart.2⟩

def Torn (db : Database) (jobs : List WorkflowJobDefinition) (o : Option Outcome) : Prop :=
  ∃ job ∈ jobs, jobs.length = 1 ∧ ∃ o' ∈ o, o'.fault.isPartway = true ∧ db.Accepts o' job.runnerId

def JobsEnd (pipelineId : Id) (db : Database) (jobs : List WorkflowJobDefinition) (os : List Outcome)
    (e : Played String Unit Outcome Store) : Prop :=
  (e.result = some (.ok ()) ∧ e.answered + 1 = 2 * jobs.length ∧
    e.store.db.HasJobs pipelineId jobs.length) ∨
  ((∀ a, e.result ≠ some (.ok a)) ∧ e.answered + 1 < 2 * jobs.length ∧
    ¬ e.store.db.HasJobs pipelineId jobs.length ∧ ¬ Torn db jobs os.head?) ∨
  ((∃ m, e.result = some (.error m)) ∧ e.answered = 0 ∧ Torn db jobs os.head? ∧
    e.store.db.HasJobs pipelineId jobs.length ∧ e.store.db.jobRunsOf pipelineId ≠ [])

lemma chain_first {db db' : Database} {id key : Id} {runnerId name : String}
    {policy : WorkflowJobOutcomePolicy} (href : db.Referenced)
    (hnil : db.jobRunsOf pipelineId = [])
    (hrows : db.jobRuns.insert? (Database.newJobRun id key pipelineId 0 runnerId name policy) =
      some db'.jobRuns)
    (he : db'.jobRunPrevious = db.jobRunPrevious) : Chain pipelineId 0 id db' := by
  have hof := jobRunsOf_insert hrows
  rw [hnil, List.nil_append] at hof
  refine ⟨?_, ?_, ?_, ?_⟩
  · rw [hof]
    rfl
  · intro J hJ h0
    obtain rfl := List.mem_singleton.mp (hof ▸ hJ)
    exact absurd h0 (lt_irrefl 0)
  · exact ⟨_, hof ▸ List.mem_singleton_self _, rfl, rfl⟩
  · intro edge hedge
    obtain ⟨J, hJ, hid⟩ := href.edges edge (he ▸ hedge)
    exact ⟨J, Table.rows_insert? hrows ▸ List.mem_append_left _ hJ, hid⟩

lemma createAllJobs_play (jobs : List WorkflowJobDefinition) (hjobs : jobs ≠ []) (os : List Outcome)
    (hp : (s.db.pipelineRuns.find? pipelineId).isSome) (href : s.db.Referenced)
    (hnil : s.db.jobRunsOf pipelineId = []) :
    JobsEnd pipelineId s.db jobs os
      ((createJobRuns pipelineId jobs.zipIdx none).play (Call.exec app) os s) := by
  obtain ⟨job, jobs, rfl⟩ := List.exists_cons_of_ne_nil hjobs
  have hpos : 0 < (job :: jobs).length := Nat.succ_pos _
  refine Program.play_request (P := JobsEnd pipelineId _ _ _) ?_ ?_ ?_
  · rintro rfl
    refine .inr (.inl ⟨by simp, by simp only; omega, not_hasJobs_of_nil hnil hpos, ?_⟩)
    rintro ⟨-, -, -, o, ho, -⟩
    cases ho
  · rintro o os' e s₁ rfl hx
    rcases createFirst_cases hp href hx with ⟨-, tables, hnt⟩ | ⟨ht, hedges, hrows, -⟩
    · refine .inr (.inl ⟨by simp, by simp only; omega, not_hasJobs_of_nil ?_ hpos, ?_⟩)
      · simpa only [Database.jobRunsOf, tables.jobRuns] using hnil
      · rintro ⟨job', hmem, hone, o', ho', ht⟩
        cases ho'
        rw [List.length_cons, Nat.succ.injEq] at hone
        obtain rfl := List.eq_nil_of_length_eq_zero hone
        exact hnt (List.mem_singleton.mp hmem ▸ ht)
    · have hchain := chain_first href hnil hrows hedges
      have ht : o.fault.isPartway = true ∧ s.db.Accepts o job.runnerId := by
        rcases ht with ⟨-, ht⟩ | ⟨id, hid⟩
        · exact ht
        · cases hid
      by_cases hone : jobs = []
      · subst hone
        refine .inr (.inr ⟨⟨e, rfl⟩, rfl, ⟨job, List.mem_singleton_self _, rfl, o, rfl, ht⟩,
          hchain.hasJobs, ?_⟩)
        obtain ⟨K, hK, -⟩ := hchain.last
        exact List.ne_nil_of_mem hK
      · have hlen := List.length_pos_iff.mpr hone
        refine .inr (.inl ⟨by simp, by simp only; omega, hchain.not_hasJobs ?_, ?_⟩)
        · rw [List.length_cons]
          omega
        · rintro ⟨-, -, h1, -⟩
          rw [List.length_cons] at h1
          omega
  · rintro o os' runId s₁ rfl hx
    rcases createFirst_cases hp href hx with ⟨⟨e, he⟩, -⟩ | ⟨-, hedges, hrows, hid⟩
    · cases he
    · obtain rfl := hid runId rfl
      have hchain := chain_first href hnil hrows hedges
      have hn : (job :: jobs).length = 0 + 1 + jobs.length := by
        rw [List.length_cons]
        omega
      rcases createJobRuns_play jobs os' hchain with ⟨hr, ha, hj⟩ | ⟨hr, ha, hj⟩
      · exact .inl ⟨hr, congrArg (· + 2) ha, hn ▸ hj⟩
      · refine .inr (.inl ⟨hr, Nat.add_lt_add_right ha 2, hn ▸ hj, ?_⟩)
        rintro ⟨-, -, h1, -⟩
        rw [List.length_cons, Nat.succ.injEq] at h1
        rw [h1] at ha
        exact Nat.not_lt_zero _ ha

end

section

variable {app : AppState} {s s' : Store} {pipelineId : Id}
variable {selections : List WorkflowRunArtifactSelection}

lemma addSelection_rows {db db' : Database} {selection : WorkflowRunArtifactSelection}
    (h : db.addSelection pipelineId selection = .ok db') :
    db'.workflowRunArtifactInputs.rows = db.workflowRunArtifactInputs.rows ++
      [⟨pipelineId, selection.jobIndex, selection.inputName, selection.serverArtifactId⟩] := by
  simp only [Database.addSelection] at h
  split at h
  · cases h
  · split at h
    · next rows hrows =>
      cases h
      exact Table.rows_insert? hrows
    · cases h

lemma addSelections_stored {db db' : Database}
    (h : db.addWorkflowRunArtifactSelections pipelineId selections = .ok db') :
    (∀ row ∈ db.workflowRunArtifactInputs.rows, row ∈ db'.workflowRunArtifactInputs.rows) ∧
      ∀ selection ∈ selections, ⟨pipelineId, selection.jobIndex, selection.inputName,
        selection.serverArtifactId⟩ ∈ db'.workflowRunArtifactInputs.rows := by
  induction selections generalizing db with
  | nil =>
    cases h
    exact ⟨fun _ h => h, fun _ h => by cases h⟩
  | cons selection selections ih =>
    simp only [Database.addWorkflowRunArtifactSelections] at h
    cases hs : db.addSelection pipelineId selection with
    | error e => simp [hs, Except.bind] at h
    | ok db₁ =>
      rw [hs] at h
      obtain ⟨hold, hnew⟩ := ih h
      have hrows := addSelection_rows hs
      refine ⟨fun row hrow => hold row (hrows ▸ List.mem_append_left _ hrow), ?_⟩
      intro sel hsel
      rcases List.mem_cons.mp hsel with rfl | hsel
      · exact hold _ (hrows ▸ List.mem_append_right _ (List.mem_singleton_self _))
      · exact hnew sel hsel

lemma addSelections_logs {db db' : Database}
    (h : db.addWorkflowRunArtifactSelections pipelineId selections = .ok db') :
    db'.jobRunLogs = db.jobRunLogs := by
  induction selections generalizing db with
  | nil =>
    cases h
    rfl
  | cons selection selections ih =>
    simp only [Database.addWorkflowRunArtifactSelections] at h
    cases hs : db.addSelection pipelineId selection with
    | error e => simp [hs, Except.bind] at h
    | ok db₁ =>
      rw [hs] at h
      refine (ih h).trans ?_
      simp only [Database.addSelection] at hs
      split at hs
      · cases hs
      · split at hs <;> cases hs
        rfl

lemma selection_of_mem {db : Database} {selection : WorkflowRunArtifactSelection}
    (h : ⟨pipelineId, selection.jobIndex, selection.inputName, selection.serverArtifactId⟩ ∈
      db.workflowRunArtifactInputs.rows) :
    db.workflowRunArtifactSelection pipelineId selection.jobIndex selection.inputName =
      some selection.serverArtifactId := by
  have hfind := db.workflowRunArtifactInputs.find?_of_mem h
  simp only [Database.workflowRunArtifactSelection, hfind, Option.map_some]

lemma allOrNothing_iff {before : Database} {crashed : Bool} {n : ℕ}
    {e : Played String Id Outcome Store} {p : PipelineRun} (hnew : before.lacks p.id = true)
    (hrows : e.store.db.pipelineRuns.rows = before.pipelineRuns.rows ++ [p]) :
    AllOrNothing before crashed n selections e ↔ e.store.db.Whole p.id n selections ∧
      (crashed = false → e.result.any (fun r => !r.toBool) = true →
        e.store.db.jobRunsOf p.id = []) := by
  constructor
  · intro h
    exact h p (hrows ▸ List.mem_append_right _ (List.mem_singleton_self _)) hnew
  · intro h q hq hlacks
    rw [hrows, List.mem_append, List.mem_singleton] at hq
    rcases hq with hq | rfl
    · have hne := List.all_eq_true.mp hlacks q hq
      exact absurd rfl (of_decide_eq_true hne)
    · exact h

lemma allOrNothing_of_same {before : Database} {crashed : Bool} {n : ℕ}
    {e : Played String Id Outcome Store}
    (hrows : e.store.db.pipelineRuns.rows = before.pipelineRuns.rows) :
    AllOrNothing before crashed n selections e := by
  intro q hq hlacks
  have hne := List.all_eq_true.mp hlacks q (hrows ▸ hq)
  exact absurd rfl (of_decide_eq_true hne)

def BuildEnd (before : Database) (crashed : Bool) (selections : List WorkflowRunArtifactSelection)
    (jobs : List WorkflowJobDefinition) (os : List Outcome) (e : Played String Id Outcome Store) :
    Prop :=
  AllOrNothing before crashed jobs.length selections e ↔
    e.answered ≤ 0 ∨ e.answered = 1 + 2 * jobs.length ∨
      (crashed = true ∧ e.answered = 2 ∧ Torn before jobs os[2]?)

lemma buildEnd_of_no_jobs {before : Database} {crashed : Bool} {jobs : List WorkflowJobDefinition}
    (hjobs : jobs ≠ []) {os : List Outcome} {e : Played String Id Outcome Store} {p : PipelineRun}
    (hnew : before.lacks p.id = true)
    (hrows : e.store.db.pipelineRuns.rows = before.pipelineRuns.rows ++ [p])
    (hnil : e.store.db.jobRunsOf p.id = []) (hanswered : e.answered = 1) :
    BuildEnd before crashed selections jobs os e := by
  have hlen := List.length_pos_iff.mpr hjobs
  rw [BuildEnd, allOrNothing_iff hnew hrows, hanswered]
  refine iff_of_false (fun h => not_hasJobs_of_nil hnil hlen h.1.1) ?_
  omega

lemma buildEnd_of_jobs {before : Database} (crashed : Bool) {jobs : List WorkflowJobDefinition}
    (hjobs : jobs ≠ []) {p : PipelineRun} (hnew : before.lacks p.id = true)
    (hrows : s.db.pipelineRuns.rows = before.pipelineRuns.rows ++ [p])
    (hsel : ∀ selection ∈ selections, ⟨p.id, selection.jobIndex, selection.inputName,
      selection.serverArtifactId⟩ ∈ s.db.workflowRunArtifactInputs.rows)
    (href : s.db.Referenced) (hnil : s.db.jobRunsOf p.id = [])
    (hj : s.db.jobRuns = before.jobRuns) (hr : s.db.runners = before.runners)
    (o o' : Outcome) (os : List Outcome) :
    BuildEnd before crashed selections jobs (o :: o' :: os)
      ((createJobRuns p.id jobs.zipIdx none >>= fun _ => pure p.id).play (Call.exec app) os
        s).tick.tick := by
  have hp : (s.db.pipelineRuns.find? p.id).isSome := by
    have hmem : p ∈ s.db.pipelineRuns.rows :=
      hrows ▸ List.mem_append_right _ (List.mem_singleton_self _)
    rw [s.db.pipelineRuns.find?_of_mem hmem]
    rfl
  have hend : JobsEnd p.id s.db jobs os
      ((createJobRuns p.id jobs.zipIdx none).play (Call.exec app) os s) :=
    createAllJobs_play jobs hjobs os hp href hnil
  have hkeeps (c : Call) (o : Outcome) (s' : Store) (hc : c.buildsJobs)
      (h : s'.db.pipelineRuns = s.db.pipelineRuns ∧
        s'.db.workflowRunArtifactInputs = s.db.workflowRunArtifactInputs) :
      (c.exec app o s').2.db.pipelineRuns = s.db.pipelineRuns ∧
        (c.exec app o s').2.db.workflowRunArtifactInputs = s.db.workflowRunArtifactInputs :=
    (buildsJobs_keeps hc (Prod.eta _).symm).imp (·.trans h.1) (·.trans h.2)
  have hkeep := Program.play_only hkeeps
    (createJobRuns_only p.id jobs.zipIdx none) ⟨rfl, rfl⟩ os
  rw [Program.play_bind]
  generalize (createJobRuns p.id jobs.zipIdx none).play (Call.exec app) os s = e at hend hkeep
  have htorn : Torn s.db jobs os.head? ↔ Torn before jobs (o :: o' :: os)[2]? := by
    simp only [Torn, Database.Accepts, hj, hr, List.getElem?_cons_succ, List.head?_eq_getElem?]
  have hwhole (db : Database) (he : db = e.store.db) :
      db.Whole p.id jobs.length selections ↔ db.HasJobs p.id jobs.length := by
    subst he
    refine ⟨And.left, fun h => ⟨h, fun selection hs => selection_of_mem ?_⟩⟩
    rw [hkeep.2]
    exact hsel selection hs
  have hstore (r : Option (Except String Id)) (n : ℕ) (rest : List Outcome) :
      AllOrNothing before crashed jobs.length selections ⟨r, n, rest, e.store⟩ ↔
        e.store.db.HasJobs p.id jobs.length ∧
          (crashed = false → r.any (fun r => !r.toBool) = true → e.store.db.jobRunsOf p.id = []) := by
    rw [allOrNothing_iff hnew (hkeep.1 ▸ hrows), hwhole _ rfl]
  rcases hend with ⟨hres, ha, hhas⟩ | ⟨hres, ha, hhas, hnt⟩ | ⟨⟨m, hres⟩, ha, ht, hhas, hne⟩
  · simp only [Played.andThen, hres, Program.play_pure, Played.tick, BuildEnd, hstore]
    refine iff_of_true ⟨hhas, by simp [Except.toBool]⟩ (.inr (.inl ?_))
    omega
  · have hnot (e' : Played String Id Outcome Store) (ha' : e'.answered = e.answered + 2)
        (hs : e'.store = e.store) :
        BuildEnd before crashed selections jobs (o :: o' :: os) e' := by
      obtain ⟨r, n, rest, store⟩ := e'
      obtain rfl : store = e.store := hs
      rw [BuildEnd, hstore]
      refine iff_of_false (fun h => hhas h.1) ?_
      rintro (h | h | ⟨-, -, h⟩)
      · omega
      · omega
      · exact hnt (htorn.mpr h)
    rcases hr' : e.result with _ | (m | a)
    · exact hnot _ (by simp only [Played.andThen, hr', Played.tick])
        (by simp only [Played.andThen, hr', Played.tick])
    · exact hnot _ (by simp only [Played.andThen, hr', Played.tick])
        (by simp only [Played.andThen, hr', Played.tick])
    · exact (hres a hr').elim
  · simp only [Played.andThen, hres, Played.tick, BuildEnd, hstore, ha]
    constructor
    · rintro ⟨-, h⟩
      refine .inr (.inr ⟨?_, trivial, htorn.mp ht⟩)
      by_contra hc
      exact hne (h (Bool.eq_false_iff.mpr hc) rfl)
    · rintro (h | h | ⟨hc, -⟩)
      · omega
      · obtain ⟨-, -, hone, -⟩ := ht
        omega
      · refine ⟨hhas, fun hc' => ?_⟩
        rw [hc] at hc'
        cases hc'

lemma createPipelineRun_logs {repoId workflowId workflowVersionId : Id} {triggerType : String}
    {triggerRef commitSha : Option String} {origin : Origin} {o : Outcome} {x : Except String Id}
    (h : (Call.insert (.createPipelineRun repoId workflowId workflowVersionId triggerType triggerRef
      commitSha origin)).exec app o s = (x, s')) : s'.db.jobRunLogs = s.db.jobRunLogs := by
  rcases exec_cases h with ⟨rfl, -⟩ | h
  · rfl
  · simp only [Call.perform, Insertion.exec] at h
    split at h
    · next hdb =>
      cases h
      simp only [Database.createPipelineRun] at hdb
      split at hdb
      · cases hdb
      · split at hdb <;> cases hdb
        rfl
    · cases h
      rfl

lemma addSelections_cases {o : Outcome} {x : Except String Unit}
    (h : (Call.insert (.addWorkflowRunArtifactSelections pipelineId selections)).exec app o s =
      (x, s')) : s'.db.jobRunLogs = s.db.jobRunLogs ∧ (x = .ok () → ∀ selection ∈ selections,
        ⟨pipelineId, selection.jobIndex, selection.inputName, selection.serverArtifactId⟩ ∈
          s'.db.workflowRunArtifactInputs.rows) := by
  rcases exec_cases h with ⟨rfl, e, rfl⟩ | h
  · exact ⟨rfl, fun h => by cases h⟩
  · simp only [Call.perform, Insertion.exec] at h
    split at h
    · next db' hdb =>
      cases h
      exact ⟨addSelections_logs hdb, fun _ => (addSelections_stored hdb).2⟩
    · cases h
      exact ⟨rfl, fun h => by cases h⟩

lemma createPipeline_play {before : Database} (hbefore : s.db = before) (crashed : Bool)
    (workflow : Workflow) (triggerType : String) (triggerRef commitSha : Option String)
    (origin : Origin) (href : before.Referenced) (jobs : List WorkflowJobDefinition)
    (hjobs : jobs ≠ []) (os : List Outcome) :
    BuildEnd before crashed selections jobs os ((do
      let pipelineId ← Db.createPipelineRun workflow.repoId workflow.id workflow.versionId triggerType
        triggerRef commitSha origin
      Db.addWorkflowRunArtifactSelections pipelineId selections
      createJobRuns pipelineId jobs.zipIdx none
      pure pipelineId : Task Id).play (Call.exec app) os s) := by
  have hnone (e : Played String Id Outcome Store) (ha : e.answered = 0)
      (hrows : e.store.db.pipelineRuns.rows = before.pipelineRuns.rows) :
      BuildEnd before crashed selections jobs os e :=
    iff_of_true (allOrNothing_of_same hrows) (.inl ha.le)
  refine Program.play_request (P := BuildEnd before crashed selections jobs os) ?_ ?_ ?_
  · rintro -
    exact hnone _ rfl (by rw [hbefore])
  · rintro o os' e s₁ - hx
    cases exec_effect hx with
    | untouched tables _ => exact hnone _ rfl (by rw [tables.pipelineRuns, hbefore])
    | createPipelineRun _ _ _ _ _ _ _ id now jobRuns pipelineRuns _ answer => cases answer
  · rintro o os' pipelineId s₁ rfl hx
    have hconfig := exec_config hx
    cases exec_effect hx with
    | untouched _ failed =>
      obtain ⟨e, he⟩ := failed rfl
      cases he
    | createPipelineRun _ _ _ _ _ _ _ id now jobRuns pipelineRuns edges answer =>
      obtain rfl : pipelineId = id := Except.ok.inj answer
      subst hbefore
      obtain ⟨p, hrows, hfresh, rfl⟩ : ∃ p, s₁.db.pipelineRuns.rows = s.db.pipelineRuns.rows ++ [p] ∧
          (∀ q ∈ s.db.pipelineRuns.rows, q.id ≠ pipelineId) ∧ p.id = pipelineId :=
        ⟨_, Table.rows_insert? pipelineRuns, fun _ => Table.not_mem_of_insert? pipelineRuns, rfl⟩
      have hnew : s.db.lacks p.id = true := by
        simpa [Database.lacks] using hfresh
      have hnil : s.db.jobRunsOf p.id = [] := by
        refine List.filter_eq_nil_iff.mpr fun J hJ hpid => ?_
        obtain ⟨q, hq, hid⟩ := href.jobs J hJ
        exact hfresh q hq (hid.trans (by simpa using hpid))
      have hlogs := createPipelineRun_logs hx
      have href₁ : s₁.db.Referenced := by
        refine ⟨?_, ?_, ?_⟩
        · intro J hJ
          obtain ⟨q, hq, hid⟩ := href.jobs J (jobRuns ▸ hJ)
          exact ⟨q, hrows ▸ List.mem_append_left _ hq, hid⟩
        · simpa only [jobRuns, edges] using href.edges
        · simpa only [jobRuns, hlogs] using href.logs
      have hnil₁ : s₁.db.jobRunsOf p.id = [] := by
        simpa only [Database.jobRunsOf, jobRuns] using hnil
      refine Program.play_request (P := fun e => BuildEnd s.db crashed selections jobs _ e.tick) ?_ ?_ ?_
      · rintro -
        exact buildEnd_of_no_jobs hjobs hnew hrows hnil₁ rfl
      · rintro o' os'' e s₂ - hx₂
        cases exec_effect hx₂ with
        | untouched tables _ =>
          have hnil₂ : s₂.db.jobRunsOf p.id = [] := by
            simpa only [Database.jobRunsOf, tables.jobRuns] using hnil₁
          exact buildEnd_of_no_jobs hjobs hnew (tables.pipelineRuns ▸ hrows) hnil₂ rfl
      · rintro o' os'' u s₂ rfl hx₂
        have hconfig₂ := exec_config hx₂
        obtain ⟨hlogs₂, hsel⟩ := addSelections_cases hx₂
        cases exec_effect hx₂ with
        | untouched tables _ =>
          have href₂ : s₂.db.Referenced := by
            refine ⟨?_, ?_, ?_⟩
            · simpa only [tables.jobRuns, tables.pipelineRuns] using href₁.jobs
            · simpa only [tables.jobRuns, tables.jobRunPrevious] using href₁.edges
            · simpa only [tables.jobRuns, hlogs₂] using href₁.logs
          have hnil₂ : s₂.db.jobRunsOf p.id = [] := by
            simpa only [Database.jobRunsOf, tables.jobRuns] using hnil₁
          exact buildEnd_of_jobs crashed hjobs hnew (tables.pipelineRuns ▸ hrows) (hsel rfl) href₂
            hnil₂ (tables.jobRuns.trans jobRuns) (hconfig₂.runners.trans hconfig.runners) o o' os''

variable (app selections) in
lemma validated_play {before : Database} (hbefore : s.db = before) (crashed : Bool)
    (workflow : Workflow) (triggerType : String) (triggerRef commitSha : Option String)
    (origin : Origin) (href : before.Referenced) (definition : WorkflowDefinition)
    (os : List Outcome) :
    BuildEnd before crashed selections definition.jobs os ((do
      fromStr definition.validate
      let pipelineId ← Db.createPipelineRun workflow.repoId workflow.id workflow.versionId triggerType
        triggerRef commitSha origin
      Db.addWorkflowRunArtifactSelections pipelineId selections
      createJobRuns pipelineId definition.jobs.zipIdx none
      pure pipelineId : Task Id).play (Call.exec app) os s) := by
  cases hv : definition.validate with
  | error m =>
    simp only [fromStr, Program.fail_bind, Program.play_done]
    exact iff_of_true (allOrNothing_of_same (by rw [hbefore])) (.inl le_rfl)
  | ok u =>
    have hjobs : definition.jobs ≠ [] := by
      intro hnil
      simp [WorkflowDefinition.validate, hnil] at hv
    exact createPipeline_play hbefore crashed workflow triggerType triggerRef commitSha origin href
      definition.jobs hjobs os

lemma BuildEnd.shift {before : Database} {crashed : Bool} {jobs : List WorkflowJobDefinition}
    {os : List Outcome} {e e' : Played String Id Outcome Store}
    (h : BuildEnd before crashed selections jobs os e') (k : ℕ)
    (he : e = { e' with answered := k + e'.answered }) :
    AllOrNothing before crashed jobs.length selections e ↔
      e.answered ≤ k ∨ e.answered = k + 1 + 2 * jobs.length ∨
        (crashed = true ∧ e.answered = k + 2 ∧ Torn before jobs os[2]?) := by
  subst he
  refine Iff.trans h ?_
  have h₁ : e'.answered ≤ 0 ↔ k + e'.answered ≤ k := by omega
  have h₂ : e'.answered = 1 + 2 * jobs.length ↔ k + e'.answered = k + 1 + 2 * jobs.length := by omega
  have h₃ : e'.answered = 2 ↔ k + e'.answered = k + 2 := by omega
  rw [h₁, h₂, h₃]

lemma workflowSchemaReport_play (workflow : Workflow) (os : List Outcome) (s : Store) :
    ((workflowSchemaReport workflow).play (Call.exec app) os s).store = s := by
  refine Program.play_only (A := fun s' => s' = s) ?_ (workflowSchemaReport_only workflow) rfl os
  rintro c o s' hc rfl
  cases c with
  | query q => exact (exec_query (Prod.eta _).symm).1
  | _ => cases hc

theorem enqueue_all_or_nothing_iff {workflow : Workflow} {definition : WorkflowDefinition}
    (hdefinition : workflow.definitionJson = .ok definition) (href : s.db.Referenced)
    (triggerType : String) (triggerRef commitSha : Option String)
    (selections : List WorkflowRunArtifactSelection) (origin : Origin) (os : List Outcome)
    (crashed : Bool) :
    let read := (workflowSchemaReport workflow).play (Call.exec app) os s
    let e := (enqueueWorkflowRunWithArtifacts workflow triggerType triggerRef commitSha selections
      origin).play (Call.exec app) os s
    AllOrNothing s.db crashed definition.jobs.length selections e ↔
      e.answered ≤ read.answered ∨
      e.answered = read.answered + 1 + 2 * definition.jobs.length ∨
      (crashed = true ∧ e.answered = read.answered + 2 ∧ Torn s.db definition.jobs read.rest[2]?) := by
  intro read e
  have hstore : read.store = s := workflowSchemaReport_play workflow os s
  have he : e = read.andThen _ := Program.play_bind os (workflowSchemaReport workflow) _ s
  clear_value read e
  have hearly (e' : Played String Id Outcome Store) (ha : e'.answered = read.answered)
      (hs : e'.store = s) (h : e = e') :
      AllOrNothing s.db crashed definition.jobs.length selections e ↔
        e.answered ≤ read.answered ∨
        e.answered = read.answered + 1 + 2 * definition.jobs.length ∨
        (crashed = true ∧ e.answered = read.answered + 2 ∧
          Torn s.db definition.jobs read.rest[2]?) := by
    subst h
    exact iff_of_true (allOrNothing_of_same (by rw [hs])) (.inl ha.le)
  rcases hres : read.result with _ | (m | report)
  · exact hearly ⟨none, read.answered, read.rest, read.store⟩ rfl hstore
      (by simp only [he, Played.andThen, hres])
  · exact hearly ⟨some (.error m), read.answered, read.rest, read.store⟩ rfl hstore
      (by simp only [he, Played.andThen, hres])
  · simp only [Played.andThen, hres, hdefinition, fromStr, Program.done_bind, hstore] at he
    have hbuild := validated_play app selections (s := s) rfl crashed workflow triggerType triggerRef
      commitSha origin href definition read.rest
    have hcompatible (h : e = _) := hbuild.shift read.answered h
    cases hstatus : report.status with
    | incompatible =>
      simp only [hstatus, Program.play_fail, Nat.add_zero] at he
      exact hearly _ rfl rfl he
    | current =>
      rw [hstatus] at he
      exact hcompatible he
    | stale =>
      rw [hstatus] at he
      exact hcompatible he

end

def sampleTrigger : Workflow :=
  ⟨1, 1, "ci", true, 1, .ok ⟨"push", []⟩, .ok (sampleWorkflow 2)⟩

def firstJobStored : List Outcome :=
  List.replicate 3 { now := 1 } ++ [{ uuid := 1 }, { now := 1 }, { uuid := 10, dispatchKey := 10 }]

theorem enqueue_leaves_one_job :
    ¬ AllOrNothing noPipelines.store.db false 2 []
      ((enqueueWorkflowRunWithArtifacts sampleTrigger "manual" none none [] (.request 0)).play
        (Call.exec sampleApp) (firstJobStored ++ [{ fault := .refused "database is locked" }])
        noPipelines.store) := by
  decide +kernel

theorem enqueue_stores_both_jobs :
    AllOrNothing noPipelines.store.db false 2 []
      ((enqueueWorkflowRunWithArtifacts sampleTrigger "manual" none none [] (.request 0)).play
        (Call.exec sampleApp) (firstJobStored ++ [{ uuid := 11, dispatchKey := 11 }, { now := 1 }])
        noPipelines.store) :=
  (enqueue_all_or_nothing_iff (show sampleTrigger.definitionJson = .ok (sampleWorkflow 2) from rfl)
     ⟨by decide, by decide, by decide⟩
    "manual" none none [] (.request 0) _ false).mpr (.inr (.inl (by decide +kernel)))

end Janus.Server
