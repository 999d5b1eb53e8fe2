import Janus.Web.Effects

/-! Whether the stored catalog and the stored health of a runner belong to its current address. -/

namespace Janus.Web

open Janus.Concurrency Janus.Data Janus.Server

structure Site.CurrentAt (s : Site) (R : Runner) : Prop where
  fetched : ∀ row ∈ s.db.runnerJobs, row.1 = R.id →
    s.catalogs.fetched.lookup R.id = some R.baseUrl
  refreshed : R.lastHealthState = "healthy" →
    s.catalogs.refreshed.lookup R.id = some (R.baseUrl, true)

def Site.Current (s : Site) : Prop := ∀ R ∈ s.db.runners.rows, s.CurrentAt R

def Site.Owned (s : Site) : Prop :=
  ∀ row ∈ s.db.runnerJobs, ∃ R ∈ s.db.runners.rows, R.id = row.1

instance (s : Site) (R : Runner) : Decidable (s.CurrentAt R) :=
  decidable_of_iff ((∀ row ∈ s.db.runnerJobs, row.1 = R.id →
      s.catalogs.fetched.lookup R.id = some R.baseUrl) ∧ (R.lastHealthState = "healthy" →
      s.catalogs.refreshed.lookup R.id = some (R.baseUrl, true)))
    ⟨fun h => ⟨h.1, h.2⟩, fun h => ⟨h.fetched, h.refreshed⟩⟩

instance (s : Site) : Decidable s.Current := inferInstanceAs (Decidable (∀ R ∈ s.db.runners.rows, _))

instance (s : Site) : Decidable s.Owned := inferInstanceAs (Decidable (∀ row ∈ s.db.runnerJobs, _))

def SiteCall.Meets (app : AppState) (o : SiteOutcome) (s : Site) : SiteCall → Prop
  | .update (.replaceRunnerJobs runnerId jobs asked) => o.refusal = none → jobs ≠ [] →
    (jobs.map RunnerJobDefinition.name).Nodup →
      ∀ R ∈ s.db.runners.rows, R.id = runnerId → R.baseUrl = asked
  | .update (.updateRunnerHealth runnerId state asked) => o.refusal = none → state = "healthy" →
    ∀ R ∈ s.db.runners.rows, R.id = runnerId → R.baseUrl = asked
  | .catalog runner request .single =>
    (request.receive app.limits o.reply).toBool = false →
      ∀ R ∈ s.db.runners.rows, R.id = runner.id → R.lastHealthState ≠ "healthy"
  | _ => True

section

variable {app : AppState} {o : SiteOutcome} {s s' : Site}

lemma Site.current_congr (hrunners : s'.db.runners = s.db.runners)
    (hjobs : s'.db.runnerJobs = s.db.runnerJobs) (hcatalogs : s'.catalogs = s.catalogs)
    (h : s.Current) : s'.Current := by
  intro R hR
  obtain ⟨hfetched, hrefreshed⟩ := h R (hrunners ▸ hR)
  exact ⟨hjobs ▸ hcatalogs ▸ hfetched, hcatalogs ▸ hrefreshed⟩

lemma Site.owned_congr (hrunners : s'.db.runners = s.db.runners)
    (hjobs : s'.db.runnerJobs = s.db.runnerJobs) (h : s.Owned) : s'.Owned := by
  intro row hrow
  rw [hjobs] at hrow
  rw [hrunners]
  exact h row hrow

lemma keeps_of_same (hrunners : s'.db.runners = s.db.runners)
    (hjobs : s'.db.runnerJobs = s.db.runnerJobs) (hcatalogs : s'.catalogs = s.catalogs)
    (h : s.Current ∧ s.Owned) : s'.Current ∧ s'.Owned :=
  ⟨Site.current_congr hrunners hjobs hcatalogs h.1, Site.owned_congr hrunners hjobs h.2⟩

lemma lookup_cons_of_ne {β : Type} {k k' : String} (h : k ≠ k') (b : β) (l : List (String × β)) :
    ((k', b) :: l).lookup k = l.lookup k := by
  rw [List.lookup_cons, beq_false_of_ne h]

lemma catalog_current_iff {runner : Runner} {request : CatalogRequest} {refresh : Refresh}
    (h : s.Current) :
    ((SiteCall.catalog runner request refresh).exec app o s).2.Current ↔
      (SiteCall.catalog runner request refresh).Meets app o s := by
  cases refresh with
  | health => exact iff_of_true (Site.current_congr (s := s) rfl rfl rfl h) trivial
  | single =>
    simp only [SiteCall.exec, SiteCall.Meets, CatalogHistory.ask]
    cases hanswer : request.receive app.limits o.reply with
    | ok a => exact iff_of_true (Site.current_congr (s := s) rfl rfl rfl h) (fun he => by cases he)
    | error e =>
      refine ⟨fun h' _ R hR hid hhealthy => ?_, fun hm R hR => ⟨(h R hR).fetched, fun hhealthy => ?_⟩⟩
      · have hlast := (h' R hR).refreshed hhealthy
        simp [CatalogHistory.refresh, hid] at hlast
      · have hne : R.id ≠ runner.id := fun hid => hm rfl R hR hid hhealthy
        simp only [CatalogHistory.refresh, lookup_cons_of_ne hne]
        exact (h R hR).refreshed hhealthy

lemma replaceRunnerJobs_current_iff {runnerId asked : String} {jobs : List RunnerJobDefinition}
    (hr : o.refusal = none) (h : s.Current) :
    ((SiteCall.update (.replaceRunnerJobs runnerId jobs asked)).exec app o s).2.Current ↔
      (SiteCall.update (.replaceRunnerJobs runnerId jobs asked)).Meets app o s := by
  simp only [SiteCall.exec, hr, WebUpdate.perform, SiteCall.Meets, forall_true_left,
    Database.replaceRunnerJobs]
  by_cases hfk : jobs ≠ [] ∧ (s.db.runners.find? runnerId).isNone
  · -- No row has the runner's id.
    rw [if_pos hfk]
    refine iff_of_true h fun _ _ R hR hid => ?_
    rw [← hid, Table.find?_of_mem hR] at hfk
    cases hfk.2
  by_cases hnames : (jobs.map RunnerJobDefinition.name).Nodup
  · rw [if_neg hfk, if_pos hnames]
    refine ⟨fun h' hjobs _ R hR hid => ?_, fun hm R hR => ⟨fun row hrow hid => ?_, (h R hR).refreshed⟩⟩
    · obtain ⟨job, rest, rfl⟩ := List.exists_cons_of_ne_nil hjobs
      have hlast := (h' R hR).fetched (runnerId, job)
        (List.mem_append_right _ List.mem_cons_self) hid.symm
      simp [CatalogHistory.fetch, hid] at hlast
      exact hlast.symm
    · rcases List.mem_append.mp hrow with hrow | hrow
      · obtain ⟨hrow, hne⟩ := List.mem_filter.mp hrow
        have hne : R.id ≠ runnerId := hid ▸ of_decide_eq_true hne
        simp only [CatalogHistory.fetch, lookup_cons_of_ne hne]
        exact (h R hR).fetched row hrow hid
      · obtain ⟨job, hjob, rfl⟩ := List.mem_map.mp hrow
        obtain rfl : runnerId = R.id := hid
        have hbase := hm (List.ne_nil_of_mem hjob) hnames R hR rfl
        simp [CatalogHistory.fetch, hbase]
  · rw [if_neg hfk, if_neg hnames]
    exact iff_of_true h fun _ hn => absurd hn hnames

lemma mem_updateRunnerHealth {db : Database} {runnerId state : String} {R' : Runner} :
    R' ∈ (db.updateRunnerHealth runnerId state).runners.rows ↔ ∃ R ∈ db.runners.rows,
      (R.id = runnerId ∧ R' = { R with lastHealthState := state }) ∨ (R.id ≠ runnerId ∧ R' = R) := by
  simp only [Database.updateRunnerHealth]
  exact Table.mem_modify

lemma updateRunnerHealth_current_iff {runnerId state asked : String} (hr : o.refusal = none)
    (h : s.Current) :
    ((SiteCall.update (.updateRunnerHealth runnerId state asked)).exec app o s).2.Current ↔
      (SiteCall.update (.updateRunnerHealth runnerId state asked)).Meets app o s := by
  simp only [SiteCall.exec, hr, WebUpdate.perform, SiteCall.Meets, forall_true_left]
  constructor
  · rintro h' rfl R hR hid
    have hR' : { R with lastHealthState := "healthy" } ∈
        (s.db.updateRunnerHealth runnerId "healthy").runners.rows :=
      mem_updateRunnerHealth.mpr ⟨R, hR, .inl ⟨hid, rfl⟩⟩
    have hlast := (h' _ hR').refreshed rfl
    simp [Site.write, Site.setDb, CatalogHistory.refresh, hid] at hlast
    exact hlast.symm
  · intro hm R' hR'
    obtain ⟨R, hR, ⟨hid, rfl⟩ | ⟨hne, rfl⟩⟩ := mem_updateRunnerHealth.mp hR'
    · refine ⟨(h R hR).fetched, fun hhealthy => ?_⟩
      have hstate : state = "healthy" := hhealthy
      subst hstate
      simp [Site.write, Site.setDb, CatalogHistory.refresh, hid, hm rfl R hR hid]
    · refine ⟨(h R' hR).fetched, fun hhealthy => ?_⟩
      simp only [Site.write, Site.setDb, CatalogHistory.refresh, lookup_cons_of_ne hne]
      exact (h R' hR).refreshed hhealthy

lemma updateRunner_rows {db db' : Database} {runnerId name baseUrl : String}
    (h : db.updateRunner runnerId name baseUrl = .ok db') :
    ∃ R₀ ∈ db.runners.rows, R₀.id = runnerId ∧
      db'.runnerJobs =
        (if R₀.baseUrl = baseUrl then db.runnerJobs else db.deleteRunnerJobs runnerId) ∧
      ∀ R', R' ∈ db'.runners.rows ↔ ∃ R ∈ db.runners.rows, (R.id = runnerId ∧ R' =
        { R with name, baseUrl,
                 lastHealthState := if R.baseUrl ≠ baseUrl then "unknown" else R.lastHealthState }) ∨
        (R.id ≠ runnerId ∧ R' = R) := by
  simp only [Database.updateRunner] at h
  split at h
  · cases h
  · next R₀ hfind =>
    split at h
    · cases h
    · rw [← Except.ok.inj h]
      refine ⟨R₀, Table.mem_of_find? hfind, Table.key_of_find? hfind, by simp, fun R' => ?_⟩
      dsimp only
      exact Table.mem_modify

lemma updateRunner_keeps {runnerId name baseUrl : String} {db : Database}
    (hdb : s.db.updateRunner runnerId name baseUrl = .ok db) (h : s.Current ∧ s.Owned) :
    (s.setDb db).Current ∧ (s.setDb db).Owned := by
  obtain ⟨hcurrent, howned⟩ := h
  obtain ⟨R₀, hR₀, hid₀, hjobs, hrows⟩ := updateRunner_rows hdb
  have hsub (row : String × RunnerJobDefinition) (hrow : row ∈ db.runnerJobs) :
      row ∈ s.db.runnerJobs ∧ (R₀.baseUrl ≠ baseUrl → row.1 ≠ runnerId) := by
    rw [hjobs] at hrow
    split at hrow
    · next hsame => exact ⟨hrow, fun hne => absurd hsame hne⟩
    · obtain ⟨hrow, hne⟩ := List.mem_filter.mp hrow
      exact ⟨hrow, fun _ => of_decide_eq_true hne⟩
  constructor
  · intro R' hR'
    obtain ⟨R, hR, ⟨hid, rfl⟩ | ⟨hne, rfl⟩⟩ := (hrows R').mp hR'
    · obtain rfl : R₀ = R := Table.eq_of_mem hR₀ hR (hid₀.trans hid.symm)
      by_cases hbase : R₀.baseUrl = baseUrl
      · subst hbase
        refine ⟨fun row hrow hrowid => (hcurrent R₀ hR).fetched row (hsub row hrow).1 hrowid, ?_⟩
        exact fun hhealthy => (hcurrent R₀ hR).refreshed (by simpa using hhealthy)
      · refine ⟨fun row hrow hrowid => ?_, fun hhealthy => ?_⟩
        · exact absurd (hrowid.trans hid) ((hsub row hrow).2 hbase)
        · simp [hbase] at hhealthy
    · refine ⟨fun row hrow hrowid => ?_, (hcurrent R' hR).refreshed⟩
      exact (hcurrent R' hR).fetched row (hsub row hrow).1 hrowid
  · intro row hrow
    obtain ⟨R, hR, hrowid⟩ := howned row (hsub row hrow).1
    by_cases hid : R.id = runnerId
    · exact ⟨_, (hrows _).mpr ⟨R, hR, .inl ⟨hid, rfl⟩⟩, hrowid⟩
    · exact ⟨R, (hrows R).mpr ⟨R, hR, .inr ⟨hid, rfl⟩⟩, hrowid⟩

lemma createRunner_keeps {id name baseUrl : String} {db : Database}
    (hdb : s.db.createRunner id name baseUrl = .ok db) (h : s.Current ∧ s.Owned) :
    (s.setDb db).Current ∧ (s.setDb db).Owned := by
  obtain ⟨hcurrent, howned⟩ := h
  simp only [Database.createRunner] at hdb
  split at hdb
  · cases hdb
  · split at hdb
    · next runners hinsert =>
      cases hdb
      have hrows := Table.rows_insert? hinsert
      constructor
      · intro R hR
        replace hR : R ∈ runners.rows := hR
        rw [hrows] at hR
        rcases List.mem_append.mp hR with hR | hR
        · exact ⟨(hcurrent R hR).fetched, (hcurrent R hR).refreshed⟩
        · obtain rfl := List.mem_singleton.mp hR
          refine ⟨fun row hrow hid => ?_, fun hhealthy => absurd hhealthy (show "unknown" ≠ "healthy" by decide)⟩
          obtain ⟨R₀, hR₀, hid₀⟩ := howned row hrow
          exact absurd (hid₀.trans hid) (Table.not_mem_of_insert? hinsert hR₀)
      · intro row hrow
        obtain ⟨R, hR, hid⟩ := howned row hrow
        exact ⟨R, hrows ▸ List.mem_append_left _ hR, hid⟩
    · cases hdb

lemma setRunnerEnabled_keeps {runnerId : String} {enabled : Bool} (h : s.Current ∧ s.Owned) :
    (s.setDb (s.db.setRunnerEnabled runnerId enabled)).Current ∧
      (s.setDb (s.db.setRunnerEnabled runnerId enabled)).Owned := by
  have hrows (R' : Runner) : R' ∈ (s.db.setRunnerEnabled runnerId enabled).runners.rows ↔
      ∃ R ∈ s.db.runners.rows, (R.id = runnerId ∧ R' = { R with enabled }) ∨
        (R.id ≠ runnerId ∧ R' = R) := by
    simp only [Database.setRunnerEnabled]
    exact Table.mem_modify
  constructor
  · intro R' hR'
    obtain ⟨R, hR, ⟨-, rfl⟩ | ⟨-, rfl⟩⟩ := (hrows R').mp hR'
    · exact ⟨(h.1 R hR).fetched, (h.1 R hR).refreshed⟩
    · exact ⟨(h.1 R' hR).fetched, (h.1 R' hR).refreshed⟩
  · intro row hrow
    obtain ⟨R, hR, hid⟩ := h.2 row hrow
    by_cases hR' : R.id = runnerId
    · exact ⟨_, (hrows _).mpr ⟨R, hR, .inl ⟨hR', rfl⟩⟩, hid⟩
    · exact ⟨R, (hrows R).mpr ⟨R, hR, .inr ⟨hR', rfl⟩⟩, hid⟩

def WebUpdate.refreshes : WebUpdate → Bool
  | .updateRunnerHealth _ _ _ => true
  | .replaceRunnerJobs _ _ _ => true
  | _ => false

lemma perform_keeps {u : WebUpdate} (hu : u.refreshes = false) (h : s.Current ∧ s.Owned) :
    (u.perform o s).2.Current ∧ (u.perform o s).2.Owned := by
  have hwrite {α : Type} (a : α) {r : Except String Database}
      (hdb : ∀ db, r = .ok db → (s.setDb db).Current ∧ (s.setDb db).Owned) :
      (s.write a r).2.Current ∧ (s.write a r).2.Owned := by
    cases r with
    | ok db => exact hdb db rfl
    | error e => exact h
  have hsame {db : Database} (hrunners : db.runners = s.db.runners)
      (hjobs : db.runnerJobs = s.db.runnerJobs) : (s.setDb db).Current ∧ (s.setDb db).Owned :=
    keeps_of_same (s := s) hrunners hjobs rfl h
  cases u with
  | createPushEvent repoId eventKey refs =>
    refine hwrite () fun db hdb => ?_
    have hwrites := database_writes (u := .createPushEvent repoId eventKey refs) hdb
    cases hwrites <;> exact hsame rfl rfl
  | createRunner name baseUrl => exact hwrite _ fun db hdb => createRunner_keeps hdb h
  | setRunnerEnabled runnerId enabled => exact setRunnerEnabled_keeps h
  | updateRunner runnerId name baseUrl => exact hwrite () fun db hdb => updateRunner_keeps hdb h
  | createWorkflow repoId name enabled triggerJson definitionJson jobSchemas =>
    refine hwrite _ fun db hdb => ?_
    have hwrites := database_writes (u := .createWorkflow repoId name enabled triggerJson
      definitionJson jobSchemas) hdb
    cases hwrites
    exact hsame rfl rfl
  | updateWorkflow workflowId name enabled triggerJson definitionJson jobSchemas =>
    refine hwrite _ fun db hdb => ?_
    have hwrites := database_writes (o := o) (u := .updateWorkflow workflowId name enabled triggerJson
      definitionJson jobSchemas) hdb
    cases hwrites
    exact hsame rfl rfl
  | createAuditEvent action targetType targetId => exact keeps_of_same (s := s) rfl rfl rfl h
  | _ => cases hu

lemma replaceRunnerJobs_owned {runnerId asked : String} {jobs : List RunnerJobDefinition}
    (h : s.Owned) : ((WebUpdate.replaceRunnerJobs runnerId jobs asked).perform o s).2.Owned := by
  simp only [WebUpdate.perform]
  cases hdb : s.db.replaceRunnerJobs runnerId jobs with
  | error e => exact h
  | ok db =>
    have hwrites := database_writes (o := o) (u := .replaceRunnerJobs runnerId jobs asked) hdb
    cases hwrites with
    | replaceRunnerJobs _ _ _ hrunner =>
      intro row hrow
      rcases List.mem_append.mp hrow with hrow | hrow
      · exact h row (List.mem_filter.mp hrow).1
      · obtain ⟨job, hjob, rfl⟩ := List.mem_map.mp hrow
        obtain ⟨R, hR⟩ := Option.isSome_iff_exists.mp (hrunner (List.ne_nil_of_mem hjob))
        exact ⟨R, Table.mem_of_find? hR, Table.key_of_find? hR⟩

lemma updateRunnerHealth_owned {runnerId state asked : String} (h : s.Owned) :
    ((WebUpdate.updateRunnerHealth runnerId state asked).perform o s).2.Owned := by
  intro row hrow
  obtain ⟨R, hR, hid⟩ := h row hrow
  by_cases hR' : R.id = runnerId
  · exact ⟨_, mem_updateRunnerHealth.mpr ⟨R, hR, .inl ⟨hR', rfl⟩⟩, hid⟩
  · exact ⟨R, mem_updateRunnerHealth.mpr ⟨R, hR, .inr ⟨hR', rfl⟩⟩, hid⟩

theorem exec_current_iff {c : SiteCall} (h : s.Current ∧ s.Owned) :
    ((c.exec app o s).2.Current ↔ c.Meets app o s) ∧ (c.exec app o s).2.Owned := by
  have hkept (hk : (c.exec app o s).2.Current ∧ (c.exec app o s).2.Owned) (hm : c.Meets app o s) :
      ((c.exec app o s).2.Current ↔ c.Meets app o s) ∧ (c.exec app o s).2.Owned :=
    ⟨iff_of_true hk.1 hm, hk.2⟩
  cases c with
  | server c =>
    have hconfig : s.toStore.db.SameConfig (c.exec app o.toOutcome s.toStore).2.db := exec_config rfl
    exact hkept (keeps_of_same hconfig.runners hconfig.runnerJobs rfl h) trivial
  | query q =>
    have hs : (SiteCall.exec app o s (.query q)).2 = s := by
      simp only [SiteCall.exec]
      split <;> rfl
    exact hkept (hs.symm ▸ h) trivial
  | catalog runner request refresh => exact ⟨catalog_current_iff h.1, h.2⟩
  | update u =>
    cases hr : o.refusal with
    | some e =>
      have hs : (SiteCall.exec app o s (.update u)).2 = s := by simp only [SiteCall.exec, hr]
      refine hkept (hs.symm ▸ h) ?_
      cases u <;> first | trivial | (intro hn; rw [hr] at hn; cases hn)
    | none =>
      have hs : (SiteCall.exec app o s (.update u)).2 = (u.perform o s).2 := by
        simp only [SiteCall.exec, hr]
      cases u with
      | updateRunnerHealth runnerId state asked =>
        exact ⟨updateRunnerHealth_current_iff hr h.1, hs ▸ updateRunnerHealth_owned h.2⟩
      | replaceRunnerJobs runnerId jobs asked =>
        exact ⟨replaceRunnerJobs_current_iff hr h.1, hs ▸ replaceRunnerJobs_owned h.2⟩
      | _ => exact hkept (hs ▸ perform_keeps rfl h) trivial

end

def SiteEvent.outcome : SiteEvent → SiteOutcome
  | .step _ o => o
  | _ => {}

instance (app : AppState) (o : SiteOutcome) (s : Site) (c : SiteCall) : Decidable (c.Meets app o s) := by
  unfold SiteCall.Meets
  split <;> infer_instance

/-- What the step writes of a runner meets the row that it belongs to. -/
def MeetsRunner (app : WebState) (p : SitePool) (e : SiteEvent) : Prop :=
  ∀ c ∈ p.call? e, c.Meets app.toAppState (SiteEvent.outcome e) p.store

instance (app : WebState) (p : SitePool) (e : SiteEvent) : Decidable (MeetsRunner app p e) :=
  inferInstanceAs (Decidable (∀ c ∈ p.call? e, _))

lemma meets_of_no_call {app : WebState} {p : SitePool} {e : SiteEvent} (h : p.call? e = none) :
    MeetsRunner app p e := by
  intro c hc
  rw [h] at hc
  cases hc

lemma apply_current_iff {app : WebState} {p p' : SitePool} {e : SiteEvent}
    (h : p.store.Current ∧ p.store.Owned) (ha : (site app).apply p e = some p') :
    (p'.store.Current ↔ MeetsRunner app p e) ∧ p'.store.Owned := by
  obtain ⟨r, rfl, -, rfl⟩ | ⟨i, o, r, c, next, rfl, ht, -, rfl⟩ | ⟨i, r, x, rfl, ht, rfl⟩ |
    ⟨rfl, rfl⟩ | ⟨v, rfl, rfl⟩ := System.apply_cases ha
  · exact ⟨iff_of_true h.1 (meets_of_no_call rfl), h.2⟩
  · have hcall : p.call? (.step i o : SiteEvent) = some c := by simp only [Pool.call?, ht]
    have hmeets : MeetsRunner app p (.step i o) ↔ c.Meets app.toAppState o p.store := by
      simp only [MeetsRunner, hcall, Option.mem_some_iff, forall_eq', SiteEvent.outcome]
    have hexec : (site app).exec c o p.store = c.exec app.toAppState o p.store := rfl
    rw [hmeets, hexec]
    exact exec_current_iff h
  · exact ⟨iff_of_true h.1 (meets_of_no_call rfl), h.2⟩
  · exact ⟨iff_of_true h.1 (meets_of_no_call rfl), h.2⟩
  · cases v with
    | runEnds runId =>
      exact ⟨iff_of_true (Site.current_congr (s := p.store) rfl rfl rfl h.1) (meets_of_no_call rfl), h.2⟩

/-- In every state of a run the stored catalogs and the stored health belong to the current addresses if
and only if every step meets the rows as it read them. -/
theorem catalogs_current_iff (app : WebState) (p : SitePool) (es : List SiteEvent)
    (hcurrent : p.store.Current) (howned : p.store.Owned) :
    (∀ before, before <+: es → ∀ q, (site app).run before p = some q → q.store.Current) ↔
      (site app).Along (MeetsRunner app) es p := by
  have hstart : p.store.Current ∧ p.store.Owned := ⟨hcurrent, howned⟩
  let I (q : SitePool) : Prop := q.store.Current ∧ q.store.Owned
  refine (System.along_reached_iff (I := fun q : SitePool => q.store.Current) hcurrent).trans ⟨?_, ?_⟩
  · refine System.Along.of_invariant (I := I) ?_ ?_ hstart
    · exact fun q e q' hq he ha => ⟨he q' ha, (apply_current_iff hq ha).2⟩
    · exact fun q e q' hq he ha => (apply_current_iff hq ha).1.mp (he q' ha)
  · refine System.Along.of_invariant (I := I) ?_ ?_ hstart
    · exact fun q e q' hq he ha => ⟨(apply_current_iff hq ha).1.mpr he, (apply_current_iff hq ha).2⟩
    · exact fun q e q' hq he _ q'' ha => (apply_current_iff hq ha).1.mpr he

def oneRunner : SitePool :=
  sampleSitePool { sampleDatabase 1 .empty .empty .empty with runnerJobs := [] }

def askedRunner : List SiteEvent :=
  [.start (.testRunner sampleSender "runner"), .step 0 {},
    .step 0 { toOutcome := replied 200 (.capabilities ⟨1, [1]⟩) },
    .step 0 { toOutcome := replied 200 (.jobs [sampleSchema]) }]

def movedMeanwhile : List SiteEvent :=
  askedRunner ++ [.start (.updateRunner sampleSender "runner" "runner" "https://moved"), .step 1 {},
    .step 1 {}, .step 0 {}, .step 0 {}]

theorem stale_catalog :
    oneRunner.store.Current ∧ oneRunner.store.Owned ∧
      ((site sampleSite).run movedMeanwhile oneRunner).any (fun q =>
        ¬ q.store.Current ∧ ∃ R ∈ q.store.db.runners.rows, R.baseUrl = "https://moved" ∧
          R.lastHealthState = "healthy" ∧ q.store.catalogs.fetched.lookup R.id = some "" ∧
            ∃ row ∈ q.store.db.runnerJobs, row.1 = R.id) = true := by
  decide +kernel

theorem catalogs_current_tested :
    ((site sampleSite).run (askedRunner ++ [.step 0 {}, .step 0 {}]) oneRunner).any (fun q =>
      ∃ R ∈ q.store.db.runners.rows, R.lastHealthState = "healthy") = true ∧
      ∀ q, (site sampleSite).run (askedRunner ++ [.step 0 {}, .step 0 {}]) oneRunner = some q →
        q.store.Current :=
  have hmeets : (site sampleSite).Along (MeetsRunner sampleSite) (askedRunner ++ [.step 0 {}, .step 0 {}])
      oneRunner := by decide +kernel
  ⟨by decide +kernel, (catalogs_current_iff sampleSite oneRunner _ (by decide +kernel)
    (by decide +kernel)).mpr hmeets _ (List.prefix_refl _)⟩

end Janus.Web
