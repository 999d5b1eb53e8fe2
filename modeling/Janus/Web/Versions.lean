import Janus.Server.Pinning
import Janus.Web.Footprint

/-! Versions of workflows: their numbers, and that pipelines keep the version they were created from,
whatever is edited later. -/

namespace Janus.Server

open Janus.Concurrency Janus.Data

/-- The versions of each workflow are numbered 1, 2, 3, …, and the rows refer to rows. -/
structure Database.Versioned (db : Database) : Prop where
  numbers : ∀ W ∈ db.workflows.rows, ∃ n,
    (db.versionsOf W.id).map WorkflowVersionRow.version = List.range' 1 (n + 1)
  workflow : ∀ V ∈ db.workflowVersions.rows, ∃ W ∈ db.workflows.rows, W.id = V.workflowId
  version : ∀ P ∈ db.pipelineRuns.rows, ∃ V ∈ db.workflowVersions.rows, V.id = P.workflowVersionId

/-- `get_workflow` answers with the version that has the largest number. -/
def Database.ServesNewest (db : Database) (W : WorkflowRow) : Prop :=
  ∃ V ∈ db.versionsOf W.id, (∀ V' ∈ db.versionsOf W.id, V'.version ≤ V.version) ∧
    db.getWorkflow W.id = some
      { id := W.id, repoId := W.repoId, name := W.name, enabled := W.enabled, versionId := V.id,
        triggerJson := V.triggerJson, definitionJson := V.definitionJson }

section

variable {app : AppState} {o : Outcome} {s s' : Store} {db : Database}

lemma foldr_max_range' (n : ℕ) : (List.range' 1 n).foldr max 0 = n := by
  induction n with
  | zero => rfl
  | succ n ih =>
    have hmax (m : ℕ) (l : List ℕ) : (l ++ [m]).foldr max 0 = max (l.foldr max 0) m := by
      induction l with
      | nil => simp
      | cons k l ihl =>
        simp only [List.cons_append, List.foldr_cons, ihl]
        omega
    rw [List.range'_concat, hmax, ih]
    omega

lemma Database.Versioned.nextVersion (h : db.Versioned) {W : WorkflowRow} (hW : W ∈ db.workflows.rows) :
    ∃ n, (db.versionsOf W.id).map WorkflowVersionRow.version = List.range' 1 (n + 1) ∧
      db.nextVersion W.id = n + 2 := by
  obtain ⟨n, hn⟩ := h.numbers W hW
  refine ⟨n, hn, ?_⟩
  rw [Database.nextVersion, hn, foldr_max_range']

lemma Database.Versioned.servesNewest (h : db.Versioned) {W : WorkflowRow}
    (hW : W ∈ db.workflows.rows) : db.ServesNewest W := by
  obtain ⟨n, hn⟩ := h.numbers W hW
  have hlast : n + 1 ∈ (db.versionsOf W.id).map WorkflowVersionRow.version := by
    rw [hn]
    simp
  obtain ⟨V, hV, hversion⟩ := List.mem_map.mp hlast
  have hle (V' : WorkflowVersionRow) (hV' : V' ∈ db.versionsOf W.id) : V'.version ≤ n + 1 := by
    have hmem := List.mem_map_of_mem (f := WorkflowVersionRow.version) hV'
    rw [hn, List.mem_range'_1] at hmem
    omega
  have hnewest : V ∈ (db.versionsOf W.id).filter
      fun v => (db.versionsOf W.id).all (·.version ≤ v.version) := by
    refine List.mem_filter.mpr ⟨hV, List.all_eq_true.mpr fun V' hV' => ?_⟩
    simpa [hversion] using hle V' hV'
  cases hlist : (db.versionsOf W.id).filter
      fun v => (db.versionsOf W.id).all (·.version ≤ v.version) with
  | nil =>
    rw [hlist] at hnewest
    cases hnewest
  | cons V₁ rest =>
    obtain ⟨hV₁, hall⟩ := List.mem_filter.mp (hlist ▸ List.mem_cons_self : V₁ ∈ List.filter _ _)
    refine ⟨V₁, hV₁, fun V' hV' => by simpa using List.all_eq_true.mp hall V' hV', ?_⟩
    have hfilter : db.newestVersions W = (V₁ :: rest).map fun v =>
        { id := W.id, repoId := W.repoId, name := W.name, enabled := W.enabled, versionId := v.id,
          triggerJson := v.triggerJson, definitionJson := v.definitionJson } := by
      rw [← hlist]
      rfl
    rw [Database.getWorkflow, Table.find?_of_mem hW, Option.bind_some, hfilter]
    rfl

lemma createPipelineRun_version {repoId workflowId versionId : Id} {triggerType : String}
    {triggerRef commitSha : Option String} {origin : Origin} {x : Except String Id}
    (h : (Call.insert (.createPipelineRun repoId workflowId versionId triggerType triggerRef commitSha
      origin)).exec app o s = (x, s')) :
    s'.db = s.db ∨ ∃ V ∈ s.db.workflowVersions.rows, V.id = versionId := by
  rcases exec_cases h with ⟨rfl, -⟩ | h
  · exact .inl rfl
  · simp only [Call.perform, Insertion.exec, Database.createPipelineRun] at h
    by_cases hfk : (s.db.repos.find? repoId).isNone ∨ (s.db.workflows.find? workflowId).isNone ∨
        (s.db.workflowVersions.find? versionId).isNone
    · rw [if_pos hfk] at h
      cases h
      exact .inl rfl
    · simp only [not_or, Option.isNone_iff_eq_none, ← ne_eq, Option.ne_none_iff_exists'] at hfk
      obtain ⟨V, hV⟩ := hfk.2.2
      exact .inr ⟨V, Table.mem_of_find? hV, Table.key_of_find? hV⟩

lemma Database.Versioned.exec {c : Call} {x : Except String c.Result} (h : s.db.Versioned)
    (hexec : c.exec app o s = (x, s')) : s'.db.Versioned := by
  obtain ⟨-, -, -, hworkflows, hversions⟩ := exec_config hexec
  have hof (id : Id) : s'.db.versionsOf id = s.db.versionsOf id := by
    simp only [Database.versionsOf, hversions]
  refine ⟨fun W hW => ?_, fun V hV => ?_, fun P hP => ?_⟩
  · rw [hworkflows] at hW
    rw [hof]
    exact h.numbers W hW
  · rw [hversions] at hV
    rw [hworkflows]
    exact h.workflow V hV
  · rw [hversions]
    have hold (he : s'.db.pipelineRuns = s.db.pipelineRuns) :
        ∃ V ∈ s.db.workflowVersions.rows, V.id = P.workflowVersionId := h.version P (he ▸ hP)
    cases exec_effect hexec with
    | untouched tables _ => exact hold tables.pipelineRuns
    | jobRun id u now key jobRuns pipelineRuns _ => exact hold pipelineRuns
    | pipelineRun id u now jobRuns pipelineRuns _ =>
      rw [pipelineRuns, Table.mem_modify] at hP
      obtain ⟨P₀, hP₀, ⟨-, rfl⟩ | ⟨-, rfl⟩⟩ := hP
      · rw [u.row_version]
        exact h.version P₀ hP₀
      · exact h.version P hP₀
    | createPipelineRun _ _ _ _ _ _ _ _ _ jobRuns pipelineRuns _ _ =>
      rcases createPipelineRun_version hexec with he | hstored
      · exact h.version P (he ▸ hP)
      · rw [Table.rows_insert? pipelineRuns] at hP
        rcases List.mem_append.mp hP with hP | hP
        · exact h.version P hP
        · obtain rfl := List.mem_singleton.mp hP
          exact hstored
    | createJobRun _ _ _ _ _ _ _ _ _ jobRuns pipelineRuns _ _ => exact hold pipelineRuns
    | addPreviousJob _ _ _ _ jobRuns pipelineRuns _ _ => exact hold pipelineRuns

lemma insertWorkflowVersion_rows {V : WorkflowVersionRow} {versions : Table WorkflowVersionRow.id}
    (h : db.insertWorkflowVersion V = .ok versions) :
    versions.rows = db.workflowVersions.rows ++ [V] := by
  simp only [Database.insertWorkflowVersion] at h
  split at h
  · cases h
  · split at h
    · next rows hrows =>
      rw [← Except.ok.inj h]
      exact Table.rows_insert? hrows
    · cases h

lemma Database.Versioned.insert (h : db.Versioned) {db' : Database} {V : WorkflowVersionRow}
    (hversions : db'.workflowVersions.rows = db.workflowVersions.rows ++ [V])
    (hpipelines : db'.pipelineRuns = db.pipelineRuns)
    (hnumbers : ∃ n, (db.versionsOf V.workflowId).map WorkflowVersionRow.version ++ [V.version] =
      List.range' 1 (n + 1))
    (hworkflow : ∃ W ∈ db'.workflows.rows, W.id = V.workflowId)
    (hworkflows : ∀ W ∈ db.workflows.rows, ∃ W' ∈ db'.workflows.rows, W'.id = W.id)
    (hback : ∀ W' ∈ db'.workflows.rows, W'.id ≠ V.workflowId → ∃ W ∈ db.workflows.rows, W.id = W'.id) :
    db'.Versioned := by
  refine ⟨fun W' hW' => ?_, fun U hU => ?_, fun P hP => ?_⟩
  · simp only [versionsOf, hversions, List.filter_append, List.map_append]
    by_cases hid : W'.id = V.workflowId
    · obtain ⟨n, hn⟩ := hnumbers
      refine ⟨n, ?_⟩
      rw [← hn, hid, List.filter_singleton]
      simp [versionsOf]
    · obtain ⟨W, hW, hWid⟩ := hback W' hW' hid
      obtain ⟨n, hn⟩ := h.numbers W hW
      refine ⟨n, ?_⟩
      rw [← hn, hWid, List.filter_singleton]
      simp [versionsOf, Ne.symm hid]
  · rw [hversions] at hU
    rcases List.mem_append.mp hU with hU | hU
    · obtain ⟨W, hW, hWid⟩ := h.workflow U hU
      obtain ⟨W', hW', hid⟩ := hworkflows W hW
      exact ⟨W', hW', hid.trans hWid⟩
    · obtain rfl := List.mem_singleton.mp hU
      exact hworkflow
  · rw [hpipelines] at hP
    obtain ⟨U, hU, hid⟩ := h.version P hP
    exact ⟨U, hversions ▸ List.mem_append_left _ hU, hid⟩

end

end Janus.Server

namespace Janus.Web

open Janus.Concurrency Janus.Data Janus.Server

lemma WebUpdate.Writes.retains {o : SiteOutcome} {db db' : Database} {u : WebUpdate}
    (h : u.Writes o db db') : db.Retains db' := by
  have hgrown {V : WorkflowVersionRow} {versions : Table WorkflowVersionRow.id}
      (hv : db.insertWorkflowVersion V = .ok versions) :
      ∀ U ∈ db.workflowVersions.rows, U ∈ versions.rows := by
    intro U hU
    rw [insertWorkflowVersion_rows hv]
    exact List.mem_append_left _ hU
  cases h with
  | updateRunner _ _ _ _ _ frame =>
    rw [frame]
    exact .of_rows (fun J hJ => ⟨J, hJ, .rfl⟩) (fun P hP => ⟨P, hP, rfl, rfl⟩) rfl
  | createWorkflow _ _ _ _ _ _ _ _ _ versions =>
    exact ⟨fun J hJ => ⟨J, hJ, .rfl⟩, fun P hP => ⟨P, hP, rfl, rfl⟩, hgrown versions⟩
  | updateWorkflow _ _ _ _ _ _ _ _ versions =>
    exact ⟨fun J hJ => ⟨J, hJ, .rfl⟩, fun P hP => ⟨P, hP, rfl, rfl⟩, hgrown versions⟩
  | _ => exact .of_rows (fun J hJ => ⟨J, hJ, .rfl⟩) (fun P hP => ⟨P, hP, rfl, rfl⟩) rfl

lemma WebUpdate.Writes.versioned {o : SiteOutcome} {db db' : Database} {u : WebUpdate}
    (h : u.Writes o db db') (hv : db.Versioned) : db'.Versioned := by
  cases h with
  | updateRunner _ _ _ _ _ frame =>
    rw [frame]
    exact ⟨hv.numbers, hv.workflow, hv.version⟩
  | createWorkflow repoId name enabled _ _ _ workflows workflowVersions rows versions =>
    have hrows := Table.rows_insert? rows
    have hfresh (W : WorkflowRow) (hW : W ∈ db.workflows.rows) : W.id ≠ o.uuid :=
      Table.not_mem_of_insert? rows hW
    refine hv.insert (insertWorkflowVersion_rows versions) rfl ?_ ⟨⟨o.uuid, repoId, name, enabled⟩, ?_, rfl⟩
      (fun W hW => ⟨W, ?_, rfl⟩) fun W' hW' hid => ?_
    · have hnone : db.versionsOf o.uuid = [] := by
        refine List.filter_eq_nil_iff.mpr fun V hV => ?_
        obtain ⟨W, hW, hWid⟩ := hv.workflow V hV
        simpa [← hWid] using hfresh W hW
      exact ⟨0, by rw [hnone]; rfl⟩
    · rw [hrows]
      exact List.mem_append_right _ (List.mem_singleton_self _)
    · rw [hrows]
      exact List.mem_append_left _ hW
    · rw [hrows] at hW'
      rcases List.mem_append.mp hW' with hW' | hW'
      · exact ⟨W', hW', rfl⟩
      · obtain rfl := List.mem_singleton.mp hW'
        exact absurd rfl hid
  | updateWorkflow workflowId name enabled _ _ _ workflowVersions workflow versions =>
    obtain ⟨W₀, hW₀⟩ := Option.isSome_iff_exists.mp workflow
    have hmem := Table.mem_of_find? hW₀
    have hid₀ : W₀.id = workflowId := Table.key_of_find? hW₀
    have hmodify (W : WorkflowRow) (hW : W ∈ db.workflows.rows) :
        ∃ W' ∈ (db.workflows.modify workflowId (fun W => { W with name, enabled }) fun _ => rfl).rows,
          W'.id = W.id := Table.exists_modify hW
    have hback (W' : WorkflowRow) (hW' : W' ∈ (db.workflows.modify workflowId
        (fun W => { W with name, enabled }) fun _ => rfl).rows) : ∃ W ∈ db.workflows.rows, W.id = W'.id := by
      obtain ⟨W, hW, ⟨-, rfl⟩ | ⟨-, rfl⟩⟩ := Table.mem_modify.mp hW'
      · exact ⟨W, hW, rfl⟩
      · exact ⟨W', hW, rfl⟩
    refine hv.insert (insertWorkflowVersion_rows versions) rfl ?_ ?_ hmodify fun W' hW' _ => hback W' hW'
    · obtain ⟨n, hn, hnext⟩ := hv.nextVersion hmem
      rw [hid₀] at hn hnext
      refine ⟨n + 1, ?_⟩
      rw [hn, hnext, List.range'_concat (s := 1) (n := n + 1)]
      simp
      omega
    · obtain ⟨W', hW', hid⟩ := hmodify W₀ hmem
      exact ⟨W', hW', hid.trans hid₀⟩
  | _ => exact ⟨hv.numbers, hv.workflow, hv.version⟩

section

variable {app : AppState} {o : SiteOutcome} {s s' : Site}

lemma site_exec_retains {c : SiteCall} {x : Except String c.Result} (h : c.exec app o s = (x, s')) :
    s.db.Retains s'.db := by
  cases site_effect h with
  | server c exec _ => exact exec_retains exec
  | update u a _ writes _ => exact writes.retains
  | kept db _ _ => rw [db]; exact .rfl

lemma site_exec_versioned {c : SiteCall} {x : Except String c.Result} (h : c.exec app o s = (x, s'))
    (hv : s.db.Versioned) : s'.db.Versioned := by
  cases site_effect h with
  | server c exec _ => exact hv.exec exec
  | update u a _ writes _ => exact writes.versioned hv
  | kept db _ _ => rw [db]; exact hv

end

def SiteCall.Pinned (db : Database) : SiteCall → Prop
  | .server c => c.Pinned db
  | _ => True

def sitePinning (app : AppState) : Discipline SiteCall SiteCall.Result String Site where
  rely s s' := s.db.Retains s'.db
  inv s := s.db.Versioned
  admits c s x s' := ∃ o, c.exec app o s = (x, s')
  before c s := c.Pinned s.db

def SiteCall.isUnsent : SiteCall → Prop
  | .server c => c.sends = none
  | _ => True

section

variable {app : WebState}

lemma siteUnsent : SiteFootprint SiteCall.isUnsent where
  read _ := rfl
  query _ := trivial
  update _ _ := trivial
  catalog _ _ _ := trivial

lemma onServer_pinned {α : Type} {p : Server.Task α} {s : Site}
    (h : Safe (pinning app.toAppState) (fun _ _ => True) p s.toStore) :
    Safe (sitePinning app.toAppState) (fun _ _ => True) (onServer p) s := by
  induction p generalizing s with
  | done r => trivial
  | call c next ih =>
    intro s' hr _
    obtain ⟨hb, hn⟩ := h s'.toStore hr trivial
    refine ⟨hb, ?_⟩
    rintro x s'' ⟨o, ho⟩
    exact ih x (hn x s''.toStore ⟨o.toOutcome, by cases ho; rfl⟩)

lemma siteUnsent_safe {p : WebTask Unit} (hp : p.Only SiteCall.isUnsent) (s : Site) :
    Safe (sitePinning app.toAppState) (fun _ _ => True) p s := by
  refine Safe.of_only (A := fun _ => True) (fun _ _ _ _ _ => trivial) ?_ (fun _ _ _ _ _ _ _ _ => trivial)
    hp trivial
  intro c s hc _ _
  cases c with
  | server c => exact Call.pinned_of_unsent hc
  | _ => trivial

lemma site_program_pinned (r : SiteRole) (s : Site) :
    Safe (sitePinning app.toAppState) (fun _ _ => True) (r.program app) s := by
  have henqueue (workflow triggerType triggerRef commitSha selections origin)
      (_ : ∀ eventId refIndex, origin ≠ Origin.push eventId refIndex) :
      (onServer (enqueueWorkflowRunWithArtifacts workflow triggerType triggerRef commitSha selections
        origin)).Only SiteCall.isUnsent :=
    only_onServer (unsent_footprint.enqueue _ _ _ _ _ _)
  have h := siteUnsent
  cases r with
  | server r => exact onServer_pinned (program_pinned r s.toStore)
  | refreshRunnerHealth => exact siteUnsent_safe h.refreshRunnerHealth s
  | postReceive repoId refsRaw => exact siteUnsent_safe (only_call trivial) s
  | triggerRepo sender repoId branch commit =>
    exact siteUnsent_safe (.bind (verifyCsrf_only _ _) fun _ => .bind (h.authorizedRepo _ _) fun _ =>
      .bind (.done _) fun _ => internalError_only (only_call trivial)) s
  | createRunner sender name baseUrl => exact siteUnsent_safe (h.createRunner app sender name baseUrl) s
  | toggleRunner sender runnerId => exact siteUnsent_safe (h.toggleRunner app sender runnerId) s
  | updateRunner sender runnerId name baseUrl =>
    exact siteUnsent_safe (h.updateRunner app sender runnerId name baseUrl) s
  | testRunner sender runnerId => exact siteUnsent_safe (h.testRunner app sender runnerId) s
  | createWorkflow sender repoId parsed =>
    exact siteUnsent_safe (h.createWorkflow app sender repoId parsed) s
  | updateWorkflow sender workflowId repoId parsed =>
    exact siteUnsent_safe (h.updateWorkflow app sender workflowId repoId parsed) s
  | runWorkflow number sender workflowId branch commit artifactSelections =>
    exact siteUnsent_safe (h.runWorkflow app henqueue number sender workflowId branch commit
      artifactSelections) s
  | rerunPipeline number sender pipelineId =>
    exact siteUnsent_safe (h.rerunPipeline app henqueue number sender pipelineId) s

end

theorem pinningOutline (app : WebState) :
    System.Outline (site app) (fun _ _ => True) (fun s => s.db.Versioned)
      (fun _ => sitePinning app.toAppState) fun _ _ _ => True where
  inv_eq _ := rfl
  trans _ _ _ _ h h' := h.trans h'
  post_stable _ _ _ _ _ _ := trivial
  refl _ _ := .rfl
  start p r _ _ := site_program_pinned r p.store
  admits _ _ o _ _ _ _ _ _ _ := ⟨o, rfl⟩
  keeps _ _ _ hv := fun ⟨_, _, _, _, ho⟩ => site_exec_versioned ho hv
  compat _ _ _ _ _ _ _ _ _ _ _ _ _ := fun ⟨_, ho⟩ => site_exec_retains ho
  environ p v _ hv := by
    cases v with
    | runEnds runId => exact ⟨hv, fun _ => .rfl⟩
  crash _ _ hv := hv

lemma site_retains {app : WebState} {p p' : SitePool} {e : SiteEvent}
    (ha : (site app).apply p e = some p') : p.store.db.Retains p'.store.db :=
  System.store_apply (R := fun s s' => s.db.Retains s'.db) ha (fun _ => .rfl)
    (fun _ _ _ => site_exec_retains rfl) (fun _ _ => .rfl) fun _ => .rfl

lemma run_retains {app : WebState} {p p' : SitePool} {es : List SiteEvent}
    (hrun : (site app).run es p = some p') : p.store.db.Retains p'.store.db := by
  induction es generalizing p with
  | nil =>
    obtain rfl := Option.some.inj hrun
    exact .rfl
  | cons e es ih =>
    obtain ⟨q, hq, hrun⟩ := Option.bind_eq_some_iff.mp hrun
    exact (site_retains hq).trans (ih hrun)

def SendsPinned (p : SitePool) (e : SiteEvent) : Prop := ∀ c ∈ p.call? e, c.Pinned p.store.db

/-- In every state that a run reaches the versions are numbered without gaps, and the newest is served;
from there on the stored versions stay, jobs are sent with the definition and the schema that are
pinned for them, and what is pinned for the jobs of a pipeline is the same in any two continuations. -/
theorem versions_pinned {app : WebState} {p q : SitePool} {before : List SiteEvent}
    (hidle : p.tasks = []) (hv : p.store.db.Versioned) (hrun : (site app).run before p = some q) :
    q.store.db.Versioned ∧ (∀ W ∈ q.store.db.workflows.rows, q.store.db.ServesNewest W) ∧
      (∀ after, (site app).Along SendsPinned after q) ∧
      (∀ after q', (site app).run after q = some q' →
        ∀ V ∈ q.store.db.workflowVersions.rows, V ∈ q'.store.db.workflowVersions.rows) ∧
      ∀ after₁ after₂ q₁ q₂, (site app).run after₁ q = some q₁ → (site app).run after₂ q = some q₂ →
        ∀ P ∈ q.store.db.pipelineRuns.rows, ∀ jobIndex jobDefinition schema,
          q₁.store.db.PinsAt P.id jobIndex jobDefinition schema ↔
            q₂.store.db.PinsAt P.id jobIndex jobDefinition schema := by
  have hstep (p e p') (h : System.Sound (site app) (fun s => s.db.Versioned)
      (fun _ => sitePinning app.toAppState) (fun _ _ _ => True) p) (_ : True)
      (ha : (site app).apply p e = some p') := h.apply (pinningOutline app) trivial ha
  have hstart : System.Sound (site app) (fun s => s.db.Versioned)
      (fun _ => sitePinning app.toAppState) (fun _ _ _ => True) p := by
    refine ⟨hv, ?_, ?_⟩ <;> rw [hidle]
    · intro t ht
      cases ht
    · exact .nil
  have hsound := (System.Along.of_forall (fun _ _ => trivial) before p).invariant hstep hstart hrun
  have hversioned : q.store.db.Versioned := hsound.1
  refine ⟨hversioned, fun W hW => hversioned.servesNewest hW, fun after => ?_, fun after q' hq' => ?_, ?_⟩
  · refine System.Along.of_invariant hstep (fun q e q' hs _ _ => ?_) hsound
      (.of_forall (fun _ _ => trivial) after q)
    intro c hc
    obtain ⟨i, o, r, next, rfl, ht⟩ := Pool.call?_eq_some hc
    exact System.Sound.before (pinningOutline app) hs (List.mem_of_getElem? ht)
  · exact (run_retains hq').workflowVersions
  · intro after₁ after₂ q₁ q₂ h₁ h₂ P hP jobIndex jobDefinition schema
    have hversion := hversioned.version P hP
    exact ((run_retains h₁).pinsAt_iff hP hversion).trans ((run_retains h₂).pinsAt_iff hP hversion).symm

def oneJobSite : SitePool :=
  sampleSitePool (sampleDatabase 1 (.single samplePipeline) (.single (sampleJob 10 0)) .empty)

def editedAfterwards : List SiteEvent :=
  .start (.updateWorkflow sampleSender 1 1
      (.ok ⟨"ci", .ok ⟨"push", []⟩, .ok (sampleWorkflow 2), List.replicate 2 sampleSchema⟩)) ::
    (List.replicate 2 (.step 0 {}) ++ [.step 0 { versionId := 2 }, .step 0 {}])

theorem versions_pinned_edited :
    ∃ q, (site sampleSite).run editedAfterwards oneJobSite = some q ∧
      (q.store.db.versionsOf 1).map WorkflowVersionRow.version = [1, 2] ∧
      (∀ W ∈ q.store.db.workflows.rows, q.store.db.ServesNewest W) ∧
      ∀ after, (site sampleSite).Along SendsPinned after q := by
  have hv : oneJobSite.store.db.Versioned := by
    refine ⟨fun W hW => ⟨0, ?_⟩, by decide, by decide⟩
    obtain rfl := List.mem_singleton.mp hW
    rfl
  have hrun : ((site sampleSite).run editedAfterwards oneJobSite).any (fun q =>
      (q.store.db.versionsOf 1).map WorkflowVersionRow.version = [1, 2]) = true := by decide +kernel
  obtain ⟨q, hq, hnumbers⟩ := (Option.any_eq_true _ _).mp hrun
  obtain ⟨-, hnewest, hsends, -⟩ := versions_pinned rfl hv hq
  exact ⟨q, hq, of_decide_eq_true hnumbers, hnewest, hsends⟩

end Janus.Web
