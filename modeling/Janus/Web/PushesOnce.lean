import Janus.Web.PushPipelines

/-! How often a push event is enqueued: once, where no pass meets an event that an earlier one has left
half done. -/

namespace Janus.Server

open Janus.Concurrency Janus.Data

/-- What a pipeline of a push is for. -/
structure PushKey where
  eventId : Id
  refIndex : ℕ
  workflowId : Id
  deriving DecidableEq

def Origin.pushKey (workflowId : Id) : Origin → Option PushKey
  | .push eventId refIndex => some ⟨eventId, refIndex, workflowId⟩
  | _ => none

def PipelineRun.pushKey (P : PipelineRun) : Option PushKey := P.origin.pushKey P.workflowId

def Call.pushKey : Call → Option PushKey
  | .insert (.createPipelineRun _ workflowId _ _ _ _ origin) => origin.pushKey workflowId
  | _ => none

def Database.pushKeys (db : Database) : List PushKey :=
  db.pipelineRuns.rows.filterMap PipelineRun.pushKey

def Database.Lacks (db : Database) (K : PushKey → Prop) : Prop := ∀ key ∈ db.pushKeys, ¬ K key

section

variable {app : AppState} {o : Outcome} {s s' : Store} {db : Database} {K K' : PushKey → Prop}

lemma Database.Lacks.mono (h : db.Lacks K) (hK : ∀ key, K' key → K key) : db.Lacks K' :=
  fun key hkey hin => h key hkey (hK key hin)

lemma Call.isOrdinary.pushKey {c : Call} (h : c.isOrdinary) : c.pushKey = none := by
  cases c with
  | insert i =>
    cases i with
    | createPipelineRun _ _ _ _ _ _ origin =>
      cases origin with
      | push _ _ => exact h.elim
      | _ => rfl
    | _ => rfl
  | _ => rfl

lemma exec_pushKeys {c : Call} {x : Except String c.Result} (h : c.exec app o s = (x, s')) :
    s'.db.pushKeys = s.db.pushKeys ∨
      ∃ key, c.pushKey = some key ∧ s'.db.pushKeys = s.db.pushKeys ++ [key] := by
  have hsame (he : s'.db.pipelineRuns = s.db.pipelineRuns) : s'.db.pushKeys = s.db.pushKeys := by
    rw [Database.pushKeys, he]
    rfl
  cases exec_effect h with
  | untouched tables _ => exact .inl (hsame tables.pipelineRuns)
  | jobRun _ _ _ _ _ pipelineRuns _ => exact .inl (hsame pipelineRuns)
  | createJobRun _ _ _ _ _ _ _ _ _ _ pipelineRuns _ _ => exact .inl (hsame pipelineRuns)
  | addPreviousJob _ _ _ _ _ pipelineRuns _ _ => exact .inl (hsame pipelineRuns)
  | pipelineRun id u now _ pipelineRuns _ =>
    refine .inl ?_
    rw [Database.pushKeys, pipelineRuns, Table.modify, List.filterMap_map]
    congr 1
    funext P
    simp only [Function.comp_apply]
    split
    · have hsame := u.row_sameOrder s.db now id P
      rw [PipelineRun.pushKey, hsame.origin, hsame.workflowId]
      rfl
    · rfl
  | createPipelineRun repoId workflowId versionId triggerType triggerRef commitSha origin id now _
      pipelineRuns _ _ =>
    rw [Database.pushKeys, Table.rows_insert? pipelineRuns, List.filterMap_append]
    cases origin with
    | push eventId refIndex => exact .inr ⟨_, rfl, rfl⟩
    | _ => exact .inl (List.append_nil _)

end

lemma newestVersions_nodup {db : Database} (h : db.Versioned) {W : WorkflowRow}
    (hW : W ∈ db.workflows.rows) : ((db.newestVersions W).map Workflow.id).Nodup := by
  obtain ⟨n, hn⟩ := h.numbers W hW
  have hversions : ((db.versionsOf W.id).map WorkflowVersionRow.version).Nodup := by
    rw [hn]
    exact List.nodup_range'
  -- Only one version has the largest number.
  have hsame {V V' : WorkflowVersionRow}
      (hV : V ∈ (db.versionsOf W.id).filter fun V => (db.versionsOf W.id).all (·.version ≤ V.version))
      (hV' : V' ∈ (db.versionsOf W.id).filter fun V => (db.versionsOf W.id).all (·.version ≤ V.version)) :
      V = V' := by
    obtain ⟨hmem, hmax⟩ := List.mem_filter.mp hV
    obtain ⟨hmem', hmax'⟩ := List.mem_filter.mp hV'
    have hle := of_decide_eq_true (List.all_eq_true.mp hmax V' hmem')
    have hle' := of_decide_eq_true (List.all_eq_true.mp hmax' V hmem)
    exact List.inj_on_of_nodup_map hversions hmem hmem' (Nat.le_antisymm hle' hle)
  have hnodup := (hversions.of_map _).filter fun V => (db.versionsOf W.id).all (·.version ≤ V.version)
  change (((db.versionsOf W.id).filter fun V => (db.versionsOf W.id).all (·.version ≤ V.version)).map
    _ |>.map Workflow.id).Nodup
  generalize (db.versionsOf W.id).filter _ = Vs at hsame hnodup
  cases Vs with
  | nil => exact List.nodup_nil
  | cons V Vs =>
    cases Vs with
    | nil => exact List.nodup_singleton _
    | cons V' Vs =>
      have hne := (List.nodup_cons.mp hnodup).1
      rw [hsame List.mem_cons_self (List.mem_cons_of_mem _ List.mem_cons_self)] at hne
      exact absurd List.mem_cons_self hne

lemma workflowsForRepo_nodup {db : Database} (h : db.Versioned) (repoId : Id) :
    ((db.workflowsForRepo repoId).map Workflow.id).Nodup := by
  have hperm := (List.perm_insertionSort (fun a b => Workflow.name a ≤ Workflow.name b)
    ((db.workflows.rows.filter (·.repoId = repoId)).flatMap db.newestVersions)).map Workflow.id
  refine (List.Perm.nodup_iff hperm).mpr ?_
  have hid {W : WorkflowRow} {workflow : Workflow} (hw : workflow ∈ db.newestVersions W) :
      workflow.id = W.id := by
    obtain ⟨V, -, rfl⟩ := List.mem_map.mp hw
    rfl
  rw [List.map_flatMap, List.nodup_flatMap]
  refine ⟨fun W hW => newestVersions_nodup h (List.mem_filter.mp hW).1, ?_⟩
  have hrows := List.pairwise_map.mp (db.workflows.unique.sublist
    ((List.filter_sublist (p := fun W => W.repoId = repoId)).map WorkflowRow.id))
  refine hrows.imp fun hne => List.disjoint_left.mpr fun id hid₁ hid₂ => ?_
  obtain ⟨workflow, hw, rfl⟩ := List.mem_map.mp hid₁
  obtain ⟨workflow', hw', heq⟩ := List.mem_map.mp hid₂
  exact hne ((hid hw).symm.trans (heq.symm.trans (hid hw')))

lemma listUnprocessedPushEvents_nodup (db : Database) :
    (db.listUnprocessedPushEvents.map PushEvent.id).Nodup := by
  have hperm := (List.perm_insertionSort (fun a b => PushEvent.receivedAt a ≤ PushEvent.receivedAt b)
    (db.pushEvents.rows.filter (·.processedAt.isNone))).map PushEvent.id
  rw [Database.listUnprocessedPushEvents, List.map_map]
  refine (List.Perm.nodup_iff hperm).mpr ?_
  exact db.pushEvents.unique.sublist (List.filter_sublist.map _)

end Janus.Server

namespace Janus.Web

open Janus.Concurrency Janus.Data Janus.Server

def SiteRole.isPass : SiteRole → Bool
  | .server r => r.scheduler
  | _ => false

def SiteCall.pushKey : SiteCall → Option PushKey
  | .server c => c.pushKey
  | _ => none

/-- No unprocessed event has a pipeline when a pass lists the events. -/
def Site.ListsFresh (s : Site) : SiteCall → Prop
  | .server (.query .listUnprocessedPushEvents) => ∀ event ∈ s.db.pushEvents.rows,
    event.processedAt = none → s.db.Lacks fun key => key.eventId = event.id
  | _ => True

structure Site.PushedOnce (s : Site) : Prop where
  versioned : s.db.Versioned
  keys : s.db.pushKeys.Nodup

def pushing (app : AppState) (r : SiteRole) : Discipline SiteCall SiteCall.Result String Site where
  rely s s' := r.isPass = true → ∀ K, s.db.Lacks K → s'.db.Lacks K
  inv := Site.PushedOnce
  admits c s a s' := (∃ o, c.exec app o s = (a, s')) ∧ s.ListsFresh c
  before c s := (r.isPass = false → c.pushKey = none) ∧ ∀ key ∈ c.pushKey, s.db.Lacks (· = key)

section

variable {app : AppState} {o : SiteOutcome} {s s' : Site} {K : PushKey → Prop}

lemma site_pushKeys {c : SiteCall} {a : Except String c.Result} (h : c.exec app o s = (a, s')) :
    s'.db.pushKeys = s.db.pushKeys ∨
      ∃ key, c.pushKey = some key ∧ s'.db.pushKeys = s.db.pushKeys ++ [key] := by
  have hsame (he : s'.db.pipelineRuns = s.db.pipelineRuns) : s'.db.pushKeys = s.db.pushKeys := by
    rw [Database.pushKeys, he]
    rfl
  cases site_effect h with
  | update u a _ writes _ => exact .inl (hsame writes.pipelines.1)
  | kept db _ _ => exact .inl (hsame (by rw [db]))
  | server c exec _ => exact exec_pushKeys exec

lemma lacks_exec {c : SiteCall} {a : Except String c.Result} (h : c.exec app o s = (a, s'))
    (hs : s.db.Lacks K) (hc : ∀ key ∈ c.pushKey, ¬ K key) : s'.db.Lacks K := by
  intro key hkey
  rcases site_pushKeys h with hkeys | ⟨key', hkey', hkeys⟩
  · rw [hkeys] at hkey
    exact hs key hkey
  · rw [hkeys] at hkey
    rcases List.mem_append.mp hkey with hkey | hkey
    · exact hs key hkey
    · obtain rfl := List.mem_singleton.mp hkey
      exact hc key hkey'

lemma Site.PushedOnce.exec {c : SiteCall} {a : Except String c.Result} (hs : s.PushedOnce)
    (h : c.exec app o s = (a, s')) (hc : ∀ key ∈ c.pushKey, s.db.Lacks (· = key)) : s'.PushedOnce := by
  refine ⟨site_exec_versioned h hs.versioned, ?_⟩
  rcases site_pushKeys h with hkeys | ⟨key, hkey, hkeys⟩
  · rw [hkeys]
    exact hs.keys
  · rw [hkeys]
    refine List.nodup_append.mpr ⟨hs.keys, List.nodup_singleton _, ?_⟩
    rintro a ha b hb rfl
    exact hc key hkey a ha (List.mem_singleton.mp hb)

end

section

variable {app : AppState} {r : SiteRole} {s : Site} {K K' : PushKey → Prop} {α β : Type}

lemma safe_of_ordinary {p : WebTask α} (hp : p.Only SiteCall.isOrdinary) (s : Site) :
    Safe (pushing app r) (fun _ _ => True) p s := by
  refine Safe.of_only (A := fun _ => True) (fun _ _ _ _ _ => trivial) (fun c s hc _ _ => ?_)
    (fun _ _ _ _ _ _ _ _ => trivial) hp trivial
  have hnone : c.pushKey = none := by
    cases c with
    | server c => exact Call.isOrdinary.pushKey hc
    | _ => rfl
  exact ⟨fun _ => hnone, by simp [hnone]⟩

/-- The program leaves the keys of `K` to later pipelines. -/
abbrev Keeping (app : AppState) (r : SiteRole) (K : PushKey → Prop) (p : Server.Task α) (s : Site) :
    Prop :=
  Safe (onServerDiscipline (pushing app r)) (fun _ s' => s'.db.Lacks K) p s

lemma Keeping.bind {p : Server.Task α} {f : α → Server.Task β} (hp : Keeping app r K p s)
    (hK : ∀ key, K' key → K key) (hf : ∀ a s, s.db.Lacks K → Keeping app r K' (f a) s) :
    Keeping app r K' (p >>= f) s := by
  refine Safe.bind (Safe.mono (fun x s' hx => ?_) hp)
  cases x with
  | ok a => exact hf a s' hx
  | error e => exact hx.mono hK

lemma Keeping.done {x : Except String α} (hs : s.db.Lacks K) : Keeping app r K (.done x) s := hs

/-- Each round of a loop takes its own keys. -/
lemma Keeping.forM {f : β → Server.Task PUnit} {κ : β → PushKey → Prop} {bs : List β}
    (hdisjoint : bs.Pairwise fun b b' => ∀ key, κ b key → ¬ κ b' key)
    (hK : ∀ b ∈ bs, ∀ key, κ b key → ¬ K key)
    (hf : ∀ b ∈ bs, ∀ (K : PushKey → Prop) s, (∀ key, κ b key → ¬ K key) →
      s.db.Lacks (fun key => κ b key ∨ K key) → Keeping app r K (f b) s)
    (hs : s.db.Lacks fun key => (∃ b ∈ bs, κ b key) ∨ K key) : Keeping app r K (bs.forM f) s := by
  induction bs generalizing s with
  | nil => exact hs.mono fun _ => .inr
  | cons b bs ih =>
    obtain ⟨hb, hbs⟩ := List.pairwise_cons.mp hdisjoint
    refine Keeping.bind (hf b List.mem_cons_self (fun key => (∃ b' ∈ bs, κ b' key) ∨ K key) s ?_ ?_)
      (fun _ => .inr) fun _ s' h => ?_
    · rintro key hkey (⟨b', hb', hkey'⟩ | hkey')
      · exact hb b' hb' key hkey hkey'
      · exact hK b List.mem_cons_self key hkey hkey'
    · refine hs.mono fun key hkey => ?_
      rcases hkey with hkey | ⟨b', hb', hkey⟩ | hkey
      · exact .inl ⟨b, List.mem_cons_self, hkey⟩
      · exact .inl ⟨b', List.mem_cons_of_mem _ hb', hkey⟩
      · exact .inr hkey
    · exact ih hbs (fun b' hb' => hK b' (List.mem_cons_of_mem _ hb'))
        (fun b' hb' => hf b' (List.mem_cons_of_mem _ hb')) h

section

variable (hr : r.isPass = true)

include hr

lemma lacks_stable (K : PushKey → Prop) (s s' : Site) (h : s.db.Lacks K)
    (hrely : (onServerDiscipline (pushing app r)).rely s s') : s'.db.Lacks K :=
  hrely hr K h

lemma Keeping.quiet {p : Server.Task α} (hp : p.Only fun c => c.pushKey = none) (hs : s.db.Lacks K) :
    Keeping app r K p s := by
  refine Safe.of_only (A := fun s => s.db.Lacks K) (fun s s' h hrely _ => lacks_stable hr K s s' h hrely)
    (fun c s hc _ _ => ?_) (fun c s x s' hc h _ ha => ?_) hp hs
  · exact ⟨fun _ => hc, by simp [SiteCall.pushKey, hc]⟩
  · obtain ⟨⟨o, ho⟩, -⟩ := ha
    exact lacks_exec ho h (by simp [SiteCall.pushKey, hc])

variable {event : PushEvent} {workflow : Workflow} {refIndex : ℕ}

lemma keeping_enqueue {triggerRef commitSha : Option String}
    (hK : ¬ K ⟨event.id, refIndex, workflow.id⟩)
    (hs : s.db.Lacks fun key => key = ⟨event.id, refIndex, workflow.id⟩ ∨ K key) :
    Keeping app r K
      (enqueueWorkflowRun workflow "push" triggerRef commitSha (.push event.id refIndex)) s := by
  refine Keeping.bind (Keeping.quiet hr (Program.Only.mono (fun _ => Call.isOrdinary.pushKey)
    (ordinary_footprint.queries (workflowSchemaReport_only workflow))) hs)
    (fun _ => .inr) fun report s₁ hs₁ => ?_
  split
  · exact hs₁.mono fun _ => .inr
  · refine Keeping.bind (Keeping.done hs₁) (fun _ => .inr) fun definition s₂ hs₂ => ?_
    refine Keeping.bind (Keeping.done hs₂) (fun _ => .inr) fun _ s₃ hs₃ => ?_
    refine Keeping.bind (K := K) ?_ (fun _ h => h) fun pipelineId s₄ hs₄ => ?_
    · refine Safe.request hs₃ (fun s s' h hrely _ => lacks_stable hr _ s s' h hrely)
        fun s' hs' _ => ⟨⟨fun hpass => ?_, fun key hkey => ?_⟩, fun x s'' ha => ?_⟩
      · cases hr.symm.trans hpass
      · obtain rfl := Option.some.inj hkey
        exact hs'.mono fun _ => .inl
      · obtain ⟨⟨o, ho⟩, -⟩ := ha
        refine lacks_exec ho (hs'.mono fun _ => .inr) fun key hkey => ?_
        obtain rfl := Option.some.inj hkey
        exact hK
    · refine Keeping.quiet hr (.bind (Server.only_call rfl) fun _ => ?_) hs₄
      exact .bind (createJobRuns_footprint (fun _ _ _ _ _ => rfl) (fun _ _ => rfl) _ _ _)
        fun _ => .pure _

lemma keeping_processPushRef {trigger : WorkflowTrigger} {entry : PushEventRef × ℕ}
    (hK : ¬ K ⟨event.id, entry.2, workflow.id⟩)
    (hs : s.db.Lacks fun key => key = ⟨event.id, entry.2, workflow.id⟩ ∨ K key) :
    Keeping app r K (processPushRef app event workflow trigger entry) s := by
  obtain ⟨ref, refIndex⟩ := entry
  simp only [processPushRef]
  split
  · refine Keeping.bind (Safe.attempt (keeping_enqueue hr hK hs)) (fun _ h => h) fun x s' hs' => ?_
    split
    · exact hs'
    · exact Safe.ite (fun _ => hs') fun _ => hs'
  · exact hs.mono fun _ => .inr

lemma keeping_processPushWorkflow
    (hK : ∀ key : PushKey, key.eventId = event.id ∧ key.workflowId = workflow.id → ¬ K key)
    (hs : s.db.Lacks fun key => (key.eventId = event.id ∧ key.workflowId = workflow.id) ∨ K key) :
    Keeping app r K (processPushWorkflow app event workflow) s := by
  refine Keeping.bind (Keeping.done hs) (fun _ => .inr) fun trigger s₁ hs₁ => ?_
  refine Safe.ite (fun _ => ?_) fun _ => hs₁.mono fun _ => .inr
  refine Keeping.forM (κ := fun (entry : PushEventRef × ℕ) key =>
    key = ⟨event.id, entry.2, workflow.id⟩) ?_ ?_ ?_ ?_
  · have hindices : event.refs.zipIdx.Pairwise fun a b => a.2 ≠ b.2 := by
      apply List.pairwise_map.mp
      rw [List.zipIdx_map_snd]
      exact List.nodup_range'
    refine hindices.imp fun hne => ?_
    rintro key rfl heq
    exact hne (congrArg PushKey.refIndex heq)
  · rintro entry - key rfl
    exact hK _ ⟨rfl, rfl⟩
  · rintro entry - K s hK hs
    exact keeping_processPushRef hr (hK _ rfl) hs
  · refine hs₁.mono fun key hkey => hkey.imp_left ?_
    rintro ⟨entry, -, rfl⟩
    exact ⟨rfl, rfl⟩

lemma keeping_processPushEvent (hK : ∀ key : PushKey, key.eventId = event.id → ¬ K key)
    (hs : s.db.Lacks fun key => key.eventId = event.id ∨ K key) :
    Keeping app r K (processPushEvent app event) s := by
  refine Safe.bind (Safe.request hs (fun s s' h hrely _ => lacks_stable hr _ s s' h hrely)
    fun s₁ hs₁ hi => ⟨⟨fun _ => rfl, fun _ h => by cases h⟩, fun x s₂ ha => ?_⟩)
  obtain ⟨⟨o, ho⟩, -⟩ := ha
  have hs₂ := lacks_exec ho hs₁ fun _ h => by cases h
  obtain ⟨-, ⟨e, rfl⟩ | rfl⟩ := exec_query (exec_server ho).1
  · exact hs₂.mono fun _ => .inr
  · refine Keeping.bind (Keeping.forM (K := K) (κ := fun (workflow : Workflow) key =>
      key.eventId = event.id ∧ key.workflowId = workflow.id) ?_ ?_ ?_ ?_) (fun _ h => h) fun _ s₃ hs₃ => ?_
    · have hids := List.pairwise_map.mp ((workflowsForRepo_nodup hi.versioned event.repoId).sublist
        ((List.filter_sublist (p := fun workflow => workflow.enabled)).map Workflow.id))
      refine hids.imp fun hne => ?_
      rintro key ⟨-, hid⟩ ⟨-, hid'⟩
      exact hne (hid.symm.trans hid')
    · rintro workflow - key ⟨hid, -⟩
      exact hK key hid
    · rintro workflow - K s hK hs
      exact keeping_processPushWorkflow hr hK hs
    · refine hs₂.mono fun key hkey => hkey.imp_left ?_
      rintro ⟨workflow, -, hid, -⟩
      exact hid
    · exact Keeping.quiet hr (Server.only_call rfl) hs₃

theorem keeping_processPushEvents (s : Site) :
    Keeping app r (fun _ => False) (processPushEvents app) s := by
  refine Safe.bind (Safe.request (P := fun _ => True) trivial (fun _ _ _ _ _ => trivial)
    fun s₁ _ hi => ⟨⟨fun _ => rfl, fun _ h => by cases h⟩, fun x s₂ ha => ?_⟩)
  obtain ⟨⟨o, ho⟩, hfresh⟩ := ha
  obtain ⟨hstore, ⟨e, rfl⟩ | rfl⟩ := exec_query (exec_server ho).1
  · exact fun _ _ => id
  · refine Keeping.forM (κ := fun (event : PushEvent) key => key.eventId = event.id) ?_ ?_ ?_ ?_
    · refine (List.pairwise_map.mp (listUnprocessedPushEvents_nodup s₁.db)).imp fun hne => ?_
      intro key hid hid'
      exact hne (hid.symm.trans hid')
    · exact fun _ _ _ _ => id
    · rintro event - K s hK hs
      exact keeping_processPushEvent hr hK hs
    · rintro key hkey (⟨_, hlisted, hid⟩ | hfalse)
      · obtain ⟨event, hevent, rfl⟩ := List.mem_map.mp hlisted
        obtain ⟨hmem, hunprocessed⟩ := List.mem_filter.mp ((List.mem_insertionSort _).mp hevent)
        rw [hstore] at hkey
        exact hfresh event hmem (Option.isNone_iff_eq_none.mp hunprocessed) key hkey hid
      · exact hfalse

lemma keeping_pushRole (role : Role) (hrole : role.scheduler = true) (s : Site) :
    Keeping app r (fun _ => False) (role.program app) s := by
  have hplain {p : Server.Task Unit} (hp : p.Only Call.isOrdinary) (s : Site) :
      Keeping app r (fun _ => False) p s :=
    Keeping.quiet hr (Program.Only.mono (fun _ => Call.isOrdinary.pushKey) hp) fun _ _ => id
  have hfoot := ordinary_footprint
  have hrecovery (s : Site) := hplain hfoot.recoverIncompletePipelines s
  have hdispatch (s : Site) := hplain (p := dispatchPendingJobs app)
    (hfoot.dispatchPendingJobs (fun _ _ _ _ _ => trivial) fun _ _ _ => trivial) s
  have hpoll (s : Site) := hplain (p := pollRunningJobs app) hfoot.pollRunningJobs s
  cases role with
  | recovery => exact hrecovery s
  | pushEvents => exact keeping_processPushEvents hr s
  | dispatch => exact hdispatch s
  | poll => exact hpoll s
  | reconcile =>
    exact Keeping.bind (hrecovery s) (fun _ => id) fun _ s _ =>
      Keeping.bind (keeping_processPushEvents hr s) (fun _ => id) fun _ s _ =>
        Keeping.bind (hdispatch s) (fun _ => id) fun _ s _ => hpoll s
  | cancel pipelineId => cases hrole
  | enqueue number workflow triggerType triggerRef commitSha selections => cases hrole

end

theorem safe_siteProgram {web : WebState} (r : SiteRole) (s : Site) :
    Safe (pushing web.toAppState r) (fun _ _ => True) (r.program web) s := by
  cases r with
  | server role =>
    cases hrole : role.scheduler with
    | true =>
      exact Safe.mono (fun _ _ _ => trivial) (safe_onServer (keeping_pushRole (r := .server role) hrole role hrole s))
    | false =>
      refine safe_of_ordinary (only_onServer ?_) s
      cases role with
      | cancel pipelineId => exact ordinary_footprint.cancelPipeline pipelineId
      | enqueue number workflow triggerType triggerRef commitSha selections =>
        have horigin (eventId : Id) (refIndex : ℕ) : Origin.request number ≠ .push eventId refIndex :=
          fun h => by cases h
        exact .bind ((ordinary_enqueue horigin).enqueue _ _ _ _ _) fun _ => .pure _
      | _ => cases hrole
  | _ => exact safe_of_ordinary (siteProgram_ordinary fun _ h => by cases h) s

end

/-- No pass lists an event that is unprocessed but has pipelines already. -/
def FreshPasses (p : SitePool) (e : SiteEvent) : Prop := ∀ c ∈ p.call? e, p.store.ListsFresh c

lemma pass_beside {r r' : SiteRole} (h : r.beside r' = true ∨ r'.beside r = true)
    (hr' : r'.isPass = true) : r.isPass = false := by
  cases r with
  | server role =>
    cases r' with
    | server role' => exact not_scheduler_beside h hr'
    | _ => cases hr'
  | _ => rfl

theorem pushingOutline (app : WebState) :
    System.Outline (site app) FreshPasses Site.PushedOnce (fun r => pushing app.toAppState r)
      fun _ _ _ => True where
  inv_eq _ := rfl
  trans _ _ _ _ h h' hr K hs := h' hr K (h hr K hs)
  post_stable _ _ _ _ _ _ := trivial
  refl _ _ := fun _ _ h => h
  start p r _ _ := safe_siteProgram r p.store
  admits p i o r c next _ hok ht _ := ⟨⟨o, rfl⟩, hok c (by simp only [Pool.call?, ht]; rfl)⟩
  keeps r s s' hi := by
    rintro ⟨c, a, ⟨-, hlacks⟩, ⟨o, ho⟩, -⟩
    exact hi.exec ho hlacks
  compat p i o r c next r' _ _ _ _ hbeside := by
    rintro ⟨hquiet, -⟩ ⟨⟨o, ho⟩, -⟩ hr' K hs
    exact lacks_exec ho hs (by simp [hquiet (pass_beside hbeside hr')])
  environ p v _ hi := by
    cases v with
    | runEnds runId => exact ⟨⟨hi.versioned, hi.keys⟩, fun _ _ _ h => h⟩
  crash _ _ hi := hi

/-- For each enabled workflow that its repository had at one time since it was stored, and each ref that
the workflow's branches match, the event has one pipeline with all its jobs, unless the workflow's schema
is incompatible. -/
def Annals.YieldedOnce (app : AppState) (x : Annals) (event : PushEvent) : Prop :=
  ∃ s ∈ x.2, s.db.HasEvent event.id ∧ ∀ workflow ∈ s.db.workflowsForRepo event.repoId,
    workflow.enabled = true → ∃ trigger, workflow.triggerJson = .ok trigger ∧ (trigger.kind = "push" →
      ∀ refIndex ref, event.sortedRefs[refIndex]? = some ref →
        matchesBranch app trigger.branches ref.refName = true →
          ((∃ P ∈ x.1.db.pipelineRuns.rows, P.Serves workflow event.id refIndex ref ∧
              x.1.db.Built P workflow) ∧
            x.1.db.pushKeys.count ⟨event.id, refIndex, workflow.id⟩ = 1) ∨
          x.Refuses app event.id workflow)

lemma Annals.Handled.yieldedOnce {app : AppState} {x : Annals} {event : PushEvent}
    (h : x.Handled app event) (hkeys : x.1.db.pushKeys.Nodup) : x.YieldedOnce app event := by
  obtain ⟨s, hs, hknown, hdone⟩ := h
  refine ⟨s, hs, hknown, fun workflow hworkflow henabled => ?_⟩
  obtain ⟨trigger, htrigger, hserved⟩ := hdone workflow hworkflow henabled
  refine ⟨trigger, htrigger, fun hkind refIndex ref href hmatch => ?_⟩
  refine (hserved hkind refIndex ref href hmatch).imp_left fun hbuilt => ⟨hbuilt, ?_⟩
  obtain ⟨P, hP, hserves, -⟩ := hbuilt
  refine List.count_eq_one_of_mem hkeys (List.mem_filterMap.mpr ⟨P, hP, ?_⟩)
  rw [PipelineRun.pushKey, hserves.origin, hserves.workflowId]
  rfl

/-- Where each pass meets unprocessed events without pipelines, an event has at most one pipeline for
each workflow and ref in every state, and exactly one for those that wanted it once it is processed. -/
theorem push_events_once {app : WebState} {p q : SitePool} {es : List SiteEvent}
    (hidle : p.tasks = []) (hversioned : p.store.db.Versioned)
    (hevents : ∀ event ∈ p.store.db.pushEvents.rows, event.processedAt = none)
    (hpipelines : ∀ P ∈ p.store.db.pipelineRuns.rows, ∀ eventId refIndex,
      P.origin ≠ .push eventId refIndex)
    (hok : (site app).Along (fun p e => FreshPasses p e ∧ SiteEvent.Unmarked e) es p)
    (hrun : (site app).run es p = some q) :
    q.store.db.pushKeys.Nodup ∧ ∃ past : List Site, (∀ s ∈ past, Earlier app p es s) ∧
      ∀ event ∈ q.store.db.pushEvents.rows, event.processedAt.isSome →
        Annals.YieldedOnce app.toAppState (q.store, past) event := by
  have hnone : p.store.db.pushKeys = [] := by
    refine List.filterMap_eq_nil_iff.mpr fun P hP => ?_
    rw [PipelineRun.pushKey]
    cases horigin : P.origin with
    | push eventId refIndex => exact absurd horigin (hpipelines P hP eventId refIndex)
    | _ => rfl
  have hstart : System.Sound (site app) Site.PushedOnce (fun r => pushing app.toAppState r)
      (fun _ _ _ => True) p := by
    refine ⟨⟨hversioned, hnone ▸ List.nodup_nil⟩, ?_, ?_⟩ <;> rw [hidle]
    · exact fun _ ht => absurd ht List.not_mem_nil
    · exact .nil
  have hsound := (hok.mono fun _ _ h => h.1).invariant
    (fun _ _ _ hs hok ha => hs.apply (pushingOutline app) hok ha) hstart hrun
  have hkeys : q.store.db.pushKeys.Nodup := hsound.1.keys
  obtain ⟨past, hpast, hdelivered⟩ := delivered_run hidle hevents hpipelines
    (hok.mono fun _ _ h => h.2) hrun
  exact ⟨hkeys, past, hpast, fun event hevent hprocessed =>
    (hdelivered.processed event hevent hprocessed).yieldedOnce hkeys⟩

instance (db : Database) (K : PushKey → Prop) [DecidablePred K] : Decidable (db.Lacks K) :=
  inferInstanceAs (Decidable (∀ key ∈ db.pushKeys, ¬ K key))

instance (s : Site) (c : SiteCall) : Decidable (s.ListsFresh c) := by
  unfold Site.ListsFresh
  split <;> infer_instance

instance (p : SitePool) (e : SiteEvent) : Decidable (FreshPasses p e) :=
  inferInstanceAs (Decidable (∀ c ∈ p.call? e, _))

/-- A pass that takes the event `4` to its pipeline `uuid`, up to the mark. -/
def enqueuedAs (uuid : Id) : List SiteEvent :=
  .start (.server .pushEvents) :: (List.replicate 4 (.step 0 {}) ++
    [.step 0 { uuid }, .step 0 {}, .step 0 { uuid := uuid + 10, dispatchKey := uuid + 10 }])

def pushReceived : List SiteEvent :=
  [.start (.postReceive 1 "a b refs/heads/main"), .step 0 { uuid := 4 }, .finish 0]

/-- The first pass is cut off while it reads the schemas. -/
def cutOffEarly : List SiteEvent :=
  pushReceived ++ [.start (.server .pushEvents), .step 0 {}, .step 0 {}, .crash] ++ enqueuedAs 1 ++
    [.step 0 { now := 5 }, .finish 0]

theorem push_events_once_cut_off :
    ∃ q, (site sampleSite).run cutOffEarly pushedSite = some q ∧
      q.store.db.pushEvents.rows.map (fun event => (event.id, event.processedAt)) = [(4, some 5)] ∧
      q.store.db.pushKeys = [⟨4, 0, 1⟩] ∧ ∃ past : List Site,
        (∀ s ∈ past, Earlier sampleSite pushedSite cutOffEarly s) ∧
          ∀ event ∈ q.store.db.pushEvents.rows, event.processedAt.isSome →
            Annals.YieldedOnce sampleSite.toAppState (q.store, past) event := by
  have hversioned : pushedSite.store.db.Versioned := by
    refine ⟨fun W hW => ⟨0, ?_⟩, by decide, by decide⟩
    obtain rfl := List.mem_singleton.mp hW
    rfl
  have hok : (site sampleSite).Along (fun p e => FreshPasses p e ∧ SiteEvent.Unmarked e) cutOffEarly
      pushedSite := by decide +kernel
  have hrun : ((site sampleSite).run cutOffEarly pushedSite).any (fun q =>
      q.store.db.pushEvents.rows.map (fun event => (event.id, event.processedAt)) = [(4, some 5)] ∧
        q.store.db.pushKeys = [⟨4, 0, 1⟩]) = true := by decide +kernel
  obtain ⟨q, hq, hend⟩ := (Option.any_eq_true _ _).mp hrun
  obtain ⟨hevents, hkeys⟩ := of_decide_eq_true hend
  obtain ⟨-, hyielded⟩ := push_events_once rfl hversioned (fun _ h => absurd h List.not_mem_nil)
    (fun _ h => absurd h List.not_mem_nil) hok hq
  exact ⟨q, hq, hevents, hkeys, hyielded⟩

/-- `mark_push_event_processed` fails once, and the next pass enqueues the event again. -/
def markRefused : List SiteEvent :=
  pushReceived ++ enqueuedAs 1 ++ [.step 0 { fault := .refused "database is locked" }, .finish 0] ++
    enqueuedAs 2 ++ [.step 0 { now := 5 }, .finish 0]

theorem pushed_again :
    (pushedSite.tasks = [] ∧ pushedSite.store.db.pushEvents.rows = [] ∧
      pushedSite.store.db.pipelineRuns.rows = []) ∧
    (∃ q, (site sampleSite).run markRefused pushedSite = some q ∧
      q.store.db.pushEvents.rows.map (fun event => (event.id, event.processedAt)) = [(4, some 5)] ∧
      q.store.db.pushKeys = [⟨4, 0, 1⟩, ⟨4, 0, 1⟩] ∧ ¬ q.store.db.pushKeys.Nodup) ∧
    ∃ q, (site sampleSite).run pushedTwice pushedSite = some q ∧
      q.store.db.pushKeys = [⟨4, 0, 1⟩, ⟨4, 0, 1⟩] ∧ ¬ q.store.db.pushKeys.Nodup := by
  refine ⟨⟨rfl, rfl, rfl⟩, ?_, ?_⟩
  · have hrun : ((site sampleSite).run markRefused pushedSite).any (fun q =>
        q.store.db.pushEvents.rows.map (fun event => (event.id, event.processedAt)) = [(4, some 5)] ∧
          q.store.db.pushKeys = [⟨4, 0, 1⟩, ⟨4, 0, 1⟩]) = true := by decide +kernel
    obtain ⟨q, hq, hend⟩ := (Option.any_eq_true _ _).mp hrun
    obtain ⟨hevents, hkeys⟩ := of_decide_eq_true hend
    exact ⟨q, hq, hevents, hkeys, hkeys ▸ by decide⟩
  · have hrun : ((site sampleSite).run pushedTwice pushedSite).any (fun q =>
        q.store.db.pushKeys = [⟨4, 0, 1⟩, ⟨4, 0, 1⟩]) = true := by decide +kernel
    obtain ⟨q, hq, hend⟩ := (Option.any_eq_true _ _).mp hrun
    have hkeys := of_decide_eq_true hend
    exact ⟨q, hq, hkeys, hkeys ▸ by decide⟩

end Janus.Web
