import Janus.Concurrency.Chronicle
import Janus.Server.Refusals
import Janus.Web.Disciplines
import Janus.Web.Triggers
import Janus.Web.Versions

/-! What becomes of push events: a processed event has been enqueued for every workflow that wanted
it, and pipelines of pushes run what an event asked for. -/

namespace Janus.Server

open Janus.Concurrency Janus.Data

/-- `list_unprocessed_push_events` reads the refs of an event in this order. -/
def PushEvent.sortedRefs (event : PushEvent) : List PushEventRef :=
  Database.orderBy PushEventRef.refName event.refs

structure PipelineRun.SameOrder (P P' : PipelineRun) : Prop where
  id : P'.id = P.id
  repoId : P'.repoId = P.repoId
  workflowId : P'.workflowId = P.workflowId
  version : P'.workflowVersionId = P.workflowVersionId
  triggerType : P'.triggerType = P.triggerType
  triggerRef : P'.triggerRef = P.triggerRef
  commitSha : P'.commitSha = P.commitSha
  origin : P'.origin = P.origin

structure PipelineRun.Serves (P : PipelineRun) (workflow : Workflow) (eventId : Id) (refIndex : ℕ)
    (ref : PushEventRef) : Prop where
  repoId : P.repoId = workflow.repoId
  workflowId : P.workflowId = workflow.id
  version : P.workflowVersionId = workflow.versionId
  triggerType : P.triggerType = "push"
  triggerRef : P.triggerRef = some ref.refName
  commitSha : P.commitSha = some ref.newRev
  origin : P.origin = .push eventId refIndex

def Database.HasJobFor (db : Database) (pipelineId : Id) (job : WorkflowJobDefinition) (jobIndex : ℕ) :
    Prop :=
  ∃ J ∈ db.jobRuns.rows, J.pipelineRunId = pipelineId ∧ J.jobIndex = jobIndex ∧
    J.runnerId = job.runnerId ∧ J.runnerJobName = job.runnerJobName

def Database.HasEvent (db : Database) (eventId : Id) : Prop :=
  ∃ event ∈ db.pushEvents.rows, event.id = eventId

def Database.Built (db : Database) (P : PipelineRun) (workflow : Workflow) : Prop :=
  ∃ definition, workflow.definitionJson = .ok definition ∧
    ∀ jobIndex job, definition.jobs[jobIndex]? = some job → db.HasJobFor P.id job jobIndex

section

variable {P P' P'' : PipelineRun}

lemma PipelineRun.SameOrder.rfl : P.SameOrder P :=
  ⟨.refl _, .refl _, .refl _, .refl _, .refl _, .refl _, .refl _, .refl _⟩

lemma PipelineRun.SameOrder.trans (h : P.SameOrder P') (h' : P'.SameOrder P'') : P.SameOrder P'' :=
  ⟨h'.id.trans h.id, h'.repoId.trans h.repoId, h'.workflowId.trans h.workflowId,
    h'.version.trans h.version, h'.triggerType.trans h.triggerType, h'.triggerRef.trans h.triggerRef,
    h'.commitSha.trans h.commitSha, h'.origin.trans h.origin⟩

lemma PipelineUpdate.row_sameOrder (db : Database) (now : Timestamp) (id : Id) (u : PipelineUpdate)
    (P : PipelineRun) : P.SameOrder (u.row db now id P) := by
  cases u <;> exact ⟨rfl, rfl, rfl, rfl, rfl, rfl, rfl, rfl⟩

lemma PipelineRun.Serves.sameOrder {workflow : Workflow} {eventId : Id} {refIndex : ℕ}
    {ref : PushEventRef} (h : P.Serves workflow eventId refIndex ref) (hs : P.SameOrder P') :
    P'.Serves workflow eventId refIndex ref :=
  ⟨hs.repoId.trans h.repoId, hs.workflowId.trans h.workflowId, hs.version.trans h.version,
    hs.triggerType.trans h.triggerType, hs.triggerRef.trans h.triggerRef,
    hs.commitSha.trans h.commitSha, hs.origin.trans h.origin⟩

def Call.isOrdinary : Call → Prop
  | .markPushEventProcessed _ => False
  | .insert (.createPipelineRun _ _ _ _ _ _ (.push _ _)) => False
  | _ => True

lemma ordinary_footprint : WatchFootprint Call.isOrdinary where
  query _ := trivial
  cancelRun _ _ := trivial
  pipelineRun _ _ := trivial
  cancelRequested _ _ := trivial
  canceled _ := trivial
  transfer c hc := by
    cases c with
    | markPushEventProcessed id => exact hc.elim
    | insert i =>
      cases i with
      | createPipelineRun _ _ _ _ _ _ _ => exact hc.elim
      | _ => trivial
    | _ => trivial
  blocked _ := trivial
  missing _ := trivial
  fail _ _ _ _ _ _ := trivial
  requeue _ := trivial
  finish _ _ _ _ _ _ _ _ _ _ _ := trivial
  status _ _ := trivial
  retry _ := trivial
  exhausted _ := trivial

lemma ordinary_enqueue {origin : Origin} (h : ∀ eventId refIndex, origin ≠ .push eventId refIndex) :
    EnqueueFootprint Call.isOrdinary origin where
  toBaseFootprint := ordinary_footprint.toBaseFootprint
  create _ _ _ _ _ _ := by
    cases origin with
    | push eventId refIndex => exact h eventId refIndex rfl
    | _ => trivial
  select _ _ := trivial
  job _ _ _ _ _ := trivial
  edge _ _ := trivial

end

end Janus.Server

namespace Janus.Web

open Janus.Concurrency Janus.Data Janus.Server

namespace Annals

variable (app : AppState) (x : Annals)

def Met (eventId : Id) (c : Call) (a : Except String c.Result) : Prop :=
  ∃ s ∈ x.2, s.db.HasEvent eventId ∧ ∃ o : Outcome, o.Unmarked ∧ (c.exec app o s.toStore).1 = a

def Refuses (eventId : Id) (workflow : Workflow) : Prop :=
  (∃ report, (workflowSchemaReport workflow).ReturnsBy (x.Met app eventId) (.ok report) ∧
    report.status = .incompatible) ∨
      ∃ e, workflow.definitionJson = .error e ∧ contains e incompatibleMark = true

def Served (event : PushEvent) (workflow : Workflow) (refIndex : ℕ) (ref : PushEventRef) : Prop :=
  (∃ P ∈ x.1.db.pipelineRuns.rows, P.Serves workflow event.id refIndex ref ∧
    x.1.db.Built P workflow) ∨ x.Refuses app event.id workflow

def Done (event : PushEvent) (workflow : Workflow) : Prop :=
  ∃ trigger, workflow.triggerJson = .ok trigger ∧ (trigger.kind = "push" →
    ∀ refIndex ref, event.sortedRefs[refIndex]? = some ref →
      matchesBranch app trigger.branches ref.refName = true → x.Served app event workflow refIndex ref)

def Handled (event : PushEvent) : Prop :=
  ∃ s ∈ x.2, s.db.HasEvent event.id ∧ ∀ workflow ∈ s.db.workflowsForRepo event.repoId,
    workflow.enabled = true → x.Done app event workflow

def Wanted (P : PipelineRun) (eventId : Id) (refIndex : ℕ) : Prop :=
  ∃ event ∈ x.1.db.pushEvents.rows, event.id = eventId ∧
    ∃ s ∈ x.2, s.db.HasEvent eventId ∧ ∃ workflow ref trigger,
      workflow ∈ s.db.workflowsForRepo event.repoId ∧ workflow.enabled = true ∧
      workflow.triggerJson = .ok trigger ∧ trigger.kind = "push" ∧
      matchesBranch app trigger.branches ref.refName = true ∧
      event.sortedRefs[refIndex]? = some ref ∧ P.Serves workflow eventId refIndex ref

structure Delivered : Prop where
  processed : ∀ event ∈ x.1.db.pushEvents.rows, event.processedAt.isSome → x.Handled app event
  wanted : ∀ P ∈ x.1.db.pipelineRuns.rows, ∀ eventId refIndex, P.origin = .push eventId refIndex →
    x.Wanted app P eventId refIndex

structure Grows (x x' : Annals) : Prop where
  past : ∀ s ∈ x.2, s ∈ x'.2
  pipelines : ∀ P ∈ x.1.db.pipelineRuns.rows, ∃ P' ∈ x'.1.db.pipelineRuns.rows, P.SameOrder P'
  jobs : ∀ J ∈ x.1.db.jobRuns.rows, ∃ J' ∈ x'.1.db.jobRuns.rows, J.Same J'
  events : KeepsEvents x.1.db x'.1.db

def Permits : SiteCall → Prop
  | .server (.markPushEventProcessed id) => ∀ event ∈ x.1.db.pushEvents.rows, event.id = id →
    x.Handled app event
  | .server (.insert (.createPipelineRun repoId workflowId versionId triggerType triggerRef commitSha
      (.push eventId refIndex))) =>
    ∀ id now, x.Wanted app (Database.newPipelineRun id now repoId workflowId versionId triggerType
      triggerRef commitSha (.push eventId refIndex)) eventId refIndex
  | _ => True

end Annals

section

variable {app : AppState} {x x' x'' : Annals}

lemma Annals.Grows.rfl : x.Grows x :=
  ⟨fun _ h => h, fun P hP => ⟨P, hP, .rfl⟩, fun J hJ => ⟨J, hJ, .rfl⟩, .of_eq (.refl _)⟩

lemma Annals.Grows.trans (h : x.Grows x') (h' : x'.Grows x'') : x.Grows x'' := by
  refine ⟨fun s hs => h'.past s (h.past s hs), fun P hP => ?_, fun J hJ => ?_, fun event hevent => ?_⟩
  · obtain ⟨P', hP', hsame⟩ := h.pipelines P hP
    obtain ⟨P'', hP'', hsame'⟩ := h'.pipelines P' hP'
    exact ⟨P'', hP'', hsame.trans hsame'⟩
  · obtain ⟨J', hJ', hsame⟩ := h.jobs J hJ
    obtain ⟨J'', hJ'', hsame'⟩ := h'.jobs J' hJ'
    exact ⟨J'', hJ'', hsame.trans hsame'⟩
  · obtain ⟨processedAt, h₁⟩ := h.events event hevent
    obtain ⟨processedAt', h₂⟩ := h'.events _ h₁
    exact ⟨processedAt', h₂⟩

lemma lasts_hasEvent {eventId : Id} : Lasts Annals.Grows fun (x : Annals) => x.1.db.HasEvent eventId := by
  rintro x x' ⟨event, hevent, hid⟩ hx
  obtain ⟨processedAt, hevent'⟩ := hx.events event hevent
  exact ⟨_, hevent', hid⟩

lemma lasts_met {eventId : Id} (c : Call) (a : Except String c.Result) :
    Lasts Annals.Grows fun (x : Annals) => x.Met app eventId c a := by
  rintro x x' ⟨s, hs, hanswer⟩ hx
  exact ⟨s, hx.past s hs, hanswer⟩

lemma lasts_refuses {eventId : Id} {workflow : Workflow} :
    Lasts Annals.Grows fun (x : Annals) => x.Refuses app eventId workflow := by
  rintro x x' (⟨report, hreport, hstatus⟩ | herror) hx
  · exact .inl ⟨report, hreport.mono fun c a h => lasts_met c a x x' h hx, hstatus⟩
  · exact .inr herror

lemma lasts_hasJobFor {pipelineId : Id} {job : WorkflowJobDefinition} {jobIndex : ℕ} :
    Lasts Annals.Grows fun (x : Annals) => x.1.db.HasJobFor pipelineId job jobIndex := by
  rintro x x' ⟨J, hJ, hpipeline, hindex, hrunner, hname⟩ hx
  obtain ⟨J', hJ', hsame⟩ := hx.jobs J hJ
  exact ⟨J', hJ', hsame.pipelineRunId.trans hpipeline, hsame.jobIndex.trans hindex,
    hsame.runnerId.trans hrunner, hsame.runnerJobName.trans hname⟩

lemma Annals.Grows.built {P P' : PipelineRun} {workflow : Workflow} (hx : x.Grows x')
    (h : x.1.db.Built P workflow) (hid : P'.id = P.id) : x'.1.db.Built P' workflow := by
  obtain ⟨definition, hdefinition, hjobs⟩ := h
  refine ⟨definition, hdefinition, fun jobIndex job hjob => ?_⟩
  rw [hid]
  exact lasts_hasJobFor x x' (hjobs jobIndex job hjob) hx

lemma lasts_served {event : PushEvent} {workflow : Workflow} {refIndex : ℕ} {ref : PushEventRef} :
    Lasts Annals.Grows fun (x : Annals) => x.Served app event workflow refIndex ref := by
  rintro x x' (⟨P, hP, hserves, hbuilt⟩ | hrefuses) hx
  · obtain ⟨P', hP', hsame⟩ := hx.pipelines P hP
    exact .inl ⟨P', hP', hserves.sameOrder hsame, hx.built hbuilt hsame.id⟩
  · exact .inr (lasts_refuses x x' hrefuses hx)

lemma lasts_done {event : PushEvent} {workflow : Workflow} :
    Lasts Annals.Grows fun (x : Annals) => x.Done app event workflow := by
  rintro x x' ⟨trigger, htrigger, hrefs⟩ hx
  exact ⟨trigger, htrigger, fun hkind refIndex ref href hmatch =>
    lasts_served x x' (hrefs hkind refIndex ref href hmatch) hx⟩

lemma lasts_handled {event : PushEvent} : Lasts Annals.Grows fun (x : Annals) => x.Handled app event := by
  rintro x x' ⟨s, hs, hknown, hall⟩ hx
  exact ⟨s, hx.past s hs, hknown, fun workflow hworkflow henabled =>
    lasts_done x x' (hall workflow hworkflow henabled) hx⟩

lemma lasts_wanted {P : PipelineRun} {eventId : Id} {refIndex : ℕ} :
    Lasts Annals.Grows fun (x : Annals) => x.Wanted app P eventId refIndex := by
  rintro x x' ⟨event, hevent, hid, s, hs, hwants⟩ hx
  obtain ⟨processedAt, hevent'⟩ := hx.events event hevent
  exact ⟨_, hevent', hid, s, hx.past s hs, hwants⟩

lemma Annals.Wanted.sameOrder {P P' : PipelineRun} {eventId : Id} {refIndex : ℕ}
    (h : x.Wanted app P eventId refIndex) (hs : P.SameOrder P') : x.Wanted app P' eventId refIndex := by
  obtain ⟨event, hevent, hid, s, hs', hknown, workflow, ref, trigger, hlisted, henabled, htrigger, hkind,
    hmatch, href, hserves⟩ := h
  exact ⟨event, hevent, hid, s, hs', hknown, workflow, ref, trigger, hlisted, henabled, htrigger, hkind,
    hmatch, href, hserves.sameOrder hs⟩

end

section

variable {app : AppState} {o : SiteOutcome} {x x' : Annals}

inductive NewPipeline (db db' : Database) : SiteCall → PipelineRun → Prop
  | old {c : SiteCall} {P P' : PipelineRun} (stored : P ∈ db.pipelineRuns.rows) (same : P.SameOrder P') :
      NewPipeline db db' c P'
  | created (repoId workflowId versionId : Id) (triggerType : String)
      (triggerRef commitSha : Option String) (origin : Origin) (id : Id) (now : Timestamp) :
      NewPipeline db db' (.server (.insert (.createPipelineRun repoId workflowId versionId triggerType
        triggerRef commitSha origin))) (Database.newPipelineRun id now repoId workflowId versionId
          triggerType triggerRef commitSha origin)

lemma pipelines_exec {s s' : Site} {c : SiteCall} {a : Except String c.Result}
    (h : c.exec app o s = (a, s')) :
    (∀ P ∈ s.db.pipelineRuns.rows, ∃ P' ∈ s'.db.pipelineRuns.rows, P.SameOrder P') ∧
      ∀ P' ∈ s'.db.pipelineRuns.rows, NewPipeline s.db s'.db c P' := by
  have hsame (he : s'.db.pipelineRuns = s.db.pipelineRuns) :
      (∀ P ∈ s.db.pipelineRuns.rows, ∃ P' ∈ s'.db.pipelineRuns.rows, P.SameOrder P') ∧
        ∀ P' ∈ s'.db.pipelineRuns.rows, NewPipeline s.db s'.db c P' :=
    ⟨fun P hP => ⟨P, he ▸ hP, .rfl⟩, fun P hP => .old (he ▸ hP) .rfl⟩
  cases site_effect h with
  | update u a _ writes _ => exact hsame writes.pipelines.1
  | kept db _ _ => exact hsame (by rw [db])
  | server c exec _ =>
    cases exec_effect exec with
    | untouched tables _ => exact hsame tables.pipelineRuns
    | jobRun _ _ _ _ _ pipelineRuns _ => exact hsame pipelineRuns
    | createJobRun _ _ _ _ _ _ _ _ _ _ pipelineRuns _ _ => exact hsame pipelineRuns
    | addPreviousJob _ _ _ _ _ pipelineRuns _ _ => exact hsame pipelineRuns
    | pipelineRun id u now _ pipelineRuns _ =>
      refine ⟨fun P hP => ?_, fun P' hP' => ?_⟩
      · rw [pipelineRuns]
        by_cases hid : P.id = id
        · exact ⟨_, Table.mem_modify.mpr ⟨P, hP, .inl ⟨hid, rfl⟩⟩, u.row_sameOrder _ now id P⟩
        · exact ⟨P, Table.mem_modify.mpr ⟨P, hP, .inr ⟨hid, rfl⟩⟩, .rfl⟩
      · rw [pipelineRuns, Table.mem_modify] at hP'
        obtain ⟨P, hP, ⟨-, rfl⟩ | ⟨-, rfl⟩⟩ := hP'
        · exact .old hP (u.row_sameOrder _ now id P)
        · exact .old hP .rfl
    | createPipelineRun repoId workflowId versionId triggerType triggerRef commitSha origin id now _
        pipelineRuns _ _ =>
      have hrows := Table.rows_insert? pipelineRuns
      refine ⟨fun P hP => ⟨P, hrows ▸ List.mem_append_left _ hP, .rfl⟩, fun P' hP' => ?_⟩
      rw [hrows] at hP'
      rcases List.mem_append.mp hP' with hP' | hP'
      · exact .old hP' .rfl
      · obtain rfl := List.mem_singleton.mp hP'
        exact .created repoId workflowId versionId triggerType triggerRef commitSha origin id now

theorem grows_exec {c : SiteCall} {a : Except String c.Result} (hpast : x'.2 = x.1 :: x.2)
    (h : c.exec app o x.1 = (a, x'.1)) : x.Grows x' where
  past _ hs := hpast ▸ List.mem_cons_of_mem _ hs
  pipelines := (pipelines_exec h).1
  jobs := (site_exec_retains h).jobRuns
  events := (site_events h).1

lemma WebUpdate.Writes.processed {u : WebUpdate} {db db' : Database} (h : u.Writes o db db') :
    ∀ event ∈ db'.pushEvents.rows, event.processedAt.isSome → event ∈ db.pushEvents.rows := by
  cases h with
  | createPushEvent repoId key refs pushEvents _ rows =>
    intro event hevent hprocessed
    rw [Table.rows_insert? rows] at hevent
    rcases List.mem_append.mp hevent with hevent | hevent
    · exact hevent
    · obtain rfl := List.mem_singleton.mp hevent
      cases hprocessed
  | updateRunner _ _ _ _ _ frame =>
    rw [frame]
    exact fun _ h _ => h
  | _ => exact fun _ h _ => h

lemma processed_exec {s s' : Site} {c : SiteCall} {a : Except String c.Result}
    (h : c.exec app o s = (a, s')) : ∀ event' ∈ s'.db.pushEvents.rows, event'.processedAt.isSome →
      ∃ event ∈ s.db.pushEvents.rows, ∃ processedAt, event' = { event with processedAt } ∧
        (event.processedAt.isSome ∨ c = .server (.markPushEventProcessed event.id)) := by
  have hsame (he : s'.db.pushEvents = s.db.pushEvents) : ∀ event' ∈ s'.db.pushEvents.rows,
      event'.processedAt.isSome → ∃ event ∈ s.db.pushEvents.rows, ∃ processedAt,
        event' = { event with processedAt } ∧
          (event.processedAt.isSome ∨ c = .server (.markPushEventProcessed event.id)) :=
    fun event hevent hprocessed => ⟨event, he ▸ hevent, event.processedAt, rfl, .inl hprocessed⟩
  cases site_effect h with
  | kept db _ _ => exact hsame (by rw [db])
  | server c exec _ =>
    rcases exec_marks exec with he | ⟨id, rfl, hmodify⟩
    · exact hsame he
    · intro event' hevent' hprocessed
      rw [hmodify, Table.mem_modify] at hevent'
      obtain ⟨event, hevent, ⟨rfl, rfl⟩ | ⟨-, rfl⟩⟩ := hevent'
      · exact ⟨event, hevent, some o.now, rfl, .inr rfl⟩
      · exact ⟨_, hevent, _, rfl, .inl hprocessed⟩
  | update u a _ writes _ =>
    exact fun event hevent hprocessed =>
      ⟨event, writes.processed event hevent hprocessed, event.processedAt, rfl, .inl hprocessed⟩

theorem delivered_exec {c : SiteCall} {a : Except String c.Result} (hx : x.Delivered app)
    (hpermits : x.Permits app c) (hpast : x'.2 = x.1 :: x.2) (h : c.exec app o x.1 = (a, x'.1)) :
    x'.Delivered app := by
  have hgrows := grows_exec hpast h
  refine ⟨fun event' hevent' hprocessed => ?_, fun P' hP' eventId refIndex horigin => ?_⟩
  · obtain ⟨event, hevent, processedAt, rfl, hbefore⟩ := processed_exec h event' hevent' hprocessed
    have hhandled : x.Handled app event := by
      rcases hbefore with hbefore | rfl
      · exact hx.processed event hevent hbefore
      · exact hpermits event hevent rfl
    exact lasts_handled x x' hhandled hgrows
  · cases (pipelines_exec h).2 P' hP' with
    | old stored same =>
      have hwanted := hx.wanted _ stored eventId refIndex (same.origin.symm.trans horigin)
      exact lasts_wanted x x' (hwanted.sameOrder same) hgrows
    | created repoId workflowId versionId triggerType triggerRef commitSha origin id now =>
      obtain rfl : origin = .push eventId refIndex := horigin
      exact lasts_wanted x x' (hpermits id now) hgrows

end

def delivering (app : AppState) : Discipline SiteCall SiteCall.Result String Annals where
  rely := Annals.Grows
  inv := Annals.Delivered app
  admits c x a x' := (∃ o : SiteOutcome, o.toOutcome.Unmarked ∧ c.exec app o x.1 = (a, x'.1)) ∧
    x'.2 = x.1 :: x.2
  before c x := x.Permits app c

def SiteCall.isOrdinary : SiteCall → Prop
  | .server c => c.isOrdinary
  | _ => True

lemma siteOrdinary : SiteFootprint SiteCall.isOrdinary where
  read _ := trivial
  query _ := trivial
  update _ _ := trivial
  catalog _ _ _ := trivial

section

variable {app : AppState} {x : Annals}

lemma permits_of_ordinary {c : SiteCall} (h : c.isOrdinary) : x.Permits app c := by
  cases c with
  | server c =>
    cases c with
    | markPushEventProcessed id => exact h.elim
    | insert i =>
      cases i with
      | createPipelineRun _ _ _ _ _ _ origin =>
        cases origin with
        | push _ _ => exact h.elim
        | _ => trivial
      | _ => trivial
    | _ => trivial
  | _ => trivial

lemma delivering_chronicled :
    Chronicled (delivering app) (SiteCall.Leads app) SiteCall.isOrdinary Annals.Grows where
  rely _ _ h := h
  before _ _ h := permits_of_ordinary h
  exec _ _ _ _ h := by
    obtain ⟨⟨o, -, ho⟩, hpast⟩ := h
    exact ⟨⟨o, ho⟩, hpast⟩
  admits _ _ _ _ _ h := by
    obtain ⟨⟨o, -, ho⟩, hpast⟩ := h
    exact grows_exec hpast ho

lemma delivering_onServer : Chronicled (onServerDiscipline (delivering app)) (Call.Leads app)
    Call.isOrdinary Annals.Grows :=
  chronicled_onServer delivering_chronicled

lemma gives_createJobRuns {pipelineId : Id} {jobs : List (WorkflowJobDefinition × ℕ)}
    {previous : Option Id} :
    Gives (onServerDiscipline (delivering app))
      (fun _ x => ∀ entry ∈ jobs, x.1.db.HasJobFor pipelineId entry.1 entry.2)
      (createJobRuns pipelineId jobs previous) x := by
  induction jobs generalizing x previous with
  | nil => exact .pure fun _ h => absurd h List.not_mem_nil
  | cons entry jobs ih =>
    refine .bind (Q := fun _ (x : Annals) => x.1.db.HasJobFor pipelineId entry.1 entry.2)
      (delivering_onServer.call (A := fun _ => True) (fun _ _ _ _ => trivial)
        (fun _ _ => trivial) ?_ trivial) fun runId x₁ hx₁ =>
      .bind (Q := fun _ (x : Annals) => x.1.db.HasJobFor pipelineId entry.1 entry.2) ?_ fun _ x₂ hx₂ => ?_
    · rintro x a x' _ _ ⟨o, ho⟩ _
      cases exec_effect ho with
      | untouched _ refused =>
        obtain ⟨e, he⟩ := refused rfl
        cases he
      | createJobRun _ _ _ _ _ id key _ _ jobRuns _ _ _ =>
        exact ⟨_, Table.rows_insert? jobRuns ▸ List.mem_append_right _ (List.mem_singleton_self _),
          rfl, rfl, rfl, rfl⟩
    · cases previous with
      | none => exact .pure hx₁
      | some previous => exact delivering_onServer.only lasts_hasJobFor (Server.only_call trivial) hx₁
    · exact .mono (fun _ x h => List.forall_mem_cons.mpr h.symm)
        (delivering_onServer.frame lasts_hasJobFor ih hx₂)

variable {event : PushEvent} {workflow : Workflow} {refIndex : ℕ} {ref : PushEventRef}

def Annals.Asked (app : AppState) (x : Annals) (event : PushEvent) (workflow : Workflow) (refIndex : ℕ)
    (ref : PushEventRef) : Prop :=
  ∀ id now, x.Wanted app (Database.newPipelineRun id now workflow.repoId workflow.id workflow.versionId
    "push" (some ref.refName) (some ref.newRev) (.push event.id refIndex)) event.id refIndex

lemma lasts_asked : Lasts Annals.Grows fun (x : Annals) => x.Asked app event workflow refIndex ref :=
  fun x x' h hx id now => lasts_wanted x x' (h id now) hx

lemma lasts_serves {pipelineId : Id} : Lasts Annals.Grows fun (x : Annals) => ∃ P ∈ x.1.db.pipelineRuns.rows,
    P.id = pipelineId ∧ P.Serves workflow event.id refIndex ref := by
  rintro x x' ⟨P, hP, hid, hserves⟩ hx
  obtain ⟨P', hP', hsame⟩ := hx.pipelines P hP
  exact ⟨P', hP', hsame.id.trans hid, hserves.sameOrder hsame⟩

lemma gives_enqueuePush (hx : x.Asked app event workflow refIndex ref) :
    Gives (onServerDiscipline (delivering app)) (fun _ x => ∃ P ∈ x.1.db.pipelineRuns.rows,
      P.Serves workflow event.id refIndex ref ∧ x.1.db.Built P workflow)
      (enqueueWorkflowRun workflow "push" (some ref.refName) (some ref.newRev) (.push event.id refIndex))
      x := by
  refine .bind (delivering_onServer.only lasts_asked
    (ordinary_footprint.queries (workflowSchemaReport_only workflow)) hx) fun report x₁ hx₁ => ?_
  split
  · exact .fail
  · refine .bind (Q := fun definition (x : Annals) => x.Asked app event workflow refIndex ref ∧
      workflow.definitionJson = .ok definition) (.done fun _ hd => ⟨hx₁, hd⟩)
      fun definition x₂ hx₂ => ?_
    refine .bind (Q := fun _ (x : Annals) => x.Asked app event workflow refIndex ref) (.done fun _ _ => hx₂.1)
      fun _ x₃ hx₃ => ?_
    refine .bind (delivering_onServer.call (c := .insert (.createPipelineRun workflow.repoId
      workflow.id workflow.versionId "push" (some ref.refName) (some ref.newRev)
      (.push event.id refIndex))) (Q := fun (pipelineId : Id) (x : Annals) => ∃ P ∈ x.1.db.pipelineRuns.rows,
        P.id = pipelineId ∧ P.Serves workflow event.id refIndex ref) lasts_asked (fun _ h => h) ?_ hx₃)
      fun pipelineId x₄ hx₄ => ?_
    · rintro x pipelineId x' _ _ ⟨o, ho⟩ _
      cases exec_effect ho with
      | untouched _ refused =>
        obtain ⟨e, he⟩ := refused rfl
        cases he
      | createPipelineRun _ _ _ _ _ _ _ id now _ pipelineRuns _ answer =>
        obtain rfl := Except.ok.inj answer
        exact ⟨_, Table.rows_insert? pipelineRuns ▸ List.mem_append_right _ (List.mem_singleton_self _),
          rfl, rfl, rfl, rfl, rfl, rfl, rfl, rfl⟩
    · refine .bind (delivering_onServer.only lasts_serves (Server.only_call trivial) hx₄)
        fun _ x₅ hx₅ => ?_
      refine .bind (delivering_onServer.frame lasts_serves gives_createJobRuns hx₅)
        fun _ x₆ hx₆ => .pure ?_
      obtain ⟨hjobs, P, hP, rfl, hserves⟩ := hx₆
      refine ⟨P, hP, hserves, definition, hx₂.2, fun jobIndex job hjob => hjobs (job, jobIndex) ?_⟩
      exact List.mem_zipIdx_iff_getElem?.mpr hjob

lemma unmarked_met {eventId : Id} : UnmarkedErrors (x.Met app eventId) := by
  rintro c e hc ⟨s, -, -, o, ho, hanswer⟩
  exact exec_unmarked ho hc hanswer

theorem safe_enqueuePush (hx : x.Asked app event workflow refIndex ref) :
    Safe (onServerDiscipline (delivering app)) (fun r x => (∀ a, r = .ok a →
      x.Served app event workflow refIndex ref) ∧ ∀ e, r = .error e →
        contains e incompatibleMark = true → x.Served app event workflow refIndex ref)
      (enqueueWorkflowRun workflow "push" (some ref.refName) (some ref.newRev) (.push event.id refIndex))
      x := by
  have hevent : x.1.db.HasEvent event.id := by
    obtain ⟨event', hmem, hid, -⟩ := hx 0 0
    exact ⟨event', hmem, hid⟩
  have hgives := gives_enqueuePush hx
  have hreturns := Safe.returnsBy (A := fun (x : Annals) => x.1.db.HasEvent event.id)
    (M := fun (x : Annals) => x.Met app event.id) (fun x x' hs hr => ⟨lasts_hasEvent x x' hs hr,
      fun c a h => lasts_met c a x x' h hr⟩) (fun c x a x' hs hb ha => ?_) hgives hevent
  · refine Safe.mono ?_ (hgives.and hreturns)
    rintro r x' ⟨hok, -, hreturns⟩
    refine ⟨fun a ha => .inl (hok a ha), ?_⟩
    rintro e rfl he
    refine .inr ((enqueue_refused unmarked_met he hreturns).imp_right fun h => ⟨e, h, he⟩)
  · have hgrows := delivering_chronicled.admits (.server c) x a x' hb ha
    refine ⟨lasts_hasEvent x x' hs hgrows, ?_, fun c' a' h => lasts_met c' a' x x' h hgrows⟩
    obtain ⟨⟨o, ho, hexec⟩, hpast⟩ := ha
    exact ⟨x.1, hpast ▸ List.mem_cons_self, hs, o.toOutcome, ho, congrArg Prod.fst (exec_server hexec).1⟩

def Annals.Stores (x : Annals) (event : PushEvent) : Prop :=
  ∃ processedAt, { event with processedAt } ∈ x.1.db.pushEvents.rows

lemma lasts_stores : Lasts Annals.Grows fun (x : Annals) => x.Stores event := by
  rintro x x' ⟨processedAt, hevent⟩ hx
  obtain ⟨processedAt', hevent'⟩ := hx.events _ hevent
  exact ⟨processedAt', hevent'⟩

lemma Annals.Stores.hasEvent (h : x.Stores event) : x.1.db.HasEvent event.id := by
  obtain ⟨processedAt, hevent⟩ := h
  exact ⟨_, hevent, rfl⟩

def Annals.Reads (x : Annals) (event : PushEvent) (s : Site) : Prop :=
  x.Stores event ∧ s ∈ x.2 ∧ s.db.HasEvent event.id

variable {s : Site}

lemma lasts_reads : Lasts Annals.Grows fun (x : Annals) => x.Reads event s :=
  fun x x' h hx => ⟨lasts_stores x x' h.1 hx, hx.past s h.2.1, h.2.2⟩

section

variable (hlisted : workflow ∈ s.db.workflowsForRepo event.repoId) (henabled : workflow.enabled = true)

include hlisted henabled

lemma gives_processPushRef {trigger : WorkflowTrigger} (htrigger : workflow.triggerJson = .ok trigger)
    (hkind : trigger.kind = "push") (href : event.sortedRefs[refIndex]? = some ref)
    (hx : x.Reads event s) :
    Gives (onServerDiscipline (delivering app)) (fun _ x =>
      matchesBranch app trigger.branches ref.refName = true → x.Served app event workflow refIndex ref)
      (processPushRef app { event with refs := event.sortedRefs } workflow trigger (ref, refIndex)) x := by
  simp only [processPushRef]
  split
  · next hmatch =>
    have hasked : x.Asked app event workflow refIndex ref := by
      obtain ⟨⟨processedAt, hevent⟩, hs, hknown⟩ := hx
      intro id now
      exact ⟨_, hevent, rfl, s, hs, hknown, workflow, ref, trigger, hlisted, henabled, htrigger, hkind,
        hmatch, href, rfl, rfl, rfl, rfl, rfl, rfl, rfl⟩
    refine .bind (.attempt (safe_enqueuePush hasked)) fun r x' hr => ?_
    split
    · exact .pure fun _ => hr.1 _ rfl
    · exact .ite (fun he => .pure fun _ => hr.2 _ rfl he) fun _ => .fail
  · next hmatch => exact .pure fun h => absurd h hmatch

lemma gives_processPushWorkflow (hx : x.Reads event s) :
    Gives (onServerDiscipline (delivering app)) (fun _ x => x.Done app event workflow)
      (processPushWorkflow app { event with refs := event.sortedRefs } workflow) x := by
  refine .bind (Q := fun trigger (x : Annals) => x.Reads event s ∧ workflow.triggerJson = .ok trigger)
    (.done fun _ htrigger => ⟨hx, htrigger⟩) fun trigger x₁ hx₁ => ?_
  obtain ⟨hreads, htrigger⟩ := hx₁
  refine .ite (fun hkind => ?_) fun hkind => .pure ⟨trigger, htrigger, fun h => absurd h hkind⟩
  refine .mono ?_ (delivering_onServer.forM (Q := fun entry (x : Annals) =>
    matchesBranch app trigger.branches entry.1.refName = true →
      x.Served app event workflow entry.2 entry.1) lasts_reads ?_ ?_ hreads)
  · intro _ x hserved
    refine ⟨trigger, htrigger, fun _ refIndex ref href => hserved (ref, refIndex) ?_⟩
    exact List.mem_zipIdx_iff_getElem?.mpr href
  · exact fun entry x x' h hx hmatch => lasts_served x x' (h hmatch) hx
  · rintro ⟨ref, refIndex⟩ hentry x hx
    exact gives_processPushRef hlisted henabled htrigger hkind (List.mem_zipIdx_iff_getElem?.mp hentry) hx

end

lemma gives_processPushEvent (hx : x.Stores event) :
    Gives (onServerDiscipline (delivering app)) (fun _ _ => True)
      (processPushEvent app { event with refs := event.sortedRefs }) x := by
  refine .bind (delivering_onServer.call (c := .query (.workflowsForRepo event.repoId))
    (Q := fun (workflows : List Workflow) (x : Annals) =>
      ∃ s, workflows = s.db.workflowsForRepo event.repoId ∧ x.Reads event s)
    lasts_stores (fun _ _ => trivial) ?_ hx) fun workflows x₁ hx₁ => ?_
  · rintro x workflows x' hknown hstored ⟨o, ho⟩ hpast
    obtain ⟨-, ⟨e, he⟩ | hanswer⟩ := exec_query ho
    · cases he
    · exact ⟨x.1, Except.ok.inj hanswer, hstored, hpast ▸ List.mem_cons_self, hknown.hasEvent⟩
  · obtain ⟨s, rfl, hreads⟩ := hx₁
    refine .bind (delivering_onServer.frame lasts_reads (delivering_onServer.forM
      (Q := fun workflow (x : Annals) => x.Done app event workflow) lasts_reads (fun _ => lasts_done) ?_ hreads)
      hreads) fun _ x₂ hx₂ => ?_
    · intro workflow hworkflow x hx
      obtain ⟨hlisted, henabled⟩ := List.mem_filter.mp hworkflow
      exact gives_processPushWorkflow hlisted henabled hx
    · obtain ⟨hdone, hstored, hs, hknown⟩ := hx₂
      have hhandled : x₂.Handled app event := ⟨s, hs, hknown, fun workflow hlisted henabled =>
        hdone workflow (List.mem_filter.mpr ⟨hlisted, henabled⟩)⟩
      refine delivering_onServer.call (A := fun (x : Annals) => x.Stores event ∧ x.Handled app event)
        (fun x x' h hx => ⟨lasts_stores x x' h.1 hx, lasts_handled x x' h.2 hx⟩) ?_
        (fun _ _ _ _ _ _ _ => trivial) ⟨hstored, hhandled⟩
      rintro x ⟨⟨processedAt, hevent⟩, hhandled⟩ event' hevent' hid
      obtain rfl := Table.eq_of_mem hevent' hevent hid
      exact hhandled

theorem gives_pushEvents :
    Gives (onServerDiscipline (delivering app)) (fun _ _ => True) (processPushEvents app) x := by
  refine .bind (delivering_onServer.call (c := .query .listUnprocessedPushEvents)
    (A := fun _ => True) (Q := fun (events : List PushEvent) (x : Annals) => ∀ e ∈ events, ∃ event : PushEvent,
      e = { event with refs := event.sortedRefs } ∧ x.Stores event)
    (fun _ _ _ _ => trivial) (fun _ _ => trivial) ?_ trivial) fun events x₁ hx₁ => ?_
  · rintro x events x' _ _ ⟨o, ho⟩ _ e he
    obtain ⟨hs, ⟨e, he⟩ | hanswer⟩ := exec_query ho
    · cases he
    · obtain rfl := Except.ok.inj hanswer
      obtain ⟨event, hevent, rfl⟩ := List.mem_map.mp he
      have hmem := (List.mem_filter.mp ((List.mem_insertionSort _).mp hevent)).1
      refine ⟨event, rfl, event.processedAt, ?_⟩
      rw [hs]
      exact hmem
  · refine .mono (fun _ _ _ => trivial) (delivering_onServer.forM (Q := fun _ _ => True)
      (A := fun (x : Annals) => ∀ e ∈ events, ∃ event : PushEvent,
        e = { event with refs := event.sortedRefs } ∧ x.Stores event)
      ?_ (fun _ _ _ _ _ => trivial) ?_ hx₁)
    · intro x x' h hx e he
      obtain ⟨event, rfl, hstored⟩ := h e he
      exact ⟨event, rfl, lasts_stores x x' hstored hx⟩
    · intro e he x hx
      obtain ⟨event, rfl, hstored⟩ := hx e he
      exact gives_processPushEvent hstored

lemma gives_pushRole (role : Role) :
    Gives (onServerDiscipline (delivering app)) (fun _ _ => True) (role.program app) x := by
  have hplain {p : Server.Task Unit} (hp : p.Only Call.isOrdinary) (x : Annals) :
      Gives (onServerDiscipline (delivering app)) (fun _ _ => True) p x :=
    delivering_onServer.runs hp
  have hfoot := ordinary_footprint
  have hrecovery (x : Annals) := hplain hfoot.recoverIncompletePipelines x
  have hdispatch (x : Annals) := hplain (p := dispatchPendingJobs app)
    (hfoot.dispatchPendingJobs (fun _ _ _ _ _ => trivial) fun _ _ _ => trivial) x
  have hpoll (x : Annals) := hplain (p := pollRunningJobs app) hfoot.pollRunningJobs x
  cases role with
  | recovery => exact hrecovery x
  | pushEvents => exact gives_pushEvents
  | dispatch => exact hdispatch x
  | poll => exact hpoll x
  | reconcile =>
    exact .bind (hrecovery x) fun _ x _ => .bind gives_pushEvents fun _ x _ =>
      .bind (hdispatch x) fun _ x _ => hpoll x
  | cancel pipelineId => exact delivering_onServer.runs (hfoot.cancelPipeline pipelineId)
  | enqueue number workflow triggerType triggerRef commitSha selections =>
    have horigin (eventId : Id) (refIndex : ℕ) : Origin.request number ≠ .push eventId refIndex := nofun
    exact delivering_onServer.runs
      (.bind ((ordinary_enqueue horigin).enqueue _ _ _ _ _) fun _ => .pure _)

lemma siteProgram_ordinary {web : WebState} {r : SiteRole} (hr : ∀ role, r ≠ .server role) :
    (r.program web).Only SiteCall.isOrdinary := by
  have h := siteOrdinary
  have henqueue (workflow triggerType triggerRef commitSha selections origin)
      (horigin : ∀ eventId refIndex, origin ≠ Origin.push eventId refIndex) :
      (onServer (enqueueWorkflowRunWithArtifacts workflow triggerType triggerRef commitSha selections
        origin)).Only SiteCall.isOrdinary :=
    only_onServer ((ordinary_enqueue horigin).enqueue _ _ _ _ _)
  cases r with
  | server role => exact absurd rfl (hr role)
  | refreshRunnerHealth => exact h.refreshRunnerHealth
  | postReceive repoId refsRaw => exact only_call trivial
  | triggerRepo sender repoId branch commit =>
    exact .bind (verifyCsrf_only _ _) fun _ => .bind (h.authorizedRepo _ _) fun _ =>
      .bind (.done _) fun _ => internalError_only (only_call trivial)
  | createRunner sender name baseUrl => exact h.createRunner web sender name baseUrl
  | toggleRunner sender runnerId => exact h.toggleRunner web sender runnerId
  | updateRunner sender runnerId name baseUrl => exact h.updateRunner web sender runnerId name baseUrl
  | testRunner sender runnerId => exact h.testRunner web sender runnerId
  | createWorkflow sender repoId parsed => exact h.createWorkflow web sender repoId parsed
  | updateWorkflow sender workflowId repoId parsed =>
    exact h.updateWorkflow web sender workflowId repoId parsed
  | runWorkflow number sender workflowId branch commit artifactSelections =>
    exact h.runWorkflow web henqueue number sender workflowId branch commit artifactSelections
  | rerunPipeline number sender pipelineId =>
    exact h.rerunPipeline web henqueue number sender pipelineId

theorem gives_siteProgram {web : WebState} (r : SiteRole) :
    Gives (delivering web.toAppState) (fun _ _ => True) (r.program web) x := by
  cases r with
  | server role => exact gives_onServer (gives_pushRole role)
  | _ => exact delivering_chronicled.runs (siteProgram_ordinary fun _ h => by cases h)

end

def SiteEvent.Unmarked : SiteEvent → Prop
  | .step _ o => o.toOutcome.Unmarked
  | _ => True

instance (e : SiteEvent) : Decidable e.Unmarked :=
  match e with
  | .step _ o => inferInstanceAs (Decidable o.toOutcome.Unmarked)
  | .start _ | .finish _ | .crash | .environment _ => isTrue trivial

theorem deliveringOutline (app : WebState) :
    System.Outline ((site app).chronicle fun _ _ => true) (fun _ e => SiteEvent.Unmarked e)
      (Annals.Delivered app.toAppState) (fun _ => delivering app.toAppState) fun _ _ _ => True where
  inv_eq _ := rfl
  trans _ _ _ _ h h' := h.trans h'
  post_stable _ _ _ _ _ _ := trivial
  refl _ _ := .rfl
  start p r _ _ := Safe.mono (fun _ _ _ => trivial) (gives_siteProgram r)
  admits p i o r c next _ hok _ _ := ⟨⟨o, hok, rfl⟩, rfl⟩
  keeps r x x' hx := by
    rintro ⟨c, a, hpermits, ⟨o, -, ho⟩, hpast⟩
    exact delivered_exec hx hpermits hpast ho
  compat p i o r c next r' _ _ _ _ _ _ := by
    rintro ⟨⟨o, -, ho⟩, hpast⟩
    exact grows_exec hpast ho
  environ p v _ hx := by
    cases v with
    | runEnds runId => exact ⟨⟨hx.processed, hx.wanted⟩, fun _ => ⟨fun _ h => h, fun P hP => ⟨P, hP, .rfl⟩,
        fun J hJ => ⟨J, hJ, .rfl⟩, .of_eq rfl⟩⟩
  crash _ _ hx := hx

lemma delivered_run {app : WebState} {p q : SitePool} {es : List SiteEvent}
    (hidle : p.tasks = []) (hevents : ∀ event ∈ p.store.db.pushEvents.rows, event.processedAt = none)
    (hpipelines : ∀ P ∈ p.store.db.pipelineRuns.rows, ∀ eventId refIndex,
      P.origin ≠ .push eventId refIndex)
    (hok : (site app).Along (fun _ e => SiteEvent.Unmarked e) es p)
    (hrun : (site app).run es p = some q) :
    ∃ past : List Site, (∀ s ∈ past, Earlier app p es s) ∧
      Annals.Delivered app.toAppState (q.store, past) := by
  have hapart : (site app).Along (fun p e => System.StartsApart (fun _ _ => true) p e ∧
      SiteEvent.Unmarked e) es p :=
    hok.mono fun p e h => ⟨fun _ _ _ _ => rfl, h⟩
  obtain ⟨past, hrun', halong, hpast⟩ := System.chronicle_run_nil hapart hrun
  have hdelivered : Annals.Delivered app.toAppState (p.store, []) := by
    refine ⟨fun event hevent hprocessed => ?_, fun P hP eventId refIndex horigin => ?_⟩
    · rw [hevents event hevent] at hprocessed
      cases hprocessed
    · exact absurd horigin (hpipelines P hP eventId refIndex)
  have hstart : System.Sound ((site app).chronicle fun _ _ => true) (Annals.Delivered app.toAppState)
      (fun _ => delivering app.toAppState) (fun _ _ _ => True) (p.remembering []) := by
    refine ⟨hdelivered, ?_, ?_⟩ <;> simp only [Pool.remembering, hidle]
    · exact fun _ ht => absurd ht List.not_mem_nil
    · exact .nil
  have hsound := halong.invariant
    (fun p e p' hs hok ha => hs.apply (deliveringOutline app) hok ha) hstart hrun'
  exact ⟨past, hpast, hsound.1⟩

/-- From a site that has dealt with no push event, in every run: an event that is marked as processed has
been enqueued, for each enabled workflow that its repository had at a time since it was stored and each
ref that the workflow's branches match, as a pipeline with all its jobs, unless answers that calls could
have been given since then make the workflow's schema incompatible; and a pipeline of a push runs a
workflow that wanted it, on the ref that was pushed. -/
theorem push_events_delivered {app : WebState} {p q : SitePool} {es : List SiteEvent}
    (hidle : p.tasks = []) (hevents : ∀ event ∈ p.store.db.pushEvents.rows, event.processedAt = none)
    (hpipelines : ∀ P ∈ p.store.db.pipelineRuns.rows, ∀ eventId refIndex,
      P.origin ≠ .push eventId refIndex)
    (hok : (site app).Along (fun _ e => SiteEvent.Unmarked e) es p)
    (hrun : (site app).run es p = some q) :
    ∃ past : List Site, (∀ s ∈ past, Earlier app p es s) ∧
      Annals.Delivered app.toAppState (q.store, past) :=
  delivered_run hidle hevents hpipelines hok hrun

def pushedSite : SitePool := sampleSitePool (sampleDatabase 1 .empty .empty .empty)

def pushedTwice : List SiteEvent :=
  [.start (.postReceive 1 "a b refs/heads/main"), .step 0 { uuid := 4 }, .finish 0,
    .start (.server .pushEvents), .step 0 {}, .step 0 {}, .step 0 {}, .step 0 {}, .step 0 { uuid := 1 },
    .crash, .start (.server .pushEvents), .step 0 {}, .step 0 {}, .step 0 {}, .step 0 {},
    .step 0 { uuid := 2 }, .step 0 {}, .step 0 { uuid := 10, dispatchKey := 10 }, .step 0 { now := 5 },
    .finish 0]

theorem push_events_delivered_twice :
    ∃ q, (site sampleSite).run pushedTwice pushedSite = some q ∧
      q.store.db.pushEvents.rows.map (fun event => (event.id, event.processedAt)) = [(4, some 5)] ∧
      q.store.db.pipelineRuns.rows.map (fun P => (P.id, P.origin)) = [(1, .push 4 0), (2, .push 4 0)] ∧
      ∃ past : List Site, (∀ s ∈ past, Earlier sampleSite pushedSite pushedTwice s) ∧
        Annals.Delivered sampleSite.toAppState (q.store, past) := by
  have hok : (site sampleSite).Along (fun _ e => SiteEvent.Unmarked e) pushedTwice pushedSite := by
    decide +kernel
  have hrun : ((site sampleSite).run pushedTwice pushedSite).any (fun q =>
      q.store.db.pushEvents.rows.map (fun event => (event.id, event.processedAt)) = [(4, some 5)] ∧
        q.store.db.pipelineRuns.rows.map (fun P => (P.id, P.origin)) =
          [(1, .push 4 0), (2, .push 4 0)]) = true := by decide +kernel
  obtain ⟨q, hq, hend⟩ := (Option.any_eq_true _ _).mp hrun
  obtain ⟨hevents, hpipelines⟩ := of_decide_eq_true hend
  exact ⟨q, hq, hevents, hpipelines, push_events_delivered rfl (fun _ h => absurd h List.not_mem_nil)
    (fun _ h => absurd h List.not_mem_nil) hok hq⟩

end Janus.Web
