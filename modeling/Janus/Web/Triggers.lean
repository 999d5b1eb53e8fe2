import Janus.Web.Footprint

/-! Which of the triggers that are accepted get a push event of their own. -/

namespace Janus.Web

open Janus.Concurrency Janus.Data Janus.Server

def SiteRole.triggers : SiteRole → Bool
  | .postReceive _ _ => true
  | .triggerRepo _ _ _ _ => true
  | _ => false

def SiteRole.Asks (repos : Table Repo.id) (repoId : Id) (refs : List PushEventRef) : SiteRole → Prop
  | .postReceive id refsRaw => id = repoId ∧ readPushRefs refsRaw = refs
  | .triggerRepo _ id branch commit => id = repoId ∧
    ∃ repo, repos.find? id = some repo ∧ manualTriggerRefs repo branch commit = .ok refs
  | _ => False

def SitePool.accepts (app : WebState) (p : SitePool) (e : SiteEvent) : Bool :=
  match (site app).result? p e with
  | some (r, .ok _) => r.triggers
  | _ => false

def SitePool.eventKey? (p : SitePool) (e : SiteEvent) : Option String :=
  match p.call? e with
  | some (.update (.createPushEvent _ eventKey _)) => some eventKey
  | _ => none

def acceptedKeys (app : WebState) : List SiteEvent → SitePool → List String
  | [], _ => []
  | e :: es, p =>
    match (site app).apply p e with
    | none => []
    | some p' =>
      (if p.accepts app e then (p.eventKey? e).toList else []) ++ acceptedKeys app es p'

def OwnEvent (app : WebState) (p : SitePool) (e : SiteEvent) (p' : SitePool) : Prop :=
  ∃ row ∈ p'.store.db.pushEvents.rows, row.processedAt = none ∧
    (∀ old ∈ p.store.db.pushEvents.rows, old.id ≠ row.id) ∧
    row.eventKey = eventKey app.toAppState row.repoId row.refs ∧
    ∃ r, (site app).result? p e = some (r, .ok ()) ∧ r.Asks p.store.db.repos row.repoId row.refs

def NoTriggerLost (app : WebState) (es : List SiteEvent) (p : SitePool) : Prop :=
  (site app).Along (fun p e => SitePool.accepts app p e = true →
    ∀ p', (site app).apply p e = some p' → OwnEvent app p e p') es p

/-- Every stored event stays, with all but the mark that it is processed. -/
def KeepsEvents (db db' : Database) : Prop :=
  ∀ row ∈ db.pushEvents.rows, ∃ processedAt, { row with processedAt } ∈ db'.pushEvents.rows

/-- A trigger with a new key gets an event of its own; one with the key of a stored event is left to
that event. -/
def Taken (app : WebState) (p : SitePool) (e : SiteEvent) (p' : SitePool) : Prop :=
  ∃ key, p.eventKey? e = some key ∧
    if key ∈ p.store.db.eventKeys then p'.store.db.pushEvents = p.store.db.pushEvents
    else OwnEvent app p e p'

def FreshEventId (p : SitePool) (e : SiteEvent) : Prop :=
  match e with
  | .step _ o => (p.eventKey? e).isSome → ∀ row ∈ p.store.db.pushEvents.rows, row.id ≠ o.uuid
  | _ => True

section

variable {app : WebState} {o : SiteOutcome} {s s' : Site} {p p' : SitePool} {e : SiteEvent}

lemma KeepsEvents.of_eq {db db' : Database} (h : db'.pushEvents = db.pushEvents) :
    KeepsEvents db db' := by
  intro row hrow
  exact ⟨row.processedAt, h ▸ hrow⟩

lemma keepsEvents_modify {db db' : Database} {id : Id} {now : Timestamp}
    (h : db'.pushEvents =
      db.pushEvents.modify id (fun event => { event with processedAt := some now }) fun _ => rfl) :
    KeepsEvents db db' ∧ db'.eventKeys = db.eventKeys := by
  constructor
  · intro row hrow
    by_cases hid : row.id = id
    · exact ⟨some now, h ▸ Table.mem_modify.mpr ⟨row, hrow, .inl ⟨hid, rfl⟩⟩⟩
    · exact ⟨row.processedAt, h ▸ Table.mem_modify.mpr ⟨row, hrow, .inr ⟨hid, rfl⟩⟩⟩
  · simp only [Database.eventKeys, h, Table.modify, List.map_map]
    apply List.map_congr_left
    intro row _
    by_cases hid : row.id = id <;> simp [hid]

lemma WebUpdate.Writes.events {u : WebUpdate} {db db' : Database} (h : u.Writes o db db') :
    KeepsEvents db db' ∧
      ((∀ repoId key refs, u ≠ .createPushEvent repoId key refs) → db'.eventKeys = db.eventKeys) := by
  cases h with
  | createPushEvent repoId key refs pushEvents new rows =>
    refine ⟨fun row hrow => ⟨row.processedAt, ?_⟩, fun h => (h _ _ _ rfl).elim⟩
    rw [Table.rows_insert? rows]
    exact List.mem_append_left _ hrow
  | updateRunner _ _ _ _ _ frame =>
    rw [frame]
    exact ⟨.of_eq rfl, fun _ => rfl⟩
  | _ => exact ⟨.of_eq rfl, fun _ => rfl⟩

lemma site_events {app : AppState} {c : SiteCall} {x : Except String c.Result}
    (h : c.exec app o s = (x, s')) :
    KeepsEvents s.db s'.db ∧ (¬ c.asksEvent → s'.db.eventKeys = s.db.eventKeys) := by
  cases site_effect h with
  | server c exec _ =>
    rcases exec_pushEvents exec with hdb | ⟨id, hdb⟩
    · exact ⟨.of_eq hdb, fun _ => by simp only [Database.eventKeys, hdb]⟩
    · exact ⟨(keepsEvents_modify hdb).1, fun _ => (keepsEvents_modify hdb).2⟩
  | update u a _ writes _ =>
    refine ⟨writes.events.1, fun hc => writes.events.2 ?_⟩
    rintro repoId key refs rfl
    exact hc trivial
  | kept db _ _ =>
    rw [db]
    exact ⟨.of_eq rfl, fun _ => rfl⟩

lemma WebUpdate.Writes.asked {repoId : Id} {key : String} {refs : List PushEventRef}
    {db db' : Database} (h : (WebUpdate.createPushEvent repoId key refs).Writes o db db') :
    (db' = db ∧ (key ∈ db.eventKeys ∨ ∃ row ∈ db.pushEvents.rows, row.id = o.uuid)) ∨
      (key ∉ db.eventKeys ∧ db.pushEvents.insert?
        (Database.newPushEvent o.uuid o.now repoId key refs) = some db'.pushEvents) := by
  cases h with
  | ignored _ _ _ stored => exact .inl ⟨rfl, stored⟩
  | createPushEvent _ _ _ pushEvents new rows => exact .inr ⟨new, rows⟩

def SiteCall.EndsTrigger (app : WebState) (repos : Table Repo.id) (r : SiteRole) :
    (c : SiteCall) → (Except String c.Result → WebTask Unit) → Prop
  | .update (.createPushEvent repoId key refs), next =>
    r.triggers = true ∧ r.Asks repos repoId refs ∧ key = eventKey app.toAppState repoId refs ∧
      next (.ok ()) = .done (.ok ()) ∧ ∀ e, ∃ e', next (.error e) = .done (.error e')
  | _, next => r.triggers = true → ∀ x, next x ≠ .done (.ok ())

def Triggering (app : WebState) (repos : Table Repo.id) (r : SiteRole) : WebTask Unit → Prop
  | .done _ => True
  | .call c next => c.EndsTrigger app repos r next ∧
    ∀ (o : SiteOutcome) (s : Site), s.db.repos = repos →
      Triggering app repos r (next (c.exec app.toAppState o s).1)

lemma Triggering.of_only {repos : Table Repo.id} {r : SiteRole} (hr : r.triggers = false)
    {q : WebTask Unit} (hq : q.Only fun c => ¬ c.asksEvent) : Triggering app repos r q := by
  induction q with
  | done x => trivial
  | call c next ih =>
    refine ⟨?_, fun o s _ => ih _ (hq.2 _)⟩
    have hc := hq.1
    cases c with
    | update u =>
      cases u with
      | createPushEvent repoId key refs => exact (hc trivial).elim
      | _ => intro h; simp [hr] at h
    | _ => intro h; simp [hr] at h

lemma SiteCall.EndsTrigger.quiet {repos : Table Repo.id} {r : SiteRole} {c : SiteCall}
    {next : Except String c.Result → WebTask Unit} (h : c.EndsTrigger app repos r next)
    (hc : ¬ c.asksEvent) (hr : r.triggers = true) : ∀ x, next x ≠ .done (.ok ()) := by
  cases c with
  | update u =>
    cases u with
    | createPushEvent repoId key refs => exact (hc trivial).elim
    | _ => exact h hr
  | _ => exact h hr

lemma eventless : SiteFootprint fun c => ¬ c.asksEvent where
  read _ := id
  query _ := id
  update _ h := h
  catalog _ _ _ := id

lemma eventless_server {α : Type} (p : Server.Task α) :
    (onServer p).Only fun c => ¬ c.asksEvent :=
  only_onServer (.of_forall (fun _ => id) p)

lemma program_eventless (r : SiteRole) (hr : r.triggers = false) :
    (r.program app).Only fun c => ¬ c.asksEvent := by
  cases r with
  | server r => exact eventless_server _
  | refreshRunnerHealth => exact eventless.refreshRunnerHealth
  | postReceive repoId refsRaw => cases hr
  | triggerRepo sender repoId branch commit => cases hr
  | createRunner sender name baseUrl => exact eventless.createRunner app sender name baseUrl
  | toggleRunner sender runnerId => exact eventless.toggleRunner app sender runnerId
  | updateRunner sender runnerId name baseUrl =>
    exact eventless.updateRunner app sender runnerId name baseUrl
  | testRunner sender runnerId => exact eventless.testRunner app sender runnerId
  | createWorkflow sender repoId parsed => exact eventless.createWorkflow app sender repoId parsed
  | updateWorkflow sender workflowId repoId parsed =>
    exact eventless.updateWorkflow app sender workflowId repoId parsed
  | runWorkflow number sender workflowId branch commit artifactSelections =>
    exact eventless.runWorkflow app (fun _ _ _ _ _ _ _ => eventless_server _) number sender workflowId
      branch commit artifactSelections
  | rerunPipeline number sender pipelineId =>
    exact eventless.rerunPipeline app (fun _ _ _ _ _ _ _ => eventless_server _) number sender pipelineId

lemma triggering_ask {repos : Table Repo.id} {r : SiteRole} (hr : r.triggers = true) {repoId : Id}
    {refs : List PushEventRef} (hrefs : r.Asks repos repoId refs)
    {next : Except String Unit → WebTask Unit} (hok : next (.ok ()) = .done (.ok ()))
    (herror : ∀ e, ∃ e', next (.error e) = .done (.error e')) :
    Triggering app repos r
      (.call (.update (.createPushEvent repoId (eventKey app.toAppState repoId refs) refs)) next) := by
  refine ⟨⟨hr, hrefs, rfl, hok, herror⟩, fun o s _ => ?_⟩
  have hnext : ∀ x : Except String Unit, Triggering app repos r (next x) := by
    intro x
    cases x with
    | ok a => exact hok ▸ trivial
    | error e =>
      obtain ⟨e', he⟩ := herror e
      exact he ▸ trivial
  exact hnext _

def askTrigger (app : WebState) (repoId : Id) (branch commit : Option String) (repo : Repo) :
    WebTask Unit := do
  let refs ← Program.done (manualTriggerRefs repo branch commit)
  internalError (Db.createPushEvent repoId (eventKey app.toAppState repoId refs) refs)

def askTriggerOf (app : WebState) (repoId : Id) (branch commit : Option String) :
    Except String (Option Repo) → WebTask Unit
  | .ok (some repo) => askTrigger app repoId branch commit repo
  | .ok none => .fail "repo not found"
  | .error _ => .fail "internal server error"

lemma askTrigger_triggering {sender : Sender} {repoId : Id} {branch commit : Option String}
    {repos : Table Repo.id} {repo : Repo} (hrepo : repos.find? repoId = some repo) :
    Triggering app repos (.triggerRepo sender repoId branch commit)
      (askTrigger app repoId branch commit repo) := by
  simp only [askTrigger]
  cases hrefs : manualTriggerRefs repo branch commit with
  | error e => trivial
  | ok refs =>
    have hasks : (SiteRole.triggerRepo sender repoId branch commit).Asks repos repoId refs :=
      ⟨rfl, repo, hrepo, hrefs⟩
    exact triggering_ask rfl hasks rfl fun e => ⟨_, rfl⟩

lemma askTrigger_ne (repoId : Id) (branch commit : Option String) (repo : Repo) :
    askTrigger app repoId branch commit repo ≠ .done (.ok ()) := by
  simp only [askTrigger]
  cases manualTriggerRefs repo branch commit with
  | error e => exact nofun
  | ok refs => exact nofun

lemma triggerRepo_triggering (sender : Sender) (repoId : Id) (branch commit : Option String)
    (repos : Table Repo.id) : Triggering app repos (.triggerRepo sender repoId branch commit)
      (triggerRepo app sender repoId branch commit) := by
  by_cases hcsrf : sender.csrfToken = app.csrfToken sender.user.id
  · by_cases hadmin : sender.user.isAdmin = true
    · have heq : triggerRepo app sender repoId branch commit =
          .call (.server (.query (.getRepo repoId))) (askTriggerOf app repoId branch commit) := by
        simp only [triggerRepo, verifyCsrf, hcsrf, authorizedRepo, requireAdmin, hadmin, if_true]
        refine congrArg (Program.call _) (funext fun x => ?_)
        cases x with
        | error e => rfl
        | ok repo => cases repo <;> rfl
      rw [heq]
      refine ⟨?_, fun o s hs => ?_⟩
      · rintro - x
        cases x with
        | error e => exact nofun
        | ok repo =>
          cases repo with
          | none => exact nofun
          | some repo => exact askTrigger_ne repoId branch commit repo
      · have hanswer : ∀ x : Except String (Option Repo),
            (∃ e, x = .error e) ∨ x = .ok (repos.find? repoId) →
              Triggering app repos (.triggerRepo sender repoId branch commit)
                (askTriggerOf app repoId branch commit x) := by
          rintro x (⟨e, rfl⟩ | rfl)
          · trivial
          · cases hrepo : repos.find? repoId with
            | none => trivial
            | some repo => exact askTrigger_triggering hrepo
        have hquery := (@exec_query app.toAppState o.toOutcome s.toStore _ (.getRepo repoId) _ rfl).2
        rw [show Query.eval s.db (.getRepo repoId) = .ok (repos.find? repoId) from hs ▸ rfl] at hquery
        exact hanswer _ hquery
    · simp only [triggerRepo, verifyCsrf, hcsrf, authorizedRepo, requireAdmin, hadmin, if_true]
      trivial
  · simp only [triggerRepo, verifyCsrf, hcsrf, if_false]
    trivial

lemma program_triggering (r : SiteRole) (repos : Table Repo.id) :
    Triggering app repos r (r.program app) := by
  cases hr : r.triggers with
  | false => exact .of_only hr (program_eventless r hr)
  | true =>
    cases r with
    | postReceive repoId refsRaw =>
      have hasks : (SiteRole.postReceive repoId refsRaw).Asks repos repoId (readPushRefs refsRaw) :=
        ⟨rfl, rfl⟩
      exact triggering_ask rfl hasks rfl fun e => ⟨e, rfl⟩
    | triggerRepo sender repoId branch commit => exact triggerRepo_triggering _ _ _ _ repos
    | _ => cases hr

def AllTriggering (app : WebState) (p : SitePool) : Prop :=
  ∀ t ∈ p.tasks, Triggering app p.store.db.repos t.1 t.2

lemma AllTriggering.apply (hp : AllTriggering app p) (ha : (site app).apply p e = some p') :
    AllTriggering app p' := by
  let Φ (r : SiteRole) (q : WebTask Unit) (s : Site) := Triggering app s.db.repos r q
  have hstep : ∀ r c next o, Φ r (.call c next) p.store → (site app).ready c p.store = true →
      Φ r (next ((site app).exec c o p.store).1) ((site app).exec c o p.store).2 := by
    intro r c next o hq _
    have hrepos : ((site app).exec c o p.store).2.db.repos = p.store.db.repos := site_exec_repos rfl
    have hnext := hq.2 o p.store rfl
    rw [← hrepos] at hnext
    exact hnext
  exact System.forall_tasks_apply (Φ := Φ) ha (fun r => program_triggering r _) hstep
    (fun r q hq => (congrArg (Triggering app · r q) (site_repos ha)).mpr hq) hp

lemma accepts_step {i : ℕ} {r : SiteRole} {c : SiteCall} {next : Except String c.Result → WebTask Unit}
    (ht : p.tasks[i]? = some (r, .call c next)) :
    p.accepts app (.step i o) = true ↔ r.triggers = true ∧
      next (c.exec app.toAppState o p.store).1 = .done (.ok ()) := by
  simp only [SitePool.accepts, System.result?_step _ ht, site]
  cases next (c.exec app.toAppState o p.store).1 with
  | done x =>
    cases x with
    | ok a => simp [Program.result?]
    | error e => simp [Program.result?]
  | call d next => simp [Program.result?]

structure Adds (app : WebState) (p : SitePool) (e : SiteEvent) (p' : SitePool) : Prop where
  accepted : p.accepts app e = true → ∃ key, p.eventKey? e = some key ∧
    ((key ∈ p.store.db.eventKeys ∧ p'.store.db.pushEvents = p.store.db.pushEvents) ∨
      (key ∉ p.store.db.eventKeys ∧ p'.store.db.eventKeys = p.store.db.eventKeys ++ [key] ∧
        OwnEvent app p e p'))
  kept : p.accepts app e = false → p'.store.db.eventKeys = p.store.db.eventKeys

lemma Adds.of_same (haccepts : p.accepts app e = false) (h : p'.store.db = p.store.db) :
    KeepsEvents p.store.db p'.store.db ∧ Adds app p e p' := by
  refine ⟨.of_eq (by rw [h]), fun hacc => ?_, fun _ => by rw [h]⟩
  simp [haccepts] at hacc

lemma adds_of_ask {i : ℕ} {o : SiteOutcome} {r : SiteRole} {repoId : Id} {key : String}
    {refs : List PushEventRef} {next : Except String Unit → WebTask Unit} {s' : Site}
    (ht : p.tasks[i]? = some (r, .call (.update (.createPushEvent repoId key refs)) next))
    (hends : SiteCall.EndsTrigger app p.store.db.repos r
      (.update (.createPushEvent repoId key refs)) next)
    (hfresh : ∀ row ∈ p.store.db.pushEvents.rows, row.id ≠ o.uuid)
    {x : Except String Unit}
    (hexec : SiteCall.exec app.toAppState o p.store (.update (.createPushEvent repoId key refs)) =
      (x, s')) {tasks : List (SiteRole × WebTask Unit)} :
    Adds app p (.step i o) ⟨s', tasks⟩ := by
  obtain ⟨hr, hasks, hkey, hok, herror⟩ := hends
  have hresult (y : Except String Unit) (hy : next x = .done y) :
      (site app).result? p (.step i o) = some (r, y) := by
    have hanswer : next ((site app).exec (.update (.createPushEvent repoId key refs)) o p.store).1 =
        .done y := (congrArg (fun answer => next answer.1) hexec).trans hy
    rw [System.result?_step _ ht, hanswer]
    rfl
  have hkey? : p.eventKey? (.step i o) = some key := by
    simp only [SitePool.eventKey?, Pool.call?, ht]
  rcases update_effect hexec with ⟨a, rfl, writes⟩ | ⟨hdb, e, rfl⟩
  · have haccepts : p.accepts app (.step i o) = true := by
      simp only [SitePool.accepts, hresult _ hok, hr]
    refine ⟨fun _ => ⟨key, hkey?, ?_⟩, fun h => by simp [haccepts] at h⟩
    rcases writes.asked with ⟨hdb, hstored | ⟨row, hrow, hid⟩⟩ | ⟨new, rows⟩
    · exact .inl ⟨hstored, by rw [hdb]⟩
    · exact (hfresh row hrow hid).elim
    · have hrows := Table.rows_insert? rows
      refine .inr ⟨new, by simp [Database.eventKeys, hrows, Database.newPushEvent], ?_⟩
      refine ⟨Database.newPushEvent o.uuid o.now repoId key refs, ?_, rfl, ?_, hkey, r,
        hresult _ hok, hasks⟩
      · rw [hrows]
        simp
      · exact fun old hold => Table.not_mem_of_insert? rows hold
  · obtain ⟨e', he'⟩ := herror e
    have haccepts : p.accepts app (.step i o) = false := by
      simp only [SitePool.accepts, hresult _ he']
    exact (Adds.of_same haccepts hdb).2

lemma step_adds (hp : AllTriggering app p) (hfresh : FreshEventId p e)
    (ha : (site app).apply p e = some p') :
    KeepsEvents p.store.db p'.store.db ∧ Adds app p e p' := by
  obtain ⟨r, rfl, -, rfl⟩ | ⟨i, o, r, c, next, rfl, ht, -, rfl⟩ | ⟨i, r, x, rfl, -, rfl⟩ |
    ⟨rfl, rfl⟩ | ⟨v, rfl, rfl⟩ := System.apply_cases ha
  · exact Adds.of_same rfl rfl
  · obtain ⟨hends, -⟩ := hp _ (List.mem_of_getElem? ht)
    have hevents := @site_events o p.store _ app.toAppState c _ rfl
    refine ⟨hevents.1, ?_⟩
    by_cases hc : c.asksEvent
    · cases c with
      | update u =>
        cases u with
        | createPushEvent repoId key refs =>
          refine adds_of_ask ht hends (fun row hrow => hfresh ?_ row hrow) rfl
          simp only [SitePool.eventKey?, Pool.call?, ht, Option.isSome_some]
        | _ => exact hc.elim
      | _ => exact hc.elim
    · refine ⟨fun hacc => ?_, fun _ => hevents.2 hc⟩
      obtain ⟨hr, hnext⟩ := (accepts_step ht).mp hacc
      exact (SiteCall.EndsTrigger.quiet hends hc hr _ hnext).elim
  · exact Adds.of_same rfl rfl
  · exact Adds.of_same rfl rfl
  · exact Adds.of_same rfl rfl

lemma Adds.taken (h : Adds app p e p') (hacc : p.accepts app e = true) : Taken app p e p' := by
  obtain ⟨key, hkey, ⟨hstored, hsame⟩ | ⟨hnew, -, hown⟩⟩ := h.accepted hacc
  · exact ⟨key, hkey, by rwa [if_pos hstored]⟩
  · exact ⟨key, hkey, by rwa [if_neg hnew]⟩

lemma not_ownEvent (h : p'.store.db.pushEvents = p.store.db.pushEvents) : ¬ OwnEvent app p e p' := by
  rintro ⟨row, hrow, -, hnew, -⟩
  exact hnew row (h ▸ hrow) rfl

lemma noTriggerLost_iff {es : List SiteEvent} (hp : AllTriggering app p)
    (hfresh : (site app).Along FreshEventId es p) :
    NoTriggerLost app es p ↔ (acceptedKeys app es p).Nodup ∧
      ∀ key ∈ acceptedKeys app es p, key ∉ p.store.db.eventKeys := by
  induction es generalizing p with
  | nil => simp [NoTriggerLost, acceptedKeys, System.Along]
  | cons e es ih =>
    cases ha : (site app).apply p e with
    | none => simp [NoTriggerLost, acceptedKeys, System.Along, ha]
    | some p' =>
      obtain ⟨he, hes⟩ := hfresh p' ha
      have hadds := (step_adds hp he ha).2
      have hrest := ih (hp.apply ha) hes
      have hcons : NoTriggerLost app (e :: es) p ↔
          (p.accepts app e = true → OwnEvent app p e p') ∧ NoTriggerLost app es p' := by
        simp [NoTriggerLost, System.Along, ha]
      rw [hcons, hrest]
      simp only [acceptedKeys, ha]
      cases hacc : p.accepts app e with
      | false => simp [hadds.kept hacc]
      | true =>
        obtain ⟨key, hkey, ⟨hstored, hsame⟩ | ⟨hnew, hkeys, hown⟩⟩ := hadds.accepted hacc
        · simp [hkey, not_ownEvent hsame, hstored]
        · simp only [hkey, hown, hkeys, hnew, forall_const, true_and, if_true, Option.toList_some,
            List.singleton_append, List.nodup_cons, List.mem_cons, List.mem_append, not_or,
            forall_eq_or_imp, not_false_eq_true]
          constructor
          · rintro ⟨hnodup, hnot⟩
            exact ⟨⟨fun hmem => (hnot key hmem).2.1 rfl, hnodup⟩, fun k hk => (hnot k hk).1⟩
          · rintro ⟨⟨hmem, hnodup⟩, hnot⟩
            exact ⟨hnodup, fun k hk => ⟨hnot k hk, fun h => hmem (h ▸ hk), List.not_mem_nil⟩⟩

end

/-- Along every run stored events stay, and an accepted trigger gets an event of its own unless one
with its key is stored: so none is lost if and only if no accepted key repeats one before it. -/
theorem triggers_taken (app : WebState) (es : List SiteEvent) (p : SitePool) (h : p.tasks = [])
    (hfresh : (site app).Along FreshEventId es p) :
    (site app).Along (fun q e => ∀ q', (site app).apply q e = some q' →
      KeepsEvents q.store.db q'.store.db ∧
        (SitePool.accepts app q e = true → Taken app q e q')) es p ∧
    (NoTriggerLost app es p ↔ (acceptedKeys app es p).Nodup ∧
      ∀ key ∈ acceptedKeys app es p, key ∉ p.store.db.eventKeys) := by
  have hp : AllTriggering app p := by
    intro t ht
    rw [h] at ht
    exact absurd ht List.not_mem_nil
  refine ⟨System.Along.of_invariant (I := AllTriggering app) ?_ ?_ hp hfresh,
    noTriggerLost_iff hp hfresh⟩
  · exact fun q e q' hq _ ha => hq.apply ha
  · intro q e q' hq he ha q'' ha'
    cases ha.symm.trans ha'
    have hstep := step_adds hq he ha
    exact ⟨hstep.1, hstep.2.taken⟩

instance (p : SitePool) : (e : SiteEvent) → Decidable (FreshEventId p e)
  | .step i o => inferInstanceAs (Decidable ((p.eventKey? (.step i o)).isSome →
      ∀ row ∈ p.store.db.pushEvents.rows, row.id ≠ o.uuid))
  | .start _ => isTrue trivial
  | .finish _ => isTrue trivial
  | .crash => isTrue trivial
  | .environment _ => isTrue trivial

def plainSite : WebState :=
  { sampleSite with sha256Hex := fun bytes => String.ofList (bytes.map fun b => Char.ofNat b.toNat) }

def bareRepo : SitePool :=
  sampleSitePool { sampleDatabase 0 .empty .empty .empty with
    workflows := .empty, workflowVersions := .empty }

def processed : List SiteEvent :=
  [.finish 0, .start (.server .pushEvents), .step 0 {}, .step 0 {}, .step 0 {}, .finish 0]

def pushed (id : Id) (refsRaw : String) : List SiteEvent :=
  [.start (.postReceive 1 refsRaw), .step 0 { uuid := id }]

def triggered (id : Id) : List SiteEvent :=
  [.start (.triggerRepo sampleSender 1 none none), .step 0 {}, .step 0 { uuid := id }]

def pushedAgain : List SiteEvent :=
  pushed 1 "a b refs/heads/main" ++ processed ++ pushed 2 "b a refs/heads/main" ++ processed ++
    pushed 3 "a b refs/heads/main"

def triggeredAgain : List SiteEvent :=
  triggered 1 ++ processed ++ triggered 2

lemma pushedAgain_fresh : (site plainSite).Along FreshEventId pushedAgain bareRepo := by
  decide +kernel

lemma triggeredAgain_fresh : (site plainSite).Along FreshEventId triggeredAgain bareRepo := by
  decide +kernel

theorem triggers_taken_pushedAgain : bareRepo.tasks = [] ∧
    (site plainSite).Along FreshEventId pushedAgain bareRepo ∧
    (NoTriggerLost plainSite pushedAgain bareRepo ↔
      (acceptedKeys plainSite pushedAgain bareRepo).Nodup ∧
        ∀ key ∈ acceptedKeys plainSite pushedAgain bareRepo, key ∉ bareRepo.store.db.eventKeys) :=
  ⟨rfl, pushedAgain_fresh, (triggers_taken plainSite pushedAgain bareRepo rfl pushedAgain_fresh).2⟩

lemma lost_of_keys {es : List SiteEvent} {keys : List String}
    (hfresh : (site plainSite).Along FreshEventId es bareRepo)
    (hkeys : acceptedKeys plainSite es bareRepo = keys) (h : ¬ keys.Nodup) :
    ¬ NoTriggerLost plainSite es bareRepo := by
  intro hlost
  have hnodup := ((noTriggerLost_iff (fun _ ht => absurd ht List.not_mem_nil) hfresh).mp hlost).1
  exact h (hkeys ▸ hnodup)

theorem trigger_lost :
    (acceptedKeys plainSite pushedAgain bareRepo =
        ["1abrefs/heads/main", "1barefs/heads/main", "1abrefs/heads/main"] ∧
      ¬ NoTriggerLost plainSite pushedAgain bareRepo) ∧
    acceptedKeys plainSite triggeredAgain bareRepo =
        ["10000000000000000000000000000000000000000HEADrefs/heads/main",
          "10000000000000000000000000000000000000000HEADrefs/heads/main"] ∧
      ¬ NoTriggerLost plainSite triggeredAgain bareRepo := by
  have hpushed : acceptedKeys plainSite pushedAgain bareRepo =
      ["1abrefs/heads/main", "1barefs/heads/main", "1abrefs/heads/main"] := by decide +kernel
  have htriggered : acceptedKeys plainSite triggeredAgain bareRepo =
      ["10000000000000000000000000000000000000000HEADrefs/heads/main",
        "10000000000000000000000000000000000000000HEADrefs/heads/main"] := by decide +kernel
  exact ⟨⟨hpushed, lost_of_keys pushedAgain_fresh hpushed (by decide)⟩,
    htriggered, lost_of_keys triggeredAgain_fresh htriggered (by decide)⟩

end Janus.Web
