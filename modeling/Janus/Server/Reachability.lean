import Janus.Server.Artifacts

/-! The artifacts that the outputs of jobs refer to. -/

namespace Janus.Server

open Janus.Concurrency Janus.Data

def Database.Keeps (db : Database) (id : Id) (scope : String × Id × String) : Prop :=
  (db.serverArtifacts.find? id).map ServerArtifact.scope = some scope

instance (db : Database) (id : Id) (scope : String × Id × String) : Decidable (db.Keeps id scope) :=
  inferInstanceAs (Decidable (_ = _))

def Database.OutputsKept (db : Database) : Prop :=
  ∀ row ∈ db.jobRunArtifacts, ∀ id ∈ row.2.serverArtifactId,
    db.Keeps id ("job_output", row.1, row.2.outputName)

instance (db : Database) : Decidable db.OutputsKept :=
  inferInstanceAs (Decidable (∀ row ∈ db.jobRunArtifacts, _))

/-- `UNIQUE(scope_type, scope_id, artifact_name)`. -/
def Database.ScopesUnique (db : Database) : Prop :=
  (db.serverArtifacts.rows.map ServerArtifact.scope).Nodup

instance (db : Database) : Decidable db.ScopesUnique := inferInstanceAs (Decidable (List.Nodup _))

/-- An insertion of an artifact is answered with the id of a row that there is. -/
def InsertAnswered (app : AppState) (p : ServerPool) (e : ServerEvent) : Prop :=
  ∀ pending o id s', p.inserts e = some (pending, o) →
    Call.exec app (.insert (.insertServerArtifact pending)) o p.store = (.ok id, s') →
      s'.db.Keeps id pending.scope

/-- An insertion of an artifact that takes place meets no row of its scope under another id. -/
def InsertKeepsId (p : ServerPool) (e : ServerEvent) : Prop :=
  ∀ insertion ∈ p.inserts e,
    (Call.insert (.insertServerArtifact insertion.1)).refusal insertion.2.fault = none →
      ∀ row ∈ p.store.db.serverArtifacts.rows, row.scope = insertion.1.scope →
        row.id = insertion.1.id

instance (p : ServerPool) (e : ServerEvent) : Decidable (InsertKeepsId p e) :=
  inferInstanceAs (Decidable (∀ insertion ∈ p.inserts e, _))

namespace Database

variable {db db' : Database} {pending : PendingArtifact} {id : Id} {scope : String × Id × String}

lemma keeps_iff : db.Keeps id scope ↔
    ∃ artifact ∈ db.serverArtifacts.rows, artifact.id = id ∧ artifact.scope = scope := by
  simp only [Keeps, Option.map_eq_some_iff, Table.find?_eq_some_iff, and_assoc]

lemma Inserts.keeps (hi : db.Inserts db' pending) (h : db.Keeps id scope) : db'.Keeps id scope := by
  rw [keeps_iff] at h ⊢
  obtain ⟨artifact, hmem, hid, hscope⟩ := h
  cases hi with
  | renew row _ _ artifacts =>
    by_cases hrow : artifact.id = row.id
    · refine ⟨pending.renew artifact, ?_, hid, hscope⟩
      rw [artifacts, Table.mem_modify]
      exact ⟨artifact, hmem, .inl ⟨hrow, rfl⟩⟩
    · refine ⟨artifact, ?_, hid, hscope⟩
      rw [artifacts, Table.mem_modify]
      exact ⟨artifact, hmem, .inr ⟨hrow, rfl⟩⟩
  | add _ artifacts =>
    refine ⟨artifact, ?_, hid, hscope⟩
    rw [Table.rows_insert? artifacts]
    exact List.mem_append_left _ hmem

lemma Inserts.scopesUnique (hi : db.Inserts db' pending) (h : db.ScopesUnique) :
    db'.ScopesUnique := by
  cases hi with
  | renew row _ _ artifacts =>
    have hscope : (ServerArtifact.scope ∘ fun r => if r.id = row.id then pending.renew r else r) =
        ServerArtifact.scope := by
      funext r
      by_cases hr : r.id = row.id <;> simp [hr, PendingArtifact.renew, ServerArtifact.scope]
    simp only [ScopesUnique, artifacts, Table.modify, List.map_map, hscope]
    exact h
  | add free artifacts =>
    simp only [ScopesUnique, Table.rows_insert? artifacts, List.map_append]
    refine List.nodup_append.mpr ⟨h, List.nodup_singleton _, ?_⟩
    rintro _ ha _ hb rfl
    obtain ⟨row, hrow, hscope⟩ := List.mem_map.mp ha
    exact free row hrow (hscope.trans (List.mem_singleton.mp hb))

lemma Inserts.keeps_pending_iff (hi : db.Inserts db' pending) (h : db.ScopesUnique) :
    db'.Keeps pending.id pending.scope ↔
      ∀ row ∈ db.serverArtifacts.rows, row.scope = pending.scope → row.id = pending.id := by
  have hunique := hi.scopesUnique h
  rw [keeps_iff]
  constructor
  · rintro ⟨artifact, hmem, hid, hscope⟩ row hrow hrs
    obtain ⟨row', hmem', hid', hscope'⟩ :=
      keeps_iff.mp (hi.keeps (keeps_iff.mpr ⟨row, hrow, rfl, rfl⟩))
    rw [← hid', ← hid, List.inj_on_of_nodup_map hunique hmem' hmem
      (hscope'.trans (hrs.trans hscope.symm))]
  · intro hids
    cases hi with
    | renew row hrow hscope artifacts =>
      refine ⟨pending.renew row, ?_, hids row hrow hscope, hscope⟩
      rw [artifacts, Table.mem_modify]
      exact ⟨row, hrow, .inl ⟨rfl, rfl⟩⟩
    | add _ artifacts =>
      refine ⟨pending.row, ?_, rfl, rfl⟩
      rw [Table.rows_insert? artifacts]
      exact List.mem_append_right _ (List.mem_singleton_self _)

end Database

def Answered.Holds (db : Database) : Answered Call Call.Result String → Prop
  | ⟨.insert (.insertServerArtifact pending), .ok id⟩ => db.Keeps id pending.scope
  | ⟨.file (.storeBytes scopeType scopeId name _), .ok pending⟩ =>
    PendingArtifact.scope pending = (scopeType, scopeId, name)
  | _ => True

section

variable {app : AppState} {s s' : Store} {c : Call} {x : Except String c.Result} {o : Outcome}
variable {p p' : ServerPool} {e : ServerEvent}

lemma Call.Stores.keeps (hs : Call.Stores app o s s' c x) {id : Id} {scope : String × Id × String}
    (h : s.db.Keeps id scope) : s'.db.Keeps id scope := by
  cases hs with
  | same artifacts _ _ _ _ =>
    rw [Database.Keeps, artifacts]
    exact h
  | insert pending _ artifacts _ _ => exact (Database.inserts artifacts).keeps h
  | storeBytes _ _ _ _ _ db _ => exact db ▸ h
  | storeFile _ _ _ _ _ _ db _ => exact db ▸ h
  | outputs _ _ _ artifacts _ _ _ =>
    rw [Database.Keeps, artifacts]
    exact h

lemma Call.Stores.holds (hs : Call.Stores app o s s' c x) {a : Answered Call Call.Result String}
    (h : Answered.Holds s.db a) : Answered.Holds s'.db a := by
  unfold Answered.Holds at h ⊢
  split
  · exact hs.keeps h
  · exact h
  · trivial

lemma Call.Stores.scopesUnique (hs : Call.Stores app o s s' c x) (h : s.db.ScopesUnique) :
    s'.db.ScopesUnique := by
  cases hs with
  | same artifacts _ _ _ _ =>
    rw [Database.ScopesUnique, artifacts]
    exact h
  | insert pending _ artifacts _ _ => exact (Database.inserts artifacts).scopesUnique h
  | storeBytes _ _ _ _ _ db _ => exact db ▸ h
  | storeFile _ _ _ _ _ _ db _ => exact db ▸ h
  | outputs _ _ _ artifacts _ _ _ =>
    rw [Database.ScopesUnique, artifacts]
    exact h

lemma insert_exec {pending : PendingArtifact} {id : Id}
    (h : Call.exec app (.insert (.insertServerArtifact pending)) o s = (.ok id, s')) :
    (Call.insert (.insertServerArtifact pending)).refusal o.fault = none ∧ id = pending.id ∧
      s.db.Inserts s'.db pending := by
  cases hr : (Call.insert (.insertServerArtifact pending)).refusal o.fault with
  | some e =>
    rw [exec_of_refusal hr] at h
    cases h
  | none =>
    refine ⟨rfl, ?_⟩
    cases exec_stores h with
    | same _ _ _ insert _ =>
      obtain ⟨e, he⟩ := insert pending rfl
      cases he
    | insert _ answer artifacts _ _ => exact ⟨Except.ok.inj answer, Database.inserts artifacts⟩

lemma insertAnswered_iff (hu : p.store.db.ScopesUnique) :
    InsertAnswered app p e ↔ InsertKeepsId p e := by
  constructor
  · rintro h ⟨pending, o⟩ hi hr row hrow hscope
    cases hok : p.store.db.insertServerArtifact pending with
    | error e => exact (Database.insertServerArtifact_error hok row hrow hscope).elim
    | ok db =>
      refine ((Database.inserts hok).keeps_pending_iff hu).mp ?_ row hrow hscope
      refine h pending o pending.id { p.store with db } hi ?_
      rw [exec_of_allowed hr]
      simp only [Call.perform, Insertion.exec, hok]
      rfl
  · intro h pending o id s' hi he
    obtain ⟨hr, rfl, hinserts⟩ := insert_exec he
    exact (hinserts.keeps_pending_iff hu).mpr (h (pending, o) hi hr)

def ArtifactsSeen (_ : Role) (h : ServerTrace) (s : Store) : Prop :=
  ∀ a ∈ h, Answered.Holds s.db a

lemma exec_holds (hx : c.exec app o s = (x, s')) (hu : s.db.ScopesUnique)
    (hi : ∀ pending, c = .insert (.insertServerArtifact pending) → c.refusal o.fault = none →
      ∀ row ∈ s.db.serverArtifacts.rows, row.scope = pending.scope → row.id = pending.id) :
    Answered.Holds s'.db ⟨c, x⟩ := by
  unfold Answered.Holds
  split
  · next pending id heq =>
    cases heq
    obtain ⟨hr, rfl, hinserts⟩ := insert_exec hx
    exact (hinserts.keeps_pending_iff hu).mpr (hi pending rfl hr)
  · next scopeType scopeId name bytes pending heq =>
    cases heq
    cases exec_stores hx with
    | same _ _ _ _ storeBytes =>
      obtain ⟨e, he⟩ := storeBytes scopeType scopeId name bytes rfl
      cases he
    | storeBytes _ _ _ _ answer _ _ =>
      cases answer
      rfl
  · trivial

lemma artifacts_own {i : ℕ} {r : Role} {next : Except String c.Result → Task Unit} {h : ServerTrace}
    (hu : p.store.db.ScopesUnique) (hkeeps : InsertKeepsId p (.step i o))
    (ht : p.tasks[i]? = some (r, .call c next)) (hk : ArtifactsSeen r h p.store)
    (hx : c.exec app o p.store = (x, s')) : ArtifactsSeen r (⟨c, x⟩ :: h) s' := by
  rintro a ha
  rcases List.mem_cons.mp ha with rfl | ha
  · refine exec_holds hx hu ?_
    rintro pending rfl hr
    refine hkeeps (pending, o) ?_ hr
    simp only [ServerPool.inserts, ht, Option.mem_def]
  · exact (exec_stores hx).holds (hk a ha)

lemma artifacts_knowing (app : AppState) : System.Knowing (server app)
    (fun p e => p.store.db.ScopesUnique ∧ InsertKeepsId p e) (fun h c => c.persisting h)
    ArtifactsSeen where
  start := program_persisting
  nil _ _ _ ha := (List.not_mem_nil ha).elim
  own p i o r c next h hok ht _ hk := artifacts_own hok.1 hok.2 ht hk rfl
  other p i o r c next r' h _ _ _ hk a ha := (exec_stores (o := o) (x := (c.exec app o p.store).1) rfl).holds (hk a ha)
  environ s v r h hk := by
    cases v with
    | runEnds runId => exact hk

structure KeptInvariant (app : AppState) (p : ServerPool) : Prop where
  scopes : p.store.db.ScopesUnique
  outputs : p.store.db.OutputsKept
  known : System.Known (server app) (fun h c => c.persisting h) ArtifactsSeen p

lemma exec_outputsKept {r : Role} {next : Except String c.Result → Task Unit}
    (hp : KeptInvariant app p) (ht : (r, .call c next) ∈ p.tasks)
    (hx : c.exec app o p.store = (x, s')) : s'.db.OutputsKept := by
  have hs := exec_stores hx
  have hold : ∀ row ∈ p.store.db.jobRunArtifacts, ∀ id ∈ row.2.serverArtifactId,
      s'.db.Keeps id ("job_output", row.1, row.2.outputName) :=
    fun row hrow id hid => hs.keeps (hp.outputs row hrow id hid)
  cases hs with
  | same _ _ outputs _ _ => exact fun row hrow => hold row (outputs ▸ hrow)
  | insert _ _ _ _ outputs => exact fun row hrow => hold row (outputs ▸ hrow)
  | storeBytes _ _ _ _ _ db _ => exact fun row hrow => hold row (by rwa [db] at hrow)
  | storeFile _ _ _ _ _ _ db _ => exact fun row hrow => hold row (by rwa [db] at hrow)
  | outputs jobRunId u kept artifacts _ outputs finish =>
    intro row hrow id hid
    rw [outputs] at hrow
    rcases List.mem_append.mp hrow with hrow | hrow
    · exact hold row (List.mem_of_mem_filter hrow) id hid
    · obtain ⟨output, ho, rfl⟩ := List.mem_map.mp hrow
      rcases finish with rfl | ⟨_, _, _, _, _, _, _, _, rfl⟩
      · cases ho
      · obtain ⟨h, hc, hseen⟩ := hp.known.before ht
        obtain ⟨pending, bytes, _, _, _, _, _, _, hi, hb, -⟩ := (hc output ho).seen id hid
        have hrow : p.store.db.Keeps id pending.scope := hseen _ hi
        have hscope : pending.scope = ("job_output", jobRunId, output.outputName) := hseen _ hb
        rw [Database.Keeps, artifacts, ← hscope]
        exact hrow

lemma KeptInvariant.apply (hp : KeptInvariant app p) (hi : InsertKeepsId p e)
    (ha : (server app).apply p e = some p') : KeptInvariant app p' := by
  have hknown := hp.known.apply (artifacts_knowing app) ⟨hp.scopes, hi⟩ ha
  obtain ⟨r, rfl, -, rfl⟩ | ⟨i, o, r, c, next, rfl, ht, -, rfl⟩ | ⟨i, r, x, rfl, -, rfl⟩ |
    ⟨rfl, rfl⟩ | ⟨v, rfl, rfl⟩ := System.apply_cases ha
  · exact ⟨hp.scopes, hp.outputs, hknown⟩
  · have ht := List.mem_of_getElem? ht
    exact ⟨(exec_stores (o := o) (x := (c.exec app o p.store).1) rfl).scopesUnique hp.scopes,
      exec_outputsKept hp ht rfl, hknown⟩
  · exact ⟨hp.scopes, hp.outputs, hknown⟩
  · exact ⟨hp.scopes, hp.outputs, hknown⟩
  · cases v with
    | runEnds runId => exact ⟨hp.scopes, hp.outputs, hknown⟩

end

/-- In every state of a run the outputs can be loaded, and every insertion is answered with the id
of its row, if and only if no insertion meets a row of an earlier attempt. -/
theorem outputs_kept_iff (app : AppState) (p : ServerPool) (events : List ServerEvent)
    (hp : p.tasks = []) (hu : p.store.db.ScopesUnique) (ho : p.store.db.OutputsKept) :
    ((∀ before, before <+: events → ∀ q, (server app).run before p = some q →
        q.store.db.OutputsKept) ∧ (server app).Along (InsertAnswered app) events p) ↔
      (server app).Along InsertKeepsId events p := by
  have hstart : KeptInvariant app p := ⟨hu, ho, by simp [System.Known, hp]⟩
  rw [System.along_reached_iff (I := fun q : ServerPool => q.store.db.OutputsKept) ho]
  constructor
  · rintro ⟨-, hanswered⟩
    refine hanswered.of_invariant (I := KeptInvariant app) ?_ ?_ hstart
    · exact fun q e q' hq he ha => hq.apply ((insertAnswered_iff hq.scopes).mp he) ha
    · exact fun q e q' hq he _ => (insertAnswered_iff hq.scopes).mp he
  · intro hkeeps
    constructor
    · refine hkeeps.of_invariant (I := KeptInvariant app) (fun q e q' => .apply) ?_ hstart
      intro q e q' hq he _ q'' ha
      exact (hq.apply he ha).outputs
    · refine hkeeps.of_invariant (I := KeptInvariant app) (fun q e q' => .apply) ?_ hstart
      exact fun q e q' hq he _ => (insertAnswered_iff hq.scopes).mpr he

def twoArtifacts : JobStatusResponse where
  status := .success
  outputs := (OrderedMap.empty.insert "a" (.artifact "first" "" 1)).insert "b" (.artifact "second" "" 1)

def downloaded (bytes : Bytes) : Outcome where
  reply := .ok ⟨200, none, .ok { bytes }⟩

def firstInserted (uuid : Id) : List ServerEvent :=
  [.start .poll, .step 0 {}, .step 0 {}, .step 0 (replied 200 (.status twoArtifacts)),
    .step 0 (replied 200 (.logs ⟨"", ""⟩)), .step 0 (downloaded [1]), .step 0 { uuid },
    .step 0 {}]

def secondInserted (uuid : Id) : List ServerEvent :=
  [.step 0 (downloaded [2]), .step 0 { uuid }, .step 0 {}, .step 0 {}, .step 0 {}, .finish 0]

def lostDownload : List ServerEvent :=
  dispatched "run" ++ firstInserted 1 ++
    [.step 0 { reply := .error "connection reset" }, .step 0 { dispatchKey := 11 }, .step 0 {},
      .finish 0] ++ dispatched "retry" ++ firstInserted 2 ++ secondInserted 3

theorem dangling_output :
    oneJob.tasks = [] ∧ oneJob.store.db.ScopesUnique ∧ oneJob.store.db.OutputsKept ∧
      ((server sampleApp).run lostDownload oneJob).any
        (fun q => ¬ q.store.db.OutputsKept ∧ q.store.db.jobRuns.rows.all (·.status = .success)) := by
  decide +kernel

theorem outputs_kept_sample :
    ((server sampleApp).run (dispatched "run" ++ firstInserted 1 ++ secondInserted 2)
        oneJob).isSome ∧
      ∀ q, (server sampleApp).run (dispatched "run" ++ firstInserted 1 ++ secondInserted 2) oneJob =
        some q → q.store.db.OutputsKept :=
  have hkeeps : (server sampleApp).Along InsertKeepsId
      (dispatched "run" ++ firstInserted 1 ++ secondInserted 2) oneJob := by decide +kernel
  ⟨by decide +kernel, fun q => ((outputs_kept_iff sampleApp oneJob _ rfl (by decide +kernel)
    (by decide +kernel)).mpr hkeeps).1 _ (List.prefix_refl _) q⟩

end Janus.Server
