import Janus.Server.Rounds

/-! What the scheduler's passes find in the database at each of their calls. -/

namespace Janus.Server

open Janus.Concurrency Janus.Data

def Database.Ready (allowed : JobStatus → Prop) (db : Database) (J : JobRun) : Prop :=
  J.status = .pending ∧ (J.jobIndex = 0 ∨ ∃ K, db.Previous J K ∧ allowed K.status ∧
    nextReadyJobStatus [K.outcome] = some .pending)

def Database.Halted (db : Database) (J : JobRun) : Prop :=
  J.status = .pending ∧ ∃ K, db.Previous J K ∧ nextReadyJobStatus [K.outcome] = some .blocked

def Database.Active (allowed : JobStatus → Prop) (db : Database) (J : JobRun) : Prop :=
  db.Ready allowed J ∨ J.status.live = true

def JobPermits (allowed : JobStatus → Prop) (db : Database) (J : JobRun) : JobUpdate → Prop
  | .setJobRunStarted _ _ => db.Ready allowed J
  | .finishJobRun status _ _ _ _ _ _ _ _ => (db.Active allowed J ∧ status = .failed) ∨
    (J.status.live = true ∧ (status = .success ∨ status = .canceled))
  | .setJobRunStatus status => (db.Halted J ∧ status = .blocked) ∨
    (J.status.live = true ∧ (status = .cancelRequested ∨ status = .canceling))
  | .markJobRunCancelRequested _ => False
  | .recordCancelRetry => J.status.live = true
  | .requeueJobRunForInfraRetry => db.Active allowed J
  | .markJobRunCancelRetryExhausted => J.status.live = true

lemma JobPermits.unfinished {allowed : JobStatus → Prop} {db : Database} {J : JobRun} {u : JobUpdate}
    (h : JobPermits allowed db J u) : J.status = .pending ∨ J.status.live = true := by
  have hactive (h : db.Active allowed J) : J.status = .pending ∨ J.status.live = true :=
    h.imp (·.1) id
  cases u with
  | setJobRunStarted _ _ => exact .inl h.1
  | finishJobRun _ _ _ _ _ _ _ _ _ => exact h.elim (fun h => hactive h.1) fun h => .inr h.1
  | setJobRunStatus _ => exact h.elim (fun h => .inl h.1.1) fun h => .inr h.1
  | markJobRunCancelRequested _ => exact h.elim
  | recordCancelRetry => exact .inr h
  | requeueJobRunForInfraRetry => exact hactive h
  | markJobRunCancelRetryExhausted => exact .inr h

def PassPermits (allowed : JobStatus → Prop) (db : Database) : Call → Prop
  | .jobRun id u => ∃ J ∈ db.jobRuns.rows, J.id = id ∧ JobPermits allowed db J u
  | .pipelineRun _ .finalizePipelineStatus => True
  | .pipelineRun id (.setPipelineStatus status) => ∃ p ∈ db.pipelineRuns.rows, p.id = id ∧
    db.requiresRecovery p = true ∧ status = recoveredStatus p.status
  | .pipelineRun _ (.markPipelineCancelRequested _) => False
  | .insert (.insertServerArtifact _) => True
  | .insert _ => False
  | .runner _ (.createJobRun id _ _ _) => ∃ J ∈ db.jobRuns.rows, J.id = id ∧ db.Ready allowed J
  | _ => True

lemma Call.isQuiet.permits {allowed : JobStatus → Prop} {db : Database} {c : Call} (h : c.isQuiet) :
    PassPermits allowed db c := by
  cases c with
  | jobRun id u => cases h
  | pipelineRun id u => cases h
  | insert i => cases i <;> trivial
  | runner r request => cases request <;> trivial
  | _ => trivial

def Call.finalizes : Call → Bool
  | .pipelineRun _ .finalizePipelineStatus => true
  | _ => false

lemma Call.isQuiet.finalizes {c : Call} (h : c.isQuiet) : c.finalizes = false := by
  cases c with
  | pipelineRun id u => cases h
  | _ => rfl

lemma EnqueuePermits.finalizes {own : Origin → Prop} {db : Database} {c : Call}
    (h : EnqueuePermits own db c) : c.finalizes = false := by
  cases c with
  | pipelineRun id u => cases h
  | _ => rfl

def Permits (allowed : JobStatus → Prop) (own : Origin → Prop) (db : Database) (c : Call) : Prop :=
  PassPermits allowed db c ∨ EnqueuePermits own db c

/-- What is kept of the pipelines' statuses while a pass runs: before its recovery and where an error
ends it (`interrupted`), with the pipelines that are still to be recovered (`recovering`), between
jobs (`idle`), with the pending jobs that are still to be examined (`todo`), and between a write to a
job and the call that brings the pipeline's status up to date (`owes`). -/
structure Ledger where
  interrupted : Store → Prop
  recovering : List PipelineRun → Store → Prop
  idle : Store → Prop
  todo : List JobRun → Store → Prop
  owes : List JobRun → Id → Store → Prop

/-- The ledger of a pass that keeps an account only between a write and its finalization. -/
def Ledger.owing (owed : Id → Store → Prop) : Ledger where
  interrupted _ := True
  recovering _ _ := True
  idle _ := True
  todo _ _ := True
  owes _ id s := owed id s

def Examines (allowed : JobStatus → Prop) (c : Call) (s : Store) : Prop :=
  ∀ J ∈ s.db.jobRuns.rows, c.examines = some J.id →
    J.jobIndex = 0 ∨ ∃ K, s.db.Previous J K ∧ allowed K.status

def JobUpdate.unsettles : JobUpdate → Bool
  | .setJobRunStarted _ _ => false
  | .recordCancelRetry => false
  | _ => true

structure PassRules (app : AppState) (allowed : JobStatus → Prop) (own : Origin → Prop)
    (D : Discipline Call Call.Result String Store) (L : Ledger) : Prop where
  wf : ∀ s, D.inv s → s.db.WellFormed
  grows : ∀ s s', D.rely s s' → s.db.Grows s'.db
  leaves : ∀ s s', D.rely s s' → s.db.Leaves own s'.db
  exec : ∀ c s x s', D.admits c s x s' → ∃ o, c.exec app o s = (x, s')
  examines : ∀ c s x s', D.admits c s x s' → Examines allowed c s
  before : ∀ c s, c.finalizes = false → Permits allowed own s.db c → D.inv s → D.before c s
  finalizes : ∀ t id s, L.owes t id s → D.inv s →
    D.before (.pipelineRun id .finalizePipelineStatus) s
  interrupted_stable : ∀ s s', L.interrupted s → D.rely s s' → D.inv s' → L.interrupted s'
  recovering_stable : ∀ ps s s', L.recovering ps s → D.rely s s' → D.inv s' → L.recovering ps s'
  idle_stable : ∀ s s', L.idle s → D.rely s s' → D.inv s' → L.idle s'
  todo_stable : ∀ t s s', L.todo t s → D.rely s s' → D.inv s' → L.todo t s'
  owes_stable : ∀ t id s s', L.owes t id s → D.rely s s' → D.inv s' → L.owes t id s'
  idle_of_todo : ∀ t s, L.todo t s → L.idle s
  idle_of_recovering : ∀ s, L.recovering [] s → L.idle s
  interrupted_of_idle : ∀ s, L.idle s → L.interrupted s
  interrupted_quiet : ∀ c s x s', c.isQuiet → L.interrupted s → D.inv s → D.admits c s x s' →
    L.interrupted s'
  idle_quiet : ∀ c s x s', c.isQuiet → L.idle s → D.inv s → D.admits c s x s' → L.idle s'
  todo_quiet : ∀ t c s x s', c.isQuiet → L.todo t s → D.inv s → D.admits c s x s' → L.todo t s'
  idle_enqueue : ∀ c s x s', EnqueuePermits own s.db c → L.idle s → D.inv s → D.admits c s x s' →
    L.idle s'
  recovering_list : ∀ s pipelines s', L.interrupted s → D.inv s →
    D.admits (.query .pipelinesRequiringRecovery) s (.ok pipelines) s' → L.recovering pipelines s'
  recovering_set : ∀ p ps s x s', L.recovering (p :: ps) s → D.inv s → p ∈ s.db.pipelineRuns.rows →
    D.admits (.pipelineRun p.id (.setPipelineStatus (recoveredStatus p.status))) s x s' →
    onOk (β := Unit) (fun _ s => L.interrupted s) (fun _ s => L.recovering ps s) x s'
  todo_list : ∀ s jobs s', L.idle s → D.inv s →
    D.admits (.query (.listJobRunsByStatus [.pending])) s (.ok jobs) s' → L.todo jobs s'
  todo_skip : ∀ J t s, L.todo (J :: t) s → D.inv s → J ∈ s.db.jobRuns.rows → ¬ s.db.Halted J →
    L.todo t s
  todo_start : ∀ J id t runId startedAt s x s', L.todo t s → D.inv s → J ∈ s.db.jobRuns.rows →
    J.id = id → s.db.Ready allowed J →
    D.admits (.jobRun id (.setJobRunStarted runId startedAt)) s x s' → L.todo t s'
  todo_create : ∀ J id t r name key body s x s', L.todo t s → D.inv s → J ∈ s.db.jobRuns.rows →
    J.id = id → s.db.Ready allowed J →
    D.admits (.runner r (.createJobRun id name key body)) s x s' → L.todo t s'
  todo_retry : ∀ J id t s x s', L.todo t s → D.inv s → J ∈ s.db.jobRuns.rows → J.id = id →
    J.status.live = true → D.admits (.jobRun id .recordCancelRetry) s x s' → L.todo t s'
  owes_write : ∀ J id t u s a s', L.todo t s → D.inv s → J ∈ s.db.jobRuns.rows → J.id = id →
    JobPermits allowed s.db J u → u.unsettles = true → D.admits (.jobRun id u) s (.ok a) s' →
    L.owes t J.pipelineRunId s'
  owes_block : ∀ J t s a s', L.todo (J :: t) s → D.inv s → J ∈ s.db.jobRuns.rows →
    s.db.Halted J → D.admits (.jobRun J.id (.setJobRunStatus .blocked)) s (.ok a) s' →
    L.owes t J.pipelineRunId s'
  interrupted_refused : ∀ J id t u s e s', L.todo t s → D.inv s → J ∈ s.db.jobRuns.rows → J.id = id →
    JobPermits allowed s.db J u → u.unsettles = true →
    D.admits (.jobRun id u) s (.error e) s' → L.interrupted s'
  todo_finalize : ∀ t id s a s', L.owes t id s → D.inv s →
    D.admits (.pipelineRun id .finalizePipelineStatus) s (.ok a) s' → L.todo t s'
  interrupted_unfinalized : ∀ t id s e s', L.owes t id s → D.inv s →
    D.admits (.pipelineRun id .finalizePipelineStatus) s (.error e) s' → L.interrupted s'

lemma passRules_owing {app : AppState} {allowed : JobStatus → Prop} {own : Origin → Prop}
    {D : Discipline Call Call.Result String Store} {owed : Id → Store → Prop}
    (wf : ∀ s, D.inv s → s.db.WellFormed) (grows : ∀ s s', D.rely s s' → s.db.Grows s'.db)
    (leaves : ∀ s s', D.rely s s' → s.db.Leaves own s'.db)
    (exec : ∀ c s x s', D.admits c s x s' → ∃ o, c.exec app o s = (x, s'))
    (examines : ∀ c s x s', D.admits c s x s' → Examines allowed c s)
    (before : ∀ c s, c.finalizes = false → Permits allowed own s.db c → D.inv s → D.before c s)
    (finalizes : ∀ id s, owed id s → D.inv s → D.before (.pipelineRun id .finalizePipelineStatus) s)
    (stable : ∀ id s s', owed id s → D.rely s s' → D.inv s' → owed id s')
    (written : ∀ J u s a s', D.inv s → J ∈ s.db.jobRuns.rows →
      J.status = .pending ∨ J.status.live = true → D.admits (.jobRun J.id u) s (.ok a) s' →
      owed J.pipelineRunId s') : PassRules app allowed own D (.owing owed) where
  wf := wf
  grows := grows
  leaves := leaves
  exec := exec
  examines := examines
  before := before
  finalizes _ id s h hi := finalizes id s h hi
  interrupted_stable _ _ _ _ _ := trivial
  recovering_stable _ _ _ _ _ _ := trivial
  idle_stable _ _ _ _ _ := trivial
  todo_stable _ _ _ _ _ _ := trivial
  owes_stable _ id s s' h hr hi := stable id s s' h hr hi
  idle_of_todo _ _ _ := trivial
  idle_of_recovering _ _ := trivial
  interrupted_of_idle _ _ := trivial
  interrupted_quiet _ _ _ _ _ _ _ _ := trivial
  idle_quiet _ _ _ _ _ _ _ _ := trivial
  todo_quiet _ _ _ _ _ _ _ _ _ := trivial
  idle_enqueue _ _ _ _ _ _ _ _ := trivial
  recovering_list _ _ _ _ _ _ := trivial
  recovering_set _ _ _ x _ _ _ _ _ := by cases x <;> trivial
  todo_list _ _ _ _ _ _ := trivial
  todo_skip _ _ _ _ _ _ _ := trivial
  todo_start _ _ _ _ _ _ _ _ _ _ _ _ _ _ := trivial
  todo_create _ _ _ _ _ _ _ _ _ _ _ _ _ _ _ _ := trivial
  todo_retry _ _ _ _ _ _ _ _ _ _ _ _ := trivial
  owes_write J id t u s a s' _ hi hJ hid hp _ ha := by
    subst hid
    exact written J u s a s' hi hJ hp.unfinished ha
  owes_block J t s a s' _ hi hJ hh ha := written J _ s a s' hi hJ (.inl hh.1) ha
  interrupted_refused _ _ _ _ _ _ _ _ _ _ _ _ _ _ := trivial
  todo_finalize _ _ _ _ _ _ _ _ := trivial
  interrupted_unfinalized _ _ _ _ _ _ _ _ := trivial

def Present (Js : List JobRun) (db : Database) : Prop :=
  (Js.map JobRun.id).Nodup ∧ ∀ J ∈ Js, J ∈ db.jobRuns.rows

def Between (L : Ledger) (t Js : List JobRun) (s : Store) : Prop := L.todo t s ∧ Present Js s.db

structure Held (allowed : JobStatus → Prop) (L : Ledger) (t Js : List JobRun) (J : JobRun)
    (s : Store) : Prop where
  between : Between L t Js s
  other : J.id ∉ Js.map JobRun.id
  row : ∃ R ∈ s.db.jobRuns.rows, J.Same R ∧ R.status = J.status ∧ s.db.Active allowed R

section

variable {allowed : JobStatus → Prop} {db db' : Database} {J : JobRun} {Js : List JobRun}

lemma Present.grows (h : Present Js db) (hg : db.Grows db') : Present Js db' :=
  ⟨h.1, fun J hJ => hg.jobRuns J (h.2 J hJ)⟩

lemma Present.tail (h : Present (J :: Js) db) :
    Present Js db ∧ J ∈ db.jobRuns.rows ∧ J.id ∉ Js.map JobRun.id := by
  obtain ⟨hnodup, hmem⟩ := h
  obtain ⟨hJ, hnodup⟩ := List.nodup_cons.mp hnodup
  exact ⟨⟨hnodup, fun K hK => hmem K (List.mem_cons_of_mem _ hK)⟩, hmem J List.mem_cons_self, hJ⟩

lemma present_filter (db : Database) (p : JobRun → Bool) : Present (db.jobRuns.rows.filter p) db :=
  ⟨db.jobRuns.unique.sublist (List.filter_sublist.map _), fun _ hJ => (List.mem_filter.mp hJ).1⟩

lemma Present.update (h : Present Js db) {id : Id} (hid : id ∉ Js.map JobRun.id) {u : JobUpdate}
    {x : Except String u.Result} (he : Call.Effect db db' (.jobRun id u) x) : Present Js db' := by
  refine ⟨h.1, fun J hJ => ?_⟩
  cases he with
  | untouched tables _ => exact tables.jobRuns ▸ h.2 J hJ
  | jobRun _ _ now key jobRuns _ _ =>
    rw [jobRuns, Table.mem_modify]
    exact ⟨J, h.2 J hJ, .inr ⟨fun heq => hid (heq ▸ List.mem_map_of_mem hJ), rfl⟩⟩

lemma Database.Ready.grows (h : db.Ready allowed J) (hg : db.Grows db') : db'.Ready allowed J :=
  ⟨h.1, h.2.imp id fun ⟨K, hK, hr⟩ => ⟨K, hg.previous hK, hr⟩⟩

lemma Database.Halted.grows (h : db.Halted J) (hg : db.Grows db') : db'.Halted J := by
  obtain ⟨hp, K, hK, hb⟩ := h
  exact ⟨hp, K, hg.previous hK, hb⟩

lemma Database.Active.grows (h : db.Active allowed J) (hg : db.Grows db') : db'.Active allowed J :=
  h.imp (·.grows hg) id

lemma Database.Active.ready (h : db.Active allowed J) (hp : J.status = .pending) :
    db.Ready allowed J := by
  rcases h with h | h
  · exact h
  · rw [hp] at h
    cases h

lemma Database.Ready.not_halted (h : db.Ready allowed J) (wf : db.WellFormed)
    (hJ : J ∈ db.jobRuns.rows) : ¬ db.Halted J := by
  rintro ⟨-, K, hK, hb⟩
  rcases h.2 with hi | ⟨K', hK', -, hr⟩
  · obtain ⟨-, hidx⟩ := wf.previous_index hJ hK
    omega
  · rw [wf.previous_unique hK hK', hr] at hb
    cases hb

end

lemma Held.row_grows {allowed : JobStatus → Prop} {L : Ledger} {t Js : List JobRun} {J : JobRun}
    {s s' : Store} (h : Held allowed L t Js J s) (hg : s.db.Grows s'.db) :
    ∃ R ∈ s'.db.jobRuns.rows, J.Same R ∧ R.status = J.status ∧ s'.db.Active allowed R := by
  obtain ⟨R, hR, hsame, hst, hact⟩ := h.row
  exact ⟨R, hg.jobRuns R hR, hsame, hst, hact.grows hg⟩

lemma Held.runner {allowed : JobStatus → Prop} {L : Ledger} {t Js : List JobRun} {J : JobRun}
    {s : Store} (h : Held allowed L t Js J s) (wf : s.db.WellFormed) :
    (s.db.runners.find? J.runnerId).isSome := by
  obtain ⟨R, hR, hsame, -⟩ := h.row
  exact hsame.runnerId ▸ wf.runner R hR

section

variable {app : AppState} {allowed : JobStatus → Prop} {own : Origin → Prop}
variable {D : Discipline Call Call.Result String Store} {L : Ledger}
variable (rules : PassRules app allowed own D L)
variable {t Js : List JobRun} {J : JobRun} {s s' : Store}

include rules

namespace PassRules

lemma quiet_grows {c : Call} {x : Except String c.Result} (hc : c.isQuiet)
    (ha : D.admits c s x s') : s.db.Grows s'.db := by
  obtain ⟨o, ho⟩ := rules.exec c s x s' ha
  exact ((exec_effect ho).untouched_of hc.mutates).grows (exec_config ho)

lemma between_stable (h : Between L t Js s) (hr : D.rely s s') (hi : D.inv s') :
    Between L t Js s' :=
  ⟨rules.todo_stable t s s' h.1 hr hi, h.2.grows (rules.grows s s' hr)⟩

lemma held_stable (h : Held allowed L t Js J s) (hr : D.rely s s') (hi : D.inv s') :
    Held allowed L t Js J s' :=
  ⟨rules.between_stable h.between hr hi, h.other, h.row_grows (rules.grows s s' hr)⟩

lemma between_quiet {c : Call} {x : Except String c.Result} (hc : c.isQuiet) (h : Between L t Js s)
    (hi : D.inv s) (ha : D.admits c s x s') : Between L t Js s' :=
  ⟨rules.todo_quiet t c s x s' hc h.1 hi ha, h.2.grows (rules.quiet_grows hc ha)⟩

lemma held_quiet {c : Call} {x : Except String c.Result} (hc : c.isQuiet)
    (h : Held allowed L t Js J s) (hi : D.inv s) (ha : D.admits c s x s') :
    Held allowed L t Js J s' :=
  ⟨rules.between_quiet hc h.between hi ha, h.other, h.row_grows (rules.quiet_grows hc ha)⟩

lemma before_quiet {c : Call} (hc : c.isQuiet) (hi : D.inv s) : D.before c s :=
  rules.before c s hc.finalizes (.inl hc.permits) hi

lemma interrupted_of_todo (h : L.todo t s) : L.interrupted s :=
  rules.interrupted_of_idle s (rules.idle_of_todo t s h)

end PassRules

def roundAssertions (allowed : JobStatus → Prop) (L : Ledger) (t Js : List JobRun) (J : JobRun) :
    Assertions where
  idle := L.interrupted
  next s := Between L t Js s
  held s := Held allowed L t Js J s
  ended s := J.status.live = true ∧ Held allowed L t Js J s
  owes s := L.owes t J.pipelineRunId s ∧ Present Js s.db

omit rules in
lemma Settles.permits {ended : Bool} {u : JobUpdate} (h : Settles J ended u) {db : Database}
    {R : JobRun} (hst : R.status = J.status) (hact : db.Active allowed R)
    (ho : ended = true → J.status.live = true) :
    JobPermits allowed db R u ∧ u.unsettles = true := by
  have hlive (h : J.status.live = true) : R.status.live = true := (congrArg JobStatus.live hst).trans h
  cases u with
  | finishJobRun status _ _ _ _ _ _ _ _ =>
    rcases h with ⟨-, h⟩ | ⟨h, hs | hs⟩
    · exact ⟨.inl ⟨hact, h⟩, rfl⟩
    · exact ⟨.inl ⟨hact, hs⟩, rfl⟩
    · exact ⟨.inr ⟨hlive (ho h), hs⟩, rfl⟩
  | setJobRunStatus status => exact ⟨.inr ⟨hlive h.1, h.2⟩, rfl⟩
  | requeueJobRunForInfraRetry => exact ⟨hact, rfl⟩
  | markJobRunCancelRetryExhausted => exact ⟨hlive h, rfl⟩
  | _ => cases h

lemma finalize_call {id : Id} (hs : L.owes t id s ∧ Present Js s.db) (hi : D.inv s) :
    D.before (.pipelineRun id .finalizePipelineStatus) s ∧ ∀ x s',
      D.admits (.pipelineRun id .finalizePipelineStatus) s x s' →
        onOk (β := Unit) (fun _ s => L.interrupted s) (fun _ s => Between L t Js s) x s' := by
  obtain ⟨ho, hp⟩ := hs
  refine ⟨rules.finalizes t id s ho hi, fun x s' ha => ?_⟩
  cases x with
  | error e => exact rules.interrupted_unfinalized t id s e s' ho hi ha
  | ok a =>
    obtain ⟨o, hex⟩ := rules.exec _ _ _ _ ha
    refine ⟨rules.todo_finalize t id s a s' ho hi ha, hp.1, fun K hK => ?_⟩
    cases exec_effect hex with
    | untouched tables _ => exact tables.jobRuns ▸ hp.2 K hK
    | pipelineRun _ _ _ jobRuns _ _ => exact jobRuns ▸ hp.2 K hK

lemma owing_stable {id : Id} (s s' : Store) (h : L.owes t id s ∧ Present Js s.db)
    (hr : D.rely s s') (hi : D.inv s') : L.owes t id s' ∧ Present Js s'.db :=
  ⟨rules.owes_stable t id s s' h.1 hr hi, h.2.grows (rules.grows s s' hr)⟩

lemma settle_call {ended : Bool} {u : JobUpdate} (hu : Settles J ended u)
    (hs : Held allowed L t Js J s) (ho : ended = true → J.status.live = true) (hi : D.inv s) :
    D.before (.jobRun J.id u) s ∧ ∀ x s', D.admits (.jobRun J.id u) s x s' →
      onOk (β := Unit) (fun _ s => L.interrupted s)
        (fun _ s => L.owes t J.pipelineRunId s ∧ Present Js s.db) x s' := by
  obtain ⟨⟨ht, hp⟩, hid, R, hR, hsame, hst, hact⟩ := hs
  obtain ⟨hj, hun⟩ := hu.permits hst hact ho
  refine ⟨rules.before _ s rfl (.inl ⟨R, hR, hsame.id, hj⟩) hi, fun x s' ha => ?_⟩
  cases x with
  | error e => exact rules.interrupted_refused R _ t u s e s' ht hi hR hsame.id hj hun ha
  | ok a =>
    obtain ⟨o, hex⟩ := rules.exec _ _ _ _ ha
    have howes := rules.owes_write R _ t u s a s' ht hi hR hsame.id hj hun ha
    exact ⟨hsame.pipelineRunId ▸ howes, hp.update hid (exec_effect hex)⟩

lemma create_call (hpend : J.status = .pending) (runner : Runner) (name : String) (key : Id)
    (body : List (String × Value)) (hs : Held allowed L t Js J s) (hi : D.inv s) :
    D.before (.runner runner (.createJobRun J.id name key body)) s ∧ ∀ x s',
      D.admits (.runner runner (.createJobRun J.id name key body)) s x s' →
        Held allowed L t Js J s' := by
  obtain ⟨⟨ht, hp⟩, hid, R, hR, hsame, hst, hact⟩ := hs
  have hready := hact.ready (hst.trans hpend)
  refine ⟨rules.before _ s rfl (.inl ⟨R, hR, hsame.id, hready⟩) hi, fun x s' ha => ?_⟩
  obtain ⟨o, hex⟩ := rules.exec _ _ _ _ ha
  have hg := ((exec_effect hex).untouched_of rfl).grows (exec_config hex)
  exact ⟨⟨rules.todo_create R _ t _ _ _ _ s x s' ht hi hR hsame.id hready ha, hp.grows hg⟩,
    hid, R, hg.jobRuns R hR, hsame, hst, hact.grows hg⟩

lemma start_call (hpend : J.status = .pending) (runId : String) (startedAt : Timestamp)
    (hs : Held allowed L t Js J s) (hi : D.inv s) :
    D.before (.jobRun J.id (.setJobRunStarted runId startedAt)) s ∧ ∀ x s',
      D.admits (.jobRun J.id (.setJobRunStarted runId startedAt)) s x s' →
        onOk (β := Unit) (fun _ s => L.interrupted s) (fun _ s => Between L t Js s) x s' := by
  obtain ⟨⟨ht, hp⟩, hid, R, hR, hsame, hst, hact⟩ := hs
  have hready := hact.ready (hst.trans hpend)
  refine ⟨rules.before _ s rfl (.inl ⟨R, hR, hsame.id, hready⟩) hi, fun x s' ha => ?_⟩
  have ht' := rules.todo_start R _ t runId startedAt s x s' ht hi hR hsame.id hready ha
  obtain ⟨o, hex⟩ := rules.exec _ _ _ _ ha
  cases x with
  | error e => exact rules.interrupted_of_todo ht'
  | ok a => exact ⟨ht', hp.update hid (exec_effect hex)⟩

lemma retry_call (hlive : J.status.live = true) (hs : Held allowed L t Js J s) (hi : D.inv s) :
    D.before (.jobRun J.id .recordCancelRetry) s ∧ ∀ x s',
      D.admits (.jobRun J.id .recordCancelRetry) s x s' →
        onOk (β := Unit) (fun _ s => L.interrupted s) (fun _ s => Held allowed L t Js J s) x s' := by
  obtain ⟨⟨ht, hp⟩, hid, R, hR, hsame, hst, hact⟩ := hs
  have hlive' : R.status.live = true := hst ▸ hlive
  refine ⟨rules.before _ s rfl (.inl ⟨R, hR, hsame.id, hlive'⟩) hi, fun x s' ha => ?_⟩
  have ht' := rules.todo_retry R _ t s x s' ht hi hR hsame.id hlive' ha
  obtain ⟨o, hex⟩ := rules.exec _ _ _ _ ha
  cases x with
  | error e => exact rules.interrupted_of_todo ht'
  | ok n =>
    refine ⟨⟨ht', hp.update hid (exec_effect hex)⟩, hid, ?_⟩
    cases exec_effect hex with
    | untouched tables _ => exact ⟨R, tables.jobRuns ▸ hR, hsame, hst, .inr hlive'⟩
    | jobRun _ _ now key jobRuns _ _ =>
      refine ⟨R.recordCancelRetry now, ?_, hsame.trans ⟨rfl, rfl, rfl, rfl, rfl, rfl⟩, hst,
        .inr hlive'⟩
      rw [jobRuns, Table.mem_modify]
      exact ⟨R, hR, .inl ⟨hsame.id, rfl⟩⟩

theorem PassRules.round (t Js : List JobRun) (J : JobRun) :
    Round app D J (roundAssertions allowed L t Js J) where
  exec := rules.exec
  held_stable _ _ h hr hi := rules.held_stable h hr hi
  over_stable _ _ h hr hi := ⟨h.1, rules.held_stable h.2 hr hi⟩
  owes_stable s s' h hr hi := owing_stable rules s s' h hr hi
  held_of_over _ h := h.2
  next_of_held _ h := h.between
  idle_of_held _ h := rules.interrupted_of_todo h.between.1
  quiet c s hc h hi := ⟨rules.before_quiet hc hi,
    fun x s' ha => ⟨rules.held_quiet hc h hi ha, fun ho => ⟨ho.1, rules.held_quiet hc h hi ha⟩⟩⟩
  polled _ _ _ hl _ h hi _ _ ha _ _ _ := ⟨hl, rules.held_quiet (c := .runner _ (.getJobRun _)) trivial h hi ha⟩
  create runner name key body s hpend h hi := create_call rules hpend runner name key body h hi
  start runId startedAt s hpend h hi := start_call rules hpend runId startedAt h hi
  missing s s' _ h hi ha := by
    obtain ⟨o, hex⟩ := rules.exec _ _ _ _ ha
    obtain ⟨-, ⟨e, he⟩ | hx⟩ := exec_query hex
    · cases he
    · have hsome := h.runner (rules.wf s hi)
      rw [← Except.ok.inj hx] at hsome
      cases hsome
  retry s hl h hi := retry_call rules hl h hi
  settle ended u s hu h ho hi := settle_call rules hu h (fun he => (ho he).1) hi
  finalize s h hi := finalize_call rules h hi

abbrev AfterRound (L : Ledger) (t Js : List JobRun) {α : Type} : Except String α → Store → Prop :=
  onOk (β := Unit) (fun _ s => L.interrupted s) fun _ s => Between L t Js s

lemma block_safe (hs : L.todo (J :: Js) s ∧ Present (J :: Js) s.db ∧ s.db.Halted J) :
    Safe D (AfterRound L Js Js) (Db.setJobRunStatus J.id .blocked >>= fun _ =>
      Db.finalizePipelineStatus J.pipelineRunId) s := by
  refine settle_safe (rules.round Js Js J) (Safe.request
    (P := fun s => L.todo (J :: Js) s ∧ Present (J :: Js) s.db ∧ s.db.Halted J) hs ?_ ?_)
  · intro s s' h hr hi
    have hg := rules.grows s s' hr
    exact ⟨rules.todo_stable _ s s' h.1 hr hi, h.2.1.grows hg, h.2.2.grows hg⟩
  · intro s' ⟨ht, hp, hh⟩ hi
    obtain ⟨hp', hJ, hid⟩ := hp.tail
    have hj : JobPermits allowed s'.db J (.setJobRunStatus .blocked) := .inl ⟨hh, rfl⟩
    refine ⟨rules.before _ s' rfl (.inl ⟨J, hJ, rfl, hj⟩) hi, fun x s'' ha => ?_⟩
    cases x with
    | error e => exact rules.interrupted_refused J _ _ _ s' e s'' ht hi hJ rfl hj rfl ha
    | ok a =>
      obtain ⟨o, hex⟩ := rules.exec _ _ _ _ ha
      exact ⟨rules.owes_block J Js s' a s'' ht hi hJ hh ha, hp'.update hid (exec_effect hex)⟩

lemma dispatchPendingJob_safe (hpend : J.status = .pending) (hs : Between L (J :: Js) (J :: Js) s) :
    Safe D (AfterRound L Js Js) (dispatchPendingJob app J) s := by
  refine Safe.bind (Safe.request hs (fun _ _ h hr hi => rules.between_stable h hr hi) ?_)
  intro s' ⟨ht, hp⟩ hi
  refine ⟨rules.before_quiet trivial hi, fun x s'' ha => ?_⟩
  have ht' := rules.todo_quiet _ _ _ _ _ (.query _) ht hi ha
  have hexamined := rules.examines _ _ _ _ ha
  obtain ⟨o, hex⟩ := rules.exec _ _ _ _ ha
  obtain ⟨rfl, he | rfl⟩ := exec_query hex
  · obtain ⟨e, rfl⟩ := he
    exact rules.interrupted_of_todo ht'
  · obtain ⟨hp', hJ, hid⟩ := hp.tail
    have wf := rules.wf s'' hi
    have hround (h : ¬ s''.db.Halted J) : Between L Js Js s'' :=
      ⟨rules.todo_skip J Js s'' ht' hi hJ h, hp'⟩
    have hready (h : s''.db.Ready allowed J) :
        Safe D (AfterRound L Js Js) (dispatchReadyJob app J) s'' := by
      have hheld : Held allowed L Js Js J s'' :=
        ⟨hround (h.not_halted wf hJ), hid, J, hJ, .rfl, rfl, .inl h⟩
      exact dispatchReadyJob_safe (rules.round Js Js J) hpend hheld
    change Safe D _ (dispatchExaminedJob app J (s''.db.previousJobsForJobRun J.id)) s''
    simp only [dispatchExaminedJob]
    rcases wf.previousJobs_cases J with ⟨hnil, hnone⟩ | ⟨K, hK, hone⟩
    · rw [hnil]
      refine hready ⟨hpend, ?_⟩
      rcases hexamined J hJ rfl with h | ⟨K, hK, -⟩
      · exact .inl h
      · exact (hnone K hK).elim
    · rw [hone]
      rcases nextReadyJobStatus_cases [K.outcome] with hb | hn | hr
      · simp only [List.map_cons, List.map_nil, hb]
        exact block_safe rules ⟨ht', hp, hpend, K, hK, hb⟩
      · simp only [List.map_cons, List.map_nil, hn]
        refine hround ?_
        rintro ⟨-, K', hK', hb⟩
        rw [wf.previous_unique hK' hK, hn] at hb
        cases hb
      · simp only [List.map_cons, List.map_nil, hr]
        refine hready ⟨hpend, .inr ⟨K, hK, ?_, hr⟩⟩
        rcases hexamined J hJ rfl with h | ⟨K', hK', hallowed⟩
        · obtain ⟨-, hidx⟩ := wf.previous_index hJ hK
          omega
        · exact wf.previous_unique hK' hK ▸ hallowed

abbrev AfterPass (L : Ledger) : Except String Unit → Store → Prop
  | .ok _, s => L.todo [] s
  | .error _, s => L.interrupted s

lemma dispatchPendingJobs_safe (hs : L.idle s) :
    Safe D (AfterPass L) (dispatchPendingJobs app) s := by
  refine Safe.bind (Safe.request hs rules.idle_stable ?_)
  intro s' hs' hi
  refine ⟨rules.before_quiet trivial hi, fun x s'' ha => ?_⟩
  cases x with
  | error e => exact rules.interrupted_of_idle _ (rules.idle_quiet _ _ _ _ (.query _) hs' hi ha)
  | ok jobs =>
    have ht := rules.todo_list s' jobs s'' hs' hi ha
    obtain ⟨o, hex⟩ := rules.exec _ _ _ _ ha
    obtain ⟨rfl, ⟨e, he⟩ | he⟩ := exec_query hex
    · cases he
    · cases he
      refine Safe.forM (I := fun Js s => Between L Js Js s ∧ ∀ J ∈ Js, J.status = .pending)
        (fun s h => h.1.1) ?_ ⟨⟨ht, present_filter _ _⟩, fun J hJ => ?_⟩
      · intro J Js s ⟨hb, hpend⟩
        refine Safe.mono ?_ (dispatchPendingJob_safe rules (hpend J List.mem_cons_self) hb)
        intro r s' hr
        cases r with
        | error e => exact hr
        | ok u => exact ⟨hr, fun K hK => hpend K (List.mem_cons_of_mem _ hK)⟩
      · simpa using (List.mem_filter.mp hJ).2

lemma pollRunningJobs_safe (hs : L.todo [] s) :
    Safe D (AfterPass L) (pollRunningJobs app) s := by
  refine Safe.bind (Safe.request hs (rules.todo_stable []) ?_)
  intro s' hs' hi
  refine ⟨rules.before_quiet (.query _) hi, fun x s'' ha => ?_⟩
  have ht := rules.todo_quiet _ _ _ _ _ (.query _) hs' hi ha
  obtain ⟨o, hex⟩ := rules.exec _ _ _ _ ha
  obtain ⟨rfl, ⟨e, rfl⟩ | rfl⟩ := exec_query hex
  · exact rules.interrupted_of_todo ht
  · refine Safe.forM
      (I := fun Js s => Between L [] Js s ∧ ∀ J ∈ Js, J.status.live = true)
      (fun s h => h.1.1) ?_ ⟨⟨ht, present_filter _ _⟩, fun J hJ => ?_⟩
    · intro J Js s ⟨⟨ht, hp⟩, hlive⟩
      obtain ⟨hp', hJ, hid⟩ := hp.tail
      have hl := hlive J List.mem_cons_self
      have hheld : Held allowed L [] Js J s := ⟨⟨ht, hp'⟩, hid, J, hJ, .rfl, rfl, .inr hl⟩
      refine Safe.mono ?_ (pollRunningJob_safe (rules.round [] Js J) hl hheld)
      intro r s' hr
      cases r with
      | error e => exact hr
      | ok u => exact ⟨hr, fun K hK => hlive K (List.mem_cons_of_mem _ hK)⟩
    · have hst := (List.mem_filter.mp hJ).2
      cases hs : J.status <;> simp_all [JobStatus.live]

omit rules in
lemma requiresRecovery_grows {db db' : Database} (hg : db.Grows db') {p : PipelineRun}
    (h : db.requiresRecovery p = true) : db'.requiresRecovery p = true := by
  simp only [Database.requiresRecovery, Bool.or_eq_true, List.any_eq_true] at h ⊢
  refine h.imp id fun ⟨J, hJ, hst⟩ => ⟨J, ?_, hst⟩
  obtain ⟨hmem, hid⟩ := List.mem_filter.mp hJ
  exact List.mem_filter.mpr ⟨hg.jobRuns J hmem, hid⟩

lemma idle_query_safe {q : Query} (hs : L.idle s) :
    Safe D (fun _ s' => L.idle s') (call (.query q)) s := by
  refine Safe.request hs rules.idle_stable ?_
  intro s' hs' hi
  exact ⟨rules.before_quiet (.query q) hi, fun x s'' ha =>
    rules.idle_quiet _ _ _ _ (.query q) hs' hi ha⟩

abbrev AfterRecovery (L : Ledger) {α : Type} : Except String α → Store → Prop
  | .ok _, s => L.idle s
  | .error _, s => L.interrupted s

def Recovering (L : Ledger) (ps : List PipelineRun) (s : Store) : Prop :=
  L.recovering ps s ∧ (ps.map PipelineRun.id).Nodup ∧
    ∀ p ∈ ps, p ∈ s.db.pipelineRuns.rows ∧ s.db.requiresRecovery p = true

omit rules in
lemma recovered_others {p : PipelineRun} {ps : List PipelineRun} {db db' : Database}
    {status : PipelineStatus} {x : Except String Unit} (hnp : p.id ∉ ps.map PipelineRun.id)
    (hps : ∀ q ∈ ps, q ∈ db.pipelineRuns.rows ∧ db.requiresRecovery q = true)
    (he : Call.Effect db db' (.pipelineRun p.id (.setPipelineStatus status)) x) :
    ∀ q ∈ ps, q ∈ db'.pipelineRuns.rows ∧ db'.requiresRecovery q = true := by
  intro q hq
  obtain ⟨hqm, hqr⟩ := hps q hq
  cases he with
  | untouched tables _ =>
    refine ⟨tables.pipelineRuns ▸ hqm, ?_⟩
    simpa only [Database.requiresRecovery, Database.jobRunsOf, tables.jobRuns] using hqr
  | pipelineRun _ _ now jobRuns pipelineRuns _ =>
    constructor
    · rw [pipelineRuns, Table.mem_modify]
      exact ⟨q, hqm, .inr ⟨fun h => hnp (h ▸ List.mem_map_of_mem hq), rfl⟩⟩
    · simpa only [Database.requiresRecovery, Database.jobRunsOf, jobRuns] using hqr

lemma recoverPipeline_safe {p : PipelineRun} {ps : List PipelineRun} (hs : Recovering L (p :: ps) s) :
    Safe D (onOk (β := Unit) (fun _ s => L.interrupted s) fun _ s => Recovering L ps s)
      (recoverPipeline p) s := by
  refine Safe.request (P := fun s => Recovering L (p :: ps) s) hs ?_ ?_
  · intro s s' h hr hi
    have hg := rules.grows s s' hr
    exact ⟨rules.recovering_stable _ s s' h.1 hr hi, h.2.1, fun q hq =>
      ⟨hg.pipelineRuns q (h.2.2 q hq).1, requiresRecovery_grows hg (h.2.2 q hq).2⟩⟩
  · intro s' ⟨hs', hnodup, hps⟩ hi
    obtain ⟨hp, hreq⟩ := hps p List.mem_cons_self
    obtain ⟨hnp, hnodup⟩ := List.nodup_cons.mp hnodup
    refine ⟨rules.before _ s' rfl (.inl ⟨p, hp, rfl, hreq, rfl⟩) hi, fun x s'' ha => ?_⟩
    have hs'' := rules.recovering_set p ps s' x s'' hs' hi hp ha
    obtain ⟨o, hex⟩ := rules.exec _ _ _ _ ha
    cases x with
    | error e => exact hs''
    | ok u =>
      exact ⟨hs'', hnodup, recovered_others hnp
        (fun q hq => hps q (List.mem_cons_of_mem _ hq)) (exec_effect hex)⟩

lemma recoverIncompletePipelines_safe (hs : L.interrupted s) :
    Safe D (AfterRecovery L) recoverIncompletePipelines s := by
  refine Safe.bind (Safe.request hs rules.interrupted_stable ?_)
  intro s' hs' hi
  refine ⟨rules.before_quiet (.query _) hi, fun x s'' ha => ?_⟩
  obtain ⟨o, hex⟩ := rules.exec _ _ _ _ ha
  cases x with
  | error e => exact rules.interrupted_quiet _ _ _ _ (.query _) hs' hi ha
  | ok pipelines =>
    have hlisted := rules.recovering_list s' pipelines s'' hs' hi ha
    obtain ⟨rfl, ⟨e, he⟩ | he⟩ := exec_query hex
    · cases he
    · cases he
      refine Safe.forM (I := Recovering L) (fun s h => rules.idle_of_recovering s h.1) ?_
        ⟨hlisted, ?_, fun p hp => List.mem_filter.mp hp⟩
      · intro p ps s hs
        refine Safe.mono ?_ (recoverPipeline_safe rules hs)
        intro r s' hr
        cases r <;> exact hr
      · exact s''.db.pipelineRuns.unique.sublist (List.filter_sublist.map _)

lemma PassRules.enqueueRules : EnqueueRules app own D L.idle where
  wf := rules.wf
  leaves := rules.leaves
  exec := rules.exec
  before c s hp hi _ := rules.before c s hp.finalizes (.inr hp) hi
  stable := rules.idle_stable
  keeps := rules.idle_enqueue

variable (hown : ∀ eventId refIndex, own (.push eventId refIndex))

include hown

lemma processPushWorkflow_safe (event : PushEvent) (workflow : Workflow) (hs : L.idle s) :
    Safe D (fun _ s' => L.idle s') (processPushWorkflow app event workflow) s := by
  simp only [processPushWorkflow]
  cases workflow.triggerJson with
  | error e => exact hs
  | ok trigger =>
    simp only [fromStr, Program.done_bind]
    refine Safe.ite (fun _ => ?_) fun _ => hs
    refine Safe.forM (I := fun _ s => L.idle s) (fun _ h => h) ?_ hs
    rintro ⟨refUpdate, index⟩ refs s hs
    refine Safe.ite (fun _ => ?_) fun _ => hs
    refine Safe.bind (Safe.attempt (Safe.mono ?_
      (enqueue_safe rules.enqueueRules workflow "push" _ _ [] (hown event.id index) hs)))
    intro r s' hs'
    cases r with
    | ok id => exact hs'
    | error e => exact Safe.ite (fun _ => hs') fun _ => hs'

lemma processPushEvents_safe (hs : L.idle s) :
    Safe D (fun _ s' => L.idle s') (processPushEvents app) s := by
  refine Safe.bind (Safe.mono ?_ (idle_query_safe rules hs))
  intro r s₁ hs₁
  cases r with
  | error e => exact hs₁
  | ok events =>
    refine Safe.forM (I := fun _ s => L.idle s) (fun _ h => h) ?_ hs₁
    intro event events s hs
    refine Safe.bind (Safe.mono ?_ (idle_query_safe rules hs))
    intro r s₂ hs₂
    cases r with
    | error e => exact hs₂
    | ok workflows =>
      have hloop : Safe D (fun _ s' => L.idle s')
          ((workflows.filter (·.enabled)).forM (processPushWorkflow app event)) s₂ := by
        refine Safe.forM (I := fun _ s => L.idle s) (fun _ h => h) ?_ hs₂
        intro workflow workflows s hs
        refine Safe.mono ?_ (processPushWorkflow_safe rules hown event workflow hs)
        intro r s' hs'
        cases r <;> exact hs'
      refine Safe.bind (Safe.mono ?_ hloop)
      intro r s₃ hs₃
      cases r with
      | error e => exact hs₃
      | ok u =>
        refine Safe.request hs₃ rules.idle_stable ?_
        intro s₄ hs₄ hi
        refine ⟨rules.before_quiet trivial hi, fun x s₅ ha => ?_⟩
        have := rules.idle_quiet (.markPushEventProcessed event.id) _ _ _ trivial hs₄ hi ha
        cases x <;> exact this

theorem reconcileOnce_safe (hs : L.interrupted s) : Safe D (AfterPass L) (reconcileOnce app) s := by
  refine Safe.bind (Safe.mono ?_ (recoverIncompletePipelines_safe rules hs))
  intro r s₁ hs₁
  cases r with
  | error e => exact hs₁
  | ok u =>
    refine Safe.bind (Safe.mono ?_ (processPushEvents_safe rules hown hs₁))
    intro r s₂ hs₂
    cases r with
    | error e => exact rules.interrupted_of_idle _ hs₂
    | ok u =>
      refine Safe.bind (Safe.mono ?_ (dispatchPendingJobs_safe rules hs₂))
      intro r s₃ hs₃
      cases r with
      | error e => exact hs₃
      | ok u => exact pollRunningJobs_safe rules hs₃

end

end Janus.Server
