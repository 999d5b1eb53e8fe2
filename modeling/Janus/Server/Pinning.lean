import Janus.Server.Effects
import Janus.Server.Footprint

/-! What a job is dispatched with: the definition and the schema of the version that its pipeline was
created from. -/

namespace Janus.Concurrency

namespace Program

variable {C : Type} {X : C → Type} {ε α : Type}

def Returns : Program C X ε α → Except ε α → Prop
  | .done r, x => r = x
  | .call _ next, x => ∃ a, (next a).Returns x

end Program

lemma Safe.returns {C : Type} {X : C → Type} {ε α σ : Type} {D : Discipline C X ε σ}
    {post : Except ε α → σ → Prop} {p : Program C X ε α} {s : σ} (h : Safe D post p s) :
    Safe D (fun x s => post x s ∧ p.Returns x) p s := by
  induction p generalizing s with
  | done r => exact ⟨h, rfl⟩
  | call c next ih =>
    intro s' hr hi
    obtain ⟨hb, hn⟩ := h s' hr hi
    refine ⟨hb, fun x s'' ha => Safe.mono ?_ (ih x (hn x s'' ha))⟩
    exact fun r t hrt => ⟨hrt.1, x, hrt.2⟩

end Janus.Concurrency

namespace Janus.Server

open Janus.Concurrency Janus.Data

structure Database.Retains (db db' : Database) : Prop where
  jobRuns : ∀ J ∈ db.jobRuns.rows, ∃ J' ∈ db'.jobRuns.rows, J.Same J'
  pipelineRuns : ∀ P ∈ db.pipelineRuns.rows, ∃ P' ∈ db'.pipelineRuns.rows,
    P'.id = P.id ∧ P'.workflowVersionId = P.workflowVersionId
  workflowVersions : ∀ V ∈ db.workflowVersions.rows, V ∈ db'.workflowVersions.rows

/-- The version that the pipeline was created from holds this definition and this schema of its job. -/
def Database.PinsAt (db : Database) (pipelineId : Id) (jobIndex : ℕ)
    (jobDefinition : WorkflowJobDefinition) (schema : RunnerJobDefinition) : Prop :=
  ∃ P ∈ db.pipelineRuns.rows, P.id = pipelineId ∧
    ∃ V ∈ db.workflowVersions.rows, V.id = P.workflowVersionId ∧ ∃ definition,
      V.definitionJson = .ok definition ∧ definition.jobs[jobIndex]? = some jobDefinition ∧
        V.jobSchemas[jobIndex]? = some schema

def Database.Pins (db : Database) (id : Id) (jobDefinition : WorkflowJobDefinition)
    (schema : RunnerJobDefinition) : Prop :=
  ∃ J ∈ db.jobRuns.rows, J.id = id ∧ db.PinsAt J.pipelineRunId J.jobIndex jobDefinition schema

def Call.Pinned (db : Database) : Call → Prop
  | .runner _ (.createJobRun id _ _ body) => ∃ pipeline jobIndex jobDefinition schema payload,
    db.Pins id jobDefinition schema ∧ payload.entries = body ∧
      (resolveJobInputs pipeline id jobIndex jobDefinition schema).Returns (.ok payload)
  | _ => True

section

variable {app : AppState} {o : Outcome} {s s' : Store} {db db' db'' : Database}

lemma Database.Retains.rfl : db.Retains db :=
  ⟨fun J hJ => ⟨J, hJ, .rfl⟩, fun P hP => ⟨P, hP, .refl _, .refl _⟩, fun _ hV => hV⟩

lemma Database.Retains.trans (h : db.Retains db') (h' : db'.Retains db'') : db.Retains db'' := by
  refine ⟨fun J hJ => ?_, fun P hP => ?_, fun V hV => h'.workflowVersions V (h.workflowVersions V hV)⟩
  · obtain ⟨J', hJ', hsame⟩ := h.jobRuns J hJ
    obtain ⟨J'', hJ'', hsame'⟩ := h'.jobRuns J' hJ'
    exact ⟨J'', hJ'', hsame.trans hsame'⟩
  · obtain ⟨P', hP', hid, hversion⟩ := h.pipelineRuns P hP
    obtain ⟨P'', hP'', hid', hversion'⟩ := h'.pipelineRuns P' hP'
    exact ⟨P'', hP'', hid'.trans hid, hversion'.trans hversion⟩

lemma Database.Retains.of_rows (hjobs : ∀ J ∈ db.jobRuns.rows, ∃ J' ∈ db'.jobRuns.rows, J.Same J')
    (hpipelines : ∀ P ∈ db.pipelineRuns.rows, ∃ P' ∈ db'.pipelineRuns.rows,
      P'.id = P.id ∧ P'.workflowVersionId = P.workflowVersionId)
    (hversions : db'.workflowVersions = db.workflowVersions) : db.Retains db' :=
  ⟨hjobs, hpipelines, fun _ hV => hversions ▸ hV⟩

lemma PipelineUpdate.row_version (db : Database) (now : Timestamp) (id : Id) (u : PipelineUpdate)
    (P : PipelineRun) : (u.row db now id P).workflowVersionId = P.workflowVersionId := by
  cases u <;> rfl

theorem exec_retains {c : Call} {x : Except String c.Result} (h : c.exec app o s = (x, s')) :
    s.db.Retains s'.db := by
  have hversions := (exec_config h).workflowVersions
  have hjobs (he : s'.db.jobRuns = s.db.jobRuns) :
      ∀ J ∈ s.db.jobRuns.rows, ∃ J' ∈ s'.db.jobRuns.rows, J.Same J' :=
    fun J hJ => ⟨J, he ▸ hJ, .rfl⟩
  have hpipelines (he : s'.db.pipelineRuns = s.db.pipelineRuns) :
      ∀ P ∈ s.db.pipelineRuns.rows, ∃ P' ∈ s'.db.pipelineRuns.rows,
        P'.id = P.id ∧ P'.workflowVersionId = P.workflowVersionId :=
    fun P hP => ⟨P, he ▸ hP, rfl, rfl⟩
  cases exec_effect h with
  | untouched tables _ => exact .of_rows (hjobs tables.jobRuns) (hpipelines tables.pipelineRuns) hversions
  | jobRun id u now key jobRuns pipelineRuns _ =>
    refine .of_rows (fun J hJ => ?_) (hpipelines pipelineRuns) hversions
    rw [jobRuns]
    by_cases hid : J.id = id
    · exact ⟨_, Table.mem_modify.mpr ⟨J, hJ, .inl ⟨hid, rfl⟩⟩, u.row_same now key J⟩
    · exact ⟨J, Table.mem_modify.mpr ⟨J, hJ, .inr ⟨hid, rfl⟩⟩, .rfl⟩
  | pipelineRun id u now jobRuns pipelineRuns _ =>
    refine .of_rows (hjobs jobRuns) (fun P hP => ?_) hversions
    rw [pipelineRuns]
    by_cases hid : P.id = id
    · exact ⟨_, Table.mem_modify.mpr ⟨P, hP, .inl ⟨hid, rfl⟩⟩, u.row_id s.db now id P,
        u.row_version s.db now id P⟩
    · exact ⟨P, Table.mem_modify.mpr ⟨P, hP, .inr ⟨hid, rfl⟩⟩, rfl, rfl⟩
  | createPipelineRun _ _ _ _ _ _ _ _ _ jobRuns pipelineRuns _ _ =>
    refine .of_rows (hjobs jobRuns) (fun P hP => ⟨P, ?_, rfl, rfl⟩) hversions
    rw [Table.rows_insert? pipelineRuns]
    exact List.mem_append_left _ hP
  | createJobRun _ _ _ _ _ _ _ _ _ jobRuns pipelineRuns _ _ =>
    refine .of_rows (fun J hJ => ⟨J, ?_, .rfl⟩) (hpipelines pipelineRuns) hversions
    rw [Table.rows_insert? jobRuns]
    exact List.mem_append_left _ hJ
  | addPreviousJob _ _ _ _ jobRuns pipelineRuns _ _ =>
    exact .of_rows (hjobs jobRuns) (hpipelines pipelineRuns) hversions

variable {id : Id} {jobDefinition : WorkflowJobDefinition} {schema : RunnerJobDefinition}

lemma Database.PinsAt.retains {pipelineId : Id} {jobIndex : ℕ}
    (h : db.PinsAt pipelineId jobIndex jobDefinition schema) (hr : db.Retains db') :
    db'.PinsAt pipelineId jobIndex jobDefinition schema := by
  obtain ⟨P, hP, hPid, V, hV, hVid, hrest⟩ := h
  obtain ⟨P', hP', hPid', hversion⟩ := hr.pipelineRuns P hP
  exact ⟨P', hP', hPid'.trans hPid, V, hr.workflowVersions V hV, hVid.trans hversion.symm, hrest⟩

lemma Database.Pins.retains (h : db.Pins id jobDefinition schema) (hr : db.Retains db') :
    db'.Pins id jobDefinition schema := by
  obtain ⟨J, hJ, hid, hpins⟩ := h
  obtain ⟨J', hJ', hsame⟩ := hr.jobRuns J hJ
  refine ⟨J', hJ', hsame.id.trans hid, ?_⟩
  rw [hsame.pipelineRunId, hsame.jobIndex]
  exact hpins.retains hr

lemma Database.Retains.pinsAt_iff (hr : db.Retains db') {P : PipelineRun}
    (hP : P ∈ db.pipelineRuns.rows)
    (hversion : ∃ V ∈ db.workflowVersions.rows, V.id = P.workflowVersionId) {jobIndex : ℕ} :
    db'.PinsAt P.id jobIndex jobDefinition schema ↔ db.PinsAt P.id jobIndex jobDefinition schema := by
  refine ⟨?_, fun h => h.retains hr⟩
  rintro ⟨P₁, hP₁, hPid₁, V₁, hV₁, hVid₁, hrest⟩
  obtain ⟨P', hP', hPid', hversion'⟩ := hr.pipelineRuns P hP
  obtain rfl := Table.eq_of_mem hP₁ hP' (hPid₁.trans hPid'.symm)
  obtain ⟨V, hV, hVid⟩ := hversion
  obtain rfl := Table.eq_of_mem hV₁ (hr.workflowVersions V hV)
    (hVid₁.trans (hversion'.trans hVid.symm))
  exact ⟨P, hP, .refl _, V₁, hV, hVid, hrest⟩

end

def pinning (app : AppState) : Discipline Call Call.Result String Store where
  rely s s' := s.db.Retains s'.db
  inv _ := True
  admits c s x s' := ∃ o, c.exec app o s = (x, s')
  before c s := c.Pinned s.db

def Store.Knows (Js : List JobRun) (s : Store) : Prop :=
  ∀ J ∈ Js, ∃ R ∈ s.db.jobRuns.rows, J.Same R

def Store.Chosen (J : JobRun) (v : Id) (s : Store) : Prop :=
  ∃ R ∈ s.db.jobRuns.rows, J.Same R ∧ ∃ P ∈ s.db.pipelineRuns.rows, P.id = R.pipelineRunId ∧
    P.workflowVersionId = v

def Store.Defines (v : Id) (definition : WorkflowDefinition) (s : Store) : Prop :=
  ∃ V ∈ s.db.workflowVersions.rows, V.id = v ∧ V.definitionJson = .ok definition

section

variable {app : AppState} {s s' : Store} {J : JobRun} {Js : List JobRun} {v : Id}
variable {definition : WorkflowDefinition}

lemma Store.Knows.retains (h : s.Knows Js) (hr : s.db.Retains s'.db) : s'.Knows Js := by
  intro J hJ
  obtain ⟨R, hR, hsame⟩ := h J hJ
  obtain ⟨R', hR', hsame'⟩ := hr.jobRuns R hR
  exact ⟨R', hR', hsame.trans hsame'⟩

lemma Store.Chosen.retains (h : s.Chosen J v) (hr : s.db.Retains s'.db) : s'.Chosen J v := by
  obtain ⟨R, hR, hsame, P, hP, hPid, hversion⟩ := h
  obtain ⟨R', hR', hsame'⟩ := hr.jobRuns R hR
  obtain ⟨P', hP', hPid', hversion'⟩ := hr.pipelineRuns P hP
  refine ⟨R', hR', hsame.trans hsame', P', hP', ?_, hversion'.trans hversion⟩
  rw [hPid', hPid, hsame'.pipelineRunId]

lemma Store.Defines.retains (h : s.Defines v definition) (hr : s.db.Retains s'.db) :
    s'.Defines v definition := by
  obtain ⟨V, hV, hrest⟩ := h
  exact ⟨V, hr.workflowVersions V hV, hrest⟩

lemma Store.pins_of_lookups {jobDefinition : WorkflowJobDefinition} {schema : RunnerJobDefinition}
    (hchosen : s.Chosen J v) (hdefines : s.Defines v definition)
    (hjob : definition.jobs[J.jobIndex]? = some jobDefinition)
    (hschema : (s.db.workflowJobSchemas v)[J.jobIndex]? = some schema) :
    s.db.Pins J.id jobDefinition schema := by
  obtain ⟨R, hR, hsame, P, hP, hPid, hversion⟩ := hchosen
  obtain ⟨V, hV, hVid, hdefinition⟩ := hdefines
  refine ⟨R, hR, hsame.id, P, hP, hPid, V, hV, hVid.trans hversion.symm, definition, hdefinition,
    ?_, ?_⟩
  · rwa [hsame.jobIndex]
  · simp only [Database.workflowJobSchemas, ← hVid, Table.find?_of_mem hV] at hschema
    rwa [hsame.jobIndex]

lemma Call.pinned_of_unsent {db : Database} {c : Call} (h : c.sends = none) : c.Pinned db := by
  cases c with
  | runner r request =>
    cases request with
    | createJobRun _ _ _ _ => cases h
    | _ => trivial
  | _ => trivial

lemma unsent_footprint : PollFootprint fun c => c.sends = none where
  query _ := rfl
  processed _ := rfl
  cancelRun _ _ := rfl
  insert _ := rfl
  pipelineRun _ _ := rfl
  cancelRequested _ _ := rfl
  canceled _ := rfl
  quiet _ h := h.not_sends
  status _ _ := rfl
  fail _ _ _ _ _ _ := rfl
  retry _ := rfl
  requeue _ := rfl
  exhausted _ := rfl
  finish _ _ _ _ _ _ _ _ _ _ _ := rfl

lemma unsent_safe {α : Type} {A : Store → Prop}
    (hA : ∀ s s', A s → s.db.Retains s'.db → A s') {p : Task α} (hp : p.Only fun c => c.sends = none)
    (hs : A s) : Safe (pinning app) (fun _ s' => A s') p s := by
  refine Safe.of_only (fun _ _ h hr _ => hA _ _ h hr) (fun _ _ hc _ _ => Call.pinned_of_unsent hc) ?_
    hp hs
  rintro c s x s' - h - ⟨o, ho⟩
  exact hA _ _ h (exec_retains ho)

lemma pinning_bind {α β : Type} {A B : Store → Prop} {p : Task α} {f : α → Task β}
    (hp : Safe (pinning app) (fun _ s' => A s') p s) (herror : ∀ s, A s → B s)
    (hf : ∀ a s, A s → Safe (pinning app) (fun _ s' => B s') (f a) s) :
    Safe (pinning app) (fun _ s' => B s') (p >>= f) s := by
  refine Safe.bind (Safe.mono ?_ hp)
  intro x s' hx
  cases x with
  | error e => exact herror s' hx
  | ok a => exact hf a s' hx

lemma lookup_safe {β : Type} {A B : Store → Prop} {q : Query} {f : q.Result → Task β}
    (hA : ∀ s s', A s → s.db.Retains s'.db → A s') (hs : A s) (herror : ∀ s, A s → B s)
    (hf : ∀ a s, A s → q.eval s.db = .ok a → Safe (pinning app) (fun _ s' => B s') (f a) s) :
    Safe (pinning app) (fun _ s' => B s') (call (.query q) >>= f) s := by
  refine Safe.bind (Safe.request hs (fun _ _ h hr _ => hA _ _ h hr) fun s₁ hs₁ _ => ⟨trivial, ?_⟩)
  rintro x s₂ ⟨o, ho⟩
  obtain ⟨rfl, ⟨e, rfl⟩ | rfl⟩ := exec_query ho
  · exact herror _ hs₁
  · cases hx : q.eval s₂.db with
    | error e => exact herror _ hs₁
    | ok a => exact hf a s₂ hs₁ hx

lemma createAndStartJob_pinned {runner : Runner} {payload : BTreeMap Value} {A : Store → Prop}
    (hA : ∀ s s', A s → s.db.Retains s'.db → A s')
    (hpinned : ∀ s, A s → (Call.runner runner (.createJobRun J.id J.runnerJobName
      J.dispatchIdempotencyKey payload.entries)).Pinned s.db) (hs : A s) :
    Safe (pinning app) (fun _ s' => A s') (createAndStartJob J runner payload) s := by
  refine pinning_bind (unsent_safe hA (only_call rfl) hs) (fun _ h => h) fun _ s₁ hs₁ => ?_
  refine pinning_bind (Safe.attempt (Safe.request hs₁ (fun _ _ h hr _ => hA _ _ h hr) ?_)) (fun _ h => h) ?_
  · rintro s₂ hs₂ -
    refine ⟨hpinned s₂ hs₂, ?_⟩
    rintro x s₃ ⟨o, ho⟩
    exact hA _ _ hs₂ (exec_retains ho)
  · intro result s₂ hs₂
    cases result with
    | ok created => exact unsent_safe hA (only_call rfl) hs₂
    | error message =>
      refine unsent_safe hA (Program.Only.ite (fun _ => ?_) fun _ => .fail _) hs₂
      exact .bind (only_call rfl) fun _ => unsent_footprint.jobs.finalize _

lemma resolveAndCreateJob_pinned {runner : Runner} {pipeline : PipelineRun}
    {jobDefinition : WorkflowJobDefinition} {schema : RunnerJobDefinition}
    (hpins : s.db.Pins J.id jobDefinition schema) (hs : s.Knows Js) :
    Safe (pinning app) (fun _ s' => s'.Knows Js)
      (resolveAndCreateJob app J runner pipeline jobDefinition schema) s := by
  have hA (s s' : Store) (h : s.Knows Js ∧ s.db.Pins J.id jobDefinition schema)
      (hr : s.db.Retains s'.db) : s'.Knows Js ∧ s'.db.Pins J.id jobDefinition schema :=
    ⟨h.1.retains hr, h.2.retains hr⟩
  have hresolved : Safe (pinning app) _ (resolveJobInputs pipeline J.id J.jobIndex jobDefinition schema)
      s := (unsent_safe hA ((resolveJobInputs_only _ _ _ _ _).mono fun _ h => h.not_sends)
        ⟨hs, hpins⟩).returns
  refine Safe.bind (Safe.attempt (Safe.mono ?_ hresolved))
  rintro x s₁ ⟨hs₁, hreturns⟩
  cases x with
  | ok payload =>
    refine Safe.mono (fun _ _ h => h.1) (createAndStartJob_pinned hA (fun s₂ hs₂ => ?_) hs₁)
    exact ⟨pipeline, J.jobIndex, jobDefinition, schema, payload, hs₂.2, rfl, hreturns⟩
  | error message =>
    refine unsent_safe (fun _ _ h hr => h.retains hr) (Program.Only.ite (fun _ => ?_) fun _ => .fail _)
      hs₁.1
    exact unsent_footprint.jobs.retryOrFailInfraError _ _ _ _ _

lemma dispatchAtRunner_pinned {runner : Runner} (hJ : J ∈ Js) (hs : s.Knows Js) :
    Safe (pinning app) (fun _ s' => s'.Knows Js) (dispatchAtRunner app J runner) s := by
  have hknows (s s' : Store) (h : s.Knows Js) (hr : s.db.Retains s'.db) : s'.Knows Js := h.retains hr
  refine Safe.ite (fun _ => ?_) fun _ => hs
  refine lookup_safe hknows hs (fun _ h => h) fun pipeline s₁ hs₁ hpipeline => ?_
  cases pipeline with
  | none => exact hs₁
  | some pipeline =>
    have hchosen : s₁.Chosen J pipeline.workflowVersionId := by
      obtain ⟨R, hR, hsame⟩ := hs₁ J hJ
      have hfound : (s₁.db.jobRuns.find? J.id).bind
          (fun job => s₁.db.pipelineRuns.find? job.pipelineRunId) = some pipeline :=
        Except.ok.inj hpipeline
      rw [← hsame.id, Table.find?_of_mem hR, Option.bind_some] at hfound
      exact ⟨R, hR, hsame, pipeline, Table.mem_of_find? hfound, Table.key_of_find? hfound, rfl⟩
    have hA (s s' : Store) (h : s.Knows Js ∧ s.Chosen J pipeline.workflowVersionId)
        (hr : s.db.Retains s'.db) : s'.Knows Js ∧ s'.Chosen J pipeline.workflowVersionId :=
      ⟨h.1.retains hr, h.2.retains hr⟩
    refine lookup_safe hA ⟨hs₁, hchosen⟩ (fun _ h => h.1) fun definitionJson s₂ hs₂ hjson => ?_
    cases definitionJson with
    | error e => exact hs₂.1
    | ok definition =>
      have hdefines : s₂.Defines pipeline.workflowVersionId definition := by
        simp only [Query.eval, Database.workflowDefinitionJson] at hjson
        split at hjson
        · next V hV =>
          exact ⟨V, Table.mem_of_find? hV, Table.key_of_find? hV, Except.ok.inj hjson⟩
        · cases hjson
      refine lookup_safe (A := fun s => (s.Knows Js ∧ s.Chosen J pipeline.workflowVersionId) ∧
        s.Defines pipeline.workflowVersionId definition) (fun s s' h hr => ⟨hA s s' h.1 hr, h.2.retains hr⟩)
        ⟨hs₂, hdefines⟩ (fun _ h => h.1.1) fun jobSchemas s₃ hs₃ hschemas => ?_
      obtain rfl := Except.ok.inj hschemas
      split
      · next jobDefinition schema hjob hschema =>
        exact resolveAndCreateJob_pinned (Store.pins_of_lookups hs₃.1.2 hs₃.2 hjob hschema) hs₃.1.1
      · exact hs₃.1.1

lemma dispatchPendingJob_pinned (hJ : J ∈ Js) (hs : s.Knows Js) :
    Safe (pinning app) (fun _ s' => s'.Knows Js) (dispatchPendingJob app J) s := by
  have hknows (s s' : Store) (h : s.Knows Js) (hr : s.db.Retains s'.db) : s'.Knows Js := h.retains hr
  refine pinning_bind (unsent_safe hknows (only_call rfl) hs) (fun _ h => h) fun previousJobs s₁ hs₁ => ?_
  simp only [dispatchExaminedJob]
  split
  · refine unsent_safe hknows ?_ hs₁
    exact .bind (only_call rfl) fun _ => unsent_footprint.jobs.finalize _
  · exact hs₁
  · refine pinning_bind (unsent_safe hknows (only_call rfl) hs₁) (fun _ h => h) fun runner s₂ hs₂ => ?_
    cases runner with
    | none => exact unsent_safe hknows (only_call rfl) hs₂
    | some runner => exact dispatchAtRunner_pinned hJ hs₂

lemma dispatchPendingJobs_pinned (s : Store) :
    Safe (pinning app) (fun _ _ => True) (dispatchPendingJobs app) s := by
  refine lookup_safe (A := fun _ => True) (B := fun _ => True) (fun _ _ _ _ => trivial) trivial
    (fun _ _ => trivial) fun jobs s₁ _ hjobs => ?_
  have hstart : s₁.Knows jobs := by
    intro J hJ
    rw [← Except.ok.inj hjobs] at hJ
    exact ⟨J, (List.mem_filter.mp hJ).1, .rfl⟩
  refine Safe.forM (I := fun Js s => s.Knows Js) (fun _ _ => trivial) ?_ hstart
  intro J Js s hs
  refine Safe.mono ?_ (dispatchPendingJob_pinned List.mem_cons_self hs)
  intro x s' h
  cases x with
  | error e => trivial
  | ok u => exact fun K hK => h K (List.mem_cons_of_mem _ hK)

theorem program_pinned (r : Role) (s : Store) :
    Safe (pinning app) (fun _ _ => True) (r.program app) s := by
  have hunsent {α : Type} {p : Task α} (hp : p.Only fun c => c.sends = none) (s : Store) :
      Safe (pinning app) (fun _ _ => True) p s :=
    unsent_safe (A := fun _ => True) (fun _ _ _ _ => trivial) hp trivial
  have h := unsent_footprint
  cases r with
  | recovery => exact hunsent h.recoverIncompletePipelines s
  | pushEvents => exact hunsent h.processPushEvents s
  | dispatch => exact dispatchPendingJobs_pinned s
  | poll => exact hunsent h.pollRunningJobs s
  | reconcile =>
    refine pinning_bind (A := fun _ => True) (hunsent h.recoverIncompletePipelines s) (fun _ _ => trivial)
      fun _ s₁ _ => ?_
    refine pinning_bind (A := fun _ => True) (hunsent h.processPushEvents s₁) (fun _ _ => trivial)
      fun _ s₂ _ => ?_
    refine pinning_bind (A := fun _ => True) (dispatchPendingJobs_pinned s₂) (fun _ _ => trivial)
      fun _ s₃ _ => ?_
    exact hunsent h.pollRunningJobs s₃
  | cancel pipelineId => exact hunsent (h.cancelPipeline pipelineId) s
  | enqueue number workflow triggerType triggerRef commitSha selections =>
    exact hunsent (.bind (h.enqueue _ _ _ _ _ _) fun _ => .pure _) s

end

end Janus.Server
