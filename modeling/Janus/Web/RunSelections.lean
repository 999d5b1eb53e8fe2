import Janus.Web.Promotions

/-! The artifacts of a run are promotable while its request is served, and the reruns that go back to it
retain them. -/

namespace Janus.Web

open Janus.Concurrency Janus.Data Janus.Server

section

variable {definition : WorkflowDefinition}

lemma mem_manualArtifactRequirements {requirement : ManualArtifactRequirement} :
    requirement ∈ manualArtifactRequirements definition ↔
      ∃ job, definition.jobs[requirement.jobIndex]? = some job ∧ job.inputs.get requirement.inputName =
        some (.promotedArtifact requirement.sourceRunnerId requirement.sourceJobName
          requirement.outputName) := by
  simp only [manualArtifactRequirements, List.mem_flatMap, List.mem_filterMap]
  constructor
  · rintro ⟨⟨job, jobIndex⟩, hjob, ⟨inputName, binding⟩, hentry, heq⟩
    cases binding with
    | promotedArtifact sourceRunnerId sourceJobName outputName =>
      obtain rfl := Option.some.inj heq
      exact ⟨job, List.mem_zipIdx_iff_getElem?.mp hjob, OrderedMap.get_eq_some_iff.mpr hentry⟩
    | _ => cases heq
  · rintro ⟨job, hjob, hentry⟩
    exact ⟨(job, requirement.jobIndex), List.mem_zipIdx_iff_getElem?.mpr hjob, _,
      OrderedMap.get_eq_some_iff.mp hentry, rfl⟩

def ManualArtifactRequirement.key (requirement : ManualArtifactRequirement) : ℕ × String :=
  (requirement.jobIndex, requirement.inputName)

lemma filterMap_requirement_sublist (jobIndex : ℕ) (entries : List (String × WorkflowInputBinding)) :
    ((entries.filterMap (manualArtifactRequirement jobIndex)).map (·.inputName)).Sublist
      (entries.map Prod.fst) := by
  induction entries with
  | nil => exact .slnil
  | cons entry entries ih =>
    obtain ⟨inputName, binding⟩ := entry
    cases binding with
    | promotedArtifact sourceRunnerId sourceJobName outputName => exact ih.cons_cons inputName
    | _ => exact ih.cons inputName

lemma manualArtifactRequirements_nodup :
    ((manualArtifactRequirements definition).map ManualArtifactRequirement.key).Nodup := by
  have hindex {job : WorkflowJobDefinition} {jobIndex : ℕ} {key : ℕ × String}
      (h : key ∈ (job.inputs.entries.filterMap (manualArtifactRequirement jobIndex)).map
        ManualArtifactRequirement.key) : key.1 = jobIndex := by
    obtain ⟨requirement, hmem, rfl⟩ := List.mem_map.mp h
    obtain ⟨⟨inputName, binding⟩, -, heq⟩ := List.mem_filterMap.mp hmem
    cases binding with
    | promotedArtifact _ _ _ =>
      obtain rfl := Option.some.inj heq
      rfl
    | _ => cases heq
  rw [manualArtifactRequirements, List.map_flatMap, List.nodup_flatMap]
  refine ⟨fun ⟨job, jobIndex⟩ _ => ?_, ?_⟩
  · have hnames := OrderedMap.keys_nodup.sublist
      (filterMap_requirement_sublist jobIndex job.inputs.entries)
    refine List.Nodup.of_map Prod.snd ?_
    rw [List.map_map]
    exact hnames
  · have hindices : definition.jobs.zipIdx.Pairwise fun a b => a.2 ≠ b.2 := by
      apply List.pairwise_map.mp
      rw [List.zipIdx_map_snd]
      exact List.nodup_range'
    refine hindices.imp fun hne => List.disjoint_left.mpr fun key hkey hkey' => ?_
    exact hne ((hindex hkey).symm.trans (hindex hkey'))

end

/-- What is stored for the pipeline and the bindings of promoted artifacts in the definition match one
to one, and in a state that was met each artifact was promotable to its binding. -/
structure Site.Selects (s : Site) (met : Site → Prop) (P : PipelineRun)
    (definition : WorkflowDefinition) : Prop where
  nodup : ((s.db.selectionsOf P.id).map fun selection =>
    (selection.jobIndex, selection.inputName)).Nodup
  bound : ∀ selection ∈ s.db.selectionsOf P.id, ∃ job runnerId jobName outputName,
    definition.jobs[selection.jobIndex]? = some job ∧
      job.inputs.get selection.inputName = some (.promotedArtifact runnerId jobName outputName) ∧
        ∃ s', met s' ∧ ∃ row producer pipeline, s'.db.Promotes P.repoId runnerId jobName outputName
          selection.serverArtifactId row producer pipeline
  complete : ∀ jobIndex job inputName runnerId jobName outputName,
    definition.jobs[jobIndex]? = some job →
      job.inputs.get inputName = some (.promotedArtifact runnerId jobName outputName) →
        ∃ selection ∈ s.db.selectionsOf P.id,
          selection.jobIndex = jobIndex ∧ selection.inputName = inputName

section

variable {met : Site → Prop} {repoId : Id} {requirements : List ManualArtifactRequirement}
variable {selections : List WorkflowRunArtifactSelection}

lemma chosen_keys (h : List.Forall₂ (Chosen met repoId) requirements selections) :
    (selections.map fun selection => (selection.jobIndex, selection.inputName)) =
      requirements.map ManualArtifactRequirement.key := by
  induction h with
  | nil => rfl
  | cons hchosen _ ih =>
    rw [List.map_cons, List.map_cons, ih, hchosen.jobIndex, hchosen.inputName]
    rfl

lemma Site.Selects.of_chosen {s : Site} {P : PipelineRun} {definition : WorkflowDefinition}
    (h : List.Forall₂ (Chosen met P.repoId) (manualArtifactRequirements definition)
      (s.db.selectionsOf P.id)) : s.Selects met P definition := by
  refine ⟨?_, fun selection hmem => ?_,
    fun jobIndex job inputName runnerId jobName outputName hjob hget => ?_⟩
  · rw [chosen_keys h]
    exact manualArtifactRequirements_nodup
  · obtain ⟨i, hi, rfl⟩ := List.getElem_of_mem hmem
    have hi' := h.length_eq ▸ hi
    have hchosen := h.get hi' hi
    obtain ⟨job, hjob, hget⟩ := mem_manualArtifactRequirements.mp (List.get_mem _ ⟨i, hi'⟩)
    rw [← hchosen.jobIndex] at hjob
    rw [← hchosen.inputName] at hget
    exact ⟨job, _, _, _, hjob, hget, hchosen.promoted⟩
  · let requirement : ManualArtifactRequirement := ⟨jobIndex, inputName, runnerId, jobName, outputName⟩
    have hrequirement : requirement ∈ manualArtifactRequirements definition :=
      mem_manualArtifactRequirements.mpr ⟨job, hjob, hget⟩
    have hkey : (jobIndex, inputName) ∈ (s.db.selectionsOf P.id).map fun selection =>
        (selection.jobIndex, selection.inputName) := by
      rw [chosen_keys h]
      exact List.mem_map.mpr ⟨_, hrequirement, rfl⟩
    obtain ⟨selection, hmem, heq⟩ := List.mem_map.mp hkey
    exact ⟨selection, hmem, congrArg Prod.fst heq, congrArg Prod.snd heq⟩

end

/-- With what had been met before. -/
def Annals.after (old : List Site) (y : Annals) : Annals := (y.1, y.2 ++ old)

lemma Annals.after_injective {old : List Site} {y y' : Annals}
    (h : Annals.after old y = Annals.after old y') : y = y' := by
  obtain ⟨hstore, hpast⟩ := Prod.mk.inj h
  exact Prod.ext hstore (List.append_cancel_right hpast)

lemma Annals.Carries.pasts {x x' : Annals} {own : Origin → Prop} (h : x.Carries own x')
    {past past' : List Site} (hpast : ∀ s ∈ past, s ∈ past') :
    Annals.Carries own (x.1, past) (x'.1, past') :=
  { h with past := hpast }

/-- The pipelines of the request, but for the ones known before it, have their artifacts from what is
met since. -/
structure Annals.Requested (old : List Site) (number : ℕ) (known : Id → Prop) (x : Annals) : Prop where
  kept : x.Kept
  since : ∃ y, x = Annals.after old y ∧ ∀ P ∈ y.1.db.pipelineRuns.rows, P.origin = .request number →
    ¬ known P.id → P.id ∉ y.1.unsettled →
      y.Complete P.repoId P.workflowVersionId (y.1.db.selectionsOf P.id)

def choosingSince (app : AppState) (old : List Site) (number : ℕ) (known : Id → Prop) (r : SiteRole) :
    Discipline SiteCall SiteCall.Result String Annals where
  rely x x' := x.Carries r.owns x' ∧ x.2 <:+ x'.2
  inv := Annals.Requested old number known
  admits := (choosing app Annals.Kept r).admits
  before c x := x.Allows r.owns c ∧
    (r.owns (.request number) → ∀ y, x = Annals.after old y → y.Allows r.owns c)

section

variable {app : AppState} {o : SiteOutcome} {old : List Site} {number : ℕ} {known : Id → Prop}
variable {x x' : Annals} {own : Origin → Prop} {r : SiteRole}

theorem Annals.Requested.exec {c : SiteCall} {a : Except String c.Result}
    (hx : x.Requested old number known) (hallows : x.Allows own c)
    (hsince : own (.request number) → ∀ y, x = Annals.after old y → y.Allows own c)
    (hpast : x'.2 = x.1 :: x.2) (h : c.exec app o x.1 = (a, x'.1)) : x'.Requested old number known := by
  obtain ⟨hkept, y, rfl, hcomplete⟩ := hx
  have hcarries : y.Carries (fun _ => False) (x'.1, y.1 :: y.2) :=
    (carries_exec hallows (fun _ _ => id) (fun _ _ => id) hpast h).pasts
      fun s hs => List.mem_cons_of_mem _ hs
  refine ⟨kept_exec hkept hallows hpast h, (x'.1, y.1 :: y.2), Prod.ext rfl hpast,
    fun P' hP' horigin hnew hset => ?_⟩
  rcases settled_exec hkept hallows hpast h hP' hset with ⟨P, hP, hsame, hsetP, hsel⟩ | ⟨hP, -, rfl⟩
  · rw [hsame.repo, hsame.version, hsel]
    exact (hcomplete P hP (hsame.origin ▸ horigin) (hsame.id ▸ hnew) hsetP).carries hcarries
  · have howned : own (.request number) := by
      obtain ⟨P₀, hP₀, hid, ⟨⟨eventId, refIndex, hpush⟩, -⟩ | ⟨hown, -, -⟩⟩ := hallows
      · obtain rfl := Table.eq_of_mem hP₀ hP hid
        cases horigin.symm.trans hpush
      · obtain rfl := Table.eq_of_mem hP₀ hP hid
        exact horigin ▸ hown
    obtain ⟨P₀, hP₀, hid, ⟨⟨eventId, refIndex, hpush⟩, -⟩ | ⟨-, -, hsourced⟩⟩ := hsince howned y rfl
    · obtain rfl := Table.eq_of_mem hP₀ hP hid
      cases horigin.symm.trans hpush
    · obtain rfl := Table.eq_of_mem hP₀ hP hid
      rw [horigin] at hsourced
      exact Annals.Complete.carries hsourced hcarries

lemma rely_after {y : Annals} (h : (choosingSince app old number known r).rely (Annals.after old y) x') :
    ∃ y', x' = Annals.after old y' ∧ y.Carries r.owns y' := by
  obtain ⟨hcarries, new, hnew⟩ := h
  refine ⟨(x'.1, new ++ y.2), Prod.ext rfl ?_, hcarries.pasts fun s hs => List.mem_append_right _ hs⟩
  rw [← hnew, Annals.after, Annals.after, List.append_assoc]

lemma safe_since {web : WebState} (hr : r.isRoute) (y : Annals) :
    Safe (choosingSince web.toAppState old number known r) (fun _ _ => True) (r.program web)
      (Annals.after old y) := by
  refine Safe.viewed (f := Annals.after old) (D := choosing web.toAppState Annals.Kept r)
    (E := choosing web.toAppState (fun _ => True) r) (fun y x' hrely hinv => ?_)
    (fun c y hallows hallows' => ?_) (fun c y a x' ha => ?_)
    (Safe.mono (fun _ _ _ => trivial) (gives_program hr _)) (gives_program hr y)
  · obtain ⟨y', rfl, hcarries⟩ := rely_after hrely
    exact ⟨hrely.1, hinv.kept, y', rfl, hcarries, trivial⟩
  · refine ⟨hallows, fun _ y' heq => ?_⟩
    obtain rfl := Annals.after_injective heq
    exact hallows'
  · obtain ⟨ho, hpast, hsettled⟩ := ha
    exact ⟨⟨ho, hpast, hsettled⟩, (x'.1, y.1 :: y.2), Prod.ext rfl hpast, ho, rfl, hsettled⟩

end

/-- The pipelines that go back to a pipeline by reruns. -/
inductive Site.Reruns (s : Site) (original : Id) : PipelineRun → Prop
  | first {P : PipelineRun} (number : ℕ) (stored : P ∈ s.db.pipelineRuns.rows)
      (settled : P.id ∉ s.unsettled) (origin : P.origin = .rerun original number) : s.Reruns original P
  | again {P P₀ : PipelineRun} (number : ℕ) (stored : P ∈ s.db.pipelineRuns.rows)
      (settled : P.id ∉ s.unsettled) (origin : P.origin = .rerun P₀.id number)
      (earlier : s.Reruns original P₀) : s.Reruns original P

lemma Site.Reruns.stored {s : Site} {original : Id} {P : PipelineRun} (h : s.Reruns original P) :
    P ∈ s.db.pipelineRuns.rows := by
  cases h with
  | first _ stored _ _ => exact stored
  | again _ stored _ _ _ => exact stored

lemma Annals.Kept.reruns {x : Annals} (hx : x.Kept) {P₀ P : PipelineRun}
    (hP₀ : P₀ ∈ x.1.db.pipelineRuns.rows) (h : x.1.Reruns P₀.id P) :
    P.workflowVersionId = P₀.workflowVersionId ∧
      (x.1.db.selectionsOf P.id).Perm (x.1.db.selectionsOf P₀.id) := by
  induction h with
  | first number stored settled origin =>
    obtain ⟨hversion, -, hperm⟩ := hx.rerun stored settled origin hP₀
    exact ⟨hversion, hperm⟩
  | again number stored settled origin earlier ih =>
    obtain ⟨hversion, -, hperm⟩ := hx.rerun stored settled origin earlier.stored
    exact ⟨hversion.trans ih.1, hperm.trans ih.2⟩

theorem sinceOutline (app : WebState) (old : List Site) (number : ℕ) (known : Id → Prop) :
    System.Outline ((site app).chronicle SiteRole.apart) (fun p e => Enqueues ⟨p.store.1, p.tasks⟩ e)
      (Annals.Requested old number known) (choosingSince app.toAppState old number known)
      fun _ _ _ => True where
  inv_eq _ := rfl
  trans _ _ _ _ h h' := ⟨h.1.trans h'.1, h.2.trans h'.2⟩
  post_stable _ _ _ _ _ _ := trivial
  refl _ _ := ⟨.rfl, List.suffix_rfl⟩
  start p r hx hok := by
    obtain ⟨-, y, hy, -⟩ := hx
    rw [hy]
    exact safe_since (hok.1 r rfl) y
  admits p i o r c next hx hok ht hready :=
    (choosingOutline app).admits p i o r c next hx.kept hok ht hready
  keeps r x x' hx := by
    rintro ⟨c, a, ⟨hallows, hsince⟩, ⟨o, ho⟩, hpast, -⟩
    exact hx.exec hallows hsince hpast ho
  compat p i o r c next r' hx hok ht hr' hbeside hbefore hadmits :=
    ⟨(choosingOutline app).compat p i o r c next r' hx.kept hok ht hr' hbeside hbefore.1 hadmits,
      [p.store.1], hadmits.2.1.symm⟩
  environ p v hok hx := by
    obtain ⟨hkept, hrely⟩ := (choosingOutline app).environ p v hok hx.kept
    obtain ⟨-, y, hy, hcomplete⟩ := hx
    rw [hy] at hrely
    cases v with
    | runEnds runId =>
      have hcarries : y.Carries (fun _ => False) ((site app).environ (.runEnds runId) y.1, y.2) :=
        (hrely .refreshRunnerHealth).weaken.pasts fun _ hs => hs
      refine ⟨⟨hkept, ((site app).environ (.runEnds runId) y.1, y.2), ?_,
        fun P hP horigin hnew hset => ?_⟩, fun r => ⟨hy ▸ hrely r, List.suffix_rfl⟩⟩
      · rw [hy]
        rfl
      · exact (hcomplete P hP horigin hnew hset).carries hcarries
  crash _ _ hx := hx

lemma Promoting.carries {app : WebState} {p q : Pool SiteRole SiteCall SiteCall.Result String Annals}
    {e : SiteEvent} (hs : Promoting app p) (hok : Enqueues ⟨p.store.1, p.tasks⟩ e)
    (ha : ((site app).chronicle SiteRole.apart).apply p e = some q) :
    p.store.Carries (fun _ => False) q.store := by
  obtain ⟨r, rfl, -, rfl⟩ | ⟨i, o, r, c, next, rfl, ht, -, rfl⟩ | ⟨i, r, x, rfl, -, rfl⟩ |
    ⟨rfl, rfl⟩ | ⟨v, rfl, rfl⟩ := System.apply_cases ha
  · exact .rfl
  · have hallows := System.Sound.before (choosingOutline app) hs (List.mem_of_getElem? ht)
    exact carries_exec hallows (fun _ _ => id) (fun _ _ => id) rfl rfl
  · exact .rfl
  · exact .rfl
  · exact Annals.Carries.weaken (((choosingOutline app).environ p v hok hs.1).2 .refreshRunnerHealth)

theorem carries_run {app : WebState} {p q : Pool SiteRole SiteCall SiteCall.Result String Annals}
    {es : List SiteEvent} (hs : Promoting app p)
    (hok : ((site app).chronicle SiteRole.apart).Along (fun p e => Enqueues ⟨p.store.1, p.tasks⟩ e) es p)
    (hrun : ((site app).chronicle SiteRole.apart).run es p = some q) :
    p.store.Carries (fun _ => False) q.store :=
  (hok.invariant (I := fun q => Promoting app q ∧ p.store.Carries (fun _ => False) q.store)
    (fun _ _ _ h hok ha => ⟨h.1.apply (choosingOutline app) hok ha,
      h.2.trans (h.1.carries hok ha)⟩) ⟨hs, .rfl⟩ hrun).2

def Site.Knows (s : Site) (pipelineId : Id) : Prop := ∃ P ∈ s.db.pipelineRuns.rows, P.id = pipelineId

/-- As a request begins, no other has its number. -/
lemma requested_start {app : WebState} {p q : Pool SiteRole SiteCall SiteCall.Result String Annals}
    {r : SiteRole} {number : ℕ} (hs : Promoting app p) (hr : r.isRoute) (hown : r.owns (.request number))
    (ha : ((site app).chronicle SiteRole.apart).apply p (.start r) = some q) :
    System.Sound ((site app).chronicle SiteRole.apart) (Annals.Requested p.store.2 number p.store.1.Knows)
      (choosingSince app.toAppState p.store.2 number p.store.1.Knows) (fun _ _ _ => True) q := by
  have hpair := System.beside_apply hs.2.2 ha
  obtain ⟨r, hr', hbeside, rfl⟩ | ⟨_, _, _, _, _, hr', _⟩ | ⟨_, _, _, hr', _⟩ | ⟨hr', _⟩ | ⟨_, hr', _⟩ :=
    System.apply_cases ha <;> cases hr'
  refine ⟨⟨hs.1, (p.store.1, []), rfl, fun P hP _ hnew _ => absurd ⟨P, hP, rfl⟩ hnew⟩,
    fun t ht => ?_, hpair⟩
  rcases List.mem_append.mp ht with ht | ht
  · refine Safe.weaken ?_ ?_ ?_ ?_ (hs.2.1 t ht)
    · exact fun _ _ h => h.1
    · exact fun _ h => h.kept
    · have hapart := (Bool.and_eq_true_iff.mp (hbeside t ht)).2
      exact fun c x h => ⟨h, fun howns => absurd howns (SiteRole.owns_apart (.inr hapart) hown)⟩
    · exact fun _ _ _ _ h => h
  · obtain rfl := List.mem_singleton.mp ht
    exact safe_since hr (p.store.1, [])

/-- From a site on which only pushes have run, when no rerun reads selections that are still to be stored:
a pipeline that a request to run a workflow has created holds one artifact for each binding of a promoted
artifact in its version, promotable to the binding while the request was served, and no others; and the
reruns that go back to it have its version and its artifacts. -/
theorem run_selections_retained {app : WebState} {p q₁ q₂ q : SitePool} {es₁ es₂ es₃ : List SiteEvent}
    {number : ℕ} {sender : Sender} {workflowId : Id} {branch commit : Option String}
    {artifactSelections : BTreeMap String} (hidle : p.tasks = []) (hp : p.store.Unrequested)
    (hok : (site app).Along (fun p e => System.StartsApart SiteRole.apart p e ∧ Enqueues p e)
      (es₁ ++ (.start (.runWorkflow number sender workflowId branch commit artifactSelections) :: es₂ ++
        es₃)) p)
    (hrun₁ : (site app).run es₁ p = some q₁)
    (hrun₂ : (site app).run
      (.start (.runWorkflow number sender workflowId branch commit artifactSelections) :: es₂) q₁ = some q₂)
    (hrun₃ : (site app).run es₃ q₂ = some q) {P : PipelineRun} (hP : P ∈ q₂.store.db.pipelineRuns.rows)
    (hnew : ¬ q₁.store.Knows P.id) (horigin : P.origin = .request number)
    (hset : P.id ∉ q₂.store.unsettled) :
    ∃ V ∈ q.store.db.workflowVersions.rows, V.id = P.workflowVersionId ∧
      ∃ definition, V.definitionJson = .ok definition ∧
        q.store.Selects (Earlier app q₁ (.start (.runWorkflow number sender workflowId branch commit
          artifactSelections) :: es₂)) P definition ∧
        ∀ P', q.store.Reruns P.id P' → P'.workflowVersionId = P.workflowVersionId ∧
          (q.store.db.selectionsOf P'.id).Perm (q.store.db.selectionsOf P.id) := by
  obtain ⟨past, -, -, hsound₁⟩ := chosen_run hidle hp hok.left hrun₁
  have hok₂ := hok.append hrun₁
  obtain ⟨recent, hrun₂', halong₂, hrecent⟩ := System.chronicle_run hok₂.left hrun₂ past
  obtain ⟨later, hrun₃', halong₃, -⟩ := System.chronicle_run (hok₂.append hrun₂) hrun₃ (recent ++ past)
  have hsound₂ : Promoting app (q₂.remembering (recent ++ past)) := halong₂.invariant
    (fun p e p' hs hok ha => hs.apply (choosingOutline app) hok ha) hsound₁ hrun₂'
  have hsound : Promoting app (q.remembering (later ++ (recent ++ past))) := halong₃.invariant
    (fun p e p' hs hok ha => hs.apply (choosingOutline app) hok ha) hsound₂ hrun₃'
  have hcarries := carries_run hsound₂ halong₃ hrun₃'
  -- The request chooses among what is met since it began.
  have hcomplete : Annals.Complete (q₂.store, recent) P.repoId P.workflowVersionId
      (q₂.store.db.selectionsOf P.id) := by
    obtain ⟨p₁, ha, hrun₂'⟩ := Option.bind_eq_some_iff.mp hrun₂'
    obtain ⟨⟨hroute, -⟩, halong₂⟩ := halong₂ p₁ ha
    have hstart := requested_start hsound₁ (hroute _ rfl) rfl ha
    have hsince := halong₂.invariant
      (fun p e p' hs hok ha => hs.apply (sinceOutline app past number q₁.store.Knows) hok ha) hstart hrun₂'
    obtain ⟨-, y, hy, hcomplete⟩ := hsince.1
    obtain rfl : (q₂.store, recent) = y := Annals.after_injective hy
    exact hcomplete P hP horigin hnew hset
  obtain ⟨P', hP', hsame⟩ := hcarries.pipelines P hP
  have hsel : q.store.db.selectionsOf P.id = q₂.store.db.selectionsOf P.id :=
    (hcarries.settled P hP hset).2
  obtain ⟨definition, ⟨V, hV, hid, hdefinition, -⟩, hchosen⟩ := hcomplete
  refine ⟨V, hcarries.versions V hV, hid, definition, hdefinition, .of_chosen ?_, fun P'' hreruns => ?_⟩
  · rw [hsel]
    exact hchosen.imp fun _ _ h => h.mono hrecent
  · rw [← hsame.id, ← hsame.version]
    exact hsound.1.reruns hP' (hsame.id ▸ hreruns)

def imageRequest : SiteRole := .runWorkflow 0 sampleSender 1 none none (.ofList [("artifact:0:base", "5")])

def imageRan : List SiteEvent := List.replicate 6 (.step 0 {}) ++ [.step 0 { uuid := 2 }, .step 0 {}]

def imageRerun : List SiteEvent :=
  [.start (.rerunPipeline 0 sampleSender 2), .step 0 { uuid := 11, dispatchKey := 11 }, .step 0 {},
    .finish 0] ++ List.replicate 6 (.step 0 {}) ++
      [.step 0 { uuid := 3 }, .step 0 {}, .step 0 { uuid := 12, dispatchKey := 12 }, .finish 0]

theorem run_selections_retained_rerun :
    ∃ q₂ q, (site sampleSite).run (.start imageRequest :: imageRan) imageSite = some q₂ ∧
      (site sampleSite).run imageRerun q₂ = some q ∧
        ∃ P ∈ q₂.store.db.pipelineRuns.rows, ∃ P' ∈ q.store.db.pipelineRuns.rows, P.id = 2 ∧ P'.id = 3 ∧
          (∃ V ∈ q.store.db.workflowVersions.rows, V.id = P.workflowVersionId ∧
            ∃ definition, V.definitionJson = .ok definition ∧
              q.store.Selects (Earlier sampleSite imageSite (.start imageRequest :: imageRan)) P
                definition) ∧
          P'.workflowVersionId = P.workflowVersionId ∧
          (q.store.db.selectionsOf P'.id).Perm (q.store.db.selectionsOf P.id) ∧
          (q.store.db.selectionsOf 2).map (·.serverArtifactId) = [5] := by
  have hok : (site sampleSite).Along (fun p e => System.StartsApart SiteRole.apart p e ∧ Enqueues p e)
      ([] ++ (.start imageRequest :: imageRan ++ imageRerun)) imageSite := by decide +kernel
  have hrun : ((site sampleSite).run (.start imageRequest :: imageRan) imageSite).any (fun q₂ =>
      q₂.store.unsettled = [] ∧ q₂.store.db.pipelineRuns.rows.map (fun P => (P.id, P.origin)) =
        [(1, .push 1 0), (2, .request 0)] ∧
      ((site sampleSite).run imageRerun q₂).any (fun q => q.store.unsettled = [] ∧
        q.store.db.pipelineRuns.rows.map (fun P => (P.id, P.origin)) =
          [(1, .push 1 0), (2, .request 0), (3, .rerun 2 0)] ∧
        (q.store.db.selectionsOf 2).map (·.serverArtifactId) = [5])) = true := by decide +kernel
  obtain ⟨q₂, hq₂, hend₂⟩ := (Option.any_eq_true _ _).mp hrun
  obtain ⟨hunsettled₂, hrows₂, hrun⟩ := of_decide_eq_true hend₂
  obtain ⟨q, hq, hend⟩ := (Option.any_eq_true _ _).mp hrun
  obtain ⟨hunsettled, hrows, hchosen⟩ := of_decide_eq_true hend
  have hmem {db : Database} {rows : List (Id × Origin)} {id : Id} {origin : Origin}
      (h : db.pipelineRuns.rows.map (fun P => (P.id, P.origin)) = rows) (hin : (id, origin) ∈ rows) :
      ∃ P ∈ db.pipelineRuns.rows, P.id = id ∧ P.origin = origin := by
    obtain ⟨P, hP, heq⟩ := List.mem_map.mp (h ▸ hin)
    exact ⟨P, hP, congrArg Prod.fst heq, congrArg Prod.snd heq⟩
  obtain ⟨P, hP, hid, horigin⟩ := hmem hrows₂ (.tail _ (.head _))
  obtain ⟨P', hP', hid', horigin'⟩ := hmem hrows (.tail _ (.tail _ (.head _)))
  have hnew : ¬ imageSite.store.Knows P.id := by
    rintro ⟨P₀, hP₀, hid₀⟩
    obtain rfl := List.mem_singleton.mp hP₀
    cases hid₀.trans hid
  obtain ⟨V, hV, hVid, definition, hdefinition, hselects, hreruns⟩ := run_selections_retained rfl
    imageSite_unrequested hok rfl hq₂ hq hP hnew horigin (hunsettled₂ ▸ List.not_mem_nil)
  obtain ⟨hversion, hperm⟩ := hreruns P'
    (.first 0 hP' (hunsettled ▸ List.not_mem_nil) (hid.symm ▸ horigin'))
  exact ⟨q₂, q, hq₂, hq, P, hP, P', hP', hid, hid', ⟨V, hV, hVid, definition, hdefinition, hselects⟩,
    hversion, hperm, hchosen⟩

def reranEarly : List SiteEvent :=
  .start imageRequest :: (List.replicate 6 (.step 0 {}) ++ [.step 0 { uuid := 2 },
    .start (.rerunPipeline 0 sampleSender 2)] ++ List.replicate 6 (.step 1 {}) ++
      [.step 1 { uuid := 3 }, .step 1 {}, .step 1 { uuid := 12, dispatchKey := 12 }, .step 0 {},
        .step 0 { uuid := 11, dispatchKey := 11 }, .step 0 {}])

def rerunCutOff : List SiteEvent :=
  .start imageRequest :: (imageRan ++ [.start (.rerunPipeline 0 sampleSender 2)] ++
    List.replicate 6 (.step 1 {}) ++ [.step 1 { uuid := 3 }, .crash])

/-- A rerun of a pipeline whose artifacts are still to be stored takes over none, and a rerun that is cut
off before it has stored its artifacts is left without. -/
theorem rerun_without_selections :
    (∃ q, (site sampleSite).run reranEarly imageSite = some q ∧
      q.tasks.map (fun t => t.2.result?.map Except.isOk) = [some true, some true] ∧
      q.store.db.pipelineRuns.rows.map (fun P => (P.id, P.origin)) =
        [(1, .push 1 0), (2, .request 0), (3, .rerun 2 0)] ∧
      (q.store.db.selectionsOf 2).map (·.serverArtifactId) = [5] ∧ q.store.db.selectionsOf 3 = []) ∧
    ∃ q, (site sampleSite).run rerunCutOff imageSite = some q ∧
      q.store.db.pipelineRuns.rows.map (fun P => (P.id, P.origin)) =
        [(1, .push 1 0), (2, .request 0), (3, .rerun 2 0)] ∧
      (q.store.db.selectionsOf 2).map (·.serverArtifactId) = [5] ∧ q.store.db.selectionsOf 3 = [] := by
  have hearly : ((site sampleSite).run reranEarly imageSite).any (fun q =>
      q.tasks.map (fun t => t.2.result?.map Except.isOk) = [some true, some true] ∧
        q.store.db.pipelineRuns.rows.map (fun P => (P.id, P.origin)) =
          [(1, .push 1 0), (2, .request 0), (3, .rerun 2 0)] ∧
        (q.store.db.selectionsOf 2).map (·.serverArtifactId) = [5] ∧
          q.store.db.selectionsOf 3 = []) = true := by
    decide +kernel
  have hcut : ((site sampleSite).run rerunCutOff imageSite).any (fun q =>
      q.store.db.pipelineRuns.rows.map (fun P => (P.id, P.origin)) =
          [(1, .push 1 0), (2, .request 0), (3, .rerun 2 0)] ∧
        (q.store.db.selectionsOf 2).map (·.serverArtifactId) = [5] ∧
          q.store.db.selectionsOf 3 = []) = true := by
    decide +kernel
  obtain ⟨q, hq, hend⟩ := (Option.any_eq_true _ _).mp hearly
  obtain ⟨q', hq', hend'⟩ := (Option.any_eq_true _ _).mp hcut
  exact ⟨⟨q, hq, of_decide_eq_true hend⟩, q', hq', of_decide_eq_true hend'⟩

end Janus.Web
