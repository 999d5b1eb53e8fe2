import Mathlib.Data.List.Nodup
import Janus.Runner.Runs

/-! What repeated requests of a runner that crashes and restarts get. -/

namespace Janus.Runner

open Janus.Concurrency Janus.Data Janus.Server RunnerStore

variable {R : Regime} {rt : Runtime} {s s' : RunnerStore} {p p' : RunnerPool} {e : RunnerEvent}
variable {es : List RunnerEvent}

def ReadBack (rt : Runtime) (p : RunnerPool) (e : RunnerEvent) : Prop :=
  match p.call? e with
  | some (.persistMetadata _ _ metadata) => rt.readsBack metadata = true
  | _ => True

instance (p : RunnerPool) (e : RunnerEvent) : Decidable (ReadBack rt p e) := by
  unfold ReadBack
  split <;> infer_instance

lemma ReadBack.durable {i : ℕ} {o : Outcome} {r : RunnerRole} {c : RunnerCall}
    {next : Except JobError c.Result → RunnerTask Unit} (h : ReadBack rt p (.step i o))
    (ht : p.tasks[i]? = some (r, .call c next)) : ∀ writer jobId metadata,
      c = .persistMetadata writer jobId metadata → rt.readsBack metadata = true := by
  rintro writer jobId metadata rfl
  simpa only [ReadBack, Pool.call?, ht] using h

structure OneJobPerKey (history : History) : Prop where
  processes : ∀ key, history.processes.count key ≤ 1
  answers : ∀ a ∈ history.answers, ∀ a' ∈ history.answers, a.idempotencyKey = a'.idempotencyKey →
    ∀ created created', a.result = .ok created → a'.result = .ok created' →
      created.jobId = created'.jobId ∧ a.name = a'.name ∧ a.body = a'.body

def requested (es : List RunnerEvent) : List (String × Bytes) :=
  es.filterMap fun
    | .start (.create _ name _ body) => some (name, body)
    | _ => none

def CollisionFree (rt : Runtime) (es : List RunnerEvent) : Prop :=
  ∀ r ∈ requested es, ∀ r' ∈ requested es, hashRequest rt r.1 r.2 = hashRequest rt r'.1 r'.2 →
    utf8 r.1 ++ 0 :: r.2 = utf8 r'.1 ++ 0 :: r'.2

instance : Decidable (CollisionFree rt es) :=
  inferInstanceAs (Decidable (∀ r ∈ requested es, ∀ r' ∈ requested es, _ → _))

structure Requested (L : List (String × Bytes)) (p : RunnerPool) : Prop where
  tasks : ∀ t ∈ p.tasks, ∀ n name key body, t.1 = .create n name key body → (name, body) ∈ L
  answers : ∀ a ∈ p.store.history.answers, (a.name, a.body) ∈ L

lemma answers_step {c : RunnerCall} {x : Except JobError c.Result} (he : c.Effect rt s x s')
    {a : Answer} (ha : a ∈ s'.history.answers) : a ∈ s.history.answers ∨
      ∃ n result, c = .respond n a.name a.idempotencyKey a.body result ∧ a.result = result ∧
        a.preceding = (s.history.arrived.lookup n).getD 0 ∧ a.shuttingDown = s.shuttingDown := by
  cases he with
  | respond n name key body result =>
    rcases List.mem_append.mp ha with ha | ha
    · exact .inl ha
    · obtain rfl := List.mem_singleton.mp ha
      exact .inr ⟨n, result, rfl, rfl, rfl, rfl⟩
  | persisted writer jobId metadata =>
    rw [history_release] at ha
    exact .inl ha
  | unpersisted writer jobId metadata =>
    rw [history_release] at ha
    exact .inl ha
  | _ => exact .inl ha

lemma Requested.apply {L : List (String × Bytes)} (h : Requested L p) (hs : RunnerSound R rt p)
    (hstart : ∀ n name key body, e = .start (.create n name key body) → (name, body) ∈ L)
    (ha : (runnerSystem rt).apply p e = some p') : Requested L p' := by
  refine ⟨?_, fun a hmem => ?_⟩
  · obtain ⟨r, rfl, -, rfl⟩ | ⟨i, o, r, c, next, rfl, ht, -, rfl⟩ | ⟨i, r, x, rfl, -, rfl⟩ |
      ⟨rfl, rfl⟩ | ⟨v, -, -⟩ := System.apply_cases ha
    · intro t ht n name key body hr
      rcases List.mem_append.mp ht with ht | ht
      · exact h.tasks t ht n name key body hr
      · obtain rfl := List.mem_singleton.mp ht
        exact hstart n name key body (congrArg _ hr)
    · intro t ht' n name key body hr
      rcases List.mem_or_eq_of_mem_set ht' with ht' | rfl
      · exact h.tasks t ht' n name key body hr
      · exact h.tasks _ (List.mem_of_getElem? ht) n name key body hr
    · exact fun t ht => h.tasks t (List.mem_of_mem_eraseIdx ht)
    · exact fun t ht => absurd ht List.not_mem_nil
    · exact v.elim
  · rcases hs.step_cases ha with hstore | hstore | ⟨i, o, r, c, next, rfl, ht, -, hb, -, heffect⟩
    · exact h.answers a (hstore ▸ hmem)
    · exact h.answers a (by rw [hstore] at hmem; exact hmem)
    · rcases answers_step heffect hmem with hold | ⟨n, result, rfl, -⟩
      · exact h.answers a hold
      · exact h.tasks _ (List.mem_of_getElem? ht) n a.name a.idempotencyKey a.body hb.1

lemma Answered.same {name name' key : String} {body body' : Bytes} {created created' : JobCreated}
    (h : Answered rt s name key body created) (h' : Answered rt s name' key body' created') :
    created.jobId = created'.jobId ∧ name = name' ∧
      hashRequest rt name body = hashRequest rt name' body' := by
  obtain ⟨metadata, hm, hi⟩ := h.keeps
  obtain ⟨metadata', hm', hi'⟩ := h'.keeps
  cases hm.symm.trans hm'
  have hidentity : requestIdentity rt name key body = requestIdentity rt name' key body' :=
    hi.symm.trans hi'
  exact ⟨h.jobId.trans h'.jobId.symm, congrArg JobIdentity.name hidentity,
    congrArg JobIdentity.requestHash hidentity⟩

lemma along_requested {L : List (String × Bytes)} (hL : ∀ r ∈ requested es, r ∈ L) :
    (runnerSystem rt).Along (fun _ e => ∀ n name key body,
      e = .start (.create n name key body) → (name, body) ∈ L) es p := by
  induction es generalizing p with
  | nil => trivial
  | cons e es ih =>
    refine fun p' _ => ⟨?_, ih fun r hr => hL r ?_⟩
    · rintro n name key body rfl
      exact hL (name, body) List.mem_cons_self
    · exact List.mem_filterMap.mpr (by
        obtain ⟨d, hd, hr⟩ := List.mem_filterMap.mp hr
        exact ⟨d, List.mem_cons_of_mem _ hd, hr⟩)

theorem one_job_per_key (hfree : CollisionFree rt es)
    (h : (runnerSystem rt).Along (ReadBack rt) es RunnerPool.initial)
    (hrun : (runnerSystem rt).run es RunnerPool.initial = some p) :
    OneJobPerKey p.store.history := by
  have hpermitted {p : RunnerPool} {e : RunnerEvent} (hok : ReadBack rt p e) :
      Permitted { durable := True } rt p e := by
    rintro i o r c next rfl ht
    exact ⟨fun _ => hok.durable ht, fun h => h.elim, fun h => h.elim⟩
  obtain ⟨hs, hrequested⟩ := (h.and (along_requested fun _ hr => hr)).invariant
    (I := fun p => RunnerSound { durable := True } rt p ∧ Requested (requested es) p)
    (fun p e p' hp hok ha => ⟨hp.1.apply (hpermitted hok.1) ha, hp.2.apply hp.1 hok.2 ha⟩)
    ⟨RunnerSound.initial, fun _ ht => absurd ht List.not_mem_nil,
      fun _ ha => absurd ha List.not_mem_nil⟩ hrun
  have hlasting := hs.1.lasting trivial
  refine ⟨fun key => List.nodup_iff_count_le_one.mp hlasting.processes.nodup key,
    fun a ha a' ha' hkey created created' hc hc' => ?_⟩
  have hanswered := hlasting.answers a ha created hc
  have hanswered' := hlasting.answers a' ha' created' hc'
  rw [← hkey] at hanswered'
  obtain ⟨hid, hname, hhash⟩ := hanswered.same hanswered'
  refine ⟨hid, hname, ?_⟩
  have hbytes := hfree _ (hrequested.answers a ha) _ (hrequested.answers a' ha') hhash
  rw [hname] at hbytes
  exact List.tail_eq_of_cons_eq (List.append_cancel_left hbytes)

def repeating (body : Bytes) (recovering : ℕ) : List RunnerEvent :=
  booting ++ creating 0 "a" body ++ [.start (.run 0), .step 0 {}, .crash] ++
    .start .boot :: steps 0 recovering ++ .finish 0 :: .start (.create 1 "deploy" "a" body) :: []

theorem one_job_per_key_recovered :
    ∃ p, (runnerSystem sampleRuntime).run (repeating emptyBody 6 ++ steps 0 7)
        RunnerPool.initial = some p ∧ OneJobPerKey p.store.history := by
  have hrun : ((runnerSystem sampleRuntime).run (repeating emptyBody 6 ++ steps 0 7)
      RunnerPool.initial).isSome = true := by
    decide +kernel
  obtain ⟨p, hp⟩ := Option.isSome_iff_exists.mp hrun
  exact ⟨p, hp, one_job_per_key (by decide +kernel) (by decide +kernel) hp⟩

theorem two_jobs_for_key : ¬ ∀ (rt : Runtime) (es : List RunnerEvent) (p : RunnerPool),
    CollisionFree rt es → (runnerSystem rt).run es RunnerPool.initial = some p →
    OneJobPerKey p.store.history := by
  intro h
  have hrun : ((runnerSystem sampleRuntime).run
      (repeating nestedBody 4 ++ steps 0 14 ++ [.start (.run 1), .step 1 {}])
      RunnerPool.initial).map (fun p => p.store.history.processes) = some ["a", "a"] := by
    decide +kernel
  obtain ⟨p, hp, hprocesses⟩ := Option.map_eq_some_iff.mp hrun
  have honce := (h sampleRuntime _ p (by decide +kernel) hp).processes "a"
  rw [hprocesses] at honce
  exact absurd honce (by decide)

/-- A request that repeats an answered one finds what it looks for: the artifacts that it names are
stored and not expired, and its files are read. -/
def ReplayUnhindered (p : RunnerPool) (e : RunnerEvent) : Prop :=
  match e with
  | .step i o => match p.tasks[i]? with
    | some (.create n name key body, .call c _) =>
      p.store.Repeats n name key body → CalmStep c o p.store
    | _ => True
  | _ => True

def Answer.Repeats (a' a : Answer) : Prop :=
  a.name = a'.name ∧ a.idempotencyKey = a'.idempotencyKey ∧ a.body = a'.body

/-- A request that arrives once an equal one has been answered with success gets the same job, unless
the runner is shutting down. -/
def AnswersAgain (history : History) : Prop :=
  ∀ (i : ℕ) (a : Answer) (created : JobCreated), history.answers[i]? = some a →
    a.result = .ok created → ∀ a' ∈ history.answers, i < a'.preceding → a'.Repeats a →
    a'.shuttingDown = false → ∃ created', a'.result = .ok created' ∧ created'.jobId = created.jobId

structure Replied (history : History) (a : Answer) : Prop where
  preceding : a.preceding ≤ history.answers.length
  again : a.shuttingDown = false →
    (∃ b ∈ history.answers.take a.preceding, b.name = a.name ∧
      b.idempotencyKey = a.idempotencyKey ∧ b.body = a.body ∧ b.result.isOk = true) →
    ∃ created, a.result = .ok created

lemma Replied.mono {history history' : History} {a : Answer} (h : Replied history a)
    (hkept : history.answers <+: history'.answers) : Replied history' a := by
  obtain ⟨rest, hrest⟩ := hkept
  refine ⟨h.preceding.trans (by rw [← hrest, List.length_append]; exact Nat.le_add_right _ _), ?_⟩
  rw [← hrest, List.take_append_of_le_length h.preceding]
  exact h.again

lemma Replied.step {R : Regime} {r : RunnerRole} {c : RunnerCall} {x : Except JobError c.Result}
    (hd : R.durable) (hc : R.calm) (h : ∀ a ∈ s.history.answers, Replied s.history a)
    (hb : Before R rt r c s) (he : c.Effect rt s x s') :
    ∀ a ∈ s'.history.answers, Replied s'.history a := by
  intro a ha
  have hkept := answers_prefix he
  rcases answers_step he ha with hold | ⟨n, result, rfl, hresult, hpreceding, hshutting⟩
  · exact (h a hold).mono hkept
  · obtain ⟨-, ⟨k, hk, hlookup⟩, -, hagain⟩ := hb
    rw [hlookup, Option.getD_some] at hpreceding
    refine Replied.mono ⟨hpreceding ▸ hk, fun hup hrepeats => ?_⟩ hkept
    obtain ⟨created, hok⟩ := hagain hd hc ⟨k, hlookup, hpreceding ▸ hrepeats⟩ (hshutting ▸ hup)
    exact ⟨created, hresult.trans hok⟩

/-- What holds between the steps of a run whose repeated requests are not hindered. -/
structure Faithful (rt : Runtime) (p : RunnerPool) : Prop where
  sound : RunnerSound { durable := True, calm := True } rt p
  replied : ∀ a ∈ p.store.history.answers, Replied p.store.history a

lemma Faithful.apply (h : Faithful rt p) (hread : ReadBack rt p e) (hcalm : ReplayUnhindered p e)
    (ha : (runnerSystem rt).apply p e = some p') : Faithful rt p' := by
  have hpermitted : Permitted { durable := True, calm := True } rt p e := by
    rintro i o r c next rfl ht
    refine ⟨fun _ => hread.durable ht, fun _ n name key body hr hrepeats => ?_, fun h => h.elim⟩
    subst hr
    simp only [ReplayUnhindered, ht] at hcalm
    exact hcalm hrepeats
  refine ⟨h.sound.apply hpermitted ha, ?_⟩
  rcases h.sound.step_cases ha with hs | hs | ⟨i, o, r, c, next, rfl, -, -, hb, -, heffect⟩
  · rw [hs]
    exact h.replied
  · rw [hs]
    exact h.replied
  · exact Replied.step trivial trivial h.replied hb heffect

lemma Faithful.answersAgain (h : Faithful rt p) : AnswersAgain p.store.history := by
  intro i a created hi hc a' ha' hlt ⟨hname, hkey, hbody⟩ hup
  have hmem : a ∈ p.store.history.answers.take a'.preceding := by
    refine List.mem_of_getElem? (i := i) ?_
    rw [List.getElem?_take_of_lt hlt, hi]
  obtain ⟨created', hc'⟩ := (h.replied a' ha').again hup
    ⟨a, hmem, hname, hkey, hbody, by rw [hc]; rfl⟩
  have hanswers := (h.sound.1.lasting trivial).answers
  refine ⟨created', hc', ?_⟩
  rw [(hanswers a' ha' created' hc').jobId,
    (hanswers a (List.mem_of_getElem? hi) created hc).jobId, hkey]

lemma Faithful.initial : Faithful rt RunnerPool.initial :=
  ⟨RunnerSound.initial, fun _ ha => absurd ha List.not_mem_nil⟩

theorem answers_again
    (h : (runnerSystem rt).Along (fun p e => ReadBack rt p e ∧ ReplayUnhindered p e) es
      RunnerPool.initial)
    (hrun : (runnerSystem rt).run es RunnerPool.initial = some p) :
    AnswersAgain p.store.history := by
  have hfaithful : Faithful rt p :=
    h.invariant (fun _ _ _ hp hok ha => hp.apply hok.1 hok.2 ha) .initial hrun
  exact hfaithful.answersAgain

instance (c : RunnerCall) (o : Outcome) (s : RunnerStore) : Decidable (CalmStep c o s) := by
  unfold CalmStep
  split <;> infer_instance

instance (s : RunnerStore) (n : ℕ) (name key : String) (body : Bytes) :
    Decidable (s.Repeats n name key body) := by
  unfold Repeats
  infer_instance

instance (p : RunnerPool) (e : RunnerEvent) : Decidable (ReplayUnhindered p e) := by
  unfold ReplayUnhindered
  repeat' split
  all_goals infer_instance

def replaying (again : List RunnerEvent) : List RunnerEvent :=
  booting ++ [.start (.upload [] none),
      .step 0 { artifactId := "art_0123456789abcdef0123456789abcdef" }, .finish 0] ++
    .start (.create 0 "deploy" "a" packageBody) :: steps 0 16 ++
    .finish 0 :: .start (.create 1 "deploy" "a" packageBody) :: again

theorem answers_again_replaying :
    ∃ p, (runnerSystem sampleRuntime).run (replaying (steps 0 9)) RunnerPool.initial = some p ∧
      p.store.history.answers.length = 2 ∧ AnswersAgain p.store.history := by
  have hrun : ((runnerSystem sampleRuntime).run (replaying (steps 0 9)) RunnerPool.initial).map
      (fun p => p.store.history.answers.length) = some 2 := by
    decide +kernel
  obtain ⟨p, hp, hlength⟩ := Option.map_eq_some_iff.mp hrun
  exact ⟨p, hp, hlength, answers_again (by decide +kernel) hp⟩

theorem not_answered_again : ¬ ∀ (rt : Runtime) (es : List RunnerEvent) (p : RunnerPool),
    (runnerSystem rt).run es RunnerPool.initial = some p → AnswersAgain p.store.history := by
  intro h
  have hrun : ((runnerSystem sampleRuntime).run
      (replaying (steps 0 4 ++ .step 0 { now := 86400000000000 } :: steps 0 2))
      RunnerPool.initial).map (fun p => p.store.history.answers.map fun a =>
        (decide (a.name = "deploy" ∧ a.idempotencyKey = "a" ∧ a.body = packageBody ∧
          a.shuttingDown = false), a.preceding, a.result)) =
      some [(true, 0, .ok ⟨"job_78b1768b4febf4a45a57e85e94b78edb", .running, 0⟩),
        (true, 1, .error (.expiredArtifact "package" "art_0123456789abcdef0123456789abcdef"))] := by
    decide +kernel
  obtain ⟨p, hp, hanswers⟩ := Option.map_eq_some_iff.mp hrun
  obtain ⟨a, rest, hcons, ha, hrest⟩ := List.map_eq_cons_iff.mp hanswers
  obtain ⟨a', rest', rfl, ha', -⟩ := List.map_eq_cons_iff.mp hrest
  simp only [Prod.mk.injEq, decide_eq_true_eq] at ha ha'
  obtain ⟨⟨hname, hkey, hbody, -⟩, -, hok⟩ := ha
  obtain ⟨⟨hname', hkey', hbody', hup⟩, hpreceding, herror⟩ := ha'
  obtain ⟨created', hok', -⟩ := h sampleRuntime _ p hp 0 a _ (by rw [hcons]; rfl) hok a'
    (by rw [hcons]; exact List.mem_cons_of_mem _ List.mem_cons_self) (by rw [hpreceding]; decide)
    ⟨hname.trans hname'.symm, hkey.trans hkey'.symm, hbody.trans hbody'.symm⟩ hup
  cases herror.symm.trans hok'

end Janus.Runner
