import Janus.Concurrency.Safety

/-! A pool of programs that share a store: tasks start, interleave call by call, finish, and are all
lost in a crash. -/

namespace Janus.Concurrency

structure System (ρ C : Type) (X : C → Type) (ε σ ο η : Type) where
  program : ρ → Program C X ε Unit
  beside : ρ → ρ → Bool
  exec : (c : C) → ο → σ → Except ε (X c) × σ
  environ : η → σ → σ
  ready : C → σ → Bool := fun _ _ => true
  crashed : σ → σ := id

structure Pool (ρ C : Type) (X : C → Type) (ε σ : Type) where
  store : σ
  tasks : List (ρ × Program C X ε Unit)

inductive Event (ρ ο η : Type)
  | start (r : ρ)
  | step (i : ℕ) (o : ο)
  | finish (i : ℕ)
  | crash
  | environment (e : η)
  deriving DecidableEq

variable {ρ C : Type} {X : C → Type} {ε σ ο η : Type}

def Event.start? : Event ρ ο η → Option ρ
  | .start r => some r
  | _ => none

instance (e : Event ρ ο η) : Decidable (e = .crash) :=
  match e with
  | .crash => isTrue rfl
  | .start _ | .step _ _ | .finish _ | .environment _ => isFalse nofun

def Pool.call? (p : Pool ρ C X ε σ) : Event ρ ο η → Option C
  | .step i _ => match p.tasks[i]? with
    | some (_, .call c _) => some c
    | _ => none
  | _ => none

lemma Pool.call?_eq_some {p : Pool ρ C X ε σ} {e : Event ρ ο η} {c : C} (h : p.call? e = some c) :
    ∃ i o r next, e = .step i o ∧ p.tasks[i]? = some (r, .call c next) := by
  cases e with
  | step i o =>
    simp only [call?] at h
    split at h
    · next r d next ht =>
      cases h
      exact ⟨i, o, r, next, rfl, ht⟩
    · cases h
  | _ => cases h

namespace System

variable (S : System ρ C X ε σ ο η)

def result? (p : Pool ρ C X ε σ) : Event ρ ο η → Option (ρ × Except ε Unit)
  | .step i o =>
    match p.tasks[i]? with
    | some (r, .call c next) => (next (S.exec c o p.store).1).result?.map fun x => (r, x)
    | _ => none
  | _ => none

lemma result?_step {p : Pool ρ C X ε σ} {i : ℕ} {o : ο} {r : ρ} {c : C}
    {next : Except ε (X c) → Program C X ε Unit} (ht : p.tasks[i]? = some (r, .call c next)) :
    S.result? p (.step i o) = (next (S.exec c o p.store).1).result?.map fun x => (r, x) := by
  simp only [result?, ht]

def apply (p : Pool ρ C X ε σ) : Event ρ ο η → Option (Pool ρ C X ε σ)
  | .start r =>
    if p.tasks.all (fun t => S.beside t.1 r) then
      some { p with tasks := p.tasks ++ [(r, S.program r)] }
    else none
  | .step i o =>
    match p.tasks[i]? with
    | some (r, .call c next) =>
      if S.ready c p.store then
        let answer := S.exec c o p.store
        some { store := answer.2, tasks := p.tasks.set i (r, next answer.1) }
      else none
    | _ => none
  | .finish i =>
    match p.tasks[i]? with
    | some (_, .done _) => some { p with tasks := p.tasks.eraseIdx i }
    | _ => none
  | .crash => some { store := S.crashed p.store, tasks := [] }
  | .environment e => some { p with store := S.environ e p.store }

def run : List (Event ρ ο η) → Pool ρ C X ε σ → Option (Pool ρ C X ε σ)
  | [], p => some p
  | e :: es, p => (S.apply p e).bind (run es)

/-- Every event of the run that is taken satisfies `P` in the pool it is taken in. -/
def Along (P : Pool ρ C X ε σ → Event ρ ο η → Prop) :
    List (Event ρ ο η) → Pool ρ C X ε σ → Prop
  | [], _ => True
  | e :: es, p => ∀ p', S.apply p e = some p' → P p e ∧ Along P es p'

def Along.decide (P : Pool ρ C X ε σ → Event ρ ο η → Prop) [∀ p e, Decidable (P p e)] :
    (es : List (Event ρ ο η)) → (p : Pool ρ C X ε σ) → Decidable (S.Along P es p)
  | [], _ => isTrue trivial
  | e :: es, p =>
    match h : S.apply p e with
    | none => isTrue fun _ hp' => by cases h.symm.trans hp'
    | some p' =>
      have := Along.decide P es p'
      decidable_of_iff (P p e ∧ S.Along P es p')
        ⟨fun hp q hq => by cases h.symm.trans hq; exact hp, fun hp => hp p' h⟩

instance (P : Pool ρ C X ε σ → Event ρ ο η → Prop) [∀ p e, Decidable (P p e)]
    (es : List (Event ρ ο η)) (p : Pool ρ C X ε σ) : Decidable (S.Along P es p) :=
  Along.decide S P es p

variable {S} {P Q : Pool ρ C X ε σ → Event ρ ο η → Prop}

lemma Along.of_forall (h : ∀ p e, P p e) (es : List (Event ρ ο η)) (p : Pool ρ C X ε σ) :
    S.Along P es p := by
  induction es generalizing p with
  | nil => trivial
  | cons e es ih => exact fun p' _ => ⟨h p e, ih p'⟩

lemma Along.of_forall_mem {es : List (Event ρ ο η)} (h : ∀ e ∈ es, ∀ p, P p e) (p : Pool ρ C X ε σ) :
    S.Along P es p := by
  induction es generalizing p with
  | nil => trivial
  | cons e es ih =>
    exact fun p' _ => ⟨h e List.mem_cons_self p, ih (fun d hd => h d (List.mem_cons_of_mem _ hd)) p'⟩

lemma Along.of_invariant {I : Pool ρ C X ε σ → Prop}
    (hstep : ∀ p e p', I p → P p e → S.apply p e = some p' → I p')
    (hQ : ∀ p e p', I p → P p e → S.apply p e = some p' → Q p e) {es : List (Event ρ ο η)}
    {p : Pool ρ C X ε σ} (hp : I p) (h : S.Along P es p) : S.Along Q es p := by
  induction es generalizing p with
  | nil => trivial
  | cons e es ih =>
    intro p' hp'
    obtain ⟨he, hes⟩ := h p' hp'
    exact ⟨hQ p e p' hp he hp', ih (hstep p e p' hp he hp') hes⟩

lemma Along.mono (h : ∀ p e, P p e → Q p e) {es : List (Event ρ ο η)} {p : Pool ρ C X ε σ}
    (hp : S.Along P es p) : S.Along Q es p :=
  .of_invariant (I := fun _ => True) (fun _ _ _ _ _ _ => trivial)
    (fun p e _ _ hpe _ => h p e hpe) trivial hp

lemma Along.invariant {I : Pool ρ C X ε σ → Prop}
    (hstep : ∀ p e p', I p → P p e → S.apply p e = some p' → I p') {es : List (Event ρ ο η)}
    {p p' : Pool ρ C X ε σ} (hp : I p) (h : S.Along P es p) (hrun : S.run es p = some p') :
    I p' := by
  induction es generalizing p with
  | nil => exact Option.some.inj hrun ▸ hp
  | cons e es ih =>
    obtain ⟨q, hq, hrun⟩ := Option.bind_eq_some_iff.mp hrun
    obtain ⟨he, hes⟩ := h q hq
    exact ih (hstep p e q hp he hq) hes hrun

lemma Along.and {es : List (Event ρ ο η)} {p : Pool ρ C X ε σ} (h : S.Along P es p)
    (h' : S.Along Q es p) : S.Along (fun p e => P p e ∧ Q p e) es p := by
  induction es generalizing p with
  | nil => trivial
  | cons e es ih => exact fun q hq => ⟨⟨(h q hq).1, (h' q hq).1⟩, ih (h q hq).2 (h' q hq).2⟩

lemma run_cons {e : Event ρ ο η} {p q : Pool ρ C X ε σ} (h : S.apply p e = some q)
    (es : List (Event ρ ο η)) : S.run (e :: es) p = S.run es q := by
  simp only [run, h, Option.bind_some]

lemma Along.append {es es' : List (Event ρ ο η)} {p q : Pool ρ C X ε σ}
    (h : S.Along P (es ++ es') p) (hq : S.run es p = some q) : S.Along P es' q := by
  induction es generalizing p with
  | nil =>
    obtain rfl : p = q := Option.some.inj hq
    exact h
  | cons d es ih =>
    obtain ⟨p', hp', hq⟩ := Option.bind_eq_some_iff.mp hq
    exact ih (h p' hp').2 hq

lemma Along.left {es es' : List (Event ρ ο η)} {p : Pool ρ C X ε σ} (h : S.Along P (es ++ es') p) :
    S.Along P es p := by
  induction es generalizing p with
  | nil => trivial
  | cons d es ih => exact fun p' hp' => ⟨(h p' hp').1, ih (h p' hp').2⟩

lemma Along.last {es : List (Event ρ ο η)} {e : Event ρ ο η} {p q q' : Pool ρ C X ε σ}
    (h : S.Along P (es ++ [e]) p) (hq : S.run es p = some q) (ha : S.apply q e = some q') : P q e :=
  (h.append hq q' ha).1

lemma along_reached_iff {I : Pool ρ C X ε σ → Prop} {es : List (Event ρ ο η)} {p : Pool ρ C X ε σ}
    (hp : I p) : (∀ ds, ds <+: es → ∀ q, S.run ds p = some q → I q) ↔
      S.Along (fun q e => ∀ q', S.apply q e = some q' → I q') es p := by
  constructor
  · intro h
    induction es generalizing p with
    | nil => trivial
    | cons e es ih =>
      intro p' hp'
      have hp'' : I p' := h [e] (by simp) p' (by simp [run, hp'])
      refine ⟨fun q hq => Option.some.inj (hp'.symm.trans hq) ▸ hp'', ih hp'' fun ds hds q hq => ?_⟩
      exact h (e :: ds) (List.cons_prefix_cons.mpr ⟨rfl, hds⟩) q (by simp [run, hp', hq])
  · rintro h ds ⟨rest, rfl⟩ q hq
    exact h.left.invariant (I := I) (fun _ _ _ _ h ha => h _ ha) hp hq

def AtMostOnce (S : System ρ C X ε σ ο η) (P : Pool ρ C X ε σ → Event ρ ο η → Prop) :
    List (Event ρ ο η) → Pool ρ C X ε σ → Prop
  | [], _ => True
  | e :: es, p => ∀ p', S.apply p e = some p' →
      (P p e → S.Along (fun q d => ¬ P q d) es p') ∧ S.AtMostOnce P es p'

def AtMostOnce.decide (S : System ρ C X ε σ ο η) (P : Pool ρ C X ε σ → Event ρ ο η → Prop)
    [∀ p e, Decidable (P p e)] :
    (es : List (Event ρ ο η)) → (p : Pool ρ C X ε σ) → Decidable (S.AtMostOnce P es p)
  | [], _ => isTrue trivial
  | e :: es, p =>
    match h : S.apply p e with
    | none => isTrue fun _ hp' => by cases h.symm.trans hp'
    | some p' =>
      have := AtMostOnce.decide S P es p'
      decidable_of_iff ((P p e → S.Along (fun q d => ¬ P q d) es p') ∧ S.AtMostOnce P es p')
        ⟨fun hp q hq => by cases h.symm.trans hq; exact hp, fun hp => hp p' h⟩

instance (P : Pool ρ C X ε σ → Event ρ ο η → Prop) [∀ p e, Decidable (P p e)]
    (es : List (Event ρ ο η)) (p : Pool ρ C X ε σ) : Decidable (S.AtMostOnce P es p) :=
  AtMostOnce.decide S P es p

lemma AtMostOnce.of_invariant {ok : Pool ρ C X ε σ → Event ρ ο η → Prop} {J I : Pool ρ C X ε σ → Prop}
    (hstep : ∀ p e p', J p → ok p e → S.apply p e = some p' → J p')
    (honce : ∀ p e p', J p → ok p e → S.apply p e = some p' → P p e → I p')
    (hkept : ∀ p e p', J p → I p → ok p e → S.apply p e = some p' → I p')
    (hnever : ∀ p e p', J p → I p → ok p e → S.apply p e = some p' → ¬ P p e)
    {es : List (Event ρ ο η)} {p : Pool ρ C X ε σ} (hp : J p) (h : S.Along ok es p) :
    S.AtMostOnce P es p := by
  induction es generalizing p with
  | nil => trivial
  | cons e es ih =>
    intro p' hp'
    obtain ⟨he, hes⟩ := h p' hp'
    have hJ := hstep p e p' hp he hp'
    refine ⟨fun hP => ?_, ih hJ hes⟩
    exact Along.of_invariant (I := fun q => J q ∧ I q)
      (fun q d q' hq hd hq' => ⟨hstep q d q' hq.1 hd hq', hkept q d q' hq.1 hq.2 hd hq'⟩)
      (fun q d q' hq hd hq' => hnever q d q' hq.1 hq.2 hd hq') ⟨hJ, honce p e p' hp he hp' hP⟩ hes

lemma apply_cases {p p' : Pool ρ C X ε σ} {e : Event ρ ο η} (h : S.apply p e = some p') :
    (∃ r, e = .start r ∧ (∀ t ∈ p.tasks, S.beside t.1 r = true) ∧
      p' = { p with tasks := p.tasks ++ [(r, S.program r)] }) ∨
    (∃ i o r c next, e = .step i o ∧ p.tasks[i]? = some (r, .call c next) ∧
      S.ready c p.store = true ∧
      p' = { store := (S.exec c o p.store).2,
             tasks := p.tasks.set i (r, next (S.exec c o p.store).1) }) ∨
    (∃ i r x, e = .finish i ∧ p.tasks[i]? = some (r, .done x) ∧
      p' = { p with tasks := p.tasks.eraseIdx i }) ∨
    (e = .crash ∧ p' = { store := S.crashed p.store, tasks := [] }) ∨
    (∃ v, e = .environment v ∧ p' = { p with store := S.environ v p.store }) := by
  cases e with
  | start r =>
    simp only [apply, Option.ite_none_right_eq_some, List.all_eq_true, Option.some.injEq] at h
    exact .inl ⟨r, rfl, h.1, h.2.symm⟩
  | step i o =>
    simp only [apply] at h
    split at h
    · next r c next ht =>
      split at h
      · next hready => exact .inr (.inl ⟨i, o, r, c, next, rfl, ht, hready, (Option.some.inj h).symm⟩)
      · cases h
    · cases h
  | finish i =>
    simp only [apply] at h
    split at h
    · next r x ht => exact .inr (.inr (.inl ⟨i, r, x, rfl, ht, (Option.some.inj h).symm⟩))
    · cases h
  | crash => exact .inr (.inr (.inr (.inl ⟨rfl, (Option.some.inj h).symm⟩)))
  | environment v => exact .inr (.inr (.inr (.inr ⟨v, rfl, (Option.some.inj h).symm⟩)))

lemma store_apply {R : σ → σ → Prop} {p p' : Pool ρ C X ε σ} {e : Event ρ ο η}
    (ha : S.apply p e = some p') (refl : ∀ s, R s s) (exec : ∀ c o s, R s (S.exec c o s).2)
    (environ : ∀ v s, R s (S.environ v s)) (crashed : ∀ s, R s (S.crashed s)) :
    R p.store p'.store := by
  obtain ⟨r, rfl, -, rfl⟩ | ⟨i, o, r, c, next, rfl, -, -, rfl⟩ | ⟨i, r, x, rfl, -, rfl⟩ |
    ⟨rfl, rfl⟩ | ⟨v, rfl, rfl⟩ := apply_cases ha
  · exact refl _
  · exact exec c o _
  · exact refl _
  · exact crashed _
  · exact environ v _

lemma forall_tasks_apply {Φ : ρ → Program C X ε Unit → σ → Prop} {p p' : Pool ρ C X ε σ}
    {e : Event ρ ο η} (ha : S.apply p e = some p') (hstart : ∀ r, Φ r (S.program r) p.store)
    (hstep : ∀ r c next o, Φ r (.call c next) p.store → S.ready c p.store = true →
      Φ r (next (S.exec c o p.store).1) (S.exec c o p.store).2)
    (hmono : ∀ r q, Φ r q p.store → Φ r q p'.store) (h : ∀ t ∈ p.tasks, Φ t.1 t.2 p.store) :
    ∀ t ∈ p'.tasks, Φ t.1 t.2 p'.store := by
  obtain ⟨r, rfl, -, rfl⟩ | ⟨i, o, r, c, next, rfl, ht, hready, rfl⟩ | ⟨i, r, x, rfl, -, rfl⟩ |
    ⟨rfl, rfl⟩ | ⟨v, rfl, rfl⟩ := apply_cases ha
  · intro t ht
    rcases List.mem_append.mp ht with ht | ht
    · exact h t ht
    · obtain rfl := List.mem_singleton.mp ht
      exact hstart r
  · intro t ht'
    rcases List.mem_or_eq_of_mem_set ht' with ht' | rfl
    · exact hmono t.1 t.2 (h t ht')
    · exact hstep r c next o (h _ (List.mem_of_getElem? ht)) hready
  · exact fun t ht => h t (List.mem_of_mem_eraseIdx ht)
  · exact fun t ht => absurd ht List.not_mem_nil
  · exact fun t ht => hmono t.1 t.2 (h t ht)

lemma beside_of_ne {p : Pool ρ C X ε σ}
    (hp : p.tasks.Pairwise fun t t' => S.beside t.1 t'.1 = true) {i j : ℕ} {r : ρ}
    {q : Program C X ε Unit} (ht : p.tasks[i]? = some (r, q)) (hj : j < p.tasks.length)
    (hij : i ≠ j) : S.beside r (p.tasks[j]).1 = true ∨ S.beside (p.tasks[j]).1 r = true := by
  obtain ⟨hi, hget⟩ := List.getElem?_eq_some_iff.mp ht
  rw [List.pairwise_iff_getElem] at hp
  rcases Nat.lt_or_gt_of_ne hij with hlt | hgt
  · exact .inl (by simpa [hget] using hp i j hi hj hlt)
  · exact .inr (by simpa [hget] using hp j i hj hi hgt)

lemma beside_apply {p p' : Pool ρ C X ε σ} {e : Event ρ ο η}
    (hp : p.tasks.Pairwise fun t t' => S.beside t.1 t'.1 = true) (ha : S.apply p e = some p') :
    p'.tasks.Pairwise fun t t' => S.beside t.1 t'.1 = true := by
  obtain ⟨r, rfl, hb, rfl⟩ | ⟨i, o, r, c, next, rfl, ht, hready, rfl⟩ | ⟨i, r, x, rfl, ht, rfl⟩ |
    ⟨rfl, rfl⟩ | ⟨v, rfl, rfl⟩ := apply_cases ha
  · refine List.pairwise_append.mpr ⟨hp, List.pairwise_singleton _ _, ?_⟩
    intro t ht t' ht'
    obtain rfl := List.mem_singleton.mp ht'
    exact hb t ht
  · have hget := (List.getElem?_eq_some_iff.mp ht).2
    have hroles : (p.tasks.set i (r, next (S.exec c o p.store).1)).map Prod.fst =
        p.tasks.map Prod.fst := by
      rw [List.map_set]
      apply List.ext_getElem (by simp)
      intro j hj hj'
      rw [List.getElem_set]
      split
      · next hij => subst hij; simp [hget]
      · rfl
    have hmap := List.pairwise_map (f := Prod.fst) (R := fun r r' => S.beside r r' = true)
      (l := p.tasks)
    rw [← hroles, List.pairwise_map] at hmap
    exact hmap.mpr hp
  · exact hp.sublist (List.eraseIdx_sublist _ _)
  · exact .nil
  · exact hp

structure Outline (S : System ρ C X ε σ ο η) (ok : Pool ρ C X ε σ → Event ρ ο η → Prop)
    (inv : σ → Prop) (D : ρ → Discipline C X ε σ) (post : ρ → Except ε Unit → σ → Prop) : Prop where
  inv_eq : ∀ r, (D r).inv = inv
  trans : ∀ r s s' s'', (D r).rely s s' → (D r).rely s' s'' → (D r).rely s s''
  post_stable : ∀ r x s s', post r x s → (D r).rely s s' → post r x s'
  refl : ∀ r s, (D r).rely s s
  start : ∀ p r, inv p.store → ok p (.start r) → Safe (D r) (post r) (S.program r) p.store
  admits : ∀ p i o r c next, inv p.store → ok p (.step i o) →
    p.tasks[i]? = some (r, .call c next) → S.ready c p.store = true →
    (D r).admits c p.store (S.exec c o p.store).1 (S.exec c o p.store).2
  keeps : ∀ r s s', inv s → (D r).step s s' → inv s'
  compat : ∀ p i o r c next r', inv p.store → ok p (.step i o) →
    p.tasks[i]? = some (r, .call c next) → r' ∈ (p.tasks.eraseIdx i).map Prod.fst →
    S.beside r r' = true ∨ S.beside r' r = true → (D r).before c p.store →
    (D r).admits c p.store (S.exec c o p.store).1 (S.exec c o p.store).2 →
    (D r').rely p.store (S.exec c o p.store).2
  environ : ∀ p v, ok p (.environment v) → inv p.store →
    inv (S.environ v p.store) ∧ ∀ r, (D r).rely p.store (S.environ v p.store)
  crash : ∀ p, ok p .crash → inv p.store → inv (S.crashed p.store)

def Sound (S : System ρ C X ε σ ο η) (inv : σ → Prop) (D : ρ → Discipline C X ε σ)
    (post : ρ → Except ε Unit → σ → Prop) (p : Pool ρ C X ε σ) : Prop :=
  inv p.store ∧ (∀ t ∈ p.tasks, Safe (D t.1) (post t.1) t.2 p.store) ∧
    p.tasks.Pairwise fun t t' => S.beside t.1 t'.1 = true

section

variable {ok : Pool ρ C X ε σ → Event ρ ο η → Prop} {inv : σ → Prop}
variable {D : ρ → Discipline C X ε σ} {post : ρ → Except ε Unit → σ → Prop}
variable {p p' : Pool ρ C X ε σ} {e : Event ρ ο η}

lemma Sound.before (h : Outline S ok inv D post) (hs : Sound S inv D post p) {r : ρ} {c : C}
    {next : Except ε (X c) → Program C X ε Unit} (ht : (r, .call c next) ∈ p.tasks) :
    (D r).before c p.store :=
  (hs.2.1 _ ht _ (h.refl r _) (h.inv_eq r ▸ hs.1)).1

lemma Sound.apply (h : Outline S ok inv D post) (hs : Sound S inv D post p) (hok : ok p e)
    (ha : S.apply p e = some p') : Sound S inv D post p' := by
  obtain ⟨hinv, hsafe, hpair⟩ := hs
  have hpair' := beside_apply hpair ha
  obtain ⟨r, rfl, hb, rfl⟩ | ⟨i, o, r, c, next, rfl, ht, hready, rfl⟩ | ⟨i, r, x, rfl, ht, rfl⟩ |
    ⟨rfl, rfl⟩ | ⟨v, rfl, rfl⟩ := apply_cases ha
  · refine ⟨hinv, fun t ht => ?_, hpair'⟩
    rcases List.mem_append.mp ht with ht | ht
    · exact hsafe t ht
    · obtain rfl := List.mem_singleton.mp ht
      exact h.start p r hinv hok
  · obtain ⟨hb, hcall⟩ := hsafe _ (List.mem_of_getElem? ht) _ (h.refl r _) (h.inv_eq r ▸ hinv)
    have ha := h.admits p i o r c next hinv hok ht hready
    have hstep : (D r).step p.store (S.exec c o p.store).2 := ⟨c, _, hb, ha⟩
    have hinv' := h.keeps r _ _ hinv hstep
    refine ⟨hinv', fun t ht' => ?_, hpair'⟩
    obtain ⟨j, hj, rfl⟩ := List.getElem_of_mem ht'
    rw [List.getElem_set]
    split
    · exact hcall _ _ ha
    · next hij =>
      have hj' : j < p.tasks.length := by simpa using hj
      have hother : p.tasks[j] ∈ p.tasks.eraseIdx i :=
        List.mem_eraseIdx_iff_getElem.mpr ⟨j, hj', fun h => hij h.symm, rfl⟩
      exact Safe.of_rely (h.trans _) (fun x s s' hp hr _ => h.post_stable _ x s s' hp hr)
        (hsafe _ (List.getElem_mem hj'))
        (h.compat p i o r c next _ hinv hok ht (List.mem_map_of_mem hother)
          (beside_of_ne hpair ht hj' hij) hb ha) (h.inv_eq _ ▸ hinv')
  · exact ⟨hinv, fun t ht' => hsafe t (List.mem_of_mem_eraseIdx ht'), hpair'⟩
  · exact ⟨h.crash p hok hinv, nofun, hpair'⟩
  · obtain ⟨hinv', hr⟩ := h.environ p v hok hinv
    refine ⟨hinv', fun t ht => ?_, hpair'⟩
    exact Safe.of_rely (h.trans _) (fun x s s' hp hr _ => h.post_stable _ x s s' hp hr)
      (hsafe t ht) (hr t.1) (h.inv_eq _ ▸ hinv')

end

end System

end Janus.Concurrency
