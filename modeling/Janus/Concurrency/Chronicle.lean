import Janus.Concurrency.Pool

/-! A system that remembers the stores its calls have met, for invariants about what held before, and
whose tasks are kept apart; and what tasks leave under disciplines that tell what was met. -/

namespace Janus.Concurrency

namespace System

variable {ρ C : Type} {X : C → Type} {ε σ ο η : Type}

def chronicle (S : System ρ C X ε σ ο η) (apart : ρ → ρ → Bool) :
    System ρ C X ε (σ × List σ) ο η where
  program := S.program
  beside r r' := S.beside r r' && apart r r'
  exec c o s := ((S.exec c o s.1).1, (S.exec c o s.1).2, s.1 :: s.2)
  environ v s := (S.environ v s.1, s.2)
  ready c s := S.ready c s.1
  crashed s := (S.crashed s.1, s.2)

def StartsApart (apart : ρ → ρ → Bool) (p : Pool ρ C X ε σ) (e : Event ρ ο η) : Prop :=
  ∀ r ∈ e.start?, ∀ t ∈ p.tasks, apart t.1 r = true

instance (apart : ρ → ρ → Bool) (p : Pool ρ C X ε σ) (e : Event ρ ο η) :
    Decidable (StartsApart apart p e) :=
  inferInstanceAs (Decidable (∀ r ∈ e.start?, ∀ t ∈ p.tasks, apart t.1 r = true))

end System

def Pool.remembering {ρ C : Type} {X : C → Type} {ε σ : Type} (p : Pool ρ C X ε σ) (past : List σ) :
    Pool ρ C X ε (σ × List σ) :=
  ⟨(p.store, past), p.tasks⟩

namespace System

variable {ρ C : Type} {X : C → Type} {ε σ ο η : Type} {S : System ρ C X ε σ ο η}
variable {apart : ρ → ρ → Bool} {p q : Pool ρ C X ε σ} {e : Event ρ ο η}

lemma chronicle_apply (hapart : StartsApart apart p e) (ha : S.apply p e = some q) (past : List σ) :
    ∃ recent, (S.chronicle apart).apply (p.remembering past) e =
        some (q.remembering (recent ++ past)) ∧ ∀ s ∈ recent, s = p.store := by
  obtain ⟨r, rfl, hb, rfl⟩ | ⟨i, o, r, c, next, rfl, ht, hready, rfl⟩ | ⟨i, r, x, rfl, ht, rfl⟩ |
    ⟨rfl, rfl⟩ | ⟨v, rfl, rfl⟩ := apply_cases ha
  · refine ⟨[], if_pos (List.all_eq_true.mpr fun t ht => ?_), fun _ hs => absurd hs List.not_mem_nil⟩
    exact Bool.and_eq_true_iff.mpr ⟨hb t ht, hapart r rfl t ht⟩
  · refine ⟨[p.store], ?_, fun s hs => List.mem_singleton.mp hs⟩
    simp only [apply, Pool.remembering, ht]
    exact if_pos hready
  · refine ⟨[], ?_, fun _ hs => absurd hs List.not_mem_nil⟩
    simp only [apply, Pool.remembering, ht]
    rfl
  · exact ⟨[], rfl, fun _ hs => absurd hs List.not_mem_nil⟩
  · exact ⟨[], rfl, fun _ hs => absurd hs List.not_mem_nil⟩

theorem chronicle_run {ok : Pool ρ C X ε σ → Event ρ ο η → Prop} {es : List (Event ρ ο η)}
    (hok : S.Along (fun p e => StartsApart apart p e ∧ ok p e) es p) (hrun : S.run es p = some q)
    (past : List σ) :
    ∃ recent, (S.chronicle apart).run es (p.remembering past) =
        some (q.remembering (recent ++ past)) ∧
      (S.chronicle apart).Along (fun p e => ok ⟨p.store.1, p.tasks⟩ e) es (p.remembering past) ∧
      ∀ s ∈ recent, ∃ before, before <+: es ∧ ∃ p', S.run before p = some p' ∧ p'.store = s := by
  induction es generalizing p past with
  | nil =>
    obtain rfl := Option.some.inj hrun
    exact ⟨[], rfl, trivial, fun _ hs => absurd hs List.not_mem_nil⟩
  | cons e es ih =>
    obtain ⟨p₁, ha, hrun⟩ := Option.bind_eq_some_iff.mp hrun
    obtain ⟨⟨hapart, he⟩, hes⟩ := hok p₁ ha
    obtain ⟨new, ha₁, hnew⟩ := chronicle_apply hapart ha past
    obtain ⟨recent, hrun', halong, hrecent⟩ := ih hes hrun (new ++ past)
    refine ⟨recent ++ new, ?_, fun q' hq' => ?_, fun s hs => ?_⟩
    · rw [run_cons ha₁, List.append_assoc]
      exact hrun'
    · obtain rfl := Option.some.inj (ha₁.symm.trans hq')
      exact ⟨he, halong⟩
    · rcases List.mem_append.mp hs with hs | hs
      · obtain ⟨before, hbefore, p', hp', hs⟩ := hrecent s hs
        refine ⟨e :: before, List.cons_prefix_cons.mpr ⟨rfl, hbefore⟩, p', ?_, hs⟩
        rw [run_cons ha]
        exact hp'
      · exact ⟨[], List.nil_prefix, p, rfl, (hnew s hs).symm⟩

/-- Nothing is remembered before the run. -/
theorem chronicle_run_nil {ok : Pool ρ C X ε σ → Event ρ ο η → Prop} {es : List (Event ρ ο η)}
    (hok : S.Along (fun p e => StartsApart apart p e ∧ ok p e) es p) (hrun : S.run es p = some q) :
    ∃ past, (S.chronicle apart).run es (p.remembering []) = some (q.remembering past) ∧
      (S.chronicle apart).Along (fun p e => ok ⟨p.store.1, p.tasks⟩ e) es (p.remembering []) ∧
      ∀ s ∈ past, ∃ before, before <+: es ∧ ∃ p', S.run before p = some p' ∧ p'.store = s := by
  obtain ⟨recent, hrun', hrest⟩ := chronicle_run hok hrun []
  rw [List.append_nil] at hrun'
  exact ⟨recent, hrun', hrest⟩

end System

section

variable {C : Type} {X : C → Type} {ε σ α : Type}

structure Chronicled (D : Discipline C X ε (σ × List σ)) (meets : (c : C) → σ → Except ε (X c) → σ → Prop)
    (quiet : C → Prop) (later : σ × List σ → σ × List σ → Prop) : Prop where
  rely : ∀ x x', D.rely x x' → later x x'
  before : ∀ c x, quiet c → D.before c x
  exec : ∀ c x a x', D.admits c x a x' → meets c x.1 a x'.1 ∧ x'.2 = x.1 :: x.2
  admits : ∀ c x a x', D.before c x → D.admits c x a x' → later x x'

def Lasts (later : σ × List σ → σ × List σ → Prop) (A : σ × List σ → Prop) : Prop :=
  ∀ x x', A x → later x x' → A x'

namespace Chronicled

variable {D : Discipline C X ε (σ × List σ)} {meets : (c : C) → σ → Except ε (X c) → σ → Prop}
variable {quiet : C → Prop} {later : σ × List σ → σ × List σ → Prop} {A : σ × List σ → Prop}
variable {x : σ × List σ}

lemma only (h : Chronicled D meets quiet later) {p : Program C X ε α} (hA : Lasts later A)
    (hp : p.Only quiet) (hx : A x) : Gives D (fun _ => A) p x :=
  .of_only (fun x x' hx hr _ => hA x x' hx (h.rely x x' hr)) (fun c x hc _ _ => h.before c x hc)
    (fun c x a x' hc hx _ ha => hA x x' hx (h.admits c x a x' (h.before c x hc) ha)) hp hx

lemma runs (h : Chronicled D meets quiet later) {p : Program C X ε α} (hp : p.Only quiet) :
    Gives D (fun _ _ => True) p x :=
  h.only (A := fun _ => True) (fun _ _ _ _ => trivial) hp trivial

lemma frame (h : Chronicled D meets quiet later) {p : Program C X ε α} {Q : α → σ × List σ → Prop}
    (hA : Lasts later A) (hp : Gives D Q p x) (hx : A x) : Gives D (fun a x => Q a x ∧ A x) p x := by
  refine Safe.mono ?_ (Safe.frame (fun x x' hx hr => hA x x' hx (h.rely x x' hr))
    (fun c x a x' hx hb ha => hA x x' hx (h.admits c x a x' hb ha)) hp hx)
  exact fun r x hr a ha => ⟨hr.1 a ha, hr.2⟩

lemma call (h : Chronicled D meets quiet later) {c : C} {Q : X c → σ × List σ → Prop}
    (hA : Lasts later A) (hbefore : ∀ x, A x → D.before c x)
    (hQ : ∀ x a x', A x → A x' → meets c x.1 (.ok a) x'.1 → x'.2 = x.1 :: x.2 → Q a x') (hx : A x) :
    Gives D Q (.request c) x := by
  refine .request hx (fun x x' hx hr _ => hA x x' hx (h.rely x x' hr)) fun x' hx' _ => ?_
  refine ⟨hbefore x' hx', fun a x'' ha b hb => ?_⟩
  subst hb
  obtain ⟨hmeets, hpast⟩ := h.exec _ _ _ _ ha
  exact hQ x' b x'' hx' (hA x' x'' hx' (h.admits _ x' _ x'' (hbefore x' hx') ha)) hmeets hpast

lemma forM (h : Chronicled D meets quiet later) {β : Type} {f : β → Program C X ε PUnit}
    {Q : β → σ × List σ → Prop} {bs : List β} (hA : Lasts later A) (hQ : ∀ b, Lasts later (Q b))
    (hf : ∀ b ∈ bs, ∀ x, A x → Gives D (fun _ => Q b) (f b) x) (hx : A x) :
    Gives D (fun _ x => ∀ b ∈ bs, Q b x) (bs.forM f) x := by
  induction bs generalizing x with
  | nil => exact .pure fun _ h => absurd h List.not_mem_nil
  | cons b bs ih =>
    obtain ⟨hb, hbs⟩ := List.forall_mem_cons.mp hf
    refine .bind (h.frame hA (hb x hx) hx) fun _ x' hx' => ?_
    refine .mono (fun _ x'' hx'' => ?_) (h.frame (hQ b) (ih hbs hx'.2) hx'.1)
    exact List.forall_mem_cons.mpr hx''.symm

end Chronicled

end

end Janus.Concurrency
