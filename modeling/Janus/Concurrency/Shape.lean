import Janus.Concurrency.Pool

/-! Programs that go on from each of their calls as they have to. -/

namespace Janus.Concurrency

structure Shape (C : Type) (X : C → Type) (ε : Type) where
  goesOn : {α : Type} → (c : C) → (Except ε (X c) → Program C X ε α) → Prop
  bind : ∀ {α β : Type} (c : C) (next : Except ε (X c) → Program C X ε α)
    (f : α → Program C X ε β), goesOn c next → goesOn c fun x => next x >>= f

variable {ρ C : Type} {X : C → Type} {ε α β σ ο η : Type}

def Shaped (S : Shape C X ε) : Program C X ε α → Prop
  | .done _ => True
  | .call c next => S.goesOn c next ∧ ∀ x, Shaped S (next x)

namespace Shaped

variable {S : Shape C X ε} {p : Program C X ε α}

@[simp] lemma pure (a : α) : Shaped S (Pure.pure a : Program C X ε α) := trivial

@[simp] lemma done (r : Except ε α) : Shaped S (.done r : Program C X ε α) := trivial

lemma of_only {Q : C → Prop} (hQ : ∀ {α : Type} (c : C) (next : Except ε (X c) → Program C X ε α),
    Q c → S.goesOn c next) (hp : p.Only Q) : Shaped S p := by
  induction p with
  | done r => trivial
  | call c next ih => exact ⟨hQ c next hp.1, fun x => ih x (hp.2 x)⟩

lemma bind {f : α → Program C X ε β} (hp : Shaped S p) (hf : ∀ a, Shaped S (f a)) :
    Shaped S (p >>= f) := by
  induction p with
  | done r =>
    cases r with
    | ok a => exact hf a
    | error e => trivial
  | call c next ih => exact ⟨S.bind c next f hp.1, fun x => ih x (hp.2 x)⟩

lemma ite {P : Prop} [Decidable P] {p q : Program C X ε α} (hp : P → Shaped S p)
    (hq : ¬ P → Shaped S q) : Shaped S (if P then p else q) := by
  by_cases h : P
  · rw [if_pos h]
    exact hp h
  · rw [if_neg h]
    exact hq h

lemma forM {f : β → Program C X ε PUnit} {bs : List β} (hf : ∀ b, Shaped S (f b)) :
    Shaped S (bs.forM f) := by
  induction bs with
  | nil => trivial
  | cons b bs ih => exact bind (hf b) fun _ => ih

end Shaped

namespace System

variable {S : System ρ C X ε σ ο η} {Sh : Shape C X ε}

lemma shaped_run (hstart : ∀ r, Shaped Sh (S.program r)) {es : List (Event ρ ο η)}
    {p p' : Pool ρ C X ε σ} (hp : ∀ t ∈ p.tasks, Shaped Sh t.2) (hrun : S.run es p = some p') :
    ∀ t ∈ p'.tasks, Shaped Sh t.2 := by
  refine Along.invariant (P := fun _ _ => True) (I := fun q => ∀ t ∈ q.tasks, Shaped Sh t.2) ?_ hp
    (Along.of_forall (fun _ _ => trivial) es p) hrun
  intro q e q' hq _ ha
  exact forall_tasks_apply (Φ := fun _ task _ => Shaped Sh task) ha hstart
    (fun r c next o hshaped _ => hshaped.2 _) (fun _ _ h => h) hq

end System

end Janus.Concurrency
