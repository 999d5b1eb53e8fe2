import Mathlib.Data.List.Basic

/-! Sequential programs whose only effects are fallible calls. A call is answered as a whole, so it
is the unit in which concurrent programs interleave. -/

namespace Janus.Concurrency

inductive Program (C : Type) (X : C → Type) (ε α : Type)
  | done (r : Except ε α)
  | call (c : C) (next : Except ε (X c) → Program C X ε α)

namespace Program

variable {C : Type} {X : C → Type} {ε α β : Type}

def bind : Program C X ε α → (α → Program C X ε β) → Program C X ε β
  | .done (.ok a), f => f a
  | .done (.error e), _ => .done (.error e)
  | .call c next, f => .call c fun x => (next x).bind f

instance : Monad (Program C X ε) where
  pure a := .done (.ok a)
  bind := bind

def fail (e : ε) : Program C X ε α := .done (.error e)

def result? : Program C X ε α → Option (Except ε α)
  | .done r => some r
  | .call _ _ => none

def request (c : C) : Program C X ε (X c) := .call c .done

def attempt : Program C X ε α → Program C X ε (Except ε α)
  | .done r => .done (.ok r)
  | .call c next => .call c fun x => (next x).attempt

lemma pure_def (a : α) : (pure a : Program C X ε α) = .done (.ok a) := rfl

@[simp] lemma done_bind (a : α) (f : α → Program C X ε β) :
    ((.done (.ok a) : Program C X ε α) >>= f) = f a := rfl

@[simp] lemma fail_bind (e : ε) (f : α → Program C X ε β) :
    ((.done (.error e) : Program C X ε α) >>= f) = .done (.error e) := rfl

@[simp] lemma call_bind (c : C) (next : Except ε (X c) → Program C X ε α)
    (f : α → Program C X ε β) :
    (.call c next >>= f) = .call c fun x => next x >>= f := rfl

lemma bind_assoc {γ : Type} (p : Program C X ε α) (f : α → Program C X ε β)
    (g : β → Program C X ε γ) : (p >>= f) >>= g = p >>= fun a => f a >>= g := by
  induction p with
  | done r => cases r <;> rfl
  | call c next ih =>
    simp only [call_bind]
    congr 1
    funext x
    exact ih x

def Only (P : C → Prop) : Program C X ε α → Prop
  | .done _ => True
  | .call c next => P c ∧ ∀ x, (next x).Only P

namespace Only

variable {P Q : C → Prop}

@[simp] lemma done (r : Except ε α) : (Program.done r : Program C X ε α).Only P := trivial

@[simp] lemma pure (a : α) : (Pure.pure a : Program C X ε α).Only P := trivial

@[simp] lemma fail (e : ε) : (Program.fail e : Program C X ε α).Only P := trivial

@[simp] lemma request_iff {c : C} : (Program.request c : Program C X ε (X c)).Only P ↔ P c :=
  ⟨fun h => h.1, fun h => ⟨h, fun _ => trivial⟩⟩

lemma of_forall (h : ∀ c, P c) (p : Program C X ε α) : p.Only P := by
  induction p with
  | done r => trivial
  | call c next ih => exact ⟨h c, ih⟩

lemma mono (h : ∀ c, P c → Q c) {p : Program C X ε α} (hp : p.Only P) : p.Only Q := by
  induction p with
  | done r => trivial
  | call c next ih => exact ⟨h c hp.1, fun x => ih x (hp.2 x)⟩

lemma and {p : Program C X ε α} (hp : p.Only P) (hq : p.Only Q) : p.Only fun c => P c ∧ Q c := by
  induction p with
  | done r => trivial
  | call c next ih => exact ⟨⟨hp.1, hq.1⟩, fun x => ih x (hp.2 x) (hq.2 x)⟩

lemma bind {p : Program C X ε α} {f : α → Program C X ε β} (hp : p.Only P)
    (hf : ∀ a, (f a).Only P) : (p >>= f).Only P := by
  induction p with
  | done r =>
    cases r with
    | ok a => exact hf a
    | error e => trivial
  | call c next ih => exact ⟨hp.1, fun x => ih x (hp.2 x)⟩

lemma attempt {p : Program C X ε α} (hp : p.Only P) : p.attempt.Only P := by
  induction p with
  | done r => trivial
  | call c next ih => exact ⟨hp.1, fun x => ih x (hp.2 x)⟩

lemma ite {Q : Prop} [Decidable Q] {p q : Program C X ε α} (hp : Q → p.Only P)
    (hq : ¬Q → q.Only P) : (if Q then p else q).Only P := by
  by_cases h : Q
  · rw [if_pos h]
    exact hp h
  · rw [if_neg h]
    exact hq h

lemma forM {f : β → Program C X ε PUnit} (hf : ∀ b, (f b).Only P) (bs : List β) :
    (bs.forM f).Only P := by
  induction bs with
  | nil => trivial
  | cons b bs ih => exact bind (hf b) fun _ => ih

end Only

end Program

end Janus.Concurrency
