import Janus.Concurrency.Program

/-! Programs whose calls are answered by the state alone. -/

namespace Janus.Concurrency.Program

variable {C : Type} {X : C → Type} {ε α β σ : Type}
variable {exec : (c : C) → σ → Except ε (X c) × σ}

def eval (exec : (c : C) → σ → Except ε (X c) × σ) : Program C X ε α → σ → Except ε α × σ
  | .done r, s => (r, s)
  | .call c next, s => (next (exec c s).1).eval exec (exec c s).2

section

variable {p : Program C X ε α} {f : α → Program C X ε β} {s s' : σ} {a : α} {b : β} {e : ε}

@[simp] lemma eval_done (r : Except ε α) (s : σ) :
    (.done r : Program C X ε α).eval exec s = (r, s) := rfl

@[simp] lemma eval_pure (a : α) (s : σ) :
    (pure a : Program C X ε α).eval exec s = (.ok a, s) := rfl

@[simp] lemma eval_fail (e : ε) (s : σ) :
    (fail e : Program C X ε α).eval exec s = (.error e, s) := rfl

@[simp] lemma eval_request (c : C) (s : σ) : (request c).eval exec s = exec c s := rfl

lemma eval_bind_of_ok (h : p.eval exec s = (.ok a, s')) :
    (p >>= f).eval exec s = (f a).eval exec s' := by
  induction p generalizing s with
  | done r =>
    obtain ⟨rfl, rfl⟩ := Prod.mk.inj h
    rfl
  | call c next ih => exact ih _ h

lemma eval_bind_of_error (h : p.eval exec s = (.error e, s')) :
    (p >>= f).eval exec s = (.error e, s') := by
  induction p generalizing s with
  | done r =>
    obtain ⟨rfl, rfl⟩ := Prod.mk.inj h
    rfl
  | call c next ih => exact ih _ h

lemma eval_bind_ok (h : (p >>= f).eval exec s = (.ok b, s')) :
    ∃ a t, p.eval exec s = (.ok a, t) ∧ (f a).eval exec t = (.ok b, s') := by
  rcases hp : p.eval exec s with ⟨e | a, t⟩
  · rw [eval_bind_of_error hp] at h
    cases h
  · rw [eval_bind_of_ok hp] at h
    exact ⟨a, t, rfl, h⟩

lemma eval_attempt : p.attempt.eval exec s = (.ok (p.eval exec s).1, (p.eval exec s).2) := by
  induction p generalizing s with
  | done r => rfl
  | call c next ih => exact ih _

lemma eval_only {Q : C → Prop} {A : σ → Prop} (keeps : ∀ c s, Q c → A s → A (exec c s).2)
    (hp : p.Only Q) (hs : A s) : A (p.eval exec s).2 := by
  induction p generalizing s with
  | done r => exact hs
  | call c next ih => exact ih _ (hp.2 _) (keeps c s hp.1 hs)

end

end Janus.Concurrency.Program
