import Janus.Concurrency.Safety

/-! What a program makes of the answers that its calls are given. -/

namespace Janus.Concurrency

variable {C : Type} {X : C → Type} {ε α β σ : Type}

namespace Program

def ReturnsBy (A : (c : C) → Except ε (X c) → Prop) : Program C X ε α → Except ε α → Prop
  | .done r, x => r = x
  | .call c next, x => ∃ a, A c a ∧ (next a).ReturnsBy A x

variable {A A' : (c : C) → Except ε (X c) → Prop} {p : Program C X ε α} {x : Except ε α}

lemma ReturnsBy.mono (hA : ∀ c a, A c a → A' c a) (h : p.ReturnsBy A x) : p.ReturnsBy A' x := by
  induction p with
  | done r => exact h
  | call c next ih =>
    obtain ⟨a, ha, hnext⟩ := h
    exact ⟨a, hA c a ha, ih a hnext⟩

lemma ReturnsBy.of_bind {f : α → Program C X ε β} {y : Except ε β} (h : (p >>= f).ReturnsBy A y) :
    (∃ a, p.ReturnsBy A (.ok a) ∧ (f a).ReturnsBy A y) ∨ ∃ e, p.ReturnsBy A (.error e) ∧ y = .error e := by
  induction p with
  | done r =>
    cases r with
    | ok a => exact .inl ⟨a, rfl, h⟩
    | error e => exact .inr ⟨e, rfl, h.symm⟩
  | call c next ih =>
    obtain ⟨b, hb, hnext⟩ := h
    rcases ih b hnext with ⟨a, ha, hf⟩ | ⟨e, he, hy⟩
    · exact .inl ⟨a, ⟨b, hb, ha⟩, hf⟩
    · exact .inr ⟨e, ⟨b, hb, he⟩, hy⟩

def FailsIn (A : (c : C) → Except ε (X c) → Prop) (E : ε → Prop) (p : Program C X ε α) : Prop :=
  ∀ e, p.ReturnsBy A (.error e) → E e

variable {E : ε → Prop}

namespace FailsIn

lemma done (h : ∀ e, x = .error e → E e) : (Program.done x : Program C X ε α).FailsIn A E := h

lemma pure (a : α) : (Pure.pure a : Program C X ε α).FailsIn A E := nofun

lemma request {c : C} (h : ∀ e, A c (.error e) → E e) :
    (Program.request c : Program C X ε (X c)).FailsIn A E := by
  rintro e ⟨a, ha, rfl⟩
  exact h e ha

lemma bind {f : α → Program C X ε β} (hp : p.FailsIn A E)
    (hf : ∀ a, p.ReturnsBy A (.ok a) → (f a).FailsIn A E) : (p >>= f).FailsIn A E := by
  intro e he
  rcases he.of_bind with ⟨a, ha, hfa⟩ | ⟨e', he', heq⟩
  · exact hf a ha e hfa
  · cases heq
    exact hp e he'

end FailsIn

end Program

namespace Safe

variable {D : Discipline C X ε σ} {post : Except ε α → σ → Prop} {p : Program C X ε α} {s : σ}

lemma returnsBy {A : σ → Prop} {M : σ → (c : C) → Except ε (X c) → Prop}
    (hrely : ∀ s s', A s → D.rely s s' → A s' ∧ ∀ c a, M s c a → M s' c a)
    (hadmits : ∀ c s a s', A s → D.before c s → D.admits c s a s' →
      A s' ∧ M s' c a ∧ ∀ c' a', M s c' a' → M s' c' a')
    (h : Safe D post p s) (hs : A s) :
    Safe D (fun r s' => (∀ c a, M s c a → M s' c a) ∧ p.ReturnsBy (M s') r) p s := by
  induction p generalizing s with
  | done r => exact ⟨fun _ _ h => h, rfl⟩
  | call c next ih =>
    intro s' hr hi
    obtain ⟨hb, hn⟩ := h s' hr hi
    obtain ⟨hs', hbefore⟩ := hrely s s' hs hr
    refine ⟨hb, fun a s'' ha => ?_⟩
    obtain ⟨hs'', hmet, hkept⟩ := hadmits c s' a s'' hs' hb ha
    refine Safe.mono ?_ (ih a (hn a s'' ha) hs'')
    rintro r t ⟨hlast, hreturns⟩
    exact ⟨fun c' a' h => hlast c' a' (hkept c' a' (hbefore c' a' h)), a, hlast c a hmet, hreturns⟩

end Safe

end Janus.Concurrency
