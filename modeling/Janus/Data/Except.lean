import Mathlib.Data.List.Basic

/-! Computations in `Except` that go through. -/

namespace Janus.Data

variable {α β ε : Type}

@[simp] lemma ok_bind (a : α) (f : α → Except ε β) : ((.ok a : Except ε α) >>= f) = f a := rfl

lemma bind_ok {x : Except ε α} {f : α → Except ε β} {b : β} (h : (x >>= f) = .ok b) :
    ∃ a, x = .ok a ∧ f a = .ok b := by
  cases x with
  | error e => exact (nomatch h)
  | ok a => exact ⟨a, rfl, h⟩

lemma map_ok {f : α → β} {x : Except ε α} {b : β} (h : x.map f = .ok b) :
    ∃ a, x = .ok a ∧ f a = b := by
  cases x with
  | error e => cases h
  | ok a => exact ⟨a, rfl, Except.ok.inj h⟩

lemma map_map {γ : Type} {f : α → β} {g : β → γ} {x : Except ε α} :
    (x.map f).map g = x.map fun a => g (f a) := by
  cases x <;> rfl

lemma forM_ok {f : α → Except ε Unit} {as : List α} (h : as.forM f = .ok ()) {a : α}
    (ha : a ∈ as) : f a = .ok () := by
  induction as with
  | nil => exact absurd ha List.not_mem_nil
  | cons b as ih =>
    obtain ⟨u, hb, h⟩ := bind_ok (x := f b) (f := fun _ => as.forM f) h
    rcases List.mem_cons.mp ha with rfl | ha
    · exact hb
    · exact ih h ha

end Janus.Data
