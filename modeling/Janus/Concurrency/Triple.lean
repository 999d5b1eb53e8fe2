import Janus.Concurrency.Play

/-! Pre- and postconditions of programs that are carried out with nothing beside them, and how many
calls they need. -/

namespace Janus.Concurrency

variable {C : Type} {X : C → Type} {ε α β ο σ : Type}
variable {exec : (c : C) → ο → σ → Except ε (X c) × σ}

/-- If the program came to its end, the state is in `B` with its value, or in `E` with its error. -/
def Played.Ends (e : Played ε α ο σ) (B : α → σ → Prop) (E : ε → σ → Prop) : Prop :=
  match e.result with
  | some (.ok a) => B a e.store
  | some (.error m) => E m e.store
  | none => True

def Triple (exec : (c : C) → ο → σ → Except ε (X c) × σ) (A : σ → Prop) (p : Program C X ε α)
    (B : α → σ → Prop) (E : ε → σ → Prop) : Prop :=
  ∀ os s, A s → (p.play exec os s).Ends B E

namespace Triple

variable {A A' : σ → Prop} {B B' : α → σ → Prop} {D : β → σ → Prop} {E E' : ε → σ → Prop}
variable {p q : Program C X ε α}

lemma mono (h : Triple exec A p B E) (hA : ∀ s, A' s → A s) (hB : ∀ a s, B a s → B' a s)
    (hE : ∀ m s, E m s → E' m s) : Triple exec A' p B' E' := by
  intro os s hs
  have hend := h os s (hA s hs)
  unfold Played.Ends at hend ⊢
  split
  · next a ha =>
    rw [ha] at hend
    exact hB a _ hend
  · next m hm =>
    rw [hm] at hend
    exact hE m _ hend
  · trivial

lemma done {x : Except ε α} (hok : ∀ a, x = .ok a → ∀ s, A s → B a s)
    (herror : ∀ m, x = .error m → ∀ s, A s → E m s) :
    Triple exec A (.done x : Program C X ε α) B E := by
  intro os s hs
  rw [Program.play_done]
  cases x with
  | ok a => exact hok a rfl s hs
  | error m => exact herror m rfl s hs

lemma pure {a : α} (h : ∀ s, A s → B a s) : Triple exec A (Pure.pure a : Program C X ε α) B E := by
  intro os s hs
  rw [Program.play_pure]
  exact h s hs

lemma fail {m : ε} (h : ∀ s, A s → E m s) :
    Triple exec A (Program.fail m : Program C X ε α) B E := by
  intro os s hs
  rw [Program.play_fail]
  exact h s hs

lemma request {c : C} {B : X c → σ → Prop}
    (hok : ∀ o s a s', A s → exec c o s = (.ok a, s') → B a s')
    (herror : ∀ o s m s', A s → exec c o s = (.error m, s') → E m s') :
    Triple exec A (Program.request c) B E := by
  intro os s hs
  cases os with
  | nil => trivial
  | cons o os =>
    rcases hx : exec c o s with ⟨x, s'⟩
    obtain ⟨hresult, -, hstore⟩ := Program.play_last hx os
    rw [Played.Ends, hresult, hstore]
    cases x with
    | ok a => exact hok o s a s' hs hx
    | error m => exact herror o s m s' hs hx

lemma bind {f : α → Program C X ε β} (hp : Triple exec A p B E)
    (hf : ∀ a, Triple exec (B a) (f a) D E) : Triple exec A (p >>= f) D E := by
  intro os s hs
  have hend := hp os s hs
  rw [Program.play_bind, Played.andThen]
  unfold Played.Ends at hend
  split
  · next a ha =>
    rw [ha] at hend
    exact hf a _ _ hend
  · next m hm =>
    rw [hm] at hend
    exact hend
  · trivial

lemma attempt {B : Except ε α → σ → Prop}
    (h : Triple exec A p (fun a => B (.ok a)) fun m => B (.error m)) :
    Triple exec A p.attempt B E := by
  intro os s hs
  have hend := h os s hs
  rw [Program.play_attempt]
  unfold Played.Ends at hend ⊢
  rcases hresult : (p.play exec os s).result with _ | m | a
  · trivial
  · rw [hresult] at hend
    exact hend
  · rw [hresult] at hend
    exact hend

lemma ite {P : Prop} [Decidable P] (hp : P → Triple exec A p B E) (hq : ¬P → Triple exec A q B E) :
    Triple exec A (if P then p else q) B E := by
  by_cases h : P
  · rw [if_pos h]
    exact hp h
  · rw [if_neg h]
    exact hq h

end Triple

def Throughout (exec : (c : C) → ο → σ → Except ε (X c) × σ) (A : σ → Prop) (p : Program C X ε α)
    (I : σ → Prop) : Prop :=
  ∀ os s, A s → I (p.play exec os s).store

namespace Throughout

variable {A I : σ → Prop} {B : α → σ → Prop} {E : ε → σ → Prop} {p : Program C X ε α}

lemma of_only {Q : C → Prop} (keeps : ∀ c o s, Q c → I s → I (exec c o s).2) (hp : p.Only Q)
    (hA : ∀ s, A s → I s) : Throughout exec A p I :=
  fun os s hs => Program.play_only keeps hp (hA s hs) os

lemma bind {f : α → Program C X ε β} (hp : Throughout exec A p I) (hend : Triple exec A p B E)
    (hf : ∀ a, Throughout exec (fun s => B a s ∧ I s) (f a) I) :
    Throughout exec A (p >>= f) I := by
  intro os s hs
  have hplayed := hp os s hs
  have hended := hend os s hs
  rw [Program.play_bind, Played.andThen]
  unfold Played.Ends at hended
  split
  · next a ha =>
    rw [ha] at hended
    exact hf a _ _ ⟨hended, hplayed⟩
  · exact hplayed
  · exact hplayed

end Throughout

namespace Program

def Within : ℕ → Program C X ε α → Prop
  | _, .done _ => True
  | 0, .call _ _ => False
  | k + 1, .call _ next => ∀ x, (next x).Within k

variable {k l : ℕ} {p q : Program C X ε α}

lemma play_within (h : p.Within k) {os : List ο} (hk : k ≤ os.length) (s : σ) :
    ∃ x, (p.play exec os s).result = some x := by
  induction os generalizing p k s with
  | nil =>
    obtain rfl := Nat.le_zero.mp hk
    cases p with
    | done x => exact ⟨x, rfl⟩
    | call c next => exact h.elim
  | cons o os ih =>
    cases p with
    | done x => exact ⟨x, rfl⟩
    | call c next =>
      cases k with
      | zero => exact h.elim
      | succ k =>
        have hnext := ih (h (exec c o s).1) (Nat.le_of_succ_le_succ hk) (exec c o s).2
        simp only [play]
        split <;> exact hnext

namespace Within

lemma mono (h : p.Within k) (hkl : k ≤ l) : p.Within l := by
  induction p generalizing k l with
  | done x => cases l <;> trivial
  | call c next ih =>
    cases k with
    | zero => exact h.elim
    | succ k =>
      cases l with
      | zero => omega
      | succ l => exact fun x => ih x (h x) (Nat.le_of_succ_le_succ hkl)

lemma done (x : Except ε α) : (Program.done x : Program C X ε α).Within k := by
  cases k <;> trivial

lemma request (c : C) : (Program.request c : Program C X ε (X c)).Within 1 :=
  fun x => done x

lemma bind {f : α → Program C X ε β} (hp : p.Within k) (hf : ∀ a, (f a).Within l) :
    (p >>= f).Within (k + l) := by
  induction p generalizing k with
  | done x =>
    cases x with
    | ok a => exact (hf a).mono (Nat.le_add_left l k)
    | error m => exact done _
  | call c next ih =>
    cases k with
    | zero => exact hp.elim
    | succ k =>
      rw [Nat.succ_add]
      exact fun x => ih x (hp x)

lemma request_bind {c : C} {f : X c → Program C X ε α} (hf : ∀ x, (f x).Within k) :
    (Program.request c >>= f).Within (k + 1) := by
  rintro (m | x)
  · exact done _
  · exact hf x

lemma attempt (hp : p.Within k) : p.attempt.Within k := by
  induction p generalizing k with
  | done x => exact done _
  | call c next ih =>
    cases k with
    | zero => exact hp.elim
    | succ k => exact fun x => ih x (hp x)

lemma ite {P : Prop} [Decidable P] (hp : p.Within k) (hq : q.Within k) :
    (if P then p else q).Within k := by
  split
  · exact hp
  · exact hq

end Within

end Program

end Janus.Concurrency
