import Janus.Concurrency.Program

/-! Rely-guarantee reasoning for programs of atomic calls. -/

namespace Janus.Concurrency

variable {C : Type} {X : C → Type} {ε α β γ σ : Type}

/-- What a program may assume of its environment (`rely`, `inv`, `admits`) and what it owes before
each of its calls (`before`). -/
structure Discipline (C : Type) (X : C → Type) (ε σ : Type) where
  rely : σ → σ → Prop
  inv : σ → Prop
  admits : (c : C) → σ → Except ε (X c) → σ → Prop
  before : C → σ → Prop

def Discipline.solo (admits : (c : C) → σ → Except ε (X c) → σ → Prop) (before : C → σ → Prop) :
    Discipline C X ε σ where
  rely := Eq
  inv _ := True
  admits := admits
  before := before

def Discipline.step (D : Discipline C X ε σ) (s s' : σ) : Prop :=
  ∃ c x, D.before c s ∧ D.admits c s x s'

variable {D : Discipline C X ε σ}

def Safe (D : Discipline C X ε σ) (post : Except ε α → σ → Prop) : Program C X ε α → σ → Prop
  | .done r, s => post r s
  | .call c next, s => ∀ s', D.rely s s' → D.inv s' → D.before c s' ∧
      ∀ x s'', D.admits c s' x s'' → Safe D post (next x) s''

def onOk (post : Except ε β → σ → Prop) (Q : α → σ → Prop) : Except ε α → σ → Prop
  | .ok a, s => Q a s
  | .error e, s => post (.error e) s

@[simp] lemma onOk_ok (post : Except ε β → σ → Prop) (Q : α → σ → Prop) (a : α) (s : σ) :
    onOk post Q (.ok a) s = Q a s := rfl

@[simp] lemma onOk_error (post : Except ε β → σ → Prop) (Q : α → σ → Prop) (e : ε) (s : σ) :
    onOk post Q (.error e) s = post (.error e) s := rfl

namespace Safe

lemma mono {post post' : Except ε α → σ → Prop} (h : ∀ r s, post r s → post' r s)
    {p : Program C X ε α} {s : σ} (hp : Safe D post p s) : Safe D post' p s := by
  induction p generalizing s with
  | done r => exact h r s hp
  | call c next ih =>
    intro s' hr hi
    obtain ⟨hb, hn⟩ := hp s' hr hi
    exact ⟨hb, fun x s'' ha => ih x (hn x s'' ha)⟩

lemma and {post post' : Except ε α → σ → Prop} {p : Program C X ε α} {s : σ} (h : Safe D post p s)
    (h' : Safe D post' p s) : Safe D (fun r s' => post r s' ∧ post' r s') p s := by
  induction p generalizing s with
  | done r => exact ⟨h, h'⟩
  | call c next ih =>
    intro s' hr hi
    obtain ⟨hb, hn⟩ := h s' hr hi
    obtain ⟨-, hn'⟩ := h' s' hr hi
    exact ⟨hb, fun x s'' ha => ih x (hn x s'' ha) (hn' x s'' ha)⟩

lemma frame {A : σ → Prop} (stable : ∀ s s', A s → D.rely s s' → A s')
    (keeps : ∀ c s x s', A s → D.before c s → D.admits c s x s' → A s')
    {post : Except ε α → σ → Prop} {p : Program C X ε α} {s : σ} (h : Safe D post p s) (hs : A s) :
    Safe D (fun r s' => post r s' ∧ A s') p s := by
  induction p generalizing s with
  | done r => exact ⟨h, hs⟩
  | call c next ih =>
    intro s' hr hi
    obtain ⟨hb, hn⟩ := h s' hr hi
    have hs' := stable s s' hs hr
    exact ⟨hb, fun x s'' ha => ih x (hn x s'' ha) (keeps c s' x s'' hs' hb ha)⟩

lemma bind {post : Except ε β → σ → Prop} {p : Program C X ε α} {f : α → Program C X ε β} {s : σ}
    (hp : Safe D (onOk post fun a s' => Safe D post (f a) s') p s) :
    Safe D post (p >>= f) s := by
  induction p generalizing s with
  | done r =>
    cases r with
    | ok a => exact hp
    | error e => exact hp
  | call c next ih =>
    intro s' hr hi
    obtain ⟨hb, hn⟩ := hp s' hr hi
    exact ⟨hb, fun x s'' ha => ih x (hn x s'' ha)⟩

lemma ite {P : Prop} [Decidable P] {post : Except ε α → σ → Prop} {p q : Program C X ε α} {s : σ}
    (hp : P → Safe D post p s) (hq : ¬ P → Safe D post q s) :
    Safe D post (if P then p else q) s := by
  by_cases h : P
  · rw [if_pos h]
    exact hp h
  · rw [if_neg h]
    exact hq h

lemma attempt {post : Except ε (Except ε α) → σ → Prop} {p : Program C X ε α} {s : σ}
    (hp : Safe D (fun r => post (.ok r)) p s) : Safe D post p.attempt s := by
  induction p generalizing s with
  | done r => exact hp
  | call c next ih =>
    intro s' hr hi
    obtain ⟨hb, hn⟩ := hp s' hr hi
    exact ⟨hb, fun x s'' ha => ih x (hn x s'' ha)⟩

lemma call {P : σ → Prop} {post : Except ε α → σ → Prop} {c : C}
    {next : Except ε (X c) → Program C X ε α} {s : σ} (hs : P s)
    (stable : ∀ s s', P s → D.rely s s' → D.inv s' → P s')
    (h : ∀ s', P s' → D.inv s' → D.before c s' ∧
      ∀ x s'', D.admits c s' x s'' → Safe D post (next x) s'') :
    Safe D post (.call c next) s :=
  fun s' hr hi => h s' (stable s s' hs hr hi) hi

lemma request {P : σ → Prop} {c : C} {post : Except ε (X c) → σ → Prop} {s : σ} (hs : P s)
    (stable : ∀ s s', P s → D.rely s s' → D.inv s' → P s')
    (h : ∀ s', P s' → D.inv s' → D.before c s' ∧
      ∀ x s'', D.admits c s' x s'' → post x s'') :
    Safe D post (.request c) s :=
  call hs stable h

lemma forM {I : List β → σ → Prop} {post : Except ε PUnit → σ → Prop}
    {f : β → Program C X ε PUnit} (hdone : ∀ s, I [] s → post (.ok ⟨⟩) s)
    (hstep : ∀ b bs s, I (b :: bs) s → Safe D (onOk post fun _ s' => I bs s') (f b) s)
    {bs : List β} {s : σ} (hs : I bs s) : Safe D post (bs.forM f) s := by
  induction bs generalizing s with
  | nil => exact hdone s hs
  | cons b bs ih =>
    refine Safe.bind (mono ?_ (hstep b bs s hs))
    intro r s' hr
    cases r with
    | ok a => exact ih hr
    | error e => exact hr

lemma of_only {Q : C → Prop} {A : σ → Prop} (stable : ∀ s s', A s → D.rely s s' → D.inv s' → A s')
    (before : ∀ c s, Q c → A s → D.inv s → D.before c s)
    (keeps : ∀ c s x s', Q c → A s → D.inv s → D.admits c s x s' → A s') {p : Program C X ε α}
    (hp : p.Only Q) {s : σ} (hs : A s) : Safe D (fun _ s' => A s') p s := by
  induction p generalizing s with
  | done r => exact hs
  | call c next ih =>
    intro s' hr hi
    have hs' := stable s s' hs hr hi
    exact ⟨before c s' hp.1 hs' hi, fun x s'' ha => ih x (hp.2 x) (keeps c s' x s'' hp.1 hs' hi ha)⟩

lemma weaken {D' : Discipline C X ε σ} (rely : ∀ s s', D'.rely s s' → D.rely s s')
    (inv : ∀ s, D'.inv s → D.inv s) (before : ∀ c s, D.before c s → D'.before c s)
    (admits : ∀ c s x s', D'.admits c s x s' → D.admits c s x s') {post : Except ε α → σ → Prop}
    {p : Program C X ε α} {s : σ} (h : Safe D post p s) : Safe D' post p s := by
  induction p generalizing s with
  | done r => exact h
  | call c next ih =>
    intro s' hr hi
    obtain ⟨hb, hn⟩ := h s' (rely s s' hr) (inv s' hi)
    exact ⟨before c s' hb, fun x s'' ha => ih x (hn x s'' (admits c s' x s'' ha))⟩

/-- A program that is safe on the store and on a view of it owes both duties. -/
lemma viewed {τ : Type} {D' : Discipline C X ε σ} {E : Discipline C X ε τ} {f : τ → σ}
    (rely : ∀ t s', D'.rely (f t) s' → D'.inv s' →
      D.rely (f t) s' ∧ D.inv s' ∧ ∃ t', s' = f t' ∧ E.rely t t' ∧ E.inv t')
    (before : ∀ c t, D.before c (f t) → E.before c t → D'.before c (f t))
    (admits : ∀ c t x s', D'.admits c (f t) x s' →
      D.admits c (f t) x s' ∧ ∃ t', s' = f t' ∧ E.admits c t x t')
    {post : Except ε α → σ → Prop} {post' : Except ε α → τ → Prop} {p : Program C X ε α} {t : τ}
    (h : Safe D post p (f t)) (h' : Safe E post' p t) : Safe D' post p (f t) := by
  induction p generalizing t with
  | done r => exact h
  | call c next ih =>
    intro s' hr hi
    obtain ⟨hrD, hiD, t', rfl, hrE, hiE⟩ := rely t s' hr hi
    obtain ⟨hb, hn⟩ := h (f t') hrD hiD
    obtain ⟨hb', hn'⟩ := h' t' hrE hiE
    refine ⟨before c t' hb hb', fun x s'' ha => ?_⟩
    obtain ⟨haD, t'', rfl, haE⟩ := admits c t' x s'' ha
    exact ih x (hn x (f t'') haD) (hn' x t'' haE)

lemma of_rely (trans : ∀ s s' s'', D.rely s s' → D.rely s' s'' → D.rely s s'')
    {post : Except ε α → σ → Prop}
    (stable : ∀ r s s', post r s → D.rely s s' → D.inv s' → post r s')
    {p : Program C X ε α} {s s' : σ} (hp : Safe D post p s) (hr : D.rely s s') (hi : D.inv s') :
    Safe D post p s' := by
  cases p with
  | done r => exact stable r s s' hp hr hi
  | call c next => exact fun t ht => hp t (trans s s' t hr ht)

end Safe

def Yields (D : Discipline C X ε σ) (E : ε → Prop) (P : α → Prop) (p : Program C X ε α) : Prop :=
  ∀ s, Safe D (fun r _ => match r with | .ok a => P a | .error e => E e) p s

namespace Yields

variable {E : ε → Prop} {P : α → Prop} {Q : β → Prop} {p : Program C X ε α}

lemma pure {a : α} (h : P a) : Yields D E P (Pure.pure a : Program C X ε α) := fun _ => h

lemma fail {e : ε} (h : E e) : Yields D E P (Program.fail e : Program C X ε α) := fun _ => h

lemma request {c : C} {P : X c → Prop} (hb : ∀ s, D.inv s → D.before c s)
    (hok : ∀ s a s', D.inv s → D.admits c s (.ok a) s' → P a)
    (herror : ∀ s e s', D.inv s → D.admits c s (.error e) s' → E e) :
    Yields D E P (Program.request c) := by
  intro s s' _ hi
  refine ⟨hb s' hi, fun x s'' ha => ?_⟩
  cases x with
  | ok a => exact hok s' a s'' hi ha
  | error e => exact herror s' e s'' hi ha

lemma mono {P' : α → Prop} (h : ∀ a, P a → P' a) (hp : Yields D E P p) : Yields D E P' p :=
  fun s => Safe.mono (fun r _ hr => match r with | .ok a => h a hr | .error _ => hr) (hp s)

lemma bind {f : α → Program C X ε β} (hp : Yields D E P p) (hf : ∀ a, P a → Yields D E Q (f a)) :
    Yields D E Q (p >>= f) := by
  intro s
  refine Safe.bind (Safe.mono ?_ (hp s))
  intro r s' hr
  cases r with
  | ok a => exact hf a hr s'
  | error e => exact hr

lemma attempt (hp : Yields D E P p) :
    Yields D E (fun r : Except ε α => match r with | .ok a => P a | .error e => E e) p.attempt :=
  fun s => Safe.attempt (hp s)

lemma forM {f : β → Program C X ε PUnit} {bs : List β}
    (hf : ∀ b ∈ bs, Yields D E (fun _ => True) (f b)) : Yields D E (fun _ => True) (bs.forM f) := by
  induction bs with
  | nil => exact pure trivial
  | cons b bs ih =>
    exact bind (hf b List.mem_cons_self) fun _ _ => ih fun b hb => hf b (List.mem_cons_of_mem _ hb)

lemma of_only {R : C → Prop} (hb : ∀ c s, R c → D.inv s → D.before c s) (hp : p.Only R) :
    Yields D (fun _ => True) (fun _ => True) p := by
  intro s
  refine Safe.mono (fun r _ _ => ?_) (Safe.of_only (A := fun _ => True) (fun _ _ _ _ _ => trivial)
    (fun c s hc _ hi => hb c s hc hi) (fun _ _ _ _ _ _ _ _ => trivial) hp trivial)
  cases r <;> trivial

end Yields

def Gives (D : Discipline C X ε σ) (Q : α → σ → Prop) (p : Program C X ε α) (s : σ) : Prop :=
  Safe D (fun r s' => ∀ a, r = .ok a → Q a s') p s

namespace Gives

variable {Q : α → σ → Prop} {R : β → σ → Prop} {p : Program C X ε α} {s : σ}

lemma done {r : Except ε α} (h : ∀ a, r = .ok a → Q a s) : Gives D Q (.done r) s := h

lemma pure {a : α} (h : Q a s) : Gives D Q (Pure.pure a : Program C X ε α) s := by
  intro b hb
  cases hb
  exact h

lemma fail {e : ε} : Gives D Q (Program.fail e : Program C X ε α) s := nofun

lemma mono {Q' : α → σ → Prop} (h : ∀ a s, Q a s → Q' a s) (hp : Gives D Q p s) :
    Gives D Q' p s :=
  Safe.mono (fun _ s' hr a ha => h a s' (hr a ha)) hp

lemma bind {f : α → Program C X ε β} (hp : Gives D Q p s) (hf : ∀ a s', Q a s' → Gives D R (f a) s') :
    Gives D R (p >>= f) s := by
  refine Safe.bind (Safe.mono ?_ hp)
  intro r s' hr
  cases r with
  | ok a => exact hf a s' (hr a rfl)
  | error e => exact nofun

lemma check {r : Except ε α} {f : α → Program C X ε β} (h : ∀ a, r = .ok a → Gives D R (f a) s) :
    Gives D R (Program.done r >>= f) s := by
  cases r with
  | ok a => exact h a rfl
  | error e => exact fail

lemma ite {P : Prop} [Decidable P] {p q : Program C X ε α} (hp : P → Gives D Q p s)
    (hq : ¬ P → Gives D Q q s) : Gives D Q (if P then p else q) s := Safe.ite hp hq

lemma attempt {post : Except ε α → σ → Prop} (hp : Safe D post p s) : Gives D post p.attempt s := by
  refine Safe.attempt (Safe.mono ?_ hp)
  intro r s' hr r' hr'
  cases hr'
  exact hr

lemma request {P : σ → Prop} {c : C} {Q : X c → σ → Prop} (hs : P s)
    (stable : ∀ s s', P s → D.rely s s' → D.inv s' → P s')
    (h : ∀ s', P s' → D.inv s' → D.before c s' ∧
      ∀ x s'', D.admits c s' x s'' → ∀ a, x = .ok a → Q a s'') : Gives D Q (.request c) s :=
  Safe.request hs stable h

lemma of_only {S : C → Prop} {A : σ → Prop} (stable : ∀ s s', A s → D.rely s s' → D.inv s' → A s')
    (before : ∀ c s, S c → A s → D.inv s → D.before c s)
    (keeps : ∀ c s x s', S c → A s → D.inv s → D.admits c s x s' → A s') (hp : p.Only S)
    (hs : A s) : Gives D (fun _ s' => A s') p s :=
  Safe.mono (fun _ _ h _ _ => h) (Safe.of_only stable before keeps hp hs)

lemma forM {f : β → Program C X ε PUnit} (hf : ∀ b s, Gives D (fun _ _ => True) (f b) s)
    (bs : List β) : Gives D (fun _ _ => True) (bs.forM f) s := by
  induction bs generalizing s with
  | nil => exact pure trivial
  | cons b bs ih => exact bind (hf b s) fun _ _ _ => ih

end Gives

end Janus.Concurrency
