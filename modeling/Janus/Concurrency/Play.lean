import Janus.Concurrency.Program

/-! Carrying out a program call by call, until it is done or cut short. -/

namespace Janus.Concurrency

structure Played (ε α ο σ : Type) where
  result : Option (Except ε α)
  answered : ℕ
  rest : List ο
  store : σ

variable {C : Type} {X : C → Type} {ε α β ο σ : Type}

def Played.tick (e : Played ε α ο σ) : Played ε α ο σ := { e with answered := e.answered + 1 }

def Played.andThen (e : Played ε α ο σ) (f : α → List ο → σ → Played ε β ο σ) : Played ε β ο σ :=
  match e.result with
  | some (.ok a) =>
    let e' := f a e.rest e.store
    { e' with answered := e.answered + e'.answered }
  | some (.error m) => ⟨some (.error m), e.answered, e.rest, e.store⟩
  | none => ⟨none, e.answered, e.rest, e.store⟩

namespace Program

variable (exec : (c : C) → ο → σ → Except ε (X c) × σ)

def play : List ο → Program C X ε α → σ → Played ε α ο σ
  | os, .done r, s => ⟨some r, 0, os, s⟩
  | [], .call _ _, s => ⟨none, 0, [], s⟩
  | o :: os, .call c next, s =>
    let answer := exec c o s
    let e := play os (next answer.1) answer.2
    match answer.1 with
    | .ok _ => e.tick
    | .error _ => e

variable {exec}

@[simp] lemma play_done (os : List ο) (r : Except ε α) (s : σ) :
    (done r : Program C X ε α).play exec os s = ⟨some r, 0, os, s⟩ := by
  cases os <;> rfl

@[simp] lemma play_pure (os : List ο) (a : α) (s : σ) :
    (pure a : Program C X ε α).play exec os s = ⟨some (.ok a), 0, os, s⟩ :=
  play_done os _ s

@[simp] lemma play_fail (os : List ο) (m : ε) (s : σ) :
    (fail m : Program C X ε α).play exec os s = ⟨some (.error m), 0, os, s⟩ :=
  play_done os _ s

lemma play_request {P : Played ε α ο σ → Prop} {c : C} {f : X c → Program C X ε α} {os : List ο}
    {s : σ} (cut : os = [] → P ⟨none, 0, [], s⟩)
    (error : ∀ o os' m s', os = o :: os' → exec c o s = (.error m, s') →
      P ⟨some (.error m), 0, os', s'⟩)
    (ok : ∀ o os' x s', os = o :: os' → exec c o s = (.ok x, s') →
      P ((f x).play exec os' s').tick) :
    P ((request c >>= f).play exec os s) := by
  cases os with
  | nil => exact cut rfl
  | cons o os =>
    rcases hx : exec c o s with ⟨x, s'⟩
    simp only [request, call_bind, play, hx]
    cases x with
    | error m =>
      rw [fail_bind, play_done]
      exact error o os m s' rfl hx
    | ok x => exact ok o os x s' rfl hx

lemma play_request_ok {c : C} {f : X c → Program C X ε α} {o : ο} {s s' : σ} {x : X c}
    (h : exec c o s = (.ok x, s')) (os : List ο) :
    (request c >>= f).play exec (o :: os) s = ((f x).play exec os s').tick := by
  simp only [request, call_bind, play, h]
  rfl

lemma play_request_error {c : C} {f : X c → Program C X ε α} {o : ο} {s s' : σ} {m : ε}
    (h : exec c o s = (.error m, s')) (os : List ο) :
    (request c >>= f).play exec (o :: os) s = ⟨some (.error m), 0, os, s'⟩ := by
  simp only [request, call_bind, play, h, fail_bind, play_done]

lemma play_last {c : C} {o : ο} {s s' : σ} {x : Except ε (X c)} (h : exec c o s = (x, s'))
    (os : List ο) : ((request c).play exec (o :: os) s).result = some x ∧
      ((request c).play exec (o :: os) s).rest = os ∧
      ((request c).play exec (o :: os) s).store = s' := by
  simp only [request, play, h]
  cases x <;> cases os <;> exact ⟨rfl, rfl, rfl⟩

theorem play_bind (os : List ο) (p : Program C X ε α) (f : α → Program C X ε β) (s : σ) :
    (p >>= f).play exec os s = (p.play exec os s).andThen fun a os s => (f a).play exec os s := by
  induction os generalizing p s with
  | nil =>
    cases p with
    | done r => cases r <;> simp [Played.andThen]
    | call c next => rfl
  | cons o os ih =>
    cases p with
    | done r => cases r <;> simp [Played.andThen]
    | call c next =>
      simp only [call_bind, play, ih]
      cases (exec c o s).1 with
      | error m => rfl
      | ok x =>
        simp only [Played.andThen, Played.tick]
        split <;> simp only [Nat.add_right_comm]

lemma play_bind_ok {os : List ο} {p : Program C X ε α} {f : α → Program C X ε β} {s : σ} {b : β}
    (h : ((p >>= f).play exec os s).result = some (.ok b)) : ∃ a,
      (p.play exec os s).result = some (.ok a) ∧
        ((f a).play exec (p.play exec os s).rest (p.play exec os s).store).result = some (.ok b) := by
  rw [play_bind, Played.andThen] at h
  split at h
  · next a ha => exact ⟨a, ha, h⟩
  · cases h
  · cases h

lemma play_bind_store {os : List ο} {p : Program C X ε α} {s : σ} {a : α}
    (h : (p.play exec os s).result = some (.ok a)) (f : α → Program C X ε β) :
    ((p >>= f).play exec os s).store =
      ((f a).play exec (p.play exec os s).rest (p.play exec os s).store).store := by
  rw [play_bind, Played.andThen, h]

lemma play_attempt (os : List ο) (p : Program C X ε α) (s : σ) :
    p.attempt.play exec os s = ⟨(p.play exec os s).result.map .ok, (p.play exec os s).answered,
      (p.play exec os s).rest, (p.play exec os s).store⟩ := by
  induction os generalizing p s with
  | nil => cases p <;> rfl
  | cons o os ih =>
    cases p with
    | done r => rfl
    | call c next =>
      simp only [attempt, play, ih]
      split <;> rfl

lemma play_forM_reached {f : β → Program C X ε PUnit} {pre post : List β} {b : β} {os os' : List ο}
    {s s' : σ} {n : ℕ} (h : (pre.forM f).play exec os s = ⟨some (.ok ()), n, os', s'⟩) :
    (((pre ++ b :: post).forM f).play exec os s).store =
      ((f b >>= fun _ => post.forM f).play exec os' s').store := by
  induction pre generalizing os s n with
  | nil =>
    have hpure := h.symm.trans (play_pure os _ s)
    cases hpure
    rfl
  | cons a pre ih =>
    have hfirst : (((a :: pre).forM f).play exec os s).result = some (.ok ()) := by rw [h]
    obtain ⟨u, hu, -⟩ := play_bind_ok (p := f a) (f := fun _ => pre.forM f) hfirst
    simp only [List.forM_eq_forM, List.forM_cons, List.cons_append, play_bind, Played.andThen, hu]
      at h ih ⊢
    cases hrest : (forM pre f).play exec ((f a).play exec os s).rest ((f a).play exec os s).store with
    | mk result answered rest store =>
      rw [hrest] at h
      cases h
      exact ih hrest

lemma play_only {Q : C → Prop} {A : σ → Prop} (keeps : ∀ c o s, Q c → A s → A (exec c o s).2)
    {p : Program C X ε α} (hp : p.Only Q) {s : σ} (hs : A s) (os : List ο) :
    A (p.play exec os s).store := by
  induction os generalizing p s with
  | nil => cases p <;> exact hs
  | cons o os ih =>
    cases p with
    | done r => exact hs
    | call c next =>
      have h := ih (hp.2 (exec c o s).1) (keeps c o s hp.1 hs)
      simp only [play]
      split <;> exact h

def logged (exec : (c : C) → ο → σ → Except ε (X c) × σ) (c : C) (o : ο) (s : σ × List (C × Bool)) :
    Except ε (X c) × σ × List (C × Bool) :=
  ((exec c o s.1).1, (exec c o s.1).2, (c, (exec c o s.1).1.isOk) :: s.2)

end Program

end Janus.Concurrency
