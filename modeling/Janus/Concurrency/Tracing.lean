import Janus.Concurrency.Pool

/-! What a program has seen when it makes a call: the calls that it made before, with their answers. -/

namespace Janus.Concurrency

structure Answered (C : Type) (X : C → Type) (ε : Type) where
  call : C
  answer : Except ε (X call)

abbrev Trace (C : Type) (X : C → Type) (ε : Type) := List (Answered C X ε)

variable {ρ C : Type} {X : C → Type} {ε α σ ο η : Type}

def tracing (P : Trace C X ε → C → Prop) : Discipline C X ε (Trace C X ε) :=
  .solo (fun c h x h' => h' = ⟨c, x⟩ :: h) fun c h => P h c

lemma Safe.traced {P : Trace C X ε → C → Prop} {post : Except ε α → Trace C X ε → Prop} {c : C}
    {next : Except ε (X c) → Program C X ε α} {h : Trace C X ε} (hc : P h c)
    (hnext : ∀ x, Safe (tracing P) post (next x) (⟨c, x⟩ :: h)) :
    Safe (tracing P) post (.call c next) h := by
  rintro h' rfl -
  refine ⟨hc, fun x h'' hx => ?_⟩
  obtain rfl : h'' = ⟨c, x⟩ :: h := hx
  exact hnext x

lemma Safe.traced_request {P : Trace C X ε → C → Prop} {c : C}
    {post : Except ε (X c) → Trace C X ε → Prop} {h : Trace C X ε} (hc : P h c)
    (hpost : ∀ x, post x (⟨c, x⟩ :: h)) : Safe (tracing P) post (.request c) h :=
  .traced hc hpost

lemma Safe.traced_only {P : Trace C X ε → C → Prop} {Q : C → Prop} {A : Trace C X ε → Prop}
    (hQ : ∀ c h, Q c → A h → P h c) (hA : ∀ c x h, Q c → A h → A (⟨c, x⟩ :: h)) {p : Program C X ε α}
    (hp : p.Only Q) {h : Trace C X ε} (hh : A h) : Safe (tracing P) (fun _ h' => A h') p h := by
  refine Safe.of_only ?_ (fun c h hc hh _ => hQ c h hc hh) ?_ hp hh
  · rintro h h' hh rfl -
    exact hh
  · rintro c h x h' hc hh - rfl
    exact hA c x h hc hh

namespace System

variable (S : System ρ C X ε σ ο η)

def recording : System ρ C X ε (σ × Trace C X ε) ο η where
  program := S.program
  beside := S.beside
  exec c o s := ((S.exec c o s.1).1, (S.exec c o s.1).2, ⟨c, (S.exec c o s.1).1⟩ :: s.2)
  environ v s := (S.environ v s.1, s.2)
  ready c s := S.ready c s.1
  crashed s := (S.crashed s.1, s.2)

end System

def Pool.erase (p : Pool ρ C X ε (σ × Trace C X ε)) : Pool ρ C X ε σ := ⟨p.store.1, p.tasks⟩

namespace System

variable {S : System ρ C X ε σ ο η}

lemma recording_apply (p : Pool ρ C X ε (σ × Trace C X ε)) (e : Event ρ ο η) :
    (S.recording.apply p e).map Pool.erase = S.apply p.erase e := by
  cases e with
  | start r =>
    exact apply_ite (Option.map Pool.erase) _ _ _
  | step i o =>
    simp only [apply, Pool.erase]
    split
    · exact apply_ite (Option.map Pool.erase) _ _ _
    · rfl
  | finish i =>
    simp only [apply, Pool.erase]
    split <;> rfl
  | crash => rfl
  | environment v => rfl

theorem recording_run (es : List (Event ρ ο η)) (p : Pool ρ C X ε (σ × Trace C X ε)) :
    (S.recording.run es p).map Pool.erase = S.run es p.erase := by
  induction es generalizing p with
  | nil => rfl
  | cons e es ih =>
    simp only [run, Option.map_bind, ← recording_apply]
    cases S.recording.apply p e with
    | none => rfl
    | some q => exact ih q

structure Knowing (S : System ρ C X ε σ ο η) (ok : Pool ρ C X ε σ → Event ρ ο η → Prop)
    (P : Trace C X ε → C → Prop) (K : ρ → Trace C X ε → σ → Prop) : Prop where
  start : ∀ r, Safe (tracing P) (fun _ _ => True) (S.program r) []
  nil : ∀ r s, K r [] s
  own : ∀ p i o r c next h, ok p (.step i o) → p.tasks[i]? = some (r, .call c next) → P h c →
    K r h p.store → K r (⟨c, (S.exec c o p.store).1⟩ :: h) (S.exec c o p.store).2
  other : ∀ p i o r c next r' h, ok p (.step i o) → p.tasks[i]? = some (r, .call c next) →
    (S.beside r r' = true ∨ S.beside r' r = true) → K r' h p.store →
      K r' h (S.exec c o p.store).2
  environ : ∀ (s : σ) v r h, K r h s → K r h (S.environ v s)

def Known (S : System ρ C X ε σ ο η) (P : Trace C X ε → C → Prop) (K : ρ → Trace C X ε → σ → Prop)
    (p : Pool ρ C X ε σ) : Prop :=
  (p.tasks.Pairwise fun t t' => S.beside t.1 t'.1 = true) ∧
    ∀ t ∈ p.tasks, ∃ h, Safe (tracing P) (fun _ _ => True) t.2 h ∧ K t.1 h p.store

section

variable {ok : Pool ρ C X ε σ → Event ρ ο η → Prop} {P : Trace C X ε → C → Prop}
variable {K : ρ → Trace C X ε → σ → Prop} {p p' : Pool ρ C X ε σ} {e : Event ρ ο η}

lemma Known.before (hp : Known S P K p) {r : ρ} {c : C} {next : Except ε (X c) → Program C X ε Unit}
    (ht : (r, .call c next) ∈ p.tasks) : ∃ h, P h c ∧ K r h p.store := by
  obtain ⟨h, hsafe, hknown⟩ := hp.2 _ ht
  exact ⟨h, (hsafe h rfl trivial).1, hknown⟩

theorem Known.apply (hS : Knowing S ok P K) (hp : Known S P K p) (hok : ok p e)
    (ha : S.apply p e = some p') : Known S P K p' := by
  refine ⟨beside_apply hp.1 ha, ?_⟩
  obtain ⟨r, rfl, -, rfl⟩ | ⟨i, o, r, c, next, rfl, ht, -, rfl⟩ | ⟨i, r, x, rfl, -, rfl⟩ |
    ⟨rfl, rfl⟩ | ⟨v, rfl, rfl⟩ := apply_cases ha
  · intro t ht
    rcases List.mem_append.mp ht with ht | ht
    · exact hp.2 t ht
    · obtain rfl := List.mem_singleton.mp ht
      exact ⟨[], hS.start r, hS.nil r _⟩
  · intro t ht'
    obtain ⟨j, hj, rfl⟩ := List.getElem_of_mem ht'
    rw [List.getElem_set]
    split
    · obtain ⟨h, hsafe, hknown⟩ := hp.2 _ (List.mem_of_getElem? ht)
      obtain ⟨hc, hnext⟩ := hsafe h rfl trivial
      exact ⟨_, hnext _ _ rfl, hS.own p i o r c next h hok ht hc hknown⟩
    · next hij =>
      have hj' : j < p.tasks.length := by simpa using hj
      obtain ⟨h, hsafe, hknown⟩ := hp.2 _ (List.getElem_mem hj')
      exact ⟨h, hsafe, hS.other p i o r c next _ h hok ht (beside_of_ne hp.1 ht hj' hij) hknown⟩
  · exact fun t ht => hp.2 t (List.mem_of_mem_eraseIdx ht)
  · exact nofun
  · intro t ht
    obtain ⟨h, hsafe, hknown⟩ := hp.2 t ht
    exact ⟨h, hsafe, hS.environ p.store v t.1 h hknown⟩

end

end System

end Janus.Concurrency
