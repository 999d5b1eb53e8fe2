import Mathlib.Algebra.Order.BigOperators.Group.List
import Mathlib.Algebra.Order.Ring.Nat
import Mathlib.Data.List.InsertIdx
import Janus.Concurrency.Pool

/-! Calls that tasks have to earn: each task carries out no more calls of one kind than calls of another
kind have been granted to it. -/

namespace Janus.Concurrency

variable {ρ C : Type} {X : C → Type} {ε σ ο η α : Type}

lemma sum_set {ks : List ℕ} {i k : ℕ} (h : ks[i]? = some k) (k' : ℕ) :
    (ks.set i k').sum + k = ks.sum + k' := by
  induction ks generalizing i with
  | nil => cases h
  | cons l ks ih =>
    cases i with
    | zero =>
      obtain rfl := Option.some.inj h
      simp only [List.set_cons_zero, List.sum_cons]
      omega
    | succ i =>
      have hrec := ih (i := i) h
      simp only [List.set_cons_succ, List.sum_cons]
      omega

namespace System

variable (S : System ρ C X ε σ ο η)

def countAlong (P : Pool ρ C X ε σ → Event ρ ο η → Bool) :
    List (Event ρ ο η) → Pool ρ C X ε σ → ℕ
  | [], _ => 0
  | e :: es, p =>
    match S.apply p e with
    | none => 0
    | some p' => (P p e).toNat + countAlong P es p'

def answer? (p : Pool ρ C X ε σ) : Event ρ ο η → Option ((c : C) × Except ε (X c))
  | .step i o =>
    match p.tasks[i]? with
    | some (_, .call c _) => some ⟨c, (S.exec c o p.store).1⟩
    | _ => none
  | _ => none

variable (spends : C → Bool) (earns : (c : C) × Except ε (X c) → Bool)

def allowance : Discipline C X ε ℕ where
  rely := Eq
  inv _ := True
  admits c k x k' := k' + (spends c).toNat = k + (earns ⟨c, x⟩).toNat
  before c k := spends c = true → 0 < k

def spent (p : Pool ρ C X ε σ) (e : Event ρ ο η) : Bool := (p.call? e).any spends

def granted (p : Pool ρ C X ε σ) (e : Event ρ ο η) : Bool := (S.answer? p e).any earns

section

variable {S : System ρ C X ε σ ο η} {spends : C → Bool} {earns : (c : C) × Except ε (X c) → Bool}
variable {p p' : Pool ρ C X ε σ} {e : Event ρ ο η} {ts : List ((ρ × Program C X ε Unit) × ℕ)}

lemma allowances_apply
    (hprogram : ∀ r, Safe (allowance spends earns) (fun _ _ => True) (S.program r) 0)
    (ha : S.apply p e = some p') (hts : ts.map Prod.fst = p.tasks)
    (hsafe : ∀ t ∈ ts, Safe (allowance spends earns) (fun _ _ => True) t.1.2 t.2) :
    ∃ ts' : List ((ρ × Program C X ε Unit) × ℕ), ts'.map Prod.fst = p'.tasks ∧
      (∀ t ∈ ts', Safe (allowance spends earns) (fun _ _ => True) t.1.2 t.2) ∧
      (spent spends p e).toNat + (ts'.map Prod.snd).sum ≤
        (granted S earns p e).toNat + (ts.map Prod.snd).sum := by
  obtain ⟨r, rfl, -, rfl⟩ | ⟨i, o, r, c, next, rfl, ht, hready, rfl⟩ | ⟨i, r, x, rfl, -, rfl⟩ |
    ⟨rfl, rfl⟩ | ⟨v, rfl, rfl⟩ := apply_cases ha
  · refine ⟨ts ++ [((r, S.program r), 0)], by simp [hts], fun t ht => ?_, by simp [spent, Pool.call?]⟩
    rcases List.mem_append.mp ht with ht | ht
    · exact hsafe t ht
    · obtain rfl := List.mem_singleton.mp ht
      exact hprogram r
  · rw [← hts, List.getElem?_map, Option.map_eq_some_iff] at ht
    obtain ⟨⟨task, k⟩, ht, rfl⟩ := ht
    obtain ⟨hbefore, hnext⟩ := hsafe _ (List.mem_of_getElem? ht) k rfl trivial
    have hspends : (spends c).toNat ≤ k := by
      cases hc : spends c
      · exact Nat.zero_le _
      · exact hbefore hc
    let k' := k + (earns ⟨c, (S.exec c o p.store).1⟩).toNat - (spends c).toNat
    have hk' : k' + (spends c).toNat = k + (earns ⟨c, (S.exec c o p.store).1⟩).toNat :=
      Nat.sub_add_cancel (hspends.trans (Nat.le_add_right _ _))
    have htask : p.tasks[i]? = some (r, .call c next) := by
      rw [← hts, List.getElem?_map, ht, Option.map_some]
    refine ⟨ts.set i ((r, next (S.exec c o p.store).1), k'), ?_, fun t ht' => ?_, ?_⟩
    · rw [List.map_set, hts]
    · rcases List.mem_or_eq_of_mem_set ht' with ht' | rfl
      · exact hsafe t ht'
      · exact hnext _ k' hk'
    · have hallowance : (ts.map Prod.snd)[i]? = some k := by
        rw [List.getElem?_map, ht]
        rfl
      have hsum := sum_set hallowance k'
      simp only [List.map_set, spent, granted, Pool.call?, answer?, htask, Option.any_some] at hsum ⊢
      omega
  · refine ⟨ts.eraseIdx i, by rw [← List.eraseIdx_map, hts], fun t ht => ?_, ?_⟩
    · exact hsafe t (List.mem_of_mem_eraseIdx ht)
    · have hsub := ((List.eraseIdx_sublist ts i).map Prod.snd).sum_le_sum fun _ _ => Nat.zero_le _
      simpa [spent, Pool.call?] using hsub.trans (Nat.le_add_left _ _)
  · exact ⟨[], rfl, fun _ h => absurd h List.not_mem_nil, by simp [spent, Pool.call?]⟩
  · exact ⟨ts, hts, hsafe, by simp [spent, Pool.call?]⟩

theorem countAlong_spent_le
    (hprogram : ∀ r, Safe (allowance spends earns) (fun _ _ => True) (S.program r) 0)
    (hidle : p.tasks = []) (es : List (Event ρ ο η)) :
    S.countAlong (spent spends) es p ≤ S.countAlong (granted S earns) es p := by
  have hcount (ts : List ((ρ × Program C X ε Unit) × ℕ)) (hts : ts.map Prod.fst = p.tasks)
      (hsafe : ∀ t ∈ ts, Safe (allowance spends earns) (fun _ _ => True) t.1.2 t.2) :
      S.countAlong (spent spends) es p ≤
        S.countAlong (granted S earns) es p + (ts.map Prod.snd).sum := by
    clear hidle
    induction es generalizing p ts with
    | nil => exact Nat.zero_le _
    | cons e es ih =>
      cases ha : S.apply p e with
      | none => simp [countAlong, ha]
      | some p' =>
        obtain ⟨ts', hts', hsafe', hsum⟩ := allowances_apply hprogram ha hts hsafe
        have hrec := ih ts' hts' hsafe'
        simp only [countAlong, ha]
        omega
  exact hcount [] hidle.symm fun _ h => absurd h List.not_mem_nil

end

end System

end Janus.Concurrency
