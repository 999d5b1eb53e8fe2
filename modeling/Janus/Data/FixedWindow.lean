import Mathlib.Algebra.Order.Group.Defs
import Mathlib.Order.Interval.Set.Defs
import Mathlib.Data.Option.Basic
import Mathlib.Data.List.Basic

/-! Counting uses in windows of a fixed width, each of which begins with the first use after the one
before it has ended. -/

namespace Janus.Data

structure FixedWindow (T : Type) where
  start : T
  count : ℕ

namespace FixedWindow

structure Use (T : Type) where
  time : T
  starts : Bool
  accepted : Bool

def take {T : Type} (limit : ℕ) (w : FixedWindow T) : FixedWindow T :=
  if w.count < limit then { w with count := w.count + 1 } else w

section

variable {T : Type} {limit : ℕ} {w : FixedWindow T}

@[simp] lemma take_start : (take limit w).start = w.start := by
  unfold take
  split <;> rfl

lemma take_of_lt (h : w.count < limit) : take limit w = { w with count := w.count + 1 } := if_pos h

lemma take_of_le (h : limit ≤ w.count) : take limit w = w := if_neg (Nat.not_lt.mpr h)

lemma take_count_le (h : w.count ≤ limit) : (take limit w).count ≤ limit := by
  by_cases hlt : w.count < limit
  · rw [take_of_lt hlt]
    exact hlt
  · rw [take_of_le (Nat.not_lt.mp hlt)]
    exact h

end

variable {T : Type} [AddCommGroup T] [LinearOrder T]

def live? (width now : T) (w : Option (FixedWindow T)) : Option (FixedWindow T) :=
  w.filter fun w => decide (now < w.start + width)

def enter (width now : T) (w : Option (FixedWindow T)) : FixedWindow T :=
  (live? width now w).getD ⟨now, 0⟩

def uses (limit : ℕ) (width : T) : Option (FixedWindow T) → List T → List (Use T)
  | _, [] => []
  | w, now :: ts =>
    ⟨now, (live? width now w).isNone, decide ((enter width now w).count < limit)⟩ ::
      uses limit width (some (take limit (enter width now w))) ts

def reached (limit : ℕ) (width : T) (w? : Option (FixedWindow T)) (ts : List T) :
    Option (FixedWindow T) :=
  ts.foldl (fun w? now => some (take limit (enter width now w?))) w?

def accepted (p : T → Prop) [DecidablePred p] (us : List (Use T)) : ℕ :=
  us.countP fun u => u.accepted && decide (p u.time)

section

variable {limit : ℕ} {width : T} {w? : Option (FixedWindow T)}

lemma enter_cases (width now : T) (w? : Option (FixedWindow T)) :
    (∃ w, w? = some w ∧ now < w.start + width ∧ enter width now w? = w ∧
        (live? width now w?).isNone = false) ∨
      (∀ w, w? = some w → w.start + width ≤ now) ∧ enter width now w? = ⟨now, 0⟩ ∧
        (live? width now w?).isNone = true := by
  unfold enter live?
  cases w? with
  | none => exact .inr (by simp)
  | some w =>
    by_cases h : now < w.start + width
    · exact .inl ⟨w, rfl, h, by simp [Option.filter, h], by simp [Option.filter, h]⟩
    · exact .inr (by simp [Option.filter, h, not_lt.mp h])

@[simp] lemma reached_concat {ts : List T} {now : T} : reached limit width w? (ts ++ [now]) =
    some (take limit (enter width now (reached limit width w? ts))) := by
  simp only [reached, List.foldl_append, List.foldl_cons, List.foldl_nil]

lemma uses_concat {ts : List T} {now : T} : uses limit width w? (ts ++ [now]) =
    uses limit width w? ts ++ uses limit width (reached limit width w? ts) [now] := by
  induction ts generalizing w? with
  | nil => rfl
  | cons t ts ih =>
    simp only [List.cons_append, uses, ih]
    rfl

end

section

variable {limit : ℕ} {width : T}

lemma accepted_window {w : FixedWindow T} {ts : List T} {seg post : List (Use T)}
    (huses : uses limit width (some w) ts = seg ++ post) (hseg : ∀ u ∈ seg, u.starts = false)
    (hcount : w.count ≤ limit) : w.count + accepted (fun _ => True) seg ≤ limit := by
  induction ts generalizing w seg with
  | nil =>
    obtain ⟨rfl, -⟩ := List.append_eq_nil_iff.mp huses.symm
    simpa [accepted] using hcount
  | cons t ts ih =>
    cases seg with
    | nil => simpa [accepted] using hcount
    | cons u seg =>
      obtain ⟨hu, hrest⟩ := List.cons.inj huses
      obtain ⟨v, hv, -, henter, -⟩ | ⟨-, -, hstarts⟩ := enter_cases width t (some w)
      · obtain rfl := Option.some.inj hv
        rw [henter] at hu hrest
        have hrec := ih hrest (fun u hu => hseg u (List.mem_cons_of_mem _ hu)) (take_count_le hcount)
        subst hu
        by_cases hlt : w.count < limit
        · rw [take_of_lt hlt] at hrec
          simp only [accepted, List.countP_cons, hlt] at hrec ⊢
          simp at hrec ⊢
          omega
        · rw [take_of_le (Nat.not_lt.mp hlt)] at hrec
          simpa [accepted, hlt] using hrec
      · have hfalse := hseg u List.mem_cons_self
        rw [← hu, hstarts] at hfalse
        cases hfalse

lemma uses_suffix {w? : Option (FixedWindow T)} {ts : List T} {pre rest : List (Use T)}
    (huses : uses limit width w? ts = pre ++ rest) (hcount : ∀ w, w? = some w → w.count ≤ limit) :
    ∃ v? ts', rest = uses limit width v? ts' ∧ ∀ v, v? = some v → v.count ≤ limit := by
  induction pre generalizing w? ts with
  | nil => exact ⟨w?, ts, huses.symm, hcount⟩
  | cons u pre ih =>
    cases ts with
    | nil => cases huses
    | cons t ts =>
      refine ih (List.cons.inj huses).2 fun w hw => ?_
      obtain rfl := Option.some.inj hw
      apply take_count_le
      obtain ⟨v, hv, -, henter, -⟩ | ⟨-, henter, -⟩ := enter_cases width t w?
      · rw [henter]
        exact hcount v hv
      · rw [henter]
        exact Nat.zero_le _

theorem accepted_between_starts {ts : List T} {pre seg post : List (Use T)}
    (huses : uses limit width none ts = pre ++ (seg ++ post))
    (hseg : ∀ u ∈ seg.tail, u.starts = false) : accepted (fun _ => True) seg ≤ limit := by
  obtain ⟨v?, ts', hrest, hcount⟩ := uses_suffix huses (fun w hw => by cases hw)
  cases seg with
  | nil => simp [accepted]
  | cons u seg =>
    cases ts' with
    | nil => cases hrest
    | cons t ts' =>
      obtain ⟨hu, hrest⟩ := List.cons.inj hrest
      have henter : (enter width t v?).count ≤ limit := by
        obtain ⟨v, hv, -, henter, -⟩ | ⟨-, henter, -⟩ := enter_cases width t v?
        · rw [henter]
          exact hcount v hv
        · rw [henter]
          exact Nat.zero_le _
      have hrec := accepted_window hrest.symm hseg (take_count_le henter)
      subst hu
      by_cases hlt : (enter width t v?).count < limit
      · rw [take_of_lt hlt] at hrec
        simp only [accepted, List.countP_cons, hlt] at hrec ⊢
        simp at hrec ⊢
        omega
      · simp only [accepted, List.countP_cons, hlt] at hrec ⊢
        simp at hrec ⊢
        omega

end

section

variable [IsOrderedAddMonoid T] {limit n : ℕ} {width t : T} {w : FixedWindow T}

structure Bounded (limit : ℕ) (width t : T) (n : ℕ) (w : FixedWindow T) : Prop where
  total : n ≤ 2 * limit
  reached : w.start ≤ t + width → n ≤ limit + w.count
  first : w.start ≤ t → n ≤ w.count
  before : w.start + width ≤ t → n = 0
  count : w.count ≤ limit

lemma Bounded.enter {w' : FixedWindow T} (h : Bounded limit width t n w) (hwidth : 0 ≤ width)
    (hw' : w.start + width ≤ w'.start) (hcount : w'.count = 0) : Bounded limit width t n w' where
  total := h.total
  reached hreached := by
    have hstart : w.start ≤ t := le_of_add_le_add_right (hw'.trans hreached)
    have hn := h.first hstart
    have hlimit := h.count
    omega
  first hfirst := by
    rw [h.before (hw'.trans hfirst)]
    exact Nat.zero_le _
  before hbefore :=
    h.before (hw'.trans ((le_add_of_nonneg_right hwidth).trans hbefore))
  count := by omega

omit [IsOrderedAddMonoid T] in
lemma Bounded.take {now : T} (h : Bounded limit width t n w) (hnow : w.start ≤ now)
    (hlive : now < w.start + width) :
    Bounded limit width t
      (n + if w.count < limit ∧ t ≤ now ∧ now ≤ t + width then 1 else 0) (take limit w) := by
  by_cases hlt : w.count < limit
  · rw [take_of_lt hlt]
    by_cases hin : t ≤ now ∧ now ≤ t + width
    · have hn := h.reached (hnow.trans hin.2)
      rw [if_pos ⟨hlt, hin⟩]
      refine ⟨by omega, fun _ => by simp only; omega, fun hfirst => ?_, fun hbefore => ?_, hlt⟩
      · have hfirst' := h.first hfirst
        simp only
        omega
      · exact absurd (hlive.trans_le hbefore) (not_lt.mpr hin.1)
    · rw [if_neg fun hc => hin hc.2]
      refine ⟨h.total, fun hreached => ?_, fun hfirst => ?_, h.before, hlt⟩
      · exact (h.reached hreached).trans (Nat.add_le_add_left (Nat.le_succ _) _)
      · exact (h.first hfirst).trans (Nat.le_succ _)
  · rw [take_of_le (Nat.not_lt.mp hlt), if_neg fun hc => hlt hc.1]
    exact h

lemma accepted_from {w? : Option (FixedWindow T)} {ts : List T}
    (hbounded : ∀ w, w? = some w → Bounded limit width t n w) (hnone : w? = none → n = 0)
    (hn : n ≤ 2 * limit) (hpos : 0 < width) (hts : ts.Pairwise (· ≤ ·))
    (hstart : ∀ w, w? = some w → ∀ now ∈ ts, w.start ≤ now) :
    n + accepted (fun now => t ≤ now ∧ now ≤ t + width) (uses limit width w? ts) ≤ 2 * limit := by
  induction ts generalizing n w? with
  | nil => simpa [uses, accepted] using hn
  | cons now ts ih =>
    obtain ⟨hrest, htail⟩ := List.pairwise_cons.mp hts
    obtain ⟨c, henter, hc, hcstart, hlive⟩ : ∃ c, enter width now w? = c ∧
        Bounded limit width t n c ∧ c.start ≤ now ∧ now < c.start + width := by
      obtain ⟨w, hw, hlive, henter, -⟩ | ⟨hended, henter, -⟩ := enter_cases width now w?
      · exact ⟨w, henter, hbounded w hw, hstart w hw now List.mem_cons_self, hlive⟩
      · refine ⟨⟨now, 0⟩, henter, ?_, le_refl now, lt_add_of_pos_right now hpos⟩
        cases w? with
        | none =>
          rw [hnone rfl]
          exact ⟨Nat.zero_le _, fun _ => Nat.zero_le _, fun _ => Nat.zero_le _, fun _ => rfl,
            Nat.zero_le _⟩
        | some w => exact (hbounded w rfl).enter hpos.le (hended w rfl) rfl
    have htaken := hc.take hcstart hlive
    have hbounded' : ∀ w, some (take limit c) = some w → Bounded limit width t
        (n + if c.count < limit ∧ t ≤ now ∧ now ≤ t + width then 1 else 0) w :=
      fun w hw => Option.some.inj hw ▸ htaken
    have hrec := ih hbounded' (fun h => by cases h) htaken.total htail fun w hw t ht => by
      rw [← Option.some.inj hw, take_start]
      exact hcstart.trans (hrest t ht)
    simp only [uses, henter, accepted, List.countP_cons] at hrec ⊢
    simp only [Bool.and_eq_true, decide_eq_true_eq] at hrec ⊢
    omega

theorem accepted_within {ts : List T} (hpos : 0 < width) (hts : ts.Pairwise (· ≤ ·)) (t : T) :
    accepted (fun now => t ≤ now ∧ now ≤ t + width) (uses limit width none ts) ≤ 2 * limit := by
  have hbounded : ∀ w, none = some w → Bounded limit width t 0 w := fun w hw => by cases hw
  have h := accepted_from hbounded (fun _ => rfl) (Nat.zero_le _) hpos hts fun w hw => by cases hw
  rwa [Nat.zero_add] at h

end

section

variable [IsOrderedAddMonoid T] {limit : ℕ} {width : T}

lemma refused_from {w? : Option (FixedWindow T)} {ts : List T} {pre post : List (Use T)} {u : Use T}
    (huses : uses limit width w? ts = pre ++ u :: post) (hrefused : u.accepted = false)
    (hstart : ∀ w, w? = some w → ∀ now ∈ ts, w.start ≤ now) (hts : ts.Pairwise (· ≤ ·)) :
    ∃ n, (n = 0 ∨ ∃ w, w? = some w ∧ u.time < w.start + width ∧ n = w.count) ∧
      limit ≤ n + accepted (fun now => u.time < now + width) pre := by
  induction ts generalizing w? pre with
  | nil => cases pre <;> cases huses
  | cons now ts ih =>
    obtain ⟨hrest, htail⟩ := List.pairwise_cons.mp hts
    cases pre with
    | nil =>
      obtain ⟨rfl, -⟩ := List.cons.inj huses
      have hfull : limit ≤ (enter width now w?).count := by simpa using hrefused
      obtain ⟨w, hw, hlive, henter, -⟩ | ⟨-, henter, -⟩ := enter_cases width now w?
      · rw [henter] at hfull
        exact ⟨w.count, .inr ⟨w, hw, hlive, rfl⟩, hfull⟩
      · rw [henter] at hfull
        exact ⟨0, .inl rfl, hfull⟩
    | cons v pre =>
      obtain ⟨rfl, hpre⟩ := List.cons.inj huses
      have hcstart : (enter width now w?).start ≤ now := by
        obtain ⟨w, hw, -, henter, -⟩ | ⟨-, henter, -⟩ := enter_cases width now w?
        · rw [henter]
          exact hstart w hw now List.mem_cons_self
        · rw [henter]
      obtain ⟨n, hn, hlimit⟩ := ih hpre (fun w hw t ht => by
        rw [← Option.some.inj hw, take_start]
        exact hcstart.trans (hrest t ht)) htail
      simp only [accepted, List.countP_cons, Bool.and_eq_true, decide_eq_true_eq]
      simp only [accepted] at hlimit
      rcases hn with rfl | ⟨w', hw', hlate, rfl⟩
      · exact ⟨0, .inl rfl, by omega⟩
      · obtain rfl := Option.some.inj hw'
        rw [take_start] at hlate
        have hnow : u.time < now + width := hlate.trans_le (add_le_add_left hcstart width)
        have hcount : limit ≤ (enter width now w?).count +
            (pre.countP (fun v => v.accepted && decide (u.time < v.time + width)) +
              if (enter width now w?).count < limit ∧ u.time < now + width then 1 else 0) := by
          by_cases hlt : (enter width now w?).count < limit
          · rw [if_pos ⟨hlt, hnow⟩]
            rw [take_of_lt hlt] at hlimit
            simp only at hlimit
            omega
          · exact (Nat.not_lt.mp hlt).trans (Nat.le_add_right _ _)
        obtain ⟨w, hw, -, henter, -⟩ | ⟨-, henter, -⟩ := enter_cases width now w?
        · rw [henter] at hcount hlate ⊢
          exact ⟨w.count, .inr ⟨w, hw, hlate, rfl⟩, hcount⟩
        · rw [henter] at hcount ⊢
          exact ⟨0, .inl rfl, hcount⟩

theorem accepted_before_refused {ts : List T} {pre post : List (Use T)} {u : Use T}
    (hts : ts.Pairwise (· ≤ ·)) (huses : uses limit width none ts = pre ++ u :: post)
    (hrefused : u.accepted = false) : limit ≤ accepted (fun now => u.time < now + width) pre := by
  obtain ⟨n, rfl | ⟨w, hw, -⟩, hlimit⟩ := refused_from huses hrefused (fun w hw => by cases hw) hts
  · rwa [Nat.zero_add] at hlimit
  · cases hw

end

end FixedWindow

end Janus.Data
