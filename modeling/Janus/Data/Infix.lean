import Mathlib.Data.List.Infix

/-! Where a list occurs in one that is put together of several. -/

namespace Janus.Data

variable {α : Type} {l a b : List α} {c : α}

lemma infix_of_left (h : l <:+: a) : l <:+: a ++ b := List.infix_append_of_infix_left h

lemma infix_of_right (h : l <:+: b) : l <:+: a ++ b := List.infix_append_of_infix_right h

lemma infix_separated (hc : c ∉ l) : l <:+: a ++ c :: b ↔ l <:+: a ∨ l <:+: b := by
  constructor
  · intro h
    induction a with
    | nil =>
      rcases List.infix_cons_iff.mp h with h | h
      · rcases List.prefix_cons_iff.mp h with rfl | ⟨t, rfl, -⟩
        · exact .inl List.nil_infix
        · exact (hc List.mem_cons_self).elim
      · exact .inr h
    | cons d a ih =>
      rcases List.infix_cons_iff.mp h with h | h
      · -- A prefix that does not contain the separator ends before it.
        obtain ⟨rest, hrest⟩ := h
        have hle : l.length ≤ (d :: a).length := by
          by_contra hlt
          have hget : l[(d :: a).length]? = some c := by
            have h := congrArg (fun x => x[(d :: a).length]?) hrest
            simp only [List.getElem?_append] at h
            rw [if_pos (not_le.mp hlt)] at h
            simpa using h
          exact hc (List.mem_of_getElem? hget)
        have hprefix : l <+: d :: a :=
          List.prefix_of_prefix_length_le ⟨rest, hrest⟩ (List.prefix_append (d :: a) (c :: b)) hle
        exact .inl hprefix.isInfix
      · exact (ih h).imp (fun h => List.infix_cons h) id
  · rintro (h | h)
    · exact infix_of_left h
    · exact infix_of_right (List.infix_cons h)

lemma infix_cons_of_head (h : l.head? ≠ some c) : l <:+: c :: a ↔ l <:+: a := by
  refine ⟨fun hl => ?_, fun hl => List.infix_cons hl⟩
  rcases List.infix_cons_iff.mp hl with hl | hl
  · rcases List.prefix_cons_iff.mp hl with rfl | ⟨t, rfl, -⟩
    · exact List.nil_infix
    · exact (h rfl).elim
  · exact hl

lemma infix_append_of_beginning (h : ∀ d ∈ a, l.head? ≠ some d) : l <:+: a ++ b ↔ l <:+: b := by
  induction a with
  | nil => rfl
  | cons d a ih =>
    rw [List.cons_append, infix_cons_of_head (h d List.mem_cons_self)]
    exact ih fun e he => h e (List.mem_cons_of_mem d he)

lemma infix_append_of_ending (hlength : b.length ≤ l.length)
    (h : ∀ d ∈ b.inits, d ≠ [] → ¬ d <:+ l) : l <:+: a ++ b ↔ l <:+: a := by
  refine ⟨fun hl => ?_, infix_of_left⟩
  induction b using List.reverseRecOn with
  | nil => simpa using hl
  | append_singleton b c ih =>
    rw [← List.append_assoc] at hl
    rcases List.infix_concat_iff.mp hl with hl | hl
    · rw [List.append_assoc] at hl
      have hsuffix : b ++ [c] <:+ l :=
        List.suffix_of_suffix_length_le (List.suffix_append a (b ++ [c])) hl hlength
      exact (h _ ((List.mem_inits _ _).mpr (List.prefix_refl _)) (by simp) hsuffix).elim
    · refine ih ?_ ?_ hl
      · rw [List.length_append] at hlength
        exact (Nat.le_add_right _ _).trans hlength
      · intro d hd
        exact h d ((List.mem_inits _ _).mpr (((List.mem_inits _ _).mp hd).trans (List.prefix_append b [c])))

end Janus.Data
