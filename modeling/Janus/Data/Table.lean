import Mathlib.Data.List.Basic
import Mathlib.Data.List.Nodup

/-! Rows under a primary key. -/

namespace Janus.Data

structure Table {κ α : Type} (key : α → κ) where
  rows : List α
  unique : (rows.map key).Nodup

namespace Table

variable {κ α : Type} {key : α → κ}

def empty : Table key := ⟨[], List.nodup_nil⟩

def single (r : α) : Table key := ⟨[r], List.nodup_singleton _⟩

lemma eq_of_mem {t : Table key} {r r' : α} (hr : r ∈ t.rows) (hr' : r' ∈ t.rows)
    (h : key r = key r') : r = r' :=
  List.inj_on_of_nodup_map t.unique hr hr' h

variable [DecidableEq κ]

def find? (t : Table key) (k : κ) : Option α := t.rows.find? fun r => key r = k

/-- `UPDATE ... WHERE key = k`. -/
def modify (t : Table key) (k : κ) (f : α → α) (hf : ∀ r, key (f r) = key r) : Table key where
  rows := t.rows.map fun r => if key r = k then f r else r
  unique := by
    have hkey : (key ∘ fun r => if key r = k then f r else r) = key := by
      funext r
      by_cases hr : key r = k <;> simp [hr, hf]
    rw [List.map_map, hkey]
    exact t.unique

/-- `DELETE` of the other rows. -/
def retain (t : Table key) (p : α → Bool) : Table key :=
  ⟨t.rows.filter p, t.unique.sublist (List.filter_sublist.map key)⟩

/-- `INSERT`, refused when the key is taken. -/
def insert? (t : Table key) (r : α) : Option (Table key) :=
  if h : key r ∈ t.rows.map key then none
  else some ⟨t.rows ++ [r], by
    rw [List.map_append]
    exact List.nodup_append.mpr ⟨t.unique, List.nodup_singleton _, by
      rintro a ha b hb rfl
      exact h (List.mem_singleton.mp hb ▸ ha)⟩⟩

variable {t t' : Table key} {k : κ} {r r' : α} {f : α → α} {hf : ∀ r, key (f r) = key r}

lemma mem_of_find? (h : t.find? k = some r) : r ∈ t.rows := List.mem_of_find?_eq_some h

lemma key_of_find? (h : t.find? k = some r) : key r = k := by simpa using List.find?_some h

lemma find?_of_mem (h : r ∈ t.rows) : t.find? (key r) = some r := by
  cases hf : t.find? (key r) with
  | none => simpa using List.find?_eq_none.mp hf r h
  | some r' => rw [eq_of_mem (mem_of_find? hf) h (key_of_find? hf)]

lemma find?_eq_some_iff : t.find? k = some r ↔ r ∈ t.rows ∧ key r = k :=
  ⟨fun h => ⟨mem_of_find? h, key_of_find? h⟩, fun h => h.2 ▸ find?_of_mem h.1⟩

lemma mem_modify : r ∈ (t.modify k f hf).rows ↔
    ∃ q ∈ t.rows, (key q = k ∧ r = f q) ∨ (key q ≠ k ∧ r = q) := by
  simp only [modify, List.mem_map]
  constructor
  · rintro ⟨q, hq, rfl⟩
    by_cases hk : key q = k
    · exact ⟨q, hq, .inl ⟨hk, by simp [hk]⟩⟩
    · exact ⟨q, hq, .inr ⟨hk, by simp [hk]⟩⟩
  · rintro ⟨q, hq, ⟨hk, rfl⟩ | ⟨hk, rfl⟩⟩
    · exact ⟨q, hq, by simp [hk]⟩
    · exact ⟨r, hq, by simp [hk]⟩

lemma exists_modify (h : r ∈ t.rows) : ∃ r' ∈ (t.modify k f hf).rows, key r' = key r := by
  by_cases hk : key r = k
  · exact ⟨f r, mem_modify.mpr ⟨r, h, .inl ⟨hk, rfl⟩⟩, hf r⟩
  · exact ⟨r, mem_modify.mpr ⟨r, h, .inr ⟨hk, rfl⟩⟩, rfl⟩

lemma rows_insert? (h : t.insert? r = some t') : t'.rows = t.rows ++ [r] := by
  simp only [insert?] at h
  split at h
  · cases h
  · rw [← Option.some.inj h]

lemma not_mem_of_insert? (h : t.insert? r = some t') (hr : r' ∈ t.rows) : key r' ≠ key r := by
  intro hk
  simp only [insert?] at h
  split at h
  · cases h
  · next hn => exact hn (hk ▸ List.mem_map_of_mem hr)

lemma mem_of_insert?_none (h : t.insert? r = none) : ∃ r' ∈ t.rows, key r' = key r := by
  simp only [insert?] at h
  split at h
  · next hk => exact List.mem_map.mp hk
  · cases h

end Table

end Janus.Data
