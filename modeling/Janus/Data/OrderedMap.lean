import Mathlib.Data.List.Basic
import Mathlib.Order.Lattice

/-! Finite maps whose entries are listed in key order. -/

namespace Janus.Data

structure OrderedMap (κ α : Type) [LinearOrder κ] where
  entries : List (κ × α)
  sorted : entries.Pairwise fun a b => a.1 < b.1

namespace OrderedMap

variable {κ α : Type} [LinearOrder κ]

def empty : OrderedMap κ α := ⟨[], .nil⟩

instance : Inhabited (OrderedMap κ α) := ⟨empty⟩

def get (m : OrderedMap κ α) (k : κ) : Option α := (m.entries.find? fun e => e.1 = k).map Prod.snd

def containsKey (m : OrderedMap κ α) (k : κ) : Bool := m.entries.any fun e => e.1 = k

def keys (m : OrderedMap κ α) : List κ := m.entries.map Prod.fst

def values (m : OrderedMap κ α) : List α := m.entries.map Prod.snd

def insertEntry (k : κ) (a : α) : List (κ × α) → List (κ × α)
  | [] => [(k, a)]
  | e :: es => if k < e.1 then (k, a) :: e :: es
    else if k = e.1 then (k, a) :: es
    else e :: insertEntry k a es

lemma mem_insertEntry {k : κ} {a : α} {es : List (κ × α)} {e : κ × α}
    (h : e ∈ insertEntry k a es) : e = (k, a) ∨ e ∈ es := by
  induction es with
  | nil => exact .inl (by simpa [insertEntry] using h)
  | cons d es ih =>
    simp only [insertEntry] at h
    split at h
    · simpa using h
    · split at h
      · rcases List.mem_cons.mp h with h | h
        · exact .inl h
        · exact .inr (List.mem_cons_of_mem _ h)
      · rcases List.mem_cons.mp h with rfl | h
        · exact .inr List.mem_cons_self
        · exact (ih h).imp id (List.mem_cons_of_mem _)

lemma insertEntry_sorted (k : κ) (a : α) {es : List (κ × α)}
    (h : es.Pairwise fun a b => a.1 < b.1) :
    (insertEntry k a es).Pairwise fun a b => a.1 < b.1 := by
  induction es with
  | nil => exact List.pairwise_singleton _ _
  | cons e es ih =>
    obtain ⟨hlt, hes⟩ := List.pairwise_cons.mp h
    simp only [insertEntry]
    split
    · next hk =>
      refine List.pairwise_cons.mpr ⟨?_, h⟩
      intro d hd
      rcases List.mem_cons.mp hd with rfl | hd
      · exact hk
      · exact lt_trans hk (hlt d hd)
    · split
      · next hk => exact List.pairwise_cons.mpr ⟨fun d hd => hk ▸ hlt d hd, hes⟩
      · next hlt' hne =>
        refine List.pairwise_cons.mpr ⟨?_, ih hes⟩
        intro d hd
        rcases mem_insertEntry hd with rfl | hd
        · exact lt_of_le_of_ne (not_lt.mp hlt') (Ne.symm hne)
        · exact hlt d hd

def insert (m : OrderedMap κ α) (k : κ) (a : α) : OrderedMap κ α :=
  ⟨insertEntry k a m.entries, insertEntry_sorted k a m.sorted⟩

def retain (m : OrderedMap κ α) (p : κ → α → Bool) : OrderedMap κ α :=
  ⟨m.entries.filter fun e => p e.1 e.2, m.sorted.filter _⟩

def remove (m : OrderedMap κ α) (k : κ) : OrderedMap κ α := m.retain fun k' _ => k' ≠ k

def mapValues {β : Type} (m : OrderedMap κ α) (f : κ → α → β) : OrderedMap κ β :=
  ⟨m.entries.map fun e => (e.1, f e.1 e.2), List.pairwise_map.mpr m.sorted⟩

def ofList (entries : List (κ × α)) : OrderedMap κ α :=
  entries.foldl (fun m e => m.insert e.1 e.2) empty

variable {m : OrderedMap κ α} {k k' : κ} {a : α}

lemma eq_of_mem_entries {e e' : κ × α} (he : e ∈ m.entries) (he' : e' ∈ m.entries)
    (h : e.1 = e'.1) : e = e' := by
  by_contra hne
  have hlt : e.1 < e'.1 ∨ e'.1 < e.1 := by
    rcases List.mem_iff_getElem.mp he with ⟨i, hi, rfl⟩
    rcases List.mem_iff_getElem.mp he' with ⟨j, hj, rfl⟩
    have hs := List.pairwise_iff_getElem.mp m.sorted
    rcases lt_trichotomy i j with hij | rfl | hij
    · exact .inl (hs i j hi hj hij)
    · exact (hne rfl).elim
    · exact .inr (hs j i hj hi hij)
  rcases hlt with hlt | hlt
  · exact (h ▸ hlt).false
  · exact (h ▸ hlt).false

lemma keys_nodup : m.keys.Nodup :=
  List.pairwise_map.mpr (m.sorted.imp fun h => h.ne)

lemma get_eq_some_iff : m.get k = some a ↔ (k, a) ∈ m.entries := by
  constructor
  · intro h
    obtain ⟨e, he, rfl⟩ := Option.map_eq_some_iff.mp h
    have hk : e.1 = k := by simpa using List.find?_some he
    exact hk ▸ List.mem_of_find?_eq_some he
  · intro h
    cases hf : m.entries.find? fun e => e.1 = k with
    | none => simpa using List.find?_eq_none.mp hf _ h
    | some e =>
      have hk : e.1 = k := by simpa using List.find?_some hf
      have he := eq_of_mem_entries (List.mem_of_find?_eq_some hf) h hk
      simp [get, hf, he]

lemma get_eq_none_iff : m.get k = none ↔ ∀ a, (k, a) ∉ m.entries := by
  constructor
  · intro h a ha
    rw [get_eq_some_iff.mpr ha] at h
    cases h
  · intro h
    cases hg : m.get k with
    | none => rfl
    | some a => exact (h a (get_eq_some_iff.mp hg)).elim

lemma ext_get {m m' : OrderedMap κ α} (h : ∀ k, m.get k = m'.get k) : m = m' := by
  have hnodup : ∀ m : OrderedMap κ α, m.entries.Nodup :=
    fun m => m.sorted.imp fun hlt heq => hlt.ne (congrArg Prod.fst heq)
  have hperm : m.entries.Perm m'.entries := by
    refine (List.perm_ext_iff_of_nodup (hnodup m) (hnodup m')).mpr fun e => ?_
    rw [← get_eq_some_iff, ← get_eq_some_iff, h]
  have hentries : m.entries = m'.entries :=
    hperm.eq_of_pairwise (fun _ _ _ _ hlt hlt' => (lt_asymm hlt hlt').elim) m.sorted m'.sorted
  cases m
  cases m'
  cases hentries
  rfl

lemma containsKey_iff : m.containsKey k = true ↔ ∃ a, m.get k = some a := by
  simp only [containsKey, List.any_eq_true, decide_eq_true_eq, get_eq_some_iff]
  constructor
  · rintro ⟨e, he, rfl⟩
    exact ⟨e.2, he⟩
  · rintro ⟨a, ha⟩
    exact ⟨(k, a), ha, rfl⟩

lemma containsKey_eq_isSome : m.containsKey k = (m.get k).isSome := by
  rw [Bool.eq_iff_iff, containsKey_iff, Option.isSome_iff_exists]

@[simp] lemma get_empty : (empty : OrderedMap κ α).get k = none := rfl

lemma mem_insertEntry_iff {es : List (κ × α)} (hs : es.Pairwise fun a b => a.1 < b.1) {e : κ × α} :
    e ∈ insertEntry k a es ↔ e = (k, a) ∨ (e ∈ es ∧ e.1 ≠ k) := by
  induction es with
  | nil => simp [insertEntry]
  | cons d es ih =>
    obtain ⟨hlt, hes⟩ := List.pairwise_cons.mp hs
    simp only [insertEntry]
    split
    · next hk =>
      have hne : ∀ e ∈ d :: es, e.1 ≠ k := by
        intro e he
        rcases List.mem_cons.mp he with rfl | he
        · exact hk.ne'
        · exact (lt_trans hk (hlt e he)).ne'
      rw [List.mem_cons]
      exact or_congr_right ⟨fun he => ⟨he, hne e he⟩, fun he => he.1⟩
    · split
      · next hnlt heq =>
        subst heq
        have hne : ∀ e ∈ es, e.1 ≠ d.1 := fun e he => (hlt e he).ne'
        simp only [List.mem_cons]
        refine or_congr_right ⟨fun he => ⟨.inr he, hne e he⟩, ?_⟩
        rintro ⟨rfl | he, hn⟩
        · exact (hn rfl).elim
        · exact he
      · next hnlt hne =>
        simp only [List.mem_cons, ih hes]
        constructor
        · rintro (rfl | h | h)
          · exact .inr ⟨.inl rfl, Ne.symm hne⟩
          · exact .inl h
          · exact .inr ⟨.inr h.1, h.2⟩
        · rintro (h | ⟨h | h, hn⟩)
          · exact .inr (.inl h)
          · exact .inl h
          · exact .inr (.inr ⟨h, hn⟩)

lemma mem_insert {e : κ × α} :
    e ∈ (m.insert k a).entries ↔ e = (k, a) ∨ (e ∈ m.entries ∧ e.1 ≠ k) :=
  mem_insertEntry_iff m.sorted

@[simp] lemma get_insert_self : (m.insert k a).get k = some a :=
  get_eq_some_iff.mpr (mem_insert.mpr (.inl rfl))

lemma get_insert_of_ne (h : k' ≠ k) : (m.insert k a).get k' = m.get k' := by
  ext b
  rw [get_eq_some_iff, get_eq_some_iff, mem_insert]
  constructor
  · rintro (he | he)
    · exact (h (congrArg Prod.fst he)).elim
    · exact he.1
  · exact fun he => .inr ⟨he, h⟩

lemma get_retain {p : κ → α → Bool} :
    (m.retain p).get k = some a ↔ m.get k = some a ∧ p k a = true := by
  rw [get_eq_some_iff, get_eq_some_iff, retain, List.mem_filter]

@[simp] lemma get_mapValues {β : Type} {f : κ → α → β} :
    (m.mapValues f).get k = (m.get k).map (f k) := by
  ext b
  rw [get_eq_some_iff, Option.map_eq_some_iff, mapValues, List.mem_map]
  constructor
  · rintro ⟨e, he, heq⟩
    obtain ⟨rfl, rfl⟩ := Prod.mk.inj heq
    exact ⟨e.2, get_eq_some_iff.mpr he, rfl⟩
  · rintro ⟨a, ha, rfl⟩
    exact ⟨(k, a), get_eq_some_iff.mp ha, rfl⟩

lemma get_remove_self : (m.remove k).get k = none := by
  rw [get_eq_none_iff]
  intro a ha
  simp [remove, retain] at ha

lemma get_remove_of_ne (h : k' ≠ k) : (m.remove k).get k' = m.get k' := by
  ext b
  rw [remove, get_retain]
  exact and_iff_left (by simpa using h)

section

variable {ι : Type} {f : ι → κ} {g : ι → α} {es : List ι}

lemma get_foldl_insert_of_ne (h : ∀ e ∈ es, f e ≠ k) :
    (es.foldl (fun m e => m.insert (f e) (g e)) m).get k = m.get k := by
  induction es generalizing m with
  | nil => rfl
  | cons e es ih =>
    obtain ⟨he, hes⟩ := List.forall_mem_cons.mp h
    rw [List.foldl_cons, ih hes, get_insert_of_ne he.symm]

lemma get_foldl_insert_of_mem {e : ι} (he : e ∈ es)
    (h : ∀ e' ∈ es, f e' = f e → e' = e) :
    (es.foldl (fun m e => m.insert (f e) (g e)) m).get (f e) = some (g e) := by
  induction es generalizing m with
  | nil => cases he
  | cons d es ih =>
    rw [List.foldl_cons]
    by_cases hmem : e ∈ es
    · exact ih hmem fun e' he' => h e' (List.mem_cons_of_mem _ he')
    · obtain rfl := (List.mem_cons.mp he).resolve_right hmem
      rw [get_foldl_insert_of_ne, get_insert_self]
      intro e' he' heq
      exact hmem (h e' (List.mem_cons_of_mem _ he') heq ▸ he')

end

end OrderedMap

end Janus.Data
