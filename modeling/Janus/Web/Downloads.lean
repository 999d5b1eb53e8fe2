import Mathlib.Data.List.Infix
import Mathlib.Tactic.Common

/-! The name that a browser is told to save an artifact under: `safe_download_filename` of `routes.rs`. -/

namespace Janus.Web

/-- `char::is_control`. -/
def isControl (c : Char) : Bool := c.toNat < 32 || (127 ≤ c.toNat && c.toNat < 160)

def reservedChars : List Char := ['"', '\\', '/', '<', '>', ':', '|', '?', '*']

def sanitizeChar (c : Char) : Char :=
  if c ∈ reservedChars ∨ c ∈ ['\r', '\n', '\t'] then '_'
  else if isControl c then '_'
  else if c.toNat < 128 then c
  else '_'

/-- `str::trim_matches`. -/
def trimMatches (p : Char → Bool) (cs : List Char) : List Char :=
  ((cs.dropWhile p).reverse.dropWhile p).reverse

def isDotOrSpace (c : Char) : Bool := c = '.' || c = ' '

/-- `contains("..")`. -/
def containsDots : List Char → Bool
  | c :: d :: cs => (c = '.' && d = '.') || containsDots (d :: cs)
  | _ => false

/-- `replace("..", "_")`. -/
def replaceDots : List Char → List Char
  | c :: d :: cs => if c = '.' ∧ d = '.' then '_' :: replaceDots cs else c :: replaceDots (d :: cs)
  | cs => cs

lemma length_replaceDots_le (cs : List Char) : (replaceDots cs).length ≤ cs.length := by
  fun_induction replaceDots cs with
  | case1 c d cs h ih => simp only [List.length_cons]; omega
  | case2 c d cs h ih => simpa using ih
  | case3 cs h => exact le_rfl

lemma length_replaceDots_lt {cs : List Char} (h : containsDots cs = true) :
    (replaceDots cs).length < cs.length := by
  fun_induction replaceDots cs with
  | case1 c d cs hdots ih =>
    have hle := length_replaceDots_le cs
    simp only [List.length_cons]
    omega
  | case2 c d cs hdots ih =>
    have hrest : containsDots (d :: cs) = true := by
      simpa [containsDots, hdots] using h
    simpa using ih hrest
  | case3 cs hshort =>
    unfold containsDots at h
    split at h
    · exact absurd rfl (hshort _ _ _)
    · cases h

def collapseDots (cs : List Char) : List Char :=
  if containsDots cs then collapseDots (replaceDots cs) else cs
termination_by cs.length
decreasing_by exact length_replaceDots_lt ‹_›

def safeDownloadFilename (name : String) : String :=
  let sanitized := collapseDots (trimMatches isDotOrSpace (name.toList.map sanitizeChar))
  if sanitized.isEmpty then "artifact.bin" else String.ofList sanitized

structure SafeChar (c : Char) : Prop where
  ascii : c.toNat < 128
  control : isControl c = false
  reserved : c ∉ reservedChars

/-- A name that can stand in a header and name a file in a directory. -/
structure SafeName (cs : List Char) : Prop where
  nonempty : cs ≠ []
  chars : ∀ c ∈ cs, SafeChar c
  dots : ¬['.', '.'] <:+: cs
  first : ∀ c ∈ cs.head?, isDotOrSpace c = false
  last : ∀ c ∈ cs.getLast?, isDotOrSpace c = false

instance : DecidablePred SafeChar := fun c =>
  decidable_of_iff (c.toNat < 128 ∧ isControl c = false ∧ c ∉ reservedChars)
    ⟨fun h => ⟨h.1, h.2.1, h.2.2⟩, fun h => ⟨h.ascii, h.control, h.reserved⟩⟩

lemma safeChar_underscore : SafeChar '_' := ⟨by decide, by decide, by decide⟩

lemma safeChar_sanitizeChar (c : Char) : SafeChar (sanitizeChar c) := by
  unfold sanitizeChar
  by_cases hreserved : c ∈ reservedChars ∨ c ∈ ['\r', '\n', '\t']
  · rw [if_pos hreserved]
    exact safeChar_underscore
  · rw [if_neg hreserved]
    by_cases hcontrol : isControl c = true
    · rw [if_pos hcontrol]
      exact safeChar_underscore
    · rw [if_neg hcontrol]
      by_cases hascii : c.toNat < 128
      · rw [if_pos hascii]
        exact ⟨hascii, Bool.eq_false_iff.mpr hcontrol, fun h => hreserved (.inl h)⟩
      · rw [if_neg hascii]
        exact safeChar_underscore

lemma sanitizeChar_of_safeChar {c : Char} (h : SafeChar c) : sanitizeChar c = c := by
  have hspace : c ∉ ['\r', '\n', '\t'] := by
    intro hmem
    have hcontrol : isControl c = true := by
      rcases List.mem_cons.mp hmem with rfl | hmem
      · rfl
      rcases List.mem_cons.mp hmem with rfl | hmem
      · rfl
      obtain rfl := List.mem_singleton.mp hmem
      rfl
    rw [h.control] at hcontrol
    cases hcontrol
  rw [sanitizeChar, if_neg (not_or.mpr ⟨h.reserved, hspace⟩), h.control, if_neg Bool.false_ne_true,
    if_pos h.ascii]

lemma mem_trimMatches {p : Char → Bool} {cs : List Char} {c : Char} (h : c ∈ trimMatches p cs) :
    c ∈ cs := by
  have hmem := (List.dropWhile_sublist p).subset (List.mem_reverse.mp h)
  exact (List.dropWhile_sublist p).subset (List.mem_reverse.mp hmem)

lemma head?_dropWhile {p : Char → Bool} {cs : List Char} {c : Char}
    (h : c ∈ (cs.dropWhile p).head?) : p c = false := by
  induction cs with
  | nil => cases h
  | cons d cs ih =>
    by_cases hd : p d = true
    · rw [List.dropWhile_cons_of_pos hd] at h
      exact ih h
    · rw [List.dropWhile_cons_of_neg hd] at h
      obtain rfl := Option.some.inj h
      exact Bool.eq_false_iff.mpr hd

lemma last_trimMatches {p : Char → Bool} {cs : List Char} {c : Char}
    (h : c ∈ (trimMatches p cs).getLast?) : p c = false := by
  rw [trimMatches, List.getLast?_reverse] at h
  exact head?_dropWhile h

lemma first_trimMatches {p : Char → Bool} {cs : List Char} {c : Char}
    (h : c ∈ (trimMatches p cs).head?) : p c = false := by
  have hprefix : trimMatches p cs <+: cs.dropWhile p := by
    rw [trimMatches, ← List.reverse_suffix, List.reverse_reverse]
    exact List.dropWhile_suffix p
  obtain ⟨rest, hrest⟩ := hprefix
  have hhead : c ∈ (cs.dropWhile p).head? := by
    rw [← hrest, List.head?_append, Option.mem_def.mp h]
    rfl
  exact head?_dropWhile hhead

lemma trimMatches_of_ends {p : Char → Bool} {cs : List Char} (hfirst : ∀ c ∈ cs.head?, p c = false)
    (hlast : ∀ c ∈ cs.getLast?, p c = false) : trimMatches p cs = cs := by
  have hkeep : ∀ ds : List Char, (∀ c ∈ ds.head?, p c = false) → ds.dropWhile p = ds := by
    intro ds hds
    cases ds with
    | nil => rfl
    | cons d ds => exact List.dropWhile_cons_of_neg (by rw [hds d rfl]; exact Bool.false_ne_true)
  rw [trimMatches, hkeep cs hfirst, hkeep cs.reverse, List.reverse_reverse]
  rwa [List.head?_reverse]

lemma containsDots_iff {cs : List Char} : containsDots cs = true ↔ ['.', '.'] <:+: cs := by
  fun_induction containsDots cs with
  | case1 c d cs ih =>
    rw [Bool.or_eq_true, ih]
    refine Iff.trans ?_ List.infix_cons_iff.symm
    refine or_congr ⟨fun h => ?_, fun h => ?_⟩ Iff.rfl
    · simp only [Bool.and_eq_true, decide_eq_true_eq] at h
      obtain ⟨rfl, rfl⟩ := h
      exact ⟨cs, rfl⟩
    · obtain ⟨rest, hrest⟩ := h
      cases hrest
      rfl
  | case2 cs hshort =>
    refine ⟨fun h => absurd h Bool.false_ne_true, fun h => ?_⟩
    obtain ⟨before, after, rfl⟩ := h
    cases before with
    | nil => exact absurd rfl (hshort _ _ _)
    | cons c before => cases before <;> exact absurd rfl (hshort _ _ _)

lemma collapseDots_induct {P : List Char → Prop} (hround : ∀ cs, P cs → P (replaceDots cs))
    {cs : List Char} (h : P cs) : P (collapseDots cs) := by
  fun_induction collapseDots cs with
  | case1 cs hdots ih => exact ih (hround cs h)
  | case2 cs hdots => exact h

lemma containsDots_collapseDots (cs : List Char) : containsDots (collapseDots cs) = false := by
  fun_induction collapseDots cs with
  | case1 cs hdots ih => exact ih
  | case2 cs hdots => exact Bool.eq_false_iff.mpr hdots

lemma collapseDots_of_not_containsDots {cs : List Char} (h : containsDots cs = false) :
    collapseDots cs = cs := by
  rw [collapseDots, h, if_neg Bool.false_ne_true]

lemma safeChar_replaceDots {cs : List Char} (h : ∀ c ∈ cs, SafeChar c) :
    ∀ c ∈ replaceDots cs, SafeChar c := by
  fun_induction replaceDots cs with
  | case1 c d cs hdots ih =>
    intro e he
    rcases List.mem_cons.mp he with rfl | he
    · exact safeChar_underscore
    · exact ih (fun e he => h e (List.mem_cons_of_mem _ (List.mem_cons_of_mem _ he))) e he
  | case2 c d cs hdots ih =>
    obtain ⟨hc, hcs⟩ := List.forall_mem_cons.mp h
    exact List.forall_mem_cons.mpr ⟨hc, ih hcs⟩
  | case3 cs hshort => exact h

lemma first_replaceDots {cs : List Char} (h : ∀ c ∈ cs.head?, isDotOrSpace c = false) :
    ∀ c ∈ (replaceDots cs).head?, isDotOrSpace c = false := by
  fun_cases replaceDots cs with
  | case1 c d cs hdots =>
    intro e he
    obtain rfl := Option.some.inj he
    rfl
  | case2 c d cs hdots => exact h
  | case3 hshort => exact h

lemma replaceDots_ne_nil {cs : List Char} (h : cs ≠ []) : replaceDots cs ≠ [] := by
  fun_cases replaceDots cs with
  | case1 c d cs hdots => exact List.cons_ne_nil _ _
  | case2 c d cs hdots => exact List.cons_ne_nil _ _
  | case3 hshort => exact h

lemma getLast?_cons_of_ne_nil {c : Char} {cs : List Char} (h : cs ≠ []) :
    (c :: cs).getLast? = cs.getLast? := by
  cases cs with
  | nil => exact absurd rfl h
  | cons d cs => exact List.getLast?_cons_cons

lemma last_replaceDots {cs : List Char} (h : ∀ c ∈ cs.getLast?, isDotOrSpace c = false) :
    ∀ c ∈ (replaceDots cs).getLast?, isDotOrSpace c = false := by
  fun_induction replaceDots cs with
  | case1 c d cs hdots ih =>
    by_cases hcs : cs = []
    · subst hcs
      intro e he
      obtain rfl := Option.some.inj he
      rfl
    · rw [getLast?_cons_of_ne_nil (replaceDots_ne_nil hcs)]
      refine ih ?_
      rwa [List.getLast?_cons_cons, getLast?_cons_of_ne_nil hcs] at h
  | case2 c d cs hdots ih =>
    rw [getLast?_cons_of_ne_nil (replaceDots_ne_nil (List.cons_ne_nil d cs))]
    refine ih ?_
    rwa [List.getLast?_cons_cons] at h
  | case3 cs hshort => exact h

def defaultName : List Char := ['a', 'r', 't', 'i', 'f', 'a', 'c', 't', '.', 'b', 'i', 'n']

lemma toList_default : "artifact.bin".toList = defaultName := by decide

lemma safeName_default : SafeName defaultName := by
  have hall : defaultName.all (fun c => decide (SafeChar c)) = true := by decide
  refine ⟨List.cons_ne_nil _ _, fun c hc => of_decide_eq_true (List.all_eq_true.mp hall c hc), ?_,
    fun c hc => ?_, fun c hc => ?_⟩
  · rw [← containsDots_iff]
    decide
  · obtain rfl := Option.some.inj hc
    rfl
  · obtain rfl := Option.some.inj hc
    rfl

lemma safeName_safeDownloadFilename (name : String) :
    SafeName (safeDownloadFilename name).toList := by
  have hkept : let cs := collapseDots (trimMatches isDotOrSpace (name.toList.map sanitizeChar))
      (∀ c ∈ cs, SafeChar c) ∧ (∀ c ∈ cs.head?, isDotOrSpace c = false) ∧
        ∀ c ∈ cs.getLast?, isDotOrSpace c = false := by
    refine collapseDots_induct (P := fun cs => (∀ c ∈ cs, SafeChar c) ∧
      (∀ c ∈ cs.head?, isDotOrSpace c = false) ∧ ∀ c ∈ cs.getLast?, isDotOrSpace c = false)
      (fun cs h => ⟨safeChar_replaceDots h.1, first_replaceDots h.2.1, last_replaceDots h.2.2⟩)
      ⟨fun c hc => ?_, fun c hc => first_trimMatches hc, fun c hc => last_trimMatches hc⟩
    obtain ⟨d, -, rfl⟩ := List.mem_map.mp (mem_trimMatches hc)
    exact safeChar_sanitizeChar d
  unfold safeDownloadFilename
  generalize hcs : collapseDots (trimMatches isDotOrSpace (name.toList.map sanitizeChar)) = cs at hkept
  cases hempty : cs.isEmpty with
  | true =>
    simp only [hempty, if_true]
    rw [toList_default]
    exact safeName_default
  | false =>
    simp only [hempty, Bool.false_eq_true, if_false, String.toList_ofList]
    obtain ⟨hchars, hfirst, hlast⟩ := hkept
    refine ⟨List.isEmpty_eq_false_iff.mp hempty, hchars, ?_, hfirst, hlast⟩
    rw [← containsDots_iff, ← hcs, containsDots_collapseDots]
    exact Bool.false_ne_true

lemma safeDownloadFilename_of_safeName {name : String} (h : SafeName name.toList) :
    safeDownloadFilename name = name := by
  have hmap : name.toList.map sanitizeChar = name.toList :=
    (List.map_congr_left fun c hc => sanitizeChar_of_safeChar (h.chars c hc)).trans (List.map_id _)
  have hdots : containsDots name.toList = false :=
    Bool.eq_false_iff.mpr fun hdots => h.dots (containsDots_iff.mp hdots)
  have hempty : name.toList.isEmpty = false := List.isEmpty_eq_false_iff.mpr h.nonempty
  unfold safeDownloadFilename
  rw [hmap, trimMatches_of_ends h.first h.last, collapseDots_of_not_containsDots hdots]
  simp only [hempty, Bool.false_eq_true, if_false, String.ofList_toList]

/-- Download names are safe, and making them safe again changes nothing. -/
theorem safe_download_filename (name : String) : SafeName (safeDownloadFilename name).toList ∧
    safeDownloadFilename (safeDownloadFilename name) = safeDownloadFilename name :=
  ⟨safeName_safeDownloadFilename name,
    safeDownloadFilename_of_safeName (safeName_safeDownloadFilename name)⟩

end Janus.Web
