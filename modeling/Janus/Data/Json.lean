import Mathlib.Data.List.Basic
import Mathlib.Data.Char

/-! JSON texts: how a value is written without white space, and how a text is read. A value that is
written is read again. -/

namespace Janus.Data

inductive Json
  | null
  | bool (value : Bool)
  | number (value : ℤ)
  | decimal (text : String)
  | string (text : String)
  | array (items : List Json)
  | object (fields : List (String × Json))

namespace Json

def hexDigit (n : ℕ) : Char := Nat.digitChar n

def escapeChar (c : Char) : List Char :=
  if c = '"' then ['\\', '"']
  else if c = '\\' then ['\\', '\\']
  else if c = '\n' then ['\\', 'n']
  else if c = '\r' then ['\\', 'r']
  else if c = '\t' then ['\\', 't']
  else if c.toNat = 8 then ['\\', 'b']
  else if c.toNat = 12 then ['\\', 'f']
  else if c.toNat < 32 then
    ['\\', 'u', '0', '0', hexDigit (c.toNat / 16), hexDigit (c.toNat % 16)]
  else [c]

def quote (text : String) : List Char :=
  '"' :: (text.toList.flatMap escapeChar ++ ['"'])

def integerText : ℤ → List Char
  | .ofNat n => Nat.toDigits 10 n
  | .negSucc n => '-' :: Nat.toDigits 10 (n + 1)

mutual

def text : Json → List Char
  | .null => ['n', 'u', 'l', 'l']
  | .bool true => ['t', 'r', 'u', 'e']
  | .bool false => ['f', 'a', 'l', 's', 'e']
  | .number value => integerText value
  | .decimal text => text.toList
  | .string text => quote text
  | .array [] => ['[', ']']
  | .array (x :: xs) => '[' :: (text x ++ itemsText xs)
  | .object [] => ['{', '}']
  | .object ((name, x) :: fields) => '{' :: (quote name ++ ':' :: (text x ++ fieldsText fields))

def itemsText : List Json → List Char
  | [] => [']']
  | x :: xs => ',' :: (text x ++ itemsText xs)

def fieldsText : List (String × Json) → List Char
  | [] => ['}']
  | (name, x) :: fields => ',' :: (quote name ++ ':' :: (text x ++ fieldsText fields))

end

def isSpace (c : Char) : Bool := c = ' ' || c = '\t' || c = '\n' || c = '\r'

def skip (cs : List Char) : List Char := cs.dropWhile isSpace

inductive StringState
  | plain
  | escape
  | unicode (count value : ℕ)

def hexValue (c : Char) : Option ℕ :=
  if c.isDigit then some (c.toNat - 48)
  else if 97 ≤ c.toNat ∧ c.toNat ≤ 102 then some (c.toNat - 87)
  else if 65 ≤ c.toNat ∧ c.toNat ≤ 70 then some (c.toNat - 55)
  else none

def unescape (c : Char) : Option Char :=
  if c = '"' ∨ c = '\\' ∨ c = '/' then some c
  else if c = 'n' then some '\n'
  else if c = 'r' then some '\r'
  else if c = 't' then some '\t'
  else if c = 'b' then some (Char.ofNat 8)
  else if c = 'f' then some (Char.ofNat 12)
  else none

def readString : StringState → List Char → Option (List Char × List Char)
  | _, [] => none
  | .plain, c :: cs =>
    if c = '"' then some ([], cs)
    else if c = '\\' then readString .escape cs
    else if c.toNat < 32 then none
    else (readString .plain cs).map fun r => (c :: r.1, r.2)
  | .escape, c :: cs =>
    match unescape c with
    | some c' => (readString .plain cs).map fun r => (c' :: r.1, r.2)
    | none => if c = 'u' then readString (.unicode 0 0) cs else none
  | .unicode count value, c :: cs =>
    match hexValue c with
    | none => none
    | some digit =>
      let value := 16 * value + digit
      if count < 3 then readString (.unicode (count + 1) value) cs
      else if 0xD800 ≤ value ∧ value ≤ 0xDFFF then none
      else (readString .plain cs).map fun r => (Char.ofNat value :: r.1, r.2)

def isNumberChar (c : Char) : Bool :=
  c.isDigit || c = '-' || c = '+' || c = '.' || c = 'e' || c = 'E'

def isInteger (cs : List Char) : Bool :=
  !cs.isEmpty && cs.all Char.isDigit && (cs.head? != some '0' || cs.length == 1)

def readExponent : List Char → Bool
  | [] => true
  | c :: cs =>
    let digits := match cs with
      | '+' :: cs | '-' :: cs => cs
      | cs => cs
    (c = 'e' || c = 'E') && !digits.isEmpty && digits.all Char.isDigit

def readFraction : List Char → Bool
  | '.' :: cs => !(cs.takeWhile Char.isDigit).isEmpty && readExponent (cs.dropWhile Char.isDigit)
  | cs => readExponent cs

def readNumber (token : List Char) : Option Json :=
  let negative := token.head? = some '-'
  let magnitude := if negative then token.tail else token
  let integer := magnitude.takeWhile Char.isDigit
  let rest := magnitude.dropWhile Char.isDigit
  if !isInteger integer then none
  else if rest.isEmpty then
    let value : ℤ := Nat.ofDigitChars 10 integer 0
    some (.number (if negative then -value else value))
  else if readFraction rest then some (.decimal (String.ofList token))
  else none

def readLiteral : List Char → Option (Json × List Char)
  | 'n' :: 'u' :: 'l' :: 'l' :: cs => some (.null, cs)
  | 't' :: 'r' :: 'u' :: 'e' :: cs => some (.bool true, cs)
  | 'f' :: 'a' :: 'l' :: 's' :: 'e' :: cs => some (.bool false, cs)
  | cs => (readNumber (cs.takeWhile isNumberChar)).map fun x => (x, cs.dropWhile isNumberChar)

def setField (fields : List (String × Json)) (field : String × Json) : List (String × Json) :=
  if fields.any fun f => f.1 = field.1 then
    fields.map fun f => if f.1 = field.1 then field else f
  else fields ++ [field]

mutual

def readValue : ℕ → List Char → Option (Json × List Char)
  | 0, _ => none
  | k + 1, cs =>
    match skip cs with
    | [] => none
    | c :: cs =>
      if c = '"' then (readString .plain cs).map fun r => (.string (String.ofList r.1), r.2)
      else if c = '[' then
        if (skip cs).head? = some ']' then some (.array [], (skip cs).tail)
        else (readItems k cs).map fun r => (.array r.1, r.2)
      else if c = '{' then
        if (skip cs).head? = some '}' then some (.object [], (skip cs).tail)
        else (readFields k cs).map fun r => (.object (r.1.foldl setField []), r.2)
      else readLiteral (c :: cs)

def readItems : ℕ → List Char → Option (List Json × List Char)
  | 0, _ => none
  | k + 1, cs =>
    match readValue k cs with
    | none => none
    | some (x, cs) =>
      match skip cs with
      | ',' :: cs => (readItems k cs).map fun r => (x :: r.1, r.2)
      | ']' :: cs => some ([x], cs)
      | _ => none

def readFields : ℕ → List Char → Option (List (String × Json) × List Char)
  | 0, _ => none
  | k + 1, cs =>
    match skip cs with
    | '"' :: cs =>
      match readString .plain cs with
      | none => none
      | some (name, cs) =>
        match skip cs with
        | ':' :: cs =>
          match readValue k cs with
          | none => none
          | some (x, cs) =>
            match skip cs with
            | ',' :: cs => (readFields k cs).map fun r => ((String.ofList name, x) :: r.1, r.2)
            | '}' :: cs => some ([(String.ofList name, x)], cs)
            | _ => none
        | _ => none
    | _ => none

end

def parse (cs : List Char) : Option Json :=
  match readValue (cs.length + 1) cs with
  | some (x, rest) => if (skip rest).isEmpty then some x else none
  | none => none

mutual

def Sound : Json → Prop
  | .decimal _ => False
  | .array items => SoundItems items
  | .object fields => (fields.map Prod.fst).Nodup ∧ SoundFields fields
  | _ => True

def SoundItems : List Json → Prop
  | [] => True
  | x :: xs => Sound x ∧ SoundItems xs

def SoundFields : List (String × Json) → Prop
  | [] => True
  | (_, x) :: fields => Sound x ∧ SoundFields fields

end

lemma hexValue_hexDigit {n : ℕ} (h : n < 16) : hexValue (hexDigit n) = some n := by
  have hall : ∀ n : Fin 16, hexValue (hexDigit n.val) = some n.val := by decide
  exact hall ⟨n, h⟩

lemma readString_escapeChar (c : Char) (cs : List Char) :
    readString .plain (escapeChar c ++ cs) =
      (readString .plain cs).map fun r => (c :: r.1, r.2) := by
  have hread : ∀ {e d : Char}, unescape e = some d →
      readString .plain ('\\' :: e :: cs) = (readString .plain cs).map fun r => (d :: r.1, r.2) := by
    intro e d h
    simp [readString, h]
  unfold escapeChar
  by_cases hquote : c = '"'
  · rw [if_pos hquote, hquote]
    exact hread (by decide)
  rw [if_neg hquote]
  by_cases hslash : c = '\\'
  · rw [if_pos hslash, hslash]
    exact hread (by decide)
  rw [if_neg hslash]
  by_cases hnewline : c = '\n'
  · rw [if_pos hnewline, hnewline]
    exact hread (by decide)
  rw [if_neg hnewline]
  by_cases hreturn : c = '\r'
  · rw [if_pos hreturn, hreturn]
    exact hread (by decide)
  rw [if_neg hreturn]
  by_cases htab : c = '\t'
  · rw [if_pos htab, htab]
    exact hread (by decide)
  rw [if_neg htab]
  by_cases hback : c.toNat = 8
  · rw [if_pos hback]
    obtain rfl : Char.ofNat 8 = c := hback ▸ c.ofNat_toNat
    exact hread (by decide)
  rw [if_neg hback]
  by_cases hfeed : c.toNat = 12
  · rw [if_pos hfeed]
    obtain rfl : Char.ofNat 12 = c := hfeed ▸ c.ofNat_toNat
    exact hread (by decide)
  rw [if_neg hfeed]
  by_cases hcontrol : c.toNat < 32
  · rw [if_pos hcontrol]
    have hhigh := hexValue_hexDigit (n := c.toNat / 16) (by omega)
    have hlow := hexValue_hexDigit (n := c.toNat % 16) (by omega)
    have hzero : hexValue '0' = some 0 := by decide
    have hunicode : unescape 'u' = none := by decide
    have hvalue : 16 * (c.toNat / 16) + c.toNat % 16 = c.toNat := by omega
    have hscalar : ¬(55296 ≤ c.toNat ∧ c.toNat ≤ 57343) := by omega
    simp [readString, hunicode, hzero, hhigh, hlow, hvalue, hscalar]
  · rw [if_neg hcontrol]
    simp [readString, hquote, hslash, hcontrol]

lemma readString_quoted (cs rest : List Char) :
    readString .plain (cs.flatMap escapeChar ++ '"' :: rest) = some (cs, rest) := by
  induction cs with
  | nil => simp [readString]
  | cons c cs ih =>
    rw [List.flatMap_cons, List.append_assoc, readString_escapeChar, ih]
    rfl

def Stops (rest : List Char) : Prop := ∀ c ∈ rest.head?, isNumberChar c = false

lemma takeWhile_append {p : Char → Bool} {cs rest : List Char} (hcs : ∀ c ∈ cs, p c = true)
    (hrest : ∀ c ∈ rest.head?, p c = false) :
    (cs ++ rest).takeWhile p = cs ∧ (cs ++ rest).dropWhile p = rest := by
  induction cs with
  | nil =>
    cases rest with
    | nil => exact ⟨rfl, rfl⟩
    | cons c rest => simp [hrest c rfl]
  | cons c cs ih =>
    obtain ⟨htake, hdrop⟩ := ih fun d hd => hcs d (List.mem_cons_of_mem _ hd)
    simp [hcs c List.mem_cons_self, htake, hdrop]

lemma isDigit_toDigits {n : ℕ} : ∀ c ∈ Nat.toDigits 10 n, c.isDigit = true :=
  fun _ hc => Nat.isDigit_of_mem_toDigits (by decide) (by decide) hc

lemma head_toDigits {n : ℕ} (h : (Nat.toDigits 10 n).head? = some '0') : n = 0 := by
  induction n using Nat.strongRecOn with
  | _ n ih =>
    by_cases hn : n < 10
    · rw [Nat.toDigits_of_lt_base hn] at h
      have hall : ∀ n : Fin 10, Nat.digitChar n.val = '0' → n.val = 0 := by decide
      exact hall ⟨n, hn⟩ (Option.some.inj h)
    · rw [Nat.toDigits_of_base_le (by decide) (Nat.le_of_not_lt hn),
        List.head?_append_of_ne_nil _ Nat.toDigits_ne_nil] at h
      have hzero := ih (n / 10) (by omega) h
      omega

lemma isInteger_toDigits (n : ℕ) : isInteger (Nat.toDigits 10 n) = true := by
  have hne : (Nat.toDigits 10 n).isEmpty = false := by simp
  have hdigits : (Nat.toDigits 10 n).all Char.isDigit = true :=
    List.all_eq_true.mpr isDigit_toDigits
  unfold isInteger
  rw [hne, hdigits]
  by_cases hhead : (Nat.toDigits 10 n).head? = some '0'
  · obtain rfl := head_toDigits hhead
    rfl
  · simp [hhead]

lemma toDigits_parts (m : ℕ) : (Nat.toDigits 10 m).takeWhile Char.isDigit = Nat.toDigits 10 m ∧
    (Nat.toDigits 10 m).dropWhile Char.isDigit = [] := by
  have h : (Nat.toDigits 10 m ++ []).takeWhile Char.isDigit = Nat.toDigits 10 m ∧
      (Nat.toDigits 10 m ++ []).dropWhile Char.isDigit = [] :=
    takeWhile_append isDigit_toDigits fun c hc => by cases hc
  rwa [List.append_nil] at h

lemma readNumber_integerText (n : ℤ) : readNumber (integerText n) = some (.number n) := by
  cases n with
  | ofNat m =>
    obtain ⟨htake, hdrop⟩ := toDigits_parts m
    have hplain : (Nat.toDigits 10 m).head? ≠ some '-' := by
      intro h
      have hminus := isDigit_toDigits (n := m) '-' (List.mem_of_mem_head? h)
      exact absurd hminus (by decide)
    simp [readNumber, integerText, hplain, htake, hdrop, isInteger_toDigits,
      Nat.ofDigitChars_ten_toDigits]
  | negSucc m =>
    obtain ⟨htake, hdrop⟩ := toDigits_parts (m + 1)
    simp [readNumber, integerText, htake, hdrop, isInteger_toDigits,
      Nat.ofDigitChars_ten_toDigits, Int.negSucc_eq]

lemma mem_integerText {n : ℤ} {c : Char} (hc : c ∈ integerText n) : c.isDigit = true ∨ c = '-' := by
  cases n with
  | ofNat m => exact .inl (isDigit_toDigits c hc)
  | negSucc m =>
    rcases List.mem_cons.mp hc with rfl | hc
    · exact .inr rfl
    · exact .inl (isDigit_toDigits c hc)

lemma integerText_ne_nil (n : ℤ) : integerText n ≠ [] := by
  cases n with
  | ofNat m => exact Nat.toDigits_ne_nil
  | negSucc m => exact List.cons_ne_nil _ _

lemma readLiteral_integerText (n : ℤ) {rest : List Char} (hrest : Stops rest) :
    readLiteral (integerText n ++ rest) = some (.number n, rest) := by
  have hchars : ∀ c ∈ integerText n, isNumberChar c = true := by
    intro c hc
    rcases mem_integerText hc with h | rfl
    · simp [isNumberChar, h]
    · decide
  obtain ⟨htake, hdrop⟩ := takeWhile_append hchars hrest
  have hfirst : ∀ c cs, integerText n ++ rest = c :: cs → c ≠ 'n' ∧ c ≠ 't' ∧ c ≠ 'f' := by
    intro c cs h
    have hmem : c ∈ integerText n := by
      obtain ⟨d, ds, hds⟩ := List.exists_cons_of_ne_nil (integerText_ne_nil n)
      rw [hds, List.cons_append] at h
      rw [hds, ← (List.cons.inj h).1]
      exact List.mem_cons_self
    rcases mem_integerText hmem with hdigit | rfl
    · refine ⟨?_, ?_, ?_⟩ <;> (rintro rfl; exact absurd hdigit (by decide))
    · decide
  unfold readLiteral
  split
  · next cs h => exact absurd rfl (hfirst _ _ h).1
  · next cs h => exact absurd rfl (hfirst _ _ h).2.1
  · next cs h => exact absurd rfl (hfirst _ _ h).2.2
  · rw [htake, hdrop, readNumber_integerText]
    rfl

lemma itemsText_last (xs : List Json) : ∃ cs, itemsText xs = cs ++ [']'] := by
  induction xs with
  | nil => exact ⟨[], by simp [itemsText]⟩
  | cons x xs ih =>
    obtain ⟨cs, hcs⟩ := ih
    exact ⟨',' :: (text x ++ cs), by simp [itemsText, hcs]⟩

lemma fieldsText_last (fields : List (String × Json)) : ∃ cs, fieldsText fields = cs ++ ['}'] := by
  induction fields with
  | nil => exact ⟨[], by simp [fieldsText]⟩
  | cons field fields ih =>
    obtain ⟨cs, hcs⟩ := ih
    exact ⟨',' :: (quote field.1 ++ ':' :: (text field.2 ++ cs)), by simp [fieldsText, hcs]⟩

def Visible (c : Char) : Prop := 33 ≤ c.toNat ∧ c.toNat ≤ 126

instance (c : Char) : Decidable (Visible c) := inferInstanceAs (Decidable (_ ∧ _))

lemma visible_integerText {n : ℤ} {c : Char} (hc : c ∈ integerText n) : Visible c := by
  rcases mem_integerText hc with hdigit | rfl
  · simp only [Char.isDigit, ge_iff_le, Bool.and_eq_true, decide_eq_true_eq] at hdigit
    have hlow : 48 ≤ c.toNat := UInt32.le_iff_toNat_le.mp hdigit.1
    have hhigh : c.toNat ≤ 57 := UInt32.le_iff_toNat_le.mp hdigit.2
    exact ⟨by omega, by omega⟩
  · decide

lemma text_ends {x : Json} (hx : x.Sound) :
    (∃ c cs, text x = c :: cs ∧ Visible c ∧ c ≠ ']' ∧ c ≠ '}') ∧
      ∃ cs c, text x = cs ++ [c] ∧ Visible c := by
  cases x with
  | null => exact ⟨⟨_, _, rfl, by decide⟩, ['n', 'u', 'l'], 'l', rfl, by decide⟩
  | bool value =>
    cases value with
    | true => exact ⟨⟨_, _, rfl, by decide⟩, ['t', 'r', 'u'], 'e', rfl, by decide⟩
    | false => exact ⟨⟨_, _, rfl, by decide⟩, ['f', 'a', 'l', 's'], 'e', rfl, by decide⟩
  | number n =>
    have hends : ∀ c, c ∈ integerText n → c ≠ ']' ∧ c ≠ '}' := by
      intro c hc
      rcases mem_integerText hc with hdigit | rfl
      · exact ⟨by rintro rfl; exact absurd hdigit (by decide),
          by rintro rfl; exact absurd hdigit (by decide)⟩
      · decide
    obtain ⟨c, cs, hcs⟩ := List.exists_cons_of_ne_nil (integerText_ne_nil n)
    have hmem : c ∈ integerText n := hcs ▸ List.mem_cons_self
    refine ⟨⟨c, cs, hcs, visible_integerText hmem, hends c hmem⟩, _, _,
      (List.dropLast_append_getLast (integerText_ne_nil n)).symm, ?_⟩
    exact visible_integerText (List.getLast_mem _)
  | decimal text => exact hx.elim
  | string text => exact ⟨⟨_, _, rfl, by decide⟩, '"' :: text.toList.flatMap escapeChar, '"', rfl,
      by decide⟩
  | array items =>
    cases items with
    | nil => exact ⟨⟨_, _, rfl, by decide⟩, ['['], ']', rfl, by decide⟩
    | cons x xs =>
      obtain ⟨cs, hcs⟩ := itemsText_last xs
      exact ⟨⟨_, _, rfl, by decide⟩, '[' :: (text x ++ cs), ']', by simp [text, hcs], by decide⟩
  | object fields =>
    cases fields with
    | nil => exact ⟨⟨_, _, rfl, by decide⟩, ['{'], '}', rfl, by decide⟩
    | cons field fields =>
      obtain ⟨cs, hcs⟩ := fieldsText_last fields
      exact ⟨⟨_, _, rfl, by decide⟩, '{' :: (quote field.1 ++ ':' :: (text field.2 ++ cs)), '}',
        by simp [text, hcs], by decide⟩

lemma not_isSpace {c : Char} (hc : Visible c) : isSpace c = false := by
  have hne : c ≠ ' ' ∧ c ≠ '\t' ∧ c ≠ '\n' ∧ c ≠ '\r' := by
    refine ⟨?_, ?_, ?_, ?_⟩ <;> (rintro rfl; exact absurd hc (by decide))
  simp [isSpace, hne]

lemma skip_of_visible {c : Char} (hc : Visible c) (cs : List Char) : skip (c :: cs) = c :: cs := by
  simp [skip, not_isSpace hc]

lemma skip_text {x : Json} (hx : x.Sound) (rest : List Char) : skip (text x ++ rest) = text x ++ rest := by
  obtain ⟨⟨c, cs, hcs, hc, -⟩, -⟩ := text_ends hx
  rw [hcs, List.cons_append]
  exact skip_of_visible hc _

lemma foldl_setField {fields before : List (String × Json)}
    (h : ((before ++ fields).map Prod.fst).Nodup) : fields.foldl setField before = before ++ fields := by
  induction fields generalizing before with
  | nil => simp
  | cons field fields ih =>
    have hnew : ¬(before.any fun f => f.1 = field.1) = true := by
      intro hany
      obtain ⟨f, hf, heq⟩ := List.any_eq_true.mp hany
      rw [List.map_append, List.nodup_append] at h
      exact h.2.2 f.1 (List.mem_map_of_mem hf) field.1 List.mem_cons_self (of_decide_eq_true heq)
    have hset : setField before field = before ++ [field] := by
      rw [setField, if_neg hnew]
    rw [List.foldl_cons, hset, ih]
    · simp
    · simpa using h

lemma stops_itemsText (xs : List Json) (rest : List Char) : Stops (itemsText xs ++ rest) := by
  cases xs <;> (intro c hc; obtain rfl := Option.some.inj hc; decide)

lemma stops_fieldsText (fields : List (String × Json)) (rest : List Char) :
    Stops (fieldsText fields ++ rest) := by
  cases fields <;> (intro c hc; obtain rfl := Option.some.inj hc; decide)

lemma quote_append (name : String) (rest : List Char) :
    quote name ++ rest = '"' :: (name.toList.flatMap escapeChar ++ '"' :: rest) := by
  simp [quote]

structure Reads (k : ℕ) : Prop where
  value : ∀ x rest, x.Sound → Stops rest → (text x).length < k →
    readValue k (text x ++ rest) = some (x, rest)
  items : ∀ x xs rest, x.Sound → SoundItems xs → (text x).length + (itemsText xs).length < k →
    readItems k (text x ++ (itemsText xs ++ rest)) = some (x :: xs, rest)
  fields : ∀ name x fields rest, x.Sound → SoundFields fields →
    (text x).length + (fieldsText fields).length < k →
    readFields k (quote name ++ ':' :: (text x ++ (fieldsText fields ++ rest))) =
      some ((name, x) :: fields, rest)

variable {k : ℕ} {rest : List Char}

lemma readValue_step (ih : Reads k) (x : Json) (hx : x.Sound) (hrest : Stops rest)
    (hk : (text x).length < k + 1) : readValue (k + 1) (text x ++ rest) = some (x, rest) := by
  rw [readValue, skip_text hx]
  cases x with
  | null => rfl
  | bool value => cases value <;> rfl
  | number n =>
    obtain ⟨c, cs, hcs⟩ := List.exists_cons_of_ne_nil (integerText_ne_nil n)
    have hliteral := readLiteral_integerText n hrest
    have hc : c ≠ '"' ∧ c ≠ '[' ∧ c ≠ '{' := by
      rcases mem_integerText (hcs ▸ List.mem_cons_self : c ∈ integerText n) with hdigit | rfl
      · refine ⟨?_, ?_, ?_⟩ <;> (rintro rfl; exact absurd hdigit (by decide))
      · decide
    rw [hcs, List.cons_append] at hliteral
    simp only [text, hcs, List.cons_append, if_neg hc.1, if_neg hc.2.1, if_neg hc.2.2]
    exact hliteral
  | decimal text => exact hx.elim
  | string name =>
    simp only [text, quote_append, if_true, readString_quoted, Option.map_some,
      String.ofList_toList]
  | array items =>
    cases items with
    | nil => simp [text, skip_of_visible (by decide : Visible ']')]
    | cons x xs =>
      obtain ⟨hx, hxs⟩ : x.Sound ∧ SoundItems xs := hx
      obtain ⟨⟨c, cs, hcs, hc, hclose, -⟩, -⟩ := text_ends hx
      have hlength : (text x).length + (itemsText xs).length < k := by
        simp only [text, List.length_cons, List.length_append] at hk
        omega
      have hopen : ¬(skip (text x ++ (itemsText xs ++ rest))).head? = some ']' := by
        rw [skip_text hx, hcs, List.cons_append]
        exact fun h => hclose (Option.some.inj h)
      have hbracket : ¬ '[' = '"' := by decide
      simp only [text, List.cons_append, List.append_assoc, if_neg hbracket, if_true, if_neg hopen,
        ih.items x xs rest hx hxs hlength, Option.map_some]
  | object fields =>
    cases fields with
    | nil => simp [text, skip_of_visible (by decide : Visible '}')]
    | cons field fields =>
      obtain ⟨name, x⟩ := field
      obtain ⟨hnames, hx, hfields⟩ : ((name, x) :: fields |>.map Prod.fst).Nodup ∧ x.Sound ∧
        SoundFields fields := hx
      have hlength : (text x).length + (fieldsText fields).length < k := by
        simp only [text, List.length_cons, List.length_append] at hk
        omega
      have hread := ih.fields name x fields rest hx hfields hlength
      have hopen : ¬(skip (quote name ++ ':' :: (text x ++ (fieldsText fields ++ rest)))).head? =
          some '}' := by
        rw [quote_append, skip_of_visible (by decide)]
        exact fun h => absurd (Option.some.inj h) (by decide)
      have hquote : ¬ '{' = '"' := by decide
      have hbracket : ¬ '{' = '[' := by decide
      have hfields : ((name, x) :: fields).foldl setField [] = [] ++ (name, x) :: fields :=
        foldl_setField hnames
      simp only [text, List.cons_append, List.append_assoc, if_neg hquote, if_neg hbracket, if_true,
        if_neg hopen, hread, Option.map_some, hfields, List.nil_append]

lemma readItems_step (ih : Reads k) (x : Json) (xs : List Json) (hx : x.Sound) (hxs : SoundItems xs)
    (hk : (text x).length + (itemsText xs).length < k + 1) :
    readItems (k + 1) (text x ++ (itemsText xs ++ rest)) = some (x :: xs, rest) := by
  have hclose : 0 < (itemsText xs).length := by cases xs <;> simp [itemsText]
  rw [readItems, ih.value x _ hx (stops_itemsText xs rest) (by omega)]
  cases xs with
  | nil => simp [itemsText, skip_of_visible (by decide : Visible ']')]
  | cons y ys =>
    have hopen : 0 < (text x).length := by
      obtain ⟨⟨c, cs, hcs, -⟩, -⟩ := text_ends hx
      rw [hcs]
      exact Nat.succ_pos _
    have hlength : (text y).length + (itemsText ys).length < k := by
      simp only [itemsText, List.length_cons, List.length_append] at hk
      omega
    simp only [itemsText, List.cons_append, List.append_assoc,
      skip_of_visible (by decide : Visible ','), ih.items y ys rest hxs.1 hxs.2 hlength,
      Option.map_some]

lemma readFields_step (ih : Reads k) (name : String) (x : Json) (fields : List (String × Json))
    (hx : x.Sound) (hfields : SoundFields fields)
    (hk : (text x).length + (fieldsText fields).length < k + 1) :
    readFields (k + 1) (quote name ++ ':' :: (text x ++ (fieldsText fields ++ rest))) =
      some ((name, x) :: fields, rest) := by
  have hclose : 0 < (fieldsText fields).length := by
    cases fields <;> simp [fieldsText]
  have hvalue := ih.value x (fieldsText fields ++ rest) hx (stops_fieldsText fields rest) (by omega)
  rw [readFields, quote_append, skip_of_visible (by decide)]
  simp only [readString_quoted, skip_of_visible (by decide : Visible ':'), hvalue]
  cases fields with
  | nil => simp [fieldsText, skip_of_visible (by decide : Visible '}')]
  | cons field fields =>
    obtain ⟨name', y⟩ := field
    have hopen : 0 < (text x).length := by
      obtain ⟨⟨c, cs, hcs, -⟩, -⟩ := text_ends hx
      rw [hcs]
      exact Nat.succ_pos _
    have hlength : (text y).length + (fieldsText fields).length < k := by
      simp only [fieldsText, List.length_cons, List.length_append] at hk
      omega
    simp only [fieldsText, List.cons_append, List.append_assoc,
      skip_of_visible (by decide : Visible ','),
      ih.fields name' y fields rest hfields.1 hfields.2 hlength, Option.map_some,
      String.ofList_toList]

lemma reads (k : ℕ) : Reads k := by
  induction k with
  | zero =>
    exact ⟨fun _ _ _ _ h => absurd h (Nat.not_lt_zero _),
      fun _ _ _ _ _ h => absurd h (Nat.not_lt_zero _),
      fun _ _ _ _ _ _ h => absurd h (Nat.not_lt_zero _)⟩
  | succ k ih =>
    exact ⟨fun x _ hx hrest hk => readValue_step ih x hx hrest hk,
      fun x xs _ hx hxs hk => readItems_step ih x xs hx hxs hk,
      fun name x fields _ hx hfields hk => readFields_step ih name x fields hx hfields hk⟩

theorem parse_text {x : Json} (hx : x.Sound) : parse (text x) = some x := by
  have hread := (reads ((text x).length + 1)).value x [] hx (fun c hc => by cases hc)
    (Nat.lt_succ_self _)
  rw [List.append_nil] at hread
  rw [parse, hread]
  rfl

lemma text_injective {x y : Json} (hx : x.Sound) (hy : y.Sound) (h : text x = text y) : x = y := by
  have hparse := parse_text hx
  rw [h, parse_text hy] at hparse
  exact (Option.some.inj hparse).symm

lemma printable_escapeChar {c d : Char} (hd : d ∈ escapeChar c) : 32 ≤ d.toNat := by
  have hhex : ∀ n : Fin 16, 32 ≤ (hexDigit n.val).toNat := by decide
  have hcontrol : c.toNat < 32 →
      ∀ e ∈ ['\\', 'u', '0', '0', hexDigit (c.toNat / 16), hexDigit (c.toNat % 16)],
        32 ≤ e.toNat := by
    intro h e he
    simp only [List.mem_cons, List.not_mem_nil, or_false] at he
    rcases he with rfl | rfl | rfl | rfl | rfl | rfl
    · decide
    · decide
    · decide
    · decide
    · exact hhex ⟨c.toNat / 16, by omega⟩
    · exact hhex ⟨c.toNat % 16, by omega⟩
  have hescape : ∀ e : Char, 32 ≤ e.toNat → ∀ d ∈ ['\\', e], 32 ≤ d.toNat := by
    intro e he d hd
    rcases List.mem_pair.mp hd with rfl | rfl
    · decide
    · exact he
  unfold escapeChar at hd
  split_ifs at hd with _ _ _ _ _ _ _ h
  · exact hescape _ (by decide) d hd
  · exact hescape _ (by decide) d hd
  · exact hescape _ (by decide) d hd
  · exact hescape _ (by decide) d hd
  · exact hescape _ (by decide) d hd
  · exact hescape _ (by decide) d hd
  · exact hescape _ (by decide) d hd
  · exact hcontrol h d hd
  · obtain rfl := List.mem_singleton.mp hd
    omega

lemma printable_quote {name : String} {c : Char} (hc : c ∈ quote name) : 32 ≤ c.toNat := by
  have hquote : 32 ≤ '"'.toNat := by decide
  simp only [quote, List.mem_cons, List.mem_append, List.mem_flatMap, List.not_mem_nil,
    or_false] at hc
  obtain rfl | ⟨d, -, hd⟩ | rfl := hc
  · exact hquote
  · exact printable_escapeChar hd
  · exact hquote

mutual

theorem printable_text : ∀ x : Json, x.Sound → ∀ c ∈ text x, 32 ≤ c.toNat
  | .null, _, c, hc => by
    have hall : ∀ c ∈ ['n', 'u', 'l', 'l'], 32 ≤ c.toNat := by simp
    exact hall c hc
  | .bool true, _, c, hc => by
    have hall : ∀ c ∈ ['t', 'r', 'u', 'e'], 32 ≤ c.toNat := by simp
    exact hall c hc
  | .bool false, _, c, hc => by
    have hall : ∀ c ∈ ['f', 'a', 'l', 's', 'e'], 32 ≤ c.toNat := by simp
    exact hall c hc
  | .number _, _, c, hc => Nat.le_of_succ_le (visible_integerText hc).1
  | .decimal _, hx, _, _ => hx.elim
  | .string _, _, c, hc => printable_quote hc
  | .array [], _, c, hc => by
    rcases List.mem_pair.mp hc with rfl | rfl <;> decide
  | .array (x :: xs), hx, c, hc => by
    rcases List.mem_cons.mp hc with rfl | hc
    · decide
    rcases List.mem_append.mp hc with hc | hc
    · exact printable_text x hx.1 c hc
    · exact printable_itemsText xs hx.2 c hc
  | .object [], _, c, hc => by
    rcases List.mem_pair.mp hc with rfl | rfl <;> decide
  | .object ((_, x) :: fields), hx, c, hc => by
    rcases List.mem_cons.mp hc with rfl | hc
    · decide
    rcases List.mem_append.mp hc with hc | hc
    · exact printable_quote hc
    rcases List.mem_cons.mp hc with rfl | hc
    · decide
    rcases List.mem_append.mp hc with hc | hc
    · exact printable_text x hx.2.1 c hc
    · exact printable_fieldsText fields hx.2.2 c hc

theorem printable_itemsText : ∀ xs : List Json, SoundItems xs → ∀ c ∈ itemsText xs, 32 ≤ c.toNat
  | [], _, c, hc => by
    obtain rfl := List.mem_singleton.mp hc
    decide
  | x :: xs, hxs, c, hc => by
    rcases List.mem_cons.mp hc with rfl | hc
    · decide
    rcases List.mem_append.mp hc with hc | hc
    · exact printable_text x hxs.1 c hc
    · exact printable_itemsText xs hxs.2 c hc

theorem printable_fieldsText : ∀ fields : List (String × Json), SoundFields fields →
    ∀ c ∈ fieldsText fields, 32 ≤ c.toNat
  | [], _, c, hc => by
    obtain rfl := List.mem_singleton.mp hc
    decide
  | (_, x) :: fields, hfields, c, hc => by
    rcases List.mem_cons.mp hc with rfl | hc
    · decide
    rcases List.mem_append.mp hc with hc | hc
    · exact printable_quote hc
    rcases List.mem_cons.mp hc with rfl | hc
    · decide
    rcases List.mem_append.mp hc with hc | hc
    · exact printable_text x hfields.1 c hc
    · exact printable_fieldsText fields hfields.2 c hc

end

end Json

end Janus.Data
