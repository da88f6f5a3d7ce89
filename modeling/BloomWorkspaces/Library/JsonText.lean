import BloomWorkspaces.Library.Utf16
import Mathlib.Data.Int.Notation

/-!
# JSON texts

The texts that `JSON.stringify` writes, and their sizes in bytes. The strings in them are sequences of
16-bit units; a lone surrogate is escaped.
-/

namespace JsonText

/-- The digits are in lower case. -/
def hexDigit (n : ℕ) : Char := Char.ofNat (if n < 10 then 48 + n else 87 + n)

def escapeUnit (u : ℕ) : List Char :=
  ['\\', 'u', hexDigit (u / 4096 % 16), hexDigit (u / 256 % 16), hexDigit (u / 16 % 16),
    hexDigit (u % 16)]

def quoteChar (c : Char) : List Char :=
  if c = '"' ∨ c = '\\' then ['\\', c]
  else if c = '\x08' then ['\\', 'b']
  else if c = '\t' then ['\\', 't']
  else if c = '\n' then ['\\', 'n']
  else if c = '\x0c' then ['\\', 'f']
  else if c = '\r' then ['\\', 'r']
  else if c.val.toNat < 32 then escapeUnit c.val.toNat
  else [c]

/-- What stands between the quotes. -/
def quoteUnits : List UInt16 → List Char
  | [] => []
  | u :: rest =>
    if u.toNat < 55296 ∨ 57343 < u.toNat then quoteChar (Char.ofNat u.toNat) ++ quoteUnits rest
    else
      match rest with
      | [] => escapeUnit u.toNat
      | v :: rest' =>
        if u.toNat < 56320 ∧ 56320 ≤ v.toNat ∧ v.toNat < 57344 then
          Char.ofNat (65536 + (u.toNat - 55296) * 1024 + (v.toNat - 56320)) :: quoteUnits rest'
        else escapeUnit u.toNat ++ quoteUnits (v :: rest')

def string (units : List UInt16) : List Char := ['"'] ++ quoteUnits units ++ ['"']

def number (n : ℕ) : List Char := Nat.toDigits 10 n

def integer (n : ℤ) : List Char :=
  (if n < 0 then ['-'] else []) ++ number n.natAbs

def bool (b : Bool) : List Char := if b then ['t', 'r', 'u', 'e'] else ['f', 'a', 'l', 's', 'e']

def array (items : List (List Char)) : List Char := ['['] ++ [','].intercalate items ++ [']']

/-- A field of an object, from the text of its value. -/
def field (key : List UInt16) (value : List Char) : List Char := string key ++ [':'] ++ value

def object (fields : List (List Char)) : List Char := ['{'] ++ [','].intercalate fields ++ ['}']

/-- The bytes of a text. -/
def size (text : List Char) : ℕ := (Utf8.encode text).length

/-! ### Sizes -/

@[simp] lemma size_nil : size [] = 0 := rfl

@[simp] lemma size_append (text text' : List Char) : size (text ++ text') = size text + size text' := by
  rw [size, Utf8.encode_append, List.length_append]
  rfl

lemma size_singleton (c : Char) : size [c] = c.utf8Size := by
  rw [size, Utf8.encode_cons, List.length_append, String.length_utf8EncodeChar]
  rfl

lemma size_cons (c : Char) (text : List Char) : size (c :: text) = c.utf8Size + size text := by
  rw [← size_singleton, ← size_append]
  rfl

lemma utf8Size_of_ascii {c : Char} (h : c.val.toNat < 128) : c.utf8Size = 1 := by
  have hle : c.val ≤ 127 := UInt32.le_iff_toNat_le.mpr (Nat.le_of_lt_succ h)
  exact if_pos hle

lemma utf8Size_le (c : Char) : c.utf8Size ≤ 4 := Char.utf8Size_le_four c

/-- An ASCII text has a byte for each character. -/
lemma size_of_ascii {text : List Char} (h : ∀ c ∈ text, c.val.toNat < 128) : size text = text.length := by
  induction text with
  | nil => rfl
  | cons c text ih =>
    rw [size_cons, utf8Size_of_ascii (h c List.mem_cons_self),
      ih fun d hd => h d (List.mem_cons_of_mem _ hd), List.length_cons, Nat.add_comm]

lemma hexDigit_ascii : ∀ n < 16, (hexDigit n).val.toNat < 128 := by decide

lemma size_escapeUnit (u : ℕ) : size (escapeUnit u) = 6 := by
  have hdigit : ∀ n, (hexDigit (n % 16)).val.toNat < 128 := fun n =>
    hexDigit_ascii _ (Nat.mod_lt n (by decide))
  rw [size_of_ascii]
  · rfl
  · simp only [escapeUnit, List.mem_cons, List.not_mem_nil, or_false]
    rintro c (rfl | rfl | rfl | rfl | rfl | rfl)
    · decide
    · decide
    · exact hdigit _
    · exact hdigit _
    · exact hdigit _
    · exact hdigit _

lemma size_quoteChar_le (c : Char) : size (quoteChar c) ≤ 6 := by
  have hpair : ∀ d : Char, size ['\\', d] ≤ 6 := by
    intro d
    have hslash : ('\\').utf8Size = 1 := rfl
    have hd := utf8Size_le d
    rw [size_cons, size_singleton]
    omega
  rw [quoteChar]
  split_ifs
  · exact hpair c
  · exact hpair 'b'
  · exact hpair 't'
  · exact hpair 'n'
  · exact hpair 'f'
  · exact hpair 'r'
  · exact Nat.le_of_eq (size_escapeUnit _)
  · have hc := utf8Size_le c
    rw [size_singleton]
    omega

/-- A unit that is no surrogate. -/
lemma quoteUnits_plain {u : UInt16} (h : u.toNat < 55296 ∨ 57343 < u.toNat) (rest : List UInt16) :
    quoteUnits (u :: rest) = quoteChar (Char.ofNat u.toNat) ++ quoteUnits rest := by
  cases rest with
  | nil => conv_lhs => rw [quoteUnits, if_pos h]
  | cons v rest => conv_lhs => rw [quoteUnits, if_pos h]

lemma quoteUnits_lone {u : UInt16} (h : ¬(u.toNat < 55296 ∨ 57343 < u.toNat)) :
    quoteUnits [u] = escapeUnit u.toNat := by
  rw [quoteUnits, if_neg h]

lemma quoteUnits_surrogate {u : UInt16} (h : ¬(u.toNat < 55296 ∨ 57343 < u.toNat)) (v : UInt16)
    (rest : List UInt16) :
    quoteUnits (u :: v :: rest) =
      if u.toNat < 56320 ∧ 56320 ≤ v.toNat ∧ v.toNat < 57344 then
        Char.ofNat (65536 + (u.toNat - 55296) * 1024 + (v.toNat - 56320)) :: quoteUnits rest
      else escapeUnit u.toNat ++ quoteUnits (v :: rest) := by
  rw [quoteUnits, if_neg h]

/-- No unit takes more than six bytes. -/
lemma size_quoteUnits_le (units : List UInt16) : size (quoteUnits units) ≤ 6 * units.length := by
  induction units using quoteUnits.induct with
  | case1 => exact Nat.zero_le _
  | case2 u rest hplain ih =>
    have hc := size_quoteChar_le (Char.ofNat u.toNat)
    rw [quoteUnits_plain hplain, size_append, List.length_cons]
    omega
  | case3 u hplain =>
    rw [quoteUnits_lone hplain, size_escapeUnit]
    exact Nat.le_refl 6
  | case4 u hplain v rest' hpair ih =>
    have hc := utf8Size_le (Char.ofNat (65536 + (u.toNat - 55296) * 1024 + (v.toNat - 56320)))
    rw [quoteUnits_surrogate hplain, if_pos hpair, size_cons, List.length_cons, List.length_cons]
    omega
  | case5 u hplain v rest' hpair ih =>
    rw [quoteUnits_surrogate hplain, if_neg hpair, size_append, size_escapeUnit, List.length_cons]
    omega

lemma size_string_le (units : List UInt16) : size (string units) ≤ 6 * units.length + 2 := by
  have hunits := size_quoteUnits_le units
  have hquote : size ['"'] = 1 := rfl
  rw [string, size_append, size_append, hquote]
  omega

/-- ASCII characters that need no escape. -/
def isBare (c : Char) : Bool := 32 ≤ c.val.toNat && c.val.toNat < 128 && c ≠ '"' && c ≠ '\\'

lemma isBare_of_isAlphanum {c : Char} (h : c.isAlphanum = true) : isBare c = true := by
  have hval : 48 ≤ c.val.toNat ∧ c.val.toNat ≤ 122 ∧ c.val.toNat ≠ 92 := by
    delta Char.isAlphanum Char.isAlpha Char.isUpper Char.isLower Char.isDigit at h
    simp only [Bool.or_eq_true, Bool.and_eq_true, decide_eq_true_eq, ge_iff_le,
      UInt32.le_iff_toNat_le] at h
    change (65 ≤ c.val.toNat ∧ c.val.toNat ≤ 90 ∨ 97 ≤ c.val.toNat ∧ c.val.toNat ≤ 122) ∨
      48 ≤ c.val.toNat ∧ c.val.toNat ≤ 57 at h
    omega
  have hne : ∀ d : Char, d.val.toNat < 48 ∨ d.val.toNat = 92 → c ≠ d := by
    rintro d hd rfl
    omega
  simp only [isBare, Bool.and_eq_true, decide_eq_true_eq]
  exact ⟨⟨⟨by omega, by omega⟩, hne _ (by decide)⟩, hne _ (by decide)⟩

lemma quoteChar_of_bare {c : Char} (h : isBare c = true) : quoteChar c = [c] := by
  simp only [isBare, Bool.and_eq_true, decide_eq_true_eq] at h
  obtain ⟨⟨⟨hlow, -⟩, hquote⟩, hslash⟩ := h
  have hcontrol : ∀ d : Char, d.val.toNat < 32 → c ≠ d := by
    rintro d hd rfl
    omega
  rw [quoteChar, if_neg (not_or.mpr ⟨hquote, hslash⟩), if_neg (hcontrol _ (by decide)),
    if_neg (hcontrol _ (by decide)), if_neg (hcontrol _ (by decide)),
    if_neg (hcontrol _ (by decide)), if_neg (hcontrol _ (by decide)), if_neg (by omega)]

/-- A text of such characters is written as it is. -/
lemma quoteUnits_of_bare {text : List Char} (h : ∀ c ∈ text, isBare c = true) :
    quoteUnits (Utf16.encode text) = text := by
  induction text with
  | nil => rfl
  | cons c text ih =>
    have hc := h c List.mem_cons_self
    have hsmall : c.val.toNat < 128 := by
      simp only [isBare, Bool.and_eq_true, decide_eq_true_eq] at hc
      exact hc.1.1.2
    have hunit := Utf16.toNat_ofNat (Nat.lt_trans hsmall (by decide : 128 < 65536))
    rw [Utf16.encode_cons, Utf16.encodeChar, if_pos (by omega), List.singleton_append,
      quoteUnits_plain (by omega), hunit, Utf16.ofNat_val, quoteChar_of_bare hc,
      ih fun d hd => h d (List.mem_cons_of_mem _ hd)]
    rfl

lemma size_string_of_bare {text : List Char} (h : ∀ c ∈ text, isBare c = true) :
    size (string (Utf16.encode text)) = text.length + 2 := by
  have hquote : size ['"'] = 1 := rfl
  have hascii : ∀ c ∈ text, c.val.toNat < 128 := by
    intro c hc
    have hbare := h c hc
    simp only [isBare, Bool.and_eq_true, decide_eq_true_eq] at hbare
    exact hbare.1.1.2
  rw [string, quoteUnits_of_bare h, size_append, size_append, hquote, size_of_ascii hascii]
  omega

lemma size_number_le {n k : ℕ} (hk : 0 < k) (h : n < 10 ^ k) : size (number n) ≤ k := by
  have hdigits : ∀ c ∈ Nat.toDigits 10 n, c.val.toNat < 128 := by
    intro c hc
    have hdigit := Nat.isDigit_of_mem_toDigits (by decide) (by decide) hc
    simp only [Char.isDigit, Bool.and_eq_true, decide_eq_true_eq] at hdigit
    have hle := UInt32.le_iff_toNat_le.mp hdigit.2
    exact Nat.lt_of_le_of_lt hle (by decide)
  rw [number, size_of_ascii hdigits]
  exact (Nat.length_toDigits_le_iff (by decide) hk).mpr h

lemma integer_of_nonneg {n : ℤ} (h : 0 ≤ n) : integer n = number n.natAbs := by
  rw [integer, if_neg (Int.not_lt.mpr h), List.nil_append]

lemma size_bool_le (b : Bool) : size (bool b) ≤ 5 := by
  cases b
  · decide
  · decide

/-! ### Sizes of objects -/

section Objects

variable {key : List UInt16} {value : List Char} {fields : List (List Char)}

lemma size_field (key : List UInt16) (value : List Char) :
    size (field key value) = size (string key) + size value + 1 := by
  have hcolon : size [':'] = 1 := rfl
  rw [field, size_append, size_append, hcolon]
  omega

/-- There is a separator between any two items. -/
lemma size_intercalate (items : List (List Char)) :
    size ([','].intercalate items) = (items.map size).sum + (items.length - 1) := by
  have hcomma : size [','] = 1 := rfl
  induction items with
  | nil => rfl
  | cons item items ih =>
    cases items with
    | nil => simp [List.intercalate]
    | cons item' items =>
      rw [List.intercalate_cons_cons, size_append, size_append, hcomma, ih]
      simp only [List.map_cons, List.sum_cons, List.length_cons]
      omega

lemma size_array (items : List (List Char)) :
    size (array items) = (items.map size).sum + (items.length - 1) + 2 := by
  have hopen : size ['['] = 1 := rfl
  have hclose : size [']'] = 1 := rfl
  rw [array, size_append, size_append, hopen, hclose, size_intercalate]
  omega

lemma size_object (fields : List (List Char)) :
    size (object fields) = (fields.map size).sum + (fields.length - 1) + 2 := by
  have hopen : size ['{'] = 1 := rfl
  have hclose : size ['}'] = 1 := rfl
  rw [object, size_append, size_append, hopen, hclose, size_intercalate]
  omega

/-- Brackets and separators only add to the size of the items. -/
lemma sum_size_le_object (fields : List (List Char)) :
    (fields.map size).sum ≤ size (object fields) := by
  rw [size_object]
  omega

lemma sum_size_le_array (items : List (List Char)) : (items.map size).sum ≤ size (array items) := by
  rw [size_array]
  omega

lemma size_array_le (items : List (List Char)) :
    size (array items) ≤ (items.map size).sum + items.length + 2 := by
  rw [size_array]
  omega

lemma size_object_le (fields : List (List Char)) :
    size (object fields) ≤ (fields.map size).sum + fields.length + 2 := by
  rw [size_object]
  omega

end Objects

end JsonText
