import Mathlib.Algebra.GroupWithZero.Nat
import Mathlib.Data.List.Basic
import Mathlib.Data.List.Induction
import Mathlib.Data.Nat.Notation

/-!
# ASCII texts

Texts are lists of characters. Splitting a text at a character is `List.splitOn`.
-/

namespace Ascii

/-- Membership in a list of texts is decided by this one constant. -/
instance lawfulBEqText : LawfulBEq (List Char) := inferInstance

def isHexDigit (c : Char) : Bool :=
  c.isDigit || ('a' ≤ c && c ≤ 'f') || ('A' ≤ c && c ≤ 'F')

def hexValue (c : Char) : ℕ :=
  if c.isDigit then c.toNat - 48 else if 'a' ≤ c then c.toNat - 87 else c.toNat - 55

/-- The number that a text of hexadecimal digits denotes. -/
def hexNumber (digits : List Char) : ℕ := digits.foldl (fun n c => n * 16 + hexValue c) 0

/-- The number that a text of decimal digits denotes. -/
def decimalNumber (digits : List Char) : ℕ := digits.foldl (fun n c => n * 10 + (c.toNat - 48)) 0

def toLower (text : List Char) : List Char := text.map Char.toLower

/-- Split a text at each occurrence of two colons. -/
def splitOnColons : List Char → List (List Char)
  | ':' :: ':' :: rest => [] :: splitOnColons rest
  | c :: rest =>
    match splitOnColons rest with
    | head :: tail => (c :: head) :: tail
    | [] => [[c]]
  | [] => [[]]

/-- The text before and the text after the last occurrence of `c`. -/
def splitAtLast (c : Char) (text : List Char) : Option (List Char × List Char) :=
  if c ∈ text then
    let after := (text.reverse.takeWhile (· ≠ c)).reverse
    some (text.take (text.length - after.length - 1), after)
  else none

/-- The last occurrence is the one that no other follows. -/
lemma splitAtLast_append {c : Char} {after : List Char} (before : List Char) (h : c ∉ after) :
    splitAtLast c (before ++ c :: after) = some (before, after) := by
  have htail : (before ++ c :: after).reverse.takeWhile (· ≠ c) = after.reverse := by
    rw [List.reverse_append, List.reverse_cons, List.append_assoc, List.takeWhile_append_of_pos]
    · simp
    · intro d hd
      have hne : d ≠ c := by
        rintro rfl
        exact h (List.mem_reverse.mp hd)
      simpa using hne
  rw [splitAtLast, if_pos (List.mem_append_right _ List.mem_cons_self)]
  simp only [htail, List.reverse_reverse]
  congr 2
  rw [List.length_append, List.length_cons]
  have hlength : before.length + (after.length + 1) - after.length - 1 = before.length := by omega
  rw [hlength, List.take_left]

/-! ### Lower case -/

lemma charToLower_toLower (c : Char) : c.toLower.toLower = c.toLower := by
  by_cases hupper : c.val ≥ 'A'.val ∧ c.val ≤ 'Z'.val
  · have hlower : c.toLower.val = c.val + ('a'.val - 'A'.val) :=
      congrArg Char.val (dif_pos hupper : c.toLower = _)
    have hnot : ¬(c.toLower.val ≥ 'A'.val ∧ c.toLower.val ≤ 'Z'.val) := by
      have hlow := UInt32.le_iff_toNat_le.mp hupper.1
      have hhigh := UInt32.le_iff_toNat_le.mp hupper.2
      have hA : 'A'.val.toNat = 65 := rfl
      have hZ : 'Z'.val.toNat = 90 := rfl
      have hshift : ('a'.val - 'A'.val).toNat = 32 := rfl
      rintro ⟨-, hle⟩
      have hsum := UInt32.le_iff_toNat_le.mp hle
      rw [hlower, UInt32.toNat_add, hshift] at hsum
      omega
    exact (dif_neg hnot : c.toLower.toLower = _)
  · have hsame : c.toLower = c := dif_neg hupper
    rw [hsame, hsame]

lemma toLower_of_isDigit {c : Char} (h : c.isDigit = true) : c.toLower = c := by
  simp only [Char.isDigit, Bool.and_eq_true, decide_eq_true_eq] at h
  have hdigit := UInt32.le_iff_toNat_le.mp h.2
  have hnot : ¬(c.val ≥ 'A'.val ∧ c.val ≤ 'Z'.val) := by
    rintro ⟨hupper, -⟩
    exact absurd (Nat.le_trans (UInt32.le_iff_toNat_le.mp hupper) hdigit) (by decide)
  exact dif_neg hnot

lemma toLower_toLower (text : List Char) : toLower (toLower text) = toLower text := by
  rw [toLower, toLower, List.map_map]
  exact List.map_congr_left fun c _ => charToLower_toLower c

/-! ### Hexadecimal numbers -/

lemma hexNumber_concat (digits : List Char) (c : Char) :
    hexNumber (digits ++ [c]) = hexNumber digits * 16 + hexValue c := by
  rw [hexNumber, List.foldl_append]
  rfl

/-- `toString(16)` writes digits of the number in lower case. -/
lemma hexNumber_toDigits (n : ℕ) : hexNumber (Nat.toDigits 16 n) = n ∧
    (Nat.toDigits 16 n).all (fun c => c.isDigit || ('a' ≤ c && c ≤ 'f')) = true := by
  have hdigit : ∀ k < 16, hexValue (Nat.digitChar k) = k ∧
      ((Nat.digitChar k).isDigit || ('a' ≤ Nat.digitChar k && Nat.digitChar k ≤ 'f')) = true := by
    decide
  induction n using Nat.strongRecOn with
  | ind n ih =>
    by_cases hsmall : n < 16
    · rw [Nat.toDigits_of_lt_base hsmall, ← List.nil_append [n.digitChar], hexNumber_concat,
        (hdigit n hsmall).1]
      exact ⟨by simp [hexNumber], by simpa using (hdigit n hsmall).2⟩
    · have hlast := hdigit (n % 16) (Nat.mod_lt n (by decide))
      obtain ⟨hnumber, hall⟩ := ih (n / 16) (by omega)
      rw [Nat.toDigits_of_base_le (by decide) (by omega), hexNumber_concat, hnumber, hlast.1,
        List.all_append, hall]
      exact ⟨by omega, by simpa using hlast.2⟩

lemma toNat_lt_of_isHexDigit {c : Char} (h : isHexDigit c = true) : c.toNat < 128 := by
  simp only [isHexDigit, Char.isDigit, Bool.or_eq_true, Bool.and_eq_true, decide_eq_true_eq,
    Char.le_def, UInt32.le_iff_toNat_le, ge_iff_le] at h
  change c.val.toNat < 128
  rcases h with (⟨-, hle⟩ | ⟨-, hle⟩) | ⟨-, hle⟩
  · exact Nat.lt_of_le_of_lt hle (by decide)
  · exact Nat.lt_of_le_of_lt hle (by decide)
  · exact Nat.lt_of_le_of_lt hle (by decide)

/-- A digit in lower case. -/
lemma toLower_of_isHexDigit {c : Char} (h : isHexDigit c = true) :
    (c.toLower.isDigit || ('a' ≤ c.toLower && c.toLower ≤ 'f')) = true ∧
      hexValue c.toLower = hexValue c := by
  have hsmall : ∀ m < 128, isHexDigit (Char.ofNat m) = true →
      ((Char.ofNat m).toLower.isDigit ||
        ('a' ≤ (Char.ofNat m).toLower && (Char.ofNat m).toLower ≤ 'f')) = true ∧
      hexValue (Char.ofNat m).toLower = hexValue (Char.ofNat m) := by decide +kernel
  have hlt := toNat_lt_of_isHexDigit h
  have hchar : Char.ofNat c.toNat = c := Char.ofNat_toNat c
  rw [← hchar] at h ⊢
  exact hsmall c.toNat hlt h

lemma hexValue_lt {c : Char} (h : isHexDigit c = true) : hexValue c < 16 := by
  have hsmall : ∀ m < 128, isHexDigit (Char.ofNat m) = true → hexValue (Char.ofNat m) < 16 := by
    decide +kernel
  have hlt := toNat_lt_of_isHexDigit h
  have hchar : Char.ofNat c.toNat = c := Char.ofNat_toNat c
  rw [← hchar] at h ⊢
  exact hsmall c.toNat hlt h

lemma hexNumber_lt {digits : List Char} (h : ∀ c ∈ digits, isHexDigit c = true) :
    hexNumber digits < 16 ^ digits.length := by
  induction digits using List.reverseRecOn with
  | nil => decide
  | append_singleton digits c ih =>
    have hfront := ih fun d hin => h d (List.mem_append_left _ hin)
    have hlast := hexValue_lt (h c (List.mem_append_right _ (List.mem_singleton_self c)))
    rw [hexNumber_concat, List.length_append, List.length_singleton, Nat.pow_succ]
    omega

lemma hexNumber_toLower {digits : List Char} (h : ∀ c ∈ digits, isHexDigit c = true) :
    hexNumber (toLower digits) = hexNumber digits := by
  induction digits using List.reverseRecOn with
  | nil => rfl
  | append_singleton digits c ih =>
    have hlast := (toLower_of_isHexDigit (h c (by simp))).2
    rw [toLower, List.map_append, List.map_singleton, hexNumber_concat, hexNumber_concat, hlast]
    congr 2
    exact ih fun d hd => h d (List.mem_append_left _ hd)

/-! ### Splitting -/

section Splitting

variable {α : Type*} [BEq α] [LawfulBEq α] {a : α} {text piece : List α}

/-- The pieces of a split text do not contain the separator. -/
lemma not_mem_of_mem_splitOn (h : piece ∈ text.splitOn a) : a ∉ piece := by
  induction text generalizing piece with
  | nil =>
    rw [List.splitOn_nil, List.mem_singleton] at h
    rw [h]
    exact List.not_mem_nil
  | cons c text ih =>
    rw [List.splitOn_cons_eq_if_modifyHead] at h
    split at h
    · rcases List.mem_cons.mp h with rfl | hrest
      · exact List.not_mem_nil
      · exact ih hrest
    · rename_i hc
      have hne : a ≠ c := fun heq => hc (beq_iff_eq.mpr heq.symm)
      obtain ⟨head, tail, hsplit⟩ := List.exists_cons_of_ne_nil (List.splitOn_ne_nil a text)
      rw [hsplit, List.modifyHead_cons] at h
      rw [hsplit] at ih
      rcases List.mem_cons.mp h with rfl | hrest
      · rw [List.mem_cons, not_or]
        exact ⟨hne, ih List.mem_cons_self⟩
      · exact ih (List.mem_cons_of_mem _ hrest)

omit [LawfulBEq α] in
/-- The pieces of a split text hold nothing new. -/
lemma mem_of_mem_splitOn {c : α} (h : piece ∈ text.splitOn a) (hc : c ∈ piece) : c ∈ text := by
  induction text generalizing piece with
  | nil =>
    rw [List.splitOn_nil, List.mem_singleton] at h
    rw [h] at hc
    exact hc
  | cons d text ih =>
    obtain ⟨head, tail, hsplit⟩ := List.exists_cons_of_ne_nil (List.splitOn_ne_nil a text)
    rw [hsplit] at ih
    rw [List.splitOn_cons_eq_if_modifyHead, hsplit] at h
    split at h
    · rcases List.mem_cons.mp h with rfl | hrest
      · exact absurd hc List.not_mem_nil
      · exact List.mem_cons_of_mem _ (ih hrest hc)
    · rw [List.modifyHead_cons] at h
      rcases List.mem_cons.mp h with rfl | hrest
      · rcases List.mem_cons.mp hc with rfl | hc
        · exact List.mem_cons_self
        · exact List.mem_cons_of_mem _ (ih List.mem_cons_self hc)
      · exact List.mem_cons_of_mem _ (ih (List.mem_cons_of_mem _ hrest) hc)

/-- Everything in a text is a separator or in one of its pieces. -/
lemma eq_or_mem_splitOn {c : α} (a : α) (hc : c ∈ text) :
    c = a ∨ ∃ piece ∈ text.splitOn a, c ∈ piece := by
  induction text with
  | nil => exact absurd hc List.not_mem_nil
  | cons d text ih =>
    obtain ⟨head, tail, hsplit⟩ := List.exists_cons_of_ne_nil (List.splitOn_ne_nil a text)
    rw [hsplit] at ih
    rw [List.splitOn_cons_eq_if_modifyHead, hsplit]
    split
    · rename_i hd
      rcases List.mem_cons.mp hc with rfl | hin
      · exact Or.inl (beq_iff_eq.mp hd)
      · exact (ih hin).imp_right fun ⟨piece, hpiece, hmem⟩ =>
          ⟨piece, List.mem_cons_of_mem _ hpiece, hmem⟩
    · rw [List.modifyHead_cons]
      rcases List.mem_cons.mp hc with rfl | hin
      · exact Or.inr ⟨c :: head, List.mem_cons_self, List.mem_cons_self⟩
      · rcases ih hin with heq | ⟨piece, hpiece, hmem⟩
        · exact Or.inl heq
        · refine Or.inr ?_
          rcases List.mem_cons.mp hpiece with rfl | htail
          · exact ⟨d :: piece, List.mem_cons_self, List.mem_cons_of_mem _ hmem⟩
          · exact ⟨piece, List.mem_cons_of_mem _ htail, hmem⟩

/-- The pieces of a text that starts with the separator start with an empty one. -/
lemma nil_mem_splitOn_of_head (h : text.head? = some a) : [] ∈ text.splitOn a := by
  obtain ⟨rest, rfl⟩ := List.head?_eq_some_iff.mp h
  rw [← List.nil_append (a :: rest), List.splitOn_append_cons_self]
  simp

/-- The pieces of a text that ends with the separator end with an empty one. -/
lemma nil_mem_splitOn_of_getLast (h : text.getLast? = some a) : [] ∈ text.splitOn a := by
  obtain ⟨front, rfl⟩ := List.getLast?_eq_some_iff.mp h
  rw [List.splitOn_append_cons_self]
  simp

end Splitting

/-! ### Splitting at two colons -/

section Colons

variable {c : Char} {text piece : List Char} {pieces : List (List Char)}

lemma splitOnColons_ne_nil (text : List Char) : splitOnColons text ≠ [] := by
  induction text using splitOnColons.induct with
  | case1 rest ih => simp [splitOnColons]
  | case2 c rest hnot head tail hsplit ih =>
    rw [splitOnColons, hsplit]
    · exact List.cons_ne_nil _ _
    · exact hnot
  | case3 c rest hnot hsplit ih => exact absurd hsplit ih
  | case4 => simp [splitOnColons]

/-- A character that does not begin two colons goes to the first piece. -/
lemma splitOnColons_cons (h : c ≠ ':' ∨ text.head? ≠ some ':') :
    splitOnColons (c :: text) = (splitOnColons text).modifyHead (c :: ·) := by
  obtain ⟨head, tail, hsplit⟩ := List.exists_cons_of_ne_nil (splitOnColons_ne_nil text)
  rw [splitOnColons, hsplit]
  · rfl
  · rintro rest rfl rfl
    simp at h

lemma splitOnColons_append (h : ':' ∉ piece) (rest : List Char) :
    splitOnColons (piece ++ rest) = (splitOnColons rest).modifyHead (piece ++ ·) := by
  induction piece with
  | nil =>
    obtain ⟨head, tail, hsplit⟩ := List.exists_cons_of_ne_nil (splitOnColons_ne_nil rest)
    rw [List.nil_append, hsplit]
    rfl
  | cons c piece ih =>
    have hc : c ≠ ':' := fun heq => h (heq ▸ List.mem_cons_self)
    rw [List.cons_append, splitOnColons_cons (Or.inl hc), ih fun hin => h (List.mem_cons_of_mem _ hin),
      List.modifyHead_modifyHead]
    rfl

/-- Pieces that are joined by single colons stay together. -/
lemma splitOnColons_intercalate (h : ∀ piece ∈ pieces, piece ≠ [] ∧ ':' ∉ piece) (rest : List Char) :
    splitOnColons ([':'].intercalate pieces ++ rest) =
      (splitOnColons rest).modifyHead ([':'].intercalate pieces ++ ·) := by
  induction pieces with
  | nil => exact splitOnColons_append List.not_mem_nil rest
  | cons piece pieces ih =>
    cases pieces with
    | nil =>
      rw [List.intercalate_singleton]
      exact splitOnColons_append (h piece List.mem_cons_self).2 rest
    | cons next pieces =>
      have hnext := h next (List.mem_cons_of_mem _ List.mem_cons_self)
      have hhead : ([':'].intercalate (next :: pieces) ++ rest).head? ≠ some ':' := by
        obtain ⟨d, next', rfl⟩ := List.exists_cons_of_ne_nil hnext.1
        have hd : d ≠ ':' := fun heq => hnext.2 (heq ▸ List.mem_cons_self)
        cases pieces <;> simp [List.intercalate_cons_cons, hd]
      rw [List.intercalate_cons_cons, List.append_assoc, List.append_assoc,
        splitOnColons_append (h piece List.mem_cons_self).2, List.singleton_append,
        splitOnColons_cons (Or.inr hhead),
        ih fun p hp => h p (List.mem_cons_of_mem _ hp), List.modifyHead_modifyHead,
        List.modifyHead_modifyHead]
      congr 1
      funext tail
      simp

lemma splitOnColons_colons (text : List Char) :
    splitOnColons (':' :: ':' :: text) = [] :: splitOnColons text := by
  rw [splitOnColons]

/-- The pieces with two colons between them are the text. -/
lemma intercalate_splitOnColons (text : List Char) :
    [':', ':'].intercalate (splitOnColons text) = text := by
  induction text using splitOnColons.induct with
  | case1 rest ih =>
    obtain ⟨head, tail, hsplit⟩ := List.exists_cons_of_ne_nil (splitOnColons_ne_nil rest)
    rw [splitOnColons_colons, hsplit, List.intercalate_cons_cons, ← hsplit, ih]
    rfl
  | case2 c rest hnot head tail hsplit ih =>
    rw [hsplit] at ih
    rw [splitOnColons, hsplit]
    · cases tail with
      | nil => simpa using ih
      | cons next tail => simpa [List.intercalate_cons_cons] using ih
    · exact hnot
  | case3 c rest hnot hsplit ih => exact absurd hsplit (splitOnColons_ne_nil rest)
  | case4 => rfl

end Colons

end Ascii
