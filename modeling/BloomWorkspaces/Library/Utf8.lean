import Mathlib.Algebra.GroupWithZero.Nat
import Mathlib.Data.List.Basic
import Mathlib.Data.Nat.Notation

/-!
# UTF-8

The encoding of texts as bytes, and the lossy conversion of bytes, which puts the replacement
character in the place of what is not UTF-8 and leaves encoded texts as they are.
-/

namespace Utf8

def encode (text : List Char) : List UInt8 := text.flatMap String.utf8EncodeChar

/-- The bytes that may follow the first byte of a character: how many they are, and the bounds of the
first of them. -/
def following (first : ℕ) : Option (ℕ × ℕ × ℕ) :=
  if first < 128 then some (0, 128, 191)
  else if first < 194 then none
  else if first < 224 then some (1, 128, 191)
  else if first = 224 then some (2, 160, 191)
  else if first = 237 then some (2, 128, 159)
  else if first < 240 then some (2, 128, 191)
  else if first = 240 then some (3, 144, 191)
  else if first < 244 then some (3, 128, 191)
  else if first = 244 then some (3, 128, 143)
  else none

/-- How many of the following bytes are there. -/
def matching : ℕ → ℕ → ℕ → List UInt8 → ℕ
  | n + 1, low, high, b :: rest =>
    if low ≤ b.toNat ∧ b.toNat ≤ high then matching n 128 191 rest + 1 else 0
  | _, _, _, _ => 0

/-- U+FFFD -/
def replacement : List UInt8 := [239, 191, 189]

/-- The conversion of the bytes, of which there are at most `fuel`. -/
def lossyLoop : ℕ → List UInt8 → List UInt8
  | fuel + 1, b :: rest =>
    match following b.toNat with
    | none => replacement ++ lossyLoop fuel rest
    | some (n, low, high) =>
      let found := matching n low high rest
      if found = n then b :: rest.take n ++ lossyLoop fuel (rest.drop n)
      else replacement ++ lossyLoop fuel (rest.drop found)
  | _, _ => []

/-- `to_string_lossy`, as bytes. -/
def lossy (bytes : List UInt8) : List UInt8 := lossyLoop bytes.length bytes

/-! ### Characters -/

lemma toNat_ofNat {n : ℕ} (h : n < 256) : (UInt8.ofNat n).toNat = n := by
  rw [UInt8.toNat_ofNat']
  omega

lemma val_lt (c : Char) : c.val.toNat < 55296 ∨ 57343 < c.val.toNat ∧ c.val.toNat < 1114112 := c.valid

lemma matching_cons {n low high : ℕ} {b : ℕ} {rest : List UInt8} (hb : b < 256) (hlow : low ≤ b)
    (hhigh : b ≤ high) :
    matching (n + 1) low high (UInt8.ofNat b :: rest) = matching n 128 191 rest + 1 := by
  rw [matching, toNat_ofNat hb, if_pos ⟨hlow, hhigh⟩]

lemma matching_zero (low high : ℕ) (bytes : List UInt8) : matching 0 low high bytes = 0 := by
  simp [matching]

/-- A character is a first byte with the bytes that may follow it. -/
lemma following_encodeChar (c : Char) (rest : List UInt8) :
    ∃ b n low high tail, String.utf8EncodeChar c = b :: tail ∧ tail.length = n ∧
      following b.toNat = some (n, low, high) ∧ matching n low high (tail ++ rest) = n := by
  have hval := val_lt c
  fun_cases String.utf8EncodeChar c with
  | case1 v h =>
    refine ⟨_, 0, 128, 191, [], rfl, rfl, ?_, matching_zero _ _ _⟩
    rw [toNat_ofNat (by omega), following, if_pos (by omega)]
  | case2 v _ h =>
    refine ⟨_, 1, 128, 191, _, rfl, rfl, ?_, ?_⟩
    · rw [toNat_ofNat (by omega), following, if_neg (by omega), if_neg (by omega), if_pos (by omega)]
    · show matching 1 128 191 (_ :: rest) = 1
      rw [matching_cons (by omega) (by omega) (by omega), matching_zero]
  | case3 v _ _ h =>
    have hv : v < 55296 ∨ 57343 < v := by omega
    have hmatching : ∀ low high, low ≤ v / 64 % 64 + 128 → v / 64 % 64 + 128 ≤ high →
        matching 2 low high ([UInt8.ofNat (v / 64 % 64 + 128), UInt8.ofNat (v % 64 + 128)] ++ rest) =
          2 := by
      intro low high hlow hhigh
      show matching 2 low high (_ :: _ :: rest) = 2
      rw [matching_cons (by omega) hlow hhigh, matching_cons (by omega) (by omega) (by omega),
        matching_zero]
    have hfirst : (UInt8.ofNat (v / 4096 % 16 + 224)).toNat = v / 4096 % 16 + 224 :=
      toNat_ofNat (by omega)
    by_cases hlow : v / 4096 % 16 = 0
    · refine ⟨_, 2, 160, 191, _, rfl, rfl, ?_, hmatching _ _ (by omega) (by omega)⟩
      rw [hfirst, hlow]
      rfl
    · by_cases hsurrogate : v / 4096 % 16 = 13
      · refine ⟨_, 2, 128, 159, _, rfl, rfl, ?_, hmatching _ _ (by omega) (by omega)⟩
        rw [hfirst, hsurrogate]
        rfl
      · refine ⟨_, 2, 128, 191, _, rfl, rfl, ?_, hmatching _ _ (by omega) (by omega)⟩
        rw [hfirst, following, if_neg (by omega), if_neg (by omega), if_neg (by omega),
          if_neg (by omega), if_neg (by omega), if_pos (by omega)]
  | case4 v _ _ h =>
    have hv : 65535 < v ∧ v < 1114112 := by omega
    have hmatching : ∀ low high, low ≤ v / 4096 % 64 + 128 → v / 4096 % 64 + 128 ≤ high →
        matching 3 low high ([UInt8.ofNat (v / 4096 % 64 + 128), UInt8.ofNat (v / 64 % 64 + 128),
          UInt8.ofNat (v % 64 + 128)] ++ rest) = 3 := by
      intro low high hlow hhigh
      show matching 3 low high (_ :: _ :: _ :: rest) = 3
      rw [matching_cons (by omega) hlow hhigh, matching_cons (by omega) (by omega) (by omega),
        matching_cons (by omega) (by omega) (by omega), matching_zero]
    have hfirst : (UInt8.ofNat (v / 262144 % 8 + 240)).toNat = v / 262144 % 8 + 240 :=
      toNat_ofNat (by omega)
    by_cases hlow : v / 262144 % 8 = 0
    · refine ⟨_, 3, 144, 191, _, rfl, rfl, ?_, hmatching _ _ (by omega) (by omega)⟩
      rw [hfirst, hlow]
      rfl
    · by_cases hhigh : v / 262144 % 8 = 4
      · refine ⟨_, 3, 128, 143, _, rfl, rfl, ?_, hmatching _ _ (by omega) (by omega)⟩
        rw [hfirst, hhigh]
        rfl
      · refine ⟨_, 3, 128, 191, _, rfl, rfl, ?_, hmatching _ _ (by omega) (by omega)⟩
        rw [hfirst, following, if_neg (by omega), if_neg (by omega), if_neg (by omega),
          if_neg (by omega), if_neg (by omega), if_neg (by omega), if_neg (by omega),
          if_pos (by omega)]

/-! ### Texts -/

lemma encode_cons (c : Char) (text : List Char) :
    encode (c :: text) = String.utf8EncodeChar c ++ encode text := by
  simp [encode]

lemma encode_append (text text' : List Char) : encode (text ++ text') = encode text ++ encode text' := by
  simp [encode]

lemma lossyLoop_encode (text : List Char) (fuel : ℕ) (h : (encode text).length ≤ fuel) :
    lossyLoop fuel (encode text) = encode text := by
  induction text generalizing fuel with
  | nil => cases fuel <;> rfl
  | cons c text ih =>
    obtain ⟨b, n, low, high, tail, hchar, htail, hfollowing, hmatching⟩ :=
      following_encodeChar c (encode text)
    rw [encode_cons, hchar] at h ⊢
    cases fuel with
    | zero => simp at h
    | succ fuel =>
      have hrest : (encode text).length ≤ fuel := by
        simp at h
        omega
      show lossyLoop (fuel + 1) (b :: (tail ++ encode text)) = _
      simp only [lossyLoop, hfollowing, hmatching, if_true]
      rw [← htail, List.take_left, List.drop_left, ih fuel hrest]

/-- Encoded texts stay as they are. -/
theorem lossy_encode (text : List Char) : lossy (encode text) = encode text :=
  lossyLoop_encode text _ (Nat.le_refl _)

lemma encode_ne_nil {text : List Char} (h : text ≠ []) : encode text ≠ [] := by
  obtain ⟨c, rest, rfl⟩ := List.exists_cons_of_ne_nil h
  obtain ⟨b, n, low, high, tail, hchar, -⟩ := following_encodeChar c []
  rw [encode_cons, hchar]
  exact List.cons_ne_nil _ _

/-- The conversion adds no bytes but those of the replacement character. -/
lemma mem_lossyLoop {b : UInt8} {fuel : ℕ} {bytes : List UInt8} (h : b ∈ lossyLoop fuel bytes) :
    b ∈ bytes ∨ b ∈ replacement := by
  induction fuel generalizing bytes with
  | zero => cases bytes <;> cases h
  | succ fuel ih =>
    cases bytes with
    | nil => cases h
    | cons first rest =>
      have hrest : ∀ n, b ∈ lossyLoop fuel (rest.drop n) → b ∈ first :: rest ∨ b ∈ replacement := by
        intro n hn
        rcases ih hn with hmem | hrepl
        · exact Or.inl (List.mem_cons_of_mem _ (List.mem_of_mem_drop hmem))
        · exact Or.inr hrepl
      rw [lossyLoop] at h
      split at h
      · rcases List.mem_append.mp h with hrepl | hmem
        · exact Or.inr hrepl
        · exact hrest 0 hmem
      · simp only at h
        split at h
        · rcases List.mem_append.mp h with hmem | hmem
          · rcases List.mem_cons.mp hmem with rfl | htake
            · exact Or.inl List.mem_cons_self
            · exact Or.inl (List.mem_cons_of_mem _ (List.mem_of_mem_take htake))
          · exact hrest _ hmem
        · rcases List.mem_append.mp h with hrepl | hmem
          · exact Or.inr hrepl
          · exact hrest _ hmem

lemma mem_lossy {b : UInt8} {bytes : List UInt8} (h : b ∈ lossy bytes) :
    b ∈ bytes ∨ b ∈ replacement := mem_lossyLoop h

lemma encode_eq (text : List Char) : encode text = (String.ofList text).toByteArray.data.toList := by
  rw [String.toByteArray_ofList, List.utf8Encode, List.toList_data_toByteArray]
  rfl

lemma length_encode (s : String) : (encode s.toList).length = s.utf8ByteSize := by
  rw [encode_eq, String.ofList_toList]
  rfl

lemma length_encode_le (text : List Char) : (encode text).length ≤ 4 * text.length := by
  induction text with
  | nil => exact Nat.le_refl 0
  | cons c text ih =>
    have hchar : (String.utf8EncodeChar c).length ≤ 4 := by
      rw [String.length_utf8EncodeChar]
      exact c.utf8Size_le_four
    rw [encode_cons, List.length_append, List.length_cons]
    omega

lemma encode_injective {text text' : List Char} (h : encode text = encode text') : text = text' := by
  rw [encode_eq, encode_eq] at h
  have hbytes : (String.ofList text).toByteArray = (String.ofList text').toByteArray := by
    apply ByteArray.ext
    exact Array.toList_inj.mp h
  exact String.ofList_injective (String.toByteArray_inj.mp hbytes)

/-- The byte of an ASCII character stands for this character only. -/
lemma mem_of_mem_encode {text : List Char} {c : Char} (hc : c.val.toNat < 128)
    (h : UInt8.ofNat c.val.toNat ∈ encode text) : c ∈ text := by
  obtain ⟨d, hd, hin⟩ := List.mem_flatMap.mp h
  have hsame : c.val.toNat = d.val.toNat := by
    have hval := val_lt d
    have heq : ∀ n < 256, UInt8.ofNat c.val.toNat = UInt8.ofNat n → c.val.toNat = n := by
      intro n hn hbyte
      have hnat := congrArg UInt8.toNat hbyte
      rw [toNat_ofNat (by omega), toNat_ofNat hn] at hnat
      exact hnat
    revert hin
    fun_cases String.utf8EncodeChar d with
    | case1 v h =>
      intro hin
      exact heq _ (by omega) (List.mem_singleton.mp hin)
    | case2 v _ h =>
      simp only [List.mem_cons, List.not_mem_nil, or_false]
      rintro (hin | hin)
      all_goals have hbyte := heq _ (by omega) hin
      all_goals omega
    | case3 v _ _ h =>
      simp only [List.mem_cons, List.not_mem_nil, or_false]
      rintro (hin | hin | hin)
      all_goals have hbyte := heq _ (by omega) hin
      all_goals omega
    | case4 v _ _ h =>
      simp only [List.mem_cons, List.not_mem_nil, or_false]
      rintro (hin | hin | hin | hin)
      all_goals have hbyte := heq _ (by omega) hin
      all_goals omega
  have hchar : c = d := Char.ext (UInt32.toNat_inj.mp hsame)
  rw [hchar]
  exact hd

/-! ### Texts -/

def decode (bytes : List UInt8) : Option (List Char) := bytes.toByteArray.utf8Decode?.map Array.toList

/-- The text of any bytes; what `lossy` gives is always UTF-8. -/
def toText (bytes : List UInt8) : List Char := (decode (lossy bytes)).getD []

lemma decode_encode (text : List Char) : decode (encode text) = some text := by
  have hbytes : (encode text).toByteArray = text.utf8Encode := rfl
  rw [decode, hbytes, List.utf8Decode?_utf8Encode]
  rfl

lemma toText_encode (text : List Char) : toText (encode text) = text := by
  rw [toText, lossy_encode, decode_encode]
  rfl

end Utf8
