import Mathlib.Data.Nat.Notation
import Mathlib.Data.List.Basic

/-!
# Base64

The standard alphabet with padding. `decode` is total and reads well-formed texts, which `isBase64`
recognises; the canonical texts are those that `encode` produces.
-/

namespace Base64

/-- The character of a six-bit value. -/
def digit (n : ℕ) : Char :=
  if n < 26 then Char.ofNat (n + 65)
  else if n < 52 then Char.ofNat (n + 71)
  else if n < 62 then Char.ofNat (n - 4)
  else if n = 62 then '+'
  else '/'

/-- The six-bit value of a character. -/
def value (c : Char) : ℕ :=
  if 65 ≤ c.toNat ∧ c.toNat ≤ 90 then c.toNat - 65
  else if 97 ≤ c.toNat ∧ c.toNat ≤ 122 then c.toNat - 71
  else if 48 ≤ c.toNat ∧ c.toNat ≤ 57 then c.toNat + 4
  else if c = '+' then 62
  else 63

def isDigit (c : Char) : Bool := c.isAlphanum || c = '+' || c = '/'

def encode : List UInt8 → List Char
  | a :: b :: c :: rest =>
    digit (a.toNat / 4) :: digit (a.toNat % 4 * 16 + b.toNat / 16) ::
      digit (b.toNat % 16 * 4 + c.toNat / 64) :: digit (c.toNat % 64) :: encode rest
  | [a, b] =>
    [digit (a.toNat / 4), digit (a.toNat % 4 * 16 + b.toNat / 16), digit (b.toNat % 16 * 4), '=']
  | [a] => [digit (a.toNat / 4), digit (a.toNat % 4 * 16), '=', '=']
  | [] => []

def decode : List Char → List UInt8
  | [a, b, '=', '='] => [UInt8.ofNat (value a * 4 + value b / 16)]
  | [a, b, c, '='] =>
    [UInt8.ofNat (value a * 4 + value b / 16), UInt8.ofNat (value b % 16 * 16 + value c / 4)]
  | a :: b :: c :: d :: rest =>
    UInt8.ofNat (value a * 4 + value b / 16) :: UInt8.ofNat (value b % 16 * 16 + value c / 4) ::
      UInt8.ofNat (value c % 4 * 64 + value d) :: decode rest
  | _ => []

/-- Groups of four digits, the last of which may be padded. -/
def isBase64 : List Char → Bool
  | [] => true
  | [a, b, '=', '='] => isDigit a && isDigit b
  | [a, b, c, '='] => isDigit a && isDigit b && isDigit c
  | a :: b :: c :: d :: rest => isDigit a && isDigit b && isDigit c && isDigit d && isBase64 rest
  | _ => false

lemma value_digit : ∀ n < 64, value (digit n) = n := by
  decide

lemma isDigit_digit : ∀ n < 64, isDigit (digit n) = true := by
  decide

lemma digit_ne_pad : ∀ n < 64, digit n ≠ '=' := by
  decide

lemma decode_group {a b c d : Char} {rest : List Char} (hd : d ≠ '=') :
    decode (a :: b :: c :: d :: rest) =
      UInt8.ofNat (value a * 4 + value b / 16) :: UInt8.ofNat (value b % 16 * 16 + value c / 4) ::
        UInt8.ofNat (value c % 4 * 64 + value d) :: decode rest := by
  rw [decode]
  · rintro rfl rfl rfl
    exact hd rfl
  · rintro rfl rfl
    exact hd rfl

lemma decode_padded {a b c : Char} (hc : c ≠ '=') :
    decode [a, b, c, '='] =
      [UInt8.ofNat (value a * 4 + value b / 16),
        UInt8.ofNat (value b % 16 * 16 + value c / 4)] := by
  rw [decode]
  rintro rfl
  exact hc rfl

lemma isBase64_group {a b c d : Char} {rest : List Char} (hd : d ≠ '=') :
    isBase64 (a :: b :: c :: d :: rest) =
      (isDigit a && isDigit b && isDigit c && isDigit d && isBase64 rest) := by
  rw [isBase64]
  · rintro rfl rfl rfl
    exact hd rfl
  · rintro rfl rfl
    exact hd rfl

theorem decode_encode (bytes : List UInt8) : decode (encode bytes) = bytes := by
  induction bytes using encode.induct with
  | case1 a b c rest ih =>
    have ha := a.toNat_lt
    have hb := b.toNat_lt
    have hc := c.toNat_lt
    have h₁ := value_digit (a.toNat / 4) (by omega)
    have h₂ := value_digit (a.toNat % 4 * 16 + b.toNat / 16) (by omega)
    have h₃ := value_digit (b.toNat % 16 * 4 + c.toNat / 64) (by omega)
    have h₄ := value_digit (c.toNat % 64) (by omega)
    rw [encode, decode_group (digit_ne_pad _ (by omega)), ih, h₁, h₂, h₃, h₄]
    congr 1
    · apply UInt8.toNat_inj.mp
      rw [UInt8.toNat_ofNat']
      omega
    congr 1
    · apply UInt8.toNat_inj.mp
      rw [UInt8.toNat_ofNat']
      omega
    congr 1
    apply UInt8.toNat_inj.mp
    rw [UInt8.toNat_ofNat']
    omega
  | case2 a b =>
    have ha := a.toNat_lt
    have hb := b.toNat_lt
    have h₁ := value_digit (a.toNat / 4) (by omega)
    have h₂ := value_digit (a.toNat % 4 * 16 + b.toNat / 16) (by omega)
    have h₃ := value_digit (b.toNat % 16 * 4) (by omega)
    rw [encode, decode_padded (digit_ne_pad _ (by omega)), h₁, h₂, h₃]
    congr 1
    · apply UInt8.toNat_inj.mp
      rw [UInt8.toNat_ofNat']
      omega
    congr 1
    apply UInt8.toNat_inj.mp
    rw [UInt8.toNat_ofNat']
    omega
  | case3 a =>
    have ha := a.toNat_lt
    have h₁ := value_digit (a.toNat / 4) (by omega)
    have h₂ := value_digit (a.toNat % 4 * 16) (by omega)
    rw [encode, decode, h₁, h₂]
    congr 1
    apply UInt8.toNat_inj.mp
    rw [UInt8.toNat_ofNat']
    omega
  | case4 => rfl

theorem isBase64_encode (bytes : List UInt8) : isBase64 (encode bytes) = true := by
  induction bytes using encode.induct with
  | case1 a b c rest ih =>
    have ha := a.toNat_lt
    have hb := b.toNat_lt
    have hc := c.toNat_lt
    rw [encode, isBase64_group (digit_ne_pad _ (by omega)), ih, isDigit_digit _ (by omega),
      isDigit_digit _ (by omega), isDigit_digit _ (by omega), isDigit_digit _ (by omega)]
    rfl
  | case2 a b =>
    have ha := a.toNat_lt
    have hb := b.toNat_lt
    rw [encode, isBase64, isDigit_digit _ (by omega), isDigit_digit _ (by omega),
      isDigit_digit _ (by omega)]
    · rfl
    · intro h
      exact digit_ne_pad _ (by omega) h
  | case3 a =>
    have ha := a.toNat_lt
    rw [encode, isBase64, isDigit_digit _ (by omega), isDigit_digit _ (by omega)]
    rfl
  | case4 => rfl

lemma length_encode (bytes : List UInt8) : (encode bytes).length = 4 * ((bytes.length + 2) / 3) := by
  induction bytes using encode.induct with
  | case1 a b c rest ih =>
    simp only [encode, List.length_cons, ih]
    omega
  | case2 a b => simp [encode]
  | case3 a => simp [encode]
  | case4 => rfl

/-- The characters of an encoding. -/
lemma mem_encode {bytes : List UInt8} {c : Char} (h : c ∈ encode bytes) :
    c = '=' ∨ ∃ n < 64, c = digit n := by
  have hdigit : ∀ n, n < 64 → digit n = '=' ∨ ∃ m < 64, digit n = digit m :=
    fun n hn => Or.inr ⟨n, hn, rfl⟩
  induction bytes using encode.induct with
  | case1 a b c rest ih =>
    have ha := a.toNat_lt
    have hb := b.toNat_lt
    have hc := c.toNat_lt
    simp only [encode, List.mem_cons] at h
    rcases h with rfl | rfl | rfl | rfl | h
    · exact hdigit _ (by omega)
    · exact hdigit _ (by omega)
    · exact hdigit _ (by omega)
    · exact hdigit _ (by omega)
    · exact ih h
  | case2 a b =>
    have ha := a.toNat_lt
    have hb := b.toNat_lt
    simp only [encode, List.mem_cons, List.not_mem_nil, or_false] at h
    rcases h with rfl | rfl | rfl | rfl
    · exact hdigit _ (by omega)
    · exact hdigit _ (by omega)
    · exact hdigit _ (by omega)
    · exact Or.inl rfl
  | case3 a =>
    have ha := a.toNat_lt
    simp only [encode, List.mem_cons, List.not_mem_nil, or_false] at h
    rcases h with rfl | rfl | rfl | rfl
    · exact hdigit _ (by omega)
    · exact hdigit _ (by omega)
    · exact Or.inl rfl
    · exact Or.inl rfl
  | case4 => cases h

end Base64
