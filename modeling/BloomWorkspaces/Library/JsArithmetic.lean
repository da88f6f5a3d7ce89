import Mathlib.Algebra.Group.Int.Defs
import Mathlib.Algebra.GroupWithZero.Nat
import Mathlib.Data.Nat.Log

/-!
# Arithmetic on numbers of JavaScript

Numbers are doubles: the result of an operation is rounded to 53 significant bits. The bitwise operators
work on 32 bits, and all but `>>>` give a signed number. Only numbers that are not negative occur here.
-/

namespace JsArithmetic

/-- The double that is nearest to a natural number; of two that are, the one with an even significand. -/
def round (n : ℕ) : ℕ :=
  let unit := 2 ^ (Nat.log2 n + 1 - 53)
  if n % unit * 2 < unit ∨ n % unit * 2 = unit ∧ n / unit % 2 = 0 then n / unit * unit
  else (n / unit + 1) * unit

/-- `ToUint32` -/
def toUint32 (n : ℕ) : ℕ := n % 2 ^ 32

/-- The signed number with the same 32 bits. -/
def toInt32 (n : ℕ) : ℤ := if toUint32 n < 2 ^ 31 then toUint32 n else (toUint32 n : ℤ) - 2 ^ 32

/-- `n >>> shift` -/
def unsignedShiftRight (n shift : ℕ) : ℕ := toUint32 n >>> shift

/-- `m & n` -/
def bitAnd (m n : ℕ) : ℤ := toInt32 (toUint32 m &&& toUint32 n)

/-- `Math.floor(n / 2 ** k)`: a power of two changes only the exponent of the quotient. -/
def floorDivPow (n k : ℕ) : ℕ := round n / 2 ^ k

/-- `n.toString(16)` -/
def toString16 (n : ℤ) : List Char :=
  if n < 0 then '-' :: Nat.toDigits 16 n.natAbs else Nat.toDigits 16 n.natAbs

variable {n shift : ℕ}

/-- Safe integers are doubles. -/
@[simp] lemma round_of_lt (h : n < 2 ^ 53) : round n = n := by
  have hlog : Nat.log2 n + 1 - 53 = 0 := by
    rcases Nat.eq_zero_or_pos n with rfl | hpos
    · rfl
    · have hlt := (Nat.log2_lt (Nat.pos_iff_ne_zero.mp hpos)).mpr h
      omega
  simp [round, hlog, Nat.mod_one]

lemma floorDivPow_of_lt (h : n < 2 ^ 53) (k : ℕ) : floorDivPow n k = n / 2 ^ k := by
  rw [floorDivPow, round_of_lt h]

lemma unsignedShiftRight_of_lt (h : n < 2 ^ 32) (shift : ℕ) :
    unsignedShiftRight n shift = n / 2 ^ shift := by
  rw [unsignedShiftRight, toUint32, Nat.mod_eq_of_lt h, Nat.shiftRight_eq_div_pow]

/-- Masking the low 16 bits does not reach the sign. -/
lemma bitAnd_mask (n : ℕ) : bitAnd n 65535 = (n % 65536 : ℕ) := by
  have hmask : toUint32 n &&& toUint32 65535 = n % 65536 := by
    have hpow := Nat.and_two_pow_sub_one_eq_mod (toUint32 n) 16
    have hsmall : toUint32 65535 = 2 ^ 16 - 1 := by decide
    rw [hsmall, hpow, toUint32]
    omega
  have hunsigned : toUint32 (n % 65536) = n % 65536 := by
    rw [toUint32]
    omega
  rw [bitAnd, hmask, toInt32, hunsigned, if_pos (by omega)]

lemma toString16_natCast (n : ℕ) : toString16 n = Nat.toDigits 16 n := by
  rw [toString16, if_neg (by omega), Int.natAbs_natCast]

/-- A shift that makes room for the other operand loses none of its bits. -/
lemma shiftLeft_or {value word : ℕ} (h : word < 2 ^ shift) :
    value <<< shift ||| word = value * 2 ^ shift + word := by
  rw [← Nat.shiftLeft_add_eq_or_of_lt h, Nat.shiftLeft_eq]

end JsArithmetic
