import BloomWorkspaces.Library.BigEndian
import Mathlib.Data.List.Induction
import Mathlib.Data.Nat.Bitwise
import Mathlib.Data.Nat.NthRoot.Defs
import Mathlib.Tactic.Ring

/-!
# SHA-256

The hash function of FIPS 180-4 on messages of bits. The constants are what the standard says they are, the
first 32 bits of the fractional parts of roots of primes. The last section is about messages of bytes.
-/

namespace Sha256

abbrev Word := BitVec 32

/-! ### Functions and constants -/

def ch (x y z : Word) : Word := (x &&& y) ^^^ (~~~x &&& z)

def maj (x y z : Word) : Word := (x &&& y) ^^^ (x &&& z) ^^^ (y &&& z)

def bigSigma0 (x : Word) : Word := x.rotateRight 2 ^^^ x.rotateRight 13 ^^^ x.rotateRight 22

def bigSigma1 (x : Word) : Word := x.rotateRight 6 ^^^ x.rotateRight 11 ^^^ x.rotateRight 25

def smallSigma0 (x : Word) : Word := x.rotateRight 7 ^^^ x.rotateRight 18 ^^^ (x >>> 3)

def smallSigma1 (x : Word) : Word := x.rotateRight 17 ^^^ x.rotateRight 19 ^^^ (x >>> 10)

def isPrime (n : ℕ) : Bool := 2 ≤ n && (List.range n).all fun d => d < 2 || n % d ≠ 0

/-- The first 64 primes. -/
def primes : List ℕ := (List.range 312).filter isPrime

/-- The first 32 bits of the fractional part of a root of a prime. -/
def fractionalRoot (degree t : ℕ) : Word :=
  BitVec.ofNat 32 (Nat.nthRoot degree (primes.getD t 0 * 2 ^ (32 * degree)))

/-- `K`, from the cube roots of the primes. -/
def roundConstant (t : ℕ) : Word := fractionalRoot 3 t

/-! ### Padding -/

/-- The number of zero bits: the smallest one that leaves room for the length in the last block. -/
def zeros (length : ℕ) : ℕ := (959 - length % 512) % 512

def pad (message : List Bool) : List Bool :=
  message ++ [true] ++ List.replicate (zeros message.length) false ++
    (List.range 64).map fun i => message.length.testBit (63 - i)

/-- The number that bits denote, the first one counting most. -/
def ofBits (bits : List Bool) : ℕ := bits.foldl (fun n b => 2 * n + b.toNat) 0

/-- The 32-bit word at an index of the padded message. -/
def wordAt (bits : List Bool) (i : ℕ) : Word := BitVec.ofNat 32 (ofBits ((bits.drop (32 * i)).take 32))

/-! ### The computation -/

/-- The working variables, and the words of a hash value. -/
structure Words where
  a : Word
  b : Word
  c : Word
  d : Word
  e : Word
  f : Word
  g : Word
  h : Word
  deriving DecidableEq

/-- The initial hash value, from the square roots of the primes. -/
def initial : Words :=
  ⟨fractionalRoot 2 0, fractionalRoot 2 1, fractionalRoot 2 2, fractionalRoot 2 3, fractionalRoot 2 4,
    fractionalRoot 2 5, fractionalRoot 2 6, fractionalRoot 2 7⟩

/-- `W`, the message schedule of a block. -/
def schedule (block : ℕ → Word) (t : ℕ) : Word :=
  if t < 16 then block t
  else
    smallSigma1 (schedule block (t - 2)) + schedule block (t - 7) + smallSigma0 (schedule block (t - 15)) +
      schedule block (t - 16)
termination_by t
decreasing_by all_goals omega

def round (w : ℕ → Word) (v : Words) (t : ℕ) : Words :=
  let t₁ := v.h + bigSigma1 v.e + ch v.e v.f v.g + roundConstant t + w t
  let t₂ := bigSigma0 v.a + maj v.a v.b v.c
  ⟨t₁ + t₂, v.a, v.b, v.c, v.d + t₁, v.e, v.f, v.g⟩

def Words.add (x y : Words) : Words :=
  ⟨x.a + y.a, x.b + y.b, x.c + y.c, x.d + y.d, x.e + y.e, x.f + y.f, x.g + y.g, x.h + y.h⟩

def compress (value : Words) (block : ℕ → Word) : Words :=
  value.add ((List.range 64).foldl (round (schedule block)) value)

def hash (message : List Bool) : Words :=
  (List.range ((pad message).length / 512)).foldl
    (fun value i => compress value fun t => wordAt (pad message) (16 * i + t)) initial

def Words.toList (x : Words) : List Word := [x.a, x.b, x.c, x.d, x.e, x.f, x.g, x.h]

/-- A word in hexadecimal digits. -/
def hexWord (w : Word) : List Char := (List.range 8).map fun i => Nat.digitChar (w.toNat / 16 ^ (7 - i) % 16)

/-- The message digest in hexadecimal digits. -/
def hexDigest (message : List Bool) : List Char := (hash message).toList.flatMap hexWord

/-! ### Messages of bytes -/

/-- The bits of bytes, from the high one of each on. -/
def bitsOf (bytes : List UInt8) : List Bool :=
  bytes.flatMap fun b => (List.range 8).map fun i => b.toNat.testBit (7 - i)

/-- The message digest of bytes, in bytes. -/
def digest (bytes : List UInt8) : List UInt8 :=
  (hash (bitsOf bytes)).toList.flatMap fun w => BigEndian.toBytes 4 w.toNat

lemma bitsOf_cons (b : UInt8) (bytes : List UInt8) :
    bitsOf (b :: bytes) = ((List.range 8).map fun i => b.toNat.testBit (7 - i)) ++ bitsOf bytes := by
  simp [bitsOf]

lemma bitsOf_append (bytes bytes' : List UInt8) : bitsOf (bytes ++ bytes') = bitsOf bytes ++ bitsOf bytes' := by
  simp [bitsOf]

@[simp] lemma length_bitsOf (bytes : List UInt8) : (bitsOf bytes).length = 8 * bytes.length := by
  induction bytes with
  | nil => rfl
  | cons b bytes ih =>
    rw [bitsOf_cons, List.length_append, ih, List.length_map, List.length_range, List.length_cons]
    omega

lemma bitsOf_drop (bytes : List UInt8) (n : ℕ) : bitsOf (bytes.drop n) = (bitsOf bytes).drop (8 * n) := by
  induction n generalizing bytes with
  | zero => rfl
  | succ n ih =>
    cases bytes with
    | nil => simp [bitsOf]
    | cons b bytes =>
      rw [List.drop_succ_cons, ih, bitsOf_cons, Nat.mul_succ, Nat.add_comm, ← List.drop_drop,
        List.drop_left' (by rw [List.length_map, List.length_range])]

lemma bitsOf_take (bytes : List UInt8) (n : ℕ) : bitsOf (bytes.take n) = (bitsOf bytes).take (8 * n) := by
  induction n generalizing bytes with
  | zero => rfl
  | succ n ih =>
    cases bytes with
    | nil => simp [bitsOf]
    | cons b bytes =>
      rw [List.take_succ_cons, bitsOf_cons, ih, bitsOf_cons, Nat.mul_succ, Nat.add_comm, List.take_append,
        List.take_of_length_le (l := (List.range 8).map fun i => b.toNat.testBit (7 - i))
          (by rw [List.length_map, List.length_range]; omega),
        List.length_map, List.length_range, Nat.add_sub_cancel_left]

lemma ofBits_append (bits bits' : List Bool) :
    ofBits (bits ++ bits') = ofBits bits * 2 ^ bits'.length + ofBits bits' := by
  induction bits' using List.reverseRecOn with
  | nil => simp [ofBits]
  | append_singleton bits' b ih =>
    rw [← List.append_assoc, ofBits, List.foldl_concat, ← ofBits, ih, ofBits, ofBits, ofBits, List.foldl_concat,
      List.length_append, List.length_singleton, Nat.pow_succ]
    ring

/-- The bits of a byte denote the byte. -/
lemma ofBits_byte : ∀ n < 256, ofBits ((List.range 8).map fun i => Nat.testBit n (7 - i)) = n := by
  decide +kernel

lemma ofBits_bitsOf (bytes : List UInt8) : ofBits (bitsOf bytes) = BigEndian.ofBytes bytes := by
  induction bytes with
  | nil => rfl
  | cons b bytes ih =>
    rw [bitsOf_cons, ofBits_append, ofBits_byte _ b.toNat_lt, ih, length_bitsOf, Nat.pow_mul, BigEndian.ofBytes]

lemma wordAt_bitsOf (bytes : List UInt8) (i : ℕ) :
    wordAt (bitsOf bytes) i = BitVec.ofNat 32 (BigEndian.ofBytes ((bytes.drop (4 * i)).take 4)) := by
  rw [wordAt, ← ofBits_bitsOf, bitsOf_take, bitsOf_drop]
  congr 4
  omega

/-- The bits of a big-endian number. -/
lemma bitsOf_toBytes (width n : ℕ) : bitsOf (BigEndian.toBytes width n) =
    (List.range (8 * width)).map fun i => n.testBit (8 * width - 1 - i) := by
  induction width generalizing n with
  | zero => rfl
  | succ width ih =>
    have hpow : 256 ^ width = 2 ^ (8 * width) := by rw [Nat.pow_mul]
    rw [BigEndian.toBytes, bitsOf_cons, ih, Nat.mul_succ, Nat.add_comm, List.range_add, List.map_append,
      List.map_map]
    congr 1
    · refine List.map_congr_left fun i hi => ?_
      have hi' := List.mem_range.mp hi
      have hbyte : (UInt8.ofNat (n / 256 ^ width)).toNat = n / 2 ^ (8 * width) % 2 ^ 8 := by
        rw [UInt8.toNat_ofNat', hpow]
      rw [hbyte, Nat.testBit_mod_two_pow, Nat.testBit_div_two_pow, decide_eq_true (by omega), Bool.true_and]
      congr 1
      omega
    · refine List.map_congr_left fun i hi => ?_
      have hi' := List.mem_range.mp hi
      rw [hpow, Nat.testBit_mod_two_pow, decide_eq_true (by omega), Bool.true_and, Function.comp_apply]
      congr 1
      omega

/-! ### Padded bytes -/

/-- The number of zero bytes after the byte with the one bit. -/
def zeroBytes (length : ℕ) : ℕ := (119 - length % 64) % 64

lemma zeros_bytes (length : ℕ) : zeros (8 * length) = 7 + 8 * zeroBytes length := by
  rw [zeros, zeroBytes]
  omega

lemma bitsOf_zeros (count : ℕ) : bitsOf (List.replicate count 0) = List.replicate (8 * count) false := by
  induction count with
  | zero => rfl
  | succ count ih =>
    rw [List.replicate_succ, bitsOf_cons, ih, Nat.mul_succ, Nat.add_comm, List.replicate_add]
    rfl

/-- The padded bytes: one byte with the high bit, zeros, and the number of bits in eight bytes. -/
def padBytes (bytes : List UInt8) : List UInt8 :=
  bytes ++ [128] ++ List.replicate (zeroBytes bytes.length) 0 ++ BigEndian.toBytes 8 (8 * bytes.length)

lemma pad_bitsOf (bytes : List UInt8) : pad (bitsOf bytes) = bitsOf (padBytes bytes) := by
  have hmarker : bitsOf [128] = [true] ++ List.replicate 7 false := by decide
  rw [padBytes, bitsOf_append, bitsOf_append, bitsOf_append, bitsOf_toBytes, bitsOf_zeros, pad, length_bitsOf,
    zeros_bytes, List.replicate_add, hmarker]
  simp only [List.append_assoc]

/-- The padded bytes are whole blocks. -/
lemma length_padBytes (bytes : List UInt8) : (padBytes bytes).length % 64 = 0 := by
  rw [padBytes]
  simp only [List.length_append, List.length_singleton, List.length_replicate, BigEndian.length_toBytes, zeroBytes]
  omega

/-- The hash of bytes, block by block. -/
lemma hash_bitsOf (bytes : List UInt8) : hash (bitsOf bytes) =
    (List.range ((padBytes bytes).length / 64)).foldl (fun value i => compress value fun t =>
      BitVec.ofNat 32 (BigEndian.ofBytes (((padBytes bytes).drop (4 * (16 * i + t))).take 4))) initial := by
  have hblocks : 8 * (padBytes bytes).length / 512 = (padBytes bytes).length / 64 := by omega
  simp only [hash, pad_bitsOf, length_bitsOf, hblocks, wordAt_bitsOf]

end Sha256
