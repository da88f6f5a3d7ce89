import Mathlib.Data.List.Basic
import Mathlib.Algebra.Group.Nat.Defs

/-!
# Big-endian numbers in buffers

Numbers of a fixed width as bytes, and what stands at an offset of a buffer: the bytes `bs` stand at
`offset` when they are a prefix of `buffer.drop offset`.
-/

namespace BigEndian

def toBytes : (width n : ℕ) → List UInt8
  | 0, _ => []
  | width + 1, n => UInt8.ofNat (n / 256 ^ width) :: toBytes width (n % 256 ^ width)

def ofBytes : List UInt8 → ℕ
  | [] => 0
  | b :: rest => b.toNat * 256 ^ rest.length + ofBytes rest

@[simp] lemma length_toBytes (width n : ℕ) : (toBytes width n).length = width := by
  induction width generalizing n with
  | zero => rfl
  | succ width ih => rw [toBytes, List.length_cons, ih]

lemma ofBytes_lt (bs : List UInt8) : ofBytes bs < 256 ^ bs.length := by
  induction bs with
  | nil => exact Nat.one_pos
  | cons b rest ih =>
    have hb : b.toNat ≤ 255 := Nat.le_of_lt_succ b.toNat_lt
    calc ofBytes (b :: rest)
        = b.toNat * 256 ^ rest.length + ofBytes rest := rfl
      _ < b.toNat * 256 ^ rest.length + 256 ^ rest.length := Nat.add_lt_add_left ih _
      _ = (b.toNat + 1) * 256 ^ rest.length := (Nat.succ_mul _ _).symm
      _ ≤ 256 * 256 ^ rest.length := Nat.mul_le_mul_right _ (by omega)
      _ = 256 ^ (b :: rest).length := (Nat.pow_succ').symm

lemma ofBytes_toBytes {width n : ℕ} (h : n < 256 ^ width) : ofBytes (toBytes width n) = n := by
  induction width generalizing n with
  | zero =>
    have hzero : n = 0 := by simpa using h
    rw [hzero]
    rfl
  | succ width ih =>
    have hpos : 0 < 256 ^ width := Nat.pow_pos (by decide)
    have hquot : n / 256 ^ width < 256 := by
      rw [Nat.div_lt_iff_lt_mul hpos, ← Nat.pow_succ']
      exact h
    rw [toBytes, ofBytes, length_toBytes, ih (Nat.mod_lt _ hpos), UInt8.toNat_ofNat',
      Nat.mod_eq_of_lt hquot]
    exact Nat.div_add_mod' n _

lemma toBytes_ofBytes (bs : List UInt8) : toBytes bs.length (ofBytes bs) = bs := by
  induction bs with
  | nil => rfl
  | cons b rest ih =>
    have hlt := ofBytes_lt rest
    have hpos : 0 < 256 ^ rest.length := Nat.pow_pos (by decide)
    have hquot : (b.toNat * 256 ^ rest.length + ofBytes rest) / 256 ^ rest.length = b.toNat := by
      rw [Nat.mul_comm, Nat.mul_add_div hpos, Nat.div_eq_of_lt hlt, Nat.add_zero]
    have hrem : (b.toNat * 256 ^ rest.length + ofBytes rest) % 256 ^ rest.length =
        ofBytes rest := by
      rw [Nat.mul_comm, Nat.mul_add_mod, Nat.mod_eq_of_lt hlt]
    rw [List.length_cons, toBytes, ofBytes, hquot, hrem, ih, UInt8.ofNat_toNat]

/-! ### Bytes at an offset -/

variable {buffer bs cs : List UInt8} {offset : ℕ}

/-- The bytes stand at the offset of the buffer. -/
def At (buffer : List UInt8) (offset : ℕ) (bs : List UInt8) : Prop := bs <+: buffer.drop offset

lemma At.end_le (h : At buffer offset bs) (hoffset : offset ≤ buffer.length) :
    offset + bs.length ≤ buffer.length := by
  have hle := List.IsPrefix.length_le h
  rw [List.length_drop] at hle
  omega

lemma At.take (h : At buffer offset bs) : (buffer.drop offset).take bs.length = bs :=
  (List.prefix_iff_eq_take.mp h).symm

lemma at_take (length : ℕ) : At buffer offset ((buffer.drop offset).take length) :=
  List.take_prefix _ _

lemma at_append : At buffer offset (bs ++ cs) ↔
    At buffer offset bs ∧ At buffer (offset + bs.length) cs := by
  constructor
  · rintro ⟨rest, hrest⟩
    rw [List.append_assoc] at hrest
    refine ⟨⟨cs ++ rest, hrest⟩, ⟨rest, ?_⟩⟩
    rw [← List.drop_drop, ← hrest, List.drop_left]
  · rintro ⟨⟨rest, hrest⟩, hcs⟩
    rw [At, ← List.drop_drop, ← hrest, List.drop_left] at hcs
    obtain ⟨rest', rfl⟩ := hcs
    exact ⟨rest', by rw [List.append_assoc, hrest]⟩

/-- Bytes that stand at the start and fill the buffer are the buffer. -/
lemma at_zero_iff (hlength : bs.length = buffer.length) : At buffer 0 bs ↔ buffer = bs := by
  constructor
  · intro h
    rw [At, List.drop_zero] at h
    exact (h.eq_of_length hlength).symm
  · rintro rfl
    exact List.prefix_refl _

/-- A list is not longer than its encoding when no encoding is empty. -/
lemma length_le_length_flatMap {α : Type*} {f : α → List UInt8}
    (hpos : ∀ a, 1 ≤ (f a).length) (l : List α) : l.length ≤ (l.flatMap f).length := by
  induction l with
  | nil => exact Nat.le_refl _
  | cons a rest ih =>
    have ha := hpos a
    rw [List.flatMap_cons, List.length_append, List.length_cons]
    omega

end BigEndian
