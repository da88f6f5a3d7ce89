import Mathlib.Data.List.DropRight
import Mathlib.Data.List.GetD

/-!
# Areas of bytes

An array of a C program, as its bytes by their indices, with the copies within it and into it. A copy that
leaves the bounds of the array has no result.
-/

namespace ByteArea

variable {size target source n start : ℕ} {area area' : ℕ → UInt8} {data : List UInt8}

/-- The `n` bytes from `start` on. -/
def bytes (area : ℕ → UInt8) (start n : ℕ) : List UInt8 := (List.range n).map fun i => area (start + i)

/-- `memmove(area + target, area + source, n)` -/
def memmove (size : ℕ) (area : ℕ → UInt8) (target source n : ℕ) : Option (ℕ → UInt8) :=
  if target + n ≤ size ∧ source + n ≤ size then
    some fun i => if target ≤ i ∧ i < target + n then area (source + (i - target)) else area i
  else none

/-- `memcpy(area + target, data, data.length)` -/
def memcpy (size : ℕ) (area : ℕ → UInt8) (target : ℕ) (data : List UInt8) : Option (ℕ → UInt8) :=
  if target + data.length ≤ size then
    some fun i => if target ≤ i ∧ i < target + data.length then data.getD (i - target) 0 else area i
  else none

@[simp] lemma length_bytes (area : ℕ → UInt8) (start n : ℕ) : (bytes area start n).length = n := by
  simp [bytes]

lemma bytes_congr {start' : ℕ} (h : ∀ i < n, area (start + i) = area' (start' + i)) :
    bytes area start n = bytes area' start' n := by
  apply List.map_congr_left
  intro i hi
  exact h i (List.mem_range.mp hi)

/-- The bytes from `start` on are the end of the first ones. -/
lemma bytes_eq_drop (area : ℕ → UInt8) (start n : ℕ) :
    bytes area start n = (bytes area 0 (start + n)).drop start := by
  apply List.ext_getElem
  · simp
  · intro i hi hi'
    simp [bytes]

lemma memmove_bounds (area : ℕ → UInt8) (htarget : target + n ≤ size) (hsource : source + n ≤ size) :
    ∃ area', memmove size area target source n = some area' ∧
      bytes area' target n = bytes area source n := by
  refine ⟨_, if_pos ⟨htarget, hsource⟩, ?_⟩
  apply bytes_congr
  intro i hi
  rw [if_pos ⟨Nat.le_add_right _ _, Nat.add_lt_add_left hi _⟩, Nat.add_sub_cancel_left]

lemma memcpy_bounds (area : ℕ → UInt8) (h : target + data.length ≤ size) :
    ∃ area', memcpy size area target data = some area' ∧
      bytes area' 0 (target + data.length) = bytes area 0 target ++ data := by
  refine ⟨_, if_pos h, ?_⟩
  apply List.ext_getElem
  · simp
  · intro i hi hi'
    rw [length_bytes] at hi
    simp only [bytes, List.getElem_map, List.getElem_range, Nat.zero_add]
    by_cases hlt : i < target
    · rw [if_neg fun hin => Nat.not_le.mpr hlt hin.1, List.getElem_append_left (by simpa using hlt)]
      simp
    · rw [if_pos ⟨Nat.not_lt.mp hlt, hi⟩, List.getElem_append_right (by simpa using hlt)]
      simp only [List.length_map, List.length_range]
      rw [List.getD_eq_getElem _ _ (by omega)]

/-! ### The last items of a list -/

lemma rtake_append_rtake {α : Type*} (n : ℕ) (l m : List α) : (l.rtake n ++ m).rtake n = (l ++ m).rtake n := by
  simp only [List.rtake]
  rw [← List.drop_append_of_le_length (Nat.sub_le _ _), List.drop_drop]
  congr 1
  simp only [List.length_drop, List.length_append]
  omega

lemma rtake_of_le {α : Type*} {n : ℕ} {l : List α} (h : l.length ≤ n) : l.rtake n = l := by
  rw [List.rtake, Nat.sub_eq_zero_of_le h, List.drop_zero]

end ByteArea
