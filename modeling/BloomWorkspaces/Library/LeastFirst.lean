import Mathlib.Data.List.Count
import Mathlib.Data.List.MinMax

/-!
# Serving the least first

A server that takes, again and again, an element whose key is least. Where no two elements have the same
key, an element waits for those with a smaller key and for no others.
-/

namespace LeastFirst

variable {α β : Type*} [LinearOrder β] {key : α → β} {l : List α} {a b : α}

/-- How many elements have a smaller key than `a`. -/
def countBefore (key : α → β) (a : α) (l : List α) : ℕ := l.countP fun b => key b < key a

lemma countBefore_argmin (h : l.argmin key = some a) : countBefore key a l = 0 := by
  refine List.countP_eq_zero.mpr fun b hb => ?_
  simpa using List.le_of_mem_argmin hb h

section Order

variable [DecidableEq α]

/-- The elements that a server with room for `capacity` of them takes, in its order. -/
def leastFirst (key : α → β) : ℕ → List α → List α
  | 0, _ => []
  | capacity + 1, l =>
    match l.argmin key with
    | none => []
    | some a => a :: leastFirst key capacity (l.erase a)

variable {capacity : ℕ}

lemma countBefore_erase (hb : b ∈ l) (hlt : key b < key a) :
    countBefore key a l = countBefore key a (l.erase b) + 1 := by
  have hcounted : decide (key b < key a) = true := decide_eq_true hlt
  have hpos : 0 < l.countP fun c => key c < key a := List.countP_pos_iff.mpr ⟨b, hb, hcounted⟩
  simp only [countBefore]
  rw [List.countP_erase, if_pos ⟨hb, hcounted⟩]
  omega

theorem idxOf_leastFirst (hkey : ∀ a ∈ l, ∀ b ∈ l, key a = key b → a = b) (hlength : l.length ≤ capacity)
    (ha : a ∈ l) : (leastFirst key capacity l).idxOf a = countBefore key a l := by
  induction capacity generalizing l with
  | zero =>
    rw [List.length_eq_zero_iff.mp (Nat.le_zero.mp hlength)] at ha
    cases ha
  | succ capacity ih =>
    rw [leastFirst]
    cases hm : l.argmin key with
    | none =>
      rw [List.argmin_eq_none.mp hm] at ha
      cases ha
    | some m =>
      have hmem : m ∈ l := List.argmin_mem hm
      by_cases ham : m = a
      · rw [ham, List.idxOf_cons_self, ← ham, countBefore_argmin hm]
      · have hlt : key m < key a :=
          lt_of_le_of_ne (List.le_of_mem_argmin ha hm) fun h => ham (hkey m hmem a ha h)
        have hrest : a ∈ l.erase m := (List.mem_erase_of_ne (Ne.symm ham)).mpr ha
        have hshort : (l.erase m).length ≤ capacity := by
          rw [List.length_erase_of_mem hmem]
          omega
        have hkeyRest : ∀ b ∈ l.erase m, ∀ c ∈ l.erase m, key b = key c → b = c := fun b hb c hc =>
          hkey b (List.mem_of_mem_erase hb) c (List.mem_of_mem_erase hc)
        rw [List.idxOf_cons_ne _ ham, ih hkeyRest hshort hrest, countBefore_erase hmem hlt]

end Order

end LeastFirst
