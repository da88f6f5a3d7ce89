import Mathlib.Algebra.Group.Int.Defs

/-!
# Numbers of JavaScript

The model keeps what its checks can tell of a number: its value where it is an integer.
-/

namespace Bloom

/-- A number of JavaScript; `none` is one that is not an integer. -/
abbrev JsNumber := Option ℤ

namespace JsNumber

/-- `Number.isSafeInteger`, with the integer that it has found. -/
def safeInteger (value : JsNumber) : Option ℤ :=
  value.filter fun n => -(2 ^ 53) < n && n < 2 ^ 53

lemma eq_of_safeInteger {value : JsNumber} {n : ℤ} (h : value.safeInteger = some n) :
    value = some n := by
  obtain ⟨hvalue, -⟩ := Option.filter_eq_some_iff.mp h
  exact hvalue

end JsNumber

end Bloom
