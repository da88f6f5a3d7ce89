import Mathlib.Data.Nat.Notation

/-!
# Computations that may throw

A triple `Yields allowed Q x` says that `x` returns a value with `Q`, or throws an error that is
`allowed`. The rules follow the structure of `do` blocks.
-/

namespace Checked

universe u v

variable {ε : Type u} {α β : Type v}

def Yields (allowed : ε → Prop) (Q : α → Prop) : Except ε α → Prop
  | .ok a => Q a
  | .error e => allowed e

/-- Throw `e` if the condition holds. -/
def rejectIf (c : Prop) [Decidable c] (e : ε) : Except ε Unit := if c then .error e else .ok ()

namespace Yields

variable {allowed : ε → Prop} {P Q : α → Prop} {R : β → Prop} {x : Except ε α}

lemma bind {f : α → Except ε β} (hx : Yields allowed P x)
    (hf : ∀ a, P a → Yields allowed R (f a)) : Yields allowed R (x >>= f) := by
  cases x with
  | ok a => exact hf a hx
  | error e => exact hx

lemma mono (hx : Yields allowed P x) (h : ∀ a, P a → Q a) : Yields allowed Q x := by
  cases x with
  | ok a => exact h a hx
  | error e => exact hx

lemma rejectIf {c : Prop} [Decidable c] {e : ε} (he : allowed e) :
    Yields allowed (fun _ => ¬c) (rejectIf c e) := by
  by_cases hc : c
  · rw [Checked.rejectIf, if_pos hc]
    exact he
  · rw [Checked.rejectIf, if_neg hc]
    exact hc

/-- A triple about a computation that is known to return. -/
lemma of_eq_ok {a : α} (hx : Yields allowed P x) (h : x = .ok a) : P a := by
  rw [h] at hx
  exact hx

lemma of_eq_error {e : ε} (hx : Yields allowed P x) (h : x = .error e) : allowed e := by
  rw [h] at hx
  exact hx

end Yields

lemma rejectIf_of_not {c : Prop} [Decidable c] {e : ε} (h : ¬c) : rejectIf c e = .ok () := if_neg h

lemma bind_rejectIf {γ : Type} {c : Prop} [Decidable c] (h : c) (e : ε) (f : Unit → Except ε γ) :
    (rejectIf c e >>= f) = .error e := by
  rw [rejectIf, if_pos h]
  rfl

lemma bind_ok {x : Except ε α} {a : α} (h : x = .ok a) (f : α → Except ε β) : (x >>= f) = f a := by
  rw [h]
  rfl

/-- A block that returns has passed its first statement. -/
lemma of_bind_ok {x : Except ε α} {f : α → Except ε β} {b : β} (h : (x >>= f) = .ok b) :
    ∃ a, x = .ok a ∧ f a = .ok b := by
  cases x with
  | ok a => exact ⟨a, rfl, h⟩
  | error e => cases h

/-- A block that throws has thrown in its first statement or after it. -/
lemma of_bind_error {x : Except ε α} {f : α → Except ε β} {e : ε} (h : (x >>= f) = .error e) :
    x = .error e ∨ ∃ a, x = .ok a ∧ f a = .error e := by
  cases x with
  | ok a => exact Or.inr ⟨a, rfl, h⟩
  | error e' => exact Or.inl (by cases h; rfl)

/-- What every turn of a loop keeps holds after a loop that returns. -/
lemma of_foldlM_ok {P : α → Prop} {f : α → β → Except ε α} {l : List β} {a a' : α}
    (hstep : ∀ a b a', P a → f a b = .ok a' → P a') (h : l.foldlM f a = .ok a') (ha : P a) : P a' := by
  induction l generalizing a with
  | nil =>
    cases h
    exact ha
  | cons b l ih =>
    rw [List.foldlM_cons] at h
    obtain ⟨next, hnext, hrest⟩ := of_bind_ok h
    exact ih hrest (hstep a b next ha hnext)

/-! ### Lists of optional values -/

section MapM

variable {γ δ : Type u} {f : γ → Option δ} {g : δ → γ} {l : List γ} {l' : List δ}

/-- Reading inverts writing, item by item. -/
lemma mapM_eq_some_iff (h : ∀ c d, f c = some d ↔ g d = c) : l.mapM f = some l' ↔ l'.map g = l := by
  induction l generalizing l' with
  | nil =>
    rw [List.mapM_nil, List.map_eq_nil_iff]
    exact ⟨fun hnil => (Option.some.inj hnil).symm, fun hnil => hnil ▸ rfl⟩
  | cons c l ih =>
    rw [List.mapM_cons]
    constructor
    · intro hread
      obtain ⟨d, hd, hread⟩ := Option.bind_eq_some_iff.mp hread
      obtain ⟨rest, hrest, hread⟩ := Option.bind_eq_some_iff.mp hread
      cases hread
      rw [List.map_cons, (h c d).mp hd, ih.mp hrest]
    · intro hwrite
      cases l' with
      | nil => cases hwrite
      | cons d rest =>
        rw [List.map_cons, List.cons.injEq] at hwrite
        rw [(h c d).mpr hwrite.1, ih.mpr hwrite.2]
        rfl

lemma exists_mapM (h : ∀ c ∈ l, ∃ d, f c = some d) : ∃ l', l.mapM f = some l' := by
  induction l with
  | nil => exact ⟨[], rfl⟩
  | cons c l ih =>
    obtain ⟨d, hd⟩ := h c List.mem_cons_self
    obtain ⟨rest, hrest⟩ := ih fun e he => h e (List.mem_cons_of_mem _ he)
    refine ⟨d :: rest, ?_⟩
    rw [List.mapM_cons, hd, hrest]
    rfl

end MapM

end Checked
