import Mathlib.Data.Nat.Notation

/-!
# Routines

A routine runs up to its next `await`, where others may run before it goes on. The answer of the environment
decides what the awaited operation does to the state, and how the routine goes on.
-/

inductive Routine (σ ι ε α : Type) : Type
  | returns (a : α)
  | throws (e : ε)
  | await (effect : ι → σ → σ) (next : ι → σ → Routine σ ι ε α)

namespace Routine

variable {σ ι ε α β : Type}

def bind : Routine σ ι ε α → (α → Routine σ ι ε β) → Routine σ ι ε β
  | returns a, f => f a
  | throws e, _ => throws e
  | await effect next, f => await effect fun i s => (next i s).bind f

instance : Monad (Routine σ ι ε) where
  pure := returns
  bind := bind

/-- The result of a routine as a value, be it an error. -/
def attempt : Routine σ ι ε α → Routine σ ι ε (Except ε α)
  | returns a => returns (.ok a)
  | throws e => returns (.error e)
  | await effect next => await effect fun i s => (next i s).attempt

@[simp] lemma pure_eq (a : α) : (pure a : Routine σ ι ε α) = returns a := rfl

@[simp] lemma returns_bind (a : α) (f : α → Routine σ ι ε β) : returns a >>= f = f a := rfl

@[simp] lemma throws_bind (e : ε) (f : α → Routine σ ι ε β) : throws e >>= f = throws e := rfl

@[simp] lemma await_bind (effect : ι → σ → σ) (next : ι → σ → Routine σ ι ε α)
    (f : α → Routine σ ι ε β) :
    await effect next >>= f = await effect fun i s => next i s >>= f := rfl

/-- What the routine ends in when the answers from the `n`th on are given to it. -/
def run (answers : ℕ → ι) : ℕ → Routine σ ι ε α → σ → Except ε α × σ
  | _, returns a, s => (.ok a, s)
  | _, throws e, s => (.error e, s)
  | n, await effect next, s => (next (answers n) s).run answers (n + 1) (effect (answers n) s)

/-! ### What a routine ensures -/

/-- Run from a state, with nothing in between, the routine leads to states with `I` only. Its value and the
last state are in `Q`, or its error and the last state are in `E`. -/
def Ensures (I : σ → Prop) (Q : α → σ → Prop) (E : ε → σ → Prop) : Routine σ ι ε α → σ → Prop
  | returns a, s => Q a s
  | throws e, s => E e s
  | await effect next, s => ∀ i, I (effect i s) ∧ (next i s).Ensures I Q E (effect i s)

variable {I : σ → Prop} {Q Q' : α → σ → Prop} {E E' : ε → σ → Prop} {x : Routine σ ι ε α} {s : σ}

@[simp] lemma ensures_returns (a : α) : (returns a : Routine σ ι ε α).Ensures I Q E s ↔ Q a s := Iff.rfl

@[simp] lemma ensures_throws (e : ε) : (throws e : Routine σ ι ε α).Ensures I Q E s ↔ E e s := Iff.rfl

lemma ensures_await {effect : ι → σ → σ} {next : ι → σ → Routine σ ι ε α} :
    (await effect next).Ensures I Q E s ↔
      ∀ i, I (effect i s) ∧ (next i s).Ensures I Q E (effect i s) := Iff.rfl

lemma Ensures.mono (h : x.Ensures I Q E s) (hQ : ∀ a s, Q a s → Q' a s) (hE : ∀ e s, E e s → E' e s) :
    x.Ensures I Q' E' s := by
  induction x generalizing s with
  | returns a => exact hQ a s h
  | throws e => exact hE e s h
  | await effect next ih => exact fun i => ⟨(h i).1, ih i s (h i).2⟩

/-- What is ensured for all answers holds for some that are given. -/
lemma Ensures.run (h : x.Ensures I Q E s) (answers : ℕ → ι) (n : ℕ) :
    match x.run answers n s with
    | (.ok a, s') => Q a s'
    | (.error e, s') => E e s' := by
  induction x generalizing n s with
  | returns a => exact h
  | throws e => exact h
  | await effect next ih => exact ih (answers n) s (h (answers n)).2 (n + 1)

lemma ensures_bind {R : β → σ → Prop} {f : α → Routine σ ι ε β} :
    (x >>= f).Ensures I R E s ↔ x.Ensures I (fun a s => (f a).Ensures I R E s) E s := by
  induction x generalizing s with
  | returns a => rfl
  | throws e => rfl
  | await effect next ih => exact forall_congr' fun i => and_congr_right fun _ => ih i s

lemma ensures_attempt {Q : Except ε α → σ → Prop} :
    x.attempt.Ensures I Q E s ↔ x.Ensures I (fun a => Q (.ok a)) (fun e => Q (.error e)) s := by
  induction x generalizing s with
  | returns a => rfl
  | throws e => rfl
  | await effect next ih => exact forall_congr' fun i => and_congr_right fun _ => ih i s

end Routine
