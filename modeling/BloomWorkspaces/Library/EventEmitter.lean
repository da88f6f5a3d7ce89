import Mathlib.Data.List.Basic

/-!
# Listeners of an error event

An error that no listener takes ends the process. A listener may stay, or be taken off before it is
called. A third kind yields: it takes itself off, and emits the error again where no listener is left.
Such is the one that `pipe` puts on its destination.
-/

namespace EventEmitter

inductive Manner
  | stays
  | once
  | yields
  deriving DecidableEq, Repr

structure Listener (ι : Type) where
  name : ι
  manner : Manner
  deriving DecidableEq, Repr

variable {ι : Type}

/-- Call the listeners of an emission in order. `kept` are those that stay among the called ones. The
first component says whether the error was taken, the second what is left. -/
def call (kept : List (Listener ι)) : List (Listener ι) → Bool × List (Listener ι)
  | [] => (true, kept)
  | l :: rest =>
    match l.manner with
    | .stays => call (kept ++ [l]) rest
    | .once => call kept rest
    | .yields => if kept ++ rest = [] then (false, []) else call kept rest

def emit (listeners : List (Listener ι)) : Bool × List (Listener ι) :=
  if listeners = [] then (false, []) else call [] listeners

variable {kept listeners : List (Listener ι)} {l : Listener ι}

@[simp] lemma emit_nil : emit ([] : List (Listener ι)) = (false, []) := rfl

lemma call_stays (hl : l.manner = .stays) :
    call kept (l :: listeners) = call (kept ++ [l]) listeners := by
  rw [call, hl]

lemma call_once (hl : l.manner = .once) : call kept (l :: listeners) = call kept listeners := by
  rw [call, hl]

lemma call_yields (hl : l.manner = .yields) :
    call kept (l :: listeners) =
      if kept ++ listeners = [] then (false, []) else call kept listeners := by
  rw [call, hl]

/-- Where a listener has stayed, the error is taken. -/
lemma call_of_kept (hkept : kept ≠ []) : (call kept listeners).1 = true := by
  induction listeners generalizing kept with
  | nil => rfl
  | cons l rest ih =>
    cases hl : l.manner with
    | stays =>
      rw [call_stays hl]
      exact ih (by simp)
    | once =>
      rw [call_once hl]
      exact ih hkept
    | yields =>
      rw [call_yields hl, if_neg (by simp [hkept])]
      exact ih hkept

/-- The error is taken if a listener stays or the last one does not yield. -/
lemma call_nil_iff (hne : listeners ≠ []) :
    (call [] listeners).1 = true ↔
      (∃ l ∈ listeners, l.manner = .stays) ∨ ∃ l, listeners.getLast? = some l ∧ l.manner ≠ .yields := by
  induction listeners with
  | nil => exact absurd rfl hne
  | cons l rest ih =>
    by_cases hrest : rest = []
    · subst hrest
      cases hl : l.manner with
      | stays => simp [call, hl]
      | once => simp [call, hl]
      | yields => simp [call_yields hl, hl]
    · have hlast : (l :: rest).getLast? = rest.getLast? := by
        rw [List.getLast?_cons_of_ne_nil hrest]
      rw [hlast]
      cases hl : l.manner with
      | stays =>
        rw [call_stays hl]
        simp only [call_of_kept (by simp : [] ++ [l] ≠ []), true_iff]
        exact Or.inl ⟨l, List.mem_cons_self, hl⟩
      | once =>
        rw [call_once hl, ih hrest]
        simp [hl]
      | yields =>
        rw [call_yields hl, if_neg (by simp [hrest]), ih hrest]
        simp [hl]

/-- When an error is taken. -/
theorem emit_taken_iff :
    (emit listeners).1 = true ↔
      (∃ l ∈ listeners, l.manner = .stays) ∨ ∃ l, listeners.getLast? = some l ∧ l.manner ≠ .yields := by
  by_cases hne : listeners = []
  · simp [hne]
  · rw [emit, if_neg hne]
    exact call_nil_iff hne

/-- A last listener that is called once. -/
lemma emit_taken_of_concat (listeners : List (Listener ι)) (hl : l.manner = .once) :
    (emit (listeners ++ [l])).1 = true := by
  rw [emit_taken_iff]
  refine Or.inr ⟨l, List.getLast?_concat, ?_⟩
  rw [hl]
  exact nofun

end EventEmitter
