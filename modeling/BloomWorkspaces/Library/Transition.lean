import Mathlib.Data.Nat.Basic
import Mathlib.Logic.Relation

/-!
# Runs of a step function

A labelled system is a partial step function `step : σ → α → Option σ`: the label `a` is enabled in
the state `s` when `step s a` is `some s'`. A run may be restricted by a condition on the state and
the label of each of its steps, which is how an assumption about the environment is stated.
-/

namespace Transition

variable {σ τ α β : Type*}

/-- One step from `s` to `s'` whose label meets the condition `allowed` in `s`. -/
def Next (step : σ → α → Option σ) (allowed : σ → α → Prop) (s s' : σ) : Prop :=
  ∃ a, allowed s a ∧ step s a = some s'

/-- `s'` is reached from `s` by finitely many allowed steps. -/
def Leads (step : σ → α → Option σ) (allowed : σ → α → Prop) : σ → σ → Prop :=
  Relation.ReflTransGen (Next step allowed)

/-- The condition that every step meets. -/
def anyStep (_ : σ) (_ : α) : Prop := True

namespace Leads

variable {step : σ → α → Option σ} {allowed : σ → α → Prop} {s s' s'' : σ}

lemma refl (s : σ) : Leads step allowed s s := Relation.ReflTransGen.refl

lemma trans (h : Leads step allowed s s') (h' : Leads step allowed s' s'') :
    Leads step allowed s s'' := Relation.ReflTransGen.trans h h'

lemma tail {a : α} (h : Leads step allowed s s') (ha : allowed s' a)
    (hs : step s' a = some s'') : Leads step allowed s s'' :=
  Relation.ReflTransGen.tail h ⟨a, ha, hs⟩

lemma single {a : α} (ha : allowed s a) (hs : step s a = some s') : Leads step allowed s s' :=
  (refl s).tail ha hs

/-- A run is empty or begins with a step. -/
lemma cases_head_iff :
    Leads step allowed s s' ↔
      s = s' ∨ ∃ a t, allowed s a ∧ step s a = some t ∧ Leads step allowed t s' := by
  rw [Leads, Relation.ReflTransGen.cases_head_iff]
  constructor
  · rintro (rfl | ⟨t, ⟨a, ha, hs⟩, h⟩)
    · exact Or.inl rfl
    · exact Or.inr ⟨a, t, ha, hs, h⟩
  · rintro (rfl | ⟨a, t, ha, hs, h⟩)
    · exact Or.inl rfl
    · exact Or.inr ⟨t, ⟨a, ha, hs⟩, h⟩

/-- What holds at the start and is kept by every allowed step holds along the whole run. -/
theorem invariant (I : σ → Prop) (h : Leads step allowed s s') (h₀ : I s)
    (hstep : ∀ t a t', I t → allowed t a → step t a = some t' → I t') : I s' := by
  induction h with
  | refl => exact h₀
  | tail _ hnext ih =>
    obtain ⟨a, ha, hs⟩ := hnext
    exact hstep _ a _ ih ha hs

/-- A run under one condition is a run under every weaker one. -/
lemma mono {allowed' : σ → α → Prop} (h : Leads step allowed s s')
    (hle : ∀ t a, allowed t a → allowed' t a) : Leads step allowed' s s' := by
  refine Relation.ReflTransGen.mono (fun t t' hnext => ?_) _ _ h
  obtain ⟨a, ha, hs⟩ := hnext
  exact ⟨a, hle t a ha, hs⟩

/-- A map of states that turns each allowed step into a run turns runs into runs. -/
theorem map {step' : τ → β → Option τ} {allowed' : τ → β → Prop} (f : σ → τ)
    (h : Leads step allowed s s')
    (hstep : ∀ t a t', allowed t a → step t a = some t' → Leads step' allowed' (f t) (f t')) :
    Leads step' allowed' (f s) (f s') := by
  induction h with
  | refl => exact refl _
  | tail _ hnext ih =>
    obtain ⟨a, ha, hs⟩ := hnext
    exact ih.trans (hstep _ a _ ha hs)

end Leads

/-! ### Executing a list of labels -/

/-- Execute the labels in order, stopping with `none` at the first one that is not enabled. -/
def exec (step : σ → α → Option σ) : σ → List α → Option σ
  | s, [] => some s
  | s, a :: as =>
    match step s a with
    | some s' => exec step s' as
    | none => none

/-- An executed list of labels is an unrestricted run. -/
theorem leads_of_exec {step : σ → α → Option σ} {as : List α} {s s' : σ}
    (h : exec step s as = some s') : Leads step anyStep s s' := by
  induction as generalizing s with
  | nil =>
    cases h
    exact Leads.refl _
  | cons a as ih =>
    simp only [exec] at h
    split at h
    · rename_i t ht
      exact (Leads.single trivial ht).trans (ih h)
    · cases h

/-- The system whose labels are only enabled where a decidable condition holds. -/
def guard (step : σ → α → Option σ) (allowed : σ → α → Bool) (s : σ) (a : α) : Option σ :=
  if allowed s a then step s a else none

/-- An executed list of labels of the guarded system is a run under the condition. -/
theorem leads_of_exec_guard {step : σ → α → Option σ} {allowed : σ → α → Bool} {as : List α}
    {s s' : σ} (h : exec (guard step allowed) s as = some s') :
    Leads step (fun s a => allowed s a = true) s s' := by
  refine Leads.map id (leads_of_exec h) fun t a t' _ hs => ?_
  simp only [guard] at hs
  split at hs
  · rename_i ha
    exact Leads.single ha hs
  · cases hs

/-! ### Histories -/

section Record

variable {ε : Type*} {step : σ → α → Option σ} {observe : σ → σ → List ε}

/-- The system that also keeps, in order, what `observe` sees of each step. -/
def record (step : σ → α → Option σ) (observe : σ → σ → List ε) (s : σ × List ε) (a : α) :
    Option (σ × List ε) :=
  (step s.1 a).map fun s' => (s', s.2 ++ observe s.1 s')

lemma record_eq_some {s s' : σ × List ε} {a : α} :
    record step observe s a = some s' ↔
      step s.1 a = some s'.1 ∧ s'.2 = s.2 ++ observe s.1 s'.1 := by
  simp only [record, Option.map_eq_some_iff]
  constructor
  · rintro ⟨t, ht, rfl⟩
    exact ⟨ht, rfl⟩
  · rintro ⟨ht, hs'⟩
    exact ⟨s'.1, ht, Prod.ext rfl hs'.symm⟩

end Record

/-! ### Bounded work -/

section Counted

variable {step : σ → α → Option σ} {counts : α → Bool} {allowed : σ → α → Prop} {s s' : σ} {n n' : ℕ}

/-- The system that also counts the labels that `counts` selects. -/
def counted (step : σ → α → Option σ) (counts : α → Bool) (s : σ × ℕ) (a : α) : Option (σ × ℕ) :=
  (step s.1 a).map fun s' => (s', s.2 + if counts a then 1 else 0)

/-- Every counted step takes from the work that is left, so the work bounds their number. -/
theorem Leads.add_work_le (I : σ → Prop) (work : σ → ℕ)
    (h : Leads (counted step counts) (fun t => allowed t.1) (s, n) (s', n')) (h₀ : I s)
    (hstep : ∀ t a t', I t → allowed t a → step t a = some t' →
      I t' ∧ work t' + (if counts a then 1 else 0) ≤ work t) :
    I s' ∧ n' + work s' ≤ n + work s := by
  refine Leads.invariant (fun t => I t.1 ∧ t.2 + work t.1 ≤ n + work s) h ⟨h₀, le_rfl⟩ ?_
  rintro ⟨t, m⟩ a ⟨t', m'⟩ ⟨ht, hle⟩ ha hs
  simp only [counted, Option.map_eq_some_iff, Prod.mk.injEq] at hs
  obtain ⟨u, hu, rfl, rfl⟩ := hs
  obtain ⟨hI, hwork⟩ := hstep t a u ht ha hu
  refine ⟨hI, ?_⟩
  simp only at hle ⊢
  omega

end Counted

/-! ### What has begun and not ended -/

section Since

variable {step : σ → α → Option σ} {opens closes : σ → α → Prop} {s s' : σ} {labels : List α}

/-- No label of the execution closes. -/
def NeverCloses (step : σ → α → Option σ) (closes : σ → α → Prop) : σ → List α → Prop
  | _, [] => True
  | s, a :: labels => ¬closes s a ∧ ∀ s', step s a = some s' → NeverCloses step closes s' labels

/-- A label of the execution opens, and none after it closes. -/
def Since (step : σ → α → Option σ) (opens closes : σ → α → Prop) : σ → List α → Prop
  | _, [] => False
  | s, a :: labels => ∃ s', step s a = some s' ∧
    (opens s a ∧ NeverCloses step closes s' labels ∨ Since step opens closes s' labels)

/-- What holds after a step exactly when the step has opened it, or it held and the step has not closed it,
holds after an execution exactly when it was opened and not closed since, or held from the start. -/
theorem live_iff_since (live I : σ → Prop) (hrun : exec step s labels = some s') (h₀ : I s)
    (hI : ∀ t a t', I t → step t a = some t' → I t')
    (hstep : ∀ t a t', I t → step t a = some t' → (live t' ↔ opens t a ∨ live t ∧ ¬closes t a)) :
    live s' ↔ live s ∧ NeverCloses step closes s labels ∨ Since step opens closes s labels := by
  induction labels generalizing s with
  | nil =>
    cases hrun
    simp only [NeverCloses, Since, and_true, or_false]
  | cons a labels ih =>
    simp only [exec] at hrun
    split at hrun
    · rename_i t ht
      have hcloses : NeverCloses step closes s (a :: labels) ↔
          ¬closes s a ∧ NeverCloses step closes t labels := by
        simp only [NeverCloses, ht, Option.some.injEq, forall_eq']
      have hsince : Since step opens closes s (a :: labels) ↔
          opens s a ∧ NeverCloses step closes t labels ∨ Since step opens closes t labels := by
        simp only [Since, ht, Option.some.injEq, exists_eq_left']
      rw [ih hrun (hI s a t h₀ ht), hstep s a t h₀ ht, hcloses, hsince, or_and_right, and_assoc, or_assoc,
        or_left_comm]
    · cases hrun

end Since

end Transition
