import Mathlib.Data.List.Count

/-!
# Sliding windows

A history of dated events in the order of their dates. A limiter that admits an event only while few
others lie in the window that ends with it keeps every window small, wherever it begins.
-/

namespace SlidingWindow

variable {ρ : Type*} {time : ρ → ℕ} {width limit start now : ℕ} {history : List ρ} {event : ρ}

/-- The date lies in the window that begins at `start`. -/
def within (width start date : ℕ) : Bool := start ≤ date && date < start + width

/-- A window that begins at `start` still reaches `now`. -/
def recent (width now date : ℕ) : Bool := now < date + width

lemma within_eq_true {date : ℕ} :
    within width start date = true ↔ start ≤ date ∧ date < start + width := by
  simp [within]

@[simp] lemma recent_eq_true {date : ℕ} : recent width now date = true ↔ now < date + width := by
  simp [recent]

/-- No window of the history holds more than `limit` of the events that `p` selects. -/
def Bounded (time : ρ → ℕ) (width limit : ℕ) (p : ρ → Bool) (history : List ρ) : Prop :=
  ∀ start, history.countP (fun e => p e && within width start (time e)) ≤ limit

lemma bounded_nil (p : ρ → Bool) : Bounded time width limit p [] := fun _ => Nat.zero_le _

/-- A window that an event ends in holds nothing but recent events. -/
lemma countP_within_le (time : ρ → ℕ) (history : List ρ) (p : ρ → Bool) (hend : now < start + width) :
    history.countP (fun e => p e && within width start (time e)) ≤
      history.countP (fun e => p e && recent width now (time e)) := by
  refine List.countP_mono_left fun e _ he => ?_
  simp only [Bool.and_eq_true, within_eq_true, recent_eq_true] at he ⊢
  exact ⟨he.1, by omega⟩

/-- An event may be added when it is not selected or the events that are recent leave room for it. -/
lemma Bounded.concat {p : ρ → Bool} (h : Bounded time width limit p history)
    (hroom : p event = true →
      history.countP (fun e => p e && recent width (time event) (time e)) < limit) :
    Bounded time width limit p (history ++ [event]) := by
  intro start
  rw [List.countP_append, List.countP_singleton]
  by_cases hin : (p event && within width start (time event)) = true
  · have hboth := hin
    simp only [Bool.and_eq_true, within_eq_true] at hboth
    have hlt := hroom hboth.1
    have hle := countP_within_le time history p hboth.2.2
    rw [if_pos hin]
    omega
  · rw [if_neg hin]
    exact h start

/-- What is recent later on is recent now. -/
lemma recent_mono {later date : ℕ} (hle : now ≤ later) (h : recent width later date = true) :
    recent width now date = true := by
  rw [recent_eq_true] at h ⊢
  omega

end SlidingWindow
