import BloomWorkspaces.Library.Routine
import Mathlib.Algebra.Order.Group.Multiset
import Mathlib.Data.Finset.Card
import Mathlib.Data.Finset.Erase
import Mathlib.Data.Finset.Range

/-!
# Descriptors

Programs that open and close descriptors, whatever their calls answer. A descriptor that is left open
and handed to nobody is lost. A program is balanced when it closes only what is open, and loses something
exactly when a call has had an answer that is known to be harmful.
-/

namespace Descriptors

/-- The open descriptors, the number of closes that hit none, and what the calls have answered. -/
structure State (ν : Type) where
  table : Finset ℕ
  stray : ℕ
  log : List ν

abbrev Program (ι ν ε α : Type) := Routine (State ν) ι ε α

/-- The descriptor that a call opens is the least that is free. -/
def lowestFree (table : Finset ℕ) : ℕ := ((List.range (table.card + 1)).find? (· ∉ table)).getD 0

lemma lowestFree_notMem (table : Finset ℕ) : lowestFree table ∉ table := by
  cases hfind : (List.range (table.card + 1)).find? (· ∉ table) with
  | some n =>
    rw [lowestFree, hfind]
    simpa using List.find?_some hfind
  | none =>
    have hsub : Finset.range (table.card + 1) ⊆ table := by
      intro n hn
      have hin := List.find?_eq_none.mp hfind n (List.mem_range.mpr (Finset.mem_range.mp hn))
      simpa using hin
    have hcard := Finset.card_le_card hsub
    rw [Finset.card_range] at hcard
    omega

variable {ι ν ε δ α β : Type}

/-! ### Calls -/

/-- A call that opens a descriptor, or fails. -/
def acquire (answer : ι → Except δ Unit) (event : ι → ν) : Program ι ν ε (Except δ ℕ) :=
  .await
    (fun i s =>
      match answer i with
      | .ok () => { s with table := insert (lowestFree s.table) s.table, log := event i :: s.log }
      | .error _ => { s with log := event i :: s.log })
    fun i s => .returns ((answer i).map fun _ => lowestFree s.table)

/-- The call closes the descriptor, whatever it answers. -/
def release (fd : ℕ) : Program ι ν ε Unit :=
  .await
    (fun _ s =>
      if fd ∈ s.table then { s with table := s.table.erase fd } else { s with stray := s.stray + 1 })
    fun _ _ => .returns ()

/-- A call that leaves the descriptors as they are. -/
def look (answer : ι → β) (event : ι → ν) : Program ι ν ε β :=
  .await (fun i s => { s with log := event i :: s.log }) fun i _ => .returns (answer i)

def ofExcept : Except ε α → Program ι ν ε α
  | .ok a => .returns a
  | .error e => .throws e

/-- Run the body and close the descriptor, however the body ends. -/
def closing (fd : ℕ) (body : Program ι ν ε α) : Program ι ν ε α := do
  let result ← body.attempt
  release fd
  ofExcept result

/-! ### Balance -/

/-- What a program has in its hands. It is doomed when an answer already seen will have it lose some. -/
structure Holding where
  fds : Multiset ℕ
  doomed : Prop

/-- Nothing in its hands. -/
def Holding.nothing : Holding := ⟨0, False⟩

def Holding.one (fd : ℕ) : Holding := ⟨{fd}, False⟩

variable (harmful : ν → Prop)

/-- Between `s` and `s'` the program has closed only what was open. Beside the `others` it has `after`, and
what it has lost, which is nothing unless it has seen a harmful answer. -/
def Settled (others : Multiset ℕ) (doomed : Prop) (s : State ν) (after : Holding) (s' : State ν) : Prop :=
  ∃ seen lost, s'.log = seen ++ s.log ∧ s'.stray = s.stray ∧
    s'.table.val = others + after.fds + lost ∧
    (doomed ∨ (∃ e ∈ seen, harmful e) ↔ lost ≠ 0 ∨ after.doomed)

/-- With `before` in its hands the program ends with `after`, however it ends. -/
def Balanced (before : Holding) (x : Program ι ν ε α) (after : Except ε α → Holding) : Prop :=
  ∀ s others, s.table.val = others + before.fds →
    x.Ensures (fun _ => True) (fun a => Settled harmful others before.doomed s (after (.ok a)))
      (fun e => Settled harmful others before.doomed s (after (.error e))) s

/-- The program gives back all that it opens. -/
def Tidy (x : Program ι ν ε α) : Prop := Balanced harmful .nothing x fun _ => .nothing

/-- What a program that does not throw has kept. -/
def kept (holding : Holding) : Except ε α → Holding
  | .ok _ => holding
  | .error _ => .nothing

/-- The program does not throw, and gives back all that it opens. -/
def Calm (x : Program ι ν ε α) : Prop := ∀ fds, Balanced harmful ⟨fds, False⟩ x (kept ⟨fds, False⟩)

variable {harmful} {before middle : Holding} {others : Multiset ℕ} {doomed : Prop} {s s' s'' : State ν}
  {x : Program ι ν ε α} {f : α → Program ι ν ε β} {after mid : Except ε α → Holding}
  {fd : ℕ}

lemma Settled.refl (h : s.table.val = others + before.fds) : Settled harmful others before.doomed s before s :=
  ⟨[], 0, rfl, rfl, by rw [h, add_zero], by simp⟩

lemma balanced_returns {a : α} (h : after (.ok a) = before) :
    Balanced harmful before (.returns a : Program ι ν ε α) after := by
  intro s others htable
  rw [Routine.ensures_returns, h]
  exact Settled.refl htable

lemma balanced_throws {e : ε} (h : after (.error e) = before) :
    Balanced harmful before (.throws e : Program ι ν ε α) after := by
  intro s others htable
  rw [Routine.ensures_throws, h]
  exact Settled.refl htable

/-- A doomed program gives up a descriptor. -/
lemma balanced_drop {a : α} {fds : Multiset ℕ} (h : (after (.ok a)).fds = fds) :
    Balanced harmful ⟨fd ::ₘ fds, True⟩ (.returns a : Program ι ν ε α) after := by
  intro s others htable
  refine ⟨[], {fd}, rfl, rfl, ?_, by simp⟩
  rw [h, htable, add_assoc, add_comm fds, Multiset.singleton_add]

/-- What comes after takes the losses before it for descriptors of others. -/
lemma Settled.trans {lost : Multiset ℕ} {seen : List ν} {middle after : Holding}
    (hlog : s'.log = seen ++ s.log) (hstray : s'.stray = s.stray)
    (hlost : doomed ∨ (∃ e ∈ seen, harmful e) ↔ lost ≠ 0 ∨ middle.doomed)
    (h : Settled harmful (others + lost) middle.doomed s' after s'') :
    Settled harmful others doomed s after s'' := by
  obtain ⟨seen', lost', hlog', hstray', htable, hlost'⟩ := h
  refine ⟨seen' ++ seen, lost + lost', ?_, hstray'.trans hstray, ?_, ?_⟩
  · rw [hlog', hlog, List.append_assoc]
  · rw [htable, add_right_comm others, add_assoc]
  · have hsum : lost + lost' = 0 ↔ lost = 0 ∧ lost' = 0 := by
      simp only [← Multiset.card_eq_zero, Multiset.card_add, Nat.add_eq_zero_iff]
    have hseen : (∃ e ∈ seen' ++ seen, harmful e) ↔
        (∃ e ∈ seen, harmful e) ∨ ∃ e ∈ seen', harmful e := by
      simp only [List.mem_append, or_and_right, exists_or]
      exact or_comm
    rw [hseen, ← or_assoc, hlost, or_assoc, hlost', ne_eq, ne_eq, ne_eq, hsum, not_and_or, or_assoc]

theorem Balanced.bind {after : Except ε β → Holding} (hx : Balanced harmful before x mid)
    (hf : ∀ a, Balanced harmful (mid (.ok a)) (f a) after)
    (herror : ∀ e, mid (.error e) = after (.error e)) : Balanced harmful before (x >>= f) after := by
  intro s others htable
  rw [Routine.ensures_bind]
  refine (hx s others htable).mono (fun a s' hs' => ?_) fun e s' hs' => herror e ▸ hs'
  obtain ⟨seen, lost, hlog, hstray, htable', hlost⟩ := hs'
  have hrest := hf a s' (others + lost) (by rw [htable', add_right_comm])
  exact hrest.mono (fun b s'' => Settled.trans hlog hstray hlost) fun e s'' =>
    Settled.trans hlog hstray hlost

/-- Descriptors that a program has beside its own stay in its hands. -/
theorem Balanced.frame (hx : Balanced harmful .nothing x after) (fds : Multiset ℕ) :
    Balanced harmful ⟨fds, False⟩ x fun r => ⟨(after r).fds + fds, (after r).doomed⟩ := by
  intro s others htable
  have hx' := hx s (others + fds) (htable.trans (add_zero _).symm)
  have hset : ∀ (r : Except ε α) (s' : State ν), Settled harmful (others + fds) False s (after r) s' →
      Settled harmful others False s ⟨(after r).fds + fds, (after r).doomed⟩ s' := by
    rintro r s' ⟨seen, lost, hlog, hstray, htable', hlost⟩
    refine ⟨seen, lost, hlog, hstray, ?_, hlost⟩
    rw [htable', add_assoc others, add_comm fds]
  exact hx'.mono (fun a => hset (.ok a)) fun e => hset (.error e)

lemma Balanced.attempt {final : Except ε (Except ε α) → Holding} (hx : Balanced harmful before x after)
    (hfinal : ∀ r, final (.ok r) = after r) : Balanced harmful before x.attempt final := by
  intro s others htable
  rw [Routine.ensures_attempt]
  refine (hx s others htable).mono (fun a s' hs' => ?_) fun e s' hs' => ?_
  · rw [hfinal]
    exact hs'
  · rw [hfinal]
    exact hs'

/-! ### Calls in balance -/

/-- A call that opens a descriptor is harmless, or it fails and dooms what goes on from there. -/
lemma balanced_acquire {answer : ι → Except δ Unit} {event : ι → ν} {fds : Multiset ℕ}
    {after : Except ε (Except δ ℕ) → Holding} (hok : ∀ i, answer i = .ok () → ¬harmful (event i))
    (hone : ∀ fd, after (.ok (.ok fd)) = ⟨fd ::ₘ fds, False⟩)
    (hfds : ∀ e, (after (.ok (.error e))).fds = fds)
    (hdoomed : ∀ i e, answer i = .error e → ((after (.ok (.error e))).doomed ↔ harmful (event i))) :
    Balanced harmful ⟨fds, False⟩ (acquire answer event) after := by
  intro s others htable i
  have htable' : s.table.val = others + fds := htable
  refine ⟨trivial, [event i], 0, ?_⟩
  cases hanswer : answer i with
  | ok =>
    have hharmless := hok i hanswer
    simp only [hanswer, Except.map, hone]
    refine ⟨rfl, trivial, ?_, by simp [hharmless]⟩
    rw [Finset.insert_val_of_notMem (lowestFree_notMem s.table), htable', add_zero, Multiset.add_cons]
  | error e =>
    simp only [hanswer, Except.map]
    refine ⟨rfl, trivial, ?_, by simp [hdoomed i e hanswer]⟩
    rw [hfds, htable', add_zero]

lemma balanced_release (fd : ℕ) (fds : Multiset ℕ) (doomed : Prop) :
    Balanced harmful ⟨fd ::ₘ fds, doomed⟩ (release fd : Program ι ν ε Unit) (kept ⟨fds, doomed⟩) := by
  intro s others htable i
  refine ⟨trivial, [], 0, ?_⟩
  have hopen : fd ∈ s.table := by
    rw [← Finset.mem_val, htable]
    exact Multiset.mem_add.mpr (Or.inr (Multiset.mem_cons_self fd fds))
  simp only [if_pos hopen]
  refine ⟨rfl, trivial, ?_, by simp [kept]⟩
  rw [Finset.erase_val, htable, add_zero, Multiset.add_cons, Multiset.erase_cons_head]
  rfl

lemma balanced_look {answer : ι → β} {event : ι → ν} {after : Except ε β → Holding}
    (hfds : ∀ i, (after (.ok (answer i))).fds = before.fds)
    (hdoomed : ∀ i, (after (.ok (answer i))).doomed ↔ before.doomed ∨ harmful (event i)) :
    Balanced harmful before (look answer event : Program ι ν ε β) after := by
  intro s others htable i
  refine ⟨trivial, [event i], 0, rfl, rfl, ?_, ?_⟩
  · rw [hfds, add_zero]
    exact htable
  · rw [hdoomed]
    simp

/-! ### The table -/

/-- The table is as it was, with the descriptor that is handed over beside it. -/
def Leaves (table : Finset ℕ) (fd : Option ℕ) (s : State ν) : Prop :=
  match fd with
  | none => s.table = table
  | some fd => fd ∉ table ∧ s.table = insert fd table

instance (table : Finset ℕ) (fd : Option ℕ) (s : State ν) : Decidable (Leaves table fd s) :=
  match fd with
  | none => inferInstanceAs (Decidable (_ = _))
  | some _ => inferInstanceAs (Decidable (_ ∧ _))

lemma leaves_iff {table : Finset ℕ} {fd : Option ℕ} {lost : Multiset ℕ}
    (h : s.table.val = table.val + (fd.elim 0 fun fd => {fd}) + lost) : Leaves table fd s ↔ lost = 0 := by
  cases fd with
  | none =>
    rw [Option.elim_none, add_zero] at h
    rw [Leaves, ← Finset.val_inj, h]
    exact add_eq_left
  | some fd =>
    rw [Option.elim_some] at h
    constructor
    · rintro ⟨hfd, heq⟩
      rw [heq, Finset.insert_val_of_notMem hfd, add_comm table.val, Multiset.singleton_add] at h
      exact add_eq_left.mp h.symm
    · rintro rfl
      rw [add_zero, add_comm, Multiset.singleton_add] at h
      have hfd : fd ∉ table := (Multiset.nodup_cons.mp (h ▸ s.table.nodup)).1
      refine ⟨hfd, ?_⟩
      rw [← Finset.val_inj, h, Finset.insert_val_of_notMem hfd]

/-- What a balanced program does to the table, from its start. -/
theorem Settled.leaves {table : Finset ℕ} {after : Holding}
    (h : Settled harmful table.val False ⟨table, 0, []⟩ after s) (fd : Option ℕ)
    (hafter : after = fd.elim .nothing .one) :
    s.stray = 0 ∧ (Leaves table fd s ↔ ∀ e ∈ s.log, ¬harmful e) := by
  obtain ⟨seen, lost, hlog, hstray, htable, hlost⟩ := h
  have hfds : after.fds = fd.elim 0 fun fd => {fd} := by
    rw [hafter]
    cases fd <;> rfl
  have hdoomed : ¬after.doomed := by
    rw [hafter]
    cases fd <;> exact not_false
  refine ⟨hstray, ?_⟩
  rw [leaves_iff (hfds ▸ htable), hlog, List.append_nil]
  rw [false_or, or_iff_left hdoomed] at hlost
  rw [← not_iff_not, ← ne_eq, ← hlost]
  push Not
  rfl

/-! ### Tidy and calm programs -/

lemma tidy_returns (a : α) : Tidy harmful (.returns a : Program ι ν ε α) := balanced_returns rfl

lemma tidy_throws (e : ε) : Tidy harmful (.throws e : Program ι ν ε α) := balanced_throws rfl

lemma tidy_ofExcept (r : Except ε α) : Tidy harmful (ofExcept r : Program ι ν ε α) := by
  cases r with
  | ok a => exact tidy_returns a
  | error e => exact tidy_throws e

lemma Tidy.bind (hx : Tidy harmful x) (hf : ∀ a, Tidy harmful (f a)) : Tidy harmful (x >>= f) :=
  Balanced.bind hx hf fun _ => rfl

lemma Calm.tidy (hx : Calm harmful x) : Tidy harmful x := by
  have hkept : (kept .nothing : Except ε α → Holding) = fun _ => .nothing := by
    funext r
    cases r <;> rfl
  have hzero : Balanced harmful .nothing x (kept .nothing) := hx 0
  rwa [hkept] at hzero

lemma calm_returns (a : α) : Calm harmful (.returns a : Program ι ν ε α) := fun _ => balanced_returns rfl

lemma Calm.bind (hx : Calm harmful x) (hf : ∀ a, Calm harmful (f a)) : Calm harmful (x >>= f) :=
  fun fds => Balanced.bind (hx fds) (fun a => hf a fds) fun _ => rfl

lemma calm_look {answer : ι → β} {event : ι → ν} (h : ∀ i, ¬harmful (event i)) :
    Calm harmful (look answer event : Program ι ν ε β) := fun _ =>
  balanced_look (fun _ => rfl) fun i => by simp [kept, h i]

lemma Tidy.attempt (hx : Tidy harmful x) : Calm harmful x.attempt := fun fds =>
  Balanced.attempt (Balanced.frame hx fds) fun _ => by simp [kept, Holding.nothing]

/-- A body that gives back what it opens may be run with a descriptor that is closed after it. -/
theorem balanced_closing (hx : Tidy harmful x) :
    Balanced harmful (.one fd) (closing fd x) fun _ => .nothing :=
  Balanced.bind (hx.attempt {fd}) (fun result =>
    Balanced.bind (balanced_release fd 0 False) (fun _ => tidy_ofExcept result) fun _ => rfl) fun _ => rfl

end Descriptors
