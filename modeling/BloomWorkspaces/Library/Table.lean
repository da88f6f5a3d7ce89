import Mathlib.Algebra.GroupWithZero.Nat
import Mathlib.Data.List.Nodup
import Mathlib.Data.List.Count

/-!
# Tables of rows

A table is the list of its rows in insertion order. `updateWhere` and `deleteWhere` are the two
statements that change rows in place; the number of rows an update touches is `countP`.
-/

namespace Table

variable {ρ κ : Type*}

/-- `UPDATE … WHERE p`: apply `f` to every row that satisfies `p`. -/
def updateWhere (p : ρ → Bool) (f : ρ → ρ) (t : List ρ) : List ρ :=
  t.map fun r => if p r then f r else r

/-- `DELETE … WHERE p`: drop every row that satisfies `p`. -/
def deleteWhere (p : ρ → Bool) (t : List ρ) : List ρ := t.filter fun r => !p r

lemma mem_updateWhere {p : ρ → Bool} {f : ρ → ρ} {t : List ρ} {r' : ρ} :
    r' ∈ updateWhere p f t ↔ ∃ r ∈ t, r' = if p r then f r else r := by
  simp only [updateWhere, List.mem_map, eq_comm]

@[simp] lemma mem_deleteWhere {p : ρ → Bool} {t : List ρ} {r : ρ} :
    r ∈ deleteWhere p t ↔ r ∈ t ∧ p r = false := by
  simp [deleteWhere]

/-- A column that the assignment keeps is the same column after the update. -/
lemma map_updateWhere {p : ρ → Bool} {f : ρ → ρ} {key : ρ → κ} (t : List ρ)
    (hf : ∀ r, key (f r) = key r) : (updateWhere p f t).map key = t.map key := by
  simp only [updateWhere, List.map_map]
  refine List.map_congr_left fun r _ => ?_
  by_cases hp : p r <;> simp [hp, hf]

/-- An update that takes its rows out of a selection leaves the others in it. -/
lemma filter_updateWhere_leave {p q : ρ → Bool} {f : ρ → ρ} (t : List ρ)
    (hf : ∀ r, q r = true → p (f r) = false) :
    (updateWhere q f t).filter p = (t.filter p).filter fun r => !q r := by
  induction t with
  | nil => rfl
  | cons r t ih =>
    rw [updateWhere] at ih
    rw [updateWhere, List.map_cons]
    by_cases hq : q r
    · rw [if_pos hq, List.filter_cons_of_neg (by simp [hf r hq]), ih, List.filter_cons]
      by_cases hp : p r <;> simp [hp, hq]
    · rw [if_neg hq, List.filter_cons, List.filter_cons, ih]
      by_cases hp : p r <;> simp [hp, hq]

lemma countP_deleteWhere_le (p q : ρ → Bool) (t : List ρ) :
    (deleteWhere p t).countP q ≤ t.countP q :=
  List.filter_sublist.countP_le

lemma map_deleteWhere_sublist (p : ρ → Bool) (key : ρ → κ) (t : List ρ) :
    ((deleteWhere p t).map key).Sublist (t.map key) :=
  List.filter_sublist.map key

/-- Rows are told apart by a duplicate-free key column. -/
lemma eq_of_key_eq {key : ρ → κ} {t : List ρ} (hnd : (t.map key).Nodup) {r r' : ρ}
    (hr : r ∈ t) (hr' : r' ∈ t) (h : key r = key r') : r = r' :=
  List.inj_on_of_nodup_map hnd hr hr' h

/-- The row that a lookup by a duplicate-free key finds. -/
lemma find?_key_eq_some [DecidableEq κ] {key : ρ → κ} {t : List ρ} (hnd : (t.map key).Nodup) {k : κ}
    {r : ρ} : t.find? (fun x => key x = k) = some r ↔ r ∈ t ∧ key r = k := by
  constructor
  · intro h
    exact ⟨List.mem_of_find?_eq_some h, of_decide_eq_true (List.find?_some h :)⟩
  · rintro ⟨hr, rfl⟩
    obtain ⟨r', hfind⟩ : ∃ r', t.find? (fun x => key x = key r) = some r' := by
      apply Option.isSome_iff_exists.mp
      rw [List.find?_isSome]
      exact ⟨r, hr, decide_eq_true rfl⟩
    have hkey : key r' = key r := of_decide_eq_true (List.find?_some hfind :)
    rw [hfind, eq_of_key_eq hnd (List.mem_of_find?_eq_some hfind) hr hkey]

/-- At most one row has a given key. -/
lemma countP_key_le_one [DecidableEq κ] {key : ρ → κ} {t : List ρ} (hnd : (t.map key).Nodup) (k : κ)
    {p : ρ → Bool} (hp : ∀ r ∈ t, p r = true → key r = k) : t.countP p ≤ 1 := by
  calc t.countP p
      ≤ t.countP (fun r => key r == k) := List.countP_mono_left fun r hr h => by simpa using hp r hr h
    _ = (t.map key).count k := by rw [List.count, List.countP_map]; rfl
    _ ≤ 1 := List.nodup_iff_count_le_one.mp hnd k

/-- Deleting the row with a key takes it out of every count that it is in. -/
lemma countP_deleteWhere_key [DecidableEq κ] {key : ρ → κ} {t : List ρ} (hnd : (t.map key).Nodup)
    {r : ρ} (hr : r ∈ t) (q : ρ → Bool) :
    t.countP q = (deleteWhere (fun x => key x = key r) t).countP q + if q r then 1 else 0 := by
  induction t with
  | nil => cases hr
  | cons x t ih =>
    rw [List.map_cons, List.nodup_cons] at hnd
    rcases List.mem_cons.mp hr with rfl | htail
    · have hrest : deleteWhere (fun x => key x = key r) t = t := by
        refine List.filter_eq_self.mpr fun x hx => ?_
        have hne : key x ≠ key r := fun h => hnd.1 (h ▸ List.mem_map_of_mem hx)
        simpa using hne
      rw [deleteWhere, List.filter_cons_of_neg (by simp), List.countP_cons]
      rw [deleteWhere] at hrest
      rw [hrest]
    · have hne : key x ≠ key r := fun h => hnd.1 (h ▸ List.mem_map_of_mem htail)
      rw [deleteWhere, List.filter_cons_of_pos (by simpa using hne), List.countP_cons,
        List.countP_cons, ih hnd.2 htail, deleteWhere]
      omega

/-- A table around the one row with a key. -/
lemma split_at_key {key : ρ → κ} {t : List ρ} (hnd : (t.map key).Nodup) {r : ρ} (hr : r ∈ t) :
    ∃ before after, t = before ++ r :: after ∧ (∀ x ∈ before, key x ≠ key r) ∧
      ∀ x ∈ after, key x ≠ key r := by
  obtain ⟨before, after, rfl⟩ := List.append_of_mem hr
  rw [List.map_append, List.map_cons, List.nodup_append, List.nodup_cons] at hnd
  obtain ⟨-, ⟨hafter, -⟩, hapart⟩ := hnd
  refine ⟨before, after, rfl, ?_, ?_⟩
  · intro x hx
    exact hapart _ (List.mem_map_of_mem hx) _ List.mem_cons_self
  · intro x hx heq
    exact hafter (heq ▸ List.mem_map_of_mem hx)

/-- Updating the row with a key changes a sum by the weight of this row. -/
lemma sum_updateWhere_key [DecidableEq κ] {key : ρ → κ} {t : List ρ} (hnd : (t.map key).Nodup) {r : ρ}
    (hr : r ∈ t) (f : ρ → ρ) (w : ρ → ℕ) :
    ((updateWhere (fun x => key x = key r) f t).map w).sum + w r = (t.map w).sum + w (f r) := by
  obtain ⟨before, after, rfl, hbefore, hafter⟩ := split_at_key hnd hr
  have hkept : ∀ l : List ρ, (∀ x ∈ l, key x ≠ key r) →
      updateWhere (fun x => key x = key r) f l = l := by
    intro l hl
    conv_rhs => rw [← List.map_id l]
    exact List.map_congr_left fun x hx => if_neg (by simpa using hl x hx)
  have hsplit : updateWhere (fun x => key x = key r) f (before ++ r :: after) =
      before ++ f r :: after := by
    conv_rhs => rw [← hkept before hbefore, ← hkept after hafter]
    simp [updateWhere]
  rw [hsplit]
  simp only [List.map_append, List.map_cons, List.sum_append_nat, List.sum_cons]
  omega

/-- A sum to which one element of a duplicate-free list contributes. -/
lemma sum_map_single {l : List ρ} (hnd : l.Nodup) {a : ρ} (ha : a ∈ l) {f : ρ → ℕ}
    (hf : ∀ b ∈ l, b ≠ a → f b = 0) : (l.map f).sum = f a := by
  obtain ⟨before, after, rfl⟩ := List.append_of_mem ha
  rw [List.nodup_append, List.nodup_cons] at hnd
  obtain ⟨-, ⟨hafter, -⟩, hapart⟩ := hnd
  have hzero : ∀ part : List ρ, (∀ b ∈ part, f b = 0) → (part.map f).sum = 0 := by
    intro part hpart
    induction part with
    | nil => rfl
    | cons b part ih =>
      rw [List.map_cons, List.sum_cons, hpart b List.mem_cons_self,
        ih fun c hc => hpart c (List.mem_cons_of_mem b hc)]
  have hbefore : (before.map f).sum = 0 := hzero before fun b hb =>
    hf b (List.mem_append_left _ hb) (hapart b hb a List.mem_cons_self)
  have hrest : (after.map f).sum = 0 := hzero after fun b hb =>
    hf b (List.mem_append_right _ (List.mem_cons_of_mem a hb)) fun h => hafter (h ▸ hb)
  rw [List.map_append, List.map_cons, List.sum_append_nat, List.sum_cons, hbefore, hrest]
  omega

/-- Two rows in a table with at most one such row are the same. -/
lemma eq_of_countP_le_one {p : ρ → Bool} {t : List ρ} (h : t.countP p ≤ 1) {r r' : ρ} (hr : r ∈ t)
    (hr' : r' ∈ t) (hp : p r = true) (hp' : p r' = true) : r = r' := by
  rw [List.countP_eq_length_filter] at h
  have hmem : r ∈ t.filter p := List.mem_filter.mpr ⟨hr, hp⟩
  have hmem' : r' ∈ t.filter p := List.mem_filter.mpr ⟨hr', hp'⟩
  obtain ⟨x, hx⟩ := List.length_eq_one_iff.mp (Nat.le_antisymm h (List.length_pos_of_mem hmem))
  rw [hx, List.mem_singleton] at hmem hmem'
  rw [hmem, hmem']

lemma countP_le_add {p q p' : ρ → Bool} {t : List ρ}
    (h : ∀ r ∈ t, p r = true → q r = true ∨ p' r = true) : t.countP p ≤ t.countP q + t.countP p' := by
  induction t with
  | nil => simp
  | cons r t ih =>
    have htail := ih fun x hx => h x (List.mem_cons_of_mem r hx)
    have hhead := h r List.mem_cons_self
    rw [List.countP_cons, List.countP_cons, List.countP_cons]
    split_ifs <;> simp_all <;> omega

/-- A row that only the weaker condition counts makes its count the larger one. -/
lemma countP_lt_countP {p q : ρ → Bool} {t : List ρ} (h : ∀ r ∈ t, p r = true → q r = true) {r : ρ}
    (hr : r ∈ t) (hp : p r = false) (hq : q r = true) : t.countP p < t.countP q := by
  obtain ⟨before, after, rfl⟩ := List.append_of_mem hr
  have hbefore : before.countP p ≤ before.countP q :=
    List.countP_mono_left fun x hx => h x (List.mem_append_left _ hx)
  have hafter : after.countP p ≤ after.countP q := List.countP_mono_left fun x hx =>
    h x (List.mem_append_right _ (List.mem_cons_of_mem r hx))
  rw [List.countP_append, List.countP_append, List.countP_cons_of_pos hq,
    List.countP_cons_of_neg (by rw [hp]; exact Bool.false_ne_true)]
  omega

/-- A value occurs once in a duplicate-free list of optional columns. -/
lemma eq_of_filterMap_nodup {f : ρ → Option κ} {t : List ρ} (hnd : (t.filterMap f).Nodup)
    {i j : ℕ} {k : κ} (hi : t[i]?.bind f = some k) (hj : t[j]?.bind f = some k) : i = j := by
  obtain ⟨r, hr, hrk⟩ := Option.bind_eq_some_iff.mp hi
  obtain ⟨r', hr', hrk'⟩ := Option.bind_eq_some_iff.mp hj
  obtain ⟨hilt, rfl⟩ := List.getElem?_eq_some_iff.mp hr
  obtain ⟨hjlt, rfl⟩ := List.getElem?_eq_some_iff.mp hr'
  have hpairwise := List.pairwise_iff_getElem.mp (List.pairwise_filterMap.mp hnd)
  rcases Nat.lt_trichotomy i j with hlt | heq | hgt
  · exact absurd rfl (hpairwise i j hilt hjlt hlt k hrk k hrk')
  · exact heq
  · exact absurd rfl (hpairwise j i hjlt hilt hgt k hrk' k hrk)

/-- Relating two tables row by row gives each row of the second one a row of the first. -/
lemma exists_of_forall₂_right {R : ρ → κ → Prop} {t : List ρ} {t' : List κ} (h : List.Forall₂ R t t')
    {r' : κ} (hr' : r' ∈ t') : ∃ r ∈ t, R r r' := by
  induction h with
  | nil => cases hr'
  | @cons a b l l' hab _ ih =>
    rcases List.mem_cons.mp hr' with rfl | hmem
    · exact ⟨a, List.mem_cons_self, hab⟩
    · obtain ⟨r, hr, hm⟩ := ih hmem
      exact ⟨r, List.mem_cons_of_mem a hr, hm⟩

/-- Relating two tables row by row is transitive when relating two rows is. -/
lemma forall₂_trans {R : ρ → ρ → Prop} (hR : ∀ a b c, R a b → R b c → R a c) {t t' t'' : List ρ}
    (h : List.Forall₂ R t t') (h' : List.Forall₂ R t' t'') : List.Forall₂ R t t'' := by
  induction h generalizing t'' with
  | nil => exact h'
  | cons hab _ ih =>
    cases h' with
    | cons hbc hrest => exact .cons (hR _ _ _ hab hbc) (ih hrest)

/-- What holds of the rows of the first table may be used to relate them. -/
lemma forall₂_of_mem {R S : ρ → κ → Prop} {t : List ρ} {t' : List κ} (h : List.Forall₂ R t t')
    (hS : ∀ r r', r ∈ t → R r r' → S r r') : List.Forall₂ S t t' := by
  induction h with
  | nil => exact .nil
  | cons hab _ ih =>
    exact .cons (hS _ _ List.mem_cons_self hab) (ih fun r r' hr => hS r r' (List.mem_cons_of_mem _ hr))

/-- A place of a table with a new row is an old one or the last. -/
lemma getElem?_concat_cases {t : List ρ} {r r' : ρ} {n : ℕ} (h : (t ++ [r])[n]? = some r') :
    t[n]? = some r' ∨ n = t.length ∧ r' = r := by
  rw [List.getElem?_append] at h
  split_ifs at h with hn
  · exact Or.inl h
  · rw [List.getElem?_singleton] at h
    split_ifs at h with hlast
    exact Or.inr ⟨by omega, (Option.some_inj.mp h).symm⟩

/-- Replacing a row moves a count by what the two rows count for. -/
lemma countP_set_add {p : ρ → Bool} {t : List ρ} {n : ℕ} {r : ρ} (h : t[n]? = some r) (r' : ρ) :
    (t.set n r').countP p + (if p r then 1 else 0) = t.countP p + if p r' then 1 else 0 := by
  obtain ⟨hlt, rfl⟩ := List.getElem?_eq_some_iff.mp h
  have hcounted : p t[n] = true → 0 < t.countP p := fun hp =>
    List.countP_pos_iff.mpr ⟨t[n], List.getElem_mem hlt, hp⟩
  rw [List.countP_set hlt]
  by_cases hp : p t[n] = true
  · have hpos := hcounted hp
    rw [if_pos hp]
    omega
  · rw [if_neg hp]
    omega

/-- Related tables have related rows at the same places. -/
lemma getElem?_of_forall₂ {R : ρ → κ → Prop} {t : List ρ} {t' : List κ} (h : List.Forall₂ R t t')
    (n : ℕ) : (t[n]? = none ∧ t'[n]? = none) ∨ ∃ r r', t[n]? = some r ∧ t'[n]? = some r' ∧ R r r' := by
  induction h generalizing n with
  | nil => exact Or.inl ⟨rfl, rfl⟩
  | @cons a b l l' hab _ ih =>
    cases n with
    | zero => exact Or.inr ⟨a, b, rfl, rfl, hab⟩
    | succ n => exact ih n

/-- Replacing a row on both sides. -/
lemma forall₂_set {R : ρ → κ → Prop} {t : List ρ} {t' : List κ} (h : List.Forall₂ R t t') (n : ℕ)
    {r : ρ} {r' : κ} (hr : R r r') : List.Forall₂ R (t.set n r) (t'.set n r') := by
  induction h generalizing n with
  | nil => exact .nil
  | cons hab hrest ih =>
    cases n with
    | zero => exact .cons hr hrest
    | succ n => exact .cons hab (ih n)

end Table
