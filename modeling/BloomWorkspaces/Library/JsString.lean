import BloomWorkspaces.Library.Utf16

/-!
# Strings of JavaScript

`trim`, and `split` at the runs of spaces and tabs, on the 16-bit units of a string. A split has no blank
in its first field, and what is left begins after the whole run.
-/

namespace JsString

/-- White space and line terminators, as `trim` knows them. -/
def isWhiteSpace (u : UInt16) : Bool :=
  (9 ≤ u && u ≤ 13) || u = 32 || u = 160 || u = 5760 || (8192 ≤ u && u ≤ 8202) || u = 8232 || u = 8233 ||
    u = 8239 || u = 8287 || u = 12288 || u = 65279

def trim (units : List UInt16) : List UInt16 :=
  ((units.dropWhile isWhiteSpace).reverse.dropWhile isWhiteSpace).reverse

/-- `[ \t]` -/
def isBlank (u : UInt16) : Bool := u = 32 || u = 9

/-- `split(/[ \t]+/)`: of a run of blanks only the last one ends a field. -/
def splitOnBlanks : List UInt16 → List (List UInt16)
  | [] => [[]]
  | u :: rest =>
    if isBlank u then
      if rest.head?.any isBlank then splitOnBlanks rest else [] :: splitOnBlanks rest
    else (splitOnBlanks rest).modifyHead (u :: ·)

/-- The units as characters, for a test that no surrogate passes. -/
def chars (units : List UInt16) : List Char := units.map fun u => Char.ofNat u.toNat

variable {units first blanks rest : List UInt16} {others : List (List UInt16)}

lemma dropWhile_eq_self {p : UInt16 → Bool} (h : ∀ u ∈ units.head?, p u = false) :
    units.dropWhile p = units := by
  cases units with
  | nil => rfl
  | cons u rest => rw [List.dropWhile_cons, h u rfl, if_neg Bool.false_ne_true]

lemma trim_eq_self (hhead : ∀ u ∈ units.head?, isWhiteSpace u = false)
    (hlast : ∀ u ∈ units.getLast?, isWhiteSpace u = false) : trim units = units := by
  rw [trim, dropWhile_eq_self hhead, dropWhile_eq_self (by rwa [List.head?_reverse]), List.reverse_reverse]

lemma splitOnBlanks_ne_nil (units : List UInt16) : splitOnBlanks units ≠ [] := by
  induction units with
  | nil => exact List.cons_ne_nil _ _
  | cons u rest ih =>
    rw [splitOnBlanks]
    split_ifs
    · exact ih
    · exact List.cons_ne_nil _ _
    · simpa [List.modifyHead_eq_nil_iff] using ih

/-- A run of blanks ends the empty field before it. -/
lemma splitOnBlanks_blanks (hne : blanks ≠ []) (hblanks : ∀ u ∈ blanks, isBlank u = true)
    (hrest : ∀ u ∈ rest.head?, isBlank u = false) :
    splitOnBlanks (blanks ++ rest) = [] :: splitOnBlanks rest := by
  induction blanks with
  | nil => exact absurd rfl hne
  | cons u blanks ih =>
    rw [List.cons_append, splitOnBlanks, if_pos (hblanks u List.mem_cons_self)]
    cases blanks with
    | nil =>
      rw [List.nil_append, if_neg]
      cases rest with
      | nil => exact Bool.false_ne_true
      | cons v rest =>
        rw [List.head?_cons, Option.any_some, hrest v rfl]
        exact Bool.false_ne_true
    | cons v blanks =>
      have hv : isBlank v = true := hblanks v (List.mem_cons_of_mem _ List.mem_cons_self)
      rw [List.cons_append, List.head?_cons, Option.any_some, if_pos hv, ← List.cons_append]
      exact ih (List.cons_ne_nil _ _) fun w hw => hblanks w (List.mem_cons_of_mem _ hw)

/-- Units that are not blanks stand at the front of the first field. -/
lemma splitOnBlanks_append (hfirst : ∀ u ∈ first, isBlank u = false) (rest : List UInt16) :
    splitOnBlanks (first ++ rest) = (splitOnBlanks rest).modifyHead (first ++ ·) := by
  induction first with
  | nil => exact (congrFun List.modifyHead_id _).symm
  | cons u first ih =>
    rw [List.cons_append, splitOnBlanks, if_neg (by rw [hfirst u List.mem_cons_self]; exact Bool.false_ne_true),
      ih fun w hw => hfirst w (List.mem_cons_of_mem _ hw), List.modifyHead_modifyHead]
    rfl

lemma splitOnBlanks_field (hfirst : ∀ u ∈ first, isBlank u = false) (hne : blanks ≠ [])
    (hblanks : ∀ u ∈ blanks, isBlank u = true) (hrest : ∀ u ∈ rest.head?, isBlank u = false) :
    splitOnBlanks (first ++ blanks ++ rest) = first :: splitOnBlanks rest := by
  rw [List.append_assoc, splitOnBlanks_append hfirst, splitOnBlanks_blanks hne hblanks hrest,
    List.modifyHead_cons, List.append_nil]

lemma splitOnBlanks_last (hfirst : ∀ u ∈ first, isBlank u = false) : splitOnBlanks first = [first] := by
  have h := splitOnBlanks_append hfirst []
  rwa [List.append_nil, splitOnBlanks, List.modifyHead_cons, List.append_nil] at h

/-- The first field of a split: it is everything, or it ends before a run of blanks. -/
lemma of_splitOnBlanks (h : splitOnBlanks units = first :: others) :
    (∀ u ∈ first, isBlank u = false) ∧
      (units = first ∧ others = [] ∨
        ∃ blanks rest, units = first ++ blanks ++ rest ∧ blanks ≠ [] ∧ (∀ u ∈ blanks, isBlank u = true) ∧
          (∀ u ∈ rest.head?, isBlank u = false) ∧ others = splitOnBlanks rest) := by
  induction units generalizing first others with
  | nil =>
    obtain ⟨rfl, rfl⟩ := List.cons.inj h
    exact ⟨fun u hu => absurd hu List.not_mem_nil, .inl ⟨rfl, rfl⟩⟩
  | cons u units ih =>
    rw [splitOnBlanks] at h
    split_ifs at h with hu hnext
    · -- the run of blanks goes on, so the first field of what follows is empty
      obtain ⟨v, hhead, hv⟩ := (Option.any_eq_true _ _).mp hnext
      obtain ⟨hfirst, hsplit⟩ := ih h
      have hempty : first = [] := by
        cases hcases : first with
        | nil => rfl
        | cons w first' =>
          have hw : units.head? = some w := by
            rcases hsplit with ⟨hunits, -⟩ | ⟨blanks, rest, hunits, -⟩ <;> rw [hunits, hcases] <;> rfl
          have hplain := hfirst w (by rw [hcases]; exact List.mem_cons_self)
          rw [Option.some.inj (hhead.symm.trans hw), hplain] at hv
          exact absurd hv Bool.false_ne_true
      refine ⟨hfirst, ?_⟩
      rcases hsplit with ⟨hunits, -⟩ | ⟨blanks, rest, hunits, hne, hblanks, hrest, hothers⟩
      · rw [hunits, hempty] at hhead
        cases hhead
      · refine .inr ⟨u :: blanks, rest, ?_, List.cons_ne_nil _ _, ?_, hrest, hothers⟩
        · rw [hunits, hempty]
          rfl
        · exact List.forall_mem_cons.mpr ⟨hu, hblanks⟩
    · obtain ⟨rfl, rfl⟩ := List.cons.inj h
      refine ⟨fun v hv => absurd hv List.not_mem_nil, .inr ⟨[u], units, rfl, List.cons_ne_nil _ _, ?_, ?_, rfl⟩⟩
      · exact List.forall_mem_singleton.mpr hu
      · intro v hv
        rw [Option.mem_def.mp hv, Option.any_some] at hnext
        exact Bool.eq_false_iff.mpr hnext
    · obtain ⟨head, tail, hsplit⟩ := List.exists_cons_of_ne_nil (splitOnBlanks_ne_nil units)
      rw [hsplit, List.modifyHead_cons] at h
      obtain ⟨rfl, rfl⟩ := List.cons.inj h
      obtain ⟨hfirst, hcases⟩ := ih hsplit
      refine ⟨List.forall_mem_cons.mpr ⟨Bool.eq_false_iff.mpr hu, hfirst⟩, ?_⟩
      rcases hcases with ⟨hunits, htail⟩ | ⟨blanks, rest, hunits, hrun⟩
      · exact .inl ⟨congrArg (u :: ·) hunits, htail⟩
      · exact .inr ⟨blanks, rest, congrArg (u :: ·) hunits, hrun⟩

end JsString
