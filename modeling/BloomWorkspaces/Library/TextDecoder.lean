import BloomWorkspaces.Library.Utf8Stream

/-!
# Decoding of a stream

`TextDecoder` of the web platform. A call with `stream` keeps the part of a character that its bytes end
with, and a byte order mark at the start of a stream is left out. However a stream is cut into calls, the
texts together are the text of the whole.
-/

namespace Utf8

variable {b : UInt8} {n low high fuel fuel' : ℕ} {bytes front rest : List UInt8}

/-- How many of the bytes, of which there are at most `fuel`, come before the part of a character that they
end with. -/
def closedLoop : ℕ → List UInt8 → ℕ
  | fuel + 1, b :: rest =>
    match following b.toNat with
    | none => closedLoop fuel rest + 1
    | some (n, low, high) =>
      let found := matching n low high rest
      if found < n ∧ found = rest.length then 0 else closedLoop fuel (rest.drop found) + (found + 1)
  | _, _ => 0

def closed (bytes : List UInt8) : List UInt8 := bytes.take (closedLoop bytes.length bytes)

/-- The part of a character that the bytes end with. -/
def unfinished (bytes : List UInt8) : List UInt8 := bytes.drop (closedLoop bytes.length bytes)

lemma closedLoop_congr (h : bytes.length ≤ fuel) (h' : bytes.length ≤ fuel') :
    closedLoop fuel bytes = closedLoop fuel' bytes := by
  induction fuel generalizing fuel' bytes with
  | zero =>
    obtain rfl := List.length_eq_zero_iff.mp (Nat.le_zero.mp h)
    cases fuel' <;> rfl
  | succ fuel ih =>
    cases bytes with
    | nil => cases fuel' <;> rfl
    | cons b rest =>
      cases fuel' with
      | zero => cases h'
      | succ fuel' =>
        have hdrop : ∀ k, closedLoop fuel (rest.drop k) = closedLoop fuel' (rest.drop k) := by
          intro k
          simp only [List.length_cons] at h h'
          apply ih
          · rw [List.length_drop]
            omega
          · rw [List.length_drop]
            omega
        have hrest := hdrop 0
        rw [List.drop_zero] at hrest
        simp only [closedLoop, hrest, hdrop]

lemma closedLoop_settled (h : Settled b front) :
    closedLoop (b :: front).length (b :: front) =
      closedLoop (front.drop (consumed b front)).length (front.drop (consumed b front)) +
        (consumed b front + 1) := by
  have hcongr : ∀ k, closedLoop front.length (front.drop k) =
      closedLoop (front.drop k).length (front.drop k) := by
    intro k
    apply closedLoop_congr
    · rw [List.length_drop]
      exact Nat.sub_le _ _
    · exact Nat.le_refl _
  rw [List.length_cons, closedLoop, consumed]
  cases hfollowing : following b.toNat with
  | none => rw [List.drop_zero]
  | some bounds =>
    obtain ⟨n, low, high⟩ := bounds
    simp only [if_neg (h n low high hfollowing), hcongr]

lemma closedLoop_open (hfollowing : following b.toNat = some (n, low, high))
    (hfound : matching n low high front < n) (hall : matching n low high front = front.length) :
    closedLoop (b :: front).length (b :: front) = 0 := by
  rw [List.length_cons, closedLoop, hfollowing]
  exact if_pos ⟨hfound, hall⟩

lemma unfinished_settled (h : Settled b front) :
    unfinished (b :: front) = unfinished (front.drop (consumed b front)) := by
  rw [unfinished, unfinished, closedLoop_settled h, ← Nat.add_assoc, List.drop_succ_cons, List.drop_drop,
    Nat.add_comm]

lemma matching_take (n low high m : ℕ) (bytes : List UInt8) :
    matching n low high (bytes.take m) = min m (matching n low high bytes) := by
  induction bytes generalizing n low high m with
  | nil => cases n <;> simp [matching]
  | cons d bytes ih =>
    cases n with
    | zero => simp [matching]
    | succ n =>
      cases m with
      | zero => simp [matching]
      | succ m =>
        rw [List.take_succ_cons, matching, matching]
        split
        · rw [ih]
          omega
        · simp

/-- A unit does not see what is cut off after it. -/
lemma toText_take {m : ℕ} (hm : consumed b front ≤ m) : ∃ c,
    (∀ rest, Settled b front → toText (b :: (front ++ rest)) =
      c :: toText (front.drop (consumed b front) ++ rest)) ∧
    toText (b :: front.take m) = c :: toText ((front.drop (consumed b front)).take (m - consumed b front)) := by
  obtain ⟨c, hc⟩ := unit_eq b front
  have hconsumed : consumed b (front.take m) = consumed b front := by
    rw [consumed] at hm
    rw [consumed, consumed]
    cases hfollowing : following b.toNat with
    | none => rfl
    | some bounds =>
      simp only [hfollowing] at hm ⊢
      rw [matching_take, Nat.min_eq_right hm]
  have hunit : unit b (front.take m) = unit b front := by
    rw [consumed] at hm
    rw [unit, unit]
    cases hfollowing : following b.toNat with
    | none => rfl
    | some bounds =>
      simp only [hfollowing] at hm ⊢
      rw [matching_take, Nat.min_eq_right hm]
      split
      · next hall =>
        rw [List.take_take, Nat.min_eq_left (hall ▸ hm)]
      · rfl
  refine ⟨c, fun rest hsettled => ?_, ?_⟩
  · have hwhole : unit b (front ++ rest) = String.utf8EncodeChar c := by
      rw [unit_append hsettled, hc]
    rw [toText_cons hwhole, consumed_append hsettled, List.drop_append_of_le_length (consumed_le b front)]
  · have hpart : unit b (front.take m) = String.utf8EncodeChar c := by
      rw [hunit, hc]
    rw [toText_cons hpart, hconsumed, List.drop_take]

/-- What comes before the unfinished part is converted for certain. -/
theorem toText_append (bytes rest : List UInt8) :
    toText (bytes ++ rest) = toText (closed bytes) ++ toText (unfinished bytes ++ rest) := by
  induction bytes using unit_induction with
  | nil => rfl
  | cons b front ih =>
    by_cases hsettled : Settled b front
    · have hlength := closedLoop_settled hsettled
      have hclosed : closed (b :: front) = b :: front.take
          (closedLoop (front.drop (consumed b front)).length (front.drop (consumed b front)) +
            consumed b front) := by
        rw [closed, hlength, ← Nat.add_assoc, List.take_succ_cons]
      obtain ⟨c, hwhole, hpart⟩ := toText_take (Nat.le_add_left (consumed b front)
        (closedLoop (front.drop (consumed b front)).length (front.drop (consumed b front))))
      rw [Nat.add_sub_cancel] at hpart
      rw [List.cons_append, hwhole rest hsettled, ih, unfinished_settled hsettled, hclosed, hpart]
      rfl
    · simp only [Settled, not_forall, not_not] at hsettled
      obtain ⟨n, low, high, hfollowing, hfound, hall⟩ := hsettled
      rw [closed, unfinished, closedLoop_open hfollowing hfound hall]
      rfl

/-- By itself the unfinished part is at most one error. -/
lemma length_toText_unfinished (bytes : List UInt8) : (toText (unfinished bytes)).length ≤ 1 := by
  induction bytes using unit_induction with
  | nil => exact Nat.zero_le 1
  | cons b front ih =>
    by_cases hsettled : Settled b front
    · rw [unfinished_settled hsettled]
      exact ih
    · simp only [Settled, not_forall, not_not] at hsettled
      obtain ⟨n, low, high, hfollowing, hfound, hall⟩ := hsettled
      obtain ⟨c, hc⟩ := unit_eq b front
      have hconsumed : consumed b front = front.length := by
        rw [consumed, hfollowing]
        exact hall
      rw [unfinished, closedLoop_open hfollowing hfound hall, List.drop_zero, toText_cons hc, hconsumed,
        List.drop_length]
      exact Nat.le_refl 1

end Utf8

/-- The state between two calls of `decode`. -/
structure TextDecoder where
  pending : List UInt8
  bomSeen : Bool
  doNotFlush : Bool
  deriving DecidableEq

namespace TextDecoder

def new : TextDecoder := ⟨[], false, false⟩

def dropBom : List Char → List Char
  | '\uFEFF' :: text => text
  | text => text

/-- The state that a call begins with. -/
def begun (d : TextDecoder) : TextDecoder := if d.doNotFlush then d else new

def strip (d : TextDecoder) (text : List Char) : List Char := if d.bomSeen then text else dropBom text

/-- `decode(bytes, { stream })` -/
def decode (d : TextDecoder) (bytes : List UInt8) (stream : Bool) : List Char × TextDecoder :=
  let all := d.begun.pending ++ bytes
  let text := if stream then Utf8.toText (Utf8.closed all) else Utf8.toText all
  (d.begun.strip text,
    { pending := if stream then Utf8.unfinished all else []
      bomSeen := d.begun.bomSeen || !text.isEmpty
      doNotFlush := stream })

/-! ### Texts of a stream -/

variable {d : TextDecoder} {received bytes : List UInt8} {text : List Char}

/-- The decoder has been given `received` since it began, and has answered with `text`. -/
structure Reads (d : TextDecoder) (received : List UInt8) (text : List Char) : Prop where
  whole : ∀ rest, dropBom (Utf8.toText (received ++ rest)) =
    text ++ d.begun.strip (Utf8.toText (d.begun.pending ++ rest))
  short : (Utf8.toText d.begun.pending).length ≤ 1

lemma reads_new : new.Reads [] [] := ⟨fun _ => rfl, Nat.zero_le 1⟩

lemma dropBom_append {text : List Char} (h : text ≠ []) (more : List Char) :
    dropBom (text ++ more) = dropBom text ++ more := by
  cases text with
  | nil => exact absurd rfl h
  | cons c text =>
    rw [List.cons_append]
    by_cases hc : c = '\uFEFF'
    · subst hc
      rfl
    · rw [dropBom, dropBom, List.cons_append]
      · exact fun text' htext => hc (List.cons.inj htext).1
      · exact fun text' htext => hc (List.cons.inj htext).1

lemma strip_append (d : TextDecoder) (pending : List UInt8) (text more : List Char) :
    d.strip (text ++ more) =
      d.strip text ++ strip ⟨pending, d.bomSeen || !text.isEmpty, true⟩ more := by
  by_cases hseen : d.bomSeen = true
  · simp only [strip, hseen, Bool.true_or, if_true]
  · cases text with
    | nil =>
      simp only [strip, List.nil_append, List.isEmpty_nil, Bool.not_true, Bool.or_false, if_neg hseen]
      rfl
    | cons c text =>
      simp only [strip, List.isEmpty_cons, Bool.not_false, Bool.or_true, if_true, if_neg hseen]
      exact dropBom_append (List.cons_ne_nil c text) more

/-- A call within a stream. -/
lemma Reads.decode_stream (h : d.Reads received text) (bytes : List UInt8) :
    (d.decode bytes true).2.Reads (received ++ bytes) (text ++ (d.decode bytes true).1) := by
  refine ⟨fun rest => ?_, Utf8.length_toText_unfinished _⟩
  have hsplit := strip_append d.begun (Utf8.unfinished (d.begun.pending ++ bytes))
    (Utf8.toText (Utf8.closed (d.begun.pending ++ bytes)))
    (Utf8.toText (Utf8.unfinished (d.begun.pending ++ bytes) ++ rest))
  rw [← Utf8.toText_append] at hsplit
  rw [List.append_assoc, h.whole, ← List.append_assoc d.begun.pending, hsplit, List.append_assoc]
  rfl

/-- The last call. -/
lemma Reads.decode_flush (h : d.Reads received text) (bytes : List UInt8) :
    text ++ (d.decode bytes false).1 = dropBom (Utf8.toText (received ++ bytes)) := by
  rw [h.whole bytes]
  rfl

lemma length_dropBom_le (text : List Char) : (dropBom text).length ≤ text.length := by
  fun_cases dropBom text with
  | case1 text => exact Nat.le_succ _
  | case2 => exact Nat.le_refl _

/-- The text of a stream is ahead of the answers by at most one character. -/
lemma Reads.exists_missing (h : d.Reads received text) :
    ∃ missing, missing.length ≤ 1 ∧ dropBom (Utf8.toText received) = text ++ missing := by
  have hwhole := h.whole []
  rw [List.append_nil, List.append_nil] at hwhole
  refine ⟨_, ?_, hwhole⟩
  have hshort := h.short
  generalize Utf8.toText d.begun.pending = more at hshort
  rw [strip]
  split
  · exact hshort
  · exact Nat.le_trans (length_dropBom_le more) hshort

end TextDecoder
