import BloomWorkspaces.Library.Utf16

/-!
# UTF-8 in pieces

Bytes that arrive in pieces, each of which is converted by itself. The texts of the pieces are the text of
the whole as long as no cut is within a character, or within a part of one that the conversion takes for a
single error.
-/

namespace Utf8

variable {b : UInt8} {n low high fuel fuel' : ℕ} {front rest bytes : List UInt8}

/-- How many bytes after `first` are converted with it. -/
def consumed (first : UInt8) (rest : List UInt8) : ℕ :=
  match following first.toNat with
  | none => 0
  | some (n, low, high) => matching n low high rest

/-- What the conversion writes for them. -/
def unit (first : UInt8) (rest : List UInt8) : List UInt8 :=
  match following first.toNat with
  | none => replacement
  | some (n, low, high) => if matching n low high rest = n then first :: rest.take n else replacement

/-- The bounds of a byte that would go on with the part of a character that the bytes, of which there are
at most `fuel`, end with. -/
def expectsLoop : ℕ → List UInt8 → Option (ℕ × ℕ)
  | fuel + 1, b :: rest =>
    match following b.toNat with
    | none => expectsLoop fuel rest
    | some (n, low, high) =>
      let found := matching n low high rest
      if found < n ∧ found = rest.length then some (if found = 0 then (low, high) else (128, 191))
      else expectsLoop fuel (rest.drop found)
  | _, _ => none

def expects (bytes : List UInt8) : Option (ℕ × ℕ) := expectsLoop bytes.length bytes

/-- The cut between the bytes is within a part of a character. -/
def CutsCharacter (front rest : List UInt8) : Prop :=
  (expects front).any (fun (low, high) => rest.head?.any fun b => low ≤ b.toNat && b.toNat ≤ high) = true

instance : Decidable (CutsCharacter front rest) := inferInstanceAs (Decidable (_ = true))

/-- No cut between the pieces is within a part of a character. -/
def Uncut : List (List UInt8) → Prop
  | [] => True
  | front :: pieces => ¬CutsCharacter front pieces.flatten ∧ Uncut pieces

/-! ### Units -/

lemma lossyLoop_congr (h : bytes.length ≤ fuel) (h' : bytes.length ≤ fuel') :
    lossyLoop fuel bytes = lossyLoop fuel' bytes := by
  induction fuel generalizing fuel' bytes with
  | zero =>
    obtain rfl := List.length_eq_zero_iff.mp (Nat.le_zero.mp h)
    cases fuel' <;> rfl
  | succ fuel ih =>
    cases bytes with
    | nil => cases fuel' <;> rfl
    | cons b rest =>
      cases fuel' with
      | zero => cases h'
      | succ fuel' =>
        have hdrop : ∀ k, lossyLoop fuel (rest.drop k) = lossyLoop fuel' (rest.drop k) := by
          intro k
          simp only [List.length_cons] at h h'
          apply ih
          · rw [List.length_drop]
            omega
          · rw [List.length_drop]
            omega
        have hrest := hdrop 0
        rw [List.drop_zero] at hrest
        simp only [lossyLoop, hrest, hdrop]

lemma expectsLoop_congr (h : bytes.length ≤ fuel) (h' : bytes.length ≤ fuel') :
    expectsLoop fuel bytes = expectsLoop fuel' bytes := by
  induction fuel generalizing fuel' bytes with
  | zero =>
    obtain rfl := List.length_eq_zero_iff.mp (Nat.le_zero.mp h)
    cases fuel' <;> rfl
  | succ fuel ih =>
    cases bytes with
    | nil => cases fuel' <;> rfl
    | cons b rest =>
      cases fuel' with
      | zero => cases h'
      | succ fuel' =>
        have hdrop : ∀ k, expectsLoop fuel (rest.drop k) = expectsLoop fuel' (rest.drop k) := by
          intro k
          simp only [List.length_cons] at h h'
          apply ih
          · rw [List.length_drop]
            omega
          · rw [List.length_drop]
            omega
        have hrest := hdrop 0
        rw [List.drop_zero] at hrest
        simp only [expectsLoop, hrest, hdrop]

/-- The bytes are converted unit by unit. -/
lemma lossy_cons (b : UInt8) (rest : List UInt8) :
    lossy (b :: rest) = unit b rest ++ lossy (rest.drop (consumed b rest)) := by
  have hdrop : ∀ k, lossyLoop rest.length (rest.drop k) = lossy (rest.drop k) := by
    intro k
    apply lossyLoop_congr
    · rw [List.length_drop]
      exact Nat.sub_le _ _
    · exact Nat.le_refl _
  rw [lossy, List.length_cons, lossyLoop, unit, consumed]
  cases following b.toNat with
  | none => rfl
  | some bounds =>
    obtain ⟨n, low, high⟩ := bounds
    by_cases hfound : matching n low high rest = n
    · simp only [hfound]
      rw [hdrop]
      rfl
    · simp only [if_neg hfound]
      rw [hdrop]

lemma expects_none (h : following b.toNat = none) (rest : List UInt8) :
    expects (b :: rest) = expects rest := by
  rw [expects, List.length_cons, expectsLoop, h]
  rfl

lemma expects_open (h : following b.toNat = some (n, low, high)) (hfound : matching n low high rest < n)
    (hall : matching n low high rest = rest.length) :
    expects (b :: rest) =
      some (if rest.length = 0 then low else 128, if rest.length = 0 then high else 191) := by
  rw [expects, List.length_cons, expectsLoop, h]
  simp only [if_pos (And.intro hfound hall)]
  rw [hall]
  split <;> rfl

lemma expects_closed (h : following b.toNat = some (n, low, high))
    (hclosed : ¬(matching n low high rest < n ∧ matching n low high rest = rest.length)) :
    expects (b :: rest) = expects (rest.drop (matching n low high rest)) := by
  rw [expects, List.length_cons, expectsLoop, h]
  simp only [if_neg hclosed]
  apply expectsLoop_congr
  · rw [List.length_drop]
    exact Nat.sub_le _ _
  · exact Nat.le_refl _

/-- Induction on the units of the bytes. -/
lemma unit_induction {motive : List UInt8 → Prop} (nil : motive [])
    (cons : ∀ b rest, motive (rest.drop (consumed b rest)) → motive (b :: rest)) (bytes : List UInt8) :
    motive bytes := by
  induction hlen : bytes.length using Nat.strongRecOn generalizing bytes with
  | ind len ih =>
    cases bytes with
    | nil => exact nil
    | cons b rest =>
      apply cons
      refine ih _ ?_ _ rfl
      rw [← hlen, List.length_drop, List.length_cons]
      omega

/-! ### Units are characters -/

lemma ofNat_toNat_eq {b : UInt8} {n : ℕ} (h : n = b.toNat) : UInt8.ofNat n = b := by
  rw [h, UInt8.ofNat_toNat]

lemma encodeChar_one {b : UInt8} (hb : b.toNat < 128) : ∃ c, [b] = String.utf8EncodeChar c := by
  refine ⟨Char.ofNat b.toNat, ?_⟩
  have hval := Utf16.val_ofNat (n := b.toNat) (by omega)
  rw [String.utf8EncodeChar]
  simp only [hval]
  rw [if_pos (by omega), ofNat_toNat_eq rfl]

lemma encodeChar_two {b d : UInt8} (hb : 194 ≤ b.toNat ∧ b.toNat < 224)
    (hd : 128 ≤ d.toNat ∧ d.toNat ≤ 191) : ∃ c, [b, d] = String.utf8EncodeChar c := by
  refine ⟨Char.ofNat ((b.toNat - 192) * 64 + (d.toNat - 128)), ?_⟩
  have hval := Utf16.val_ofNat (n := (b.toNat - 192) * 64 + (d.toNat - 128)) (by omega)
  rw [String.utf8EncodeChar]
  simp only [hval]
  rw [if_neg (by omega), if_pos (by omega), ofNat_toNat_eq (b := b) (by omega),
    ofNat_toNat_eq (b := d) (by omega)]

lemma encodeChar_three {b d e : UInt8} (hb : 224 ≤ b.toNat ∧ b.toNat < 240)
    (hd : 128 ≤ d.toNat ∧ d.toNat ≤ 191) (hlow : b.toNat = 224 → 160 ≤ d.toNat)
    (hsurrogate : b.toNat = 237 → d.toNat ≤ 159) (he : 128 ≤ e.toNat ∧ e.toNat ≤ 191) :
    ∃ c, [b, d, e] = String.utf8EncodeChar c := by
  refine ⟨Char.ofNat ((b.toNat - 224) * 4096 + (d.toNat - 128) * 64 + (e.toNat - 128)), ?_⟩
  have hval := Utf16.val_ofNat
    (n := (b.toNat - 224) * 4096 + (d.toNat - 128) * 64 + (e.toNat - 128)) (by omega)
  rw [String.utf8EncodeChar]
  simp only [hval]
  rw [if_neg (by omega), if_neg (by omega), if_pos (by omega), ofNat_toNat_eq (b := b) (by omega),
    ofNat_toNat_eq (b := d) (by omega), ofNat_toNat_eq (b := e) (by omega)]

lemma encodeChar_four {b d e f : UInt8} (hb : 240 ≤ b.toNat ∧ b.toNat < 245)
    (hd : 128 ≤ d.toNat ∧ d.toNat ≤ 191) (hlow : b.toNat = 240 → 144 ≤ d.toNat)
    (hhigh : b.toNat = 244 → d.toNat ≤ 143) (he : 128 ≤ e.toNat ∧ e.toNat ≤ 191)
    (hf : 128 ≤ f.toNat ∧ f.toNat ≤ 191) : ∃ c, [b, d, e, f] = String.utf8EncodeChar c := by
  refine ⟨Char.ofNat ((b.toNat - 240) * 262144 + (d.toNat - 128) * 4096 + (e.toNat - 128) * 64 +
    (f.toNat - 128)), ?_⟩
  have hval := Utf16.val_ofNat (n := (b.toNat - 240) * 262144 + (d.toNat - 128) * 4096 +
    (e.toNat - 128) * 64 + (f.toNat - 128)) (by omega)
  rw [String.utf8EncodeChar]
  simp only [hval]
  rw [if_neg (by omega), if_neg (by omega), if_neg (by omega), ofNat_toNat_eq (b := b) (by omega),
    ofNat_toNat_eq (b := d) (by omega), ofNat_toNat_eq (b := e) (by omega),
    ofNat_toNat_eq (b := f) (by omega)]

/-- All bytes that have to follow are there, the first within its bounds. -/
lemma exists_of_matching (h : matching (n + 1) low high rest = n + 1) :
    ∃ d tail, rest = d :: tail ∧ low ≤ d.toNat ∧ d.toNat ≤ high ∧ matching n 128 191 tail = n := by
  cases rest with
  | nil => simp [matching] at h
  | cons d tail =>
    rw [matching] at h
    split at h
    · next hbounds => exact ⟨d, tail, rfl, hbounds.1, hbounds.2, Nat.succ.inj h⟩
    · cases h

/-- What a first byte asks for. -/
inductive Shape (v : ℕ) : ℕ → ℕ → ℕ → Prop
  | one (h : v < 128) : Shape v 0 128 191
  | two (h : 194 ≤ v ∧ v < 224) : Shape v 1 128 191
  | three (low high : ℕ) (h : 224 ≤ v ∧ v < 240) (hlow : 128 ≤ low) (hhigh : high ≤ 191)
    (hoverlong : v = 224 → 160 ≤ low) (hsurrogate : v = 237 → high ≤ 159) : Shape v 2 low high
  | four (low high : ℕ) (h : 240 ≤ v ∧ v < 245) (hlow : 128 ≤ low) (hhigh : high ≤ 191)
    (hoverlong : v = 240 → 144 ≤ low) (hlast : v = 244 → high ≤ 143) : Shape v 3 low high

lemma shape_of_following {v : ℕ} (h : following v = some (n, low, high)) : Shape v n low high := by
  rw [following] at h
  split_ifs at h
  · cases h
    exact .one (by omega)
  · cases h
    exact .two (by omega)
  all_goals cases h
  · exact .three _ _ (by omega) (by omega) (by omega) (by omega) (by omega)
  · exact .three _ _ (by omega) (by omega) (by omega) (by omega) (by omega)
  · exact .three _ _ (by omega) (by omega) (by omega) (by omega) (by omega)
  · exact .four _ _ (by omega) (by omega) (by omega) (by omega) (by omega)
  · exact .four _ _ (by omega) (by omega) (by omega) (by omega) (by omega)
  · exact .four _ _ (by omega) (by omega) (by omega) (by omega) (by omega)

lemma Shape.bounds {v : ℕ} (h : Shape v n low high) : 128 ≤ low ∧ high ≤ 191 := by
  cases h with
  | one h => exact ⟨Nat.le_refl _, Nat.le_refl _⟩
  | two h => exact ⟨Nat.le_refl _, Nat.le_refl _⟩
  | three low high h hlow hhigh => exact ⟨hlow, hhigh⟩
  | four low high h hlow hhigh => exact ⟨hlow, hhigh⟩

/-- A first byte with all that has to follow is a character. -/
lemma exists_encodeChar (h : Shape b.toNat n low high) (hfound : matching n low high rest = n) :
    ∃ c, b :: rest.take n = String.utf8EncodeChar c := by
  cases h with
  | one h => exact encodeChar_one h
  | two h =>
    obtain ⟨d, tail, rfl, hlow, hhigh, -⟩ := exists_of_matching hfound
    exact encodeChar_two h ⟨hlow, hhigh⟩
  | three low high h hlow hhigh hoverlong hsurrogate =>
    obtain ⟨d, tail, rfl, hd, hd', hfound⟩ := exists_of_matching hfound
    obtain ⟨e, tail, rfl, he, he', -⟩ := exists_of_matching hfound
    exact encodeChar_three h ⟨by omega, by omega⟩ (by omega) (by omega) ⟨he, he'⟩
  | four low high h hlow hhigh hoverlong hlast =>
    obtain ⟨d, tail, rfl, hd, hd', hfound⟩ := exists_of_matching hfound
    obtain ⟨e, tail, rfl, he, he', hfound⟩ := exists_of_matching hfound
    obtain ⟨f, tail, rfl, hf, hf', -⟩ := exists_of_matching hfound
    exact encodeChar_four h ⟨by omega, by omega⟩ (by omega) (by omega) ⟨he, he'⟩ ⟨hf, hf'⟩

lemma unit_eq (b : UInt8) (rest : List UInt8) : ∃ c, unit b rest = String.utf8EncodeChar c := by
  rw [unit]
  cases hfollowing : following b.toNat with
  | none => exact ⟨'\uFFFD', rfl⟩
  | some bounds =>
    obtain ⟨n, low, high⟩ := bounds
    by_cases hfound : matching n low high rest = n
    · simp only [if_pos hfound]
      exact exists_encodeChar (shape_of_following hfollowing) hfound
    · simp only [if_neg hfound]
      exact ⟨'\uFFFD', rfl⟩

/-- The conversion gives the encoding of a text. -/
theorem encode_toText (bytes : List UInt8) : encode (toText bytes) = lossy bytes := by
  have hexists : ∃ text, lossy bytes = encode text := by
    induction bytes using unit_induction with
    | nil => exact ⟨[], rfl⟩
    | cons b rest ih =>
      obtain ⟨c, hc⟩ := unit_eq b rest
      obtain ⟨text, htext⟩ := ih
      exact ⟨c :: text, by rw [lossy_cons, hc, htext, encode_cons]⟩
  obtain ⟨text, htext⟩ := hexists
  rw [toText, htext, decode_encode]
  rfl

lemma toText_cons {c : Char} (h : unit b rest = String.utf8EncodeChar c) :
    toText (b :: rest) = c :: toText (rest.drop (consumed b rest)) := by
  apply encode_injective
  rw [encode_toText, encode_cons, encode_toText, lossy_cons, h]

lemma toText_error (h : unit b rest = replacement) :
    toText (b :: rest) = '\uFFFD' :: toText (rest.drop (consumed b rest)) := toText_cons h

lemma toText_nil : toText [] = [] := rfl

/-! ### Cuts -/

lemma matching_le_length (n low high : ℕ) (bytes : List UInt8) :
    matching n low high bytes ≤ bytes.length := by
  induction bytes generalizing n low high with
  | nil => cases n <;> simp [matching]
  | cons d bytes ih =>
    cases n with
    | zero => simp [matching]
    | succ n =>
      rw [matching]
      split
      · have htail := ih n 128 191
        rw [List.length_cons]
        omega
      · exact Nat.zero_le _

/-- What comes after bytes that do not end within a character. -/
lemma matching_append_closed (rest : List UInt8)
    (h : ¬(matching n low high front < n ∧ matching n low high front = front.length)) :
    matching n low high (front ++ rest) = matching n low high front := by
  induction front generalizing n low high with
  | nil =>
    cases n with
    | zero => simp [matching]
    | succ n => simp [matching] at h
  | cons d front ih =>
    cases n with
    | zero => simp [matching]
    | succ n =>
      rw [List.cons_append, matching, matching]
      rw [matching, List.length_cons] at h
      split
      · next hbounds =>
        rw [if_pos hbounds] at h
        rw [ih (by omega)]
      · rfl

/-- What comes after bytes that end within a character. -/
lemma matching_append_open (rest : List UInt8) (hfound : matching n low high front < n)
    (hall : matching n low high front = front.length) :
    matching n low high (front ++ rest) = front.length +
      matching (n - front.length) (if front.length = 0 then low else 128)
        (if front.length = 0 then high else 191) rest := by
  induction front generalizing n low high with
  | nil => simp
  | cons d front ih =>
    cases n with
    | zero => cases hfound
    | succ n =>
      rw [matching] at hfound hall
      rw [List.cons_append, matching]
      split
      · next hbounds =>
        rw [if_pos hbounds] at hfound hall
        have hfound' : matching n 128 191 front < n := Nat.lt_of_succ_lt_succ hfound
        rw [ih hfound' (Nat.succ.inj hall), List.length_cons, Nat.succ_sub_succ]
        simp only [ite_self, Nat.succ_ne_zero, if_false]
        omega
      · next hbounds =>
        rw [if_neg hbounds] at hall
        cases hall

/-- Bytes that may follow a first byte are errors by themselves. -/
lemma length_toText_matching (hlow : 128 ≤ low) (hhigh : high ≤ 191) (rest : List UInt8) :
    (toText rest).length =
      matching n low high rest + (toText (rest.drop (matching n low high rest))).length := by
  induction n generalizing low high rest with
  | zero => simp [matching]
  | succ n ih =>
    cases rest with
    | nil => simp [matching]
    | cons d rest =>
      rw [matching]
      split
      · next hbounds =>
        have hnone : following d.toNat = none := by
          rw [following, if_neg (by omega), if_pos (by omega)]
        have herror : unit d rest = replacement := by
          rw [unit, hnone]
        have hzero : consumed d rest = 0 := by
          rw [consumed, hnone]
        rw [toText_error herror, hzero, List.drop_zero, List.length_cons, List.drop_succ_cons,
          ih (Nat.le_refl _) (Nat.le_refl _) rest]
        omega
      · rw [List.drop_zero, Nat.zero_add]

lemma cutsCharacter_nil (rest : List UInt8) : ¬CutsCharacter [] rest := by
  intro h
  cases h

lemma cutsCharacter_congr {front' : List UInt8} (h : expects front = expects front') (rest : List UInt8) :
    CutsCharacter front rest ↔ CutsCharacter front' rest := by
  rw [CutsCharacter, CutsCharacter, h]

/-- A cut within a character, by the bytes of the second part that go on with it. -/
lemma cutsCharacter_iff (rest : List UInt8) (h : expects front = some (low, high)) (hn : n ≠ 0) :
    CutsCharacter front rest ↔ matching n low high rest ≠ 0 := by
  obtain ⟨n, rfl⟩ := Nat.exists_eq_succ_of_ne_zero hn
  rw [CutsCharacter, h]
  cases rest with
  | nil => simp [matching]
  | cons d rest =>
    rw [matching]
    split
    · next hbounds => simp [hbounds]
    · next hbounds => simpa using hbounds

/-- The conversion of the first unit does not reach the end of the bytes. -/
def Settled (b : UInt8) (front : List UInt8) : Prop :=
  ∀ n low high, following b.toNat = some (n, low, high) →
    ¬(matching n low high front < n ∧ matching n low high front = front.length)

lemma unit_append (h : Settled b front) (rest : List UInt8) : unit b (front ++ rest) = unit b front := by
  rw [unit, unit]
  cases hfollowing : following b.toNat with
  | none => rfl
  | some bounds =>
    obtain ⟨n, low, high⟩ := bounds
    simp only [matching_append_closed rest (h n low high hfollowing)]
    split
    · next hfound =>
      have hlength := matching_le_length n low high front
      rw [List.take_append_of_le_length (by omega)]
    · rfl

lemma consumed_append (h : Settled b front) (rest : List UInt8) :
    consumed b (front ++ rest) = consumed b front := by
  rw [consumed, consumed]
  cases hfollowing : following b.toNat with
  | none => rfl
  | some bounds => exact matching_append_closed rest (h _ _ _ hfollowing)

lemma consumed_le (b : UInt8) (front : List UInt8) : consumed b front ≤ front.length := by
  rw [consumed]
  split
  · exact Nat.zero_le _
  · exact matching_le_length _ _ _ _

lemma expects_settled (h : Settled b front) :
    expects (b :: front) = expects (front.drop (consumed b front)) := by
  rw [consumed]
  cases hfollowing : following b.toNat with
  | none => rw [expects_none hfollowing, List.drop_zero]
  | some bounds => exact expects_closed hfollowing (h _ _ _ hfollowing)

/-- What the cut between two parts does to their texts. -/
structure CutLaw (front rest : List UInt8) : Prop where
  whole : ¬CutsCharacter front rest → toText (front ++ rest) = toText front ++ toText rest
  cut : CutsCharacter front rest →
    (toText (front ++ rest)).length < (toText front).length + (toText rest).length

lemma cutLaw_settled (h : Settled b front) (ih : CutLaw (front.drop (consumed b front)) rest) :
    CutLaw (b :: front) rest := by
  obtain ⟨c, hc⟩ := unit_eq b front
  have hfront : toText (b :: front) = c :: toText (front.drop (consumed b front)) := toText_cons hc
  have hwhole : toText (b :: front ++ rest) = c :: toText (front.drop (consumed b front) ++ rest) := by
    have hunit : unit b (front ++ rest) = String.utf8EncodeChar c := by
      rw [unit_append h, hc]
    rw [List.cons_append, toText_cons hunit, consumed_append h,
      List.drop_append_of_le_length (consumed_le b front)]
  have hcuts := cutsCharacter_congr (expects_settled h) rest
  constructor
  · intro hcut
    rw [hwhole, hfront, ih.whole fun hcut' => hcut (hcuts.mpr hcut')]
    rfl
  · intro hcut
    have hlt := ih.cut (hcuts.mp hcut)
    rw [hwhole, hfront, List.length_cons, List.length_cons]
    omega

/-- The part of a character that the first part ends with is an error, unless the second goes on with
it. -/
lemma cutLaw_open (hfollowing : following b.toNat = some (n, low, high))
    (hfound : matching n low high front < n) (hall : matching n low high front = front.length) :
    CutLaw (b :: front) rest := by
  have hfront : toText (b :: front) = ['\uFFFD'] := by
    have herror : unit b front = replacement := by
      rw [unit, hfollowing]
      exact if_neg (Nat.ne_of_lt hfound)
    have hconsumed : consumed b front = front.length := by
      rw [consumed, hfollowing]
      exact hall
    rw [toText_error herror, hconsumed, List.drop_length, toText_nil]
  have happend := matching_append_open rest hfound hall
  have hcuts := cutsCharacter_iff (n := n - front.length) rest
    (expects_open hfollowing hfound hall) (by omega)
  have hbounds := (shape_of_following hfollowing).bounds
  generalize hmatching : matching (n - front.length) (if front.length = 0 then low else 128)
    (if front.length = 0 then high else 191) rest = m at happend hcuts
  have hconsumed : consumed b (front ++ rest) = front.length + m := by
    rw [consumed, hfollowing]
    exact happend
  obtain ⟨c, hc⟩ := unit_eq b (front ++ rest)
  have hwhole : toText (b :: front ++ rest) = c :: toText (rest.drop m) := by
    rw [List.cons_append, toText_cons hc, hconsumed, List.drop_append, List.drop_of_length_le (by omega),
      List.nil_append, Nat.add_sub_cancel_left]
  have hlength : (toText rest).length = m + (toText (rest.drop m)).length := by
    rw [← hmatching]
    apply length_toText_matching
    · split <;> omega
    · split <;> omega
  constructor
  · intro hcut
    have hm : m = 0 := by
      by_contra hne
      exact hcut (hcuts.mpr hne)
    have herror : unit b (front ++ rest) = replacement := by
      rw [unit, hfollowing]
      exact if_neg (by omega)
    rw [List.cons_append, toText_error herror, hconsumed, hm, Nat.add_zero, List.drop_left, hfront]
    rfl
  · intro hcut
    have hm := hcuts.mp hcut
    rw [hwhole, hfront, List.length_cons, List.length_singleton]
    omega

theorem cutLaw (front rest : List UInt8) : CutLaw front rest := by
  induction front using unit_induction with
  | nil => exact ⟨fun _ => rfl, fun h => absurd h (cutsCharacter_nil rest)⟩
  | cons b front ih =>
    by_cases hsettled : Settled b front
    · exact cutLaw_settled hsettled ih
    · simp only [Settled, not_forall, not_not] at hsettled
      obtain ⟨n, low, high, hfollowing, hfound, hall⟩ := hsettled
      exact cutLaw_open hfollowing hfound hall

/-! ### Pieces -/

/-- Conversion by pieces never gives less than the text of the whole, and gives more where a cut is within a
character. -/
lemma length_toText_flatten (pieces : List (List UInt8)) :
    (toText pieces.flatten).length ≤ (pieces.flatMap toText).length ∧
      (¬Uncut pieces → (toText pieces.flatten).length < (pieces.flatMap toText).length) := by
  induction pieces with
  | nil => exact ⟨Nat.le_refl _, fun h => absurd trivial h⟩
  | cons front pieces ih =>
    have hlaw := cutLaw front pieces.flatten
    rw [List.flatten_cons, List.flatMap_cons, List.length_append, Uncut]
    by_cases hcut : CutsCharacter front pieces.flatten
    · have hlt := hlaw.cut hcut
      exact ⟨by omega, fun _ => by omega⟩
    · rw [hlaw.whole hcut, List.length_append]
      refine ⟨by omega, fun h => ?_⟩
      have hlt := ih.2 fun huncut => h ⟨hcut, huncut⟩
      omega

/-- The texts of the pieces are the text of the whole exactly when no cut is within a character. -/
theorem flatMap_toText_iff (pieces : List (List UInt8)) :
    pieces.flatMap toText = toText pieces.flatten ↔ Uncut pieces := by
  constructor
  · intro h
    by_contra hcut
    have hlt := (length_toText_flatten pieces).2 hcut
    rw [h] at hlt
    exact Nat.lt_irrefl _ hlt
  · intro h
    induction pieces with
    | nil => rfl
    | cons front pieces ih =>
      rw [List.flatMap_cons, List.flatten_cons, ih h.2, (cutLaw front pieces.flatten).whole h.1]

example : CutsCharacter [226, 130] [172] ∧ ¬CutsCharacter [226, 130] [65] := by decide

end Utf8
