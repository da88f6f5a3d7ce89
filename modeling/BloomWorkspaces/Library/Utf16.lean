import BloomWorkspaces.Library.Ascii
import BloomWorkspaces.Library.Utf8

/-!
# UTF-16

The strings of JavaScript are sequences of 16-bit units. A text has an encoding; a sequence with a lone
surrogate is the encoding of none.
-/

namespace Utf16

def encodeChar (c : Char) : List UInt16 :=
  let v := c.val.toNat
  if v < 65536 then [UInt16.ofNat v]
  else [UInt16.ofNat (55296 + (v - 65536) / 1024), UInt16.ofNat (56320 + (v - 65536) % 1024)]

def encode (text : List Char) : List UInt16 := text.flatMap encodeChar

/-- The text that a sequence of units stands for. -/
def decode : List UInt16 → Option (List Char)
  | [] => some []
  | u :: rest =>
    if u.toNat < 55296 ∨ 57343 < u.toNat then (decode rest).map (Char.ofNat u.toNat :: ·)
    else
      match rest with
      | [] => none
      | v :: rest' =>
        if u.toNat < 56320 ∧ 56320 ≤ v.toNat ∧ v.toNat < 57344 then
          (decode rest').map
            (Char.ofNat (65536 + (u.toNat - 55296) * 1024 + (v.toNat - 56320)) :: ·)
        else none

/-- `toWellFormed`: the replacement character stands for a lone surrogate. -/
def toWellFormed : List UInt16 → List Char
  | [] => []
  | u :: rest =>
    if u.toNat < 55296 ∨ 57343 < u.toNat then Char.ofNat u.toNat :: toWellFormed rest
    else
      match rest with
      | [] => ['\uFFFD']
      | v :: rest' =>
        if u.toNat < 56320 ∧ 56320 ≤ v.toNat ∧ v.toNat < 57344 then
          Char.ofNat (65536 + (u.toNat - 55296) * 1024 + (v.toNat - 56320)) :: toWellFormed rest'
        else '\uFFFD' :: toWellFormed (v :: rest')

/-- `Buffer.byteLength` -/
def byteLength (units : List UInt16) : ℕ := (Utf8.encode (toWellFormed units)).length

@[simp] lemma encode_nil : encode [] = [] := rfl

lemma encode_cons (c : Char) (text : List Char) : encode (c :: text) = encodeChar c ++ encode text := by
  simp [encode]

lemma encode_append (text text' : List Char) : encode (text ++ text') = encode text ++ encode text' := by
  simp [encode]

lemma toNat_ofNat {n : ℕ} (h : n < 65536) : (UInt16.ofNat n).toNat = n := by
  rw [UInt16.toNat_ofNat']
  omega

lemma ofNat_val (c : Char) : Char.ofNat c.val.toNat = c := by
  exact Char.ofNat_toNat c

lemma val_ofNat {n : ℕ} (h : n < 55296 ∨ 57343 < n ∧ n < 1114112) : (Char.ofNat n).val.toNat = n := by
  have hvalid : n.isValidChar := h
  have hchar : Char.ofNat n = Char.ofNatAux n hvalid := dif_pos hvalid
  rw [hchar]
  rfl

/-- A unit that is no surrogate. -/
lemma decode_plain {u : UInt16} (h : u.toNat < 55296 ∨ 57343 < u.toNat) (rest : List UInt16) :
    decode (u :: rest) = (decode rest).map (Char.ofNat u.toNat :: ·) := by
  cases rest with
  | nil => conv_lhs => rw [decode, if_pos h]
  | cons v rest => conv_lhs => rw [decode, if_pos h]

lemma decode_lone {u : UInt16} (h : ¬(u.toNat < 55296 ∨ 57343 < u.toNat)) : decode [u] = none := by
  rw [decode, if_neg h]

lemma decode_surrogate {u : UInt16} (h : ¬(u.toNat < 55296 ∨ 57343 < u.toNat)) (v : UInt16)
    (rest : List UInt16) :
    decode (u :: v :: rest) =
      if u.toNat < 56320 ∧ 56320 ≤ v.toNat ∧ v.toNat < 57344 then
        (decode rest).map (Char.ofNat (65536 + (u.toNat - 55296) * 1024 + (v.toNat - 56320)) :: ·)
      else none := by
  rw [decode, if_neg h]

/-- Units that are no surrogates are characters. -/
lemma decode_of_plain {units : List UInt16} (h : ∀ u ∈ units, u.toNat < 55296) :
    decode units = some (units.map fun u => Char.ofNat u.toNat) := by
  induction units with
  | nil => rfl
  | cons u rest ih =>
    rw [decode_plain (Or.inl (h u List.mem_cons_self)), ih fun v hv => h v (List.mem_cons_of_mem _ hv)]
    rfl

/-- Every text has an encoding that stands for it. -/
theorem decode_encode (text : List Char) : decode (encode text) = some text := by
  induction text with
  | nil => rfl
  | cons c text ih =>
    have hval := Utf8.val_lt c
    rw [encode_cons, encodeChar]
    by_cases hsmall : c.val.toNat < 65536
    · simp only [if_pos hsmall, List.cons_append, List.nil_append]
      have hunit := toNat_ofNat hsmall
      rw [decode_plain (by omega), hunit, ih, ofNat_val]
      rfl
    · simp only [if_neg hsmall, List.cons_append, List.nil_append]
      have hhigh : 55296 + (c.val.toNat - 65536) / 1024 < 65536 := by omega
      have hlow : 56320 + (c.val.toNat - 65536) % 1024 < 65536 := by omega
      have hfirst := toNat_ofNat hhigh
      rw [decode_surrogate (by omega), toNat_ofNat hlow, hfirst, if_pos (by omega), ih]
      have hsum : 65536 + (55296 + (c.val.toNat - 65536) / 1024 - 55296) * 1024 +
          (56320 + (c.val.toNat - 65536) % 1024 - 56320) = c.val.toNat := by omega
      rw [hsum, ofNat_val]
      rfl

/-- A sequence that stands for a text is its encoding. -/
theorem encode_of_decode {units : List UInt16} {text : List Char} (h : decode units = some text) :
    encode text = units := by
  induction units using decode.induct generalizing text with
  | case1 =>
    rw [decode] at h
    obtain rfl := Option.some.inj h
    rfl
  | case2 u rest hplain ih =>
    rw [decode_plain hplain] at h
    obtain ⟨text', htext', rfl⟩ := Option.map_eq_some_iff.mp h
    have hu := u.toNat_lt
    have hval : (Char.ofNat u.toNat).val.toNat = u.toNat := val_ofNat (by omega)
    rw [encode_cons, ih htext', encodeChar, hval, if_pos (by omega), UInt16.ofNat_toNat]
    rfl
  | case3 u hplain =>
    rw [decode_lone hplain] at h
    cases h
  | case4 u hplain v rest' hpair ih =>
    rw [decode_surrogate hplain, if_pos hpair] at h
    obtain ⟨text', htext', rfl⟩ := Option.map_eq_some_iff.mp h
    have hval : (Char.ofNat (65536 + (u.toNat - 55296) * 1024 + (v.toNat - 56320))).val.toNat =
        65536 + (u.toNat - 55296) * 1024 + (v.toNat - 56320) := val_ofNat (by omega)
    rw [encode_cons, ih htext', encodeChar, hval]
    have hhigh : 55296 + (65536 + (u.toNat - 55296) * 1024 + (v.toNat - 56320) - 65536) / 1024 = u.toNat := by
      omega
    have hlow : 56320 + (65536 + (u.toNat - 55296) * 1024 + (v.toNat - 56320) - 65536) % 1024 = v.toNat := by
      omega
    rw [if_neg (by omega), hhigh, hlow, UInt16.ofNat_toNat, UInt16.ofNat_toNat]
    rfl
  | case5 u hplain v rest' hpair =>
    rw [decode_surrogate hplain, if_neg hpair] at h
    cases h

lemma encode_injective {text text' : List Char} (h : encode text = encode text') : text = text' := by
  have hdecode := congrArg decode h
  rw [decode_encode, decode_encode] at hdecode
  exact Option.some.inj hdecode

/-- A unit that is no surrogate stands for its character only. -/
lemma mem_encode {text : List Char} {c : Char} (hc : c.val.toNat < 55296) :
    UInt16.ofNat c.val.toNat ∈ encode text ↔ c ∈ text := by
  have hself : (UInt16.ofNat c.val.toNat).toNat = c.val.toNat := toNat_ofNat (by omega)
  constructor
  · intro h
    obtain ⟨d, hd, hin⟩ := List.mem_flatMap.mp h
    have hval := Utf8.val_lt d
    have hsame : c.val.toNat = d.val.toNat := by
      rw [encodeChar] at hin
      by_cases hsmall : d.val.toNat < 65536
      · simp only [if_pos hsmall, List.mem_singleton] at hin
        have hnat := congrArg UInt16.toNat hin
        rw [hself, toNat_ofNat hsmall] at hnat
        exact hnat
      · simp only [if_neg hsmall, List.mem_cons, List.not_mem_nil, or_false] at hin
        rcases hin with hin | hin
        · have hnat := congrArg UInt16.toNat hin
          rw [hself, toNat_ofNat (by omega)] at hnat
          omega
        · have hnat := congrArg UInt16.toNat hin
          rw [hself, toNat_ofNat (by omega)] at hnat
          omega
    have hchar : c = d := Char.ext (UInt32.toNat_inj.mp hsame)
    rw [hchar]
    exact hd
  · intro h
    refine List.mem_flatMap.mpr ⟨c, h, ?_⟩
    rw [encodeChar, if_pos (by omega)]
    exact List.mem_singleton.mpr rfl

lemma length_encode_le (text : List Char) : (encode text).length ≤ 2 * text.length := by
  induction text with
  | nil => exact Nat.zero_le _
  | cons c text ih =>
    have hc : (encodeChar c).length ≤ 2 := by
      rw [encodeChar]
      split
      · exact Nat.le_succ 1
      · exact Nat.le_refl 2
    rw [encode_cons, List.length_append, List.length_cons]
    omega

/-- No character has more units than bytes. -/
lemma length_encode_le_bytes (text : List Char) :
    (encode text).length ≤ (Utf8.encode text).length := by
  induction text with
  | nil => exact Nat.zero_le _
  | cons c text ih =>
    have hc : (encodeChar c).length ≤ (String.utf8EncodeChar c).length := by
      rw [String.length_utf8EncodeChar, encodeChar]
      by_cases hsmall : c.val.toNat < 65536
      · rw [if_pos hsmall]
        exact Char.utf8Size_pos c
      · have hlarge : ∀ v : UInt32, v.toNat < 65536 → ¬c.val ≤ v := by
          intro v hv hle
          have hle' := UInt32.le_iff_toNat_le.mp hle
          omega
        rw [if_neg hsmall, Char.utf8Size, if_neg (hlarge _ (by decide)), if_neg (hlarge _ (by decide)),
          if_neg (hlarge _ (by decide))]
        exact (by decide : 2 ≤ 4)
    rw [encode_cons, Utf8.encode_cons, List.length_append, List.length_append]
    omega

/-- Characters of one unit each. -/
lemma encode_eq_map {text : List Char} (h : ∀ c ∈ text, c.val.toNat < 65536) :
    encode text = text.map fun c => UInt16.ofNat c.val.toNat := by
  induction text with
  | nil => rfl
  | cons c text ih =>
    rw [encode_cons, encodeChar, if_pos (h c List.mem_cons_self), List.map_cons,
      ih fun d hd => h d (List.mem_cons_of_mem c hd), List.singleton_append]

lemma encode_ne_nil {text : List Char} (h : text ≠ []) : encode text ≠ [] := by
  cases text with
  | nil => exact absurd rfl h
  | cons c text =>
    rw [encode_cons, encodeChar]
    split
    · exact List.cons_ne_nil _ _
    · exact List.cons_ne_nil _ _

lemma encode_intercalate {c : Char} (hc : c.val.toNat < 55296) (pieces : List (List Char)) :
    encode ([c].intercalate pieces) =
      [UInt16.ofNat c.val.toNat].intercalate (pieces.map encode) := by
  have hself : encode [c] = [UInt16.ofNat c.val.toNat] := by
    rw [encode_cons, encodeChar, if_pos (by omega)]
    rfl
  induction pieces with
  | nil => rfl
  | cons piece pieces ih =>
    cases pieces with
    | nil => simp [List.intercalate]
    | cons piece' pieces =>
      rw [List.intercalate_cons_cons, List.map_cons, List.map_cons, List.intercalate_cons_cons,
        encode_append, encode_append, ih, hself]
      rfl

/-- Splitting at a unit that is no surrogate is splitting the text. -/
lemma splitOn_encode {c : Char} (hc : c.val.toNat < 55296) (text : List Char) :
    (encode text).splitOn (UInt16.ofNat c.val.toNat) = (text.splitOn c).map encode := by
  have htext : [c].intercalate (text.splitOn c) = text := List.intercalate_splitOn c
  conv_lhs => rw [← htext, encode_intercalate hc]
  refine List.splitOn_intercalate _ ?_ (by simp [List.splitOn_ne_nil])
  intro units hunits
  obtain ⟨piece, hpiece, rfl⟩ := List.mem_map.mp hunits
  rw [mem_encode hc]
  exact Ascii.not_mem_of_mem_splitOn hpiece

/-! ### Sizes in bytes -/

lemma toWellFormed_plain {u : UInt16} (h : u.toNat < 55296 ∨ 57343 < u.toNat) (rest : List UInt16) :
    toWellFormed (u :: rest) = Char.ofNat u.toNat :: toWellFormed rest := by
  cases rest with
  | nil => conv_lhs => rw [toWellFormed, if_pos h]
  | cons v rest => conv_lhs => rw [toWellFormed, if_pos h]

lemma toWellFormed_surrogate {u : UInt16} (h : ¬(u.toNat < 55296 ∨ 57343 < u.toNat)) (v : UInt16)
    (rest : List UInt16) :
    toWellFormed (u :: v :: rest) =
      if u.toNat < 56320 ∧ 56320 ≤ v.toNat ∧ v.toNat < 57344 then
        Char.ofNat (65536 + (u.toNat - 55296) * 1024 + (v.toNat - 56320)) :: toWellFormed rest
      else '\uFFFD' :: toWellFormed (v :: rest) := by
  rw [toWellFormed, if_neg h]

/-- Nothing is replaced in a sequence that stands for a text. -/
lemma toWellFormed_of_decode {units : List UInt16} {text : List Char} (h : decode units = some text) :
    toWellFormed units = text := by
  induction units using decode.induct generalizing text with
  | case1 =>
    rw [decode] at h
    exact Option.some.inj h
  | case2 u rest hplain ih =>
    rw [decode_plain hplain] at h
    obtain ⟨text', htext', rfl⟩ := Option.map_eq_some_iff.mp h
    rw [toWellFormed_plain hplain, ih htext']
  | case3 u hplain =>
    rw [decode_lone hplain] at h
    cases h
  | case4 u hplain v rest' hpair ih =>
    rw [decode_surrogate hplain, if_pos hpair] at h
    obtain ⟨text', htext', rfl⟩ := Option.map_eq_some_iff.mp h
    rw [toWellFormed_surrogate hplain, if_pos hpair, ih htext']
  | case5 u hplain v rest' hpair =>
    rw [decode_surrogate hplain, if_neg hpair] at h
    cases h

lemma byteLength_of_decode {units : List UInt16} {text : List Char} (h : decode units = some text) :
    byteLength units = (Utf8.encode text).length := by
  rw [byteLength, toWellFormed_of_decode h]

end Utf16
