import BloomWorkspaces.Library.Utf16

/-!
# Components of a URI

`encodeURIComponent` and `decodeURIComponent`: what is not unreserved is written as the escapes of its
UTF-8 bytes, so a component contains no delimiter, and decoding it gives back what was encoded.
-/

namespace UriComponent

/-- `uriMark` -/
def marks : List Char := "-_.!~*'()".toList

/-- `uriUnreserved` -/
def isUnreserved (c : Char) : Bool := c.isAlphanum || c ∈ marks

def hexDigit (n : ℕ) : Char := (Nat.digitChar n).toUpper

def escape (b : UInt8) : List Char := ['%', hexDigit (b.toNat / 16), hexDigit (b.toNat % 16)]

def escapeChar (c : Char) : List Char :=
  if isUnreserved c then [c] else (String.utf8EncodeChar c).flatMap escape

def escapeText (text : List Char) : List Char := text.flatMap escapeChar

/-- `encodeURIComponent`; a lone surrogate has no encoding. -/
def encode (units : List UInt16) : Option (List UInt16) :=
  (Utf16.decode units).map fun text => Utf16.encode (escapeText text)

/-- The byte of an escape. -/
def escapedByte (a b : UInt16) : Option UInt8 :=
  if Ascii.isHexDigit (Char.ofNat a.toNat) && Ascii.isHexDigit (Char.ofNat b.toNat) then
    some (UInt8.ofNat
      (Ascii.hexValue (Char.ofNat a.toNat) * 16 + Ascii.hexValue (Char.ofNat b.toNat)))
  else none

/-- The escapes that follow each other are decoded together. -/
def decodeEscapes (run : List UInt8) : List UInt16 → Option (List UInt16)
  | [] => (Utf8.decode run).map Utf16.encode
  | u :: rest =>
    if u = 37 then
      match rest with
      | a :: b :: rest' => (escapedByte a b).bind fun byte => decodeEscapes (run ++ [byte]) rest'
      | _ => none
    else do
      let text ← Utf8.decode run
      let others ← decodeEscapes [] rest
      pure (Utf16.encode text ++ u :: others)

/-- `decodeURIComponent` -/
def decode (units : List UInt16) : Option (List UInt16) := decodeEscapes [] units

variable {c : Char} {text text' : List Char} {units units' component : List UInt16}

/-! ### Characters of a component -/

/-- A character that may stand in a component. -/
def IsComponentChar (c : Char) : Prop := isUnreserved c = true ∨ c = '%'

lemma range_of_unreserved (h : isUnreserved c = true) : 33 ≤ c.val.toNat ∧ c.val.toNat < 127 := by
  have hmarks : marks.all (fun d => 33 ≤ d.val.toNat ∧ d.val.toNat < 127) = true := by decide +kernel
  simp only [isUnreserved, Bool.or_eq_true, decide_eq_true_eq] at h
  rcases h with halnum | hmem
  · delta Char.isAlphanum Char.isAlpha Char.isUpper Char.isLower Char.isDigit at halnum
    simp only [Bool.or_eq_true, Bool.and_eq_true, decide_eq_true_eq, ge_iff_le,
      UInt32.le_iff_toNat_le] at halnum
    change (65 ≤ c.val.toNat ∧ c.val.toNat ≤ 90 ∨ 97 ≤ c.val.toNat ∧ c.val.toNat ≤ 122) ∨
      48 ≤ c.val.toNat ∧ c.val.toNat ≤ 57 at halnum
    omega
  · exact of_decide_eq_true (List.all_eq_true.mp hmarks c hmem)

lemma isComponentChar_hexDigit {n : ℕ} (h : n < 16) : IsComponentChar (hexDigit n) := by
  have hall : ∀ m < 16, isUnreserved (hexDigit m) = true := by decide +kernel
  exact .inl (hall n h)

lemma isComponentChar_of_mem_escape {b : UInt8} (h : c ∈ escape b) : IsComponentChar c := by
  have hlt : b.toNat < 256 := b.toNat_lt
  simp only [escape, List.mem_cons, List.not_mem_nil, or_false] at h
  rcases h with rfl | rfl | rfl
  · exact .inr rfl
  · exact isComponentChar_hexDigit (by omega)
  · exact isComponentChar_hexDigit (by omega)

lemma isComponentChar_of_mem (h : c ∈ escapeText text) : IsComponentChar c := by
  obtain ⟨d, -, hd⟩ := List.mem_flatMap.mp h
  rw [escapeChar] at hd
  split at hd
  · rename_i hc
    exact .inl (List.mem_singleton.mp hd ▸ hc)
  · obtain ⟨b, -, hb⟩ := List.mem_flatMap.mp hd
    exact isComponentChar_of_mem_escape hb

lemma ne_percent_of_unreserved (h : isUnreserved c = true) : c ≠ '%' := by
  rintro rfl
  exact absurd h (by decide +kernel)

/-- What separates the segments of a path, the fields of a query and cookies. -/
def delimiters : List Char := ['/', '?', '#', '&', '=', '+', ';']

/-- No delimiter stands in a component. -/
lemma not_mem_component {d : Char} (hd : d ∈ delimiters) (h : encode units = some component) :
    UInt16.ofNat d.val.toNat ∉ component := by
  have hall : delimiters.all (fun e => e.val.toNat < 55296 ∧ isUnreserved e = false ∧ e ≠ '%') = true := by
    decide +kernel
  obtain ⟨hsmall, hreserved, hpercent⟩ := of_decide_eq_true (List.all_eq_true.mp hall d hd)
  obtain ⟨text, -, rfl⟩ := Option.map_eq_some_iff.mp h
  intro hmem
  rcases isComponentChar_of_mem ((Utf16.mem_encode hsmall).mp hmem) with hunreserved | heq
  · rw [hreserved] at hunreserved
    cases hunreserved
  · exact hpercent heq

/-- The units of a component are those of its characters. -/
lemma exists_of_mem_component {u : UInt16} (h : encode units = some component) (hu : u ∈ component) :
    ∃ c, IsComponentChar c ∧ u = UInt16.ofNat c.val.toNat := by
  obtain ⟨text, -, rfl⟩ := Option.map_eq_some_iff.mp h
  have hsmall : ∀ c ∈ escapeText text, c.val.toNat < 65536 := by
    intro c hc
    rcases isComponentChar_of_mem hc with hunreserved | rfl
    · exact Nat.lt_trans (range_of_unreserved hunreserved).2 (by decide)
    · decide
  rw [Utf16.encode_eq_map hsmall] at hu
  obtain ⟨c, hc, rfl⟩ := List.mem_map.mp hu
  exact ⟨c, isComponentChar_of_mem hc, rfl⟩

lemma escapeChar_ne_nil (c : Char) : escapeChar c ≠ [] := by
  rw [escapeChar]
  split
  · exact List.cons_ne_nil _ _
  · have hne : Utf8.encode [c] ≠ [] := Utf8.encode_ne_nil (List.cons_ne_nil _ _)
    rw [Utf8.encode, List.flatMap_singleton] at hne
    obtain ⟨b, bytes, hbytes⟩ := List.exists_cons_of_ne_nil hne
    rw [hbytes, List.flatMap_cons]
    exact List.cons_ne_nil _ _

/-- Only the empty component is empty. -/
lemma encode_ne_nil (h : encode units = some component) (hne : units ≠ []) : component ≠ [] := by
  obtain ⟨text, hdecode, rfl⟩ := Option.map_eq_some_iff.mp h
  have htext : text ≠ [] := by
    rintro rfl
    exact hne (Utf16.encode_of_decode hdecode).symm
  obtain ⟨c, rest, rfl⟩ := List.exists_cons_of_ne_nil htext
  refine Utf16.encode_ne_nil fun hnil => escapeChar_ne_nil c ?_
  rw [escapeText, List.flatMap_cons] at hnil
  exact (List.append_eq_nil_iff.mp hnil).1

lemma encode_eq_nil_iff (h : encode units = some component) : component = [] ↔ units = [] := by
  refine ⟨fun hnil => by_contra fun hne => encode_ne_nil h hne hnil, ?_⟩
  rintro rfl
  rw [encode, Utf16.decode, Option.map_some, escapeText, List.flatMap_nil, Utf16.encode_nil] at h
  exact (Option.some_inj.mp h).symm

/-- What needs no escape is its own component. -/
lemma encode_unreserved (h : text.all isUnreserved = true) :
    encode (Utf16.encode text) = some (Utf16.encode text) := by
  have hsame : ∀ text : List Char, text.all isUnreserved = true → escapeText text = text := by
    intro text
    induction text with
    | nil => exact fun _ => rfl
    | cons c text ih =>
      intro h
      rw [List.all_cons, Bool.and_eq_true] at h
      have htext : escapeText text = text := ih h.2
      rw [escapeText] at htext ⊢
      rw [List.flatMap_cons, htext, escapeChar, if_pos h.1, List.singleton_append]
  rw [encode, Utf16.decode_encode, Option.map_some, hsame text h]

/-- Only a lone surrogate has no component. -/
lemma encode_eq_none_iff : encode units = none ↔ Utf16.decode units = none :=
  Option.map_eq_none_iff

/-! ### Round trip -/

lemma escapedByte_escape (b : UInt8) : escapedByte (UInt16.ofNat (hexDigit (b.toNat / 16)).val.toNat)
    (UInt16.ofNat (hexDigit (b.toNat % 16)).val.toNat) = some b := by
  have hdigit : ∀ m < 16, Char.ofNat (UInt16.ofNat (hexDigit m).val.toNat).toNat = hexDigit m ∧
      Ascii.isHexDigit (hexDigit m) = true ∧ Ascii.hexValue (hexDigit m) = m := by decide +kernel
  have hlt : b.toNat < 256 := b.toNat_lt
  obtain ⟨hchar, hhex, hvalue⟩ := hdigit (b.toNat / 16) (by omega)
  obtain ⟨hchar', hhex', hvalue'⟩ := hdigit (b.toNat % 16) (by omega)
  have hsum : b.toNat / 16 * 16 + b.toNat % 16 = b.toNat := by omega
  rw [escapedByte, hchar, hchar', hhex, hhex', hvalue, hvalue', hsum]
  simp

lemma decodeEscapes_cons {u : UInt16} (h : u ≠ 37) (run : List UInt8) (rest : List UInt16) :
    decodeEscapes run (u :: rest) = (Utf8.decode run).bind fun text =>
      (decodeEscapes [] rest).map fun others => Utf16.encode text ++ u :: others := by
  conv_lhs => unfold decodeEscapes
  rw [if_neg h]
  cases Utf8.decode run with
  | none => rfl
  | some text => cases decodeEscapes [] rest <;> rfl

/-- The escapes of a text add its bytes to those that are being collected. -/
lemma decodeEscapes_escapes (bytes run : List UInt8) (rest : List UInt16) :
    decodeEscapes run (Utf16.encode (bytes.flatMap escape) ++ rest) = decodeEscapes (run ++ bytes) rest := by
  induction bytes generalizing run with
  | nil => rw [List.flatMap_nil, Utf16.encode_nil, List.nil_append, List.append_nil]
  | cons b bytes ih =>
    have hsmall : ∀ m < 16, (hexDigit m).val.toNat < 65536 := by decide +kernel
    have hlt : b.toNat < 256 := b.toNat_lt
    have hescape : Utf16.encode (escape b) = [37, UInt16.ofNat (hexDigit (b.toNat / 16)).val.toNat,
        UInt16.ofNat (hexDigit (b.toNat % 16)).val.toNat] := by
      simp only [escape, Utf16.encode_cons, Utf16.encode_nil, Utf16.encodeChar,
        if_pos (hsmall (b.toNat / 16) (by omega)), if_pos (hsmall (b.toNat % 16) (by omega))]
      rfl
    rw [List.flatMap_cons, Utf16.encode_append, hescape]
    simp only [List.cons_append, List.nil_append]
    rw [decodeEscapes, if_pos rfl, escapedByte_escape, Option.bind_some, ih, List.append_assoc,
      List.singleton_append]

/-- `text` follows a run of escapes that stand for `front`. -/
lemma decodeEscapes_escapeText (front text : List Char) :
    decodeEscapes (Utf8.encode front) (Utf16.encode (escapeText text)) =
      some (Utf16.encode (front ++ text)) := by
  induction text generalizing front with
  | nil =>
    rw [escapeText, List.flatMap_nil, Utf16.encode_nil, decodeEscapes, Utf8.decode_encode,
      Option.map_some, List.append_nil]
  | cons c text ih =>
    rw [escapeText, List.flatMap_cons, Utf16.encode_append]
    rw [escapeText] at ih
    by_cases hc : isUnreserved c = true
    · obtain ⟨-, hval⟩ := range_of_unreserved hc
      have hunit : UInt16.ofNat c.val.toNat ≠ 37 := by
        intro heq
        apply ne_percent_of_unreserved hc
        have hnat := congrArg UInt16.toNat heq
        rw [Utf16.toNat_ofNat (by omega)] at hnat
        exact Char.ext (UInt32.toNat_inj.mp hnat)
      rw [escapeChar, if_pos hc, Utf16.encode_cons, Utf16.encode_nil, List.append_nil, Utf16.encodeChar,
        if_pos (by omega), List.singleton_append, decodeEscapes_cons hunit, Utf8.decode_encode]
      have hrest := ih []
      rw [Utf8.encode, List.flatMap_nil, List.nil_append] at hrest
      rw [Option.bind_some, hrest, Option.map_some, Utf16.encode_append, Utf16.encode_cons,
        Utf16.encodeChar, if_pos (by omega)]
      rfl
    · rw [escapeChar, if_neg hc, decodeEscapes_escapes]
      have hbytes : Utf8.encode front ++ String.utf8EncodeChar c = Utf8.encode (front ++ [c]) := by
        rw [Utf8.encode_append, Utf8.encode, Utf8.encode, List.flatMap_singleton]
      rw [hbytes, ih, List.append_assoc, List.singleton_append]

/-- Decoding gives back what was encoded. -/
theorem decode_encode (h : encode units = some component) : decode component = some units := by
  obtain ⟨text, hdecode, rfl⟩ := Option.map_eq_some_iff.mp h
  have hrun := decodeEscapes_escapeText [] text
  rw [List.nil_append] at hrun
  rw [decode, ← Utf16.encode_of_decode hdecode]
  exact hrun

end UriComponent
