import BloomWorkspaces.Library.Ascii
import BloomWorkspaces.Library.JsonText

/-!
# JSON values

`JSON.stringify` and `JSON.parse` on the values that both know. Strings and keys are sequences of 16-bit
units. The numbers are of any type whose texts can be read back; the zero of a sign is the other one.
-/

/-- The keys of an object are in the order in which they are written. -/
inductive JsonValue (ν : Type)
  | null
  | bool (b : Bool)
  | number (n : ν)
  | string (units : List UInt16)
  | array (items : List (JsonValue ν))
  | object (fields : List (List UInt16 × JsonValue ν))

def JsonText.isNumberChar (c : Char) : Bool :=
  c.isDigit || c = '-' || c = '+' || c = '.' || c = 'e' || c = 'E'

/-- How numbers are written, and what the tokens stand for that are numbers. -/
structure NumberFormat (ν : Type) where
  text : ν → List Char
  read : List Char → Option ν
  read_text : ∀ n, read (text n) = some n
  text_ne_nil : ∀ n, text n ≠ []
  text_chars : ∀ n, ∀ c ∈ text n, JsonText.isNumberChar c = true

/-- The natural numbers in decimal digits. -/
def NumberFormat.decimal : NumberFormat ℕ where
  text := JsonText.number
  read digits := if digits.all Char.isDigit then some (Nat.ofDigitChars 10 digits 0) else none
  read_text n := by
    have hdigits : (JsonText.number n).all Char.isDigit = true :=
      List.all_eq_true.mpr fun c hc => Nat.isDigit_of_mem_toDigits (by decide) (by decide) hc
    rw [if_pos hdigits, JsonText.number, Nat.ofDigitChars_toDigits (by decide) (by decide)]
  text_ne_nil n := Nat.toDigits_ne_nil
  text_chars n c hc := by
    rw [JsonText.isNumberChar, Nat.isDigit_of_mem_toDigits (by decide) (by decide) hc]
    rfl

namespace JsonValue

variable {ν : Type}

mutual

def stringify (format : NumberFormat ν) : JsonValue ν → List Char
  | .null => ['n', 'u', 'l', 'l']
  | .bool b => JsonText.bool b
  | .number n => format.text n
  | .string units => JsonText.string units
  | .array items => JsonText.array (stringifyItems format items)
  | .object fields => JsonText.object (stringifyFields format fields)

def stringifyItems (format : NumberFormat ν) : List (JsonValue ν) → List (List Char)
  | [] => []
  | item :: items => stringify format item :: stringifyItems format items

def stringifyFields (format : NumberFormat ν) : List (List UInt16 × JsonValue ν) → List (List Char)
  | [] => []
  | (key, value) :: fields => JsonText.field key (stringify format value) :: stringifyFields format fields

end

mutual

/-- No object has a key twice. -/
def Proper : JsonValue ν → Prop
  | .array items => ProperItems items
  | .object fields => (fields.map (·.1)).Nodup ∧ ProperFields fields
  | _ => True

def ProperItems : List (JsonValue ν) → Prop
  | [] => True
  | item :: items => Proper item ∧ ProperItems items

def ProperFields : List (List UInt16 × JsonValue ν) → Prop
  | [] => True
  | (_, value) :: fields => Proper value ∧ ProperFields fields

end

/-! ### Parsing -/

def isWhitespace (c : Char) : Bool := c = ' ' || c = '\t' || c = '\n' || c = '\r'

def skipWhitespace (input : List Char) : List Char := input.dropWhile isWhitespace

/-- The unit that a backslash and the character stand for. -/
def unescape (c : Char) : Option UInt16 :=
  if c = '"' ∨ c = '\\' ∨ c = '/' then some (UInt16.ofNat c.val.toNat)
  else if c = 'b' then some 8
  else if c = 't' then some 9
  else if c = 'n' then some 10
  else if c = 'f' then some 12
  else if c = 'r' then some 13
  else none

/-- The units up to the closing quote, and what follows it. -/
def unquote : List Char → Option (List UInt16 × List Char)
  | [] => none
  | c :: rest =>
    if c = '"' then some ([], rest)
    else if c = '\\' then
      match rest with
      | [] => none
      | e :: rest =>
        if e = 'u' then
          match rest with
          | d₁ :: d₂ :: d₃ :: d₄ :: rest =>
            if [d₁, d₂, d₃, d₄].all Ascii.isHexDigit then
              (unquote rest).map fun p => (UInt16.ofNat (Ascii.hexNumber [d₁, d₂, d₃, d₄]) :: p.1, p.2)
            else none
          | _ => none
        else
          match unescape e with
          | some unit => (unquote rest).map fun p => (unit :: p.1, p.2)
          | none => none
    else if c.val.toNat < 32 then none
    else (unquote rest).map fun p => (Utf16.encodeChar c ++ p.1, p.2)

/-- A key with its colon, and what follows them. -/
def parseKey (input : List Char) : Option (List UInt16 × List Char) :=
  match skipWhitespace input with
  | [] => none
  | c :: rest =>
    if c = '"' then
      match unquote rest with
      | none => none
      | some (key, rest) =>
        match skipWhitespace rest with
        | [] => none
        | c :: rest => if c = ':' then some (key, rest) else none
    else none

/-- A field that is there already keeps its place. -/
def put (fields : List (List UInt16 × JsonValue ν)) (field : List UInt16 × JsonValue ν) :
    List (List UInt16 × JsonValue ν) :=
  if fields.any fun f => f.1 = field.1 then fields.map fun f => if f.1 = field.1 then field else f
  else fields ++ [field]

mutual

/-- The value at the start of the input, and what follows it; `fuel` bounds the length of its text. -/
def parseValue (format : NumberFormat ν) : ℕ → List Char → Option (JsonValue ν × List Char)
  | 0, _ => none
  | fuel + 1, input =>
    match skipWhitespace input with
    | [] => none
    | c :: rest =>
      if c = '"' then (unquote rest).map fun p => (.string p.1, p.2)
      else if c = '[' then
        if (skipWhitespace rest).head? = some ']' then some (.array [], (skipWhitespace rest).tail)
        else (parseItems format fuel rest).map fun p => (.array p.1, p.2)
      else if c = '{' then
        if (skipWhitespace rest).head? = some '}' then some (.object [], (skipWhitespace rest).tail)
        else (parseFields format fuel rest).map fun p => (.object (p.1.foldl put []), p.2)
      else if c = 'n' then
        if ['u', 'l', 'l'].isPrefixOf rest then some (.null, rest.drop 3) else none
      else if c = 't' then
        if ['r', 'u', 'e'].isPrefixOf rest then some (.bool true, rest.drop 3) else none
      else if c = 'f' then
        if ['a', 'l', 's', 'e'].isPrefixOf rest then some (.bool false, rest.drop 4) else none
      else
        (format.read ((c :: rest).takeWhile JsonText.isNumberChar)).map fun n =>
          (.number n, (c :: rest).dropWhile JsonText.isNumberChar)

/-- The items of an array up to its closing bracket; there is at least one. -/
def parseItems (format : NumberFormat ν) : ℕ → List Char → Option (List (JsonValue ν) × List Char)
  | 0, _ => none
  | fuel + 1, input =>
    match parseValue format fuel input with
    | none => none
    | some (item, rest) =>
      match skipWhitespace rest with
      | [] => none
      | c :: rest =>
        if c = ',' then (parseItems format fuel rest).map fun p => (item :: p.1, p.2)
        else if c = ']' then some ([item], rest)
        else none

def parseFields (format : NumberFormat ν) :
    ℕ → List Char → Option (List (List UInt16 × JsonValue ν) × List Char)
  | 0, _ => none
  | fuel + 1, input =>
    match parseKey input with
    | none => none
    | some (key, rest) =>
      match parseValue format fuel rest with
      | none => none
      | some (value, rest) =>
        match skipWhitespace rest with
        | [] => none
        | c :: rest =>
          if c = ',' then (parseFields format fuel rest).map fun p => ((key, value) :: p.1, p.2)
          else if c = '}' then some ([(key, value)], rest)
          else none

end

def parse (format : NumberFormat ν) (input : List Char) : Option (JsonValue ν) :=
  match parseValue format (input.length + 1) input with
  | none => none
  | some (value, rest) => if skipWhitespace rest = [] then some value else none

/-! ### Strings -/

section Strings

variable {rest : List Char}

lemma skipWhitespace_cons {c : Char} (h : isWhitespace c = false) :
    skipWhitespace (c :: rest) = c :: rest := by
  rw [skipWhitespace, List.dropWhile_cons_of_neg (by simp [h])]

lemma isHexDigit_hexDigit : ∀ n < 16, Ascii.isHexDigit (JsonText.hexDigit n) = true := by decide

lemma hexValue_hexDigit : ∀ n < 16, Ascii.hexValue (JsonText.hexDigit n) = n := by decide

lemma unquote_escapeUnit {u : ℕ} (hu : u < 65536) :
    unquote (JsonText.escapeUnit u ++ rest) =
      (unquote rest).map fun p => (UInt16.ofNat u :: p.1, p.2) := by
  have hvalue : Ascii.hexNumber [JsonText.hexDigit (u / 4096 % 16), JsonText.hexDigit (u / 256 % 16),
      JsonText.hexDigit (u / 16 % 16), JsonText.hexDigit (u % 16)] = u := by
    simp only [Ascii.hexNumber, List.foldl_cons, List.foldl_nil]
    rw [hexValue_hexDigit _ (Nat.mod_lt _ (by decide)), hexValue_hexDigit _ (Nat.mod_lt _ (by decide)),
      hexValue_hexDigit _ (Nat.mod_lt _ (by decide)), hexValue_hexDigit _ (Nat.mod_lt _ (by decide))]
    omega
  have hhex : [JsonText.hexDigit (u / 4096 % 16), JsonText.hexDigit (u / 256 % 16),
      JsonText.hexDigit (u / 16 % 16), JsonText.hexDigit (u % 16)].all Ascii.isHexDigit = true := by
    simp only [List.all_cons, List.all_nil, Bool.and_true]
    rw [isHexDigit_hexDigit _ (Nat.mod_lt _ (by decide)), isHexDigit_hexDigit _ (Nat.mod_lt _ (by decide)),
      isHexDigit_hexDigit _ (Nat.mod_lt _ (by decide)), isHexDigit_hexDigit _ (Nat.mod_lt _ (by decide))]
    rfl
  rw [JsonText.escapeUnit]
  simp only [List.cons_append, List.nil_append]
  rw [unquote, if_neg (by decide), if_pos rfl]
  simp only [if_true, hhex, hvalue]

lemma unquote_escape {e : Char} {unit : UInt16} (hu : e ≠ 'u') (he : unescape e = some unit) :
    unquote ('\\' :: e :: rest) = (unquote rest).map fun p => (unit :: p.1, p.2) := by
  have hslash : ('\\' : Char) ≠ '"' := by decide
  rw [unquote.eq_def]
  simp only [if_neg hslash, if_true, if_neg hu, he]

lemma unquote_bare {c : Char} (hquote : c ≠ '"') (hslash : c ≠ '\\') (hc : ¬c.val.toNat < 32) :
    unquote (c :: rest) = (unquote rest).map fun p => (Utf16.encodeChar c ++ p.1, p.2) := by
  rw [unquote.eq_def]
  simp only [if_neg hquote, if_neg hslash, if_neg hc]

lemma unquote_end : unquote ('"' :: rest) = some ([], rest) := by
  rw [unquote.eq_def]
  simp only [if_true]

lemma encodeChar_of_small {c : Char} (h : c.val.toNat < 65536) :
    Utf16.encodeChar c = [UInt16.ofNat c.val.toNat] := by
  rw [Utf16.encodeChar, if_pos h]

/-- Each character is read back, escaped or not. -/
lemma unquote_quoteChar (c : Char) : unquote (JsonText.quoteChar c ++ rest) =
    (unquote rest).map fun p => (Utf16.encodeChar c ++ p.1, p.2) := by
  rw [JsonText.quoteChar]
  split_ifs with hquoted hb ht hn hf hr hcontrol
  · have hsmall : c.val.toNat < 65536 ∧ c ≠ 'u' := by
      rcases hquoted with rfl | rfl
      · decide
      · decide
    have hescape : unescape c = some (UInt16.ofNat c.val.toNat) := by
      rw [unescape, if_pos (hquoted.imp_right Or.inl)]
    rw [encodeChar_of_small hsmall.1]
    exact unquote_escape hsmall.2 hescape
  · subst hb
    exact unquote_escape (by decide) rfl
  · subst ht
    exact unquote_escape (by decide) rfl
  · subst hn
    exact unquote_escape (by decide) rfl
  · subst hf
    exact unquote_escape (by decide) rfl
  · subst hr
    exact unquote_escape (by decide) rfl
  · rw [encodeChar_of_small (by omega)]
    exact unquote_escapeUnit (by omega)
  · obtain ⟨hquote, hslash⟩ := not_or.mp hquoted
    exact unquote_bare hquote hslash hcontrol

/-- A string is read back up to its closing quote. -/
theorem unquote_quoteUnits (units : List UInt16) (rest : List Char) :
    unquote (JsonText.quoteUnits units ++ '"' :: rest) = some (units, rest) := by
  induction units using JsonText.quoteUnits.induct with
  | case1 => exact unquote_end
  | case2 u units hplain ih =>
    have hu := u.toNat_lt
    have hval : (Char.ofNat u.toNat).val.toNat = u.toNat := Utf16.val_ofNat (by omega)
    rw [JsonText.quoteUnits_plain hplain, List.append_assoc, unquote_quoteChar, ih,
      encodeChar_of_small (by omega), hval, UInt16.ofNat_toNat]
    rfl
  | case3 u hplain =>
    rw [JsonText.quoteUnits_lone hplain, unquote_escapeUnit u.toNat_lt, UInt16.ofNat_toNat, unquote_end]
    rfl
  | case4 u hplain v units hpair ih =>
    have hval : (Char.ofNat (65536 + (u.toNat - 55296) * 1024 + (v.toNat - 56320))).val.toNat =
        65536 + (u.toNat - 55296) * 1024 + (v.toNat - 56320) := Utf16.val_ofNat (by omega)
    have hencode : Utf16.encodeChar (Char.ofNat (65536 + (u.toNat - 55296) * 1024 + (v.toNat - 56320))) =
        [u, v] := by
      rw [Utf16.encodeChar, hval, if_neg (by omega)]
      have hhigh : 55296 + (65536 + (u.toNat - 55296) * 1024 + (v.toNat - 56320) - 65536) / 1024 =
        u.toNat := by omega
      have hlow : 56320 + (65536 + (u.toNat - 55296) * 1024 + (v.toNat - 56320) - 65536) % 1024 =
        v.toNat := by omega
      rw [hhigh, hlow, UInt16.ofNat_toNat, UInt16.ofNat_toNat]
    have hquote : Char.ofNat (65536 + (u.toNat - 55296) * 1024 + (v.toNat - 56320)) ≠ '"' := by
      intro heq
      rw [heq] at hval
      have hsmall : ('"' : Char).val.toNat = 34 := by decide
      omega
    have hslash : Char.ofNat (65536 + (u.toNat - 55296) * 1024 + (v.toNat - 56320)) ≠ '\\' := by
      intro heq
      rw [heq] at hval
      have hsmall : ('\\' : Char).val.toNat = 92 := by decide
      omega
    rw [JsonText.quoteUnits_surrogate hplain, if_pos hpair, List.cons_append,
      unquote_bare hquote hslash (by omega), ih, hencode]
    rfl
  | case5 u hplain v units hpair ih =>
    rw [JsonText.quoteUnits_surrogate hplain, if_neg hpair, List.append_assoc,
      unquote_escapeUnit u.toNat_lt, ih, UInt16.ofNat_toNat]
    rfl

end Strings

/-! ### Values -/

section Values

variable {format : NumberFormat ν}

/-- The first characters of values. -/
def startsValue (c : Char) : Bool := c ∈ ['n', 't', 'f', '"', '[', '{'] || JsonText.isNumberChar c

lemma startsValue_iff {c : Char} (h : startsValue c = true) :
    isWhitespace c = false ∧ c ≠ ']' ∧ c ≠ '}' := by
  refine ⟨?_, ?_, ?_⟩
  · by_contra hspace
    simp only [isWhitespace, Bool.not_eq_false, Bool.or_eq_true, decide_eq_true_eq] at hspace
    rcases hspace with ((rfl | rfl) | rfl) | rfl
    · revert h
      decide
    · revert h
      decide
    · revert h
      decide
    · revert h
      decide
  · rintro rfl
    revert h
    decide
  · rintro rfl
    revert h
    decide

lemma stringify_eq_cons (format : NumberFormat ν) (value : JsonValue ν) :
    ∃ c rest, stringify format value = c :: rest ∧ startsValue c = true := by
  cases value with
  | null => exact ⟨_, _, rfl, rfl⟩
  | bool b =>
    cases b with
    | true => exact ⟨_, _, rfl, rfl⟩
    | false => exact ⟨_, _, rfl, rfl⟩
  | number n =>
    obtain ⟨c, rest, htext⟩ := List.exists_cons_of_ne_nil (format.text_ne_nil n)
    refine ⟨c, rest, ?_, ?_⟩
    · rw [stringify, htext]
    · have hc := format.text_chars n c (htext ▸ List.mem_cons_self)
      rw [startsValue, hc, Bool.or_true]
  | string units => exact ⟨_, _, rfl, rfl⟩
  | array items => exact ⟨_, _, rfl, rfl⟩
  | object fields => exact ⟨_, _, rfl, rfl⟩

/-- What may follow a value. -/
def Follows (rest : List Char) : Prop := ∀ c ∈ rest.head?, JsonText.isNumberChar c = false

lemma follows_cons {c : Char} {rest : List Char} (h : JsonText.isNumberChar c = false) :
    Follows (c :: rest) := by
  intro d hd
  obtain rfl := Option.some.inj hd
  exact h

/-- A number ends where no character of numbers follows. -/
lemma span_number (format : NumberFormat ν) (n : ν) {rest : List Char} (h : Follows rest) :
    (format.text n ++ rest).takeWhile JsonText.isNumberChar = format.text n ∧
      (format.text n ++ rest).dropWhile JsonText.isNumberChar = rest := by
  have hchars := format.text_chars n
  rw [List.takeWhile_append_of_pos hchars, List.dropWhile_append_of_pos hchars]
  cases rest with
  | nil => exact ⟨List.append_nil _, rfl⟩
  | cons c rest =>
    have hc := h c rfl
    rw [List.takeWhile_cons_of_neg (by simp [hc]), List.dropWhile_cons_of_neg (by simp [hc]),
      List.append_nil]
    exact ⟨rfl, rfl⟩

lemma parseValue_number {fuel : ℕ} (n : ν) {rest : List Char} (h : Follows rest) :
    parseValue format (fuel + 1) (format.text n ++ rest) = some (.number n, rest) := by
  obtain ⟨htake, hdrop⟩ := span_number format n h
  obtain ⟨c, tail, htext⟩ := List.exists_cons_of_ne_nil (format.text_ne_nil n)
  have hc : JsonText.isNumberChar c = true := format.text_chars n c (htext ▸ List.mem_cons_self)
  rw [htext] at htake hdrop
  have hspace : isWhitespace c = false := (startsValue_iff (by rw [startsValue, hc, Bool.or_true])).1
  have hother : ∀ d ∈ ['"', '[', '{', 'n', 't', 'f'], c ≠ d := by
    rintro d hd rfl
    revert hd hc
    simp only [List.mem_cons, List.not_mem_nil, or_false]
    rintro hc (rfl | rfl | rfl | rfl | rfl | rfl)
    · cases hc
    · cases hc
    · cases hc
    · cases hc
    · cases hc
    · cases hc
  simp only [List.mem_cons, List.not_mem_nil, or_false, forall_eq_or_imp, forall_eq] at hother
  obtain ⟨hquote, hbracket, hbrace, hn, ht, hf⟩ := hother
  rw [htext, List.cons_append, parseValue, skipWhitespace_cons hspace]
  simp only [if_neg hquote, if_neg hbracket, if_neg hbrace, if_neg hn, if_neg ht, if_neg hf]
  rw [List.cons_append] at htake hdrop
  rw [htake, hdrop, ← htext, format.read_text]
  rfl

lemma parseKey_string (key : List UInt16) (rest : List Char) :
    parseKey (JsonText.string key ++ [':'] ++ rest) = some (key, rest) := by
  have htext : JsonText.string key ++ [':'] ++ rest =
      '"' :: (JsonText.quoteUnits key ++ '"' :: ':' :: rest) := by
    simp only [JsonText.string, List.cons_append, List.append_assoc, List.nil_append]
  rw [htext, parseKey, skipWhitespace_cons (by decide)]
  simp only [if_true, unquote_quoteUnits]
  rw [skipWhitespace_cons (by decide)]
  simp only [if_true]

lemma foldl_put {fields done : List (List UInt16 × JsonValue ν)}
    (h : ((done ++ fields).map (·.1)).Nodup) : fields.foldl put done = done ++ fields := by
  induction fields generalizing done with
  | nil => rw [List.foldl_nil, List.append_nil]
  | cons field fields ih =>
    have hnew : ¬(done.any fun f => decide (f.1 = field.1)) = true := by
      rw [List.map_append, List.map_cons] at h
      rw [List.any_eq_true]
      rintro ⟨f, hf, hkey⟩
      exact (List.nodup_append.mp h).2.2 f.1 (List.mem_map_of_mem hf) _ List.mem_cons_self
        (of_decide_eq_true hkey)
    have happend : done ++ field :: fields = (done ++ [field]) ++ fields := by
      rw [List.append_assoc, List.singleton_append]
    rw [List.foldl_cons, put, if_neg hnew, happend]
    exact ih (happend ▸ h)

/-- The three parts of the parser, on what `stringify` has written. -/
structure ReadsBack (format : NumberFormat ν) (fuel : ℕ) : Prop where
  value : ∀ value rest, value.Proper → Follows rest → (stringify format value).length ≤ fuel →
    parseValue format fuel (stringify format value ++ rest) = some (value, rest)
  items : ∀ item items rest, ProperItems (item :: items) →
    ([','].intercalate (stringifyItems format (item :: items))).length < fuel →
    parseItems format fuel ([','].intercalate (stringifyItems format (item :: items)) ++ ']' :: rest) =
      some (item :: items, rest)
  fields : ∀ field fields rest, ProperFields (field :: fields) →
    ([','].intercalate (stringifyFields format (field :: fields))).length < fuel →
    parseFields format fuel ([','].intercalate (stringifyFields format (field :: fields)) ++ '}' :: rest) =
      some (field :: fields, rest)

namespace ReadsBack

variable {fuel : ℕ}

lemma zero : ReadsBack format 0 := by
  refine ⟨fun value rest _ _ hfuel => ?_, fun item items rest _ hfuel => ?_,
    fun field fields rest _ hfuel => ?_⟩
  · obtain ⟨c, text, htext, -⟩ := stringify_eq_cons format value
    rw [htext] at hfuel
    exact absurd hfuel (Nat.not_succ_le_zero _)
  · exact absurd hfuel (Nat.not_lt_zero _)
  · exact absurd hfuel (Nat.not_lt_zero _)

/-- The text of a list of values starts with the text of the first. -/
lemma intercalate_eq_cons (text : List Char) (texts : List (List Char)) {c : Char} {tail : List Char}
    (h : text = c :: tail) : ∃ tail', [','].intercalate (text :: texts) = c :: tail' := by
  cases texts with
  | nil => exact ⟨tail, by rw [List.intercalate_singleton, h]⟩
  | cons text' texts =>
    refine ⟨tail ++ ([','] ++ [','].intercalate (text' :: texts)), ?_⟩
    rw [List.intercalate_cons_cons, h, List.append_assoc, List.cons_append]

lemma array_succ (h : ReadsBack format fuel) (items : List (JsonValue ν)) (rest : List Char)
    (hproper : ProperItems items)
    (hfuel : (JsonText.array (stringifyItems format items)).length ≤ fuel + 1) :
    parseValue format (fuel + 1) (JsonText.array (stringifyItems format items) ++ rest) =
      some (.array items, rest) := by
  have hquote : ('[' : Char) ≠ '"' := by decide
  rw [JsonText.array] at hfuel ⊢
  simp only [List.cons_append, List.nil_append, List.append_assoc, List.length_cons,
    List.length_append, List.length_nil] at hfuel ⊢
  rw [parseValue, skipWhitespace_cons (by decide)]
  simp only [if_neg hquote, if_true]
  cases items with
  | nil => rfl
  | cons item items =>
    obtain ⟨c, tail, htext, hc⟩ := stringify_eq_cons format item
    obtain ⟨tail', htexts⟩ := intercalate_eq_cons _ (stringifyItems format items) htext
    obtain ⟨hspace, hclose, -⟩ := startsValue_iff hc
    have hitems := h.items item items rest hproper (by omega)
    have hhead : (skipWhitespace ([','].intercalate (stringifyItems format (item :: items)) ++
        ']' :: rest)).head? ≠ some ']' := by
      rw [stringifyItems, htexts, List.cons_append, skipWhitespace_cons hspace, List.head?_cons]
      exact fun heq => hclose (Option.some.inj heq)
    rw [if_neg hhead, hitems]
    rfl

lemma object_succ (h : ReadsBack format fuel) (fields : List (List UInt16 × JsonValue ν))
    (rest : List Char) (hkeys : (fields.map (·.1)).Nodup) (hproper : ProperFields fields)
    (hfuel : (JsonText.object (stringifyFields format fields)).length ≤ fuel + 1) :
    parseValue format (fuel + 1) (JsonText.object (stringifyFields format fields) ++ rest) =
      some (.object fields, rest) := by
  have hquote : ('{' : Char) ≠ '"' := by decide
  have hbracket : ('{' : Char) ≠ '[' := by decide
  rw [JsonText.object] at hfuel ⊢
  simp only [List.cons_append, List.nil_append, List.append_assoc, List.length_cons,
    List.length_append, List.length_nil] at hfuel ⊢
  rw [parseValue, skipWhitespace_cons (by decide)]
  simp only [if_neg hquote, if_neg hbracket, if_true]
  cases fields with
  | nil => rfl
  | cons field fields =>
    obtain ⟨key, value⟩ := field
    have hfield : JsonText.field key (stringify format value) =
        '"' :: (JsonText.quoteUnits key ++ ['"'] ++ [':'] ++ stringify format value) := rfl
    obtain ⟨tail, htexts⟩ := intercalate_eq_cons _ (stringifyFields format fields) hfield
    have hfields := h.fields (key, value) fields rest hproper (by omega)
    have hhead : (skipWhitespace ([','].intercalate (stringifyFields format ((key, value) :: fields)) ++
        '}' :: rest)).head? ≠ some '}' := by
      rw [stringifyFields, htexts, List.cons_append, skipWhitespace_cons (by decide), List.head?_cons]
      decide
    have hput : ((key, value) :: fields).foldl put [] = (key, value) :: fields := foldl_put hkeys
    rw [if_neg hhead, hfields, Option.map_some, hput]

lemma items_succ (h : ReadsBack format fuel) (item : JsonValue ν) (items : List (JsonValue ν))
    (rest : List Char) (hproper : ProperItems (item :: items))
    (hfuel : ([','].intercalate (stringifyItems format (item :: items))).length < fuel + 1) :
    parseItems format (fuel + 1) ([','].intercalate (stringifyItems format (item :: items)) ++ ']' :: rest) =
      some (item :: items, rest) := by
  have hclose : (']' : Char) ≠ ',' := by decide
  cases items with
  | nil =>
    simp only [stringifyItems, List.intercalate_singleton] at hfuel ⊢
    have hitem := h.value item (']' :: rest) hproper.1 (follows_cons (by decide)) (by omega)
    rw [parseItems, hitem]
    simp only
    rw [skipWhitespace_cons (by decide)]
    simp only [if_neg hclose, if_true]
  | cons item' items =>
    have htexts : [','].intercalate (stringifyItems format (item :: item' :: items)) =
        stringify format item ++ ',' :: [','].intercalate (stringifyItems format (item' :: items)) := by
      simp only [stringifyItems, List.intercalate_cons_cons, List.append_assoc, List.singleton_append]
    rw [htexts, List.length_append, List.length_cons] at hfuel
    have hitem := h.value item (',' :: ([','].intercalate (stringifyItems format (item' :: items)) ++
      ']' :: rest)) hproper.1 (follows_cons (by decide)) (by omega)
    have hitems := h.items item' items rest hproper.2 (by omega)
    rw [htexts, List.append_assoc, List.cons_append, parseItems, hitem]
    simp only
    rw [skipWhitespace_cons (by decide)]
    simp only [if_true, hitems, Option.map_some]

lemma fields_succ (h : ReadsBack format fuel) (field : List UInt16 × JsonValue ν)
    (fields : List (List UInt16 × JsonValue ν)) (rest : List Char)
    (hproper : ProperFields (field :: fields))
    (hfuel : ([','].intercalate (stringifyFields format (field :: fields))).length < fuel + 1) :
    parseFields format (fuel + 1)
      ([','].intercalate (stringifyFields format (field :: fields)) ++ '}' :: rest) =
      some (field :: fields, rest) := by
  have hclose : ('}' : Char) ≠ ',' := by decide
  obtain ⟨key, value⟩ := field
  cases fields with
  | nil =>
    simp only [stringifyFields, List.intercalate_singleton, JsonText.field, List.length_append] at hfuel ⊢
    have hvalue := h.value value ('}' :: rest) hproper.1 (follows_cons (by decide)) (by omega)
    rw [List.append_assoc, parseFields, parseKey_string]
    simp only [hvalue]
    rw [skipWhitespace_cons (by decide)]
    simp only [if_neg hclose, if_true]
  | cons field' fields =>
    have htexts : [','].intercalate (stringifyFields format ((key, value) :: field' :: fields)) =
        JsonText.string key ++ [':'] ++ (stringify format value ++
          ',' :: [','].intercalate (stringifyFields format (field' :: fields))) := by
      obtain ⟨key', value'⟩ := field'
      simp only [stringifyFields, List.intercalate_cons_cons, List.append_assoc, JsonText.field,
        List.cons_append, List.nil_append]
    rw [htexts] at hfuel
    simp only [List.length_append, List.length_cons] at hfuel
    have hvalue := h.value value (',' :: ([','].intercalate (stringifyFields format (field' :: fields)) ++
      '}' :: rest)) hproper.1 (follows_cons (by decide)) (by omega)
    have hfields := h.fields field' fields rest hproper.2 (by omega)
    rw [htexts, List.append_assoc, parseFields, parseKey_string, List.append_assoc, List.cons_append]
    simp only [hvalue]
    rw [skipWhitespace_cons (by decide)]
    simp only [if_true, hfields, Option.map_some]

lemma value_succ (h : ReadsBack format fuel) (value : JsonValue ν) (rest : List Char)
    (hproper : value.Proper) (hrest : Follows rest)
    (hfuel : (stringify format value).length ≤ fuel + 1) :
    parseValue format (fuel + 1) (stringify format value ++ rest) = some (value, rest) := by
  cases value with
  | null => rfl
  | bool b =>
    cases b with
    | true => rfl
    | false => rfl
  | number n => exact parseValue_number n hrest
  | string units =>
    have htext : stringify format (.string units) ++ rest = '"' :: (JsonText.quoteUnits units ++ '"' :: rest) := by
      simp only [stringify, JsonText.string, List.cons_append, List.append_assoc, List.nil_append]
    rw [htext, parseValue, skipWhitespace_cons (by decide)]
    simp only [if_true, unquote_quoteUnits, Option.map_some]
  | array items => exact h.array_succ items rest hproper hfuel
  | object fields => exact h.object_succ fields rest hproper.1 hproper.2 hfuel

end ReadsBack

lemma readsBack (format : NumberFormat ν) (fuel : ℕ) : ReadsBack format fuel := by
  induction fuel with
  | zero => exact .zero
  | succ fuel ih => exact ⟨ih.value_succ, ih.items_succ, ih.fields_succ⟩

/-- What `stringify` writes is read back. -/
theorem parse_stringify (format : NumberFormat ν) {value : JsonValue ν} (hproper : value.Proper) :
    parse format (stringify format value) = some value := by
  have hvalue := (readsBack format ((stringify format value).length + 1)).value value [] hproper
    (fun _ hc => absurd hc (Option.not_mem_none _)) (Nat.le_succ _)
  rw [List.append_nil] at hvalue
  rw [parse, hvalue]
  rfl

end Values

/-! ### Lines -/

section Lines

variable {format : NumberFormat ν}

lemma newline_notMem_hexDigit : ∀ n < 16, JsonText.hexDigit n ≠ '\n' := by decide

lemma newline_notMem_escapeUnit (u : ℕ) : '\n' ∉ JsonText.escapeUnit u := by
  have hdigit : ∀ k, '\n' ≠ JsonText.hexDigit (k % 16) :=
    fun k => (newline_notMem_hexDigit _ (Nat.mod_lt _ (by decide))).symm
  have hslash : '\n' ≠ '\\' := by decide
  have hu : '\n' ≠ 'u' := by decide
  simp [JsonText.escapeUnit, hdigit, hslash, hu]

lemma newline_notMem_quoteChar (c : Char) : '\n' ∉ JsonText.quoteChar c := by
  rw [JsonText.quoteChar]
  split_ifs with hquoted hb ht hn hf hr hcontrol
  · rcases hquoted with rfl | rfl
    · decide
    · decide
  · decide
  · decide
  · decide
  · decide
  · decide
  · exact newline_notMem_escapeUnit _
  · exact fun hmem => hn (List.mem_singleton.mp hmem).symm

lemma newline_notMem_quoteUnits (units : List UInt16) : '\n' ∉ JsonText.quoteUnits units := by
  induction units using JsonText.quoteUnits.induct with
  | case1 => exact List.not_mem_nil
  | case2 u units hplain ih =>
    rw [JsonText.quoteUnits_plain hplain, List.mem_append]
    exact not_or.mpr ⟨newline_notMem_quoteChar _, ih⟩
  | case3 u hplain =>
    rw [JsonText.quoteUnits_lone hplain]
    exact newline_notMem_escapeUnit _
  | case4 u hplain v units hpair ih =>
    have hval : (Char.ofNat (65536 + (u.toNat - 55296) * 1024 + (v.toNat - 56320))).val.toNat =
        65536 + (u.toNat - 55296) * 1024 + (v.toNat - 56320) := Utf16.val_ofNat (by omega)
    rw [JsonText.quoteUnits_surrogate hplain, if_pos hpair, List.mem_cons]
    refine not_or.mpr ⟨fun heq => ?_, ih⟩
    rw [← heq] at hval
    have hsmall : ('\n' : Char).val.toNat = 10 := by decide
    omega
  | case5 u hplain v units hpair ih =>
    rw [JsonText.quoteUnits_surrogate hplain, if_neg hpair, List.mem_append]
    exact not_or.mpr ⟨newline_notMem_escapeUnit _, ih⟩

lemma newline_notMem_string (units : List UInt16) : '\n' ∉ JsonText.string units := by
  have hquote : '\n' ≠ '"' := by decide
  simp [JsonText.string, hquote, newline_notMem_quoteUnits]

lemma newline_notMem_intercalate {texts : List (List Char)} (h : ∀ text ∈ texts, '\n' ∉ text) :
    '\n' ∉ [','].intercalate texts := by
  induction texts with
  | nil => exact List.not_mem_nil
  | cons text texts ih =>
    have hrest := ih fun t ht => h t (List.mem_cons_of_mem _ ht)
    cases texts with
    | nil =>
      rw [List.intercalate_singleton]
      exact h text List.mem_cons_self
    | cons text' texts =>
      have hcomma : '\n' ∉ [','] := by decide
      rw [List.intercalate_cons_cons, List.mem_append, List.mem_append]
      exact not_or.mpr ⟨not_or.mpr ⟨h text List.mem_cons_self, hcomma⟩, hrest⟩

mutual

/-- What `stringify` writes is a line. -/
theorem newline_notMem_stringify (format : NumberFormat ν) :
    ∀ value : JsonValue ν, '\n' ∉ stringify format value
  | .null => by
    rw [stringify]
    decide
  | .bool true => by
    rw [stringify]
    decide
  | .bool false => by
    rw [stringify]
    decide
  | .number n => by
    rw [stringify]
    intro hmem
    have hnewline := format.text_chars n _ hmem
    revert hnewline
    decide
  | .string units => by
    rw [stringify]
    exact newline_notMem_string units
  | .array items => by
    have hitems := newline_notMem_intercalate (newline_notMem_items format items)
    have hbrackets : '\n' ≠ '[' ∧ '\n' ≠ ']' := by decide
    simp only [stringify, JsonText.array, List.cons_append, List.nil_append, List.mem_cons, List.mem_append,
      List.not_mem_nil, or_false, not_or]
    exact ⟨hbrackets.1, hitems, hbrackets.2⟩
  | .object fields => by
    have hfields := newline_notMem_intercalate (newline_notMem_fields format fields)
    have hbraces : '\n' ≠ '{' ∧ '\n' ≠ '}' := by decide
    simp only [stringify, JsonText.object, List.cons_append, List.nil_append, List.mem_cons,
      List.mem_append, List.not_mem_nil, or_false, not_or]
    exact ⟨hbraces.1, hfields, hbraces.2⟩

theorem newline_notMem_items (format : NumberFormat ν) :
    ∀ items : List (JsonValue ν), ∀ text ∈ stringifyItems format items, '\n' ∉ text
  | [] => fun text h => absurd h List.not_mem_nil
  | item :: items => by
    intro text h
    rw [stringifyItems] at h
    rcases List.mem_cons.mp h with rfl | hrest
    · exact newline_notMem_stringify format item
    · exact newline_notMem_items format items text hrest

theorem newline_notMem_fields (format : NumberFormat ν) :
    ∀ fields : List (List UInt16 × JsonValue ν), ∀ text ∈ stringifyFields format fields, '\n' ∉ text
  | [] => fun text h => absurd h List.not_mem_nil
  | (key, value) :: fields => by
    intro text h
    rw [stringifyFields] at h
    rcases List.mem_cons.mp h with rfl | hrest
    · have hcolon : '\n' ∉ [':'] := by decide
      rw [JsonText.field, List.mem_append, List.mem_append]
      exact not_or.mpr ⟨not_or.mpr ⟨newline_notMem_string key, hcolon⟩,
        newline_notMem_stringify format value⟩
    · exact newline_notMem_fields format fields text hrest

end

end Lines

end JsonValue
