import BloomWorkspaces.Library.Utf8
import BloomWorkspaces.Library.Ascii
import Mathlib.Data.List.TakeWhile

/-!
# Hosts of special URLs

The hostname setter of the URL standard on a URL with a special scheme. What UTS 46 makes of a name
that is not plain ASCII, and the parser of IPv6 addresses, are parameters. The empty text is failure.
-/

namespace UrlHost

/-! ### The steps -/

/-- The characters that end the host. -/
def endsHost (c : Char) : Bool := c = '/' || c = '\\' || c = '?' || c = '#'

/-- Tabs and newlines are removed first. -/
def hostPart (input : List Char) : List Char :=
  (input.filter fun c => c ≠ '\t' && c ≠ '\n' && c ≠ '\r').takeWhile fun c => !endsHost c

def text (bytes : List UInt8) : List Char := bytes.map fun b => Char.ofNat b.toNat

def isHexByte (b : UInt8) : Bool := Ascii.isHexDigit (Char.ofNat b.toNat)

def hexByte (a b : UInt8) : UInt8 :=
  UInt8.ofNat (Ascii.hexValue (Char.ofNat a.toNat) * 16 + Ascii.hexValue (Char.ofNat b.toNat))

def percentDecode : List UInt8 → List UInt8
  | c :: a :: b :: rest =>
    if c = 37 ∧ isHexByte a = true ∧ isHexByte b = true then hexByte a b :: percentDecode rest
    else c :: percentDecode (a :: b :: rest)
  | bytes => bytes

def isAscii (bytes : List UInt8) : Bool := bytes.all fun b => b.toNat < 128

/-- A label is in Punycode. -/
def hasPunycode (host : List Char) : Bool :=
  ((Ascii.toLower host).splitOn '.').any fun label => ['x', 'n', '-', '-'].isPrefixOf label

/-- The forbidden domain code points. -/
def isForbidden (c : Char) : Bool :=
  c.toNat ≤ 32 || c.toNat = 127 ||
    c ∈ ['#', '%', '/', ':', '<', '>', '?', '@', '[', '\\', ']', '^', '|']

/-! ### IPv4 addresses -/

def isOctalDigit (c : Char) : Bool := '0' ≤ c && c ≤ '7'

def octalNumber (digits : List Char) : ℕ := digits.foldl (fun n c => n * 8 + (c.toNat - 48)) 0

/-- A part of an address, in base 10, 16 or 8. -/
def parseIpv4Number (part : List Char) : Option ℕ :=
  match part with
  | [] => none
  | '0' :: 'x' :: digits | '0' :: 'X' :: digits =>
    if digits.all Ascii.isHexDigit then some (Ascii.hexNumber digits) else none
  | '0' :: c :: digits =>
    if (c :: digits).all isOctalDigit then some (octalNumber (c :: digits)) else none
  | digits => if digits.all Char.isDigit then some (Ascii.decimalNumber digits) else none

/-- The parts between the dots; an empty last one does not count. -/
def ipv4Parts (host : List Char) : List (List Char) :=
  let parts := host.splitOn '.'
  if 1 < parts.length ∧ parts.getLast? = some [] then parts.dropLast else parts

/-- The ends-in-a-number checker. -/
def endsInNumber (host : List Char) : Bool :=
  (ipv4Parts host).getLast?.any fun part =>
    part ≠ [] && (part.all Char.isDigit || (parseIpv4Number part).isSome)

/-- The number of an address from those of its parts. -/
def ipv4Value (numbers : List ℕ) : Option ℕ :=
  match numbers.getLast? with
  | none => none
  | some last =>
    if 4 < numbers.length ∨ (numbers.dropLast.any fun n => 255 < n) ∨
        256 ^ (5 - numbers.length) ≤ last then none
    else some (last + (numbers.dropLast.mapIdx fun i n => n * 256 ^ (3 - i)).sum)

def parseIpv4 (host : List Char) : Option ℕ := ((ipv4Parts host).mapM parseIpv4Number).bind ipv4Value

def octets (address : ℕ) : List ℕ :=
  [address / 256 ^ 3 % 256, address / 256 ^ 2 % 256, address / 256 % 256, address % 256]

def serializeIpv4 (address : ℕ) : List Char := ['.'].intercalate ((octets address).map (Nat.toDigits 10))

/-! ### The setter -/

/-- The parts of the standard that are given from outside. -/
structure Parser where
  idna : List UInt8 → List Char
  ipv6 : List Char → List Char

/-- `idna` is UTS 46: it writes lower case, and an ASCII name stays what it is if it is valid. `ipv6`
writes its addresses in brackets. -/
structure Parser.Ok (p : Parser) : Prop where
  idna_lower : ∀ bytes, Ascii.toLower (p.idna bytes) = p.idna bytes
  idna_ascii : ∀ bytes, isAscii bytes = true →
    p.idna bytes = [] ∨ p.idna bytes = Ascii.toLower (text bytes)
  ipv6_bracket : ∀ host, p.ipv6 host = [] ∨ (p.ipv6 host).head? = some '['

/-- Domain to ASCII, after percent-decoding. -/
def Parser.toAscii (p : Parser) (bytes : List UInt8) : List Char :=
  if isAscii bytes && !hasPunycode (text bytes) then Ascii.toLower (text bytes) else p.idna bytes

def Parser.finish (ascii : List Char) : List Char :=
  if ascii.any isForbidden then []
  else if endsInNumber ascii then (parseIpv4 ascii).elim [] serializeIpv4
  else ascii

/-- The host parser. -/
def Parser.parseHost (p : Parser) (host : List Char) : List Char :=
  if host.head? = some '[' then p.ipv6 host
  else Parser.finish (p.toAscii (percentDecode (Utf8.encode host)))

/-- The hostname setter, with the hostname that it leaves. -/
def Parser.setHostname (p : Parser) (input : List Char) : List Char := p.parseHost (hostPart input)

/-! ### Names without special characters -/

section Plain

variable {p : Parser} {input : List Char} {bytes : List UInt8}

lemma percentDecode_plain (h : 37 ∉ bytes) : percentDecode bytes = bytes := by
  induction bytes using percentDecode.induct with
  | case1 c a b rest hescape ih => exact absurd (hescape.1 ▸ List.mem_cons_self) h
  | case2 c a b rest hescape ih =>
    rw [percentDecode, if_neg hescape, ih fun hmem => h (List.mem_cons_of_mem _ hmem)]
  | case3 bytes hshort =>
    rw [percentDecode]
    exact hshort

lemma toAscii_ascii (hp : p.Ok) (h : isAscii bytes = true) :
    p.toAscii bytes = [] ∨ p.toAscii bytes = Ascii.toLower (text bytes) := by
  rw [Parser.toAscii]
  split
  · exact Or.inr rfl
  · exact hp.idna_ascii bytes h

/-- Failure, an address, or the name itself. -/
lemma finish_cases (ascii : List Char) : Parser.finish ascii = [] ∨
    (endsInNumber ascii = true ∧ ∃ address, Parser.finish ascii = serializeIpv4 address) ∨
      Parser.finish ascii = ascii ∧ ascii.any isForbidden = false ∧ endsInNumber ascii = false := by
  rw [Parser.finish]
  split
  · exact Or.inl rfl
  · rename_i hallowed
    split
    · rename_i hnumber
      cases parseIpv4 ascii with
      | none => exact Or.inl rfl
      | some address => exact Or.inr (Or.inl ⟨hnumber, address, rfl⟩)
    · rename_i hname
      exact Or.inr (Or.inr ⟨rfl, Bool.not_eq_true _ ▸ hallowed, Bool.not_eq_true _ ▸ hname⟩)

lemma hostPart_plain (h : ∀ c ∈ input, 32 < c.toNat ∧ endsHost c = false) : hostPart input = input := by
  have hkept : (input.filter fun c => c ≠ '\t' && c ≠ '\n' && c ≠ '\r') = input := by
    refine List.filter_eq_self.mpr fun c hc => ?_
    have hlarge := (h c hc).1
    have hne : ∀ d : Char, d.toNat ≤ 32 → c ≠ d := by
      rintro d hd rfl
      omega
    simp only [ne_eq, Bool.and_eq_true, decide_eq_true_eq]
    exact ⟨⟨hne _ (by decide), hne _ (by decide)⟩, hne _ (by decide)⟩
  rw [hostPart, hkept]
  refine List.takeWhile_eq_self_iff.mpr fun c hc => ?_
  rw [(h c hc).2]
  rfl

lemma val_ofNat {n : ℕ} (h : n < 128) : (Char.ofNat n).val.toNat = n := by
  have hvalid : n.isValidChar := Or.inl (by omega)
  have hchar : Char.ofNat n = Char.ofNatAux n hvalid := dif_pos hvalid
  rw [hchar]
  rfl

/-- ASCII bytes are the encoding of their characters. -/
lemma encode_text (h : isAscii bytes = true) : Utf8.encode (text bytes) = bytes := by
  induction bytes with
  | nil => rfl
  | cons b bytes ih =>
    rw [isAscii, List.all_cons, Bool.and_eq_true, decide_eq_true_eq] at h
    have hbyte : String.utf8EncodeChar (Char.ofNat b.toNat) = [b] := by
      rw [String.utf8EncodeChar]
      simp only [val_ofNat h.1]
      rw [if_pos (by omega), UInt8.ofNat_toNat]
    rw [text, List.map_cons, Utf8.encode_cons, hbyte]
    exact congrArg (b :: ·) (ih h.2)

lemma toLower_toAscii (hp : p.Ok) (bytes : List UInt8) :
    Ascii.toLower (p.toAscii bytes) = p.toAscii bytes := by
  rw [Parser.toAscii]
  split
  · exact Ascii.toLower_toLower _
  · exact hp.idna_lower bytes

/-- What the setter leaves. -/
lemma setHostname_cases (hp : p.Ok) (input : List Char) : p.setHostname input = [] ∨
    (p.setHostname input).head? = some '[' ∨
    (∃ address, p.setHostname input = serializeIpv4 address) ∨
      Ascii.toLower (p.setHostname input) = p.setHostname input ∧
        (p.setHostname input).any isForbidden = false ∧ endsInNumber (p.setHostname input) = false := by
  rw [Parser.setHostname, Parser.parseHost]
  split
  · exact (hp.ipv6_bracket _).imp_right Or.inl
  · rcases finish_cases (p.toAscii (percentDecode (Utf8.encode (hostPart input)))) with
      hfail | haddress | ⟨hname, hallowed, hnumber⟩
    · exact Or.inl hfail
    · exact Or.inr (Or.inr (Or.inl haddress.2))
    · rw [hname]
      exact Or.inr (Or.inr (Or.inr ⟨toLower_toAscii hp _, hallowed, hnumber⟩))

/-- A byte that the setter takes as it is. -/
def IsPlainByte (b : UInt8) : Prop :=
  32 < b.toNat ∧ b.toNat < 127 ∧ b ∉ ([35, 37, 47, 63, 92] : List UInt8)

/-- A name of such bytes is only put in lower case. -/
lemma setHostname_plain (hp : p.Ok) (h : ∀ b ∈ bytes, IsPlainByte b) :
    p.setHostname (text bytes) = [] ∨ (p.setHostname (text bytes)).head? = some '[' ∨
    (endsInNumber (Ascii.toLower (text bytes)) = true ∧
      ∃ address, p.setHostname (text bytes) = serializeIpv4 address) ∨
      p.setHostname (text bytes) = Ascii.toLower (text bytes) := by
  have hascii : isAscii bytes = true := by
    rw [isAscii, List.all_eq_true]
    intro b hb
    have hlt := (h b hb).2.1
    exact decide_eq_true (by omega)
  have hpercent : 37 ∉ bytes := fun hmem => (h 37 hmem).2.2 (by decide)
  have hhost : hostPart (text bytes) = text bytes := by
    refine hostPart_plain fun c hc => ?_
    obtain ⟨b, hb, rfl⟩ := List.mem_map.mp hc
    obtain ⟨hlow, hhigh, hspecial⟩ := h b hb
    have hval : (Char.ofNat b.toNat).toNat = b.toNat := val_ofNat (by omega)
    refine ⟨by omega, ?_⟩
    have hne : ∀ n ∈ [35, 37, 47, 63, 92], b.toNat ≠ n := by
      intro n hn heq
      have hbyte : b = UInt8.ofNat n := by rw [← heq, UInt8.ofNat_toNat]
      have hall : ∀ n ∈ [35, 37, 47, 63, 92], UInt8.ofNat n ∈ ([35, 37, 47, 63, 92] : List UInt8) := by
        decide
      rw [hbyte] at hspecial
      exact hspecial (hall n hn)
    have hchar : ∀ d : Char, d.toNat ∈ [35, 37, 47, 63, 92] → Char.ofNat b.toNat ≠ d := by
      rintro d hd heq
      rw [heq] at hval
      exact hne _ hd hval.symm
    simp only [endsHost, Bool.or_eq_false_iff, decide_eq_false_iff_not]
    exact ⟨⟨⟨hchar '/' (by decide), hchar '\\' (by decide)⟩, hchar '?' (by decide)⟩,
      hchar '#' (by decide)⟩
  rw [Parser.setHostname, hhost, Parser.parseHost, encode_text hascii, percentDecode_plain hpercent]
  split
  · exact (hp.ipv6_bracket _).imp_right Or.inl
  · rcases toAscii_ascii hp hascii with hnone | hlower
    · rw [hnone]
      exact Or.inl rfl
    · rw [hlower]
      rcases finish_cases (Ascii.toLower (text bytes)) with hfail | haddress | ⟨hname, -, -⟩
      · exact Or.inl hfail
      · exact Or.inr (Or.inr (Or.inl haddress))
      · exact Or.inr (Or.inr (Or.inr hname))

end Plain

end UrlHost
