import BloomWorkspaces.Agent.Egress.Ipv4
import BloomWorkspaces.Agent.GuestProtocol
import BloomWorkspaces.Library.Url

/-!
# The origin of the gateway

A client names the gateway by an origin. What `normalizeHttpsOrigin` leaves of it is an origin that the
URL parser takes as it is.
-/

namespace Bloom

open UrlHost

/-! ### Hosts -/

section Host

variable {p : Parser} {host : List Char}

/-- An ASCII text is made of bytes. -/
lemma exists_bytes (h : ∀ c ∈ host, c.toNat < 128) :
    ∃ bytes, isAscii bytes = true ∧ text bytes = host := by
  refine ⟨host.map fun c => UInt8.ofNat c.toNat, ?_, ?_⟩
  · rw [isAscii, List.all_map, List.all_eq_true]
    intro c hc
    have hc := h c hc
    have hbyte : (UInt8.ofNat c.toNat).toNat = c.toNat := Utf8.toNat_ofNat (by omega)
    exact decide_eq_true (hbyte.trans_lt hc)
  · rw [text, List.map_map]
    conv_rhs => rw [← List.map_id host]
    refine List.map_congr_left fun c hc => ?_
    have hc := h c hc
    have hbyte : (UInt8.ofNat c.toNat).toNat = c.toNat := Utf8.toNat_ofNat (by omega)
    simp only [Function.comp_apply, hbyte, id_eq]
    exact Utf16.ofNat_val c

/-- An ASCII name without `%` that is not in Punycode is only put in lower case. -/
lemma toAscii_encode (hascii : ∀ c ∈ host, c.toNat < 128) (hpercent : '%' ∉ host) :
    p.toAscii (percentDecode (Utf8.encode host)) =
      if hasPunycode host then p.idna (Utf8.encode host) else Ascii.toLower host := by
  obtain ⟨bytes, hbytes, rfl⟩ := exists_bytes hascii
  have hplain : 37 ∉ bytes := fun hmem => hpercent (List.mem_map.mpr ⟨37, hmem, rfl⟩)
  rw [encode_text hbytes, percentDecode_plain hplain, Parser.toAscii, hbytes]
  cases hasPunycode (text bytes) with
  | false => simp
  | true => simp

lemma hasPunycode_toLower : hasPunycode (Ascii.toLower host) = hasPunycode host := by
  rw [hasPunycode, hasPunycode, Ascii.toLower_toLower]

lemma hasPunycode_eq_false (h : 'x' ∉ Ascii.toLower host) : hasPunycode host = false := by
  rw [hasPunycode, List.any_eq_false]
  intro label hlabel hprefix
  obtain ⟨rest, rfl⟩ := List.isPrefixOf_iff_prefix.mp hprefix
  exact h (Ascii.mem_of_mem_splitOn hlabel (List.mem_append_left _ List.mem_cons_self))

/-! ### IPv4 addresses -/

lemma parseIpv4Number_octet : ∀ n < 256, parseIpv4Number (Nat.toDigits 10 n) = some n := by
  decide +kernel

lemma ipv4Parts_serializeIpv4 (address : ℕ) :
    ipv4Parts (serializeIpv4 address) = (octets address).map (Nat.toDigits 10) := by
  rw [ipv4Parts, splitOn_serializeIpv4]
  refine if_neg fun hlast => ?_
  have hnil : Nat.toDigits 10 (address % 256) = [] := Option.some.inj hlast.2
  exact Nat.toDigits_ne_nil hnil

lemma endsInNumber_serializeIpv4 (address : ℕ) : endsInNumber (serializeIpv4 address) = true := by
  rw [endsInNumber, ipv4Parts_serializeIpv4]
  have hlast : ((octets address).map (Nat.toDigits 10)).getLast? =
      some (Nat.toDigits 10 (address % 256)) := rfl
  have hdigits := (decimal_octet (address % 256) (Nat.mod_lt _ (by decide))).2.2
  rw [hlast]
  simp [Nat.toDigits_ne_nil, hdigits]

lemma ipv4Value_four {a b c d : ℕ} (ha : a < 256) (hb : b < 256) (hc : c < 256) (hd : d < 256) :
    UrlHost.ipv4Value [a, b, c, d] = some (((a * 256 + b) * 256 + c) * 256 + d) := by
  have hsmall : ¬(4 < [a, b, c, d].length ∨ (([a, b, c, d].dropLast.any fun n => 255 < n) = true) ∨
      256 ^ (5 - [a, b, c, d].length) ≤ d) := by
    simp
    omega
  have hadd : ∀ p q r : ℕ, [p, q, r].sum = p + (q + r) := by simp
  have hparts : ([a, b, c, d].dropLast.mapIdx fun i n => n * 256 ^ (3 - i)) =
      [a * 256 ^ 3, b * 256 ^ 2, c * 256] := rfl
  have hsum : d + ([a, b, c, d].dropLast.mapIdx fun i n => n * 256 ^ (3 - i)).sum =
      ((a * 256 + b) * 256 + c) * 256 + d := by
    rw [hparts, hadd]
    omega
  rw [UrlHost.ipv4Value, List.getLast?_cons_cons, List.getLast?_cons_cons, List.getLast?_cons_cons,
    List.getLast?_singleton]
  simp only [if_neg hsmall, hsum]

/-- A dotted decimal is read as an address with that dotted decimal. -/
lemma parseIpv4_serializeIpv4 (address : ℕ) :
    ∃ value, parseIpv4 (serializeIpv4 address) = some value ∧
      serializeIpv4 value = serializeIpv4 address := by
  obtain ⟨a, b, c, d, hoctets⟩ : ∃ a b c d, octets address = [a, b, c, d] := ⟨_, _, _, _, rfl⟩
  have hlt : ∀ n ∈ [a, b, c, d], n < 256 := by
    rw [← hoctets]
    exact fun n hn => octets_lt hn
  have ha := hlt a (by simp)
  have hb := hlt b (by simp)
  have hc := hlt c (by simp)
  have hd := hlt d (by simp)
  refine ⟨((a * 256 + b) * 256 + c) * 256 + d, ?_, ?_⟩
  · rw [parseIpv4, ipv4Parts_serializeIpv4, hoctets]
    simp only [List.map_cons, List.map_nil, List.mapM_cons, List.mapM_nil, parseIpv4Number_octet a ha,
      parseIpv4Number_octet b hb, parseIpv4Number_octet c hc, parseIpv4Number_octet d hd]
    exact ipv4Value_four ha hb hc hd
  · rw [serializeIpv4, serializeIpv4, octets_ofNumber ha hb hc hd, hoctets]

/-! ### What the host parser leaves -/

lemma parseHost_of_name (hname : host.head? ≠ some '[')
    (hascii : p.toAscii (percentDecode (Utf8.encode host)) = host) :
    p.parseHost host = Parser.finish host := by
  rw [Parser.parseHost, if_neg hname, hascii]

lemma parseHost_serializeIpv4 (address : ℕ) :
    p.parseHost (serializeIpv4 address) = serializeIpv4 address := by
  have hdigits : ∀ k < 10, (Nat.digitChar k).toNat < 128 ∧ isForbidden (Nat.digitChar k) = false ∧
      Nat.digitChar k ≠ 'x' := by decide
  have hchar : ∀ c ∈ serializeIpv4 address, c.toNat < 128 ∧ isForbidden c = false ∧ c ≠ 'x' := by
    intro c hc
    rcases mem_serializeIpv4 hc with rfl | hdigit
    · decide
    · obtain ⟨k, hk, rfl⟩ := digitChar_of_isDigit hdigit
      exact hdigits k hk
  have hmem : ∀ d : Char, isForbidden d = true → d ∉ serializeIpv4 address := by
    intro d hd hin
    rw [(hchar d hin).2.1] at hd
    exact absurd hd (by decide)
  have hpunycode : hasPunycode (serializeIpv4 address) = false := by
    refine hasPunycode_eq_false fun hin => ?_
    rw [toLower_serializeIpv4] at hin
    exact (hchar 'x' hin).2.2 rfl
  have hhead : (serializeIpv4 address).head? ≠ some '[' :=
    fun heq => hmem '[' (by decide) (List.mem_of_mem_head? heq)
  have hascii : p.toAscii (percentDecode (Utf8.encode (serializeIpv4 address))) =
      serializeIpv4 address := by
    rw [toAscii_encode (fun c hc => (hchar c hc).1) (hmem '%' (by decide)), hpunycode, if_neg (by decide),
      toLower_serializeIpv4]
  obtain ⟨value, hvalue, hsame⟩ := parseIpv4_serializeIpv4 address
  have hallowed : (serializeIpv4 address).any isForbidden = false := by
    rw [List.any_eq_false]
    intro c hc
    rw [(hchar c hc).2.1]
    decide
  rw [parseHost_of_name hhead hascii, Parser.finish, hallowed, endsInNumber_serializeIpv4, hvalue]
  exact hsame

/-- A name that domain to ASCII leaves is left again. -/
lemma toAscii_toAscii (hp : p.Ok) (hidna : p.Idempotent) {bytes : List UInt8}
    (hascii : ∀ c ∈ p.toAscii bytes, c.toNat < 128) (hpercent : '%' ∉ p.toAscii bytes) :
    p.toAscii (percentDecode (Utf8.encode (p.toAscii bytes))) = p.toAscii bytes := by
  rw [toAscii_encode hascii hpercent]
  split
  · rename_i hpunycode
    have hwritten : p.toAscii bytes = p.idna bytes := by
      rw [Parser.toAscii]
      refine if_neg fun hplain => ?_
      rw [Bool.and_eq_true] at hplain
      rw [Parser.toAscii, if_pos (by rw [hplain.1, hplain.2]; rfl), hasPunycode_toLower] at hpunycode
      rw [hpunycode] at hplain
      exact absurd hplain.2 (by decide)
    rw [hwritten]
    exact hidna bytes
  · exact toLower_toAscii hp bytes

/-- What the host parser leaves: nothing, an IPv6 address, or a text in lower case without a colon,
which it takes as it is. -/
lemma parseHost_cases (hp : p.Ok) (hidna : p.Idempotent) (host : List Char) :
    p.parseHost host = [] ∨ (p.parseHost host).head? = some '[' ∨
      Ascii.toLower (p.parseHost host) = p.parseHost host ∧ ':' ∉ p.parseHost host ∧
        ((∀ c ∈ p.parseHost host, c.toNat < 128) →
          p.parseHost (p.parseHost host) = p.parseHost host) := by
  by_cases hbracket : host.head? = some '['
  · rw [Parser.parseHost, if_pos hbracket]
    exact (hp.ipv6_bracket host).imp_right Or.inl
  · have hparse : p.parseHost host = Parser.finish (p.toAscii (percentDecode (Utf8.encode host))) :=
      if_neg hbracket
    rw [hparse]
    rcases finish_cases (p.toAscii (percentDecode (Utf8.encode host))) with
      hfail | ⟨-, address, haddress⟩ | ⟨hname, hallowed, hnumber⟩
    · exact Or.inl hfail
    · rw [haddress]
      exact Or.inr (Or.inr ⟨toLower_serializeIpv4 address, (serializeIpv4_plain address).2.1,
        fun _ => parseHost_serializeIpv4 address⟩)
    · rw [hname]
      have hmem : ∀ d : Char, isForbidden d = true → d ∉ p.toAscii (percentDecode (Utf8.encode host)) :=
        fun d hd hin => List.any_eq_false.mp hallowed d hin hd
      refine Or.inr (Or.inr ⟨toLower_toAscii hp _, hmem ':' (by decide), fun hascii => ?_⟩)
      rw [parseHost_of_name (fun heq => hmem '[' (by decide) (List.mem_of_mem_head? heq))
        (toAscii_toAscii hp hidna hascii (hmem '%' (by decide)))]
      exact hname

end Host

/-! ### The origin -/

def isOriginChar (c : Char) : Bool := ('a' ≤ c && c ≤ 'z') || c.isDigit || c = '.' || c = '-'

def httpsScheme : List Char := "https".toList

/-- `^https:\/\/[a-z0-9.-]+(?::[0-9]{1,5})?$` -/
def isHttpsOrigin (origin : List Char) : Bool :=
  let name := (origin.drop 8).takeWhile isOriginChar
  let port := (origin.drop 8).dropWhile isOriginChar
  "https://".toList.isPrefixOf origin && name ≠ [] &&
    (port = [] || (port.head? = some ':' && 1 ≤ port.tail.length && port.tail.length ≤ 5 &&
      port.tail.all Char.isDigit))

/-- `new URL` throws where there is no URL. The origin of a URL is in ASCII. -/
def normalizeHttpsOrigin (p : Parser) (isUrl : List Char → List Char → Bool) (value : JsText) :
    Except String (List Char) :=
  match Url.parse p isUrl (Utf16.toWellFormed value) with
  | none => .error "Invalid SSH gateway origin"
  | some (.other _) => .error "SSH gateway origin must be an HTTPS origin"
  | some (.special url) =>
    if url.scheme ≠ httpsScheme ∨ url.username ≠ [] ∨ url.password ≠ [] ∨ url.pathname ≠ ['/'] ∨
        url.search ≠ [] ∨ url.hash ≠ [] then
      .error "SSH gateway origin must be an HTTPS origin"
    else if isHttpsOrigin (Ascii.toLower url.origin) then .ok (Ascii.toLower url.origin)
    else .error "Invalid SSH gateway origin"

/-- A URL that is only the origin. -/
def originUrl (host : List Char) (port : Option ℕ) : Url.Record :=
  ⟨httpsScheme, [], [], host, port, [[]], [], []⟩

section Origin

variable {p : Parser} {isUrl : List Char → List Char → Bool} {value : JsText} {origin host : List Char}
  {port : Option ℕ}

lemma isHostChar_of_isOriginChar {c : Char} (h : isOriginChar c = true) :
    c.toNat < 128 ∧ Url.IsHostChar c := by
  have hval : c.toNat = c.val.toNat := rfl
  have hrange : c.val.toNat < 128 ∧ 32 < c.val.toNat ∧ c.toNat ∉ [58, 47, 92, 63, 35, 64, 91, 93] := by
    simp only [isOriginChar, Char.isDigit, Bool.or_eq_true, Bool.and_eq_true, decide_eq_true_eq,
      Char.le_def, ge_iff_le, UInt32.le_iff_toNat_le] at h
    rcases h with ((hlower | hdigit) | rfl) | rfl
    · have hlow : 97 ≤ c.val.toNat := hlower.1
      have hhigh : c.val.toNat ≤ 122 := hlower.2
      simp
      omega
    · have hlow : 48 ≤ c.val.toNat := hdigit.1
      have hhigh : c.val.toNat ≤ 57 := hdigit.2
      simp
      omega
    · decide
    · decide
  refine ⟨hrange.1, hrange.2.1, fun hmem => hrange.2.2 ?_⟩
  exact List.mem_map_of_mem (f := Char.toNat) hmem

lemma toLower_portText (port : Option ℕ) : Ascii.toLower (Url.portText port) = Url.portText port := by
  rw [Ascii.toLower]
  conv_rhs => rw [← List.map_id (Url.portText port)]
  refine List.map_congr_left fun c hc => ?_
  rcases Url.mem_portText hc with rfl | hdigit
  · rfl
  · exact Ascii.toLower_of_isDigit hdigit

/-- Where nothing but `d` can stop the scan, a text without `d` is scanned to its end. -/
lemma forall_of_dropWhile {q : Char → Bool} {d : Char} {rest : List Char}
    (h : ∀ c ∈ ((host ++ rest).dropWhile q).head?, c = d) (hd : d ∉ host) : ∀ c ∈ host, q c = true := by
  induction host with
  | nil =>
    intro c hc
    cases hc
  | cons first host ih =>
    have hfirst : q first = true := by
      by_contra hstop
      rw [List.cons_append, List.dropWhile_cons_of_neg hstop] at h
      exact hd ((h first rfl) ▸ List.mem_cons_self)
    rw [List.cons_append, List.dropWhile_cons_of_pos hfirst] at h
    intro c hc
    rcases List.mem_cons.mp hc with rfl | hc
    · exact hfirst
    · exact ih h (fun hmem => hd (List.mem_cons_of_mem _ hmem)) c hc

/-- In an origin that passes, every character before the port is one of a name. -/
lemma isOriginChar_of_isHttpsOrigin
    (h : isHttpsOrigin ("https://".toList ++ (host ++ Url.portText port)) = true) (hcolon : ':' ∉ host) :
    ∀ c ∈ host, isOriginChar c = true := by
  have hdrop : ("https://".toList ++ (host ++ Url.portText port)).drop 8 = host ++ Url.portText port := rfl
  simp only [isHttpsOrigin, hdrop, Bool.and_eq_true, Bool.or_eq_true, decide_eq_true_eq] at h
  have hstop : ∀ c ∈ ((host ++ Url.portText port).dropWhile isOriginChar).head?, c = ':' := by
    intro c hc
    rcases h.2 with hnil | hport
    · rw [hnil] at hc
      cases hc
    · rw [hport.1.1.1] at hc
      exact (Option.some.inj hc).symm
  exact forall_of_dropWhile hstop hcolon

/-- An IPv6 address does not pass. -/
lemma isHttpsOrigin_bracket (rest : List Char) :
    isHttpsOrigin ("https://".toList ++ '[' :: rest) = false := by
  have hdrop : ("https://".toList ++ '[' :: rest).drop 8 = '[' :: rest := rfl
  simp only [isHttpsOrigin, hdrop]
  rw [List.takeWhile_cons_of_neg (by decide)]
  simp

/-- An accepted origin is read as that origin and nothing more. -/
theorem parse_normalizeHttpsOrigin (hp : p.Ok) (hidna : p.Idempotent)
    (h : normalizeHttpsOrigin p isUrl value = .ok origin)
    (isUrl' : List Char → List Char → Bool) :
    ∃ host port, origin = (originUrl host port).origin ∧ (∀ c ∈ host, isOriginChar c = true) ∧
      Url.parse p isUrl' origin = some (.special (originUrl host port)) := by
  rw [normalizeHttpsOrigin] at h
  split at h
  · cases h
  · cases h
  · rename_i url hparsed
    split_ifs at h with hplain horigin
    obtain rfl := Except.ok.inj h
    rw [not_or, not_not] at hplain
    obtain ⟨hscheme, -⟩ := hplain
    obtain ⟨⟨written, hwritten⟩, hne, hport⟩ := Url.parse_special hparsed
    have htext : Ascii.toLower url.origin =
        "https://".toList ++ (Ascii.toLower url.host ++ Url.portText url.port) := by
      have hport := toLower_portText url.port
      rw [Ascii.toLower] at hport
      rw [Url.Record.origin, hscheme, Ascii.toLower, List.map_append, List.map_append, hport,
        List.append_assoc]
      rfl
    rw [htext] at horigin
    rcases parseHost_cases hp hidna written with hfail | hbracket | ⟨hlower, hcolon, hstable⟩
    · exact absurd (hwritten.trans hfail) hne
    · rw [← hwritten] at hbracket
      obtain ⟨rest, hhost⟩ := List.head?_eq_some_iff.mp hbracket
      rw [hhost] at horigin
      exact absurd ((isHttpsOrigin_bracket _).symm.trans horigin) (by decide)
    · rw [← hwritten] at hlower hcolon hstable
      rw [hlower] at htext horigin
      have hchars := isOriginChar_of_isHttpsOrigin horigin hcolon
      have hhost := hstable fun c hc => (isHostChar_of_isOriginChar (hchars c hc)).1
      rw [hscheme] at hport
      refine ⟨url.host, url.port, htext, hchars, ?_⟩
      rw [htext]
      exact Url.parse_origin rfl (fun c hc => (isHostChar_of_isOriginChar (hchars c hc)).2) hne hhost hport
        isUrl'

end Origin

end Bloom
