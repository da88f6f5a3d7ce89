import BloomWorkspaces.Library.UrlHost

/-!
# URLs

The parser of the URL standard without a base, for the special schemes other than `file`; whether a
text with another scheme is a URL is a parameter. The credentials, the path, the query and the
fragment are kept as they are written: their percent-encoding, which leaves nothing empty that is
not, is not done.
-/

/-- UTS 46 makes no further change of what it wrote. -/
def UrlHost.Parser.Idempotent (p : UrlHost.Parser) : Prop :=
  ∀ bytes, p.idna (Utf8.encode (p.idna bytes)) = p.idna bytes

namespace Url

open UrlHost

/-! ### Records -/

structure Record where
  scheme : List Char
  username : List Char
  password : List Char
  host : List Char
  port : Option ℕ
  path : List (List Char)
  query : List Char
  fragment : List Char
  deriving DecidableEq, Repr

inductive Parsed
  | special (url : Record)
  | other (scheme : List Char)
  deriving DecidableEq, Repr

/-- The special schemes other than `file`, with their ports. -/
def specialPorts : List (List Char × ℕ) :=
  [("ftp".toList, 21), ("http".toList, 80), ("https".toList, 443), ("ws".toList, 80), ("wss".toList, 443)]

def defaultPort (scheme : List Char) : Option ℕ := specialPorts.lookup scheme

def Record.pathname (url : Record) : List Char := url.path.flatMap fun segment => '/' :: segment

def Record.search (url : Record) : List Char := if url.query = [] then [] else '?' :: url.query

def Record.hash (url : Record) : List Char := if url.fragment = [] then [] else '#' :: url.fragment

def portText (port : Option ℕ) : List Char := port.elim [] fun n => ':' :: Nat.toDigits 10 n

def Record.origin (url : Record) : List Char :=
  url.scheme ++ [':', '/', '/'] ++ url.host ++ portText url.port

/-! ### The parser -/

def isControlOrSpace (c : Char) : Bool := c.toNat ≤ 32

/-- Controls and spaces around the input are dropped, and tabs and newlines in it. -/
def strip (input : List Char) : List Char :=
  (((input.dropWhile isControlOrSpace).reverse.dropWhile isControlOrSpace).reverse).filter fun c =>
    c ≠ '\t' && c ≠ '\n' && c ≠ '\r'

def isSchemeChar (c : Char) : Bool := c.isAlphanum || c = '+' || c = '-' || c = '.'

/-- The scheme, in lower case, and what comes after its colon. -/
def splitScheme (input : List Char) : Option (List Char × List Char) :=
  match input.dropWhile isSchemeChar with
  | ':' :: rest =>
    if input.head?.any Char.isAlpha then some (Ascii.toLower (input.takeWhile isSchemeChar), rest)
    else none
  | _ => none

/-- The host ends at the first colon that is not in brackets, and the port follows. -/
def splitPort (inside : Bool) : List Char → List Char × List Char
  | [] => ([], [])
  | c :: rest =>
    if c = ':' ∧ inside = false then ([], rest)
    else
      let (host, port) := splitPort (if c = '[' then true else if c = ']' then false else inside) rest
      (c :: host, port)

/-- The port, absent if it is the one of the scheme. -/
def parsePort (scheme digits : List Char) : Option (Option ℕ) :=
  if digits.all Char.isDigit = false then none
  else if digits = [] then some none
  else if 65535 < Ascii.decimalNumber digits then none
  else if defaultPort scheme = some (Ascii.decimalNumber digits) then some none
  else some (some (Ascii.decimalNumber digits))

/-- The credentials before the last `@`. -/
def splitCredentials (authority : List Char) : List Char × List Char :=
  (Ascii.splitAtLast '@' authority).getD ([], authority)

def isSingleDot (segment : List Char) : Bool :=
  Ascii.toLower segment ∈ [['.'], ['%', '2', 'e']]

def isDoubleDot (segment : List Char) : Bool :=
  Ascii.toLower segment ∈ [['.', '.'], ['.', '%', '2', 'e'], ['%', '2', 'e', '.'],
    ['%', '2', 'e', '%', '2', 'e']]

/-- The segments of a path: a single dot is dropped, a double one drops the segment before it, and
either leaves an empty segment at the end. -/
def addSegments (path : List (List Char)) : List (List Char) → List (List Char)
  | [] => path
  | segment :: rest =>
    if isDoubleDot segment then
      addSegments (path.dropLast ++ if rest = [] then [[]] else []) rest
    else if isSingleDot segment then addSegments (path ++ if rest = [] then [[]] else []) rest
    else addSegments (path ++ [segment]) rest

/-- The path after its first slash; a backslash is a slash. -/
def parsePath (text : List Char) : List (List Char) :=
  addSegments [] ((text.tail.map fun c => if c = '\\' then '/' else c).splitOn '/')

/-- What follows the scheme of a special URL: the authority between slashes, the path, the query
and the fragment. -/
def parseSpecial (p : Parser) (scheme rest : List Char) : Option Record := do
  let text := rest.dropWhile fun c => c = '/' || c = '\\'
  let (credentials, hostPort) := splitCredentials (text.takeWhile fun c => !endsHost c)
  let tail := text.dropWhile fun c => !endsHost c
  let (host, digits) := splitPort false hostPort
  let port ← parsePort scheme digits
  if p.parseHost host = [] then none
  else some {
    scheme
    username := credentials.takeWhile (· ≠ ':')
    password := (credentials.dropWhile (· ≠ ':')).tail
    host := p.parseHost host
    port
    path := parsePath (tail.takeWhile fun c => c ≠ '?' && c ≠ '#')
    query := ((tail.takeWhile (· ≠ '#')).dropWhile (· ≠ '?')).tail
    fragment := (tail.dropWhile (· ≠ '#')).tail }

def parse (p : Parser) (isUrl : List Char → List Char → Bool) (input : List Char) : Option Parsed := do
  let (scheme, rest) ← splitScheme (strip input)
  if (defaultPort scheme).isSome then (parseSpecial p scheme rest).map .special
  else if isUrl scheme rest then some (.other scheme)
  else none

/-! ### Origins -/

section Origin

variable {p : Parser} {c : Char} {text host scheme : List Char} {port : Option ℕ}

/-- A character that is part of a host wherever it stands. -/
def IsHostChar (c : Char) : Prop :=
  32 < c.toNat ∧ c ∉ [':', '/', '\\', '?', '#', '@', '[', ']']

lemma strip_eq_self (h : ∀ c ∈ text, 32 < c.toNat) : strip text = text := by
  have hkept : ∀ {list : List Char}, (∀ c ∈ list, 32 < c.toNat) →
      list.dropWhile isControlOrSpace = list := by
    intro list hlist
    cases list with
    | nil => rfl
    | cons c list =>
      have hc := hlist c List.mem_cons_self
      rw [List.dropWhile_cons_of_neg]
      simpa [isControlOrSpace] using hc
  rw [strip, hkept h, hkept fun c hc => h c (List.mem_reverse.mp hc), List.reverse_reverse]
  refine List.filter_eq_self.mpr fun c hc => ?_
  have hlarge := h c hc
  have hne : ∀ d : Char, d.toNat ≤ 32 → c ≠ d := by
    rintro d hd rfl
    omega
  simp [hne '\t' (by decide), hne '\n' (by decide), hne '\r' (by decide)]

lemma specialScheme (h : (defaultPort scheme).isSome = true) : scheme.all isSchemeChar = true ∧
    scheme.head?.any Char.isAlpha = true ∧ Ascii.toLower scheme = scheme := by
  have hall : ∀ entry ∈ specialPorts, entry.1.all isSchemeChar = true ∧
      entry.1.head?.any Char.isAlpha = true ∧ Ascii.toLower entry.1 = entry.1 := by decide
  rw [defaultPort, List.lookup_isSome_iff] at h
  obtain ⟨entry, hentry, heq⟩ := h
  obtain rfl := eq_of_beq heq
  exact hall entry hentry

lemma toNat_lt_of_isSchemeChar (h : isSchemeChar c = true) : 32 < c.toNat := by
  have hval : c.toNat = c.val.toNat := rfl
  delta isSchemeChar Char.isAlphanum Char.isAlpha Char.isUpper Char.isLower Char.isDigit at h
  simp only [Bool.or_eq_true, Bool.and_eq_true, decide_eq_true_eq, ge_iff_le,
    UInt32.le_iff_toNat_le] at h
  rcases h with (((((hupper | hlower) | hdigit) | rfl) | rfl) | rfl)
  · have hlow : 65 ≤ c.val.toNat := hupper.1
    omega
  · have hlow : 97 ≤ c.val.toNat := hlower.1
    omega
  · have hlow : 48 ≤ c.val.toNat := hdigit.1
    omega
  · decide
  · decide
  · decide

/-- A special scheme is read again from before its colon. -/
lemma splitScheme_special (h : (defaultPort scheme).isSome = true) (rest : List Char) :
    splitScheme (scheme ++ ':' :: rest) = some (scheme, rest) := by
  obtain ⟨hchars, halpha, hlower⟩ := specialScheme h
  have hcolon : isSchemeChar ':' = false := by decide
  have hdrop : (scheme ++ ':' :: rest).dropWhile isSchemeChar = ':' :: rest := by
    rw [List.dropWhile_append_of_pos (List.all_eq_true.mp hchars), List.dropWhile_cons_of_neg]
    simp [hcolon]
  have htake : (scheme ++ ':' :: rest).takeWhile isSchemeChar = scheme := by
    rw [List.takeWhile_append_of_pos (List.all_eq_true.mp hchars), List.takeWhile_cons_of_neg]
    · simp
    · simp [hcolon]
  have hhead : (scheme ++ ':' :: rest).head?.any Char.isAlpha = true := by
    cases scheme with
    | nil => exact absurd halpha (by decide)
    | cons c name => exact halpha
  rw [splitScheme, hdrop]
  simp only [hhead, htake, hlower, if_true]

lemma splitPort_host (h : ∀ c ∈ host, IsHostChar c) :
    ∀ text, splitPort false (host ++ ':' :: text) = (host, text) ∧ splitPort false host = (host, []) := by
  intro text
  induction host with
  | nil => exact ⟨rfl, rfl⟩
  | cons c host ih =>
    obtain ⟨hport, hnone⟩ := ih fun d hd => h d (List.mem_cons_of_mem _ hd)
    have hchar := (h c List.mem_cons_self).2
    simp only [List.mem_cons, List.not_mem_nil, or_false, not_or] at hchar
    obtain ⟨hcolon, -, -, -, -, -, hopen, hclose⟩ := hchar
    simp [splitPort, hcolon, hopen, hclose, hport, hnone]

lemma decimalNumber_toDigits (n : ℕ) : Ascii.decimalNumber (Nat.toDigits 10 n) = n := by
  have hfold : Ascii.decimalNumber (Nat.toDigits 10 n) = Nat.ofDigitChars 10 (Nat.toDigits 10 n) 0 := by
    rw [Ascii.decimalNumber, Nat.ofDigitChars_eq_foldl]
    congr 1
    funext sofar digit
    rw [Nat.mul_comm]
    rfl
  rw [hfold, Nat.ofDigitChars_ten_toDigits]

lemma parsePort_toDigits {n : ℕ} (hn : n ≤ 65535) (hdefault : defaultPort scheme ≠ some n) :
    parsePort scheme (Nat.toDigits 10 n) = some (some n) := by
  have hdigits : (Nat.toDigits 10 n).all Char.isDigit = true :=
    List.all_eq_true.mpr fun c hc => Nat.isDigit_of_mem_toDigits (by decide) (by decide) hc
  rw [parsePort, if_neg (by rw [hdigits]; decide), if_neg Nat.toDigits_ne_nil, decimalNumber_toDigits,
    if_neg (by omega), if_neg hdefault]

/-- What `parsePort` finds is a port that it finds again. -/
lemma parsePort_cases {digits : List Char} (h : parsePort scheme digits = some port) :
    ∀ n ∈ port, n ≤ 65535 ∧ defaultPort scheme ≠ some n := by
  rw [parsePort] at h
  intro n hn
  obtain rfl := hn
  split_ifs at h with hdigits hnil hlarge hdefault
  · cases h
  · cases h
  · obtain rfl : Ascii.decimalNumber digits = n := Option.some.inj (Option.some.inj h)
    exact ⟨by omega, hdefault⟩

lemma mem_portText (h : c ∈ portText port) : c = ':' ∨ c.isDigit = true := by
  cases port with
  | none => cases h
  | some n =>
    refine (List.mem_cons.mp h).imp_right fun hdigit => ?_
    exact Nat.isDigit_of_mem_toDigits (by decide) (by decide) hdigit

/-- The characters after the scheme of an origin. -/
lemma originChar (hhost : ∀ c ∈ host, IsHostChar c) (h : c ∈ host ++ portText port) :
    32 < c.toNat ∧ endsHost c = false ∧ c ≠ '@' := by
  rcases List.mem_append.mp h with hmem | hmem
  · obtain ⟨hlarge, hchar⟩ := hhost c hmem
    simp only [List.mem_cons, List.not_mem_nil, or_false, not_or] at hchar
    obtain ⟨-, hslash, hback, hquery, hhash, hat, -, -⟩ := hchar
    exact ⟨hlarge, by simp [endsHost, hslash, hback, hquery, hhash], hat⟩
  · rcases mem_portText hmem with rfl | hdigit
    · decide
    · simp only [Char.isDigit, Bool.and_eq_true, decide_eq_true_eq, ge_iff_le,
        UInt32.le_iff_toNat_le] at hdigit
      have hval : c.toNat = c.val.toNat := rfl
      have hlow : 48 ≤ c.val.toNat := hdigit.1
      have hhigh : c.val.toNat ≤ 57 := hdigit.2
      have hne : ∀ d : Char, d.toNat < 48 ∨ 57 < d.toNat → c ≠ d := by
        rintro d hd rfl
        omega
      refine ⟨by omega, ?_, hne _ (by decide)⟩
      simp [endsHost, hne '/' (by decide), hne '\\' (by decide), hne '?' (by decide),
        hne '#' (by decide)]

lemma parsePort_portText (hport : ∀ n ∈ port, n ≤ 65535 ∧ defaultPort scheme ≠ some n)
    (hhost : ∀ c ∈ host, IsHostChar c) :
    ∃ digits, splitPort false (host ++ portText port) = (host, digits) ∧
      parsePort scheme digits = some port := by
  cases port with
  | none =>
    refine ⟨[], ?_, rfl⟩
    rw [portText, Option.elim_none, List.append_nil]
    exact (splitPort_host hhost []).2
  | some n =>
    obtain ⟨hn, hdefault⟩ := hport n rfl
    exact ⟨Nat.toDigits 10 n, (splitPort_host hhost _).1, parsePort_toDigits hn hdefault⟩

/-- The host and the port of what the parser reads. -/
lemma parse_special {isUrl : List Char → List Char → Bool} {input : List Char} {url : Record}
    (h : parse p isUrl input = some (.special url)) :
    (∃ written, url.host = p.parseHost written) ∧ url.host ≠ [] ∧
      ∀ n ∈ url.port, n ≤ 65535 ∧ defaultPort url.scheme ≠ some n := by
  simp only [parse, Option.bind_eq_bind, Option.bind_eq_some_iff] at h
  obtain ⟨⟨scheme, rest⟩, -, h⟩ := h
  split_ifs at h
  · obtain ⟨record, hrecord, heq⟩ := Option.map_eq_some_iff.mp h
    obtain rfl : record = url := Parsed.special.inj heq
    simp only [parseSpecial, Option.bind_eq_bind, Option.bind_eq_some_iff] at hrecord
    obtain ⟨port, hport, hrecord⟩ := hrecord
    split_ifs at hrecord with hhost
    obtain rfl := Option.some.inj hrecord
    exact ⟨⟨_, rfl⟩, hhost, parsePort_cases hport⟩
  · cases h

/-- The parser reads an origin as that origin and nothing more, if it takes the host as it is. -/
theorem parse_origin (hscheme : (defaultPort scheme).isSome = true) (hhost : ∀ c ∈ host, IsHostChar c)
    (hne : host ≠ []) (hparse : p.parseHost host = host)
    (hport : ∀ n ∈ port, n ≤ 65535 ∧ defaultPort scheme ≠ some n)
    (isUrl : List Char → List Char → Bool) :
    parse p isUrl (Record.origin ⟨scheme, [], [], host, port, [[]], [], []⟩) =
      some (.special ⟨scheme, [], [], host, port, [[]], [], []⟩) := by
  have horigin : Record.origin ⟨scheme, [], [], host, port, [[]], [], []⟩ =
      scheme ++ ':' :: '/' :: '/' :: (host ++ portText port) := by simp [Record.origin]
  have hlarge : ∀ c ∈ scheme ++ ':' :: '/' :: '/' :: (host ++ portText port), 32 < c.toNat := by
    intro c hc
    rw [List.mem_append, List.mem_cons, List.mem_cons, List.mem_cons] at hc
    rcases hc with hc | rfl | rfl | rfl | hc
    · exact toNat_lt_of_isSchemeChar (List.all_eq_true.mp (specialScheme hscheme).1 c hc)
    · decide
    · decide
    · decide
    · exact (originChar hhost hc).1
  have hslashes : ('/' :: '/' :: (host ++ portText port)).dropWhile (fun c => c = '/' || c = '\\') =
      host ++ portText port := by
    cases host with
    | nil => exact absurd rfl hne
    | cons c host =>
      have hchar := (hhost c List.mem_cons_self).2
      simp only [List.mem_cons, List.not_mem_nil, or_false, not_or] at hchar
      simp [hchar]
  obtain ⟨digits, hsplit, hdigits⟩ := parsePort_portText hport hhost
  have hend : ∀ c ∈ host ++ portText port, (!endsHost c) = true := by
    intro c hc
    simp [(originChar hhost hc).2.1]
  have hat : '@' ∉ host ++ portText port := fun hmem => (originChar hhost hmem).2.2 rfl
  have hspecial : parseSpecial p scheme ('/' :: '/' :: (host ++ portText port)) =
      some ⟨scheme, [], [], host, port, [[]], [], []⟩ := by
    simp only [parseSpecial]
    rw [hslashes, List.takeWhile_eq_self_iff.mpr hend, List.dropWhile_eq_nil_iff.mpr hend,
      splitCredentials, Ascii.splitAtLast, if_neg hat]
    simp only [Option.getD_none, hsplit, hdigits, hparse, if_neg hne]
    rfl
  rw [horigin, parse, strip_eq_self hlarge, splitScheme_special hscheme]
  simp only [Option.bind_eq_bind, Option.bind_some, hscheme, if_true, hspecial, Option.map_some]

end Origin

end Url
