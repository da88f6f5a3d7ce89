import BloomWorkspaces.Agent.Egress.Inspection
import BloomWorkspaces.Agent.Egress.Ipv4
import BloomWorkspaces.Library.UrlHost
import BloomWorkspaces.Library.Utf16

/-!
# Server names

`parseProxyAuthority`, and how the server name of an accepted ClientHello, which goes to the upstream
as it is, compares with the hostname of the authority. The comparison of the proxy is one of
normalised names, and the setter that normalises them cuts and decodes.
-/

namespace Bloom

open BigEndian Checked

/-! ### Authorities -/

/-- `[\u0000-\u0020\u007f/\\?#]` -/
def isForbiddenAuthorityChar (c : Char) : Bool :=
  c.toNat ≤ 32 || c.toNat = 127 || c ∈ ['/', '\\', '?', '#']

/-- `^[0-9]{1,5}$` -/
def isPortText (text : List Char) : Bool :=
  1 ≤ text.length && text.length ≤ 5 && text.all Char.isDigit

/-- The hostname and the port of an authority with at most one colon. -/
def splitAuthority (authority : List Char) : List Char × Option (List Char) :=
  match Ascii.splitAtLast ':' authority with
  | some (hostname, port) => (hostname, some port)
  | none => (authority, none)

def parseProxyAuthority (domainToASCII : List Char → List Char) (authority : List Char)
    (defaultPort : Option JsNumber) : Except EgressPolicyError (List Char × ℤ) :=
  let (rawHostname, rawPort) := splitAuthority authority
  if authority.length = 0 ∨ 512 < (Utf16.encode authority).length ∨
      authority.any isForbiddenAuthorityChar then
    .error ⟨.invalidAuthority, "Malformed proxy authority"⟩
  else if '@' ∈ authority then
    .error ⟨.credentialsForbidden, "Credentials in proxy authority are forbidden"⟩
  else if authority.head? = some '[' then
    .error ⟨.ipLiteralForbidden, "IP-literal destinations are forbidden"⟩
  else if 1 < authority.count ':' then
    .error ⟨.invalidAuthority, "Malformed proxy authority"⟩
  else if rawPort.any fun text => !isPortText text then
    .error ⟨.invalidAuthority, "Malformed proxy port"⟩
  else if rawPort = none ∧ defaultPort = none then
    .error ⟨.invalidAuthority, "Proxy authority must include a port"⟩
  else do
    let hostname ← normalizeHostname domainToASCII rawHostname
    if isIP hostname ≠ 0 then
      .error ⟨.ipLiteralForbidden, "IP-literal destinations are forbidden"⟩
    else
      match (rawPort.map fun text => (some (Ascii.decimalNumber text : ℤ) : JsNumber)).or defaultPort with
      | none => .error ⟨.invalidAuthority, "Proxy authority must include a port"⟩
      | some value =>
        let port ← validatePort value
        return (hostname, port)

section Authorities

variable {domainToASCII : List Char → List Char} {hostname : List Char}

/-- The hostname of an authority is normalised and no address. -/
lemma parseProxyAuthority_ok {authority : List Char} {defaultPort : Option JsNumber} {port : ℤ}
    (h : parseProxyAuthority domainToASCII authority defaultPort = .ok (hostname, port)) :
    ∃ rawHostname, normalizeHostname domainToASCII rawHostname = .ok hostname ∧ isIP hostname = 0 := by
  rw [parseProxyAuthority] at h
  simp only at h
  split_ifs at h
  obtain ⟨name, hname, h⟩ := of_bind_ok h
  split at h
  · cases h
  · rename_i hip
    split at h
    · cases h
    · obtain ⟨_, -, h⟩ := of_bind_ok h
      cases h
      exact ⟨_, hname, not_not.mp hip⟩

/-- The characters of a normalised hostname. -/
lemma mem_normalized (h : ∀ label ∈ labels hostname, isLabel label = true) :
    ∀ c ∈ hostname, isLabelChar c = true ∨ c = '-' ∨ c = '.' := by
  intro c hc
  rcases Ascii.eq_or_mem_splitOn '.' hc with rfl | ⟨label, hlabel, hin⟩
  · exact Or.inr (Or.inr rfl)
  · have hvalid := h label hlabel
    simp only [isLabel, Bool.and_eq_true, List.all_eq_true, Bool.or_eq_true, decide_eq_true_eq] at hvalid
    exact (hvalid.1.1.2 c hin).imp_right Or.inl

end Authorities

/-! ### The server name of an input -/

section Decoding

variable {width : ℕ} {body body' rest rest' : List UInt8}

/-- A vector tells where it ends. -/
lemma vector_append_inj (hlt : body.length < 256 ^ width) (hlt' : body'.length < 256 ^ width)
    (h : vector width body ++ rest = vector width body' ++ rest') : body = body' ∧ rest = rest' := by
  rw [vector, vector, List.append_assoc, List.append_assoc] at h
  obtain ⟨hlength, hrest⟩ := List.append_inj h (by rw [length_toBytes, length_toBytes])
  have hsame := congrArg ofBytes hlength
  rw [ofBytes_toBytes hlt, ofBytes_toBytes hlt'] at hsame
  exact List.append_inj hrest hsame

lemma vector_inj (hlt : body.length < 256 ^ width) (hlt' : body'.length < 256 ^ width)
    (h : vector width body = vector width body') : body = body' := by
  have happend : vector width body ++ [] = vector width body' ++ [] := by rw [h]
  exact (vector_append_inj hlt hlt' happend).1

lemma serverNameList_inj {name name' : List UInt8} (hlt : (serverNameList name).length < 65536)
    (hlt' : (serverNameList name').length < 65536) (h : serverNameList name = serverNameList name') :
    name = name' := by
  rw [length_serverNameList] at hlt hlt'
  have hlist : (0 :: vector 2 name : List UInt8).length < 256 ^ 2 := by
    rw [List.length_cons, length_vector]
    omega
  have hlist' : (0 :: vector 2 name' : List UInt8).length < 256 ^ 2 := by
    rw [List.length_cons, length_vector]
    omega
  exact vector_inj (by omega) (by omega) (List.cons.inj (vector_inj hlist hlist' h)).2

lemma extension_append_inj {e e' : HelloExtension} (he : e.WellFormed) (he' : e'.WellFormed)
    (h : e.encode ++ rest = e'.encode ++ rest') : e = e' ∧ rest = rest' := by
  rw [HelloExtension.encode, HelloExtension.encode, List.append_assoc, List.append_assoc] at h
  obtain ⟨htype, hdata⟩ := List.append_inj h (by rw [length_toBytes, length_toBytes])
  have hsame := congrArg ofBytes htype
  rw [ofBytes_toBytes he.1, ofBytes_toBytes he'.1] at hsame
  obtain ⟨hdata, hrest⟩ := vector_append_inj he.2 he'.2 hdata
  refine ⟨?_, hrest⟩
  cases e
  cases e'
  cases hsame
  cases hdata
  rfl

/-- Extensions are determined by their encoding. -/
lemma extensions_inj {extensions extensions' : List HelloExtension}
    (hwell : ∀ e ∈ extensions, e.WellFormed) (hwell' : ∀ e ∈ extensions', e.WellFormed)
    (h : extensions.flatMap HelloExtension.encode = extensions'.flatMap HelloExtension.encode) :
    extensions = extensions' := by
  induction extensions generalizing extensions' with
  | nil =>
    cases extensions' with
    | nil => rfl
    | cons e' extensions' =>
      have hlength := congrArg List.length h
      rw [List.flatMap_cons, List.length_append, HelloExtension.length_encode] at hlength
      simp at hlength
      omega
  | cons e extensions ih =>
    cases extensions' with
    | nil =>
      have hlength := congrArg List.length h
      rw [List.flatMap_cons, List.length_append, HelloExtension.length_encode] at hlength
      simp at hlength
    | cons e' extensions' =>
      rw [List.flatMap_cons, List.flatMap_cons] at h
      obtain ⟨rfl, hrest⟩ :=
        extension_append_inj (hwell e List.mem_cons_self) (hwell' e' List.mem_cons_self) h
      rw [ih (fun d hd => hwell d (List.mem_cons_of_mem _ hd))
        (fun d hd => hwell' d (List.mem_cons_of_mem _ hd)) hrest]

/-- Well-formed hellos of one encoding have the same extensions. -/
lemma ClientHello.extensions_of_encode {h h' : ClientHello} (hwell : h.WellFormed)
    (hwell' : h'.WellFormed) (hencode : h.encode = h'.encode) : h.extensions = h'.extensions := by
  have hsession := hwell.sessionId_le
  have hsession' := hwell'.sessionId_le
  rw [ClientHello.encode, ClientHello.encode] at hencode
  obtain ⟨-, hrest⟩ := List.append_inj hencode (by rw [length_toBytes, length_toBytes])
  obtain ⟨-, hrest⟩ := List.append_inj hrest
    (by rw [hwell.length_random, hwell'.length_random])
  obtain ⟨-, hrest⟩ := vector_append_inj (by omega) (by omega) hrest
  obtain ⟨-, hrest⟩ := vector_append_inj hwell.cipherSuites_lt hwell'.cipherSuites_lt hrest
  obtain ⟨-, hrest⟩ := vector_append_inj hwell.compression_lt hwell'.compression_lt hrest
  have hextensions := vector_inj hwell.extensions_lt hwell'.extensions_lt hrest
  exact extensions_inj hwell.extensions_wellFormed hwell'.extensions_wellFormed hextensions

/-- Records of one encoding carry the same bytes. -/
lemma payloads_of_encodings {records records' : List TlsRecord} (hwell : ∀ r ∈ records, r.WellFormed)
    (hwell' : ∀ r ∈ records', r.WellFormed) (h : encodings records = encodings records') :
    payloads records = payloads records' := by
  have hword : maxTlsRecordPayload < 256 ^ 2 := by decide
  induction records generalizing records' with
  | nil =>
    cases records' with
    | nil => rfl
    | cons r' records' =>
      have hlength := congrArg List.length h
      rw [length_encodings_cons] at hlength
      simp [encodings] at hlength
      omega
  | cons r records ih =>
    cases records' with
    | nil =>
      have hlength := congrArg List.length h
      rw [length_encodings_cons] at hlength
      simp [encodings] at hlength
    | cons r' records' =>
      have hle := (hwell r List.mem_cons_self).length_le
      have hle' := (hwell' r' List.mem_cons_self).length_le
      rw [encodings, encodings, List.flatMap_cons, List.flatMap_cons, TlsRecord.encode,
        TlsRecord.encode, List.append_assoc, List.append_assoc, List.append_assoc,
        List.append_assoc] at h
      obtain ⟨-, hrest⟩ := List.append_inj h rfl
      obtain ⟨-, hrest⟩ := List.append_inj hrest (by rw [length_toBytes, length_toBytes])
      obtain ⟨hpayload, hrest⟩ := vector_append_inj (by omega) (by omega) hrest
      rw [payloads, payloads, List.flatMap_cons, List.flatMap_cons, hpayload]
      exact congrArg (r'.payload ++ ·)
        (ih (fun d hd => hwell d (List.mem_cons_of_mem _ hd))
          (fun d hd => hwell' d (List.mem_cons_of_mem _ hd)) hrest)

end Decoding

/-- The first `n` bytes of the input are records with one ClientHello for `name`. -/
def CarriesServerName (input : List UInt8) (n : ℕ) (name : List UInt8) : Prop :=
  ∃ records h, CarriesHello (fun name' => name' = name) records h ∧ At input 0 (encodings records) ∧
    n = (encodings records).length

section Names

variable {input name name' : List UInt8} {n : ℕ}

lemma ClientHello.serverName_lt {h : ClientHello} (hwell : h.WellFormed)
    (hname : (h.extensions.filter fun e => e.type = 0).map (·.data) = [serverNameList name]) :
    (serverNameList name).length < 65536 := by
  have hmem : serverNameList name ∈ (h.extensions.filter fun e => e.type = 0).map (·.data) := by
    rw [hname]
    exact List.mem_singleton.mpr rfl
  obtain ⟨e, he, hdata⟩ := List.mem_map.mp hmem
  rw [← hdata]
  exact (hwell.extensions_wellFormed e (List.mem_filter.mp he).1).2

/-- There is only one way to read a server name. -/
lemma CarriesServerName.unique (hname : CarriesServerName input n name)
    (hname' : CarriesServerName input n name') : name = name' := by
  obtain ⟨records, h, hcarries, hat, hn⟩ := hname
  obtain ⟨records', h', hcarries', hat', hn'⟩ := hname'
  have hrecords : encodings records = encodings records' := by
    rw [← hat.take, ← hat'.take, ← hn, ← hn']
  have hpayload := payloads_of_encodings hcarries.records_wellFormed hcarries'.records_wellFormed
    hrecords
  rw [hcarries.payload, hcarries'.payload, ClientHello.frame, ClientHello.frame] at hpayload
  obtain ⟨-, hvector⟩ := List.append_inj hpayload rfl
  have hencode := vector_inj hcarries.hello_wellFormed.length_encode_lt
    hcarries'.hello_wellFormed.length_encode_lt hvector
  have hextensions := ClientHello.extensions_of_encode hcarries.hello_wellFormed
    hcarries'.hello_wellFormed hencode
  obtain ⟨-, found, rfl, hlist⟩ := hcarries.names
  obtain ⟨-, found', rfl, hlist'⟩ := hcarries'.names
  have hlt := ClientHello.serverName_lt hcarries.hello_wellFormed hlist
  have hlt' := ClientHello.serverName_lt hcarries'.hello_wellFormed hlist'
  rw [hextensions, hlist'] at hlist
  exact serverNameList_inj hlt hlt' (List.cons.inj hlist).1.symm

/-- What an accepted input carries. -/
lemma carriesServerName_of_complete {domainToASCII : List Char → List Char} {hostname : List Char}
    {maxBytes : JsNumber} (h : inspectTlsClientHello domainToASCII input hostname maxBytes =
      .ok (.complete n)) :
    ∃ expected name, normalizeHostname domainToASCII hostname = .ok expected ∧
      CarriesServerName input n name ∧ IsHostName domainToASCII name expected := by
  cases maxBytes with
  | none => cases h
  | some limit =>
    simp only [inspectTlsClientHello] at h
    split_ifs at h with hlimit hinput
    split at h
    · cases h
    · rename_i expected hexpected
      obtain ⟨records, hello, hcarries, hat, hn, -⟩ :=
        (inspectRecords_complete_iff (by omega) n).mp h
      obtain ⟨hech, name, hname, hlist⟩ := hcarries.names
      exact ⟨expected, name, hexpected, ⟨records, hello, { hcarries with
        names := ⟨hech, name, rfl, hlist⟩ }, hat, hn⟩, hname⟩

end Names

/-! ### Normalised names -/

section Normal

variable {p : UrlHost.Parser} {input hostname : List Char} {name : List UInt8}

lemma not_nil_of_labels (h : ∀ label ∈ labels hostname, isLabel label = true) : hostname ≠ [] := by
  rintro rfl
  exact absurd (h [] (List.mem_singleton.mpr rfl)) (by decide)

lemma head_of_labels (h : ∀ label ∈ labels hostname, isLabel label = true) :
    hostname.head? ≠ some '[' := by
  intro hbracket
  obtain ⟨rest, rfl⟩ := List.head?_eq_some_iff.mp hbracket
  exact absurd (mem_normalized h '[' List.mem_cons_self) (by decide)

lemma head_toLower (h : input.head? = some '[') : (Ascii.toLower input).head? = some '[' := by
  obtain ⟨rest, rfl⟩ := List.head?_eq_some_iff.mp h
  rfl

/-- A hostname that is no address does not end in a number. -/
lemma endsInNumber_of_normalize (hp : p.Ok)
    (h : normalizeHostname p.setHostname input = .ok hostname) (hip : isIP hostname = 0) :
    UrlHost.endsInNumber hostname = false := by
  obtain ⟨hhostname, -, hlabels, -⟩ := normalizeHostname_ok h
  rw [hhostname] at hlabels
  rcases UrlHost.setHostname_cases hp (withoutFinalDot input) with
    hfail | hbracket | ⟨address, haddress⟩ | ⟨hlower, -, hnumber⟩
  · rw [hfail] at hlabels
    exact absurd rfl (not_nil_of_labels hlabels)
  · exact absurd (head_toLower hbracket) (head_of_labels hlabels)
  · rw [hhostname, haddress, toLower_serializeIpv4] at hip
    exact absurd hip (isIP_serializeIpv4 address)
  · rw [hhostname, hlower]
    exact hnumber

/-- A name of plain bytes normalises to its lower case or to an address. -/
lemma normalize_plain (hp : p.Ok) (hname : ∀ b ∈ name, UrlHost.IsPlainByte b)
    (hdot : (asciiText name).getLast? ≠ some '.')
    (h : normalizeHostname p.setHostname (asciiText name) = .ok hostname) :
    hostname = Ascii.toLower (asciiText name) ∨
      UrlHost.endsInNumber (Ascii.toLower (asciiText name)) = true ∧ isIP hostname ≠ 0 := by
  obtain ⟨hhostname, -, hlabels, -⟩ := normalizeHostname_ok h
  rw [withoutFinalDot, if_neg hdot] at hhostname
  rw [hhostname] at hlabels
  rcases UrlHost.setHostname_plain hp hname with hfail | hbracket | ⟨hnumber, address, haddress⟩ | hlower
  · rw [asciiText, ← UrlHost.text, hfail] at hlabels
    exact absurd rfl (not_nil_of_labels hlabels)
  · exact absurd (head_toLower hbracket) (head_of_labels hlabels)
  · refine Or.inr ⟨hnumber, ?_⟩
    rw [hhostname, asciiText, ← UrlHost.text, haddress, toLower_serializeIpv4]
    exact isIP_serializeIpv4 address
  · refine Or.inl ?_
    rw [hhostname, asciiText, ← UrlHost.text, hlower, Ascii.toLower_toLower]

lemma isLabelChar_bounds {c : Char} (h : isLabelChar c = true) :
    48 ≤ c.toNat ∧ c.toNat ≤ 57 ∨ 97 ≤ c.toNat ∧ c.toNat ≤ 122 := by
  simp only [isLabelChar, Char.isDigit, Bool.or_eq_true, Bool.and_eq_true, decide_eq_true_eq,
    ge_iff_le, Char.le_def, UInt32.le_iff_toNat_le] at h
  exact h

/-- The characters of a hostname are plain. -/
lemma plain_of_labels (h : ∀ label ∈ labels hostname, isLabel label = true) :
    ∀ c ∈ hostname, 45 ≤ c.toNat ∧ c.toNat ≤ 122 ∧ c.toNat ∉ [35, 37, 47, 63, 92] := by
  intro c hc
  rcases mem_normalized h c hc with hlabel | rfl | rfl
  · have hbounds := isLabelChar_bounds hlabel
    simp only [List.mem_cons, List.not_mem_nil, or_false]
    omega
  · decide
  · decide

/-- A normalised hostname is normal. -/
lemma eq_of_normalize (hp : p.Ok) {expected : List Char}
    (h : normalizeHostname p.setHostname input = .ok hostname) (hip : isIP hostname = 0)
    (hexpected : normalizeHostname p.setHostname hostname = .ok expected) : expected = hostname := by
  have hnumber := endsInNumber_of_normalize hp h hip
  obtain ⟨hhostname, -, hlabels, -⟩ := normalizeHostname_ok h
  have hlower : Ascii.toLower hostname = hostname := by
    rw [hhostname, Ascii.toLower_toLower]
  have hplain := plain_of_labels hlabels
  obtain ⟨bytes, hbytes, htext⟩ : ∃ bytes : List UInt8, (∀ b ∈ bytes, UrlHost.IsPlainByte b) ∧
      asciiText bytes = hostname := by
    refine ⟨hostname.map fun c => UInt8.ofNat c.toNat, ?_, ?_⟩
    · intro b hb
      obtain ⟨c, hc, rfl⟩ := List.mem_map.mp hb
      obtain ⟨hlow, hhigh, hspecial⟩ := hplain c hc
      have hnat : (UInt8.ofNat c.toNat).toNat = c.toNat := Utf8.toNat_ofNat (by omega)
      refine ⟨by omega, by omega, ?_⟩
      intro hmem
      have hin := List.mem_map_of_mem (f := UInt8.toNat) hmem
      rw [hnat] at hin
      exact hspecial hin
    · rw [asciiText, List.map_map]
      conv_rhs => rw [← List.map_id hostname]
      refine List.map_congr_left fun c hc => ?_
      obtain ⟨-, hhigh, -⟩ := hplain c hc
      have hnat : (UInt8.ofNat c.toNat).toNat = c.toNat := Utf8.toNat_ofNat (by omega)
      rw [Function.comp_apply, hnat, Char.ofNat_toNat]
      rfl
  have hdot : (asciiText bytes).getLast? ≠ some '.' := by
    rw [htext]
    exact fun hlast => isLabel_ne_nil (hlabels [] (Ascii.nil_mem_splitOn_of_getLast hlast)) rfl
  rw [← htext] at hexpected
  rcases normalize_plain hp hbytes hdot hexpected with hname | ⟨hends, -⟩
  · rw [hname, htext, hlower]
  · rw [htext, hlower, hnumber] at hends
    cases hends

end Normal

/-- The forwarded server name of an accepted ClientHello is the hostname, up to the case of its
letters, exactly when it has none of the characters at which the setter cuts or decodes. -/
theorem serverName_iff {p : UrlHost.Parser} (hp : p.Ok) {authority hostname : List Char}
    {defaultPort : Option JsNumber} {port : ℤ}
    (hauthority : parseProxyAuthority p.setHostname authority defaultPort = .ok (hostname, port))
    {input : List UInt8} {maxBytes : JsNumber} {n : ℕ}
    (haccepted : inspectTlsClientHello p.setHostname input hostname maxBytes = .ok (.complete n)) :
    ∃ name, (∀ name', CarriesServerName input n name' ↔ name' = name) ∧
      (Ascii.toLower (asciiText name) = hostname ↔
        ∀ b ∈ name, b ∉ ([35, 37, 47, 63, 92] : List UInt8)) := by
  obtain ⟨raw, hraw, hip⟩ := parseProxyAuthority_ok hauthority
  obtain ⟨expected, name, hexpected, hcarries, hhost⟩ := carriesServerName_of_complete haccepted
  obtain rfl := eq_of_normalize hp hraw hip hexpected
  obtain ⟨-, -, hlabels, -⟩ := normalizeHostname_ok hraw
  refine ⟨name, fun name' => ⟨fun h => h.unique hcarries, fun h => h ▸ hcarries⟩, ?_⟩
  constructor
  · intro hlower b hb hspecial
    have hmem : (Char.ofNat b.toNat).toLower ∈ expected := by
      rw [← hlower]
      exact List.mem_map_of_mem (List.mem_map_of_mem hb)
    have hcases : ([35, 37, 47, 63, 92] : List UInt8).all (fun b =>
        (Char.ofNat b.toNat).toLower.toNat ∈ [35, 37, 47, 63, 92]) = true := by decide
    have hlisted := List.all_eq_true.mp hcases b hspecial
    exact (plain_of_labels hlabels _ hmem).2.2 (of_decide_eq_true hlisted)
  · intro hplain
    have hbytes : ∀ b ∈ name, UrlHost.IsPlainByte b := by
      intro b hb
      obtain ⟨hlow, hhigh⟩ := hhost.printable b hb
      exact ⟨by omega, by omega, hplain b hb⟩
    rcases normalize_plain hp hbytes hhost.no_final_dot hhost.normal with hname | ⟨-, haddress⟩
    · exact hname.symm
    · exact absurd hip haddress

/-- A parser that knows ASCII names only. -/
def asciiParser : UrlHost.Parser where
  idna := fun bytes => if UrlHost.isAscii bytes then Ascii.toLower (UrlHost.text bytes) else []
  ipv6 := fun _ => []

lemma asciiParser_ok : asciiParser.Ok where
  idna_lower := by
    intro bytes
    simp only [asciiParser]
    split
    · exact Ascii.toLower_toLower _
    · rfl
  idna_ascii := by
    intro bytes h
    simp only [asciiParser]
    rw [if_pos h]
    exact Or.inr rfl
  ipv6_bracket := fun _ => Or.inl rfl

theorem serverName_iff_npmjs :
    ∃ name, (∀ name', CarriesServerName
        (encodings (inTwoRecords 3 (minimalHello npmjsName).frame)) 75 name' ↔ name' = name) ∧
      (Ascii.toLower (asciiText name) = "npmjs.org".toList ↔
        ∀ b ∈ name, b ∉ ([35, 37, 47, 63, 92] : List UInt8)) := by
  have hauthority : parseProxyAuthority asciiParser.setHostname "npmjs.org:443".toList none =
      .ok ("npmjs.org".toList, 443) := by decide +kernel
  have haccepted : inspectTlsClientHello asciiParser.setHostname
      (encodings (inTwoRecords 3 (minimalHello npmjsName).frame)) "npmjs.org".toList (some 65536) =
        .ok (.complete 75) := by decide +kernel
  exact serverName_iff asciiParser_ok hauthority haccepted

/-- `npmjs.org/x` -/
def slashName : List UInt8 := npmjsName ++ [47, 120]

/-- The proxy accepts a server name with a path behind the hostname. -/
theorem not_serverName_slash :
    ¬∀ p : UrlHost.Parser, p.Ok → ∀ (authority hostname : List Char) (defaultPort : Option JsNumber)
      (port : ℤ), parseProxyAuthority p.setHostname authority defaultPort = .ok (hostname, port) →
      ∀ (input : List UInt8) (maxBytes : JsNumber) (n : ℕ),
        inspectTlsClientHello p.setHostname input hostname maxBytes = .ok (.complete n) →
        ∀ name, CarriesServerName input n name → Ascii.toLower (asciiText name) = hostname := by
  intro hall
  have hauthority : parseProxyAuthority asciiParser.setHostname "npmjs.org:443".toList none =
      .ok ("npmjs.org".toList, 443) := by decide +kernel
  have haccepted : inspectTlsClientHello asciiParser.setHostname
      (encodings (inTwoRecords 3 (minimalHello slashName).frame)) "npmjs.org".toList (some 65536) =
        .ok (.complete 77) := by decide +kernel
  have hcarries : CarriesServerName (encodings (inTwoRecords 3 (minimalHello slashName).frame)) 77
      slashName :=
    ⟨_, _, inTwoRecords_carriesHello rfl (by decide +kernel) (by decide) (by decide),
      List.prefix_refl _, by decide +kernel⟩
  have hequal := hall asciiParser asciiParser_ok _ _ _ _ hauthority _ _ _ haccepted _ hcarries
  revert hequal
  decide +kernel

end Bloom
