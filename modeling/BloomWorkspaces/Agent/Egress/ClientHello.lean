import BloomWorkspaces.Agent.Egress.Tls

/-!
# The ClientHello grammar

What a ClientHello is, written as an encoding, and that the checks of `validateClientHello` accept
exactly the encodings with one matching server name.
-/

namespace Bloom

open BigEndian Checked

/-- The errors that the inspection is meant to throw. -/
def IsTlsError (e : Thrown) : Prop := ∃ code message, e = .tls code message

lemma isTlsError_tls (code : TlsErrorCode) (message : String) : IsTlsError (.tls code message) :=
  ⟨code, message, rfl⟩

lemma isTlsError_malformed (message : String) : IsTlsError (malformed message) :=
  ⟨_, message, rfl⟩

lemma isTlsError_tooLarge : IsTlsError tooLarge := ⟨_, _, rfl⟩

/-! ### Reads -/

section Reads

variable {buffer bs : List UInt8} {offset length width n : ℕ}

lemma readUIntBE_ok (h : offset + width ≤ buffer.length) :
    readUIntBE buffer offset width = .ok (ofBytes ((buffer.drop offset).take width)) := by
  rw [readUIntBE, if_neg (by omega)]

lemma slice_ok (h : offset + length ≤ buffer.length) :
    slice buffer offset length = .ok ((buffer.drop offset).take length) := by
  rw [slice, if_neg (by omega)]

lemma length_take_drop (h : offset + length ≤ buffer.length) :
    ((buffer.drop offset).take length).length = length := by
  rw [List.length_take, List.length_drop]
  omega

lemma readUIntBE_yields (allowed : Thrown → Prop) (h : offset + width ≤ buffer.length) :
    Yields allowed (fun n => n < 256 ^ width ∧ At buffer offset (toBytes width n))
      (readUIntBE buffer offset width) := by
  rw [readUIntBE_ok h]
  have hlength := length_take_drop h
  have hlt := ofBytes_lt ((buffer.drop offset).take width)
  have hbytes := toBytes_ofBytes ((buffer.drop offset).take width)
  rw [hlength] at hlt hbytes
  refine ⟨hlt, ?_⟩
  rw [hbytes]
  exact at_take width

lemma slice_yields (allowed : Thrown → Prop) (h : offset + length ≤ buffer.length) :
    Yields allowed (fun bs => bs.length = length ∧ At buffer offset bs)
      (slice buffer offset length) := by
  rw [slice_ok h]
  exact ⟨length_take_drop h, at_take length⟩

lemma requireBytes_yields :
    Yields IsTlsError (fun _ => offset + length ≤ buffer.length)
      (requireBytes buffer offset length) :=
  (Yields.rejectIf (isTlsError_malformed _)).mono fun _ h => Nat.le_of_not_lt h

lemma requireBytes_ok (h : offset + length ≤ buffer.length) :
    requireBytes buffer offset length = .ok () :=
  rejectIf_of_not (Nat.not_lt.mpr h)

/-- Bytes that are appended do not change what is read before them. -/
lemma readUIntBE_append (rest : List UInt8) (h : offset + width ≤ buffer.length) :
    readUIntBE (buffer ++ rest) offset width = readUIntBE buffer offset width := by
  have hdrop := List.length_drop (l := buffer) (i := offset)
  rw [readUIntBE_ok h, readUIntBE_ok (by rw [List.length_append]; omega),
    List.drop_append_of_le_length (by omega), List.take_append_of_le_length (by omega)]

lemma readUIntBE_of_at (h : At buffer offset (toBytes width n)) (hoffset : offset ≤ buffer.length)
    (hn : n < 256 ^ width) : readUIntBE buffer offset width = .ok n := by
  have hend := h.end_le hoffset
  have htake := h.take
  rw [length_toBytes] at hend htake
  rw [readUIntBE_ok hend, htake, ofBytes_toBytes hn]

lemma slice_of_at (h : At buffer offset bs) (hoffset : offset ≤ buffer.length) :
    slice buffer offset bs.length = .ok bs := by
  rw [slice_ok (h.end_le hoffset), h.take]

end Reads

/-! ### Vectors -/

/-- A vector behind its length. -/
def vector (width : ℕ) (body : List UInt8) : List UInt8 := toBytes width body.length ++ body

@[simp] lemma length_vector (width : ℕ) (body : List UInt8) :
    (vector width body).length = width + body.length := by
  rw [vector, List.length_append, length_toBytes]

lemma skipVector_yields (hello : List UInt8) (offset width : ℕ) (accepts : ℕ → Bool)
    (message : String) :
    Yields IsTlsError (fun next => ∃ body, accepts body.length = true ∧ body.length < 256 ^ width ∧
        At hello offset (vector width body) ∧ next = offset + width + body.length ∧
        next ≤ hello.length)
      (skipVector hello offset width accepts message) := by
  refine requireBytes_yields.bind fun _ hwidth => ?_
  refine (readUIntBE_yields _ hwidth).bind fun length ⟨hlt, hlength⟩ => ?_
  refine (Yields.rejectIf (isTlsError_malformed _)).bind fun _ haccepts => ?_
  refine requireBytes_yields.bind fun _ hbody => ?_
  refine ⟨(hello.drop (offset + width)).take length, ?_⟩
  rw [vector, length_take_drop hbody]
  refine ⟨by simpa using haccepts, hlt, at_append.mpr ⟨hlength, ?_⟩, rfl, hbody⟩
  rw [length_toBytes]
  exact at_take length

lemma skipVector_of_at {hello body : List UInt8} {offset width : ℕ} {accepts : ℕ → Bool}
    (message : String) (h : At hello offset (vector width body)) (hoffset : offset ≤ hello.length)
    (hlt : body.length < 256 ^ width) (haccepts : accepts body.length = true) :
    skipVector hello offset width accepts message = .ok (offset + width + body.length) := by
  have hend := h.end_le hoffset
  rw [length_vector] at hend
  have hread := readUIntBE_of_at (at_append.mp h).1 hoffset hlt
  rw [skipVector, bind_ok (requireBytes_ok (by omega)), bind_ok hread,
    bind_ok (rejectIf_of_not (by simp [haccepts])), bind_ok (requireBytes_ok (by omega))]
  rfl

/-! ### The server name -/

/-- A printable host name without a trailing dot that normalises to `hostname`. -/
structure IsHostName (domainToASCII : List Char → List Char) (name : List UInt8)
    (hostname : List Char) : Prop where
  pos : 1 ≤ name.length
  length_le : name.length ≤ 253
  printable : ∀ b ∈ name, 0x21 ≤ b.toNat ∧ b.toNat ≤ 0x7e
  no_final_dot : (asciiText name).getLast? ≠ some '.'
  normal : normalizeHostname domainToASCII (asciiText name) = .ok hostname

/-- The data of a server_name extension with one host_name. -/
def serverNameList (name : List UInt8) : List UInt8 := vector 2 (0 :: vector 2 name)

lemma length_serverNameList (name : List UInt8) :
    (serverNameList name).length = name.length + 5 := by
  rw [serverNameList, length_vector, List.length_cons, length_vector]
  omega

/-- The list length, the name type, the name length and the name of a server_name extension. -/
lemma serverNameList_eq (name : List UInt8) :
    serverNameList name =
      toBytes 2 (name.length + 3) ++ (toBytes 1 0 ++ (toBytes 2 name.length ++ name)) := by
  have hlength : (0 :: vector 2 name : List UInt8).length = name.length + 3 := by
    rw [List.length_cons, length_vector]
    omega
  rw [serverNameList, vector, hlength, vector]
  rfl

lemma parseSingleServerName_yields (domainToASCII : List Char → List Char)
    (extension : List UInt8) :
    Yields IsTlsError (fun hostname => ∃ name, extension = serverNameList name ∧
        IsHostName domainToASCII name hostname)
      (parseSingleServerName domainToASCII extension) := by
  refine (Yields.rejectIf (isTlsError_malformed _)).bind fun _ hfive => ?_
  refine (readUIntBE_yields _ (by omega)).bind fun listLength ⟨_, hlist⟩ => ?_
  refine (Yields.rejectIf (isTlsError_malformed _)).bind fun _ hlistLength => ?_
  refine (readUIntBE_yields _ (by omega)).bind fun nameType ⟨_, htype⟩ => ?_
  refine (Yields.rejectIf (isTlsError_malformed _)).bind fun _ hhost => ?_
  refine (readUIntBE_yields _ (by omega)).bind fun nameLength ⟨_, hname⟩ => ?_
  refine (Yields.rejectIf (isTlsError_malformed _)).bind fun _ hnameLength => ?_
  refine (slice_yields _ (by omega)).bind fun name ⟨hlength, hat⟩ => ?_
  refine (Yields.rejectIf (isTlsError_malformed _)).bind fun _ hprintable => ?_
  refine (Yields.rejectIf (isTlsError_malformed _)).bind fun _ hdot => ?_
  cases hnormal : normalizeHostname domainToASCII (asciiText name) with
  | error failure => exact isTlsError_malformed _
  | ok hostname =>
    refine ⟨name, ?_, by omega, by omega, ?_, hdot, hnormal⟩
    · have hlistEq : listLength = name.length + 3 := by omega
      have htypeEq : nameType = 0 := not_not.mp hhost
      have hnameEq : nameLength = name.length := by omega
      rw [hlistEq] at hlist
      rw [htypeEq] at htype
      rw [hnameEq] at hname
      rw [← at_zero_iff (by rw [length_serverNameList]; omega), serverNameList_eq]
      refine at_append.mpr ⟨hlist, at_append.mpr ⟨?_, at_append.mpr ⟨?_, ?_⟩⟩⟩
      · rw [length_toBytes]
        exact htype
      · rw [length_toBytes, length_toBytes]
        exact hname
      · rw [length_toBytes, length_toBytes, length_toBytes]
        exact hat
    · intro b hb
      by_contra hout
      exact hprintable ⟨b, hb, by omega⟩

lemma parseSingleServerName_of_name {domainToASCII : List Char → List Char} {name : List UInt8}
    {hostname : List Char} (h : IsHostName domainToASCII name hostname) :
    parseSingleServerName domainToASCII (serverNameList name) = .ok hostname := by
  have hpos := h.pos
  have hle := h.length_le
  have hlength := length_serverNameList name
  have hall : At (serverNameList name) 0 (toBytes 2 (name.length + 3) ++
      (toBytes 1 0 ++ (toBytes 2 name.length ++ name))) := by
    rw [← serverNameList_eq]
    exact List.prefix_refl _
  obtain ⟨hlist, hrest⟩ := at_append.mp hall
  obtain ⟨htype, hrest⟩ := at_append.mp hrest
  obtain ⟨hname, hbytes⟩ := at_append.mp hrest
  simp only [length_toBytes, Nat.reduceAdd] at htype hname hbytes
  have hslice := slice_of_at hbytes (by omega)
  have hfive : name.length = (serverNameList name).length - 5 := by omega
  rw [hfive] at hslice
  rw [parseSingleServerName, bind_ok (rejectIf_of_not (by omega)),
    bind_ok (readUIntBE_of_at hlist (by omega) (by omega)),
    bind_ok (rejectIf_of_not (by omega)),
    bind_ok (readUIntBE_of_at htype (by omega) (by omega)),
    bind_ok (rejectIf_of_not (by omega)),
    bind_ok (readUIntBE_of_at hname (by omega) (by omega)),
    bind_ok (rejectIf_of_not (by omega)), bind_ok hslice,
    bind_ok (rejectIf_of_not ?_), bind_ok (rejectIf_of_not h.no_final_dot), h.normal]
  rintro ⟨b, hb, hout⟩
  have hprintable := h.printable b hb
  omega

/-! ### Extensions -/

structure HelloExtension where
  type : ℕ
  data : List UInt8

namespace HelloExtension

def encode (e : HelloExtension) : List UInt8 := toBytes 2 e.type ++ vector 2 e.data

def WellFormed (e : HelloExtension) : Prop := e.type < 65536 ∧ e.data.length < 65536

@[simp] lemma length_encode (e : HelloExtension) : e.encode.length = 4 + e.data.length := by
  rw [encode, List.length_append, length_toBytes, length_vector]
  omega

end HelloExtension

/-- The server name found in `before` after the extensions have been read. -/
inductive FindsServerName (domainToASCII : List Char → List Char) :
    Option (List Char) → List HelloExtension → Option (List Char) → Prop
  | nil {sni : Option (List Char)} : FindsServerName domainToASCII sni [] sni
  | other {sni found : Option (List Char)} {e : HelloExtension} {rest : List HelloExtension}
      (hech : e.type ≠ 0xfe0d) (htype : e.type ≠ 0)
      (hrest : FindsServerName domainToASCII sni rest found) :
      FindsServerName domainToASCII sni (e :: rest) found
  | serverName {found : Option (List Char)} {e : HelloExtension} {rest : List HelloExtension}
      {name : List UInt8} {hostname : List Char} (htype : e.type = 0)
      (hdata : e.data = serverNameList name) (hname : IsHostName domainToASCII name hostname)
      (hrest : FindsServerName domainToASCII (some hostname) rest found) :
      FindsServerName domainToASCII none (e :: rest) found

section Extensions

variable {domainToASCII : List Char → List Char} {sni found : Option (List Char)}

/-- After a server name there must be no other. -/
lemma findsServerName_some {hostname : List Char} {extensions : List HelloExtension} :
    FindsServerName domainToASCII (some hostname) extensions found ↔
      found = some hostname ∧ ∀ e ∈ extensions, e.type ≠ 0xfe0d ∧ e.type ≠ 0 := by
  constructor
  · intro h
    induction extensions with
    | nil =>
      cases h
      exact ⟨rfl, fun e he => by cases he⟩
    | cons e rest ih =>
      cases h with
      | other hech htype hrest =>
        obtain ⟨hfound, hothers⟩ := ih hrest
        refine ⟨hfound, fun e' he' => ?_⟩
        rcases List.mem_cons.mp he' with rfl | hmem
        · exact ⟨hech, htype⟩
        · exact hothers e' hmem
  · rintro ⟨rfl, hall⟩
    induction extensions with
    | nil => exact .nil
    | cons e rest ih =>
      obtain ⟨hech, htype⟩ := hall e List.mem_cons_self
      exact .other hech htype (ih fun e he => hall e (List.mem_cons_of_mem _ he))

/-- The loop finds a server name exactly in a list with one server_name extension. -/
lemma findsServerName_none {hostname : List Char} {extensions : List HelloExtension} :
    FindsServerName domainToASCII none extensions (some hostname) ↔
      (∀ e ∈ extensions, e.type ≠ 0xfe0d) ∧ ∃ name, IsHostName domainToASCII name hostname ∧
        (extensions.filter fun e => e.type = 0).map (·.data) = [serverNameList name] := by
  induction extensions with
  | nil =>
    constructor
    · intro h
      cases h
    · rintro ⟨-, name, -, hnil⟩
      cases hnil
  | cons e rest ih =>
    by_cases htype : e.type = 0
    · constructor
      · intro h
        cases h with
        | other _ hne => exact absurd htype hne
        | serverName _ hdata hname hrest =>
          obtain ⟨hfound, hothers⟩ := findsServerName_some.mp hrest
          cases hfound
          refine ⟨fun e' he' => ?_, _, hname, ?_⟩
          · rcases List.mem_cons.mp he' with rfl | hmem
            · omega
            · exact (hothers e' hmem).1
          · have hnone : rest.filter (fun e => e.type = 0) = [] :=
              List.filter_eq_nil_iff.mpr fun e' he' => by simpa using (hothers e' he').2
            rw [List.filter_cons_of_pos (by simpa using htype), hnone, List.map_singleton, hdata]
      · rintro ⟨hech, name, hname, hfilter⟩
        rw [List.filter_cons_of_pos (by simpa using htype), List.map_cons] at hfilter
        obtain ⟨hdata, hnone⟩ := List.cons.inj hfilter
        refine .serverName htype hdata hname (findsServerName_some.mpr ⟨rfl, fun e' he' => ?_⟩)
        refine ⟨hech e' (List.mem_cons_of_mem _ he'), ?_⟩
        have hnot := List.filter_eq_nil_iff.mp (List.map_eq_nil_iff.mp hnone) e' he'
        simpa using hnot
    · rw [List.filter_cons_of_neg (by simpa using htype)]
      constructor
      · intro h
        cases h with
        | other hech _ hrest =>
          obtain ⟨hothers, hname⟩ := ih.mp hrest
          refine ⟨fun e' he' => ?_, hname⟩
          rcases List.mem_cons.mp he' with rfl | hmem
          · exact hech
          · exact hothers e' hmem
        | serverName hzero => exact absurd hzero htype
      · rintro ⟨hech, hname⟩
        exact .other (hech e List.mem_cons_self) htype
          (ih.mpr ⟨fun e' he' => hech e' (List.mem_cons_of_mem _ he'), hname⟩)

lemma readExtension_yields (type : ℕ) (data : List UInt8) (sni : Option (List Char)) :
    Yields IsTlsError (fun found => ∀ rest last, FindsServerName domainToASCII found rest last →
        FindsServerName domainToASCII sni (⟨type, data⟩ :: rest) last)
      (readExtension domainToASCII type data sni) := by
  refine (Yields.rejectIf (isTlsError_tls _ _)).bind fun _ hech => ?_
  by_cases htype : type = 0
  · rw [if_pos htype]
    refine (Yields.rejectIf (isTlsError_malformed _)).bind fun _ hfirst => ?_
    refine (parseSingleServerName_yields domainToASCII data).bind fun hostname hparsed => ?_
    obtain ⟨name, hdata, hname⟩ := hparsed
    cases not_not.mp hfirst
    exact fun rest last hrest => .serverName htype hdata hname hrest
  · rw [if_neg htype]
    exact fun rest last hrest => .other hech htype hrest

lemma readExtensions_yields (hello : List UInt8) (fuel offset : ℕ) (sni : Option (List Char))
    (hoffset : offset ≤ hello.length) (hfuel : hello.length < offset + fuel) :
    Yields IsTlsError (fun found => ∃ extensions : List HelloExtension,
        (∀ e ∈ extensions, e.WellFormed) ∧
        At hello offset (extensions.flatMap HelloExtension.encode) ∧
        offset + (extensions.flatMap HelloExtension.encode).length = hello.length ∧
        FindsServerName domainToASCII sni extensions found)
      (readExtensions domainToASCII hello fuel offset sni) := by
  induction fuel generalizing offset sni with
  | zero => omega
  | succ fuel ih =>
    rw [readExtensions]
    by_cases hmore : offset < hello.length
    · rw [if_pos hmore]
      refine requireBytes_yields.bind fun _ hheader => ?_
      refine (readUIntBE_yields _ (by omega)).bind fun type ⟨htypeLt, htype⟩ => ?_
      refine (readUIntBE_yields _ (by omega)).bind fun length ⟨hlengthLt, hlength⟩ => ?_
      refine requireBytes_yields.bind fun _ hbody => ?_
      refine (slice_yields _ hbody).bind fun data ⟨hdataLength, hdata⟩ => ?_
      refine (readExtension_yields type data sni).bind fun found hfound => ?_
      refine (ih (offset + 4 + length) found hbody (by omega)).mono fun last hlast => ?_
      obtain ⟨rest, hwell, hrest, hend, hfinds⟩ := hlast
      have hencode : At hello offset (HelloExtension.mk type data).encode := by
        refine at_append.mpr ⟨htype, at_append.mpr ⟨?_, ?_⟩⟩
        · rw [length_toBytes, hdataLength]
          exact hlength
        · rw [length_toBytes, length_toBytes]
          exact hdata
      refine ⟨⟨type, data⟩ :: rest, ?_, ?_, ?_, hfound rest last hfinds⟩
      · intro e he
        rcases List.mem_cons.mp he with rfl | hmem
        · exact ⟨htypeLt, by rw [hdataLength]; exact hlengthLt⟩
        · exact hwell e hmem
      · rw [List.flatMap_cons]
        refine at_append.mpr ⟨hencode, ?_⟩
        rw [HelloExtension.length_encode, hdataLength, ← Nat.add_assoc]
        exact hrest
      · rw [List.flatMap_cons, List.length_append, HelloExtension.length_encode, hdataLength]
        omega
    · rw [if_neg hmore]
      refine ⟨[], ?_, List.nil_prefix, ?_, .nil⟩
      · intro e he
        cases he
      · rw [List.flatMap_nil, List.length_nil]
        omega

lemma readExtension_of_finds {e : HelloExtension} {rest : List HelloExtension}
    (h : FindsServerName domainToASCII sni (e :: rest) found) :
    ∃ next, readExtension domainToASCII e.type e.data sni = .ok next ∧
      FindsServerName domainToASCII next rest found := by
  cases h with
  | other hech htype hrest =>
    refine ⟨sni, ?_, hrest⟩
    rw [readExtension, bind_ok (rejectIf_of_not hech), if_neg htype]
    rfl
  | serverName htype hdata hname hrest =>
    refine ⟨_, ?_, hrest⟩
    rw [readExtension, bind_ok (rejectIf_of_not (by omega)), if_pos htype,
      bind_ok (rejectIf_of_not (by simp)), hdata, bind_ok (parseSingleServerName_of_name hname)]
    rfl

lemma readExtensions_of_finds {hello : List UInt8} {fuel offset : ℕ}
    {extensions : List HelloExtension} (hwell : ∀ e ∈ extensions, e.WellFormed)
    (hat : At hello offset (extensions.flatMap HelloExtension.encode))
    (hend : offset + (extensions.flatMap HelloExtension.encode).length = hello.length)
    (hfuel : extensions.length < fuel)
    (hfinds : FindsServerName domainToASCII sni extensions found) :
    readExtensions domainToASCII hello fuel offset sni = .ok found := by
  induction extensions generalizing fuel offset sni with
  | nil =>
    cases hfinds
    obtain ⟨fuel, rfl⟩ : ∃ k, fuel = k + 1 := ⟨fuel - 1, by simp at hfuel; omega⟩
    rw [readExtensions, if_neg (by simp at hend; omega)]
  | cons e rest ih =>
    obtain ⟨fuel, rfl⟩ : ∃ k, fuel = k + 1 := ⟨fuel - 1, by simp at hfuel; omega⟩
    obtain ⟨htypeLt, hdataLt⟩ := hwell e List.mem_cons_self
    obtain ⟨next, hread, hnext⟩ := readExtension_of_finds hfinds
    rw [List.flatMap_cons] at hat hend
    rw [List.length_append, HelloExtension.length_encode] at hend
    obtain ⟨hencode, hrest⟩ := at_append.mp hat
    rw [HelloExtension.length_encode, ← Nat.add_assoc] at hrest
    obtain ⟨htype, hvector⟩ := at_append.mp hencode
    obtain ⟨hlength, hdata⟩ := at_append.mp hvector
    simp only [length_toBytes] at hlength hdata
    rw [readExtensions, if_pos (by omega), bind_ok (requireBytes_ok (by omega)),
      bind_ok (readUIntBE_of_at htype (by omega) htypeLt),
      bind_ok (readUIntBE_of_at hlength (by omega) hdataLt),
      bind_ok (requireBytes_ok (by omega)), bind_ok (slice_of_at hdata (by omega)), bind_ok hread]
    refine ih (fun e he => hwell e (List.mem_cons_of_mem _ he)) hrest (by omega) ?_ hnext
    rw [List.length_cons] at hfuel
    omega

end Extensions

/-! ### The ClientHello -/

structure ClientHello where
  legacyVersion : ℕ
  random : List UInt8
  sessionId : List UInt8
  cipherSuites : List UInt8
  compressionMethods : List UInt8
  extensions : List HelloExtension

namespace ClientHello

def encode (h : ClientHello) : List UInt8 :=
  toBytes 2 h.legacyVersion ++ (h.random ++ (vector 1 h.sessionId ++ (vector 2 h.cipherSuites ++
    (vector 1 h.compressionMethods ++ vector 2 (h.extensions.flatMap HelloExtension.encode)))))

lemma length_encode (h : ClientHello) : h.encode.length =
    2 + (h.random.length + (1 + h.sessionId.length + (2 + h.cipherSuites.length +
      (1 + h.compressionMethods.length +
        (2 + (h.extensions.flatMap HelloExtension.encode).length))))) := by
  simp only [encode, List.length_append, length_toBytes, length_vector]

structure WellFormed (h : ClientHello) : Prop where
  version_ge : 0x0301 ≤ h.legacyVersion
  version_le : h.legacyVersion ≤ 0x0303
  length_random : h.random.length = 32
  sessionId_le : h.sessionId.length ≤ 32
  cipherSuites_ge : 2 ≤ h.cipherSuites.length
  cipherSuites_even : h.cipherSuites.length % 2 = 0
  cipherSuites_lt : h.cipherSuites.length < 65536
  compression_pos : 1 ≤ h.compressionMethods.length
  compression_lt : h.compressionMethods.length < 256
  extensions_lt : (h.extensions.flatMap HelloExtension.encode).length < 65536
  extensions_wellFormed : ∀ e ∈ h.extensions, e.WellFormed

/-- The hello has one server_name extension, with one name that is accepted, and no encrypted hello. -/
def Names (isName : List UInt8 → Prop) (h : ClientHello) : Prop :=
  (∀ e ∈ h.extensions, e.type ≠ 0xfe0d) ∧ ∃ name, isName name ∧
    (h.extensions.filter fun e => e.type = 0).map (·.data) = [serverNameList name]

end ClientHello

lemma checkServerName_yields (sni : Option (List Char)) (expected : List Char) :
    Yields IsTlsError (fun _ => sni = some expected) (checkServerName sni expected) := by
  cases sni with
  | none => exact isTlsError_tls _ _
  | some name =>
    refine (Yields.rejectIf (isTlsError_tls _ _)).mono fun _ h => ?_
    rw [not_not.mp h]

theorem validateClientHello_yields (domainToASCII : List Char → List Char) (hello : List UInt8)
    (expected : List Char) :
    Yields IsTlsError (fun _ => ∃ h : ClientHello, hello = h.encode ∧ h.WellFormed ∧
        h.Names fun name => IsHostName domainToASCII name expected)
      (validateClientHello domainToASCII hello expected) := by
  refine requireBytes_yields.bind fun _ hstart => ?_
  refine (readUIntBE_yields _ (by omega)).bind fun version ⟨_, hversion⟩ => ?_
  refine (Yields.rejectIf (isTlsError_malformed _)).bind fun _ hversionOk => ?_
  refine (skipVector_yields hello 34 1 _ _).bind fun afterSession hsession => ?_
  obtain ⟨sessionId, hsessionOk, _, hsessionAt, hsessionNext, hsessionEnd⟩ := hsession
  refine (skipVector_yields hello afterSession 2 _ _).bind fun afterCiphers hciphers => ?_
  obtain ⟨cipherSuites, hciphersOk, hciphersLt, hciphersAt, hciphersNext, hciphersEnd⟩ := hciphers
  refine (skipVector_yields hello afterCiphers 1 _ _).bind fun afterCompression hcompression => ?_
  obtain ⟨compression, hcompressionOk, hcompressionLt, hcompressionAt, hcompressionNext,
    hcompressionEnd⟩ := hcompression
  refine requireBytes_yields.bind fun _ hheader => ?_
  refine (readUIntBE_yields _ hheader).bind fun extensionsLength ⟨hextLt, hextLength⟩ => ?_
  refine (Yields.rejectIf (isTlsError_malformed _)).bind fun _ hextOk => ?_
  refine (readExtensions_yields hello _ _ none hheader (by omega)).bind fun sni hextensions => ?_
  obtain ⟨extensions, hwell, hextAt, hextEnd, hfinds⟩ := hextensions
  refine (checkServerName_yields sni expected).mono fun _ hsni => ?_
  rw [hsni] at hfinds
  have hrandomAt : At hello 2 ((hello.drop 2).take 32) := at_take 32
  have hrandom : ((hello.drop 2).take 32).length = 32 := length_take_drop (by omega)
  simp only [decide_eq_true_eq, Bool.and_eq_true] at hsessionOk hciphersOk hcompressionOk
  subst hsessionNext hciphersNext hcompressionNext
  refine ⟨⟨version, (hello.drop 2).take 32, sessionId, cipherSuites, compression, extensions⟩,
    ?_, ?_, findsServerName_none.mp hfinds⟩
  · rw [← at_zero_iff (by rw [ClientHello.length_encode, hrandom]; dsimp only; omega)]
    refine at_append.mpr ⟨hversion, ?_⟩
    rw [length_toBytes]
    refine at_append.mpr ⟨hrandomAt, ?_⟩
    rw [hrandom]
    refine at_append.mpr ⟨hsessionAt, ?_⟩
    rw [length_vector, ← Nat.add_assoc]
    refine at_append.mpr ⟨hciphersAt, ?_⟩
    rw [length_vector, ← Nat.add_assoc]
    refine at_append.mpr ⟨hcompressionAt, ?_⟩
    rw [length_vector, ← Nat.add_assoc]
    refine at_append.mpr ⟨?_, ?_⟩
    · have hlength : extensionsLength = (extensions.flatMap HelloExtension.encode).length := by
        omega
      rw [← hlength]
      exact hextLength
    · rw [length_toBytes]
      exact hextAt
  · exact {
      version_ge := by show 0x0301 ≤ version; omega
      version_le := by show version ≤ 0x0303; omega
      length_random := hrandom
      sessionId_le := hsessionOk
      cipherSuites_ge := hciphersOk.1
      cipherSuites_even := hciphersOk.2
      cipherSuites_lt := hciphersLt
      compression_pos := hcompressionOk
      compression_lt := hcompressionLt
      extensions_lt := by
        show (extensions.flatMap HelloExtension.encode).length < 65536
        omega
      extensions_wellFormed := hwell }

theorem validateClientHello_of_encode {domainToASCII : List Char → List Char} {h : ClientHello}
    {expected : List Char} (hwell : h.WellFormed)
    (hnames : h.Names fun name => IsHostName domainToASCII name expected) :
    validateClientHello domainToASCII h.encode expected = .ok () := by
  have hlength := h.length_encode
  have hrandom := hwell.length_random
  have hge := hwell.version_ge
  have hle := hwell.version_le
  have hsessionLe := hwell.sessionId_le
  have hall : At h.encode 0 h.encode := List.prefix_refl _
  obtain ⟨hversion, hrest⟩ := at_append.mp hall
  rw [length_toBytes] at hrest
  obtain ⟨-, hrest⟩ := at_append.mp hrest
  rw [hrandom] at hrest
  obtain ⟨hsession, hrest⟩ := at_append.mp hrest
  rw [length_vector, ← Nat.add_assoc] at hrest
  obtain ⟨hciphers, hrest⟩ := at_append.mp hrest
  rw [length_vector, ← Nat.add_assoc] at hrest
  obtain ⟨hcompression, hrest⟩ := at_append.mp hrest
  rw [length_vector, ← Nat.add_assoc] at hrest
  obtain ⟨hextLength, hextensions⟩ := at_append.mp hrest
  rw [length_toBytes] at hextensions
  have hcount := length_le_length_flatMap (f := HelloExtension.encode)
    (fun e => by rw [e.length_encode]; omega) h.extensions
  have hread : readExtensions domainToASCII h.encode (h.encode.length + 1) _ none =
      .ok (some expected) :=
    readExtensions_of_finds hwell.extensions_wellFormed hextensions (by omega) (by omega)
      (findsServerName_none.mpr hnames)
  rw [validateClientHello, bind_ok (requireBytes_ok (by omega)),
    bind_ok (readUIntBE_of_at hversion (by omega) (by omega)),
    bind_ok (rejectIf_of_not (by omega)),
    bind_ok (skipVector_of_at _ hsession (by omega) (by omega) (by simpa using hsessionLe)),
    bind_ok (skipVector_of_at _ hciphers (by omega) hwell.cipherSuites_lt
      (by simp [hwell.cipherSuites_ge, hwell.cipherSuites_even])),
    bind_ok (skipVector_of_at _ hcompression (by omega) hwell.compression_lt
      (by simpa using hwell.compression_pos)),
    bind_ok (requireBytes_ok (by omega)),
    bind_ok (readUIntBE_of_at hextLength (by omega) hwell.extensions_lt),
    bind_ok (rejectIf_of_not (by omega)), bind_ok hread]
  exact rejectIf_of_not (by simp)

end Bloom
