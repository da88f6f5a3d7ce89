import BloomWorkspaces.Library.Base64
import BloomWorkspaces.Library.BigEndian
import BloomWorkspaces.Library.JsString
import BloomWorkspaces.Library.Sha256
import Mathlib.Data.List.DropRight
import Mathlib.Data.List.TakeWhile

/-!
# OpenSSH public keys

`parseSshPublicKey` takes the two first words of a line and reads the second one as a blob of two
length-prefixed strings. It compares the first of them as `toString("ascii")` shows it, which clears the
high bit of every byte, so that other names pass for the algorithm as well.
-/

namespace Bloom

/-- `ssh-ed25519` -/
def algorithmText : List Char := ['s', 's', 'h', '-', 'e', 'd', '2', '5', '5', '1', '9']

def sshEd25519 : List UInt16 := Utf16.encode algorithmText

structure Ed25519Blob where
  algorithm : List UInt16
  key : List UInt8
  consumed : ℕ
  deriving DecidableEq

/-- The closure `readString` of `decodeEd25519Blob`: the bytes and the next offset. -/
def readString (blob : List UInt8) (offset : ℕ) : Except String (List UInt8 × ℕ) :=
  if blob.length < offset + 4 then .error "Invalid SSH public key blob"
  else
    let length := BigEndian.ofBytes ((blob.drop offset).take 4)
    if blob.length - (offset + 4) < length then .error "Invalid SSH public key blob"
    else .ok ((blob.drop (offset + 4)).take length, offset + 4 + length)

/-- `toString("ascii")` -/
def asciiString (bytes : List UInt8) : List UInt16 := bytes.map fun b => UInt16.ofNat (b.toNat % 128)

def decodeEd25519Blob (blob : List UInt8) : Except String Ed25519Blob := do
  let (algorithm, offset) ← readString blob 0
  let (key, consumed) ← readString blob offset
  return ⟨asciiString algorithm, key, consumed⟩

structure ParsedSshPublicKey where
  algorithm : List UInt16
  encoded : List UInt16
  normalized : List UInt16
  fingerprint : List UInt16
  deriving DecidableEq

/-- `SHA256:` and the digest in base64 without its padding. -/
def sshFingerprint (sha256 : List UInt8 → List UInt8) (blob : List UInt8) : List UInt16 :=
  Utf16.encode ("SHA256:".toList ++ (Base64.encode (sha256 blob)).rdropWhile (· = '='))

/-- The second word of the line from its regular expression on. -/
def parseEncodedKey (sha256 : List UInt8 → List UInt8) (encoded : List UInt16) :
    Except String ParsedSshPublicKey :=
  if !Base64.isBase64 (JsString.chars encoded) then .error "Invalid SSH public key encoding"
  else
    let blob := Base64.decode (JsString.chars encoded)
    if Utf16.encode (Base64.encode blob) ≠ encoded then .error "Non-canonical SSH public key encoding"
    else do
      let decoded ← decodeEd25519Blob blob
      if decoded.algorithm ≠ sshEd25519 ∨ decoded.key.length ≠ 32 ∨ decoded.consumed ≠ blob.length then
        .error "Invalid SSH Ed25519 public key"
      else
        return ⟨sshEd25519, encoded, sshEd25519 ++ [32] ++ encoded, sshFingerprint sha256 blob⟩

def parseSshPublicKey (sha256 : List UInt8 → List UInt8) (value : List UInt16) :
    Except String ParsedSshPublicKey :=
  let input := JsString.trim value
  if 1024 < Utf16.byteLength value ∨ 0 ∈ input ∨ 10 ∈ input ∨ 13 ∈ input then
    .error "Invalid SSH public key"
  else
    match JsString.splitOnBlanks input with
    | first :: encoded :: _ =>
      if first ≠ sshEd25519 ∨ encoded = [] then
        .error "Only OpenSSH Ed25519 public keys are supported"
      else parseEncodedKey sha256 encoded
    | _ => .error "Only OpenSSH Ed25519 public keys are supported"

/-! ### Lines and blobs of the format -/

def lengthPrefixed (bytes : List UInt8) : List UInt8 := BigEndian.toBytes 4 bytes.length ++ bytes

/-- The bytes of `ssh-ed25519`. -/
def algorithmName : List UInt8 := Utf8.encode algorithmText

def ed25519Blob (key : List UInt8) : List UInt8 := lengthPrefixed algorithmName ++ lengthPrefixed key

/-- The word `ssh-ed25519`, blanks, the base64 text of a blob, and then nothing or blanks and a comment. -/
def IsKeyLine (input : List UInt16) (blob : List UInt8) : Prop :=
  ∃ blanks rest, input = sshEd25519 ++ blanks ++ (Utf16.encode (Base64.encode blob) ++ rest) ∧
    blanks ≠ [] ∧ (∀ u ∈ blanks, JsString.isBlank u = true) ∧ ∀ u ∈ rest.head?, JsString.isBlank u = true

/-- What is expected of the parser for a value. -/
structure ParsesExactly (sha256 : List UInt8 → List UInt8) (value : List UInt16) : Prop where
  succeeds : (∃ parsed, parseSshPublicKey sha256 value = .ok parsed) ↔
    ∃ key, key.length = 32 ∧ IsKeyLine (JsString.trim value) (ed25519Blob key)
  /-- The normal form has the blob of the value and no comment, and it is parsed to the same result. -/
  normal : ∀ parsed, parseSshPublicKey sha256 value = .ok parsed →
    ∃ blob, IsKeyLine (JsString.trim value) blob ∧
      parsed.normalized = sshEd25519 ++ [32] ++ Utf16.encode (Base64.encode blob) ∧
      parseSshPublicKey sha256 parsed.normalized = .ok parsed

/-! ### Blobs -/

section Blobs

variable {blob name key bytes : List UInt8} {offset next : ℕ}

lemma length_lengthPrefixed (bytes : List UInt8) : (lengthPrefixed bytes).length = 4 + bytes.length := by
  rw [lengthPrefixed, List.length_append, BigEndian.length_toBytes]

lemma readString_ok (h : readString blob offset = .ok (bytes, next)) :
    BigEndian.At blob offset (lengthPrefixed bytes) ∧ next = offset + (lengthPrefixed bytes).length := by
  simp only [readString] at h
  split_ifs at h with hprefix hshort
  obtain ⟨hvalue, hnext⟩ := Prod.mk.inj (Except.ok.inj h)
  have hlength : bytes.length = BigEndian.ofBytes ((blob.drop offset).take 4) := by
    rw [← hvalue, List.length_take, List.length_drop]
    omega
  have hfour : ((blob.drop offset).take 4).length = 4 := by
    rw [List.length_take, List.length_drop]
    omega
  have hnumber : BigEndian.toBytes 4 bytes.length = (blob.drop offset).take 4 := by
    have h := BigEndian.toBytes_ofBytes ((blob.drop offset).take 4)
    rwa [hfour, ← hlength] at h
  rw [length_lengthPrefixed]
  refine ⟨BigEndian.at_append.mpr ⟨?_, ?_⟩, by omega⟩
  · rw [hnumber]
    exact BigEndian.at_take 4
  · rw [BigEndian.length_toBytes, ← hvalue]
    exact BigEndian.at_take _

lemma readString_of_at (h : BigEndian.At blob offset (lengthPrefixed bytes)) (hoffset : offset ≤ blob.length)
    (hbytes : bytes.length < 256 ^ 4) :
    readString blob offset = .ok (bytes, offset + (lengthPrefixed bytes).length) := by
  have hend := h.end_le hoffset
  rw [length_lengthPrefixed] at hend
  obtain ⟨hnumber, hvalue⟩ := BigEndian.at_append.mp h
  have htake := hnumber.take
  rw [BigEndian.length_toBytes] at htake hvalue
  rw [readString, if_neg (by omega), htake, BigEndian.ofBytes_toBytes hbytes]
  simp only []
  rw [if_neg (by omega), hvalue.take, length_lengthPrefixed, Nat.add_assoc]

/-- The decoder finds two length-prefixed strings at the front of the blob. -/
lemma decodeEd25519Blob_ok {decoded : Ed25519Blob} (h : decodeEd25519Blob blob = .ok decoded) :
    ∃ name key, decoded = ⟨asciiString name, key, (lengthPrefixed name ++ lengthPrefixed key).length⟩ ∧
      BigEndian.At blob 0 (lengthPrefixed name ++ lengthPrefixed key) := by
  cases hname : readString blob 0 with
  | error message =>
    rw [decodeEd25519Blob, hname] at h
    cases h
  | ok first =>
    obtain ⟨name, offset⟩ := first
    obtain ⟨hat, hoffset⟩ := readString_ok hname
    cases hkey : readString blob offset with
    | error message =>
      simp only [decodeEd25519Blob, hname, bind, Except.bind, hkey] at h
      cases h
    | ok second =>
      obtain ⟨key, consumed⟩ := second
      simp only [decodeEd25519Blob, hname, bind, Except.bind, hkey] at h
      obtain ⟨hat', hconsumed⟩ := readString_ok hkey
      rw [hoffset] at hat'
      refine ⟨name, key, ?_, BigEndian.at_append.mpr ⟨hat, hat'⟩⟩
      rw [List.length_append, ← Nat.zero_add (lengthPrefixed name).length, ← hoffset, ← hconsumed]
      exact (Except.ok.inj h).symm

lemma decodeEd25519Blob_append (name key : List UInt8) (hname : name.length < 256 ^ 4) (hkey : key.length < 256 ^ 4) :
    decodeEd25519Blob (lengthPrefixed name ++ lengthPrefixed key) =
      .ok ⟨asciiString name, key, (lengthPrefixed name ++ lengthPrefixed key).length⟩ := by
  obtain ⟨hat, hat'⟩ := BigEndian.at_append.mp
    ((BigEndian.at_zero_iff rfl).mpr (Eq.refl (lengthPrefixed name ++ lengthPrefixed key)))
  have hfirst := readString_of_at hat (Nat.zero_le _) hname
  have hsecond := readString_of_at hat' (hat.end_le (Nat.zero_le _)) hkey
  rw [decodeEd25519Blob, hfirst]
  simp only [bind, Except.bind, hsecond]
  rw [List.length_append, Nat.zero_add]
  rfl

/-- The name in front of a blob can be read off when its length is known. -/
lemma name_eq_of_append {name' key' : List UInt8} (hlength : name.length = name'.length)
    (h : lengthPrefixed name ++ lengthPrefixed key = lengthPrefixed name' ++ lengthPrefixed key') :
    name = name' := by
  have hfront := (List.append_inj h (by rw [length_lengthPrefixed, length_lengthPrefixed, hlength])).1
  exact (List.append_inj hfront (by rw [BigEndian.length_toBytes, BigEndian.length_toBytes])).2

lemma length_sshEd25519 : sshEd25519.length = 11 := by decide

lemma length_of_asciiString (h : asciiString name = sshEd25519) : name.length = 11 := by
  rw [← length_sshEd25519, ← h, asciiString, List.length_map]

end Blobs

/-! ### Lines -/

section Lines

variable {sha256 : List UInt8 → List UInt8} {value input : List UInt16} {blob blob' : List UInt8}

lemma chars_encode {text : List Char} (h : ∀ c ∈ text, c.val.toNat < 128) :
    JsString.chars (Utf16.encode text) = text := by
  induction text with
  | nil => rfl
  | cons c text ih =>
    have hc := h c List.mem_cons_self
    rw [Utf16.encode_cons, Utf16.encodeChar, if_pos (by omega), JsString.chars, List.map_append, ← JsString.chars,
      ← JsString.chars, ih fun d hd => h d (List.mem_cons_of_mem _ hd), JsString.chars, List.map_singleton,
      Utf16.toNat_ofNat (by omega), Utf16.ofNat_val]
    rfl

lemma digit_range : ∀ n < 64, 43 ≤ (Base64.digit n).val.toNat ∧ (Base64.digit n).val.toNat < 128 := by
  decide

lemma range_of_mem_encode {c : Char} (h : c ∈ Base64.encode blob) : 43 ≤ c.val.toNat ∧ c.val.toNat < 128 := by
  rcases Base64.mem_encode h with rfl | ⟨n, hn, rfl⟩
  · decide
  · exact digit_range n hn

/-- The units of a base64 text. -/
lemma range_of_mem_units {u : UInt16} (h : u ∈ Utf16.encode (Base64.encode blob)) :
    43 ≤ u.toNat ∧ u.toNat < 128 := by
  obtain ⟨c, hc, hu⟩ := List.mem_flatMap.mp h
  have hrange := range_of_mem_encode hc
  rw [Utf16.encodeChar, if_pos (by omega), List.mem_singleton] at hu
  rw [hu, Utf16.toNat_ofNat (by omega)]
  exact hrange

lemma isWhiteSpace_of_range : ∀ n < 128, 43 ≤ n → JsString.isWhiteSpace (UInt16.ofNat n) = false := by
  decide

lemma isWhiteSpace_of_mem_encode {u : UInt16} (h : u ∈ Utf16.encode (Base64.encode blob)) :
    JsString.isWhiteSpace u = false := by
  obtain ⟨hlow, hhigh⟩ := range_of_mem_units h
  have hspace := isWhiteSpace_of_range u.toNat hhigh hlow
  rwa [UInt16.ofNat_toNat] at hspace

lemma isBlank_of_isWhiteSpace {u : UInt16} (h : JsString.isWhiteSpace u = false) :
    JsString.isBlank u = false := by
  simp only [JsString.isWhiteSpace, Bool.or_eq_false_iff, decide_eq_false_iff_not] at h
  rw [JsString.isBlank, Bool.or_eq_false_iff, decide_eq_false_iff_not, decide_eq_false_iff_not]
  refine ⟨h.1.1.1.1.1.1.1.1.1.2, ?_⟩
  rintro rfl
  exact absurd h.1.1.1.1.1.1.1.1.1.1 (by decide)

lemma isWhiteSpace_sshEd25519 : ∀ u ∈ sshEd25519, JsString.isWhiteSpace u = false := by
  have hall : sshEd25519.all (fun u => !JsString.isWhiteSpace u) = true := by decide
  intro u hu
  simpa using List.all_eq_true.mp hall u hu

lemma isBlank_sshEd25519 : ∀ u ∈ sshEd25519, JsString.isBlank u = false :=
  fun u hu => isBlank_of_isWhiteSpace (isWhiteSpace_sshEd25519 u hu)

lemma encode_blob_ne_nil (hne : blob ≠ []) : Utf16.encode (Base64.encode blob) ≠ [] := by
  apply Utf16.encode_ne_nil
  intro hnil
  have hdecode := Base64.decode_encode blob
  rw [hnil] at hdecode
  exact hne hdecode.symm

/-- The lines of the format by their two first words. -/
lemma isKeyLine_iff (hne : blob ≠ []) : IsKeyLine input blob ↔
    ∃ others, JsString.splitOnBlanks input =
      sshEd25519 :: Utf16.encode (Base64.encode blob) :: others := by
  constructor
  · rintro ⟨blanks, rest, rfl, hblanks, hall, hrest⟩
    have hword : ∀ u ∈ Utf16.encode (Base64.encode blob), JsString.isBlank u = false :=
      fun u hu => isBlank_of_isWhiteSpace (isWhiteSpace_of_mem_encode hu)
    have hhead : ∀ u ∈ (Utf16.encode (Base64.encode blob) ++ rest).head?, JsString.isBlank u = false := by
      intro u hu
      rw [List.head?_append_of_ne_nil _ (encode_blob_ne_nil hne)] at hu
      exact hword u (List.mem_of_mem_head? hu)
    rw [JsString.splitOnBlanks_field isBlank_sshEd25519 hblanks hall hhead]
    cases hcases : rest with
    | nil => exact ⟨[], by rw [List.append_nil, JsString.splitOnBlanks_last hword]⟩
    | cons v tail =>
      have hv : JsString.isBlank v = true := hrest v (by rw [hcases]; rfl)
      have hrun : (v :: tail).takeWhile JsString.isBlank ≠ [] := by
        rw [List.takeWhile_cons, hv, if_pos rfl]
        exact List.cons_ne_nil _ _
      refine ⟨JsString.splitOnBlanks ((v :: tail).dropWhile JsString.isBlank), ?_⟩
      rw [← List.takeWhile_append_dropWhile (p := JsString.isBlank) (l := v :: tail), ← List.append_assoc,
        JsString.splitOnBlanks_field hword hrun (fun u hu => List.mem_takeWhile_imp hu),
        List.takeWhile_append_dropWhile]
      intro u hu
      have h := List.head?_dropWhile_not JsString.isBlank (v :: tail)
      rw [Option.mem_def.mp hu] at h
      exact h
  · rintro ⟨others, hsplit⟩
    obtain ⟨-, hcases⟩ := JsString.of_splitOnBlanks hsplit
    rcases hcases with ⟨-, hnil⟩ | ⟨blanks, tail, rfl, hblanks, hall, -, hothers⟩
    · exact absurd hnil (List.cons_ne_nil _ _)
    · obtain ⟨-, hcases⟩ := JsString.of_splitOnBlanks hothers.symm
      rcases hcases with ⟨htail, -⟩ | ⟨blanks', rest, htail, hblanks', hall', -, -⟩
      · exact ⟨blanks, [], by rw [htail, List.append_nil], hblanks, hall, fun u hu => absurd hu (Option.not_mem_none u)⟩
      · refine ⟨blanks, blanks' ++ rest, by rw [htail, List.append_assoc (Utf16.encode _)], hblanks, hall, ?_⟩
        intro u hu
        rw [List.head?_append_of_ne_nil _ hblanks'] at hu
        exact hall' u (List.mem_of_mem_head? hu)

lemma IsKeyLine.blob_eq (h : IsKeyLine input blob) (h' : IsKeyLine input blob') (hne : blob ≠ [])
    (hne' : blob' ≠ []) : blob = blob' := by
  obtain ⟨others, hsplit⟩ := (isKeyLine_iff hne).mp h
  obtain ⟨others', hsplit'⟩ := (isKeyLine_iff hne').mp h'
  have hencoded := (List.cons.inj (List.cons.inj (hsplit.symm.trans hsplit')).2).1
  have hdecode := congrArg Base64.decode (Utf16.encode_injective hencoded)
  rwa [Base64.decode_encode, Base64.decode_encode] at hdecode

/-- The result for a blob. -/
def parsedKey (sha256 : List UInt8 → List UInt8) (blob : List UInt8) : ParsedSshPublicKey :=
  ⟨sshEd25519, Utf16.encode (Base64.encode blob), sshEd25519 ++ [32] ++ Utf16.encode (Base64.encode blob),
    sshFingerprint sha256 blob⟩

/-- The blobs that pass: the name is compared without the high bits of its bytes. -/
def Passes (blob : List UInt8) : Prop :=
  ∃ name key, asciiString name = sshEd25519 ∧ key.length = 32 ∧ blob = lengthPrefixed name ++ lengthPrefixed key

lemma Passes.ne_nil (h : Passes blob) : blob ≠ [] := by
  obtain ⟨name, key, -, -, rfl⟩ := h
  intro hnil
  have hlength := congrArg List.length hnil
  rw [List.length_append, length_lengthPrefixed, List.length_nil] at hlength
  omega

lemma parseEncodedKey_ok {encoded : List UInt16} {parsed : ParsedSshPublicKey} :
    parseEncodedKey sha256 encoded = .ok parsed ↔
      ∃ blob, Passes blob ∧ encoded = Utf16.encode (Base64.encode blob) ∧ parsed = parsedKey sha256 blob := by
  constructor
  · intro h
    simp only [parseEncodedKey] at h
    split_ifs at h with hbase64 hcanonical
    cases hdecoded : decodeEd25519Blob (Base64.decode (JsString.chars encoded)) with
    | error message =>
      rw [hdecoded] at h
      cases h
    | ok decoded =>
      rw [hdecoded] at h
      simp only [bind, Except.bind] at h
      split_ifs at h with hkey
      simp only [not_or, not_not] at hkey hcanonical
      obtain ⟨name, key, rfl, hat⟩ := decodeEd25519Blob_ok hdecoded
      obtain ⟨hname, hlength, hconsumed⟩ := hkey
      have hblob := (BigEndian.at_zero_iff hconsumed).mp hat
      refine ⟨_, ⟨name, key, hname, hlength, hblob⟩, hcanonical.symm, ?_⟩
      rw [parsedKey, hcanonical]
      exact (Except.ok.inj h).symm
  · rintro ⟨blob, hpasses, rfl, rfl⟩
    have hchars : JsString.chars (Utf16.encode (Base64.encode blob)) = Base64.encode blob :=
      chars_encode fun c hc => (range_of_mem_encode hc).2
    obtain ⟨name, key, hname, hkey, hblob⟩ := hpasses
    have hshort := length_of_asciiString hname
    have hdecoded := decodeEd25519Blob_append name key
      (by rw [hshort]; decide) (by rw [hkey]; decide)
    rw [← hblob] at hdecoded
    simp only [parseEncodedKey, hchars, Base64.isBase64_encode, Base64.decode_encode, hdecoded, bind, Except.bind,
      hname, hkey]
    simp [parsedKey, pure, Except.pure]

/-- What is accepted within the length and without the forbidden units. -/
lemma parseSshPublicKey_ok {parsed : ParsedSshPublicKey} (hlength : Utf16.byteLength value ≤ 1024)
    (hclean : 0 ∉ JsString.trim value ∧ 10 ∉ JsString.trim value ∧ 13 ∉ JsString.trim value) :
    parseSshPublicKey sha256 value = .ok parsed ↔
      ∃ blob, Passes blob ∧ IsKeyLine (JsString.trim value) blob ∧ parsed = parsedKey sha256 blob := by
  have hfirst : ¬(1024 < Utf16.byteLength value ∨ 0 ∈ JsString.trim value ∨ 10 ∈ JsString.trim value ∨
      13 ∈ JsString.trim value) := by
    simp only [not_or, Nat.not_lt]
    exact ⟨hlength, hclean⟩
  rw [parseSshPublicKey]
  simp only [if_neg hfirst]
  constructor
  · intro h
    split at h
    · rename_i first encoded others hsplit
      split_ifs at h with hword
      simp only [not_or, not_not] at hword
      obtain ⟨blob, hpasses, rfl, rfl⟩ := parseEncodedKey_ok.mp h
      refine ⟨blob, hpasses, (isKeyLine_iff hpasses.ne_nil).mpr ⟨others, ?_⟩, rfl⟩
      rw [hsplit, hword.1]
    · cases h
  · rintro ⟨blob, hpasses, hline, rfl⟩
    obtain ⟨others, hsplit⟩ := (isKeyLine_iff hpasses.ne_nil).mp hline
    have hword : ¬(sshEd25519 ≠ sshEd25519 ∨ Utf16.encode (Base64.encode blob) = []) :=
      not_or.mpr ⟨not_not.mpr rfl, encode_blob_ne_nil hpasses.ne_nil⟩
    simp only [hsplit, if_neg hword]
    exact parseEncodedKey_ok.mpr ⟨blob, hpasses, rfl, rfl⟩

/-- The normal form of a blob: the algorithm, one space and the base64 text. -/
def normalForm (blob : List UInt8) : List UInt16 :=
  sshEd25519 ++ [32] ++ Utf16.encode (Base64.encode blob)

lemma trim_normalForm (hne : blob ≠ []) : JsString.trim (normalForm blob) = normalForm blob := by
  apply JsString.trim_eq_self
  · intro u hu
    rw [normalForm, List.append_assoc, List.head?_append_of_ne_nil _ (by decide)] at hu
    exact isWhiteSpace_sshEd25519 u (List.mem_of_mem_head? hu)
  · intro u hu
    rw [normalForm, List.getLast?_append_of_ne_nil _ (encode_blob_ne_nil hne)] at hu
    exact isWhiteSpace_of_mem_encode (List.mem_of_mem_getLast? hu)

lemma isBlank_space (u : UInt16) (hu : u ∈ ([32] : List UInt16)) : JsString.isBlank u = true := by
  rw [List.mem_singleton.mp hu]
  decide

lemma isKeyLine_normalForm : IsKeyLine (normalForm blob) blob :=
  ⟨[32], [], by rw [List.append_nil, normalForm], List.cons_ne_nil _ _, isBlank_space,
    fun u hu => absurd hu (Option.not_mem_none u)⟩

lemma Passes.length_eq (h : Passes blob) : blob.length = 51 := by
  obtain ⟨name, key, hname, hkey, rfl⟩ := h
  rw [List.length_append, length_lengthPrefixed, length_lengthPrefixed, length_of_asciiString hname, hkey]

lemma byteLength_normalForm (h : Passes blob) : Utf16.byteLength (normalForm blob) ≤ 1024 := by
  have hencode : normalForm blob = Utf16.encode (algorithmText ++ [' '] ++ Base64.encode blob) := by
    rw [Utf16.encode_append, Utf16.encode_append]
    rfl
  have hle := Utf8.length_encode_le (algorithmText ++ [' '] ++ Base64.encode blob)
  have htext : algorithmText.length = 11 := rfl
  rw [List.length_append, List.length_append, Base64.length_encode, h.length_eq, htext, List.length_singleton] at hle
  rw [hencode, Utf16.byteLength_of_decode (Utf16.decode_encode _)]
  omega

/-- The normal form has no control unit. -/
lemma notMem_normalForm {u : UInt16} (hu : u.toNat < 32) : u ∉ normalForm blob := by
  have hname : sshEd25519.all (fun v => decide (32 ≤ v.toNat)) = true := by decide
  intro h
  rw [normalForm, List.mem_append, List.mem_append, List.mem_singleton] at h
  rcases h with (h | rfl) | h
  · exact absurd (of_decide_eq_true (List.all_eq_true.mp hname u h)) (by omega)
  · exact absurd hu (by decide)
  · have hrange := range_of_mem_units h
    omega

/-- A value is parsed to the normal form of its blob, and the normal form to the same result. -/
lemma normal_of_ok {parsed : ParsedSshPublicKey} (hlength : Utf16.byteLength value ≤ 1024)
    (hclean : 0 ∉ JsString.trim value ∧ 10 ∉ JsString.trim value ∧ 13 ∉ JsString.trim value)
    (h : parseSshPublicKey sha256 value = .ok parsed) :
    ∃ blob, IsKeyLine (JsString.trim value) blob ∧ parsed.normalized = normalForm blob ∧
      parseSshPublicKey sha256 parsed.normalized = .ok parsed := by
  obtain ⟨blob, hpasses, hline, rfl⟩ := (parseSshPublicKey_ok hlength hclean).mp h
  have htrim := trim_normalForm hpasses.ne_nil
  refine ⟨blob, hline, rfl, (parseSshPublicKey_ok (byteLength_normalForm hpasses) ?_).mpr ⟨blob, hpasses, ?_, rfl⟩⟩
  · rw [htrim]
    exact ⟨notMem_normalForm (by decide), notMem_normalForm (by decide), notMem_normalForm (by decide)⟩
  · rw [htrim]
    exact isKeyLine_normalForm

end Lines

section Exact

variable {sha256 : List UInt8 → List UInt8} {value : List UInt16}

lemma asciiString_algorithmName : asciiString algorithmName = sshEd25519 := by decide

/-- Where the parser is exact, the name that passes is the name of the algorithm. -/
lemma ParsesExactly.name_eq (h : ParsesExactly sha256 value) (hlength : Utf16.byteLength value ≤ 1024)
    (hclean : 0 ∉ JsString.trim value ∧ 10 ∉ JsString.trim value ∧ 13 ∉ JsString.trim value)
    {name key : List UInt8} (hkey : key.length = 32) (hname : asciiString name = sshEd25519)
    (hline : IsKeyLine (JsString.trim value) (lengthPrefixed name ++ lengthPrefixed key)) :
    name = algorithmName := by
  have hpasses : Passes (lengthPrefixed name ++ lengthPrefixed key) := ⟨name, key, hname, hkey, rfl⟩
  obtain ⟨key', hkey', hline'⟩ := h.succeeds.mp
    ⟨_, (parseSshPublicKey_ok hlength hclean).mpr ⟨_, hpasses, hline, rfl⟩⟩
  have hpasses' : Passes (ed25519Blob key') := ⟨algorithmName, key', asciiString_algorithmName, hkey', rfl⟩
  have hblob := hline.blob_eq hline' hpasses.ne_nil hpasses'.ne_nil
  exact name_eq_of_append (by rw [length_of_asciiString hname, length_of_asciiString asciiString_algorithmName]) hblob

end Exact

/-- The parser is exact for a value unless its blob has a name that is not `ssh-ed25519` and that becomes
`ssh-ed25519` when the high bits of its bytes are cleared. -/
theorem parsesExactly_iff (sha256 : List UInt8 → List UInt8) (value : List UInt16)
    (hlength : Utf16.byteLength value ≤ 1024)
    (hclean : 0 ∉ JsString.trim value ∧ 10 ∉ JsString.trim value ∧ 13 ∉ JsString.trim value) :
    ParsesExactly sha256 value ↔
      ∀ name key, key.length = 32 → asciiString name = sshEd25519 →
        IsKeyLine (JsString.trim value) (lengthPrefixed name ++ lengthPrefixed key) → name = algorithmName := by
  constructor
  · intro hexact name key hkey hname hline
    exact hexact.name_eq hlength hclean hkey hname hline
  · intro hname
    refine ⟨⟨?_, ?_⟩, fun parsed h => normal_of_ok hlength hclean h⟩
    · rintro ⟨parsed, h⟩
      obtain ⟨blob, ⟨name, key, hascii, hkey, rfl⟩, hline, -⟩ := (parseSshPublicKey_ok hlength hclean).mp h
      obtain rfl := hname name key hkey hascii hline
      exact ⟨key, hkey, hline⟩
    · rintro ⟨key, hkey, hline⟩
      exact ⟨_, (parseSshPublicKey_ok hlength hclean).mpr
        ⟨ed25519Blob key, ⟨algorithmName, key, asciiString_algorithmName, hkey, rfl⟩, hline, rfl⟩⟩

/-- The blob with a key of zeros. -/
theorem parsesExactly_zeroKey :
    ParsesExactly Sha256.digest (normalForm (ed25519Blob (List.replicate 32 0))) ↔
      ∀ name key, key.length = 32 → asciiString name = sshEd25519 →
        IsKeyLine (JsString.trim (normalForm (ed25519Blob (List.replicate 32 0))))
          (lengthPrefixed name ++ lengthPrefixed key) → name = algorithmName := by
  have hpasses : Passes (ed25519Blob (List.replicate 32 0)) :=
    ⟨algorithmName, List.replicate 32 0, asciiString_algorithmName, rfl, rfl⟩
  refine parsesExactly_iff Sha256.digest _ (byteLength_normalForm hpasses) ?_
  rw [trim_normalForm hpasses.ne_nil]
  exact ⟨notMem_normalForm (by decide), notMem_normalForm (by decide), notMem_normalForm (by decide)⟩

/-- `ssh-ed25519` with the high bit in its first byte. -/
def maskedName : List UInt8 := [243, 115, 104, 45, 101, 100, 50, 53, 53, 49, 57]

/-- A blob with this name is accepted. -/
theorem parsesExactly_fails :
    ¬ParsesExactly Sha256.digest
      (normalForm (lengthPrefixed maskedName ++ lengthPrefixed (List.replicate 32 0))) := by
  intro hexact
  have hascii : asciiString maskedName = sshEd25519 := by decide
  have hpasses : Passes (lengthPrefixed maskedName ++ lengthPrefixed (List.replicate 32 0)) :=
    ⟨maskedName, List.replicate 32 0, hascii, rfl, rfl⟩
  have htrim := trim_normalForm hpasses.ne_nil
  have hname := hexact.name_eq (byteLength_normalForm hpasses)
    (by rw [htrim]
        exact ⟨notMem_normalForm (by decide), notMem_normalForm (by decide), notMem_normalForm (by decide)⟩)
    (List.length_replicate (n := 32)) hascii (by rw [htrim]; exact isKeyLine_normalForm)
  exact absurd hname (by decide)

end Bloom
