import BloomWorkspaces.Agent.Egress.ClientHello

/-!
# Inspecting a handshake

What the records of a handshake are, that `inspectTlsClientHello` is complete exactly at the end of
records with one ClientHello, and that it judges the records as it judges their payload.
-/

namespace Bloom

open BigEndian Checked

/-! ### Records -/

structure TlsRecord where
  version : ℕ
  payload : List UInt8

namespace TlsRecord

def encode (r : TlsRecord) : List UInt8 :=
  toBytes 1 22 ++ (toBytes 2 r.version ++ vector 2 r.payload)

structure WellFormed (r : TlsRecord) : Prop where
  version_ge : 0x0301 ≤ r.version
  version_le : r.version ≤ 0x0304
  pos : 1 ≤ r.payload.length
  length_le : r.payload.length ≤ maxTlsRecordPayload

lemma length_encode (r : TlsRecord) : r.encode.length = 5 + r.payload.length := by
  rw [encode, List.length_append, List.length_append, length_toBytes, length_toBytes, length_vector]
  omega

end TlsRecord

def encodings (records : List TlsRecord) : List UInt8 := records.flatMap TlsRecord.encode

def payloads (records : List TlsRecord) : List UInt8 := records.flatMap TlsRecord.payload

lemma length_encodings_cons (r : TlsRecord) (rest : List TlsRecord) :
    (encodings (r :: rest)).length = 5 + r.payload.length + (encodings rest).length := by
  rw [encodings, List.flatMap_cons, List.length_append, TlsRecord.length_encode]
  rfl

lemma length_le_encodings (records : List TlsRecord) :
    records.length ≤ (encodings records).length :=
  length_le_length_flatMap (fun r => by rw [r.length_encode]; omega) records

lemma length_payloads_le (records : List TlsRecord) :
    (payloads records).length ≤ (encodings records).length := by
  induction records with
  | nil => exact Nat.le_refl _
  | cons r rest ih =>
    rw [length_encodings_cons, payloads, List.flatMap_cons, List.length_append]
    exact Nat.add_le_add (Nat.le_add_left _ _) ih

/-- No record is empty, so each brings the handshake on. -/
lemma payloads_ne_nil {records : List TlsRecord} (hwell : ∀ r ∈ records, r.WellFormed)
    (hne : records ≠ []) : payloads records ≠ [] := by
  cases records with
  | nil => exact absurd rfl hne
  | cons r rest =>
    intro hnil
    have hlength := congrArg List.length hnil
    rw [payloads, List.flatMap_cons, List.length_append, List.length_nil] at hlength
    have hpos := (hwell r List.mem_cons_self).pos
    omega

lemma readRecord_yields (input : List UInt8) (limit offset : ℕ) :
    Yields IsTlsError (fun record => ∀ payload recordEnd, record = some (payload, recordEnd) →
        ∃ version, (TlsRecord.mk version payload).WellFormed ∧
          At input offset (TlsRecord.mk version payload).encode ∧
          recordEnd = offset + 5 + payload.length ∧ recordEnd ≤ limit ∧ recordEnd ≤ input.length)
      (readRecord input limit offset) := by
  rw [readRecord]
  by_cases hheader : input.length < offset + 5
  · rw [if_pos hheader]
    rintro payload recordEnd ⟨⟩
  · rw [if_neg hheader]
    refine (readUIntBE_yields _ (by omega)).bind fun contentType ⟨_, htype⟩ => ?_
    refine (Yields.rejectIf (isTlsError_tls _ _)).bind fun _ htypeOk => ?_
    refine (readUIntBE_yields _ (by omega)).bind fun version ⟨_, hversion⟩ => ?_
    refine (Yields.rejectIf (isTlsError_tls _ _)).bind fun _ hversionOk => ?_
    refine (readUIntBE_yields _ (by omega)).bind fun length ⟨_, hlength⟩ => ?_
    refine (Yields.rejectIf (isTlsError_malformed _)).bind fun _ hlengthOk => ?_
    refine (Yields.rejectIf isTlsError_tooLarge).bind fun _ hlimit => ?_
    by_cases hshort : input.length < offset + 5 + length
    · rw [if_pos hshort]
      rintro payload recordEnd ⟨⟩
    · rw [if_neg hshort]
      refine (slice_yields _ (by omega)).bind fun bytes ⟨hbytesLength, hbytes⟩ => ?_
      rintro payload recordEnd ⟨⟩
      subst hbytesLength
      refine ⟨version, ?_, ?_, rfl, by omega, by omega⟩
      · exact {
          version_ge := by show 0x0301 ≤ version; omega
          version_le := by show version ≤ 0x0304; omega
          pos := by show 1 ≤ bytes.length; omega
          length_le := by show bytes.length ≤ maxTlsRecordPayload; omega }
      · rw [not_not.mp htypeOk] at htype
        refine at_append.mpr ⟨htype, at_append.mpr ⟨?_, at_append.mpr ⟨?_, ?_⟩⟩⟩
        · rw [length_toBytes]
          exact hversion
        · rw [length_toBytes, length_toBytes]
          exact hlength
        · rw [length_toBytes, length_toBytes, length_toBytes]
          exact hbytes

lemma readRecord_of_at {input : List UInt8} {limit offset : ℕ} {r : TlsRecord}
    (hwell : r.WellFormed) (hat : At input offset r.encode) (hoffset : offset ≤ input.length)
    (hlimit : input.length ≤ limit) :
    readRecord input limit offset = .ok (some (r.payload, offset + 5 + r.payload.length)) := by
  have hend := hat.end_le hoffset
  rw [r.length_encode] at hend
  have hge := hwell.version_ge
  have hle := hwell.version_le
  have hpos := hwell.pos
  have hmax := hwell.length_le
  have hword : maxTlsRecordPayload < 256 ^ 2 := by decide
  obtain ⟨htype, hrest⟩ := at_append.mp hat
  obtain ⟨hversion, hrest⟩ := at_append.mp hrest
  obtain ⟨hlength, hpayload⟩ := at_append.mp hrest
  simp only [length_toBytes, Nat.add_assoc, Nat.reduceAdd] at hversion hlength hpayload
  rw [readRecord, if_neg (by omega), bind_ok (readUIntBE_of_at htype hoffset (by omega)),
    bind_ok (rejectIf_of_not (by omega)),
    bind_ok (readUIntBE_of_at hversion (by omega) (by omega)),
    bind_ok (rejectIf_of_not (by omega)),
    bind_ok (readUIntBE_of_at hlength (by omega) (by omega)),
    bind_ok (rejectIf_of_not (by omega)), bind_ok (rejectIf_of_not (by omega)),
    if_neg (by omega), bind_ok (slice_of_at hpayload (by omega))]
  rfl

/-! ### The handshake -/

/-- The handshake message of a ClientHello. -/
def ClientHello.frame (h : ClientHello) : List UInt8 := toBytes 1 1 ++ vector 3 h.encode

lemma ClientHello.length_frame (h : ClientHello) : h.frame.length = h.encode.length + 4 := by
  rw [frame, List.length_append, length_toBytes, length_vector]
  omega

lemma ClientHello.WellFormed.length_encode_lt {h : ClientHello} (hwell : h.WellFormed) :
    h.encode.length < 256 ^ 3 := by
  have hlength := h.length_encode
  have hrandom := hwell.length_random
  have hsession := hwell.sessionId_le
  have hciphers := hwell.cipherSuites_lt
  have hcompression := hwell.compression_lt
  have hextensions := hwell.extensions_lt
  omega

/-- The length of the first handshake message, as its header declares it. -/
def framedLength (handshake : List UInt8) : ℕ := ofBytes ((handshake.drop 1).take 3) + 4

lemma ClientHello.WellFormed.framedLength_frame {h : ClientHello} (hwell : h.WellFormed) :
    framedLength h.frame = h.frame.length := by
  have hall : At h.frame 0 h.frame := List.prefix_refl _
  obtain ⟨-, hrest⟩ := at_append.mp hall
  have hdeclared := (at_append.mp hrest).1.take
  simp only [length_toBytes, Nat.reduceAdd] at hdeclared
  rw [framedLength, hdeclared, ofBytes_toBytes hwell.length_encode_lt, h.length_frame]

/-- Nothing follows the first handshake message. -/
def AtMostOneMessage (handshake : List UInt8) : Prop :=
  handshake.length < 4 ∨ handshake.length ≤ framedLength handshake

lemma framedLength_append {handshake : List UInt8} (rest : List UInt8)
    (hheader : 4 ≤ handshake.length) :
    framedLength (handshake ++ rest) = framedLength handshake := by
  have hdrop := List.length_drop (l := handshake) (i := 1)
  rw [framedLength, framedLength, List.drop_append_of_le_length (by omega),
    List.take_append_of_le_length (by omega)]

section Handshake

variable {domainToASCII : List Char → List Char} {expected : List Char} {limit : ℕ}

lemma checkHandshake_yields (domainToASCII : List Char → List Char) (expected : List Char)
    (limit : ℕ) (handshake : List UInt8) :
    Yields IsTlsError (fun done => done = true → ∃ h : ClientHello, handshake = h.frame ∧
        h.WellFormed ∧ h.Names fun name => IsHostName domainToASCII name expected)
      (checkHandshake domainToASCII expected limit handshake) := by
  rw [checkHandshake]
  by_cases hheader : handshake.length < 4
  · rw [if_pos hheader]
    intro hdone
    cases hdone
  · rw [if_neg hheader]
    refine (readUIntBE_yields _ (by omega)).bind fun messageType ⟨_, htype⟩ => ?_
    refine (Yields.rejectIf (isTlsError_tls _ _)).bind fun _ htypeOk => ?_
    refine (readUIntBE_yields _ (by omega)).bind fun helloLength ⟨_, hlength⟩ => ?_
    refine (Yields.rejectIf isTlsError_tooLarge).bind fun _ _ => ?_
    by_cases hshort : handshake.length < helloLength + 4
    · rw [if_pos hshort]
      intro hdone
      cases hdone
    · rw [if_neg hshort]
      refine (Yields.rejectIf (isTlsError_malformed _)).bind fun _ hexact => ?_
      refine (slice_yields _ (by omega)).bind fun hello ⟨hhelloLength, hhello⟩ => ?_
      refine (validateClientHello_yields _ hello expected).bind fun _ hvalid => ?_
      obtain ⟨h, rfl, hwell, hnames⟩ := hvalid
      intro _
      subst hhelloLength
      refine ⟨h, ?_, hwell, hnames⟩
      rw [not_not.mp htypeOk] at htype
      rw [← at_zero_iff (by rw [h.length_frame]; omega)]
      refine at_append.mpr ⟨htype, at_append.mpr ⟨?_, ?_⟩⟩
      · rw [length_toBytes]
        exact hlength
      · rw [length_toBytes, length_toBytes]
        exact hhello

lemma checkHandshake_of_frame {h : ClientHello} (hwell : h.WellFormed)
    (hnames : h.Names fun name => IsHostName domainToASCII name expected)
    (hlimit : h.frame.length ≤ limit) :
    checkHandshake domainToASCII expected limit h.frame = .ok true := by
  have hlength := h.length_frame
  have hlt := hwell.length_encode_lt
  have hall : At h.frame 0 h.frame := List.prefix_refl _
  obtain ⟨htype, hrest⟩ := at_append.mp hall
  obtain ⟨hdeclared, hhello⟩ := at_append.mp hrest
  simp only [length_toBytes, Nat.reduceAdd] at hdeclared hhello
  rw [checkHandshake, if_neg (by omega), bind_ok (readUIntBE_of_at htype (by omega) (by omega)),
    bind_ok (rejectIf_of_not (by omega)),
    bind_ok (readUIntBE_of_at hdeclared (by omega) hlt),
    bind_ok (rejectIf_of_not (by omega)), if_neg (by omega),
    bind_ok (rejectIf_of_not (by omega)), bind_ok (slice_of_at hhello (by omega)),
    bind_ok (validateClientHello_of_encode hwell hnames)]
  rfl

/-- A part of a message asks for more, unless its header is refused as that of the whole is. -/
lemma checkHandshake_append {handshake rest : List UInt8} (hne : rest ≠ [])
    (hone : AtMostOneMessage (handshake ++ rest)) :
    checkHandshake domainToASCII expected limit handshake = .ok false ∨
      ∃ e, checkHandshake domainToASCII expected limit handshake = .error e ∧
        checkHandshake domainToASCII expected limit (handshake ++ rest) = .error e := by
  have hrest := List.length_pos_of_ne_nil hne
  have hlength : (handshake ++ rest).length = handshake.length + rest.length :=
    List.length_append
  by_cases hheader : handshake.length < 4
  · exact .inl (by rw [checkHandshake, if_pos hheader])
  have htype : readUIntBE handshake 0 1 = .ok _ := readUIntBE_ok (by omega)
  have hdeclared : readUIntBE handshake 1 3 = .ok _ := readUIntBE_ok (by omega)
  have htype' := (readUIntBE_append rest (by omega)).trans htype
  have hdeclared' := (readUIntBE_append rest (by omega)).trans hdeclared
  have hshort : handshake.length < ofBytes ((handshake.drop 1).take 3) + 4 := by
    have hframed := framedLength_append rest (Nat.not_lt.mp hheader)
    rw [AtMostOneMessage, hframed, framedLength] at hone
    omega
  rw [checkHandshake, checkHandshake, if_neg hheader, if_neg (by omega), bind_ok htype,
    bind_ok htype', bind_ok hdeclared, bind_ok hdeclared', if_pos hshort]
  generalize ofBytes ((handshake.drop 0).take 1) = messageType
  generalize ofBytes ((handshake.drop 1).take 3) = helloLength
  by_cases hother : messageType ≠ 1
  · exact .inr ⟨_, bind_rejectIf hother _ _, bind_rejectIf hother _ _⟩
  rw [bind_ok (rejectIf_of_not hother), bind_ok (rejectIf_of_not hother)]
  by_cases hlarge : limit < helloLength + 4
  · exact .inr ⟨_, bind_rejectIf hlarge _ _, bind_rejectIf hlarge _ _⟩
  · exact .inl (bind_ok (rejectIf_of_not hlarge) _)

/-- What follows cannot change a verdict, and nothing follows an accepted message. -/
lemma checkHandshake_decided {handshake rest : List UInt8} {verdict : Except Thrown Bool}
    (hone : AtMostOneMessage (handshake ++ rest))
    (hpart : checkHandshake domainToASCII expected limit handshake = verdict)
    (hdecided : verdict ≠ .ok false) :
    checkHandshake domainToASCII expected limit (handshake ++ rest) = verdict ∧
      (verdict = .ok true → rest = []) := by
  rcases eq_or_ne rest [] with rfl | hne
  · rw [List.append_nil]
    exact ⟨hpart, fun _ => rfl⟩
  · rcases checkHandshake_append hne hone with hmore | ⟨e, herror, hwhole⟩
    · exact absurd (hpart.symm.trans hmore) hdecided
    · obtain rfl := hpart.symm.trans herror
      refine ⟨hwhole, fun hok => ?_⟩
      cases hok

/-- A whole message is accepted or refused. -/
lemma checkHandshake_whole {handshake : List UInt8} (hheader : 4 ≤ handshake.length)
    (hwhole : handshake.length = framedLength handshake) :
    checkHandshake domainToASCII expected limit handshake ≠ .ok false := by
  rw [framedLength] at hwhole
  rw [checkHandshake, if_neg (by omega), bind_ok (readUIntBE_ok (by omega))]
  intro hfalse
  by_cases hother : ofBytes ((handshake.drop 0).take 1) ≠ 1
  · rw [bind_rejectIf hother] at hfalse
    cases hfalse
  rw [bind_ok (rejectIf_of_not hother), bind_ok (readUIntBE_ok (by omega))] at hfalse
  generalize ofBytes ((handshake.drop 1).take 3) = helloLength at hwhole hfalse
  by_cases hlarge : limit < helloLength + 4
  · rw [bind_rejectIf hlarge] at hfalse
    cases hfalse
  rw [bind_ok (rejectIf_of_not hlarge), if_neg (by omega),
    bind_ok (rejectIf_of_not (by omega)), bind_ok (slice_ok (by omega))] at hfalse
  cases hvalid : validateClientHello domainToASCII ((handshake.drop 4).take helloLength) expected with
  | error e =>
    rw [hvalid] at hfalse
    cases hfalse
  | ok _ =>
    rw [hvalid] at hfalse
    cases hfalse

end Handshake

/-! ### The loop over the records -/

section Records

variable {domainToASCII : List Char → List Char} {input : List UInt8} {expected : List Char}
  {limit : ℕ}

/-- The handshake from the record at the offset to `recordEnd` is one ClientHello. -/
lemma inspectRecords_yields (domainToASCII : List Char → List Char) (input : List UInt8)
    (expected : List Char) (limit fuel offset : ℕ) (handshake : List UInt8)
    (hoffset : offset ≤ input.length) (hfuel : input.length < offset + fuel) :
    Yields IsTlsError (fun verdict => ∀ n, verdict = .complete n →
        ∃ records : List TlsRecord, records ≠ [] ∧ (∀ r ∈ records, r.WellFormed) ∧
          At input offset (encodings records) ∧ n = offset + (encodings records).length ∧
          n ≤ limit ∧ ∃ h : ClientHello, handshake ++ payloads records = h.frame ∧
            h.WellFormed ∧ h.Names fun name => IsHostName domainToASCII name expected)
      (inspectRecords domainToASCII input expected limit fuel offset handshake) := by
  induction fuel generalizing offset handshake with
  | zero => omega
  | succ fuel ih =>
    rw [inspectRecords]
    refine (readRecord_yields input limit offset).bind fun record hrecord => ?_
    rcases record with - | ⟨payload, recordEnd⟩
    · intro n hn
      cases hn
    obtain ⟨version, hwell, hat, hend, hlimit, hle⟩ := hrecord payload recordEnd rfl
    have hsingle : encodings [⟨version, payload⟩] = (TlsRecord.mk version payload).encode :=
      List.append_nil _
    refine (checkHandshake_yields domainToASCII expected limit (handshake ++ payload)).bind
      fun done hdone => ?_
    cases done with
    | true =>
      rintro n ⟨⟩
      obtain ⟨h, hframe, hhello⟩ := hdone rfl
      refine ⟨[⟨version, payload⟩], List.cons_ne_nil _ _, fun r hr => ?_, ?_, ?_, hlimit, h, ?_,
        hhello⟩
      · rw [List.mem_singleton.mp hr]
        exact hwell
      · rw [hsingle]
        exact hat
      · rw [hsingle, TlsRecord.length_encode, hend, Nat.add_assoc]
      · rw [← hframe, payloads, List.flatMap_singleton]
    | false =>
      refine (ih recordEnd (handshake ++ payload) hle (by omega)).mono fun verdict hrest n hn => ?_
      obtain ⟨records, -, hrecords, hrestAt, hn, hnLimit, h, hframe, hhello⟩ := hrest n hn
      refine ⟨⟨version, payload⟩ :: records, List.cons_ne_nil _ _, fun r hr => ?_, ?_, ?_, hnLimit,
        h, ?_, hhello⟩
      · rcases List.mem_cons.mp hr with rfl | hmem
        · exact hwell
        · exact hrecords r hmem
      · refine at_append.mpr ⟨hat, ?_⟩
        rw [TlsRecord.length_encode, ← Nat.add_assoc, ← hend]
        exact hrestAt
      · rw [hn, hend, length_encodings_cons, Nat.add_assoc, Nat.add_assoc, Nat.add_assoc]
      · rw [← hframe, payloads, List.flatMap_cons, List.append_assoc]
        rfl

/-- The records of at most one message are judged as their payload is. -/
lemma inspectRecords_of_records {records : List TlsRecord} {fuel offset : ℕ}
    {handshake : List UInt8} (hwell : ∀ r ∈ records, r.WellFormed)
    (hat : At input offset (encodings records)) (hoffset : offset ≤ input.length)
    (hlimit : input.length ≤ limit) (hfuel : records.length < fuel)
    (hone : AtMostOneMessage (handshake ++ payloads records))
    (hbefore : checkHandshake domainToASCII expected limit handshake = .ok false)
    (hafter : checkHandshake domainToASCII expected limit (handshake ++ payloads records) =
      .ok false → input.length < offset + (encodings records).length + 5) :
    inspectRecords domainToASCII input expected limit fuel offset handshake =
      (checkHandshake domainToASCII expected limit (handshake ++ payloads records)).map fun done =>
        if done then .complete (offset + (encodings records).length) else .incomplete := by
  induction records generalizing fuel offset handshake with
  | nil =>
    obtain ⟨fuel, rfl⟩ : ∃ k, fuel = k + 1 := ⟨fuel - 1, by simp at hfuel; omega⟩
    have hnone : handshake ++ payloads [] = handshake := List.append_nil _
    rw [hnone] at hafter ⊢
    have hend := hafter hbefore
    have hread : readRecord input limit offset = .ok none := if_pos hend
    rw [inspectRecords, bind_ok hread, hbefore]
    rfl
  | cons r rest ih =>
    obtain ⟨fuel, rfl⟩ : ∃ k, fuel = k + 1 := ⟨fuel - 1, by simp at hfuel; omega⟩
    have hrestWell : ∀ r' ∈ rest, r'.WellFormed := fun r' hr' => hwell r' (List.mem_cons_of_mem _ hr')
    obtain ⟨hrecord, hrestAt⟩ := at_append.mp hat
    have hread := readRecord_of_at (hwell r List.mem_cons_self) hrecord hoffset hlimit
    have hpayload : handshake ++ payloads (r :: rest) = handshake ++ r.payload ++ payloads rest :=
      (List.append_assoc _ _ _).symm
    have hlength : offset + (encodings (r :: rest)).length =
        offset + 5 + r.payload.length + (encodings rest).length := by
      rw [length_encodings_cons]
      omega
    rw [hpayload] at hone hafter ⊢
    rw [hlength] at hafter ⊢
    have hend := hrecord.end_le hoffset
    rw [TlsRecord.length_encode, ← Nat.add_assoc] at hrestAt hend
    rw [inspectRecords, bind_ok hread]
    dsimp only
    cases hpart : checkHandshake domainToASCII expected limit (handshake ++ r.payload) with
    | error e =>
      obtain ⟨hwhole, -⟩ := checkHandshake_decided hone hpart (by simp)
      rw [hwhole]
      rfl
    | ok done =>
      cases done with
      | true =>
        obtain ⟨hwhole, hnothing⟩ := checkHandshake_decided hone hpart (by simp)
        have hnil : rest = [] := by
          by_contra hne
          exact payloads_ne_nil hrestWell hne (hnothing rfl)
        rw [hwhole, hnil]
        rfl
      | false => exact ih hrestWell hrestAt hend (Nat.lt_of_succ_lt_succ hfuel) hone hpart hafter

end Records

/-! ### The inspection -/

/-- The records carry precisely one ClientHello with an accepted name, and it ends in the last. -/
structure CarriesHello (isName : List UInt8 → Prop) (records : List TlsRecord) (h : ClientHello) :
    Prop where
  ne_nil : records ≠ []
  records_wellFormed : ∀ r ∈ records, r.WellFormed
  payload : payloads records = h.frame
  before_last : (payloads records.dropLast).length < h.frame.length
  hello_wellFormed : h.WellFormed
  names : h.Names isName

/-- The first `n` bytes of the input are records with one ClientHello, and within the limit. -/
def BeginsWithHello (isName : List UInt8 → Prop) (limit : ℕ) (input : List UInt8) (n : ℕ) : Prop :=
  ∃ records h, CarriesHello isName records h ∧ At input 0 (encodings records) ∧
    n = (encodings records).length ∧ n ≤ limit

/-- The input is the handshake in records. More bytes follow only where it is a whole message. -/
def IsSplitOf (handshake input : List UInt8) : Prop :=
  ∃ records rest, input = encodings records ++ rest ∧ (∀ r ∈ records, r.WellFormed) ∧
    payloads records = handshake ∧
    (rest = [] ∨ 4 ≤ handshake.length ∧ handshake.length = framedLength handshake)

def TlsClientHelloInspection.isComplete : TlsClientHelloInspection → Bool
  | .incomplete => false
  | .complete _ => true

lemma length_payloads_dropLast {records : List TlsRecord} (hwell : ∀ r ∈ records, r.WellFormed)
    (hne : records ≠ []) : (payloads records.dropLast).length < (payloads records).length := by
  have hsplit := List.dropLast_append_getLast hne
  have hpos := (hwell _ (List.getLast_mem hne)).pos
  calc (payloads records.dropLast).length
      < (payloads records.dropLast).length + (records.getLast hne).payload.length := by omega
    _ = (payloads (records.dropLast ++ [records.getLast hne])).length := by
        rw [payloads, payloads, List.flatMap_append, List.length_append, List.flatMap_singleton]
    _ = (payloads records).length := by rw [hsplit]

/-! ### A minimal hello -/

/-- A ClientHello with one server_name extension. -/
def minimalHello (name : List UInt8) : ClientHello where
  legacyVersion := 0x0303
  random := List.replicate 32 0
  sessionId := []
  cipherSuites := [0x13, 0x01]
  compressionMethods := [0]
  extensions := [⟨0, serverNameList name⟩]

lemma length_minimalHello_extensions (name : List UInt8) :
    ((minimalHello name).extensions.flatMap HelloExtension.encode).length = name.length + 9 := by
  rw [minimalHello, List.flatMap_singleton, HelloExtension.length_encode, length_serverNameList]
  omega

lemma minimalHello_wellFormed {name : List UInt8} (hlength : name.length ≤ 253) :
    (minimalHello name).WellFormed := by
  have hextensions := length_minimalHello_extensions name
  exact {
    version_ge := by show 0x0301 ≤ 0x0303; omega
    version_le := Nat.le_refl _
    length_random := List.length_replicate
    sessionId_le := Nat.zero_le _
    cipherSuites_ge := Nat.le_refl _
    cipherSuites_even := by show 2 % 2 = 0; rfl
    cipherSuites_lt := by show 2 < 65536; omega
    compression_pos := Nat.le_refl _
    compression_lt := by show 1 < 256; omega
    extensions_lt := by omega
    extensions_wellFormed := fun e he => by
      rw [List.mem_singleton.mp he]
      refine ⟨by show 0 < 65536; omega, ?_⟩
      rw [length_serverNameList]
      omega }

lemma minimalHello_names {isName : List UInt8 → Prop} {name : List UInt8} (hname : isName name) :
    (minimalHello name).Names isName := by
  refine ⟨fun e he => ?_, name, hname, rfl⟩
  rw [List.mem_singleton.mp he]
  show 0 ≠ 0xfe0d
  omega

lemma length_minimalHello_frame (name : List UInt8) :
    (minimalHello name).frame.length = name.length + 56 := by
  have hextensions := length_minimalHello_extensions name
  have hrandom : (minimalHello name).random.length = 32 := List.length_replicate
  have hsession : (minimalHello name).sessionId.length = 0 := rfl
  have hciphers : (minimalHello name).cipherSuites.length = 2 := rfl
  have hcompression : (minimalHello name).compressionMethods.length = 1 := rfl
  rw [ClientHello.length_frame, ClientHello.length_encode]
  omega

/-- The frame in two records, the first with `k` bytes. -/
def inTwoRecords (k : ℕ) (frame : List UInt8) : List TlsRecord :=
  [⟨0x0301, frame.take k⟩, ⟨0x0303, frame.drop k⟩]

/-- Wherever the hello is split, the records carry it. -/
lemma inTwoRecords_carriesHello {isName : List UInt8 → Prop} {name : List UInt8} {k : ℕ}
    (hname : isName name) (hlength : name.length ≤ 253) (hpos : 1 ≤ k) (hk : k ≤ 55) :
    CarriesHello isName (inTwoRecords k (minimalHello name).frame) (minimalHello name) := by
  have hframe := length_minimalHello_frame name
  have htake := List.length_take (l := (minimalHello name).frame) (i := k)
  have hdrop := List.length_drop (l := (minimalHello name).frame) (i := k)
  have hmax : maxTlsRecordPayload = 16640 := rfl
  have hne : inTwoRecords k (minimalHello name).frame ≠ [] := List.cons_ne_nil _ _
  have hwell : ∀ r ∈ inTwoRecords k (minimalHello name).frame, r.WellFormed := by
    intro r hr
    rcases List.mem_cons.mp hr with rfl | hr
    · exact ⟨by dsimp only; omega, by dsimp only; omega, by dsimp only; omega,
        by dsimp only; omega⟩
    · rw [List.mem_singleton.mp hr]
      exact ⟨by dsimp only; omega, by dsimp only; omega, by dsimp only; omega,
        by dsimp only; omega⟩
  have hpayload : payloads (inTwoRecords k (minimalHello name).frame) =
      (minimalHello name).frame := by
    show List.take k _ ++ (List.drop k _ ++ []) = _
    rw [List.append_nil, List.take_append_drop]
  have hbefore := length_payloads_dropLast hwell hne
  rw [hpayload] at hbefore
  exact ⟨hne, hwell, hpayload, hbefore, minimalHello_wellFormed hlength,
    minimalHello_names hname⟩

lemma CarriesHello.isSplitOf {isName : List UInt8 → Prop} {records : List TlsRecord}
    {h : ClientHello} (hcarries : CarriesHello isName records h) :
    IsSplitOf h.frame (encodings records) :=
  ⟨records, [], (List.append_nil _).symm, hcarries.records_wellFormed, hcarries.payload, .inl rfl⟩

/-! ### The inspection is exact -/

section Inspection

variable {domainToASCII : List Char → List Char} {input handshake : List UInt8}
  {expectedHostname expected : List Char} {limit : ℕ}

lemma inspectTlsClientHello_eq (hge : 256 ≤ limit) (hsafe : limit < 2 ^ 53)
    (hexpected : normalizeHostname domainToASCII expectedHostname = .ok expected)
    (hinput : input.length ≤ limit) :
    inspectTlsClientHello domainToASCII input expectedHostname (some (limit : ℤ)) =
      inspectRecords domainToASCII input expected limit (input.length + 1) 0 [] := by
  rw [inspectTlsClientHello, if_neg (by omega), if_neg (by omega), hexpected, Int.toNat_natCast]

lemma inspectRecords_complete_iff (hinput : input.length ≤ limit) (n : ℕ) :
    inspectRecords domainToASCII input expected limit (input.length + 1) 0 [] =
        .ok (.complete n) ↔
      BeginsWithHello (fun name => IsHostName domainToASCII name expected) limit input n := by
  constructor
  · intro hok
    have hyields := inspectRecords_yields domainToASCII input expected limit (input.length + 1) 0
      [] (Nat.zero_le _) (by omega)
    obtain ⟨records, hne, hwell, hat, hn, hlimit, h, hframe, hhello, hnames⟩ :=
      hyields.of_eq_ok hok n rfl
    rw [Nat.zero_add] at hn
    rw [List.nil_append] at hframe
    have hbefore := length_payloads_dropLast hwell hne
    rw [hframe] at hbefore
    exact ⟨records, h, ⟨hne, hwell, hframe, hbefore, hhello, hnames⟩, hat, hn, hlimit⟩
  · rintro ⟨records, h, hcarries, hat, rfl, hlimit⟩
    have hwell := hcarries.records_wellFormed
    have hcount := length_le_encodings records
    have hpayload := length_payloads_le records
    rw [hcarries.payload] at hpayload
    have hframed := hcarries.hello_wellFormed.framedLength_frame
    have hend := hat.end_le (Nat.zero_le _)
    have hcheck := checkHandshake_of_frame hcarries.hello_wellFormed hcarries.names
      (Nat.le_trans hpayload hlimit)
    rw [inspectRecords_of_records hwell hat (Nat.zero_le _) hinput (by omega) ?_ rfl ?_,
      List.nil_append, hcarries.payload, hcheck, Nat.zero_add]
    · rfl
    · rw [List.nil_append, hcarries.payload]
      exact .inr (Nat.le_of_eq hframed.symm)
    · rw [List.nil_append, hcarries.payload, hcheck]
      intro hfalse
      cases hfalse

lemma isComplete_of_isSplitOf (hone : AtMostOneMessage handshake)
    (hsplit : IsSplitOf handshake input) (hinput : input.length ≤ limit) :
    (inspectRecords domainToASCII input expected limit (input.length + 1) 0 []).map
        TlsClientHelloInspection.isComplete =
      checkHandshake domainToASCII expected limit handshake := by
  obtain ⟨records, rest, rfl, hwell, rfl, hrest⟩ := hsplit
  have hcount := length_le_encodings records
  have hlength : (encodings records ++ rest).length =
      (encodings records).length + rest.length := List.length_append
  have hat : At (encodings records ++ rest) 0 (encodings records) := List.prefix_append _ _
  rw [inspectRecords_of_records hwell hat (Nat.zero_le _) hinput (by omega) hone rfl ?_,
    List.nil_append]
  · cases checkHandshake domainToASCII expected limit (payloads records) with
    | error e => rfl
    | ok done => cases done <;> rfl
  · intro hmore
    rcases hrest with rfl | ⟨hheader, hwhole⟩
    · rw [List.append_nil]
      omega
    · exact absurd hmore (checkHandshake_whole hheader hwhole)

/-- The inspection is complete exactly behind records with one ClientHello, throws nothing but TLS
errors, and does not depend on how a handshake is split into records. -/
theorem inspectTlsClientHello_spec (hge : 256 ≤ limit) (hsafe : limit < 2 ^ 53)
    (hexpected : normalizeHostname domainToASCII expectedHostname = .ok expected) :
    (∀ input : List UInt8, input.length ≤ limit →
      (∀ n, inspectTlsClientHello domainToASCII input expectedHostname (some (limit : ℤ)) =
          .ok (.complete n) ↔
        BeginsWithHello (fun name => IsHostName domainToASCII name expected) limit input n) ∧
      ∀ e, inspectTlsClientHello domainToASCII input expectedHostname (some (limit : ℤ)) =
        .error e → IsTlsError e) ∧
    ∀ handshake input₁ input₂ : List UInt8, AtMostOneMessage handshake →
      IsSplitOf handshake input₁ → IsSplitOf handshake input₂ →
      input₁.length ≤ limit → input₂.length ≤ limit →
      (inspectTlsClientHello domainToASCII input₁ expectedHostname (some (limit : ℤ))).map
          TlsClientHelloInspection.isComplete =
        (inspectTlsClientHello domainToASCII input₂ expectedHostname (some (limit : ℤ))).map
          TlsClientHelloInspection.isComplete := by
  constructor
  · intro input hinput
    rw [inspectTlsClientHello_eq hge hsafe hexpected hinput]
    refine ⟨inspectRecords_complete_iff hinput, fun e herror => ?_⟩
    have hyields := inspectRecords_yields domainToASCII input expected limit (input.length + 1) 0
      [] (Nat.zero_le _) (by omega)
    exact hyields.of_eq_error herror
  · intro handshake input₁ input₂ hone hsplit₁ hsplit₂ hinput₁ hinput₂
    rw [inspectTlsClientHello_eq hge hsafe hexpected hinput₁,
      inspectTlsClientHello_eq hge hsafe hexpected hinput₂,
      isComplete_of_isSplitOf hone hsplit₁ hinput₁, isComplete_of_isSplitOf hone hsplit₂ hinput₂]

end Inspection

/-- `npmjs.org` -/
def npmjsName : List UInt8 := [110, 112, 109, 106, 115, 46, 111, 114, 103]

lemma isHostName_npmjs : IsHostName id npmjsName "npmjs.org".toList :=
  ⟨by decide +kernel, by decide +kernel, by decide +kernel, by decide +kernel, by decide +kernel⟩

/-- A hello in two records is accepted, wherever it is split. -/
theorem inspectTlsClientHello_spec_npmjs :
    inspectTlsClientHello id (encodings (inTwoRecords 3 (minimalHello npmjsName).frame))
        "npmjs.org".toList (some ((65536 : ℕ) : ℤ)) = .ok (.complete 75) ∧
      (inspectTlsClientHello id (encodings (inTwoRecords 3 (minimalHello npmjsName).frame))
          "npmjs.org".toList (some ((65536 : ℕ) : ℤ))).map TlsClientHelloInspection.isComplete =
        (inspectTlsClientHello id (encodings (inTwoRecords 40 (minimalHello npmjsName).frame))
          "npmjs.org".toList (some ((65536 : ℕ) : ℤ))).map
            TlsClientHelloInspection.isComplete := by
  have hexpected : normalizeHostname id "npmjs.org".toList = .ok "npmjs.org".toList := by
    decide +kernel
  have hge : 256 ≤ 65536 := by decide
  have hspec := inspectTlsClientHello_spec hge (by decide +kernel) hexpected
  have hthree : CarriesHello (fun name => IsHostName id name "npmjs.org".toList)
      (inTwoRecords 3 (minimalHello npmjsName).frame) (minimalHello npmjsName) :=
    inTwoRecords_carriesHello isHostName_npmjs (by decide +kernel) (by decide) (by decide)
  have hforty : CarriesHello (fun name => IsHostName id name "npmjs.org".toList)
      (inTwoRecords 40 (minimalHello npmjsName).frame) (minimalHello npmjsName) :=
    inTwoRecords_carriesHello isHostName_npmjs (by decide +kernel) (by decide) (by decide)
  constructor
  · refine ((hspec.1 _ (by decide +kernel)).1 75).mpr ?_
    exact ⟨_, _, hthree, List.prefix_refl _, by decide +kernel, by decide +kernel⟩
  · exact hspec.2 _ _ _ (.inr (by decide +kernel)) hthree.isSplitOf hforty.isSplitOf
      (by decide +kernel) (by decide +kernel)

/-- A name with a final dot normalises to the expected one, but is refused. -/
theorem not_complete_of_final_dot :
    ¬∀ (input : List UInt8) (n : ℕ), input.length ≤ 65536 →
      (inspectTlsClientHello id input "npmjs.org".toList (some 65536) = .ok (.complete n) ↔
        BeginsWithHello (fun name => normalizeHostname id (asciiText name) =
          .ok "npmjs.org".toList) 65536 input n) := by
  intro hall
  have hname : normalizeHostname id (asciiText (npmjsName ++ [46])) = .ok "npmjs.org".toList := by
    decide +kernel
  have hcarries : CarriesHello
      (fun name => normalizeHostname id (asciiText name) = .ok "npmjs.org".toList)
      (inTwoRecords 3 (minimalHello (npmjsName ++ [46])).frame)
      (minimalHello (npmjsName ++ [46])) :=
    inTwoRecords_carriesHello hname (by decide +kernel) (by decide) (by decide)
  have hrefused : inspectTlsClientHello id
      (encodings (inTwoRecords 3 (minimalHello (npmjsName ++ [46])).frame))
      "npmjs.org".toList (some 65536) =
        .error (malformed "SNI must not have a trailing dot") := by
    decide +kernel
  have haccepted := (hall (encodings _) 76 (by decide +kernel)).mpr
    ⟨_, _, hcarries, List.prefix_refl _, by decide +kernel, by decide +kernel⟩
  rw [hrefused] at haccepted
  cases haccepted

end Bloom
