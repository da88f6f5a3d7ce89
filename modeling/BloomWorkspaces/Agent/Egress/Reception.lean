import BloomWorkspaces.Agent.Egress.Inspection

/-!
# Receiving a ClientHello

`receiveTlsClientHello` on the chunks in which a stream arrives. The inspection starts anew on every
longer prefix; a verdict on a prefix is one on all that begins with it.
-/

namespace Bloom

open BigEndian Checked

/-! ### The reception -/

section Definitions

variable (domainToASCII : List Char → List Char) (expectedHostname : List Char) (maxBytes : ℤ)

/-- The `data` events on the bytes that are buffered; the client closes after the last chunk. -/
def receiveChunks (buffered : List UInt8) :
    List (List UInt8) → Except Thrown (List UInt8 × List (List UInt8))
  | [] => .error (.plain "client-closed-before-client-hello")
  | chunk :: rest =>
    if maxBytes - buffered.length < chunk.length then .error tooLarge
    else
      match inspectTlsClientHello domainToASCII (buffered ++ chunk) expectedHostname (some maxBytes) with
      | .error e => .error e
      | .ok (.complete _) => .ok (buffered ++ chunk, rest)
      | .ok .incomplete => receiveChunks (buffered ++ chunk) rest

/-- The bytes that are accepted, with the chunks that are left for the tunnel. -/
def receiveTlsClientHello (initial : List UInt8) (chunks : List (List UInt8)) :
    Except Thrown (List UInt8 × List (List UInt8)) :=
  if maxBytes < 256 ∨ maxBytes < initial.length then .error tooLarge
  else
    match inspectTlsClientHello domainToASCII initial expectedHostname (some maxBytes) with
    | .error e => .error e
    | .ok (.complete _) => .ok (initial, chunks)
    | .ok .incomplete => receiveChunks domainToASCII expectedHostname maxBytes initial chunks

/-- The writes of `handleConnect` to the upstream socket: what was received, then what its pipe reads
from the client. -/
def upstreamWrites :
    Except Thrown (List UInt8 × List (List UInt8)) → List (List UInt8)
  | .ok (clientHello, rest) => clientHello :: rest
  | .error _ => []

/-- The verdict on a stream that has arrived as a whole. -/
def streamVerdict (stream : List UInt8) : Except Thrown Unit :=
  match inspectTlsClientHello domainToASCII stream expectedHostname (some maxBytes) with
  | .error e => .error e
  | .ok (.complete _) => .ok ()
  | .ok .incomplete => .error (.plain "client-closed-before-client-hello")

end Definitions

/-! ### More bytes -/

section Append

variable {domainToASCII : List Char → List Char} {input : List UInt8} {expected : List Char}
  {limit fuel fuel' offset : ℕ}

lemma slice_append {buffer : List UInt8} {length : ℕ} (rest : List UInt8)
    (h : offset + length ≤ buffer.length) :
    slice (buffer ++ rest) offset length = slice buffer offset length := by
  have hdrop := List.length_drop (l := buffer) (i := offset)
  rw [slice_ok h, slice_ok (by rw [List.length_append]; omega),
    List.drop_append_of_le_length (by omega), List.take_append_of_le_length (by omega)]

/-- A record that is there, or wrong, stays so. -/
lemma readRecord_append (rest : List UInt8) (h : readRecord input limit offset ≠ .ok none) :
    readRecord (input ++ rest) limit offset = readRecord input limit offset := by
  have hlength : (input ++ rest).length = input.length + rest.length := List.length_append
  by_cases hheader : input.length < offset + 5
  · rw [readRecord, if_pos hheader] at h
    exact absurd rfl h
  rw [readRecord, readRecord, if_neg (by omega), if_neg hheader,
    readUIntBE_append rest (by omega : offset + 1 ≤ input.length),
    readUIntBE_append rest (by omega : offset + 1 + 2 ≤ input.length),
    readUIntBE_append rest (by omega : offset + 3 + 2 ≤ input.length)]
  rw [readRecord, if_neg hheader] at h
  have htype : readUIntBE input offset 1 = .ok _ := readUIntBE_ok (by omega)
  have hversion : readUIntBE input (offset + 1) 2 = .ok _ := readUIntBE_ok (by omega)
  have hdeclared : readUIntBE input (offset + 3) 2 = .ok _ := readUIntBE_ok (by omega)
  rw [bind_ok htype] at h
  rw [bind_ok htype, bind_ok htype]
  generalize ofBytes ((input.drop offset).take 1) = contentType at h ⊢
  by_cases hother : contentType ≠ 22
  · rw [bind_rejectIf hother, bind_rejectIf hother]
  rw [bind_ok (rejectIf_of_not hother), bind_ok hversion] at h
  rw [bind_ok (rejectIf_of_not hother), bind_ok (rejectIf_of_not hother), bind_ok hversion,
    bind_ok hversion]
  generalize ofBytes ((input.drop (offset + 1)).take 2) = recordVersion at h ⊢
  by_cases hold : recordVersion < 0x0301 ∨ 0x0304 < recordVersion
  · rw [bind_rejectIf hold, bind_rejectIf hold]
  rw [bind_ok (rejectIf_of_not hold), bind_ok hdeclared] at h
  rw [bind_ok (rejectIf_of_not hold), bind_ok (rejectIf_of_not hold), bind_ok hdeclared,
    bind_ok hdeclared]
  generalize ofBytes ((input.drop (offset + 3)).take 2) = recordLength at h ⊢
  by_cases hwrong : recordLength = 0 ∨ maxTlsRecordPayload < recordLength
  · rw [bind_rejectIf hwrong, bind_rejectIf hwrong]
  rw [bind_ok (rejectIf_of_not hwrong)] at h
  rw [bind_ok (rejectIf_of_not hwrong), bind_ok (rejectIf_of_not hwrong)]
  by_cases hlarge : limit < offset + 5 + recordLength
  · rw [bind_rejectIf hlarge, bind_rejectIf hlarge]
  rw [bind_ok (rejectIf_of_not hlarge)] at h
  rw [bind_ok (rejectIf_of_not hlarge), bind_ok (rejectIf_of_not hlarge)]
  by_cases hshort : input.length < offset + 5 + recordLength
  · rw [if_pos hshort] at h
    exact absurd rfl h
  rw [if_neg (by omega), if_neg hshort, slice_append rest (by omega)]

/-- A verdict on a prefix is the verdict on the whole. -/
lemma inspectRecords_append {handshake : List UInt8} (rest : List UInt8) (hfuel : fuel ≤ fuel')
    (hincomplete : inspectRecords domainToASCII input expected limit fuel offset handshake ≠
      .ok .incomplete)
    (houtOfFuel : inspectRecords domainToASCII input expected limit fuel offset handshake ≠
      .error .outOfFuel) :
    inspectRecords domainToASCII (input ++ rest) expected limit fuel' offset handshake =
      inspectRecords domainToASCII input expected limit fuel offset handshake := by
  induction fuel generalizing fuel' offset handshake with
  | zero => exact absurd rfl houtOfFuel
  | succ fuel ih =>
    obtain ⟨fuel', rfl⟩ : ∃ k, fuel' = k + 1 := ⟨fuel' - 1, by omega⟩
    rw [inspectRecords] at hincomplete houtOfFuel
    rw [inspectRecords, inspectRecords]
    have hread : readRecord input limit offset ≠ .ok none := by
      intro hnone
      rw [hnone] at hincomplete
      exact hincomplete rfl
    rw [readRecord_append rest hread]
    cases hrecord : readRecord input limit offset with
    | error e => rfl
    | ok record =>
      rw [hrecord] at hread hincomplete houtOfFuel
      rcases record with - | ⟨payload, recordEnd⟩
      · exact absurd rfl hread
      simp only [bind, Except.bind] at hincomplete houtOfFuel ⊢
      cases hcheck : checkHandshake domainToASCII expected limit (handshake ++ payload) with
      | error e => rfl
      | ok done =>
        rw [hcheck] at hincomplete houtOfFuel
        cases done with
        | true => rfl
        | false => exact ih (Nat.le_of_succ_le_succ hfuel) hincomplete houtOfFuel

end Append

/-! ### The verdict -/

section Verdict

variable {domainToASCII : List Char → List Char} {expectedHostname : List Char} {maxBytes : ℤ}
  {input rest : List UInt8}

/-- Appended bytes change nothing but `incomplete`. -/
theorem inspectTlsClientHello_append (hlength : ((input ++ rest).length : ℤ) ≤ maxBytes)
    (h : inspectTlsClientHello domainToASCII input expectedHostname (some maxBytes) ≠
      .ok .incomplete) :
    inspectTlsClientHello domainToASCII (input ++ rest) expectedHostname (some maxBytes) =
      inspectTlsClientHello domainToASCII input expectedHostname (some maxBytes) := by
  rw [List.length_append] at hlength
  simp only [inspectTlsClientHello] at h ⊢
  by_cases hlimit : maxBytes < 256 ∨ 2 ^ 53 ≤ maxBytes
  · rw [if_pos hlimit, if_pos hlimit]
  rw [if_neg hlimit, if_neg (by omega)] at h
  rw [if_neg hlimit, if_neg hlimit, if_neg (by rw [List.length_append]; omega), if_neg (by omega)]
  cases hexpected : normalizeHostname domainToASCII expectedHostname with
  | error failure => rfl
  | ok expected =>
    rw [hexpected] at h
    refine inspectRecords_append rest (by rw [List.length_append]; omega) h ?_
    intro herror
    have hyields := inspectRecords_yields domainToASCII input expected maxBytes.toNat
      (input.length + 1) 0 [] (Nat.zero_le _) (by omega)
    obtain ⟨code, message, htls⟩ := hyields.of_eq_error herror
    cases htls

/-- The chunks are judged as the whole stream is. -/
lemma receiveChunks_verdict {buffered : List UInt8} {chunks : List (List UInt8)}
    (hlength : ((buffered ++ chunks.flatten).length : ℤ) ≤ maxBytes)
    (hbuffered : inspectTlsClientHello domainToASCII buffered expectedHostname (some maxBytes) =
      .ok .incomplete) :
    (receiveChunks domainToASCII expectedHostname maxBytes buffered chunks).map (fun _ => ()) =
      streamVerdict domainToASCII expectedHostname maxBytes (buffered ++ chunks.flatten) := by
  induction chunks generalizing buffered with
  | nil =>
    rw [List.flatten_nil, List.append_nil, streamVerdict, hbuffered]
    rfl
  | cons chunk chunks ih =>
    rw [List.flatten_cons, ← List.append_assoc] at hlength ⊢
    have hchunk : ¬maxBytes - buffered.length < chunk.length := by
      simp only [List.length_append] at hlength
      omega
    rw [receiveChunks, if_neg hchunk]
    cases hinspect : inspectTlsClientHello domainToASCII (buffered ++ chunk) expectedHostname
        (some maxBytes) with
    | error e =>
      rw [streamVerdict, inspectTlsClientHello_append hlength (by rw [hinspect]; simp), hinspect]
      rfl
    | ok inspection =>
      cases inspection with
      | complete n =>
        rw [streamVerdict, inspectTlsClientHello_append hlength (by rw [hinspect]; simp), hinspect]
        rfl
      | incomplete => exact ih hlength hinspect

lemma receiveChunks_flatten {buffered hello : List UInt8} {chunks later : List (List UInt8)}
    (h : receiveChunks domainToASCII expectedHostname maxBytes buffered chunks = .ok (hello, later)) :
    hello ++ later.flatten = buffered ++ chunks.flatten := by
  induction chunks generalizing buffered with
  | nil => cases h
  | cons chunk chunks ih =>
    rw [receiveChunks] at h
    split at h
    · cases h
    · split at h
      · cases h
      · cases h
        rw [List.flatten_cons, List.append_assoc]
      · rw [ih h, List.flatten_cons, List.append_assoc]

/-- However the stream is cut, the verdict is that on the whole. -/
lemma receiveTlsClientHello_verdict {initial : List UInt8} {chunks : List (List UInt8)}
    (hlength : ((initial ++ chunks.flatten).length : ℤ) ≤ maxBytes) :
    (receiveTlsClientHello domainToASCII expectedHostname maxBytes initial chunks).map (fun _ => ()) =
      if maxBytes < 256 then .error tooLarge
      else streamVerdict domainToASCII expectedHostname maxBytes (initial ++ chunks.flatten) := by
  rw [receiveTlsClientHello]
  by_cases hsmall : maxBytes < 256
  · rw [if_pos (Or.inl hsmall), if_pos hsmall]
    rfl
  have hinitial : ¬(maxBytes < 256 ∨ maxBytes < initial.length) := by
    rw [List.length_append] at hlength
    omega
  rw [if_neg hinitial, if_neg hsmall]
  cases hinspect : inspectTlsClientHello domainToASCII initial expectedHostname (some maxBytes) with
  | error e =>
    rw [streamVerdict, inspectTlsClientHello_append hlength (by rw [hinspect]; simp), hinspect]
    rfl
  | ok inspection =>
    cases inspection with
    | complete n =>
      rw [streamVerdict, inspectTlsClientHello_append hlength (by rw [hinspect]; simp), hinspect]
      rfl
    | incomplete => exact receiveChunks_verdict hlength hinspect

/-- What is accepted goes on to the upstream as it came. -/
lemma flatten_upstreamWrites {initial : List UInt8} {chunks : List (List UInt8)}
    {received : List UInt8 × List (List UInt8)}
    (h : receiveTlsClientHello domainToASCII expectedHostname maxBytes initial chunks =
      .ok received) :
    (upstreamWrites (.ok received)).flatten = initial ++ chunks.flatten := by
  obtain ⟨hello, later⟩ := received
  rw [receiveTlsClientHello] at h
  split at h
  · cases h
  · split at h
    · cases h
    · cases h
      rfl
    · exact receiveChunks_flatten h

end Verdict

/-- Verdicts on a prefix stand, so that a reception depends on the stream only and not on how it is cut: its
verdict is that on the whole stream, and on accept every byte of it goes to the upstream in order. -/
theorem receiveTlsClientHello_spec (domainToASCII : List Char → List Char)
    (expectedHostname : List Char) (maxBytes : ℤ) :
    (∀ input rest : List UInt8, ((input ++ rest).length : ℤ) ≤ maxBytes →
      (∀ n, inspectTlsClientHello domainToASCII input expectedHostname (some maxBytes) =
          .ok (.complete n) →
        inspectTlsClientHello domainToASCII (input ++ rest) expectedHostname (some maxBytes) =
          .ok (.complete n)) ∧
      ∀ code message, inspectTlsClientHello domainToASCII input expectedHostname (some maxBytes) =
          .error (.tls code message) →
        inspectTlsClientHello domainToASCII (input ++ rest) expectedHostname (some maxBytes) =
          .error (.tls code message)) ∧
    ∀ (initial initial' : List UInt8) (chunks chunks' : List (List UInt8)),
      initial ++ chunks.flatten = initial' ++ chunks'.flatten →
      ((initial ++ chunks.flatten).length : ℤ) ≤ maxBytes →
      (receiveTlsClientHello domainToASCII expectedHostname maxBytes initial chunks).map (fun _ => ()) =
        (receiveTlsClientHello domainToASCII expectedHostname maxBytes initial' chunks').map
          (fun _ => ()) ∧
      (receiveTlsClientHello domainToASCII expectedHostname maxBytes initial chunks).map (fun _ => ()) =
        (if maxBytes < 256 then .error tooLarge
        else streamVerdict domainToASCII expectedHostname maxBytes (initial ++ chunks.flatten)) ∧
      ∀ received, receiveTlsClientHello domainToASCII expectedHostname maxBytes initial chunks =
          .ok received →
        (upstreamWrites (.ok received)).flatten = initial ++ chunks.flatten := by
  constructor
  · intro input rest hlength
    constructor
    · intro n hn
      rw [inspectTlsClientHello_append hlength (by rw [hn]; simp), hn]
    · intro code message herror
      rw [inspectTlsClientHello_append hlength (by rw [herror]; simp), herror]
  · intro initial initial' chunks chunks' hsame hlength
    refine ⟨?_, receiveTlsClientHello_verdict hlength, fun received => flatten_upstreamWrites⟩
    rw [receiveTlsClientHello_verdict hlength, receiveTlsClientHello_verdict (hsame ▸ hlength), hsame]

/-- A hello that arrives in two chunks, with three bytes behind it. -/
theorem receiveTlsClientHello_spec_npmjs :
    (upstreamWrites (.ok (encodings (inTwoRecords 3 (minimalHello npmjsName).frame) ++ [1, 2, 3],
        []))).flatten =
      [] ++ [(encodings (inTwoRecords 3 (minimalHello npmjsName).frame)).take 7,
        (encodings (inTwoRecords 3 (minimalHello npmjsName).frame)).drop 7 ++ [1, 2, 3]].flatten :=
  ((receiveTlsClientHello_spec id "npmjs.org".toList 65536).2 [] []
    [(encodings (inTwoRecords 3 (minimalHello npmjsName).frame)).take 7,
      (encodings (inTwoRecords 3 (minimalHello npmjsName).frame)).drop 7 ++ [1, 2, 3]] _ rfl
    (by decide +kernel)).2.2 _ (by decide +kernel)

end Bloom
