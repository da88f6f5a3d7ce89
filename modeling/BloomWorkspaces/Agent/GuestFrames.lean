import BloomWorkspaces.Agent.GuestChannel
import BloomWorkspaces.Library.JsonValue
import BloomWorkspaces.Library.Table

/-!
# Frames from the guest

`decodeGuestFrames`, and the socket of a `requestGuest` as its chunks arrive. The chunks are cut anywhere,
also inside a character.
-/

namespace Bloom

variable {ν : Type}

def lineFeed : UInt8 := 10

/-! ### Decoding -/

/-- What `decodeGuestFrames` throws: an error of its own, or that of `JSON.parse` on a text. -/
inductive FrameError
  | thrown (message : String)
  | invalidJson (text : List Char)

/-- The lines of the buffer; `line` is what stands between `start` and the byte that is looked at. -/
def decodeLines (format : NumberFormat ν) (line : List UInt8) :
    List UInt8 → Except FrameError (List (JsonValue ν) × List UInt8)
  | [] =>
    if maxGuestFrameBytes < line.length then
      .error (.thrown "Guest protocol frame exceeds the maximum size")
    else .ok ([], line)
  | byte :: rest =>
    if byte = lineFeed then
      if line.length = 0 then decodeLines format [] rest
      else if maxGuestFrameBytes < line.length + 1 then
        .error (.thrown "Guest protocol frame exceeds the maximum size")
      else
        match JsonValue.parse format (Utf8.toText line) with
        | none => .error (.invalidJson (Utf8.toText line))
        | some frame => (decodeLines format [] rest).map fun decoded => (frame :: decoded.1, decoded.2)
    else decodeLines format (line ++ [byte]) rest

def decodeGuestFrames (format : NumberFormat ν) (buffer : List UInt8) :
    Except FrameError (List (JsonValue ν) × List UInt8) :=
  if maxGuestFrameBytes * 2 < buffer.length then
    .error (.thrown "Guest protocol receive buffer exceeds the maximum size")
  else decodeLines format [] buffer

/-- Decode the chunks one by one, with the remainder carried over. -/
def decodeChunks (format : NumberFormat ν) (remainder : List UInt8) :
    List (List UInt8) → Except FrameError (List (JsonValue ν) × List UInt8)
  | [] => .ok ([], remainder)
  | chunk :: chunks =>
    match decodeGuestFrames format (remainder ++ chunk) with
    | .error e => .error e
    | .ok (frames, remainder) =>
      (decodeChunks format remainder chunks).map fun decoded => (frames ++ decoded.1, decoded.2)

/-- Every remainder with the chunk after it stays within the limit of the buffer. -/
def FitsBuffer (format : NumberFormat ν) (remainder : List UInt8) : List (List UInt8) → Prop
  | [] => True
  | chunk :: chunks => (remainder ++ chunk).length ≤ maxGuestFrameBytes * 2 ∧
    ∀ decoded, decodeGuestFrames format (remainder ++ chunk) = .ok decoded →
      FitsBuffer format decoded.2 chunks

/-! ### Responses -/

def ErrorCode.text : ErrorCode → String
  | .invalidRequest => "invalid_request"
  | .notFound => "not_found"
  | .permissionDenied => "permission_denied"
  | .limitExceeded => "limit_exceeded"
  | .conflict => "conflict"
  | .unavailable => "unavailable"
  | .internal => "internal"

/-- A response with its id; the result may be missing. -/
inductive GuestResponse (ν : Type)
  | ok (id : JsText) (result : Option (JsonValue ν))
  | failed (id : JsText) (code : ErrorCode) (message : JsText)

def GuestResponse.id : GuestResponse ν → JsText
  | .ok id _ => id
  | .failed id _ _ => id

namespace GuestResponse

def field (fields : List (JsText × JsonValue ν)) (name : String) : Option (JsonValue ν) :=
  (fields.find? fun f => f.1 = Utf16.encode name.toList).map (·.2)

/-- The schema `RequestId` -/
def parseId : Option (JsonValue ν) → Option JsText
  | some (.string id) =>
    if 1 ≤ id.length ∧ id.length ≤ 64 ∧ id.all (fun u => isIdChar (Char.ofNat u.toNat)) = true then some id
    else none
  | _ => none

/-- `GuestErrorCodeSchema` -/
def parseCode : Option (JsonValue ν) → Option ErrorCode
  | some (.string code) =>
    [ErrorCode.invalidRequest, .notFound, .conflict, .limitExceeded, .permissionDenied, .unavailable,
      .internal].find? fun c => Utf16.encode c.text.toList = code
  | _ => none

def parseMessage : Option (JsonValue ν) → Option JsText
  | some (.string message) => if 1 ≤ message.length ∧ message.length ≤ 1024 then some message else none
  | _ => none

def parseError : Option (JsonValue ν) → Option (ErrorCode × JsText)
  | some (.object fields) =>
    match parseCode (field fields "code"), parseMessage (field fields "message") with
    | some code, some message => some (code, message)
    | _, _ => none
  | _ => none

def isVersion [One ν] [DecidableEq ν] : Option (JsonValue ν) → Bool
  | some (.number n) => n = 1
  | _ => false

/-- The schema `GuestResponse`, a union over `ok`. -/
def parse [One ν] [DecidableEq ν] : JsonValue ν → Option (GuestResponse ν)
  | .object fields =>
    match field fields "ok", isVersion (field fields "version"), parseId (field fields "id") with
    | some (.bool true), true, some id => some (.ok id (field fields "result"))
    | some (.bool false), true, some id =>
      (parseError (field fields "error")).map fun error => .failed id error.1 error.2
    | _, _, _ => none
  | _ => none

end GuestResponse

/-! ### Sockets -/

inductive GuestEndpoint
  | unix (path : String)
  | firecrackerVsock (path : String) (port : ℕ)

/-- A `GuestChannelError`. The messages of `JSON.parse` and of the schema are theirs; all but the
errors of the guest have the code `transport`. -/
inductive GuestChannelError (ν : Type)
  | transport (message : String)
  | invalidJson (text : List Char)
  | invalidResponse (frame : JsonValue ν)
  | guest (code : ErrorCode) (message : JsText)

/-- A request with its frame, which is missing where `encodeGuestFrame` throws. -/
structure OutgoingRequest where
  id : RequestId
  frame : Option (List UInt8)

structure GuestSocket (ν : Type) where
  handshake : Bool
  handshakeBuffer : List UInt8
  frameBuffer : List UInt8
  written : List (List UInt8)
  outcome : Option (Except (GuestChannelError ν) (Option (JsonValue ν)))

def asTransportError : FrameError → GuestChannelError ν
  | .thrown message => .transport message
  | .invalidJson text => .invalidJson text

/-- What the promise gets for a frame. -/
def respond [One ν] [DecidableEq ν] (id : RequestId) (frame : JsonValue ν) :
    Except (GuestChannelError ν) (Option (JsonValue ν)) :=
  match GuestResponse.parse frame with
  | none => .error (.invalidResponse frame)
  | some response =>
    if response.id ≠ Utf16.encode id.chars then
      .error (.transport "Guest response id did not match the request")
    else
      match response with
      | .failed _ code message => .error (.guest code message)
      | .ok _ result => .ok result

namespace GuestSocket

def opened (endpoint : GuestEndpoint) : GuestSocket ν where
  handshake :=
    match endpoint with
    | .unix _ => false
    | .firecrackerVsock _ _ => true
  handshakeBuffer := []
  frameBuffer := []
  written := []
  outcome := none

def finish (s : GuestSocket ν) (outcome : Except (GuestChannelError ν) (Option (JsonValue ν))) :
    GuestSocket ν :=
  if s.outcome.isSome then s else { s with outcome := some outcome }

def fail (s : GuestSocket ν) (message : String) : GuestSocket ν := s.finish (.error (.transport message))

def sendRequest (s : GuestSocket ν) (request : OutgoingRequest) : GuestSocket ν :=
  match request.frame with
  | some frame => { s with written := s.written ++ [frame] }
  | none => s.fail "Guest protocol frame exceeds the maximum size"

def onConnect (s : GuestSocket ν) (endpoint : GuestEndpoint) (request : OutgoingRequest) : GuestSocket ν :=
  match endpoint with
  | .unix _ => s.sendRequest request
  | .firecrackerVsock _ port =>
    { s with written := s.written ++ [Utf8.encode ("CONNECT ".toList ++ Nat.toDigits 10 port ++ ['\n'])] }

def consumeFrames [One ν] [DecidableEq ν] (format : NumberFormat ν) (id : RequestId) (s : GuestSocket ν)
    (chunk : List UInt8) : GuestSocket ν :=
  let buffer := s.frameBuffer ++ chunk
  if maxGuestFrameBytes < buffer.length then
    { s with frameBuffer := buffer }.fail "Guest response exceeded the maximum size"
  else
    match decodeGuestFrames format buffer with
    | .error e => { s with frameBuffer := buffer }.finish (.error (asTransportError e))
    | .ok ([], remainder) => { s with frameBuffer := remainder }
    | .ok ([frame], []) => { s with frameBuffer := [] }.finish (respond id frame)
    | .ok (_, remainder) =>
      { s with frameBuffer := remainder }.fail "Guest sent an unexpected response sequence"

/-- `/^OK [0-9]+$/` on the text that `ascii` makes of the bytes. -/
def isHandshakeReply (line : List UInt8) : Bool :=
  match line.map (·.toNat % 128) with
  | 79 :: 75 :: 32 :: digits => digits ≠ [] && digits.all fun d => 48 ≤ d && d ≤ 57
  | _ => false

/-- The handler of `data`; a destroyed socket has no more of it. -/
def onData [One ν] [DecidableEq ν] (format : NumberFormat ν) (request : OutgoingRequest) (s : GuestSocket ν)
    (chunk : List UInt8) : GuestSocket ν :=
  if s.outcome.isSome then s
  else if s.handshake then
    let buffer := s.handshakeBuffer ++ chunk
    let line := buffer.takeWhile (· ≠ lineFeed)
    let remainder := buffer.drop (line.length + 1)
    if 128 < buffer.length then
      { s with handshakeBuffer := buffer }.fail "Invalid Firecracker vsock handshake"
    else if lineFeed ∉ buffer then { s with handshakeBuffer := buffer }
    else if isHandshakeReply line = false then
      { s with handshakeBuffer := buffer }.fail "Firecracker rejected the guest channel"
    else
      let sent := { s with handshakeBuffer := [], handshake := false }.sendRequest request
      if remainder = [] then sent else sent.consumeFrames format request.id remainder
  else s.consumeFrames format request.id chunk

end GuestSocket

/-! ### Lines -/

section Lines

variable {format : NumberFormat ν} {line chunk rest body : List UInt8} {values : List (JsonValue ν)}
  {frames : List (List UInt8)} {value : JsonValue ν} {frame : List UInt8}

/-- A frame: the text of its value, which is a line and within the bound, and a line feed. -/
structure IsFrame (format : NumberFormat ν) (value : JsonValue ν) (frame : List UInt8) : Prop where
  proper : value.Proper
  eq : frame = Utf8.encode (value.stringify format) ++ [lineFeed]
  length_le : frame.length ≤ maxGuestFrameBytes

lemma isFrame_of_encode (hproper : value.Proper)
    (h : encodeGuestFrame (value.stringify format) = some frame) : IsFrame format value frame := by
  rw [encodeGuestFrame] at h
  split at h
  · cases h
  · rename_i hlength
    obtain rfl := Option.some.inj h
    refine ⟨hproper, ?_, Nat.le_of_not_lt hlength⟩
    rw [Utf8.encode_append]
    rfl

lemma lineFeed_notMem_encode (format : NumberFormat ν) (value : JsonValue ν) :
    lineFeed ∉ Utf8.encode (value.stringify format) := by
  intro hmem
  have hnewline : ('\n').val.toNat < 128 := by decide
  exact JsonValue.newline_notMem_stringify format value (Utf8.mem_of_mem_encode hnewline hmem)

lemma encode_stringify_ne_nil (format : NumberFormat ν) (value : JsonValue ν) :
    Utf8.encode (value.stringify format) ≠ [] := by
  obtain ⟨c, text, htext, -⟩ := JsonValue.stringify_eq_cons format value
  refine Utf8.encode_ne_nil ?_
  rw [htext]
  exact List.cons_ne_nil c text

/-- Two lines that end at their first line feed. -/
lemma line_eq_of_append (hline : lineFeed ∉ line) (hbody : lineFeed ∉ body)
    {tail tail' : List UInt8} (h : line ++ lineFeed :: tail = body ++ lineFeed :: tail') :
    line = body ∧ tail = tail' := by
  induction line generalizing body with
  | nil =>
    cases body with
    | nil => exact ⟨rfl, (List.cons.inj h).2⟩
    | cons b body => exact absurd ((List.cons.inj h).1 ▸ List.mem_cons_self) hbody
  | cons a line ih =>
    cases body with
    | nil => exact absurd ((List.cons.inj h).1 ▸ List.mem_cons_self) hline
    | cons b body =>
      obtain ⟨hab, hrest⟩ := List.cons.inj h
      obtain ⟨hsame, htail⟩ := ih (fun hmem => hline (List.mem_cons_of_mem a hmem))
        (fun hmem => hbody (List.mem_cons_of_mem b hmem)) hrest
      exact ⟨hab ▸ hsame ▸ rfl, htail⟩

/-- A line without its end is no longer than the frame that it begins. -/
lemma length_le_of_append (hline : lineFeed ∉ line) (h : line ++ rest = body ++ lineFeed :: chunk) :
    line.length ≤ body.length := by
  rcases List.append_eq_append_iff.mp h with ⟨left, rfl, -⟩ | ⟨left, rfl, hleft⟩
  · rw [List.length_append]
    exact Nat.le_add_right _ _
  · cases left with
    | nil => exact Nat.le_of_eq (congrArg List.length (List.append_nil _))
    | cons b left =>
      refine absurd ?_ hline
      rw [(List.cons.inj hleft).1]
      exact List.mem_append_right _ List.mem_cons_self

/-- What is left of the frames after `line`, which begins the first of them. -/
structure Expects (format : NumberFormat ν) (line rest : List UInt8) (values : List (JsonValue ν))
    (frames : List (List UInt8)) : Prop where
  each : List.Forall₂ (IsFrame format) values frames
  eq : line ++ rest = frames.flatten
  open_line : lineFeed ∉ line

lemma Expects.length_le (h : Expects format line rest values frames) :
    line.length ≤ maxGuestFrameBytes := by
  cases hframes : frames with
  | nil =>
    have heq := h.eq
    rw [hframes, List.flatten_nil, List.append_eq_nil_iff] at heq
    rw [heq.1]
    exact Nat.zero_le _
  | cons frame frames' =>
    obtain ⟨value, hvalue, hframe⟩ := Table.exists_of_forall₂_right h.each (hframes ▸ List.mem_cons_self)
    have heq := h.eq
    rw [hframes, List.flatten_cons, hframe.eq, List.append_assoc, List.singleton_append] at heq
    have hle := length_le_of_append h.open_line heq
    have hbound := hframe.length_le
    rw [hframe.eq, List.length_append, List.length_singleton] at hbound
    omega

/-- The line up to a line feed is the text of the first frame. -/
lemma Expects.first (h : Expects format line (lineFeed :: rest) values frames) :
    ∃ value frame values' frames', values = value :: values' ∧ frames = frame :: frames' ∧
      IsFrame format value frame ∧ line = Utf8.encode (value.stringify format) ∧
      Expects format [] rest values' frames' := by
  obtain ⟨each, heq, hopen⟩ := h
  cases each with
  | nil => exact absurd heq (by simp)
  | @cons value frame values' frames' hframe hrest =>
    rw [List.flatten_cons, hframe.eq, List.append_assoc, List.singleton_append] at heq
    obtain ⟨hline, htail⟩ := line_eq_of_append hopen (lineFeed_notMem_encode format value) heq
    exact ⟨value, frame, values', frames', rfl, rfl, hframe, hline, hrest, htail, List.not_mem_nil⟩

/-- A chunk of the frames: the values whose frames it ends, and the line that it leaves open. -/
theorem decodeLines_expects {line rest : List UInt8} {values : List (JsonValue ν)}
    {frames : List (List UInt8)} (chunk : List UInt8) (h : Expects format line (chunk ++ rest) values frames) :
    ∃ done values' frames' line', values = done ++ values' ∧
      decodeLines format line chunk = .ok (done, line') ∧ Expects format line' rest values' frames' := by
  induction chunk generalizing line values frames with
  | nil =>
    refine ⟨[], values, frames, line, rfl, ?_, h⟩
    rw [decodeLines, if_neg (Nat.not_lt.mpr h.length_le)]
  | cons byte chunk ih =>
    by_cases hbyte : byte = lineFeed
    · subst hbyte
      obtain ⟨value, frame, values₁, frames₁, rfl, rfl, hframe, hline, hrest⟩ := h.first
      obtain ⟨done, values', frames', line', rfl, hdecode, hexpects⟩ := ih hrest
      refine ⟨value :: done, values', frames', line', rfl, ?_, hexpects⟩
      have hne : ¬line.length = 0 := by
        rw [List.length_eq_zero_iff, hline]
        exact encode_stringify_ne_nil format value
      have hlength : ¬maxGuestFrameBytes < line.length + 1 := by
        have hbound := hframe.length_le
        rw [hframe.eq, ← hline, List.length_append, List.length_singleton] at hbound
        exact Nat.not_lt.mpr hbound
      rw [decodeLines, if_pos rfl, if_neg hne, if_neg hlength]
      simp only [hline, Utf8.toText_encode, JsonValue.parse_stringify format hframe.proper, hdecode]
      rfl
    · have hexpects : Expects format (line ++ [byte]) (chunk ++ rest) values frames := by
        refine ⟨h.each, ?_, ?_⟩
        · rw [List.append_assoc]
          exact h.eq
        · rw [List.mem_append, List.mem_singleton]
          exact not_or.mpr ⟨h.open_line, fun heq => hbyte heq.symm⟩
      obtain ⟨done, values', frames', line', hvalues, hdecode, hrest⟩ := ih hexpects
      refine ⟨done, values', frames', line', hvalues, ?_, hrest⟩
      rw [decodeLines, if_neg hbyte, hdecode]

/-- The buffer holds an open line first. -/
lemma decodeLines_append (hline : lineFeed ∉ line) (done chunk : List UInt8) :
    decodeLines format done (line ++ chunk) = decodeLines format (done ++ line) chunk := by
  induction line generalizing done with
  | nil => rw [List.nil_append, List.append_nil]
  | cons byte line ih =>
    have hbyte : byte ≠ lineFeed := fun heq => hline (heq ▸ List.mem_cons_self)
    rw [List.cons_append, decodeLines, if_neg hbyte, ih fun hmem => hline (List.mem_cons_of_mem _ hmem),
      List.append_assoc, List.singleton_append]

lemma decodeGuestFrames_expects (h : Expects format line (chunk ++ rest) values frames)
    (hfits : (line ++ chunk).length ≤ maxGuestFrameBytes * 2) :
    ∃ done values' frames' line', values = done ++ values' ∧
      decodeGuestFrames format (line ++ chunk) = .ok (done, line') ∧
      Expects format line' rest values' frames' := by
  rw [decodeGuestFrames, if_neg (Nat.not_lt.mpr hfits), decodeLines_append h.open_line, List.nil_append]
  exact decodeLines_expects chunk h

/-- All chunks of the frames. -/
theorem decodeChunks_expects {line : List UInt8} {values : List (JsonValue ν)}
    {frames : List (List UInt8)} (chunks : List (List UInt8))
    (h : Expects format line chunks.flatten values frames) (hfits : FitsBuffer format line chunks) :
    decodeChunks format line chunks = .ok (values, []) := by
  induction chunks generalizing line values frames with
  | nil =>
    obtain ⟨each, heq, hopen⟩ := h
    rw [List.flatten_nil, List.append_nil] at heq
    cases each with
    | nil =>
      rw [heq]
      rfl
    | cons hframe hrest =>
      refine absurd ?_ hopen
      rw [heq, List.flatten_cons, hframe.eq]
      exact List.mem_append_left _ (List.mem_append_right _ List.mem_cons_self)
  | cons chunk chunks ih =>
    rw [List.flatten_cons] at h
    obtain ⟨hbuffer, hrest⟩ := hfits
    obtain ⟨done, values', frames', line', rfl, hdecode, hexpects⟩ := decodeGuestFrames_expects h hbuffer
    rw [decodeChunks, hdecode]
    simp only [ih hexpects (hrest _ hdecode)]
    rfl

end Lines

/-! ### One response -/

namespace GuestSocket

variable {format : NumberFormat ν} {request : OutgoingRequest} {s : GuestSocket ν} {value : JsonValue ν}
  {frame chunk rest reply : List UInt8}

/-- A frame is on its way: the buffer has its first bytes. -/
structure Receives (format : NumberFormat ν) (value : JsonValue ν) (frame : List UInt8)
    (s : GuestSocket ν) (rest : List UInt8) : Prop where
  waiting : s.outcome = none
  handshaken : s.handshake = false
  expects : Expects format s.frameBuffer rest [value] [frame]

/-- The reply to the handshake is on its way. -/
structure Shakes (s : GuestSocket ν) (reply rest : List UInt8) : Prop where
  waiting : s.outcome = none
  handshake : s.handshake = true
  frameBuffer : s.frameBuffer = []
  eq : s.handshakeBuffer ++ rest = reply ++ [lineFeed]
  open_line : lineFeed ∉ s.handshakeBuffer

/-- A socket that has sent its request. -/
structure Ready (s : GuestSocket ν) : Prop where
  waiting : s.outcome = none
  handshaken : s.handshake = false
  frameBuffer : s.frameBuffer = []

lemma Ready.sendRequest (hwaiting : s.outcome = none) (hhandshaken : s.handshake = false)
    (hbuffer : s.frameBuffer = []) (hframe : request.frame.isSome = true) :
    Ready (s.sendRequest request) := by
  obtain ⟨bytes, hbytes⟩ := Option.isSome_iff_exists.mp hframe
  rw [GuestSocket.sendRequest, hbytes]
  exact ⟨hwaiting, hhandshaken, hbuffer⟩

lemma Ready.receives (h : Ready s) (hframe : IsFrame format value frame) :
    Receives format value frame s frame := by
  refine ⟨h.waiting, h.handshaken, .cons hframe .nil, ?_, ?_⟩
  · rw [h.frameBuffer, List.flatten_singleton, List.nil_append]
  · rw [h.frameBuffer]
    exact List.not_mem_nil

lemma lineFeed_notMem_reply (h : isHandshakeReply reply = true) : lineFeed ∉ reply := by
  intro hmem
  have hmem' : (10 : ℕ) ∈ reply.map (·.toNat % 128) := List.mem_map.mpr ⟨lineFeed, hmem, rfl⟩
  rw [isHandshakeReply] at h
  split at h
  · rename_i digits hdigits
    rw [hdigits] at hmem'
    simp only [Bool.and_eq_true, List.all_eq_true, decide_eq_true_eq] at h
    have hdigit : 10 ∈ digits := by simpa using hmem'
    exact absurd (h.2 10 hdigit).1 (by decide)
  · cases h

/-- The buffer has the line feed with the end of the reply. -/
lemma Shakes.complete (h : Shakes s reply (chunk ++ rest)) (hreply : lineFeed ∉ reply)
    (hmem : lineFeed ∈ s.handshakeBuffer ++ chunk) :
    s.handshakeBuffer ++ chunk = reply ++ [lineFeed] ∧ rest = [] := by
  have heq := h.eq
  rw [← List.append_assoc] at heq
  rcases List.append_eq_append_iff.mp heq with ⟨left, hleft, -⟩ | ⟨left, hleft, hrest⟩
  · refine absurd ?_ hreply
    rw [hleft]
    exact List.mem_append_left _ hmem
  · cases left with
    | nil =>
      rw [List.append_nil] at hleft
      exact absurd (hleft ▸ hmem) hreply
    | cons b left =>
      obtain ⟨rfl, hnil⟩ := List.cons.inj hrest
      obtain ⟨rfl, rfl⟩ := List.append_eq_nil_iff.mp hnil.symm
      exact ⟨hleft, rfl⟩

section Data

variable [One ν] [DecidableEq ν]

lemma foldl_settled {chunks : List (List UInt8)} (h : s.outcome.isSome = true) :
    chunks.foldl (onData format request) s = s := by
  induction chunks with
  | nil => rfl
  | cons chunk chunks ih => rw [List.foldl_cons, onData, if_pos h, ih]

/-- A chunk of the frame is kept until the last one is there. -/
lemma Receives.onData (h : Receives format value frame s (chunk ++ rest)) :
    Receives format value frame (s.onData format request chunk) rest ∨
      rest = [] ∧ (s.onData format request chunk).outcome = some (respond request.id value) := by
  obtain ⟨hwaiting, hhandshaken, hexpects⟩ := h
  have heq := hexpects.eq
  rw [List.flatten_singleton, ← List.append_assoc] at heq
  have hlength : (s.frameBuffer ++ chunk).length ≤ maxGuestFrameBytes := by
    cases hexpects.each with
    | cons hframe _ =>
      have hbound := hframe.length_le
      rw [← heq, List.length_append] at hbound
      omega
  obtain ⟨done, values', frames', line', hvalues, hdecode, hrest⟩ :=
    decodeGuestFrames_expects hexpects (by omega)
  rw [GuestSocket.onData, if_neg (by simp [hwaiting]), if_neg (by simp [hhandshaken]),
    consumeFrames]
  simp only [if_neg (Nat.not_lt.mpr hlength), hdecode]
  cases done with
  | nil =>
    obtain rfl : [value] = values' := hvalues
    obtain ⟨heach, heq', hopen⟩ := hrest
    left
    refine ⟨hwaiting, hhandshaken, ?_⟩
    cases heach with
    | @cons _ frame' _ _ hframe' hnil =>
      cases hnil
      cases hexpects.each with
      | cons hframe _ =>
        obtain rfl : frame' = frame := hframe'.eq.trans hframe.eq.symm
        exact ⟨hexpects.each, heq', hopen⟩
  | cons first done =>
    obtain ⟨rfl, hdone⟩ := List.cons.inj hvalues
    obtain ⟨rfl, rfl⟩ := List.append_eq_nil_iff.mp hdone.symm
    obtain ⟨heach, heq', -⟩ := hrest
    cases heach
    obtain ⟨rfl, rfl⟩ := List.append_eq_nil_iff.mp heq'
    right
    refine ⟨rfl, ?_⟩
    simp only [finish, hwaiting, Option.isSome_none, Bool.false_eq_true, if_false]

/-- However a frame is cut, the promise gets what it says. -/
theorem Receives.outcome {s : GuestSocket ν} (chunks : List (List UInt8))
    (h : Receives format value frame s chunks.flatten) :
    (chunks.foldl (GuestSocket.onData format request) s).outcome = some (respond request.id value) := by
  induction chunks generalizing s with
  | nil =>
    obtain ⟨-, -, heach, heq, hopen⟩ := h
    cases heach with
    | cons hframe _ =>
      refine absurd ?_ hopen
      rw [List.flatten_nil, List.append_nil, List.flatten_singleton, hframe.eq] at heq
      rw [heq]
      exact List.mem_append_right _ List.mem_cons_self
  | cons chunk chunks ih =>
    rw [List.flatten_cons] at h
    rw [List.foldl_cons]
    rcases h.onData with hreceives | ⟨-, houtcome⟩
    · exact ih hreceives
    · rw [foldl_settled (by rw [houtcome]; rfl)]
      exact houtcome

/-- Nothing arrives. -/
lemma Ready.onData_nil (h : Ready s) : Ready (s.onData format request []) := by
  rw [GuestSocket.onData, if_neg (by simp [h.waiting]), if_neg (by simp [h.handshaken]), consumeFrames]
  simp only [h.frameBuffer, List.append_nil, List.length_nil, decodeGuestFrames, decodeLines]
  exact ⟨h.waiting, h.handshaken, rfl⟩

lemma Shakes.onData (h : Shakes s reply (chunk ++ rest)) (hreply : isHandshakeReply reply = true)
    (hlength : reply.length < 128) (hframe : request.frame.isSome = true) :
    Shakes (s.onData format request chunk) reply rest ∨
      rest = [] ∧ Ready (s.onData format request chunk) := by
  have hbuffer : (s.handshakeBuffer ++ chunk).length ≤ 128 := by
    have heq := congrArg List.length h.eq
    simp only [List.length_append, List.length_singleton] at heq ⊢
    omega
  rw [GuestSocket.onData, if_neg (by simp [h.waiting]), if_pos h.handshake]
  simp only [if_neg (Nat.not_lt.mpr hbuffer)]
  by_cases hmem : lineFeed ∈ s.handshakeBuffer ++ chunk
  · obtain ⟨hcomplete, hrest⟩ := h.complete (lineFeed_notMem_reply hreply) hmem
    have hline : (reply ++ [lineFeed]).takeWhile (fun b => decide (b ≠ lineFeed)) = reply := by
      rw [List.takeWhile_append_of_pos fun b hb => ?_]
      · simp
      · have hne : b ≠ lineFeed := fun heq => lineFeed_notMem_reply hreply (heq ▸ hb)
        simp [hne]
    have hremainder : (reply ++ [lineFeed]).drop (reply.length + 1) = [] := by
      rw [← List.length_singleton, ← List.length_append]
      exact List.drop_length
    right
    refine ⟨hrest, ?_⟩
    rw [if_neg (not_not.mpr hmem), hcomplete, hline, if_neg (by simp [hreply]), if_pos hremainder]
    exact Ready.sendRequest h.waiting rfl h.frameBuffer hframe
  · left
    rw [if_pos hmem]
    refine ⟨h.waiting, h.handshake, h.frameBuffer, ?_, hmem⟩
    rw [List.append_assoc]
    exact h.eq

lemma Ready.foldl_onData {s : GuestSocket ν} {chunks : List (List UInt8)} (h : Ready s)
    (hnil : chunks.flatten = []) : Ready (chunks.foldl (GuestSocket.onData format request) s) := by
  induction chunks generalizing s with
  | nil => exact h
  | cons chunk chunks ih =>
    obtain ⟨rfl, hrest⟩ := List.append_eq_nil_iff.mp (List.flatten_cons ▸ hnil)
    exact ih h.onData_nil hrest

lemma Shakes.ready {s : GuestSocket ν} (chunks : List (List UInt8)) (h : Shakes s reply chunks.flatten)
    (hreply : isHandshakeReply reply = true) (hlength : reply.length < 128)
    (hframe : request.frame.isSome = true) :
    Ready (chunks.foldl (GuestSocket.onData format request) s) := by
  induction chunks generalizing s with
  | nil =>
    refine absurd ?_ h.open_line
    have heq := h.eq
    rw [List.flatten_nil, List.append_nil] at heq
    rw [heq]
    exact List.mem_append_right _ List.mem_cons_self
  | cons chunk chunks ih =>
    rw [List.flatten_cons] at h
    rcases h.onData hreply hlength hframe with hshakes | ⟨hnil, hready⟩
    · exact ih hshakes
    · exact hready.foldl_onData hnil

end Data

/-- What arrives before the request is sent: nothing, or the reply to the handshake. -/
def Opens : GuestEndpoint → List (List UInt8) → Prop
  | .unix _, chunks => chunks = []
  | .firecrackerVsock _ _, chunks => ∃ reply, isHandshakeReply reply = true ∧ reply.length < 128 ∧
    chunks.flatten = reply ++ [lineFeed]

lemma ready_of_opens [One ν] [DecidableEq ν] {endpoint : GuestEndpoint} {opening : List (List UInt8)}
    (h : Opens endpoint opening) (hframe : request.frame.isSome = true) :
    Ready (opening.foldl (GuestSocket.onData format request) ((opened endpoint).onConnect endpoint request)) := by
  cases endpoint with
  | unix path =>
    obtain rfl : opening = [] := h
    exact Ready.sendRequest rfl rfl rfl hframe
  | firecrackerVsock path port =>
    obtain ⟨reply, hreply, hlength, hflatten⟩ := h
    exact Shakes.ready opening ⟨rfl, rfl, rfl, hflatten, List.not_mem_nil⟩ hreply hlength hframe

end GuestSocket

/-- The frames that are accepted are read back from any chunks, and what a request gets for a frame does
not depend on the chunks either. -/
theorem frames_of_chunks [One ν] [DecidableEq ν] (format : NumberFormat ν) :
    (∀ values frames chunks, (∀ value ∈ values, value.Proper) →
      List.Forall₂ (fun value frame => encodeGuestFrame (value.stringify format) = some frame)
        values frames →
      chunks.flatten = frames.flatten → FitsBuffer format [] chunks →
      decodeChunks format [] chunks = .ok (values, [])) ∧
    ∀ endpoint request opening value frame chunks, request.frame.isSome = true →
      GuestSocket.Opens endpoint opening → value.Proper →
      encodeGuestFrame (value.stringify format) = some frame → chunks.flatten = frame →
      ((opening ++ chunks).foldl (GuestSocket.onData format request)
        ((GuestSocket.opened endpoint).onConnect endpoint request)).outcome =
          some (respond request.id value) := by
  refine ⟨fun values frames chunks hproper hencode hflatten hfits => ?_,
    fun endpoint request opening value frame chunks hframe hopens hproper hencode hflatten => ?_⟩
  · refine decodeChunks_expects chunks ⟨?_, hflatten, List.not_mem_nil⟩ hfits
    refine Table.forall₂_of_mem hencode fun value frame hvalue h => ?_
    exact isFrame_of_encode (hproper value hvalue) h
  · subst hflatten
    rw [List.foldl_append]
    exact ((GuestSocket.ready_of_opens hopens hframe).receives (isFrame_of_encode hproper hencode)).outcome
      chunks

/-- A text with a character of two bytes, and an array. -/
def cutValues : List (JsonValue ℕ) := [.string [233], .array [.number 12, .null]]

/-- The frames of the two values, cut inside the character and inside the second frame. -/
def cutChunks : List (List UInt8) :=
  [[34, 195], [169, 34, 10, 91], [49, 50, 44, 110, 117, 108, 108, 93, 10]]

/-- An answer to the request `0`. -/
def answeredValue : JsonValue ℕ := .object [
  (Utf16.encode "version".toList, .number 1), (Utf16.encode "id".toList, .string [48]),
  (Utf16.encode "ok".toList, .bool true), (Utf16.encode "result".toList, .string [233])]

def answeredFrame : List UInt8 := Utf8.encode (answeredValue.stringify .decimal ++ ['\n'])

theorem frames_of_chunks_cut :
    decodeChunks .decimal [] cutChunks = .ok (cutValues, []) ∧
      (([[79], [75, 32, 53, 50, 10]] ++ [answeredFrame.take 43, answeredFrame.drop 43]).foldl
        (GuestSocket.onData .decimal ⟨default, some [10]⟩)
        ((GuestSocket.opened (.firecrackerVsock "vsock" 52)).onConnect (.firecrackerVsock "vsock" 52)
          ⟨default, some [10]⟩)).outcome = some (.ok (some (.string [233]))) := by
  have hfits : FitsBuffer .decimal [] cutChunks := by
    refine ⟨by decide, fun decoded hdecoded => ?_⟩
    obtain rfl : ([], [34, 195]) = decoded := Except.ok.inj hdecoded
    refine ⟨by decide, fun decoded hdecoded => ?_⟩
    obtain rfl : ([.string [233]], [91]) = decoded := Except.ok.inj hdecoded
    exact ⟨by decide, fun _ _ => trivial⟩
  have hproper : ∀ value ∈ cutValues, value.Proper := by
    simp only [cutValues, List.mem_cons, List.not_mem_nil, or_false]
    rintro value (rfl | rfl)
    · exact trivial
    · exact ⟨trivial, trivial, trivial⟩
  have hopens : GuestSocket.Opens (.firecrackerVsock "vsock" 52) [[79], [75, 32, 53, 50, 10]] :=
    ⟨[79, 75, 32, 53, 50], by decide, by decide, rfl⟩
  have hresponse : respond default answeredValue = .ok (some (.string [233])) := rfl
  constructor
  · refine (frames_of_chunks NumberFormat.decimal).1 cutValues
      [[34, 195, 169, 34, 10], [91, 49, 50, 44, 110, 117, 108, 108, 93, 10]] cutChunks hproper ?_ rfl hfits
    exact .cons (by decide +kernel) (.cons (by decide +kernel) .nil)
  · rw [← hresponse]
    refine (frames_of_chunks NumberFormat.decimal).2 _ ⟨default, some [10]⟩ _ answeredValue answeredFrame _ rfl
      hopens ?_ ?_ ?_
    · exact ⟨by decide +kernel, trivial, trivial, trivial, trivial, trivial⟩
    · decide +kernel
    · rw [List.flatten_cons, List.flatten_singleton, List.take_append_drop]

end Bloom
