import BloomWorkspaces.Control.AgentReplies
import BloomWorkspaces.Guest.Protocol

/-!
# From the guest to the browser

An error that the guest reports crosses two sockets and two servers. Its message arrives unchanged, and
its code determines the status, however the bytes are cut on the way.
-/

namespace Bloom

variable {ν : Type}

/-- The response of the guest for an error, as the value that the agent parses. -/
def errorValue [One ν] (id : RequestId) (code : ErrorCode) (message : String) : JsonValue ν :=
  .object [(jsText "error", .object [(jsText "code", .string (jsText code.text)),
      (jsText "message", .string (jsText message))]),
    (jsText "id", .string (Utf16.encode id.chars)), (jsText "ok", .bool false), (jsText "version", .number 1)]

/-- The code and the message of an error of the channel that the guest has reported. -/
def GuestChannelError.reported : GuestChannelError ν → Option (ErrorCode × JsText)
  | .guest code message => some (code, message)
  | _ => none

/-- What the handler of a request throws: those for files go through `GuestWorkspace`. -/
def AgentFailure.ofGuest (isFile : Bool) (code : ErrorCode) (message : JsText) : AgentFailure :=
  if isFile then ofFileRequest (some code) message else .guest (some code) message

/-- The status that the browser sees for an error of the guest. -/
def browserStatus (isFile : Bool) : ErrorCode → ℕ
  | .notFound => 404
  | .conflict => 409
  | .limitExceeded => 413
  | .unavailable => 501
  | .permissionDenied => if isFile then 400 else 403
  | .invalidRequest | .internal => 400

section Frames

variable {format : NumberFormat ν} {id : RequestId} {code : ErrorCode} {message : String}

lemma text_errorJson [One ν] (hone : format.text 1 = ['1']) (id : RequestId) (code : ErrorCode)
    (message : String) : (GuestControl.errorJson (String.ofList id.chars) code message).text =
      (errorValue id code message).stringify format := by
  have hversion : (Json.number (some 1)).text = ['1'] := by decide
  simp only [GuestControl.errorJson, errorValue, Json.text_object, Json.fieldTexts_cons, Json.text_string,
    JsonValue.stringify, JsonValue.stringifyFields, jsonField, jsonString, jsText, String.toList_ofList,
    hversion, hone]
  rfl

/-- An error whose message is as long as the agent accepts fits into a frame. -/
lemma length_frameOf_le (id : RequestId) (code : ErrorCode) (hmessage : (jsText message).length ≤ 1024) :
    (GuestControl.frameOf (GuestControl.errorJson (String.ofList id.chars) code message)).length ≤
      Client.maxFrameBytes := by
  have hid : isRequestId (String.ofList id.chars) = true := by
    simpa [isRequestId, and_assoc] using id.valid
  have htext : JsonText.size (Json.string message).text ≤ 6146 := by
    refine Nat.le_trans (JsonText.size_string_le (Utf16.encode message.toList)) ?_
    rw [jsText] at hmessage
    omega
  have hkeys : ["code", "message"].all Client.isShortKey = true := by decide
  have herror := GuestControl.size_object_le hkeys
    (.cons (Client.size_name_le (GuestControl.isShortKey_code code)) (.cons htext .nil)) rfl
  have hkeys' : ["error", "id", "ok", "version"].all Client.isShortKey = true := by decide
  have hframe := GuestControl.size_object_le hkeys' (.cons herror (.cons (GuestControl.size_id_le hid)
    (.cons (Client.size_bool_le false) (.cons Client.size_version_le .nil)))) rfl
  rw [GuestControl.length_frameOf]
  exact Nat.le_trans (Nat.succ_le_succ hframe) (by decide)

lemma encodeGuestFrame_errorValue [One ν] (hone : format.text 1 = ['1']) (id : RequestId) (code : ErrorCode)
    (hmessage : (jsText message).length ≤ 1024) :
    encodeGuestFrame ((errorValue id code message).stringify format) =
      some (GuestControl.encodeResponse (GuestControl.errorJson (String.ofList id.chars) code message)) := by
  have hlength := length_frameOf_le id code hmessage
  rw [GuestControl.encodeResponse, if_neg (Nat.not_lt.mpr hlength), encodeGuestFrame, ← text_errorJson hone]
  exact if_neg (Nat.not_lt.mpr hlength)

lemma proper_errorValue [One ν] (id : RequestId) (code : ErrorCode) (message : String) :
    (errorValue id code message : JsonValue ν).Proper := by
  have houter : [jsText "error", jsText "id", jsText "ok", jsText "version"].Nodup := by decide +kernel
  have hinner : [jsText "code", jsText "message"].Nodup := by decide +kernel
  exact ⟨houter, ⟨hinner, trivial, trivial, trivial⟩, trivial, trivial, trivial, trivial⟩

lemma parseCode_text (code : ErrorCode) :
    GuestResponse.parseCode (some (.string (jsText code.text) : JsonValue ν)) = some code := by
  rw [GuestResponse.parseCode]
  cases code <;> decide +kernel

lemma parseId_encode (id : RequestId) :
    GuestResponse.parseId (some (.string (Utf16.encode id.chars) : JsonValue ν)) =
      some (Utf16.encode id.chars) := by
  obtain ⟨hpos, hle, hchars⟩ := id.valid
  have hsmall : ∀ c ∈ id.chars, c.val.toNat < 65536 := by
    intro c hc
    have hbare := isBare_of_isIdChar (hchars c hc)
    simp only [JsonText.isBare, Bool.and_eq_true, decide_eq_true_eq] at hbare
    omega
  have hunits : ∀ u ∈ Utf16.encode id.chars, isIdChar (Char.ofNat u.toNat) = true := by
    rw [Utf16.encode_eq_map hsmall]
    intro u hu
    obtain ⟨c, hc, rfl⟩ := List.mem_map.mp hu
    rw [Utf16.toNat_ofNat (hsmall c hc), Utf16.ofNat_val]
    exact hchars c hc
  have hlength : (Utf16.encode id.chars).length = id.chars.length := by
    rw [Utf16.encode_eq_map hsmall, List.length_map]
  rw [GuestResponse.parseId, if_pos ⟨by omega, by omega, List.all_eq_true.mpr hunits⟩]

lemma field_cons (fields : List (JsText × JsonValue ν)) (name name' : String) (value : JsonValue ν) :
    GuestResponse.field ((jsText name, value) :: fields) name' =
      if name = name' then some value else GuestResponse.field fields name' := by
  rw [GuestResponse.field, List.find?_cons]
  by_cases hname : name = name'
  · rw [if_pos hname, hname, jsText, decide_eq_true rfl]
    rfl
  · have hne : jsText name ≠ Utf16.encode name'.toList := fun heq =>
      hname (String.toList_inj.mp (Utf16.encode_injective heq))
    rw [if_neg hname, decide_eq_false hne]
    rfl

lemma parse_errorValue [One ν] [DecidableEq ν] (id : RequestId) (code : ErrorCode)
    (hne : 1 ≤ (jsText message).length) (hmessage : (jsText message).length ≤ 1024) :
    GuestResponse.parse (errorValue id code message : JsonValue ν) =
      some (.failed (Utf16.encode id.chars) code (jsText message)) := by
  have herror : GuestResponse.parseError (some (.object [(jsText "code", .string (jsText code.text)),
      (jsText "message", .string (jsText message))] : JsonValue ν)) = some (code, jsText message) := by
    simp [GuestResponse.parseError, field_cons, parseCode_text, GuestResponse.parseMessage, hne, hmessage]
  rw [errorValue, GuestResponse.parse]
  simp [field_cons, parseId_encode, GuestResponse.isVersion, herror]

lemma respond_errorValue [One ν] [DecidableEq ν] (id : RequestId) (code : ErrorCode)
    (hne : 1 ≤ (jsText message).length) (hmessage : (jsText message).length ≤ 1024) :
    respond id (errorValue id code message : JsonValue ν) = .error (.guest code (jsText message)) := by
  rw [respond, parse_errorValue id code hne hmessage]
  simp [GuestResponse.id]

end Frames

/-! ### Statuses -/

lemma publicStatus_ofGuest (isFile : Bool) (code : ErrorCode) (message : JsText) :
    (AgentFailure.ofGuest isFile code message).status = browserStatus isFile code ∧
      AgentClient.publicStatus (browserStatus isFile code) = browserStatus isFile code ∧
        400 ≤ browserStatus isFile code := by
  cases isFile <;> cases code <;> exact ⟨rfl, rfl, by decide⟩

lemma message_ofGuest (isFile : Bool) (code : ErrorCode) (message : JsText) :
    (AgentFailure.ofGuest isFile code message).message = message := by
  cases isFile <;> rfl

/-- The reply for a message of the guest is never too long for the client. -/
lemma length_errorReply_le (format : NumberFormat ν) (status : ℕ) {message : JsText}
    (hmessage : message.length ≤ 1024) (binaryResponse : Bool) :
    (errorReply format status message).body.length ≤ AgentClient.responseLimit binaryResponse := by
  have hstring := JsonText.size_string_le message
  have hkey : JsonText.size (JsonText.string (jsText "error")) = 7 := by decide +kernel
  have hbody : (errorReply format status message).body.length =
      JsonText.size (JsonText.object [JsonText.field (jsText "error") (JsonText.string message)]) := rfl
  have hlimit : 1024 * 1024 ≤ AgentClient.responseLimit binaryResponse := by
    cases binaryResponse <;> decide
  rw [hbody, JsonText.size_object]
  simp only [List.map_cons, List.map_nil, List.sum_cons, List.sum_nil, List.length_cons, List.length_nil,
    JsonText.size_field, hkey]
  omega

/-! ### The path of an error -/

/-- How errors reach the browser: those of the agent with their message, and with a status that the browser
is told about or 503; those of the guest with the status that belongs to their code. -/
structure ErrorPath [One ν] [DecidableEq ν] (format : NumberFormat ν) (textOf : JsonValue ν → JsText) :
    Prop where
  agent : ∀ (failure : AgentFailure) (binaryResponse : Bool) (chunks : List (List UInt8)),
    400 ≤ failure.status → chunks.flatten = (failure.reply format).body →
    controlReply format textOf (AgentClient.receive format binaryResponse failure.status chunks) =
      if AgentClient.responseLimit binaryResponse < chunks.flatten.length then
        some (errorReply format 503 (jsText "Node agent response exceeded the size limit"))
      else some (errorReply format (AgentClient.publicStatus failure.status) failure.message)
  guest : ∀ (endpoint : GuestEndpoint) (request : OutgoingRequest) (opening chunks : List (List UInt8))
    (code : ErrorCode) (message : String), request.frame.isSome = true →
    GuestSocket.Opens endpoint opening → 1 ≤ (jsText message).length → (jsText message).length ≤ 1024 →
    chunks.flatten = GuestControl.encodeResponse
      (GuestControl.errorJson (String.ofList request.id.chars) code message) →
    ((opening ++ chunks).foldl (GuestSocket.onData format request)
      ((GuestSocket.opened endpoint).onConnect endpoint request)).outcome =
        some (.error (.guest code (jsText message))) ∧
    ∀ (isFile binaryResponse : Bool) (replies : List (List UInt8)),
      replies.flatten = ((AgentFailure.ofGuest isFile code (jsText message)).reply format).body →
      controlReply format textOf (AgentClient.receive format binaryResponse
        (AgentFailure.ofGuest isFile code (jsText message)).status replies) =
          some (errorReply format (browserStatus isFile code) (jsText message))

theorem error_reaches_browser [One ν] [DecidableEq ν] (format : NumberFormat ν) (hone : format.text 1 = ['1'])
    (textOf : JsonValue ν → JsText) : ErrorPath format textOf := by
  refine ⟨fun failure binaryResponse chunks hstatus hchunks =>
    failure.controlReply_of_reply format textOf binaryResponse chunks hstatus hchunks,
    fun endpoint request opening chunks code message hframe hopens hne hmessage hchunks => ⟨?_, ?_⟩⟩
  · have hproper : (errorValue request.id code message : JsonValue ν).Proper :=
      proper_errorValue request.id code message
    have hencode := encodeGuestFrame_errorValue hone request.id code hmessage
    have hready : GuestSocket.Ready (opening.foldl (GuestSocket.onData format request)
        ((GuestSocket.opened endpoint).onConnect endpoint request)) :=
      GuestSocket.ready_of_opens hopens hframe
    have hreceives := hready.receives (isFrame_of_encode hproper hencode)
    rw [← hchunks] at hreceives
    rw [List.foldl_append, hreceives.outcome, respond_errorValue request.id code hne hmessage]
  · intro isFile binaryResponse replies hreplies
    obtain ⟨hstatus, hpublic, hle⟩ := publicStatus_ofGuest isFile code (jsText message)
    have hlength := length_errorReply_le format (browserStatus isFile code) hmessage binaryResponse
    rw [AgentFailure.controlReply_of_reply format textOf _ binaryResponse replies (hstatus ▸ hle) hreplies,
      hstatus, hpublic, message_ofGuest, if_neg]
    rw [hreplies, AgentFailure.reply, message_ofGuest, hstatus]
    exact Nat.not_lt.mpr hlength

theorem error_reaches_browser_decimal : ErrorPath NumberFormat.decimal fun _ => [] :=
  error_reaches_browser NumberFormat.decimal (by decide) fun _ => []

end Bloom
