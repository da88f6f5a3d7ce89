import BloomWorkspaces.Agent.GuestFrames
import BloomWorkspaces.Guest.Client
import BloomWorkspaces.Guest.Listing

/-!
# The protocol of the guest

The responses of `handle` as JSON values, and the frames of `protocol.rs`. The keys of an object are in
order.
-/

namespace Bloom

namespace GuestControl

/-! ### Results -/

/-- A number of 64 bits. -/
def jsonWord (n : ℤ) : Json := .number (some (n % 2 ^ 64))

def optionalNumber (n : Option ℕ) : Json := n.elim .null fun n => jsonWord n

/-- A path whose name is a text. -/
def jsonPath (path : FileName) : Json := .string (String.ofList (Utf8.toText path))

def jsonBytes (data : List Char) : Json := .string (String.ofList data)

def kindName : WorkspaceFiles.EntryKind → String
  | .symlink => "symlink"
  | .directory => "directory"
  | .file => "file"

def stateName : JobState → String
  | .queued => "queued"
  | .running => "running"
  | .succeeded => "succeeded"
  | .failed => "failed"
  | .cancelled => "cancelled"
  | .timedOut => "timed_out"

/-- An entry of a listing with its `st_mtime`. -/
def entryJson (mtime : ℤ) (entry : WorkspaceFiles.ListEntry) : Json := .object [
  ("modifiedAt", jsonWord (WorkspaceFiles.modifiedAt mtime)),
  ("path", jsonPath entry.path),
  ("size", jsonWord entry.size),
  ("type", .string (kindName entry.kind))]

def readJson (reply : WorkspaceFiles.ReadReply) : Json := .object [
  ("data", jsonBytes reply.data),
  ("eof", .bool reply.eof),
  ("nextOffset", jsonWord reply.nextOffset),
  ("offset", jsonWord reply.offset),
  ("path", .string reply.path),
  ("size", jsonWord reply.size)]

def writeJson (reply : WorkspaceFiles.WriteReply) : Json := .object [
  ("nextOffset", jsonWord reply.nextOffset),
  ("path", .string reply.path),
  ("quotaBytes", jsonWord reply.quotaBytes),
  ("size", jsonWord reply.size),
  ("usedBytes", jsonWord reply.usedBytes)]

def deleteJson (reply : WorkspaceFiles.DeleteReply) : Json := .object [
  ("deleted", .bool true),
  ("path", .string reply.path),
  ("quotaBytes", jsonWord reply.quotaBytes),
  ("usedBytes", jsonWord reply.usedBytes)]

def logsJson : Except String LogChunk → Json
  | .error message => .object [("error", .string message)]
  | .ok chunk => .object [
    ("data", jsonBytes chunk.data),
    ("encoding", .string chunk.encoding),
    ("endOffset", jsonWord chunk.endOffset),
    ("eof", .bool chunk.eof),
    ("nextOffset", jsonWord chunk.nextOffset),
    ("offset", jsonWord chunk.offset),
    ("truncatedBefore", .bool chunk.truncatedBefore)]

def jobJson (reply : JobReply) : Json := .object [
  ("createdAt", jsonWord reply.createdAt),
  ("exitCode", optionalNumber reply.exitCode),
  ("finishedAt", optionalNumber reply.finishedAt),
  ("jobId", .string reply.jobId),
  ("logs", logsJson reply.logs),
  ("signal", optionalNumber reply.signal),
  ("startedAt", optionalNumber reply.startedAt),
  ("state", .string (stateName reply.state)),
  ("timeoutMs", jsonWord reply.timeoutMs)]

def pendingJson (request : PendingRequest) : Json := .object [
  ("ceremonyUrl", request.ceremonyUrl.elim .null .string),
  ("chain", .string request.chain),
  ("id", .string request.id),
  ("planMd", .string request.planMd),
  ("wallet", .string request.wallet)]

/-- The times are those of the paths of a listing. -/
def OperationResult.json (mtime : FileName → ℤ) : OperationResult → Json
  | .value json => json
  | .files entries =>
    .object [("files", .array (entries.map fun entry => entryJson (mtime entry.path) entry))]
  | .read reply => readJson reply
  | .write reply => writeJson reply
  | .delete reply => deleteJson reply
  | .job reply => jobJson reply
  | .requests pending => .object [("requests", .array (pending.map pendingJson))]

/-! ### Responses -/

def okJson (id : String) (result : Json) : Json := .object [
  ("id", .string id), ("ok", .bool true), ("result", result), ("version", .number (some 1))]

def errorJson (id : String) (code : ErrorCode) (message : String) : Json := .object [
  ("error", .object [("code", .string code.text), ("message", .string message)]),
  ("id", .string id), ("ok", .bool false), ("version", .number (some 1))]

def Response.id : Response → String
  | .ok id _ => id
  | .error id _ _ => id

def Response.json (mtime : FileName → ℤ) : Response → Json
  | .ok id result => okJson id (result.json mtime)
  | .error id code message => errorJson id code message

/-! ### Frames -/

/-- What the process of the guest meets: the calls of its operations, `serde_json::from_slice`, and the
`st_mtime` of what a listing finds, by its path. -/
structure Daemon where
  surroundings : Surroundings
  fromSlice : List UInt8 → Option Json
  mtime : FileName → ℤ

def frameOf (json : Json) : List UInt8 := Utf8.encode (json.text ++ ['\n'])

def decodeFrame (d : Daemon) (frame : List UInt8) : Except ControlError Json :=
  if Client.maxFrameBytes < frame.length then
    .error (.limitExceeded "guest protocol frame is too large")
  else if frame.getLast? ≠ some lineFeed then
    .error (.invalidRequest "guest protocol frame must end with a newline")
  else
    match d.fromSlice frame.dropLast with
    | none => .error (.invalidRequest "guest protocol frame is not valid UTF-8 JSON")
    | some request => .ok request

def encodeResponse (response : Json) : List UInt8 :=
  if Client.maxFrameBytes < (frameOf response).length then
    frameOf (errorJson ((response.index "id").asStr.getD "invalid") .internal
      "guest response exceeded the frame limit")
  else frameOf response

def processFrame (d : Daemon) (frame : List UInt8) (g : GuestState) :
    Except Crash (List UInt8) × GuestState :=
  match decodeFrame d frame with
  | .error error => (.ok (encodeResponse (errorJson "invalid" error.code error.message)), g)
  | .ok request =>
    let (response, g') := handle d.surroundings request g
    (response.map fun response => encodeResponse (response.json d.mtime), g')

/-! ### Lines -/

/-- The bytes before the newline that ends a frame. -/
structure Line where
  body : List UInt8
  single : lineFeed ∉ body

def Line.bytes (line : Line) : List UInt8 := line.body ++ [lineFeed]

end GuestControl

namespace Json

lemma newline_notMem_number (n : ℕ) : '\n' ∉ JsonText.number n := by
  intro hmem
  have hdigit := Nat.isDigit_of_mem_toDigits (by decide) (by decide) hmem
  revert hdigit
  decide

lemma newline_notMem_integer (n : ℤ) : '\n' ∉ JsonText.integer n := by
  have hsign : '\n' ∉ (if n < 0 then ['-'] else []) := by
    split
    · decide
    · exact List.not_mem_nil
  rw [JsonText.integer, List.mem_append]
  exact not_or.mpr ⟨hsign, newline_notMem_number n.natAbs⟩

mutual

/-- What is printed has no newline. -/
lemma newline_notMem_text : ∀ value : Json, '\n' ∉ value.text
  | null => by
    rw [text]
    decide
  | bool true => by
    rw [text]
    decide
  | bool false => by
    rw [text]
    decide
  | number none => by
    rw [text]
    decide
  | number (some n) => by
    rw [text]
    exact newline_notMem_integer n
  | string s => JsonValue.newline_notMem_string _
  | array items => by
    have hitems := JsonValue.newline_notMem_intercalate (newline_notMem_itemTexts items)
    have hbrackets : '\n' ≠ '[' ∧ '\n' ≠ ']' := by decide
    simp only [text, JsonText.array, List.cons_append, List.nil_append, List.mem_cons, List.mem_append,
      List.not_mem_nil, or_false, not_or]
    exact ⟨hbrackets.1, hitems, hbrackets.2⟩
  | object fields => by
    have hfields := JsonValue.newline_notMem_intercalate (newline_notMem_fieldTexts fields)
    have hbraces : '\n' ≠ '\x7b' ∧ '\n' ≠ '\x7d' := by decide
    simp only [text, JsonText.object, List.cons_append, List.nil_append, List.mem_cons,
      List.mem_append, List.not_mem_nil, or_false, not_or]
    exact ⟨hbraces.1, hfields, hbraces.2⟩

lemma newline_notMem_itemTexts : ∀ items : List Json, ∀ t ∈ itemTexts items, '\n' ∉ t
  | [] => fun t h => absurd h List.not_mem_nil
  | item :: items => by
    intro t h
    rw [itemTexts] at h
    rcases List.mem_cons.mp h with rfl | hrest
    · exact newline_notMem_text item
    · exact newline_notMem_itemTexts items t hrest

lemma newline_notMem_fieldTexts :
    ∀ fields : List (String × Json), ∀ t ∈ fieldTexts fields, '\n' ∉ t
  | [] => fun t h => absurd h List.not_mem_nil
  | (key, value) :: fields => by
    intro t h
    rw [fieldTexts] at h
    rcases List.mem_cons.mp h with rfl | hrest
    · have hcolon : '\n' ∉ [':'] := by decide
      rw [jsonField, JsonText.field, List.mem_append, List.mem_append]
      exact not_or.mpr ⟨not_or.mpr ⟨JsonValue.newline_notMem_string _, hcolon⟩,
        newline_notMem_text value⟩
    · exact newline_notMem_fieldTexts fields t hrest

end

end Json

namespace GuestControl

section Frames

variable {json : Json} {d : Daemon} {frame : List UInt8} {g g' : GuestState}

lemma frameOf_eq (json : Json) : frameOf json = Utf8.encode json.text ++ [lineFeed] := by
  rw [frameOf, Utf8.encode_append]
  rfl

lemma length_frameOf (json : Json) : (frameOf json).length = JsonText.size json.text + 1 := by
  rw [frameOf_eq, List.length_append, List.length_singleton]
  rfl

lemma lineFeed_notMem_text (json : Json) : lineFeed ∉ Utf8.encode json.text := by
  intro hmem
  exact json.newline_notMem_text (Utf8.mem_of_mem_encode (by decide) hmem)

/-- A frame that is written is one line. -/
lemma exists_line_encodeResponse (response : Json) :
    ∃ line : Line, line.bytes = encodeResponse response := by
  rw [encodeResponse]
  split
  · exact ⟨⟨_, lineFeed_notMem_text _⟩, (frameOf_eq _).symm⟩
  · exact ⟨⟨_, lineFeed_notMem_text _⟩, (frameOf_eq _).symm⟩

lemma isRequestId_requestId (raw : Json) : isRequestId (requestId raw) = true := by
  rw [requestId]
  cases hid : (raw.index "id").asStr.filter isRequestId with
  | none => decide
  | some id => exact (Option.filter_eq_some_iff.mp hid).2

lemma id_of_handle {response : Response} (h : (handle d.surroundings json g).1 = .ok response) :
    response.id = requestId json := by
  unfold handle at h
  split at h
  · cases h
    rfl
  · split at h
    · cases h
      rfl
    · cases h
  · cases h

@[simp] lemma index_id_okJson (id : String) (result : Json) :
    (okJson id result).index "id" = .string id := rfl

@[simp] lemma index_id_errorJson (id : String) (code : ErrorCode) (message : String) :
    (errorJson id code message).index "id" = .string id := rfl

lemma Response.index_id_json (mtime : FileName → ℤ) (response : Response) :
    (response.json mtime).index "id" = .string response.id := by
  cases response with
  | ok id result => exact index_id_okJson id _
  | error id code message => exact index_id_errorJson id code message

end Frames

/-! ### The limit of a frame -/

section Limit

variable {fields : List (String × Json)} {bounds : List ℕ} {keys : List String} {id : String}

/-- What an object takes besides its values. -/
lemma size_object_le (hshort : keys.all Client.isShortKey = true)
    (hsizes : Client.SizesWithin fields bounds) (hkeys : fields.map Prod.fst = keys) :
    JsonText.size (Json.object fields).text ≤ bounds.sum + 24 * bounds.length + 2 := by
  have htexts := Client.size_fieldTexts_le (hkeys ▸ hshort) hsizes
  have hobject := JsonText.size_object_le (Json.fieldTexts fields)
  rw [Json.text_object]
  omega

lemma size_id_le (h : isRequestId id = true) : JsonText.size (Json.string id).text ≤ 66 := by
  simp only [isRequestId, Bool.and_eq_true, decide_eq_true_eq, List.all_eq_true] at h
  have hbare : id.toList.all JsonText.isBare = true :=
    List.all_eq_true.mpr fun c hc => isBare_of_isIdChar (h.2 c hc)
  rw [Json.text_string, size_jsonString hbare]
  omega

/-- The texts of the codes are short. -/
lemma isShortKey_code (code : ErrorCode) : Client.isShortKey code.text = true := by
  cases code <;> decide

lemma size_bareText {message : String} (h : message.toList.all JsonText.isBare = true) :
    JsonText.size (Json.string message).text = message.toList.length + 2 := size_jsonString h

/-- An error with a short message fits into a frame. -/
lemma length_frameOf_errorJson (hid : isRequestId id = true) (code : ErrorCode) {message : String}
    (hbare : message.toList.all JsonText.isBare = true) (hlength : message.toList.length ≤ 1024) :
    (frameOf (errorJson id code message)).length ≤ Client.maxFrameBytes := by
  have herror : JsonText.size (Json.object
      [("code", .string code.text), ("message", .string message)]).text ≤ 1100 := by
    have hmessage := size_bareText hbare
    have hkeys : ["code", "message"].all Client.isShortKey = true := by decide
    refine Nat.le_trans (size_object_le hkeys (.cons (Client.size_name_le (isShortKey_code code))
      (.cons (Nat.le_of_eq hmessage) .nil)) rfl) ?_
    simp only [List.sum_cons, List.sum_nil, List.length_cons, List.length_nil]
    omega
  have hkeys : ["error", "id", "ok", "version"].all Client.isShortKey = true := by decide
  have hframe := size_object_le hkeys (.cons herror (.cons (size_id_le hid)
    (.cons (Client.size_bool_le false) (.cons Client.size_version_le .nil)))) rfl
  rw [length_frameOf]
  exact Nat.le_trans (Nat.succ_le_succ hframe) (by decide)

/-- Every frame that is written is within the limit. -/
lemma length_encodeResponse_le {response : Json} (hindex : response.index "id" = .string id)
    (hid : isRequestId id = true) : (encodeResponse response).length ≤ Client.maxFrameBytes := by
  rw [encodeResponse, hindex]
  split
  · exact length_frameOf_errorJson hid .internal (by decide) (by decide)
  · rename_i hfits
    exact Nat.not_lt.mp hfits

end Limit

end GuestControl

end Bloom
