import BloomWorkspaces.Agent.GuestProtocol
import BloomWorkspaces.Agent.GuestWorkspace
import BloomWorkspaces.Guest.Outcomes
import BloomWorkspaces.Library.JsonText

/-!
# Requests to the guest

`requestGuest` with the service of the guest at its other end. Requests and responses are frames of
bounded size.
-/

namespace Bloom

open Action

def maxGuestFrameBytes : ℕ := 384 * 1024

/-! ### Frames -/

def isIdChar (c : Char) : Bool := c.isAlphanum || c = '_' || c = '-'

/-- `^[A-Za-z0-9_-]{1,64}$` -/
structure RequestId where
  chars : List Char
  valid : 1 ≤ chars.length ∧ chars.length ≤ 64 ∧ ∀ c ∈ chars, isIdChar c = true

instance : Inhabited RequestId :=
  ⟨⟨['0'], by decide, by decide, List.all_eq_true.mp (by decide)⟩⟩

def jsonField (key : String) (value : List Char) : List Char :=
  JsonText.field (Utf16.encode key.toList) value

def jsonString (s : String) : List Char := JsonText.string (Utf16.encode s.toList)

def jsonId (id : RequestId) : List Char := JsonText.string (Utf16.encode id.chars)

/-- The text of a request, from the fields of its operation. -/
def requestText (id : RequestId) (operation : String) (fields : List (List Char)) : List Char :=
  JsonText.object ([jsonField "version" (JsonText.number 1), jsonField "id" (jsonId id),
    jsonField "operation" (jsonString operation)] ++ fields)

/-- The text of a response, from the fields of its result. -/
def responseText (id : RequestId) (result : List (List Char)) : List Char :=
  JsonText.object [jsonField "id" (jsonId id), jsonField "ok" (JsonText.bool true),
    jsonField "result" (JsonText.object result), jsonField "version" (JsonText.number 1)]

/-- `encodeGuestFrame`, and `encode_response` but for what it sends instead. -/
def encodeGuestFrame (text : List Char) : Option (List UInt8) :=
  if maxGuestFrameBytes < (Utf8.encode (text ++ ['\n'])).length then none
  else some (Utf8.encode (text ++ ['\n']))

/-! ### Requests -/

/-- The status of a `GuestChannelError`. -/
def errorStatus : ErrorCode → ℕ
  | .notFound => 404
  | .conflict => 409
  | .limitExceeded => 413
  | .unavailable => 501
  | _ => 400

def guestError (e : ControlError) : ReadFailure := .data ⟨e.message, errorStatus e.code⟩

/-- An operation of the guest where the write lock is free: its outcome and the tree that it leaves. -/
def runOn {α : Type} (x : FileAction α) (t : WorkspaceTree) : Except Halt α × WorkspaceTree :=
  ((outcome x (.initial t)).1, (outcome x (.initial t)).2.tree)

/-- What the agent gets for an outcome of the guest; it gives up a request that waits for ever. -/
def receiveResponse {α : Type} (id : RequestId) (result : α → List (List Char)) :
    Except Halt α → Except ReadFailure α
  | .error (.error e) => .error (guestError e)
  | .error .blocked => .error (invalidResponse "Guest request timed out")
  | .ok reply =>
    match encodeGuestFrame (responseText id (result reply)) with
    | none => .error (guestError (.internal "guest response exceeded the frame limit"))
    | some _ => .ok reply

/-- A request about a path: whether its schema accepts it, the fields of its text, what the guest does
and the fields of the result. -/
structure PathRequest (α : Type) where
  path : JsText
  valid : Bool
  operation : String
  fields : List (List Char)
  serve : Json → FileAction α
  result : α → List (List Char)

/-- `request` of `GuestWorkspace`. The guest answers a frame that it cannot read under another id; a
path that stands for no text makes one. -/
def PathRequest.send {α : Type} (r : PathRequest α) (id : RequestId) (t : WorkspaceTree) :
    Except ReadFailure α × WorkspaceTree :=
  if r.valid = false then (.error (invalidResponse "Guest returned an invalid data response"), t)
  else
    match encodeGuestFrame (requestText id r.operation r.fields), Utf16.decode r.path with
    | none, _ => (.error (invalidResponse "Guest protocol frame exceeds the maximum size"), t)
    | some _, none =>
      (.error (invalidResponse "Guest response id did not match the request"), t)
    | some _, some text =>
      let (outcome, t') := runOn (r.serve (.string (String.ofList text))) t
      (receiveResponse id r.result outcome, t')

/-! ### Outcomes -/

section Outcomes

variable {α : Type} {r : PathRequest α} {id : RequestId} {t t' : WorkspaceTree} {text : List Char}

/-- A request that takes the lock and waits has the same outcome for the agent. -/
lemma runOn_eq {x : FileAction α} {outcome : Except Halt α} {locked : Bool}
    (h : Ends Kernel.shown (t, false) x outcome (t', locked)) : runOn x t = (outcome, t') := by
  obtain ⟨k, hrun, hshown⟩ := h (.initial t) rfl
  rw [runOn, hrun, ← (Prod.mk.inj hshown).1]

lemma send_invalid (h : r.valid = false) :
    r.send id t = (.error (invalidResponse "Guest returned an invalid data response"), t) := by
  rw [PathRequest.send, if_pos h]

/-- A path that stands for no text is refused. -/
lemma send_no_text (h : Utf16.decode r.path = none) :
    ∃ failure, r.send id t = (.error failure, t) := by
  rw [PathRequest.send, h]
  split
  · exact ⟨_, rfl⟩
  · cases encodeGuestFrame (requestText id r.operation r.fields) with
    | none => exact ⟨_, rfl⟩
    | some frame => exact ⟨_, rfl⟩

/-- The request reaches the guest. -/
lemma send_eq {outcome : Except Halt α} {locked : Bool} (hvalid : r.valid = true)
    (hframe : ∃ frame, encodeGuestFrame (requestText id r.operation r.fields) = some frame)
    (htext : Utf16.decode r.path = some text)
    (hserve : Ends Kernel.shown (t, false) (r.serve (.string (String.ofList text))) outcome (t', locked)) :
    r.send id t = (receiveResponse id r.result outcome, t') := by
  obtain ⟨frame, hframe⟩ := hframe
  rw [PathRequest.send, if_neg (by simp [hvalid]), hframe, htext]
  simp only [runOn_eq hserve]

lemma receiveResponse_ok {result : α → List (List Char)} {reply : α}
    (hframe : ∃ frame, encodeGuestFrame (responseText id (result reply)) = some frame) :
    receiveResponse id result (.ok reply) = .ok reply := by
  obtain ⟨frame, hframe⟩ := hframe
  rw [receiveResponse, hframe]

lemma receiveResponse_eq_ok {result : α → List (List Char)} {reply reply' : α}
    (h : receiveResponse id result (.ok reply) = .ok reply') : reply = reply' := by
  rw [receiveResponse] at h
  split at h
  · cases h
  · cases h
    rfl

/-! ### Sizes of frames -/

lemma encodeGuestFrame_fits {text : List Char} (h : JsonText.size text < maxGuestFrameBytes) :
    ∃ frame, encodeGuestFrame text = some frame := by
  have hnewline : JsonText.size ['\n'] = 1 := rfl
  have hsize : (Utf8.encode (text ++ ['\n'])).length = JsonText.size text + 1 := by
    rw [← hnewline, ← JsonText.size_append]
    rfl
  rw [encodeGuestFrame, if_neg (by omega)]
  exact ⟨_, rfl⟩

lemma isBare_of_isIdChar {c : Char} (h : isIdChar c = true) : JsonText.isBare c = true := by
  simp only [isIdChar, Bool.or_eq_true, decide_eq_true_eq] at h
  rcases h with (halnum | rfl) | rfl
  · exact JsonText.isBare_of_isAlphanum halnum
  · decide
  · decide

lemma size_jsonId_le (id : RequestId) : JsonText.size (jsonId id) ≤ 66 := by
  have hlength := id.valid.2.1
  rw [jsonId, JsonText.size_string_of_bare fun c hc => isBare_of_isIdChar (id.valid.2.2 c hc)]
  omega

lemma size_jsonString {s : String} (h : s.toList.all JsonText.isBare = true) :
    JsonText.size (jsonString s) = s.toList.length + 2 :=
  JsonText.size_string_of_bare (List.all_eq_true.mp h)

/-- Every byte may be written as an escape. -/
lemma size_jsonString_le (s : String) : JsonText.size (jsonString s) ≤ 6 * s.utf8ByteSize + 2 := by
  have hunits := Utf16.length_encode_le_bytes s.toList
  have hsize := JsonText.size_string_le (Utf16.encode s.toList)
  rw [Utf8.length_encode] at hunits
  rw [jsonString]
  omega

lemma size_jsonField {key : String} (h : key.toList.all JsonText.isBare = true)
    (value : List Char) :
    JsonText.size (jsonField key value) = key.toList.length + JsonText.size value + 3 := by
  have hkey : JsonText.size (JsonText.string (Utf16.encode key.toList)) = key.toList.length + 2 :=
    JsonText.size_string_of_bare (List.all_eq_true.mp h)
  rw [jsonField, JsonText.size_field, hkey]
  omega

/-- What a request takes besides the fields of its operation. -/
lemma size_requestText_le (id : RequestId) {operation : String}
    (hbare : operation.toList.all JsonText.isBare = true) (fields : List (List Char)) :
    JsonText.size (requestText id operation fields) ≤
      operation.toList.length + 110 + (fields.map JsonText.size).sum + fields.length := by
  have hid := size_jsonId_le id
  have hone : JsonText.size (JsonText.number 1) ≤ 1 :=
    JsonText.size_number_le (by decide) (by decide)
  have hversion := size_jsonField (by decide : "version".toList.all JsonText.isBare = true)
    (JsonText.number 1)
  have hidField := size_jsonField (by decide : "id".toList.all JsonText.isBare = true)
    (jsonId id)
  have hoperation := size_jsonField
    (by decide : "operation".toList.all JsonText.isBare = true) (jsonString operation)
  rw [size_jsonString hbare] at hoperation
  have hlengths : "version".toList.length = 7 ∧ "id".toList.length = 2 ∧
      "operation".toList.length = 9 := by decide
  have hsum := JsonText.size_object_le ([jsonField "version" (JsonText.number 1),
    jsonField "id" (jsonId id), jsonField "operation" (jsonString operation)] ++ fields)
  simp only [List.map_append, List.map_cons, List.map_nil, List.sum_append, List.sum_cons,
    List.sum_nil, List.length_append, List.length_cons, List.length_nil] at hsum
  rw [requestText]
  omega

/-- What a response takes besides the fields of its result. -/
lemma size_responseText_le (id : RequestId) (result : List (List Char)) :
    JsonText.size (responseText id result) ≤ 110 + (result.map JsonText.size).sum + result.length := by
  have hid := size_jsonId_le id
  have hone : JsonText.size (JsonText.number 1) ≤ 1 :=
    JsonText.size_number_le (by decide) (by decide)
  have htrue := JsonText.size_bool_le true
  have hresult := JsonText.size_object_le result
  have hidField := size_jsonField (by decide : "id".toList.all JsonText.isBare = true)
    (jsonId id)
  have hok := size_jsonField (by decide : "ok".toList.all JsonText.isBare = true)
    (JsonText.bool true)
  have hresultField := size_jsonField
    (by decide : "result".toList.all JsonText.isBare = true) (JsonText.object result)
  have hversion := size_jsonField (by decide : "version".toList.all JsonText.isBare = true)
    (JsonText.number 1)
  have hlengths : "id".toList.length = 2 ∧ "ok".toList.length = 2 ∧ "result".toList.length = 6 ∧
      "version".toList.length = 7 := by decide
  have hsum := JsonText.size_object_le [jsonField "id" (jsonId id),
    jsonField "ok" (JsonText.bool true), jsonField "result" (JsonText.object result),
    jsonField "version" (JsonText.number 1)]
  simp only [List.map_cons, List.map_nil, List.sum_cons, List.sum_nil, List.length_cons,
    List.length_nil] at hsum
  rw [responseText]
  omega

end Outcomes

end Bloom
