import BloomWorkspaces.Agent.GuestFrames
import BloomWorkspaces.Control.Workspaces.Basic
import BloomWorkspaces.Jobs.StructuredJobSpec

/-!
# Errors on their way to the browser

An error of the node agent, its reply, the response that the client of the agent reads chunk by chunk, the
error of the service and the reply of the control server.
-/

namespace Bloom

variable {ν : Type}

structure HttpReply where
  status : ℕ
  body : List UInt8
  deriving DecidableEq

/-- `response.status(status).json({ error: message })` -/
def errorReply (format : NumberFormat ν) (status : ℕ) (message : JsText) : HttpReply :=
  ⟨status, Utf8.encode (JsonValue.stringify format (.object [(jsText "error", .string message)]))⟩

/-! ### The node agent -/

/-- What a handler of the agent passes on. An error of the guest channel has no code for `transport`, and
what is not an `Error` has no message. -/
inductive AgentFailure
  | zod (message : JsText)
  | data (message : JsText) (status : ℕ)
  | guest (code : Option ErrorCode) (message : JsText)
  | other (message : Option JsText) (status : Option ℕ)

namespace AgentFailure

def message : AgentFailure → JsText
  | zod message | data message _ | guest _ message => message
  | other message _ => message.getD (jsText "Node agent error")

/-- `guestStatus` -/
def guestStatus : Option ErrorCode → ℕ
  | some .notFound => 404
  | some .conflict => 409
  | some .limitExceeded => 413
  | some .permissionDenied => 403
  | some .unavailable | none => 501
  | some _ => 400

def status : AgentFailure → ℕ
  | zod _ => 400
  | data _ status => status
  | guest code _ => guestStatus code
  | other _ status => status.getD 500

/-- The last handler of `startAgent`. -/
def reply (format : NumberFormat ν) (failure : AgentFailure) : HttpReply :=
  errorReply format failure.status failure.message

/-- What `GuestWorkspace.request` throws for an error of the guest channel. -/
def ofFileRequest (code : Option ErrorCode) (message : JsText) : AgentFailure :=
  .data message (code.elim 501 errorStatus)

end AgentFailure

/-! ### The client of the agent -/

/-- The response as its chunks arrive; it is destroyed when they exceed the limit. -/
structure ResponseReader where
  received : ℕ
  chunks : List (List UInt8)
  destroyed : Bool

/-- What the promise of a request gets. The message of a failure is what the constructor of the error
gets. -/
inductive AgentAnswer (ν : Type)
  | failed (message : JsonValue ν) (status : ℕ)
  | invalidJson (text : List Char)
  | bytes (contents : List UInt8)
  | nothing
  | value (value : JsonValue ν)

namespace AgentClient

def responseLimit (binaryResponse : Bool) : ℕ := if binaryResponse then 8 * 1024 * 1024 else 1024 * 1024

def onData (limit : ℕ) (r : ResponseReader) (chunk : List UInt8) : ResponseReader :=
  if r.destroyed then r
  else
    let received := r.received + chunk.length
    if limit < received then { r with received, destroyed := true }
    else { r with received, chunks := r.chunks ++ [chunk] }

def defaultMessage (status : ℕ) : JsText :=
  jsText "Node agent returned " ++ Utf16.encode (Nat.toDigits 10 status)

/-- `JSON.parse(text).error ?? message` -/
def errorMessage (format : NumberFormat ν) (status : ℕ) (text : List Char) : JsonValue ν :=
  match JsonValue.parse format text with
  | some (.object fields) =>
    match GuestResponse.field fields "error" with
    | none | some .null => .string (defaultMessage status)
    | some message => message
  | _ => .string (defaultMessage status)

/-- The handlers of `end` and of `error`. -/
def onEnd (format : NumberFormat ν) (binaryResponse : Bool) (status : ℕ) (r : ResponseReader) :
    AgentAnswer ν :=
  if r.destroyed then .failed (.string (jsText "Node agent response exceeded the size limit")) 502
  else
    let text := Utf8.toText r.chunks.flatten
    if 400 ≤ status then .failed (errorMessage format status text) status
    else if binaryResponse then .bytes r.chunks.flatten
    else if text = [] then .nothing
    else
      match JsonValue.parse format text with
      | some value => .value value
      | none => .invalidJson text

def receive (format : NumberFormat ν) (binaryResponse : Bool) (status : ℕ) (chunks : List (List UInt8)) :
    AgentAnswer ν :=
  onEnd format binaryResponse status (chunks.foldl (onData (responseLimit binaryResponse)) ⟨0, [], false⟩)

/-- The status of the error that `agentWorkspaceError` makes of one of the client. -/
def publicStatus (status : ℕ) : ℕ := if status ∈ [400, 403, 404, 409, 413, 501] then status else 503

end AgentClient

/-- The error that the service throws for an answer; `textOf` is how the constructor of an error writes a
message that is no string. -/
def workspaceError (textOf : JsonValue ν → JsText) : AgentAnswer ν → Option (JsText × ℕ)
  | .failed (.string message) status => some (message, AgentClient.publicStatus status)
  | .failed message status => some (textOf message, AgentClient.publicStatus status)
  | .invalidJson _ => some (jsText "Workspace node is unavailable", 503)
  | _ => none

/-- What the control server replies for an answer that is an error. -/
def controlReply (format : NumberFormat ν) (textOf : JsonValue ν → JsText) (answer : AgentAnswer ν) :
    Option HttpReply :=
  (workspaceError textOf answer).map fun error => errorReply format error.2 error.1

namespace AgentClient

variable {format : NumberFormat ν} {limit status : ℕ} {binaryResponse : Bool} {chunks : List (List UInt8)}
  {r : ResponseReader} {message : JsText}

/-! ### Reading a response -/

/-- The reader that has these chunks. -/
def reading (chunks : List (List UInt8)) : ResponseReader := ⟨chunks.flatten.length, chunks, false⟩

lemma foldl_destroyed (h : r.destroyed = true) : (chunks.foldl (onData limit) r).destroyed = true := by
  induction chunks generalizing r with
  | nil => exact h
  | cons chunk chunks ih => exact ih (by rw [onData, if_pos h]; exact h)

lemma onData_reading (done : List (List UInt8)) (chunk : List UInt8) :
    onData limit (reading done) chunk =
      if limit < (done ++ [chunk]).flatten.length then
        ⟨(done ++ [chunk]).flatten.length, done, true⟩
      else reading (done ++ [chunk]) := by
  have hlength : done.flatten.length + chunk.length = (done ++ [chunk]).flatten.length := by
    rw [List.flatten_concat, List.length_append]
  rw [onData, reading, if_neg (by simp), reading]
  simp only [hlength]

/-- The reader has everything, or it is destroyed since the whole exceeds the limit. -/
lemma foldl_onData (limit : ℕ) (done chunks : List (List UInt8)) (hdone : done.flatten.length ≤ limit) :
    if limit < (done ++ chunks).flatten.length then
      (chunks.foldl (onData limit) (reading done)).destroyed = true
    else chunks.foldl (onData limit) (reading done) = reading (done ++ chunks) := by
  induction chunks generalizing done with
  | nil =>
    rw [List.append_nil, if_neg (by omega)]
    rfl
  | cons chunk chunks ih =>
    have hcons : done ++ chunk :: chunks = done ++ [chunk] ++ chunks := by simp
    rw [List.foldl_cons, hcons, onData_reading]
    rcases Nat.lt_or_ge limit (done ++ [chunk]).flatten.length with hlt | hle
    · have hmore : (done ++ [chunk] ++ chunks).flatten.length =
          (done ++ [chunk]).flatten.length + chunks.flatten.length := by
        rw [List.flatten_append, List.length_append]
      rw [if_pos (by omega), if_pos hlt]
      exact foldl_destroyed rfl
    · rw [if_neg (show ¬limit < (done ++ [chunk]).flatten.length by omega)]
      exact ih (done ++ [chunk]) hle

/-- The answer depends on the whole of the chunks only. -/
lemma receive_eq (format : NumberFormat ν) (status : ℕ) (chunks : List (List UInt8)) :
    receive format binaryResponse status chunks =
      if responseLimit binaryResponse < chunks.flatten.length then
        .failed (.string (jsText "Node agent response exceeded the size limit")) 502
      else onEnd format binaryResponse status (reading chunks) := by
  have hread := foldl_onData (responseLimit binaryResponse) [] chunks (Nat.zero_le _)
  rw [List.nil_append] at hread
  have hstart : (⟨0, [], false⟩ : ResponseReader) = reading [] := rfl
  rw [receive, hstart]
  split at hread <;> rename_i hlimit
  · rw [onEnd, if_pos hread, if_pos hlimit]
  · rw [hread, if_neg hlimit]

/-- The client reads the message of an error reply. -/
lemma errorMessage_errorReply (format : NumberFormat ν) (status : ℕ) (message : JsText) :
    errorMessage format status (Utf8.toText (errorReply format status message).body) = .string message := by
  have hproper : (JsonValue.object [(jsText "error", (JsonValue.string message : JsonValue ν))]).Proper :=
    ⟨List.nodup_singleton _, trivial, trivial⟩
  rw [errorMessage, errorReply, Utf8.toText_encode, JsonValue.parse_stringify format hproper]
  simp [GuestResponse.field, jsText]

end AgentClient

namespace AgentFailure

/-- The reply of the agent becomes that of the control server: the message is kept, and so is the status
where the browser is told about it. -/
theorem controlReply_of_reply (format : NumberFormat ν) (textOf : JsonValue ν → JsText)
    (failure : AgentFailure) (binaryResponse : Bool) (chunks : List (List UInt8))
    (hstatus : 400 ≤ failure.status) (hchunks : chunks.flatten = (failure.reply format).body) :
    controlReply format textOf (AgentClient.receive format binaryResponse failure.status chunks) =
      if AgentClient.responseLimit binaryResponse < chunks.flatten.length then
        some (errorReply format 503 (jsText "Node agent response exceeded the size limit"))
      else some (errorReply format (AgentClient.publicStatus failure.status) failure.message) := by
  rw [AgentClient.receive_eq]
  split
  · rfl
  · rw [AgentClient.onEnd, AgentClient.reading, if_neg (by simp), if_pos hstatus, hchunks, reply, AgentClient.errorMessage_errorReply]
    rfl

end AgentFailure

end Bloom
