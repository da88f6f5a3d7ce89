import BloomWorkspaces.Agent.GuestChannel
import BloomWorkspaces.Library.Action

/-!
# Calls of the guest to Bloom

`bloom_ipc`. The process behind the socket is any function of the frames that were written to it, and
may answer a call with anything.
-/

namespace Bloom

namespace GuestControl

open Action

/-! ### Values -/

/-- A `serde_json::Value` of the socket, whose numbers are kept as they are printed. -/
inductive IpcValue
  | null
  | bool (b : Bool)
  | number (text : String)
  | string (s : String)
  | array (items : List IpcValue)
  | object (fields : List (String × IpcValue))

namespace IpcValue

/-- `value.get(key)` -/
def get (key : String) : IpcValue → Option IpcValue
  | object fields => fields.lookup key
  | _ => none

def asStr : IpcValue → Option String
  | string s => some s
  | _ => none

def asArray : IpcValue → Option (List IpcValue)
  | array items => some items
  | _ => none

mutual

/-- How a value is printed. -/
def text : IpcValue → List Char
  | null => "null".toList
  | bool b => JsonText.bool b
  | number text => text.toList
  | string s => jsonString s
  | array items => JsonText.array (itemTexts items)
  | object fields => JsonText.object (fieldTexts fields)

def itemTexts : List IpcValue → List (List Char)
  | [] => []
  | item :: items => item.text :: itemTexts items

def fieldTexts : List (String × IpcValue) → List (List Char)
  | [] => []
  | (key, value) :: fields => jsonField key value.text :: fieldTexts fields

end

end IpcValue

/-! ### The socket -/

/-- A read of the stream. -/
inductive SocketRead
  | received (bytes : List UInt8)
  | failed
  deriving DecidableEq, Repr

/-- What comes of a call; the stream ends after its reads. -/
inductive IpcExchange
  | noSocket
  | noConnection
  | writeFailed
  | written (reads : List SocketRead)
  deriving DecidableEq, Repr

/-- The process behind the socket, which has seen the frames so far, and `serde_json::from_slice`. -/
structure BloomSocket where
  exchange : List (List Char) → IpcExchange
  fromSlice : List UInt8 → Option IpcValue

/-- The loop over the reads. -/
def readResponse (response : List UInt8) : List SocketRead → Except ControlError (List UInt8)
  | [] => .ok response
  | .failed :: _ => .error (.internal "bloom IPC read failed")
  | .received bytes :: reads =>
    if bytes = [] then .ok response
    else if (response ++ bytes).contains 10 then .ok (response ++ bytes)
    else if 1024 * 1024 < (response ++ bytes).length then .ok (response ++ bytes)
    else readResponse (response ++ bytes) reads

/-- What `bloom_ipc` makes of a value. -/
def ipcResult (decoded : IpcValue) : Except ControlError IpcValue :=
  match decoded.get "error" with
  | some error => .error (.internal ("bloom IPC error: " ++ String.ofList error.text))
  | none => .ok ((decoded.get "result").getD .null)

/-- What `bloom_ipc` makes of the answer to the last of the frames. -/
def BloomSocket.reply (s : BloomSocket) (frames : List (List Char)) : Except ControlError IpcValue :=
  match s.exchange frames with
  | .noSocket => .error ⟨.unavailable, "Bloom IPC socket is not available"⟩
  | .noConnection => .error ⟨.unavailable, "cannot connect to Bloom IPC"⟩
  | .writeFailed => .error (.internal "bloom IPC write failed")
  | .written reads => do
    let response ← readResponse [] reads
    match s.fromSlice response with
    | none => .error (.internal "bloom IPC returned invalid JSON")
    | some decoded => ipcResult decoded

/-- The frame of a call; all its calls have a path as their parameter. -/
def ipcFrame (method path : String) : List Char :=
  JsonText.object [jsonField "id" (JsonText.number 1), jsonField "jsonrpc" (jsonString "2.0"),
    jsonField "method" (jsonString method),
    jsonField "params" (JsonText.object [jsonField "path" (jsonString path)])] ++ ['\n']

/-! ### Programs -/

/-- A panic ends the controller. -/
inductive Fault
  | error (error : ControlError)
  | panic
  deriving DecidableEq, Repr

/-- Programs that keep the frames of their calls. -/
abbrev Ipc (α : Type) := ExceptT Fault (StateM (List (List Char))) α

def bloomIpc (s : BloomSocket) (method path : String) : Ipc (Except ControlError IpcValue) :=
  modifyGet fun frames =>
    (s.reply (frames ++ [ipcFrame method path]), frames ++ [ipcFrame method path])

def orFault {α : Type} : Except ControlError α → Ipc α
  | .ok a => pure a
  | .error error => throw (.error error)

/-! ### Cuts -/

/-- The text can be cut to `max` bytes. -/
def IsCuttable (max : ℕ) (s : String) : Prop :=
  s.utf8ByteSize ≤ max ∨ (String.Pos.Raw.mk max).IsValid s

instance (max : ℕ) (s : String) : Decidable (IsCuttable max s) := inferInstanceAs (Decidable (_ ∨ _))

/-- `truncate_str`; a slice that does not end at the boundary of a character panics. -/
def truncateStr (s : String) (max : ℕ) : Option String :=
  if s.utf8ByteSize ≤ max then some s
  else if h : (String.Pos.Raw.mk max).IsValid s then
    some (s.extract s.startPos ⟨String.Pos.Raw.mk max, h⟩)
  else none

lemma truncateStr_eq_none_iff {s : String} {max : ℕ} :
    truncateStr s max = none ↔ ¬IsCuttable max s := by
  rw [truncateStr, IsCuttable, not_or]
  split
  · rename_i hle
    exact ⟨nofun, fun h => absurd hle h.1⟩
  · rename_i hlong
    split
    · rename_i hvalid
      exact ⟨nofun, fun h => absurd hvalid h.2⟩
    · rename_i hvalid
      exact ⟨fun _ => ⟨hlong, hvalid⟩, fun _ => rfl⟩

/-- A text with a character across the limit. -/
lemma not_isCuttable_of_straddle {before after : List Char} {c : Char} {max : ℕ}
    (hbefore : (Utf8.encode before).length < max)
    (hafter : max < (Utf8.encode before).length + (String.utf8EncodeChar c).length) :
    ¬IsCuttable max (String.ofList (before ++ c :: after)) := by
  have hsize : ∀ text : List Char, (String.ofList text).utf8ByteSize = (Utf8.encode text).length := by
    intro text
    rw [← Utf8.length_encode, String.toList_ofList]
  rintro (hshort | hvalid)
  · rw [hsize, Utf8.encode_append, Utf8.encode_cons, List.length_append, List.length_append] at hshort
    omega
  · obtain ⟨i, hi⟩ := String.Pos.Raw.isValid_iff_exists_take_toList.mp hvalid
    rw [String.toList_ofList, hsize, List.take_append, Utf8.encode_append, List.length_append] at hi
    -- the cut is before the character or behind it
    rcases hrest : i - before.length with _ | k
    · have hprefix : (Utf8.encode (before.take i)).length ≤ (Utf8.encode before).length := by
        conv_rhs => rw [← List.take_append_drop i before, Utf8.encode_append, List.length_append]
        omega
      rw [hrest] at hi
      simp [Utf8.encode] at hi hprefix hbefore
      omega
    · have htake : before.take i = before := List.take_of_length_le (by omega)
      rw [hrest, htake, List.take_succ_cons, Utf8.encode_cons, List.length_append] at hi
      simp only at hi
      omega

end GuestControl

end Bloom
