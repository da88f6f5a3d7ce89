import BloomWorkspaces.Agent.Upload
import BloomWorkspaces.Guest.GuestControl

/-!
# The client of the guest

The requests of the command line client of the guest, and the checks that the service makes of their
form.
-/

namespace Bloom

open Action

namespace Json

mutual

/-- `serde_json::to_string` -/
def text : Json → List Char
  | null => "null".toList
  | bool b => JsonText.bool b
  | number n => n.elim "null".toList JsonText.integer
  | string s => jsonString s
  | array items => JsonText.array (itemTexts items)
  | object fields => JsonText.object (fieldTexts fields)

def itemTexts : List Json → List (List Char)
  | [] => []
  | item :: items => item.text :: itemTexts items

def fieldTexts : List (String × Json) → List (List Char)
  | [] => []
  | (key, value) :: fields => jsonField key value.text :: fieldTexts fields

end

lemma text_string (s : String) : (string s).text = jsonString s := rfl

lemma text_object (fields : List (String × Json)) :
    (object fields).text = JsonText.object (fieldTexts fields) := rfl

lemma fieldTexts_cons (key : String) (value : Json) (fields : List (String × Json)) :
    fieldTexts ((key, value) :: fields) = jsonField key value.text :: fieldTexts fields := rfl

/-- `map.insert`; the keys of a map are in order. -/
def insertField (key : String) (value : Json) : List (String × Json) → List (String × Json)
  | [] => [(key, value)]
  | (k, v) :: rest =>
    if key < k then (key, value) :: (k, v) :: rest
    else if key = k then (key, value) :: rest
    else (k, v) :: insertField key value rest

def insertFields (map fields : List (String × Json)) : List (String × Json) :=
  fields.foldl (fun map field => insertField field.1 field.2 map) map

end Json

namespace Client

def maxFrameBytes : ℕ := 384 * 1024

def maxChunkBytes : ℕ := 256 * 1024

/-! ### Requests -/

/-- The nanoseconds since the epoch, a `u128`. -/
structure Nanos where
  count : ℕ
  lt : count < 2 ^ 128

/-- `format!("{:x}", nanos)` -/
def Nanos.hex (nanos : Nanos) : String := String.ofList (Nat.toDigits 16 nanos.count)

/-- The arguments of `send_request`. -/
structure Call where
  operation : String
  fields : List (String × Json)

/-- The message of `send_request`. -/
def Call.message (call : Call) (now : Nanos) : Json :=
  .object (Json.insertFields
    (Json.insertFields [] [("version", .number (some 1)), ("id", .string now.hex),
      ("operation", .string call.operation)])
    call.fields)

/-- The bytes of the frame of a message. -/
def frameLength (message : Json) : ℕ := JsonText.size (message.text ++ ['\n'])

def jsonNat (n : ℕ) : Json := .number (some (n : ℤ))

def listCall (path : String) : Call := ⟨"fs.list", [("path", .string path)]⟩

def deleteCall (path : String) : Call :=
  ⟨"fs.delete", [("path", .string path), ("recursive", .bool false)]⟩

def readCall (path : String) (offset : ℕ) : Call :=
  ⟨"fs.read",
    [("path", .string path), ("offset", jsonNat offset), ("maxBytes", jsonNat maxChunkBytes)]⟩

/-- The chunk of an upload from `offset`. -/
def chunkAt (data : List UInt8) (offset : ℕ) : List UInt8 := (data.drop offset).take maxChunkBytes

def encodedChunk (data : List UInt8) (offset : ℕ) : Json :=
  .string (String.ofList (Base64.encode (chunkAt data offset)))

def writeCall (path : String) (data : List UInt8) (offset : ℕ) (first : Bool) : Call :=
  ⟨"fs.write", [("path", .string path), ("offset", jsonNat offset),
    ("data", encodedChunk data offset), ("truncate", .bool first)]⟩

def environmentJson (env : List (String × String)) : Json :=
  .object (Json.insertFields [] (env.map fun p => (p.1, .string p.2)))

/-- The job id is the time of the call. -/
def startCall (now : Nanos) (argv : List String) (cwd : String) (env : List (String × String))
    (timeoutMs : ℕ) : Call :=
  ⟨"job.start", [("jobId", .string now.hex), ("argv", .array (argv.map .string)),
    ("cwd", .string cwd), ("environment", environmentJson env), ("timeoutMs", jsonNat timeoutMs)]⟩

def statusCall (jobId : String) (cursor : ℕ) : Call :=
  ⟨"job.status",
    [("jobId", .string jobId), ("logOffset", jsonNat cursor), ("maxBytes", jsonNat maxChunkBytes)]⟩

def cancelCall (jobId : String) : Call := ⟨"job.cancel", [("jobId", .string jobId)]⟩

/-! ### Command lines -/

inductive Command
  | status
  | hello
  | filesList (path : String)
  | filesGet (path output : String)
  | filesPut (input path : String)
  | filesDelete (path : String)
  | jobsStart (argv : List String) (cwd : String) (env : List (String × String)) (timeoutMs : ℕ)
  | jobsStatus (jobId : String) (cursor : ℕ)
  | jobsCancel (jobId : String)

/-- `str::parse::<u64>` -/
def parseU64 (s : String) : Option ℕ :=
  let digits := if s.toList.head? = some '+' then s.toList.tail else s.toList
  if digits ≠ [] ∧ digits.all Char.isDigit = true ∧ Ascii.decimalNumber digits < 2 ^ 64 then
    some (Ascii.decimalNumber digits)
  else none

/-- `s.split_once(c)` -/
def splitOnce (s : String) (c : Char) : Option (String × String) :=
  match s.toList.dropWhile (· ≠ c) with
  | [] => none
  | _ :: rest => some (String.ofList (s.toList.takeWhile (· ≠ c)), String.ofList rest)

/-- The variables of the loop over the flags of `jobs start`. -/
structure StartFlags where
  cwd : String
  timeoutMs : ℕ
  env : List (String × String)
  argv : List String

def defaultTimeoutMs : ℕ := 15 * 60 * 1000

def StartFlags.initial : StartFlags := ⟨".", defaultTimeoutMs, [], []⟩

/-- `env.insert` -/
def insertVariable (env : List (String × String)) (key value : String) : List (String × String) :=
  env.filter (fun p => p.1 ≠ key) ++ [(key, value)]

/-- A flag with its value. -/
def StartFlags.set (flags : StartFlags) (flag value : String) : StartFlags :=
  if flag = "--cwd" then { flags with cwd := value }
  else if flag = "--timeout-ms" then
    { flags with timeoutMs := (parseU64 value).getD defaultTimeoutMs }
  else
    match splitOnce value '=' with
    | some (k, v) => { flags with env := insertVariable flags.env k v }
    | none => flags

def parseFlags (flags : StartFlags) : List String → StartFlags
  | [] => flags
  | arg :: rest =>
    if arg = "--" then { flags with argv := flags.argv ++ rest }
    else if arg = "--cwd" ∨ arg = "--timeout-ms" ∨ arg = "--env" then
      match rest with
      | [] => flags
      | value :: rest => parseFlags (flags.set arg value) rest
    else parseFlags { flags with argv := flags.argv ++ [arg] } rest

def parseCursor (cursor : ℕ) : List String → ℕ
  | [] => cursor
  | arg :: rest =>
    if arg = "--cursor" then
      match rest with
      | [] => cursor
      | value :: rest => parseCursor ((parseU64 value).getD 0) rest
    else parseCursor cursor rest

def parseFiles : List String → Option Command
  | "list" :: path :: _ => some (.filesList path)
  | "get" :: path :: output :: _ => some (.filesGet path output)
  | "put" :: input :: path :: _ => some (.filesPut input path)
  | "delete" :: path :: _ => some (.filesDelete path)
  | _ => none

def parseJobs : List String → Option Command
  | "start" :: args =>
    let flags := parseFlags .initial args
    if flags.argv = [] then none
    else some (.jobsStart flags.argv flags.cwd flags.env flags.timeoutMs)
  | "status" :: jobId :: args => some (.jobsStatus jobId (parseCursor 0 args))
  | "cancel" :: jobId :: _ => some (.jobsCancel jobId)
  | _ => none

/-- `run` up to its first request; what it prints instead is left out. -/
def parseCommand : List String → Option Command
  | "status" :: _ => some .status
  | "hello" :: _ => some .hello
  | "files" :: args => parseFiles args
  | "jobs" :: args => parseJobs args
  | _ => none

/-! ### Runs -/

/-- What the client finds: the size of an input file and the bytes that it reads from it, which need
not agree, and whether it can create an output file. The quota is that of the service. -/
structure World where
  sizeOf : String → Option ℕ
  contents : String → Option (List UInt8)
  creates : String → Bool
  quota : WorkspaceFiles.Quota

/-- The bytes that `upload_file` comes to send. -/
def World.upload (w : World) (input : String) : Option (List UInt8) :=
  match w.sizeOf input with
  | none => none
  | some size => if 8 * 1024 * 1024 < size then none else w.contents input

/-- The loop of `download_file` may come to `offset`. The workspace changes between its requests. -/
inductive DownloadsAt (path : String) : ℕ → Prop
  | start : DownloadsAt path 0
  | next {offset : ℕ} {k : Kernel} {reply : WorkspaceFiles.ReadReply} (hat : DownloadsAt path offset)
      (hreply : (outcome (WorkspaceFiles.read (.string path) (jsonNat offset)
        (jsonNat maxChunkBytes)) k).1 = .ok reply)
      (heof : reply.eof = false) : DownloadsAt path reply.nextOffset

/-- The loop of `upload_file` may come to `offset`. -/
inductive UploadsAt (quota : WorkspaceFiles.Quota) (path : String) (data : List UInt8) :
    ℕ → Bool → Prop
  | start : UploadsAt quota path data 0 true
  | next {offset : ℕ} {first : Bool} {k : Kernel} {pwrites : List ℕ} {reply : WorkspaceFiles.WriteReply}
      (hat : UploadsAt quota path data offset first)
      (hreply : (outcome (WorkspaceFiles.write quota pwrites (.string path) (jsonNat offset)
        (encodedChunk data offset) (.bool first)) k).1 = .ok reply)
      (hchunk : chunkAt data offset ≠ []) (hnext : reply.nextOffset < data.length) :
      UploadsAt quota path data reply.nextOffset false

/-- The calls that a command makes. -/
inductive Command.Makes (w : World) : Command → Call → Prop
  | status : Makes w .status ⟨"bloom.status", []⟩
  | hello : Makes w .hello ⟨"hello", []⟩
  | filesList (path : String) : Makes w (.filesList path) (listCall path)
  | filesGet {path output : String} {offset : ℕ} (hcreates : w.creates output = true)
      (hat : DownloadsAt path offset) : Makes w (.filesGet path output) (readCall path offset)
  | filesPut {input path : String} {data : List UInt8} {offset : ℕ} {first : Bool}
      (hupload : w.upload input = some data) (hat : UploadsAt w.quota path data offset first) :
      Makes w (.filesPut input path) (writeCall path data offset first)
  | filesDelete (path : String) : Makes w (.filesDelete path) (deleteCall path)
  | jobsStart (now : Nanos) (argv : List String) (cwd : String) (env : List (String × String))
      (timeoutMs : ℕ) :
      Makes w (.jobsStart argv cwd env timeoutMs) (startCall now argv cwd env timeoutMs)
  | jobsStatus (jobId : String) (cursor : ℕ) :
      Makes w (.jobsStatus jobId cursor) (statusCall jobId cursor)
  | jobsCancel (jobId : String) : Makes w (.jobsCancel jobId) (cancelCall jobId)

/-- A command line comes to send a message. -/
def Sends (w : World) (args : List String) (message : Json) : Prop :=
  ∃ c call now, parseCommand args = some c ∧ c.Makes w call ∧ message = call.message now

/-! ### The checks of the service -/

/-- The check of `open_file`. -/
def checkParts (parts : List String) : Except ControlError Unit :=
  if parts.length < 2 then .error (.invalidRequest "file path must include a parent directory")
  else .ok ()

def checkRead (path offset maxBytes : Json) : Except ControlError Unit := do
  let parts ← validateRelativePath path
  let _ ← validateInteger offset 0 WorkspaceFiles.maxFileBytes "file offset"
  let _ ← validateInteger maxBytes 1 WorkspaceFiles.maxFileChunkBytes "file read size"
  checkParts parts

def checkWrite (path offset encoded truncate : Json) : Except ControlError Unit := do
  let r ← WorkspaceFiles.writeFields path offset encoded truncate
  checkParts r.parts

def checkDelete (path recursive : Json) : Except ControlError Unit := do
  let _ ← validateRelativePath path
  if recursive.asBool.getD false then
    .error (.permissionDenied "recursive deletion is not supported")
  else .ok ()

def checkStatus (jobId logOffset maxBytes : Json) : Except ControlError Unit := do
  let _ ← validateJobId jobId
  let _ ← validateInteger logOffset 0 (2 ^ 53 - 1) "log cursor"
  let _ ← validateInteger maxBytes 1 maxLogChunkBytes "log read size"
  return ()

/-- What an operation checks of its request before it looks at the workspace or at the jobs; the checks
of the two that the client never asks for are left out. -/
def checkFields (raw : Json) : String → Except ControlError Unit
  | "hello" => .ok ()
  | "bloom.status" => .ok ()
  | "connections.configure" => .ok ()
  | "ceremony.pending" => .ok ()
  | "fs.list" => do
    let _ ← validateWorkspaceDirectory (raw.index "path")
    return ()
  | "fs.read" => checkRead (raw.index "path") (raw.index "offset") (raw.index "maxBytes")
  | "fs.write" =>
    checkWrite (raw.index "path") (raw.index "offset") (raw.index "data") (raw.index "truncate")
  | "fs.delete" => checkDelete (raw.index "path") (raw.index "recursive")
  | "job.start" => do
    let _ ← JobEngine.validateStart (raw.index "jobId") (raw.index "argv") (raw.index "cwd")
      (raw.index "environment") (raw.index "timeoutMs")
    return ()
  | "job.status" => checkStatus (raw.index "jobId") (raw.index "logOffset") (raw.index "maxBytes")
  | "job.cancel" => do
    let _ ← validateJobId (raw.index "jobId")
    return ()
  | _ => .error (.invalidRequest "unknown guest operation")

/-- A message that is not refused for its form, by the client or by the service. -/
structure Passes (message : Json) : Prop where
  frame : frameLength message ≤ maxFrameBytes
  request : validateRequest message = .ok ()
  fields : checkFields message (GuestControl.operationOf message) = .ok ()

/-! ### Valid values -/

def Accepts {α : Type} (x : Except ControlError α) : Prop := ∃ a, x = .ok a

/-- The values of a command are valid for the protocol, each by itself. -/
def Command.ValuesValid (w : World) : Command → Prop
  | .status => True
  | .hello => True
  | .filesList path => Accepts (validateWorkspaceDirectory (.string path))
  | .filesGet path _ => Accepts (validateRelativePath (.string path))
  | .filesPut input path =>
    Accepts (validateRelativePath (.string path)) ∧
      ∀ data, w.contents input = some data → data.length ≤ WorkspaceFiles.maxFileBytes
  | .filesDelete path => Accepts (validateRelativePath (.string path))
  | .jobsStart argv cwd env timeoutMs =>
    Accepts (validateArgv (.array (argv.map .string))) ∧
      Accepts (validateWorkspaceDirectory (.string cwd)) ∧
      Accepts (validateEnvironment (environmentJson env)) ∧
      Accepts (validateInteger (jsonNat timeoutMs) 1000 maxJobTimeoutMs "job timeout")
  | .jobsStatus jobId cursor =>
    Accepts (validateJobId (.string jobId)) ∧
      Accepts (validateInteger (jsonNat cursor) 0 (2 ^ 53 - 1) "log cursor")
  | .jobsCancel jobId => Accepts (validateJobId (.string jobId))

def ValuesValid (w : World) (args : List String) : Prop :=
  ∀ c, parseCommand args = some c → c.ValuesValid w

/-- The commands whose messages all pass: no start of a job, and no transfer of a file of the top
directory that gets as far as a message. -/
def Command.IsWellFormed (w : World) : Command → Prop
  | .filesGet path output => w.creates output = true → 2 ≤ (pathParts path).length
  | .filesPut input path => (w.upload input).isSome = true → 2 ≤ (pathParts path).length
  | .jobsStart _ _ _ _ => False
  | _ => True

/-! ### Generated ids -/

section Ids

variable (now : Nanos)

lemma Nanos.isHexDigit_of_mem {c : Char} (hc : c ∈ now.hex.toList) :
    (c.isDigit || ('a' ≤ c && c ≤ 'f')) = true := by
  rw [hex, String.toList_ofList] at hc
  exact List.all_eq_true.mp (Ascii.hexNumber_toDigits now.count).2 c hc

lemma Nanos.length_hex_le : now.hex.toList.length ≤ 32 := by
  have hlt : now.count < 16 ^ 32 := Nat.lt_of_lt_of_le now.lt (by decide)
  rw [hex, String.toList_ofList]
  exact (Nat.length_toDigits_le_iff (by decide) (by decide)).mpr hlt

lemma Nanos.hex_ne_nil : now.hex.toList ≠ [] := by
  rw [hex, String.toList_ofList]
  exact Nat.toDigits_ne_nil

lemma isIdChar_of_isHexDigit {c : Char} (h : (c.isDigit || ('a' ≤ c && c ≤ 'f')) = true) :
    isIdChar c = true := by
  have halnum : c.isAlphanum = true := by
    rcases Bool.or_eq_true_iff.mp h with hdigit | hletter
    · delta Char.isAlphanum
      rw [hdigit, Bool.or_true]
    · simp only [Bool.and_eq_true, decide_eq_true_eq, Char.le_def] at hletter
      have hlower : c.isLower = true :=
        Bool.and_eq_true_iff.mpr ⟨decide_eq_true hletter.1,
          decide_eq_true (UInt32.le_trans hletter.2 (by decide))⟩
      delta Char.isAlphanum Char.isAlpha
      rw [hlower, Bool.or_true, Bool.true_or]
  rw [isIdChar, halnum]
  rfl

lemma Nanos.isRequestId_hex : isRequestId now.hex = true := by
  have hlength := now.length_hex_le
  have hpos := List.length_pos_of_ne_nil now.hex_ne_nil
  simp only [isRequestId, Bool.and_eq_true, decide_eq_true_eq, List.all_eq_true]
  refine ⟨⟨hpos, Nat.le_trans hlength (by decide)⟩, fun c hc => ?_⟩
  exact isIdChar_of_isHexDigit (now.isHexDigit_of_mem hc)

/-- A time is too short to be a UUID. -/
lemma Nanos.validateJobId_hex :
    validateJobId (.string now.hex) = .error (.invalidRequest "job id must be a UUID") := by
  have hlength := now.length_hex_le
  have hshape : isUuidText now.hex.toList = false := by
    rw [isUuidText, hasUuidShape, decide_eq_false (by omega)]
    rfl
  simp only [validateJobId, Json.asStr, parseUuid, hshape]
  rfl

lemma Nanos.size_hex_le : JsonText.size (Json.string now.hex).text ≤ 34 := by
  have hlength := now.length_hex_le
  have hbare : now.hex.toList.all JsonText.isBare = true := List.all_eq_true.mpr fun c hc =>
    isBare_of_isIdChar (isIdChar_of_isHexDigit (now.isHexDigit_of_mem hc))
  rw [Json.text_string, size_jsonString hbare]
  omega

end Ids

/-! ### Messages -/

section Messages

variable {fields : List (String × Json)} {now : Nanos} {path jobId operation : String}
  {offset cursor : ℕ} {data : List UInt8} {first : Bool} {bounds : List ℕ}

/-- A short key that needs no escape. -/
def isShortKey (key : String) : Bool := key.toList.all JsonText.isBare && key.toList.length ≤ 20

/-- The texts of the values have the sizes `bounds` at most. -/
def SizesWithin (fields : List (String × Json)) (bounds : List ℕ) : Prop :=
  List.Forall₂ (fun field bound => JsonText.size field.2.text ≤ bound) fields bounds

lemma SizesWithin.nil : SizesWithin [] [] := List.Forall₂.nil

lemma SizesWithin.cons {key : String} {value : Json} {bound : ℕ}
    (h : JsonText.size value.text ≤ bound) (hfields : SizesWithin fields bounds) :
    SizesWithin ((key, value) :: fields) (bound :: bounds) := List.Forall₂.cons h hfields

lemma size_fieldTexts_le (hkeys : (fields.map Prod.fst).all isShortKey = true)
    (hsizes : SizesWithin fields bounds) :
    ((Json.fieldTexts fields).map JsonText.size).sum + (Json.fieldTexts fields).length ≤
      bounds.sum + 24 * bounds.length := by
  induction hsizes with
  | nil => exact Nat.le_refl 0
  | @cons field bound fields bounds hsize hsizes ih =>
    obtain ⟨key, value⟩ := field
    rw [List.map_cons, List.all_cons, Bool.and_eq_true] at hkeys
    obtain ⟨hkey, hrest⟩ := hkeys
    simp only [isShortKey, Bool.and_eq_true, decide_eq_true_eq] at hkey
    have hfield : JsonText.size (jsonField key value.text) ≤ bound + 23 :=
      size_shortField hsize hkey.1 hkey.2
    have hfields := ih hrest
    simp only [Json.fieldTexts_cons, List.map_cons, List.sum_cons, List.length_cons]
    omega

/-- What a frame takes besides the values of its message. -/
lemma frameLength_le (hkeys : (fields.map Prod.fst).all isShortKey = true)
    (hsizes : SizesWithin fields bounds) :
    frameLength (.object fields) ≤ bounds.sum + 24 * bounds.length + 3 := by
  have hnewline : JsonText.size ['\n'] = 1 := rfl
  have htexts := size_fieldTexts_le hkeys hsizes
  have hobject := JsonText.size_object_le (Json.fieldTexts fields)
  rw [frameLength, JsonText.size_append, hnewline, Json.text_object]
  omega

lemma size_name_le {name : String} (h : isShortKey name = true) :
    JsonText.size (Json.string name).text ≤ 22 := by
  simp only [isShortKey, Bool.and_eq_true, decide_eq_true_eq] at h
  have hsize := size_jsonString h.1
  rw [Json.text_string]
  omega

lemma size_nat_le {n : ℕ} (h : n ≤ maxSafeInteger) : JsonText.size (jsonNat n).text ≤ 16 := by
  have htext : (jsonNat n).text = JsonText.number n := by
    show JsonText.integer (n : ℤ) = _
    rw [JsonText.integer_of_nonneg (Int.natCast_nonneg n), Int.natAbs_natCast]
  rw [htext]
  exact size_safeInteger_le h

lemma size_pathText_le (h : path.utf8ByteSize ≤ 1024) :
    JsonText.size (Json.string path).text ≤ 6146 := by
  have hsize := size_jsonString_le path
  rw [Json.text_string]
  omega

lemma size_version_le : JsonText.size (Json.number (some 1)).text ≤ 16 :=
  size_nat_le (by decide : 1 ≤ maxSafeInteger)

lemma size_limit_le : JsonText.size (jsonNat maxChunkBytes).text ≤ 16 := size_nat_le (by decide)

lemma size_bool_le (b : Bool) : JsonText.size (Json.bool b).text ≤ 5 := JsonText.size_bool_le b

/-- A message of one of the operations passes when its fields do. -/
lemma Passes.of_fields (hversion : fields.lookup "version" = some (.number (some 1)))
    (hid : fields.lookup "id" = some (.string now.hex))
    (hoperation : fields.lookup "operation" = some (.string operation)) (hne : operation ≠ "")
    (hfields : expectedFields operation = some (fields.map Prod.fst))
    (hkeys : (fields.map Prod.fst).all isShortKey = true) (hsizes : SizesWithin fields bounds)
    (hmax : bounds.sum + 24 * bounds.length + 3 ≤ maxFrameBytes)
    (hcheck : checkFields (.object fields) operation = .ok ()) : Passes (.object fields) where
  frame := Nat.le_trans (frameLength_le hkeys hsizes) hmax
  request := validateRequest_object hversion hid now.isRequestId_hex hoperation hne hfields
  fields := by
    have hname : GuestControl.operationOf (.object fields) = operation := by
      simp only [GuestControl.operationOf, Json.index, hoperation, Option.getD_some, Json.asStr]
    rw [hname]
    exact hcheck

lemma passes_none (hne : operation ≠ "") (hkey : isShortKey operation = true)
    (hfields : expectedFields operation = some ["id", "operation", "version"])
    (hcheck : ∀ raw, checkFields raw operation = .ok ()) :
    Passes (Call.message ⟨operation, []⟩ now) := by
  have hmessage : Call.message ⟨operation, []⟩ now = .object [("id", .string now.hex),
      ("operation", .string operation), ("version", .number (some 1))] := by
    simp only [Call.message, Json.insertFields, Json.insertField, List.foldl_cons,
      List.foldl_nil, String.reduceLT, String.reduceEq, reduceIte]
  rw [hmessage]
  exact Passes.of_fields rfl rfl rfl hne hfields
    (by decide : ["id", "operation", "version"].all isShortKey = true)
    (.cons now.size_hex_le (.cons (size_name_le hkey) (.cons size_version_le .nil)))
    (by decide) (hcheck _)

lemma passes_list {parts : List String}
    (h : validateWorkspaceDirectory (.string path) = .ok parts) :
    Passes ((listCall path).message now) := by
  have hpath := utf8ByteSize_of_validateWorkspaceDirectory h
  have hmessage : (listCall path).message now = .object [("id", .string now.hex),
      ("operation", .string "fs.list"), ("path", .string path), ("version", .number (some 1))] := by
    simp only [Call.message, listCall, Json.insertFields, Json.insertField, List.foldl_cons,
      List.foldl_nil, String.reduceLT, String.reduceEq, reduceIte]
  rw [hmessage]
  refine Passes.of_fields rfl rfl rfl (by decide) rfl
    (by decide : ["id", "operation", "path", "version"].all isShortKey = true)
    (.cons now.size_hex_le (.cons (size_name_le (by decide)) (.cons (size_pathText_le hpath)
      (.cons size_version_le .nil)))) (by decide) ?_
  show (validateWorkspaceDirectory (.string path) >>= fun _ => pure ()) = .ok ()
  rw [h]
  rfl

lemma passes_delete {parts : List String} (h : validateRelativePath (.string path) = .ok parts) :
    Passes ((deleteCall path).message now) := by
  have hpath := (isRelativePath_of_ok h).1.length_le
  have hmessage : (deleteCall path).message now = .object [("id", .string now.hex),
      ("operation", .string "fs.delete"), ("path", .string path), ("recursive", .bool false),
      ("version", .number (some 1))] := by
    simp only [Call.message, deleteCall, Json.insertFields, Json.insertField, List.foldl_cons,
      List.foldl_nil, String.reduceLT, String.reduceEq, reduceIte]
  rw [hmessage]
  refine Passes.of_fields rfl rfl rfl (by decide) rfl
    (by decide : ["id", "operation", "path", "recursive", "version"].all isShortKey = true)
    (.cons now.size_hex_le (.cons (size_name_le (by decide)) (.cons (size_pathText_le hpath)
      (.cons (size_bool_le false) (.cons size_version_le .nil))))) (by decide) ?_
  show checkDelete (.string path) (.bool false) = .ok ()
  rw [checkDelete, Checked.bind_ok h]
  rfl

lemma message_read : (readCall path offset).message now = .object [("id", .string now.hex),
    ("maxBytes", jsonNat maxChunkBytes), ("offset", jsonNat offset), ("operation", .string "fs.read"),
    ("path", .string path), ("version", .number (some 1))] := by
  simp only [Call.message, readCall, Json.insertFields, Json.insertField, List.foldl_cons,
    List.foldl_nil, String.reduceLT, String.reduceEq, reduceIte]

lemma message_write : (writeCall path data offset first).message now = .object [
    ("data", encodedChunk data offset), ("id", .string now.hex), ("offset", jsonNat offset),
    ("operation", .string "fs.write"), ("path", .string path), ("truncate", .bool first),
    ("version", .number (some 1))] := by
  simp only [Call.message, writeCall, Json.insertFields, Json.insertField, List.foldl_cons,
    List.foldl_nil, String.reduceLT, String.reduceEq, reduceIte]

/-- A read of a file below a directory. -/
lemma passes_read {parts : List String} (h : validateRelativePath (.string path) = .ok parts)
    (hlength : 2 ≤ parts.length) (hoffset : offset ≤ WorkspaceFiles.maxFileBytes) :
    Passes ((readCall path offset).message now) := by
  have hpath := (isRelativePath_of_ok h).1.length_le
  have hmax : WorkspaceFiles.maxFileBytes ≤ maxSafeInteger := by decide
  have hlimit : validateInteger (jsonNat maxChunkBytes) 1 WorkspaceFiles.maxFileChunkBytes
      "file read size" = .ok (maxChunkBytes : ℤ) := by decide +kernel
  rw [message_read]
  refine Passes.of_fields rfl rfl rfl (by decide) rfl
    (by decide : ["id", "maxBytes", "offset", "operation", "path", "version"].all isShortKey = true)
    (.cons now.size_hex_le (.cons size_limit_le (.cons (size_nat_le (Nat.le_trans hoffset hmax))
      (.cons (size_name_le (by decide)) (.cons (size_pathText_le hpath)
      (.cons size_version_le .nil)))))) (by decide) ?_
  show checkRead (.string path) (jsonNat offset) (jsonNat maxChunkBytes) = .ok ()
  rw [checkRead, Checked.bind_ok h, jsonNat, Checked.bind_ok (WorkspaceFiles.validateOffset hoffset),
    Checked.bind_ok hlimit, checkParts, if_neg (Nat.not_lt.mpr hlength)]

/-- A write to a file below a directory. -/
lemma passes_write {parts : List String} (h : validateRelativePath (.string path) = .ok parts)
    (hlength : 2 ≤ parts.length)
    (hsize : offset + (chunkAt data offset).length ≤ WorkspaceFiles.maxFileBytes)
    (hfirst : first = true → offset = 0) :
    Passes ((writeCall path data offset first).message now) := by
  have hpath := (isRelativePath_of_ok h).1.length_le
  have hmax : WorkspaceFiles.maxFileBytes ≤ maxSafeInteger := by decide
  have hoffset : offset ≤ maxSafeInteger := by omega
  have hchunk : (chunkAt data offset).length ≤ WorkspaceFiles.maxFileChunkBytes := by
    rw [chunkAt, List.length_take]
    exact Nat.min_le_left _ _
  have hdata : JsonText.size (encodedChunk data offset).text ≤ 349530 := by
    rw [encodedChunk, Json.text_string, jsonString, String.toList_ofList]
    exact size_chunk_le hchunk
  rw [message_write]
  refine Passes.of_fields rfl rfl rfl (by decide) rfl
    (by decide : ["data", "id", "offset", "operation", "path", "truncate", "version"].all
      isShortKey = true)
    (.cons hdata (.cons now.size_hex_le (.cons (size_nat_le hoffset) (.cons (size_name_le (by decide))
      (.cons (size_pathText_le hpath) (.cons (size_bool_le first) (.cons size_version_le .nil)))))))
    (by decide) ?_
  show checkWrite (.string path) (jsonNat offset) (encodedChunk data offset) (.bool first) = .ok ()
  rw [checkWrite, jsonNat, encodedChunk,
    Checked.bind_ok (WorkspaceFiles.writeFields_encode h hchunk hsize hfirst), checkParts,
    if_neg (Nat.not_lt.mpr hlength)]

/-- A job id that is accepted has the length of a UUID. -/
lemma size_jobId_le {id : String} (h : validateJobId (.string jobId) = .ok id) :
    JsonText.size (Json.string jobId).text ≤ 434 := by
  have hshape : isUuidText jobId.toList = true := by
    simp only [validateJobId, Json.asStr, parseUuid] at h
    by_contra hnot
    rw [if_neg hnot] at h
    cases h
  have hlength : jobId.toList.length = 36 := by
    simp only [isUuidText, hasUuidShape, Bool.and_eq_true, decide_eq_true_eq] at hshape
    exact hshape.1.1.1
  have hunits := Utf16.length_encode_le jobId.toList
  have hsize := JsonText.size_string_le (Utf16.encode jobId.toList)
  rw [Json.text_string, jsonString]
  omega

lemma passes_status {id : String} (h : validateJobId (.string jobId) = .ok id)
    (hcursor : cursor < 2 ^ 53) : Passes ((statusCall jobId cursor).message now) := by
  have hlimit : validateInteger (jsonNat maxChunkBytes) 1 maxLogChunkBytes "log read size" =
      .ok (maxChunkBytes : ℤ) := by decide +kernel
  have hvalid : validateInteger (jsonNat cursor) 0 (2 ^ 53 - 1) "log cursor" = .ok (cursor : ℤ) :=
    validateInteger_eq_ok (by omega) (by omega) (by omega) (by omega)
  have hmessage : (statusCall jobId cursor).message now = .object [("id", .string now.hex),
      ("jobId", .string jobId), ("logOffset", jsonNat cursor), ("maxBytes", jsonNat maxChunkBytes),
      ("operation", .string "job.status"), ("version", .number (some 1))] := by
    simp only [Call.message, statusCall, Json.insertFields, Json.insertField, List.foldl_cons,
      List.foldl_nil, String.reduceLT, String.reduceEq, reduceIte]
  rw [hmessage]
  refine Passes.of_fields rfl rfl rfl (by decide) rfl
    (by decide : ["id", "jobId", "logOffset", "maxBytes", "operation", "version"].all
      isShortKey = true)
    (.cons now.size_hex_le (.cons (size_jobId_le h)
      (.cons (size_nat_le (Nat.le_sub_one_of_lt hcursor)) (.cons size_limit_le
      (.cons (size_name_le (by decide)) (.cons size_version_le .nil)))))) (by decide) ?_
  show checkStatus (.string jobId) (jsonNat cursor) (jsonNat maxChunkBytes) = .ok ()
  rw [checkStatus, Checked.bind_ok h, Checked.bind_ok hvalid, Checked.bind_ok hlimit]
  rfl

lemma passes_cancel {id : String} (h : validateJobId (.string jobId) = .ok id) :
    Passes ((cancelCall jobId).message now) := by
  have hmessage : (cancelCall jobId).message now = .object [("id", .string now.hex),
      ("jobId", .string jobId), ("operation", .string "job.cancel"),
      ("version", .number (some 1))] := by
    simp only [Call.message, cancelCall, Json.insertFields, Json.insertField, List.foldl_cons,
      List.foldl_nil, String.reduceLT, String.reduceEq, reduceIte]
  rw [hmessage]
  refine Passes.of_fields rfl rfl rfl (by decide) rfl
    (by decide : ["id", "jobId", "operation", "version"].all isShortKey = true)
    (.cons now.size_hex_le (.cons (size_jobId_le h) (.cons (size_name_le (by decide))
      (.cons size_version_le .nil)))) (by decide) ?_
  show (validateJobId (.string jobId) >>= fun _ => pure ()) = .ok ()
  rw [h]
  rfl

end Messages

/-! ### Offsets -/

section Offsets

variable {w : World} {path : String} {offset : ℕ} {data : List UInt8} {first : Bool}
  {quota : WorkspaceFiles.Quota}

/-- A read that has not come to the end of the file is within the bound. -/
lemma yields_read (path offset maxBytes : Json) : Yields (fun _ => True)
    (fun reply : WorkspaceFiles.ReadReply =>
      reply.eof = false → reply.nextOffset ≤ WorkspaceFiles.maxFileBytes)
    (WorkspaceFiles.read path offset maxBytes) := by
  unfold WorkspaceFiles.read
  refine (Yields.any _).bind fun parts _ => (Yields.any _).bind fun start _ =>
    (Yields.any _).bind fun limit _ => (Yields.any _).bind fun fd _ => ?_
  unfold WorkspaceFiles.readChunk
  refine (Yields.any _).bind fun n _ => (Yields.any _).bind fun contents _ => ?_
  split
  · exact Yields.throw trivial
  · rename_i hsize
    split
    · exact Yields.throw trivial
    · refine (Yields.any _).bind fun buf _ => Yields.pure fun heof => ?_
      simp only [decide_eq_false_iff_not] at heof ⊢
      omega

lemma DownloadsAt.le (h : DownloadsAt path offset) : offset ≤ WorkspaceFiles.maxFileBytes := by
  cases h with
  | start => exact Nat.zero_le _
  | @next offset k reply hat hreply heof =>
    exact (yields_read _ _ _).of_ok hreply heof

/-- The loop goes on only within the bytes. -/
lemma UploadsAt.le (h : UploadsAt quota path data offset first) :
    offset ≤ data.length ∧ (first = true → offset = 0) := by
  cases h with
  | start => exact ⟨Nat.zero_le _, fun _ => rfl⟩
  | next hat hreply hchunk hnext => exact ⟨Nat.le_of_lt hnext, fun hfirst => absurd hfirst (by decide)⟩

lemma UploadsAt.chunk_le (h : UploadsAt quota path data offset first) :
    offset + (chunkAt data offset).length ≤ data.length := by
  have hoffset := h.le.1
  have hchunk : (chunkAt data offset).length ≤ data.length - offset := by
    rw [chunkAt, List.length_take, List.length_drop]
    exact Nat.min_le_right _ _
  omega

lemma World.contents_of_upload {input : String} (h : w.upload input = some data) :
    w.contents input = some data := by
  rw [World.upload] at h
  split at h
  · cases h
  · split at h
    · cases h
    · exact h

end Offsets

/-! ### Refusals -/

section Refusals

variable {e : GuestControl.Surroundings} {raw path offset maxBytes encoded truncate recursive : Json}
  {error : ControlError} {k : Kernel} {quota : WorkspaceFiles.Quota} {pwrites : List ℕ} {parts : List String}

lemma outcome_orThrow_ok {α : Type} {x : Except ControlError α} {a : α} (h : x = .ok a) :
    outcome (WorkspaceFiles.orThrow x) k = (.ok a, k) := by
  rw [h]
  rfl

lemma outcome_orThrow_error {α : Type} {x : Except ControlError α} (h : x = .error error) :
    outcome (WorkspaceFiles.orThrow x) k = (.error (.error error), k) := by
  rw [h]
  rfl

/-- A file of the top directory is not opened. -/
lemma outcome_openFile (h : checkParts parts = .error error) (flags : OpenFlags) (create : Bool) :
    outcome (WorkspaceFiles.openFile parts flags create) k = (.error (.error error), k) := by
  rw [checkParts] at h
  split at h
  · rename_i hlength
    cases h
    rw [WorkspaceFiles.openFile, if_pos hlength]
    rfl
  · cases h

lemma outcome_list (h : validateWorkspaceDirectory path = .error error) :
    outcome (WorkspaceFiles.list path) k = (.error (.error error), k) :=
  outcome_bind_error (outcome_orThrow_error h)

lemma outcome_read (h : checkRead path offset maxBytes = .error error) :
    outcome (WorkspaceFiles.read path offset maxBytes) k = (.error (.error error), k) := by
  rw [WorkspaceFiles.read]
  rcases Checked.of_bind_error h with hpath | ⟨parts, hpath, h⟩
  · exact outcome_bind_error (outcome_orThrow_error hpath)
  · rw [outcome_bind_ok (outcome_orThrow_ok hpath)]
    rcases Checked.of_bind_error h with hstart | ⟨start, hstart, h⟩
    · exact outcome_bind_error (outcome_orThrow_error hstart)
    · rw [outcome_bind_ok (outcome_orThrow_ok hstart)]
      rcases Checked.of_bind_error h with hlimit | ⟨limit, hlimit, h⟩
      · exact outcome_bind_error (outcome_orThrow_error hlimit)
      · rw [outcome_bind_ok (outcome_orThrow_ok hlimit)]
        exact outcome_bind_error (outcome_openFile h _ _)

lemma outcome_write (h : checkWrite path offset encoded truncate = .error error)
    (hlocked : k.locked = false) :
    outcome (WorkspaceFiles.write quota pwrites path offset encoded truncate) k =
      (.error (.error error), k) := by
  rw [WorkspaceFiles.write]
  rcases Checked.of_bind_error h with hfields | ⟨r, hfields, h⟩
  · exact outcome_bind_error (outcome_orThrow_error hfields)
  · rw [outcome_bind_ok (outcome_orThrow_ok hfields)]
    exact outcome_withWriteLock hlocked (outcome_bind_error (outcome_openFile h _ _)) (by simp)

lemma outcome_delete (h : checkDelete path recursive = .error error) :
    outcome (WorkspaceFiles.delete quota path recursive) k = (.error (.error error), k) := by
  rw [WorkspaceFiles.delete]
  rcases Checked.of_bind_error h with hpath | ⟨parts, hpath, h⟩
  · exact outcome_bind_error (outcome_orThrow_error hpath)
  · rw [outcome_bind_ok (outcome_orThrow_ok hpath)]
    split at h
    · rename_i hrecursive
      cases h
      rw [if_pos hrecursive]
      rfl
    · cases h

lemma outcome_onFiles {α : Type} {x : FileAction α} {g : GuestControl.GuestState}
    (f : α → GuestControl.OperationResult) (h : outcome x g.files = (.error (.error error), g.files)) :
    outcome (GuestControl.resultOf f (GuestControl.onFiles x)) g = (.error (.error error), g) :=
  outcome_bind_error (outcome_zoom_error h)

/-- The service refuses the operation whatever the workspace and the jobs are. A write asks for the write lock
before it counts the parts of its path. -/
def Refuses (raw : Json) (error : ControlError) : String → Prop
  | "job.start" => ∀ s t, JobEngine.receive s t (.start (raw.index "jobId") (raw.index "argv")
      (raw.index "cwd") (raw.index "environment") (raw.index "timeoutMs")) = (s, some (.error error))
  | "job.status" => ∀ s t, JobEngine.receive s t (.status (raw.index "jobId")
      (raw.index "logOffset") (raw.index "maxBytes")) = (s, some (.error error))
  | "job.cancel" => ∀ s t,
      JobEngine.receive s t (.cancel (raw.index "jobId")) = (s, some (.error error))
  | "fs.write" => ∀ e (g : GuestControl.GuestState), g.files.locked = false →
      outcome (GuestControl.perform e raw "fs.write") g = (.error (.error error), g)
  | operation => ∀ e g,
      outcome (GuestControl.perform e raw operation) g = (.error (.error error), g)

lemma receive_start {jobId argv cwd environment timeoutMs : Json} {s : JobEngine} {t : Transport}
    (h : JobEngine.validateStart jobId argv cwd environment timeoutMs = .error error) :
    s.receive t (.start jobId argv cwd environment timeoutMs) = (s, some (.error error)) := by
  simp only [JobEngine.receive, h]

lemma receive_status {jobId logOffset maxBytes : Json} {s : JobEngine} {t : Transport}
    (h : checkStatus jobId logOffset maxBytes = .error error) :
    s.receive t (.status jobId logOffset maxBytes) = (s, some (.error error)) := by
  rw [JobEngine.receive]
  rcases Checked.of_bind_error h with hid | ⟨id, hid, h⟩
  · rw [hid]
    rfl
  · rw [hid]
    rcases Checked.of_bind_error h with hoffset | ⟨offset, hoffset, h⟩
    · rw [hoffset]
      rfl
    · rw [hoffset]
      rcases Checked.of_bind_error h with hlimit | ⟨limit, hlimit, h⟩
      · rw [hlimit]
        rfl
      · cases h

/-- The checks are those of the service. -/
theorem refuses_of_checkFields {operation : String} (h : checkFields raw operation = .error error) :
    Refuses raw error operation := by
  unfold checkFields at h
  split at h
  · cases h
  · cases h
  · cases h
  · cases h
  · intro e g
    rcases Checked.of_bind_error h with hpath | ⟨parts, hpath, h⟩
    · show outcome (GuestControl.convertNames _ false >>= fun _ => _) g = _
      rw [GuestControl.convertNames_directory]
      exact outcome_onFiles _ (outcome_list hpath)
    · cases h
  · intro e g
    show outcome (GuestControl.convertNames _ false >>= fun _ => _) g = _
    rw [GuestControl.convertNames_relativePath]
    exact outcome_onFiles _ (outcome_read h)
  · intro e g hlocked
    show outcome (GuestControl.convertNames _ false >>= fun _ => _) g = _
    rw [GuestControl.convertNames_relativePath]
    exact outcome_onFiles _ (outcome_write h hlocked)
  · intro e g
    show outcome (GuestControl.convertNames _ true >>= fun _ => _) g = _
    rw [GuestControl.convertNames_relativePath]
    exact outcome_onFiles _ (outcome_delete h)
  · rcases Checked.of_bind_error h with hstart | ⟨spec, hstart, h⟩
    · exact fun s t => receive_start hstart
    · cases h
  · exact fun s t => receive_status h
  · rcases Checked.of_bind_error h with hid | ⟨id, hid, h⟩
    · intro s t
      simp only [JobEngine.receive, hid]
    · cases h
  · cases h
    unfold Refuses
    split
    · exact absurd rfl ‹_›
    · exact absurd rfl ‹_›
    · exact absurd rfl ‹_›
    · exact absurd rfl ‹_›
    · intro e g
      unfold GuestControl.perform
      split
      all_goals first | rfl | exact absurd rfl ‹_›

end Refusals

/-! ### The law -/

section Law

variable {w : World} {c : Command} {path : String} {offset : ℕ} {data : List UInt8} {first : Bool}
  {parts : List String} {now : Nanos}

lemma length_of_checkParts (h : checkParts parts = .ok ()) : 2 ≤ parts.length := by
  rw [checkParts] at h
  split at h
  · cases h
  · rename_i hlength
    exact Nat.not_lt.mp hlength

/-- A read that passes is below a directory. -/
lemma length_of_passes_read (h : Passes ((readCall path offset).message now)) :
    2 ≤ (pathParts path).length := by
  have hfields := h.fields
  rw [message_read] at hfields
  obtain ⟨parts, hpath, hfields⟩ := Checked.of_bind_ok hfields
  obtain ⟨-, -, hfields⟩ := Checked.of_bind_ok hfields
  obtain ⟨-, -, hfields⟩ := Checked.of_bind_ok hfields
  have hlength := length_of_checkParts hfields
  rw [(isRelativePath_of_ok hpath).2, List.length_map] at hlength
  exact hlength

lemma length_of_passes_write (h : Passes ((writeCall path data offset first).message now)) :
    2 ≤ (pathParts path).length := by
  have hfields := h.fields
  rw [message_write] at hfields
  obtain ⟨r, hwrite, hfields⟩ := Checked.of_bind_ok hfields
  have hlength := length_of_checkParts hfields
  have hpath := WorkspaceFiles.writeFields_parts hwrite
  rw [(isRelativePath_of_ok hpath).2, List.length_map] at hlength
  exact hlength

/-- No start passes: its job id is no UUID. -/
lemma not_passes_start (now now' : Nanos) (argv : List String) (cwd : String)
    (env : List (String × String)) (timeoutMs : ℕ) :
    ¬Passes ((startCall now argv cwd env timeoutMs).message now') := by
  intro h
  have hfields := h.fields
  have hmessage : (startCall now argv cwd env timeoutMs).message now' = .object [
      ("argv", .array (argv.map .string)), ("cwd", .string cwd),
      ("environment", environmentJson env), ("id", .string now'.hex), ("jobId", .string now.hex),
      ("operation", .string "job.start"), ("timeoutMs", jsonNat timeoutMs),
      ("version", .number (some 1))] := by
    simp only [Call.message, startCall, Json.insertFields, Json.insertField, List.foldl_cons,
      List.foldl_nil, String.reduceLT, String.reduceEq, reduceIte]
  rw [hmessage] at hfields
  obtain ⟨spec, hstart, -⟩ := Checked.of_bind_ok hfields
  obtain ⟨id, hid, -⟩ := Checked.of_bind_ok hstart
  have hrefused := now.validateJobId_hex
  rw [show validateJobId (.string now.hex) = .ok id from hid] at hrefused
  cases hrefused

lemma le_of_validateInteger {n : ℕ} {min max m : ℤ} {label : String}
    (h : validateInteger (jsonNat n) min max label = .ok m) : (n : ℤ) ≤ max := by
  have hm := validateInteger_ok h
  rw [validateInteger] at h
  split at h
  · cases h
  · rename_i k hk
    split at h
    · cases h
    · cases h
      rw [jsonNat, Json.asI64] at hk
      obtain ⟨hn, -⟩ := Option.filter_eq_some_iff.mp hk
      obtain rfl := Option.some.inj hn
      exact hm.2

/-- The requests of a command pass if and only if it is well formed. -/
lemma Command.passes_iff (hvalid : c.ValuesValid w) :
    (∀ call, c.Makes w call → ∀ now, Passes (call.message now)) ↔ c.IsWellFormed w := by
  cases c with
  | status =>
    refine ⟨fun _ => trivial, fun _ call hmakes now => ?_⟩
    cases hmakes
    exact passes_none (by decide) (by decide) rfl fun _ => rfl
  | hello =>
    refine ⟨fun _ => trivial, fun _ call hmakes now => ?_⟩
    cases hmakes
    exact passes_none (by decide) (by decide) rfl fun _ => rfl
  | filesList path =>
    refine ⟨fun _ => trivial, fun _ call hmakes now => ?_⟩
    cases hmakes
    obtain ⟨parts, hparts⟩ := hvalid
    exact passes_list hparts
  | filesGet path output =>
    obtain ⟨parts, hparts⟩ := hvalid
    constructor
    · intro h hcreates
      exact length_of_passes_read (h _ (.filesGet hcreates .start) ⟨0, by decide⟩)
    · intro hlength call hmakes now
      cases hmakes with
      | filesGet hcreates hat =>
        have hlength := hlength hcreates
        refine passes_read hparts ?_ hat.le
        rw [(isRelativePath_of_ok hparts).2, List.length_map]
        exact hlength
  | filesPut input path =>
    obtain ⟨⟨parts, hparts⟩, hdata⟩ := hvalid
    constructor
    · intro h hupload
      obtain ⟨data, hupload⟩ := Option.isSome_iff_exists.mp hupload
      exact length_of_passes_write (h _ (.filesPut hupload .start) ⟨0, by decide⟩)
    · intro hlength call hmakes now
      cases hmakes with
      | filesPut hupload hat =>
        have hlength := hlength (Option.isSome_iff_exists.mpr ⟨_, hupload⟩)
        have hsize := hdata _ (World.contents_of_upload hupload)
        refine passes_write hparts ?_ (Nat.le_trans hat.chunk_le hsize) hat.le.2
        rw [(isRelativePath_of_ok hparts).2, List.length_map]
        exact hlength
  | filesDelete path =>
    refine ⟨fun _ => trivial, fun _ call hmakes now => ?_⟩
    cases hmakes
    obtain ⟨parts, hparts⟩ := hvalid
    exact passes_delete hparts
  | jobsStart argv cwd env timeoutMs =>
    refine ⟨fun h => ?_, False.elim⟩
    exact not_passes_start ⟨0, by decide⟩ ⟨0, by decide⟩ argv cwd env timeoutMs
      (h _ (.jobsStart ⟨0, by decide⟩ argv cwd env timeoutMs) ⟨0, by decide⟩)
  | jobsStatus jobId cursor =>
    refine ⟨fun _ => trivial, fun _ call hmakes now => ?_⟩
    cases hmakes
    obtain ⟨⟨id, hid⟩, ⟨n, hcursor⟩⟩ := hvalid
    have hle := le_of_validateInteger hcursor
    exact passes_status hid (by omega)
  | jobsCancel jobId =>
    refine ⟨fun _ => trivial, fun _ call hmakes now => ?_⟩
    cases hmakes
    obtain ⟨id, hid⟩ := hvalid
    exact passes_cancel hid

/-- Every request that a command line with valid values comes to send has an accepted form, if and only
if the command line is well formed. -/
theorem sends_pass_iff (w : World) (args : List String) (hvalid : ValuesValid w args) :
    (∀ message, Sends w args message → Passes message) ↔
      ∀ c, parseCommand args = some c → c.IsWellFormed w := by
  constructor
  · intro h c hc
    refine (Command.passes_iff (hvalid c hc)).mp fun call hmakes now => ?_
    exact h _ ⟨c, call, now, hc, hmakes, rfl⟩
  · rintro h message ⟨c, call, now, hc, hmakes, rfl⟩
    exact (Command.passes_iff (hvalid c hc)).mpr (h c hc) call hmakes now

/-- In a workspace without files the first chunk is stored. -/
lemma uploadsAt_second (hlong : maxChunkBytes < data.length) :
    UploadsAt .smallest "d/f" data maxChunkBytes false := by
  have hmax : maxChunkBytes = 262144 := rfl
  have hmaxChunk : WorkspaceFiles.maxFileChunkBytes = 262144 := rfl
  have hmaxFile : WorkspaceFiles.maxFileBytes = 8388608 := rfl
  have hchunk : (chunkAt data 0).length = maxChunkBytes := by
    rw [chunkAt, List.length_take, List.length_drop]
    omega
  have hnode : (WorkspaceTree.empty.prepared [[100], [102]]).node [[100], [102]] = some (.file []) := by
    decide +kernel
  have hwritable := WorkspaceTree.writable_of_prepared (by decide) hnode
  have hparts : validateRelativePath (.string "d/f") = .ok ["d", "f"] := by decide +kernel
  have hfields := WorkspaceFiles.writeFields_encode hparts (by omega : (chunkAt data 0).length ≤ _)
    (by omega : 0 + _ ≤ _) (fun _ => rfl : true = true → _)
  have hused : (WorkspaceTree.empty.prepared [[100], [102]]).usedBytes = .ok 0 := by decide +kernel
  have hquota : WorkspaceFiles.WriteFields.accounted ⟨["d", "f"], 0, chunkAt data 0, true⟩ 0
      (WorkspaceTree.empty.contentsAt [[100], [102]]).length ≤ WorkspaceFiles.Quota.smallest.bytes := by
    simp only [WorkspaceFiles.WriteFields.accounted, WorkspaceFiles.WriteFields.resultingSize, hchunk, hmax]
    decide
  have hdone : Completes [] (chunkAt data 0).length := rfl
  obtain ⟨k', hrun, -⟩ := gives_write hfields hwritable
    (gives_writeChunk_ok hwritable.node_prepared hused hquota hdone) nofun (.initial .empty) rfl
  have hnext : 0 + (chunkAt data 0).length = maxChunkBytes := by rw [Nat.zero_add, hchunk]
  obtain ⟨reply, hreply, hoffset⟩ : ∃ reply : WorkspaceFiles.WriteReply,
      (outcome (WorkspaceFiles.write .smallest [] (.string "d/f") (jsonNat 0) (encodedChunk data 0)
        (.bool true)) (.initial .empty)).1 = .ok reply ∧ reply.nextOffset = maxChunkBytes :=
    ⟨_, congrArg Prod.fst hrun, hnext⟩
  have hpos : 0 < (chunkAt data 0).length := by omega
  rw [← hoffset]
  exact .next .start hreply (List.ne_nil_of_length_pos hpos) (by omega)

/-- Bytes for two chunks. -/
def putData : List UInt8 := List.replicate 300000 0

def putWorld : World := ⟨fun _ => some 300000, fun _ => some putData, fun _ => true, .smallest⟩

/-- Both chunks of the file are sent, and they pass. -/
theorem sends_pass_iff_putData :
    Sends putWorld ["files", "put", "in", "d/f"]
        ((writeCall "d/f" putData maxChunkBytes false).message ⟨0, by decide⟩) ∧
      ((∀ message, Sends putWorld ["files", "put", "in", "d/f"] message → Passes message) ↔
        ∀ c, parseCommand ["files", "put", "in", "d/f"] = some c → c.IsWellFormed putWorld) := by
  have hupload : putWorld.upload "in" = some putData := by
    rw [World.upload]
    exact if_neg (by decide)
  have hlong : maxChunkBytes < putData.length := by
    rw [putData, List.length_replicate]
    decide
  refine ⟨⟨.filesPut "in" "d/f", _, _, rfl, .filesPut hupload (uploadsAt_second hlong), rfl⟩, ?_⟩
  refine sends_pass_iff putWorld _ fun c hc => ?_
  obtain rfl := Option.some.inj hc
  refine ⟨⟨["d", "f"], by decide +kernel⟩, fun data hdata => ?_⟩
  obtain rfl := Option.some.inj hdata
  rw [putData, List.length_replicate]
  decide

def bareWorld : World := ⟨fun _ => none, fun _ => none, fun _ => false, .smallest⟩

/-- A start of `true` is refused for its job id. -/
theorem not_sends_pass : ¬∀ (w : World) (args : List String), ValuesValid w args →
    ∀ message, Sends w args message → Passes message := by
  intro h
  have hparse : parseCommand ["jobs", "start", "--", "true"] =
      some (.jobsStart ["true"] "." [] defaultTimeoutMs) := by rfl
  have hvalid : ValuesValid bareWorld ["jobs", "start", "--", "true"] := by
    intro c hc
    rw [hparse] at hc
    obtain rfl := Option.some.inj hc
    exact ⟨⟨["true"], by decide +kernel⟩, ⟨[], rfl⟩, ⟨[], rfl⟩, ⟨900000, by decide +kernel⟩⟩
  refine not_passes_start ⟨0, by decide⟩ ⟨0, by decide⟩ ["true"] "." [] defaultTimeoutMs
    (h bareWorld ["jobs", "start", "--", "true"] hvalid _ ?_)
  exact ⟨_, _, ⟨0, by decide⟩, hparse, .jobsStart ⟨0, by decide⟩ _ _ _ _, rfl⟩

end Law

end Client

end Bloom
