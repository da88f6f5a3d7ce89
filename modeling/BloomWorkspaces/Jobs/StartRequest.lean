import BloomWorkspaces.Agent.GuestChannel
import BloomWorkspaces.Jobs.Status
import BloomWorkspaces.Jobs.StructuredJobSpec
import Mathlib.Data.List.Sort

/-!
# The request `job.start`

What `GuestJobs.start` sends for a specification, and what the guest makes of the frame up to the
checks on its table of jobs.
-/

namespace Bloom

/-! ### The request -/

/-- What `randomUUID` makes. -/
structure RandomUuid where
  text : String
  canonical : parseUuid text = some text

/-- The fields of a specification as `JSON.stringify` writes them. -/
def StructuredJobSpec.jsonFields (spec : StructuredJobSpec) : List (List Char) :=
  [jsonField "argv" (JsonText.array (spec.argv.map JsonText.string)),
    jsonField "cwd" (JsonText.string spec.cwd),
    jsonField "environment"
      (JsonText.object (spec.environment.map fun p => JsonText.field p.1 (JsonText.string p.2))),
    jsonField "timeoutMs" (JsonText.number spec.timeoutMs)]

/-- The body of the request to the node agent. -/
def StructuredJobSpec.text (spec : StructuredJobSpec) : List Char := JsonText.object spec.jsonFields

/-- The schema of `job.start`. -/
def isStartRequest (jobId : RandomUuid) (spec : StructuredJobSpec) : Bool :=
  isZodUuid jobId.text.toList &&
    (spec.argv.all (fun value => 1 ≤ value.length && value.length ≤ 4096) &&
      1 ≤ spec.argv.length && spec.argv.length ≤ 64) &&
    isWorkspaceDirectory spec.cwd &&
    (spec.environment.all (fun p => isJobEnvName p.1 && p.2.length ≤ 8192) &&
      spec.environment.length ≤ 64) &&
    (1000 ≤ spec.timeoutMs && spec.timeoutMs ≤ maxJobTimeoutMs)

def startRequestText (id : RequestId) (jobId : RandomUuid) (spec : StructuredJobSpec) : List Char :=
  requestText id "job.start" (jsonField "jobId" (jsonString jobId.text) :: spec.jsonFields)

/-! ### The guest -/

/-- The string of a frame; `serde_json` refuses a lone surrogate. -/
def guestString (s : JsText) : Option String := (Utf16.decode s).map String.ofList

def guestVariable (p : JsText × JsText) : Option (String × String) := do
  let name ← guestString p.1
  let value ← guestString p.2
  return (name, value)

/-- The keys of a map are sorted. -/
def sortVariables (vars : List (String × String)) : List (String × String) :=
  vars.insertionSort fun p q => p.1 ≤ q.1

/-- The fields of the request in the order of their map. -/
def startRequestFields (id : RequestId) (jobId : RandomUuid) (argv : List String) (cwd : String)
    (environment : List (String × String)) (timeoutMs : ℕ) : List (String × Json) := [
  ("argv", .array (argv.map .string)),
  ("cwd", .string cwd),
  ("environment", .object ((sortVariables environment).map fun p => (p.1, .string p.2))),
  ("id", .string (String.ofList id.chars)),
  ("jobId", .string jobId.text),
  ("operation", .string "job.start"),
  ("timeoutMs", .number (some (timeoutMs : ℤ))),
  ("version", .number (some 1))]

def startRequestJson (id : RequestId) (jobId : RandomUuid) (argv : List String) (cwd : String)
    (environment : List (String × String)) (timeoutMs : ℕ) : Json :=
  .object (startRequestFields id jobId argv cwd environment timeoutMs)

/-- `decode_frame` on the frame of the request. -/
def decodeStartRequest (id : RequestId) (jobId : RandomUuid) (spec : StructuredJobSpec) :
    Option Json := do
  let argv ← spec.argv.mapM guestString
  let cwd ← guestString spec.cwd
  let environment ← spec.environment.mapM guestVariable
  return startRequestJson id jobId argv cwd environment spec.timeoutMs

namespace Json

/-- `value[key]` -/
def index (value : Json) (key : String) : Json :=
  match value with
  | .object fields => (fields.lookup key).getD .null
  | _ => .null

def asU64 : Json → Option ℤ
  | .number n => n.filter fun n => 0 ≤ n && n < 2 ^ 64
  | _ => none

end Json

/-- `REQUEST_ID` -/
def isRequestId (s : String) : Bool :=
  1 ≤ s.toList.length && s.toList.length ≤ 64 && s.toList.all isIdChar

def protocolVersion : ℤ := 1

/-- The fields of an operation; the source sorts them. -/
def expectedFields : String → Option (List String)
  | "hello" => some ["id", "operation", "version"]
  | "fs.list" => some ["id", "operation", "path", "version"]
  | "fs.read" => some ["id", "maxBytes", "offset", "operation", "path", "version"]
  | "fs.write" => some ["data", "id", "offset", "operation", "path", "truncate", "version"]
  | "fs.delete" => some ["id", "operation", "path", "recursive", "version"]
  | "job.start" =>
    some ["argv", "cwd", "environment", "id", "jobId", "operation", "timeoutMs", "version"]
  | "job.status" => some ["id", "jobId", "logOffset", "maxBytes", "operation", "version"]
  | "job.cancel" => some ["id", "jobId", "operation", "version"]
  | "bloom.status" => some ["id", "operation", "version"]
  | "connections.configure" =>
    some ["caPublicKey", "id", "nfs", "operation", "version", "wallet", "workspaceId"]
  | "ceremony.pending" => some ["id", "operation", "version"]
  | _ => none

def validateRequest (raw : Json) : Except ControlError Unit :=
  match raw with
  | .object obj =>
    let version := ((obj.lookup "version").bind Json.asU64).getD 0
    let id := ((obj.lookup "id").bind Json.asStr).getD ""
    let operation := ((obj.lookup "operation").bind Json.asStr).getD ""
    if version ≠ protocolVersion then
      .error (.invalidRequest "unsupported guest protocol version")
    else if isRequestId id = false then .error (.invalidRequest "invalid request id")
    else if operation = "" then .error (.invalidRequest "operation is required")
    else
      match expectedFields operation with
      | none => .error (.invalidRequest "unknown guest operation")
      | some expected =>
        if obj.map Prod.fst ≠ expected then
          .error (.invalidRequest "request fields do not match the operation contract")
        else .ok ()
  | _ => .error (.invalidRequest "request must be an object")

/-- A request with the fields of its operation passes. -/
lemma validateRequest_object {fields : List (String × Json)} {id operation : String}
    (hversion : fields.lookup "version" = some (.number (some 1)))
    (hid : fields.lookup "id" = some (.string id)) (hvalid : isRequestId id = true)
    (hoperation : fields.lookup "operation" = some (.string operation)) (hne : operation ≠ "")
    (hfields : expectedFields operation = some (fields.map Prod.fst)) :
    validateRequest (.object fields) = .ok () := by
  have hone : (Json.number (some 1)).asU64 = some protocolVersion := rfl
  simp only [validateRequest, hversion, hid, hoperation, Option.bind_some, Json.asStr, hone,
    Option.getD_some, hvalid, hfields]
  rw [if_neg (by simp), if_neg (by simp), if_neg hne, if_neg (by simp)]

/-- `handle` on a `job.start`, up to the limit checks of `start`. -/
def startFromRequest (raw : Json) : Except ControlError StartSpec := do
  validateRequest raw
  JobEngine.validateStart (raw.index "jobId") (raw.index "argv") (raw.index "cwd")
    (raw.index "environment") (raw.index "timeoutMs")

end Bloom
