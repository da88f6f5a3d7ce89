import BloomWorkspaces.Agent.GuestProtocol
import BloomWorkspaces.Guest.JobEngine

/-!
# Job specifications

The schema `StructuredJobSpec` of the host, on the values of a JSON body. Its limits count 16-bit
units, and bytes where they are about sums.
-/

namespace Bloom

/-! ### Values of a body -/

/-- What a JSON body holds; the fields of an object stand in the order of the text. -/
inductive JsValue
  | null
  | bool (b : Bool)
  | number (n : JsNumber)
  | string (s : JsText)
  | array (items : List JsValue)
  | object (fields : List (JsText × JsValue))

def jsText (s : String) : JsText := Utf16.encode s.toList

namespace JsObject

variable {α : Type} {o fields : List (JsText × α)} {p : JsText × α}

/-- Assignment to a property. -/
def assign (o : List (JsText × α)) (p : JsText × α) : List (JsText × α) :=
  if p.1 ∈ o.map Prod.fst then o.map fun q => if q.1 = p.1 then p else q else o ++ [p]

/-- The object that `JSON.parse` makes of fields: the last one of a name counts. -/
def ofFields (fields : List (JsText × α)) : List (JsText × α) := fields.foldl assign []

lemma assign_of_not_mem (h : p.1 ∉ o.map Prod.fst) : assign o p = o ++ [p] := if_neg h

lemma foldl_assign_of_nodup (h : ((o ++ fields).map Prod.fst).Nodup) :
    fields.foldl assign o = o ++ fields := by
  induction fields generalizing o with
  | nil => rw [List.foldl_nil, List.append_nil]
  | cons p fields ih =>
    have hnew : p.1 ∉ o.map Prod.fst := by
      rw [List.map_append, List.nodup_append] at h
      exact fun hmem => h.2.2 p.1 hmem p.1 List.mem_cons_self rfl
    rw [List.foldl_cons, assign_of_not_mem hnew, ih, List.append_assoc]
    · rfl
    · rw [List.append_assoc]
      exact h

/-- Fields of different names are an object as they are. -/
lemma ofFields_of_nodup (h : (fields.map Prod.fst).Nodup) : ofFields fields = fields :=
  foldl_assign_of_nodup h

end JsObject

/-! ### The schema -/

/-- `z.string().min(1).max(4096)` without NUL -/
def isArgument (value : JsText) : Bool :=
  1 ≤ value.length && value.length ≤ 4096 && 0 ∉ value

/-- The schema of `argv` -/
def isArgv (argv : List JsText) : Bool :=
  argv.all isArgument && 1 ≤ argv.length && argv.length ≤ 64 &&
    (argv.map Utf16.byteLength).sum ≤ 32 * 1024

/-- `RelativeJobPath` -/
def isRelativeJobPath (path : JsText) : Bool :=
  1 ≤ path.length && path.length ≤ 1024 &&
    (path = JsText.dot ||
      !(0 ∈ path || 92 ∈ path || path.head? = some JsText.slash ||
          path.getLast? = some JsText.slash) &&
        (path.splitOn JsText.slash).all fun part =>
          part ≠ [] && part ≠ JsText.dot && part ≠ JsText.dotDot)

/-- The character of a unit that is no surrogate. -/
def unitChar (u : UInt16) : Char := Char.ofNat u.toNat

/-- `^[A-Za-z_][A-Za-z0-9_]{0,63}$` -/
def isJobEnvName (name : JsText) : Bool :=
  name.head?.any (fun u => isNameStart (unitChar u)) &&
    name.tail.all (fun u => isNameChar (unitChar u)) && name.length ≤ 64

/-- `z.string().max(8192)` without NUL -/
def isJobEnvValue (value : JsText) : Bool := value.length ≤ 8192 && 0 ∉ value

def userEnvironmentNames : List String := [
  "CI", "DEBUG", "FORCE_COLOR", "LANG", "LC_ALL", "LOG_LEVEL", "NODE_ENV", "NO_COLOR",
  "PYTHONUNBUFFERED", "RUST_BACKTRACE", "RUST_LOG", "TERM", "TZ"]

def userEnvironmentPrefixes : List String := ["APP_", "JOB_", "TEST_"]

def isAllowlistedJobEnvironmentName (name : JsText) : Bool :=
  (userEnvironmentNames.map jsText).contains name ||
    (userEnvironmentPrefixes.map jsText).any fun p => p.isPrefixOf name

/-- What a variable takes of the aggregate size. -/
def variableBytes (p : JsText × JsText) : ℕ := Utf16.byteLength p.1 + Utf16.byteLength p.2

/-- `JobEnvironment` -/
def isJobEnvironment (environment : List (JsText × JsText)) : Bool :=
  environment.all (fun p => isJobEnvName p.1 && isJobEnvValue p.2) && environment.length ≤ 64 &&
    environment.all (fun p => isAllowlistedJobEnvironmentName p.1) &&
    (environment.map variableBytes).sum ≤ 32 * 1024

/-- A job that the schema accepts. -/
structure StructuredJobSpec where
  argv : List JsText
  cwd : JsText
  environment : List (JsText × JsText)
  timeoutMs : ℕ
  argv_valid : isArgv argv = true
  cwd_valid : isRelativeJobPath cwd = true
  environment_valid : isJobEnvironment environment = true
  names_nodup : (environment.map Prod.fst).Nodup
  timeout_valid : 1000 ≤ timeoutMs ∧ timeoutMs ≤ maxJobTimeoutMs
  deriving DecidableEq

/-! ### Parsing -/

def JsValue.readString : JsValue → Option JsText
  | .string s => some s
  | _ => none

def JsValue.readStrings : JsValue → Option (List JsText)
  | .array items => items.mapM JsValue.readString
  | _ => none

/-- A property of this name is passed over by the schemas of objects and records. -/
def protoKey : JsText := jsText "__proto__"

def JsValue.readRecord : JsValue → Option (List (JsText × JsText))
  | .object fields =>
    ((JsObject.ofFields fields).filter fun p => p.1 ≠ protoKey).mapM fun p =>
      (JsValue.readString p.2).map fun value => (p.1, value)
  | _ => none

def JsValue.readTimeout : JsValue → Option ℕ
  | .number n => (n.filter fun n : ℤ => 1000 ≤ n && n ≤ maxJobTimeoutMs).map Int.toNat
  | _ => none

/-- The checks on what was read. -/
def checkJobSpec (argv : List JsText) (cwd : JsText) (environment : List (JsText × JsText))
    (timeoutMs : ℕ) : Option StructuredJobSpec :=
  if h : isArgv argv = true ∧ isRelativeJobPath cwd = true ∧ isJobEnvironment environment = true ∧
      (environment.map Prod.fst).Nodup ∧ 1000 ≤ timeoutMs ∧ timeoutMs ≤ maxJobTimeoutMs then
    some {
      argv := argv
      cwd := cwd
      environment := environment
      timeoutMs := timeoutMs
      argv_valid := h.1
      cwd_valid := h.2.1
      environment_valid := h.2.2.1
      names_nodup := h.2.2.2.1
      timeout_valid := h.2.2.2.2 }
  else none

def jobSpecKeys : List JsText := ["argv", "cwd", "environment", "timeoutMs"].map jsText

/-- `StructuredJobSpec.parse` -/
def parseStructuredJobSpec : JsValue → Option StructuredJobSpec
  | .object fields =>
    let o := JsObject.ofFields fields
    if o.any fun p => p.1 ≠ protoKey && !jobSpecKeys.contains p.1 then none
    else do
      let argv ← (o.lookup (jsText "argv")).bind JsValue.readStrings
      let cwd ← (o.lookup (jsText "cwd")).bind JsValue.readString
      let environment ← ((o.lookup (jsText "environment")).map JsValue.readRecord).getD (some [])
      let timeoutMs ← (o.lookup (jsText "timeoutMs")).bind JsValue.readTimeout
      checkJobSpec argv cwd environment timeoutMs
  | _ => none

/-! ### Accepted specifications -/

namespace StructuredJobSpec

/-- The fields that `JSON.stringify` writes. -/
def fields (spec : StructuredJobSpec) : List (JsText × JsValue) :=
  [(jsText "argv", .array (spec.argv.map .string)), (jsText "cwd", .string spec.cwd),
    (jsText "environment", .object (spec.environment.map fun p => (p.1, .string p.2))),
    (jsText "timeoutMs", .number (some (spec.timeoutMs : ℤ)))]

/-- The specification as a value. -/
def toValue (spec : StructuredJobSpec) : JsValue := .object spec.fields

variable (spec : StructuredJobSpec)

lemma readStrings_argv (argv : List JsText) :
    JsValue.readStrings (.array (argv.map .string)) = some argv := by
  rw [JsValue.readStrings]
  induction argv with
  | nil => rfl
  | cons arg argv ih =>
    rw [List.map_cons, List.mapM_cons, ih]
    rfl

lemma protoKey_not_mem : protoKey ∉ spec.environment.map Prod.fst := by
  intro hmem
  obtain ⟨p, hp, hkey⟩ := List.mem_map.mp hmem
  have hvalid := spec.environment_valid
  simp only [isJobEnvironment, Bool.and_eq_true, List.all_eq_true] at hvalid
  have hallowed := hvalid.1.2 p hp
  rw [hkey] at hallowed
  revert hallowed
  decide

lemma readRecord_environment :
    JsValue.readRecord (.object (spec.environment.map fun p => (p.1, .string p.2))) =
      some spec.environment := by
  have hkeys : (spec.environment.map fun p => (p.1, JsValue.string p.2)).map Prod.fst =
      spec.environment.map Prod.fst := by
    rw [List.map_map]
    rfl
  have hproto := spec.protoKey_not_mem
  have hnodup := spec.names_nodup
  rw [JsValue.readRecord, JsObject.ofFields_of_nodup (by rw [hkeys]; exact hnodup)]
  generalize spec.environment = environment at hproto
  induction environment with
  | nil => rfl
  | cons p environment ih =>
    rw [List.map_cons, List.mem_cons, not_or] at hproto
    rw [List.map_cons, List.filter_cons_of_pos (by simpa using Ne.symm hproto.1), List.mapM_cons,
      ih hproto.2]
    rfl

lemma readTimeout_timeoutMs :
    JsValue.readTimeout (.number (some (spec.timeoutMs : ℤ))) = some spec.timeoutMs := by
  have h := spec.timeout_valid
  simp only [JsValue.readTimeout, Option.filter_some]
  rw [if_pos (by simp only [Bool.and_eq_true, decide_eq_true_eq]; omega)]
  rfl

lemma checkJobSpec_self :
    checkJobSpec spec.argv spec.cwd spec.environment spec.timeoutMs = some spec :=
  dif_pos ⟨spec.argv_valid, spec.cwd_valid, spec.environment_valid, spec.names_nodup,
    spec.timeout_valid⟩

/-- Parsing a specification again changes nothing. -/
theorem parse_toValue : parseStructuredJobSpec spec.toValue = some spec := by
  have hkeys : spec.fields.map Prod.fst = jobSpecKeys := rfl
  have hobject : JsObject.ofFields spec.fields = spec.fields :=
    JsObject.ofFields_of_nodup (by rw [hkeys]; decide)
  have hknown : (spec.fields.any fun p => p.1 ≠ protoKey && !jobSpecKeys.contains p.1) = false := by
    have hall : (jobSpecKeys.any fun key => key ≠ protoKey && !jobSpecKeys.contains key) = false := by
      decide
    rw [← hkeys, List.any_map] at hall
    exact hall
  have hargv : spec.fields.lookup (jsText "argv") = some (.array (spec.argv.map .string)) := rfl
  have hcwd : spec.fields.lookup (jsText "cwd") = some (.string spec.cwd) := rfl
  have henvironment : spec.fields.lookup (jsText "environment") =
      some (.object (spec.environment.map fun p => (p.1, .string p.2))) := rfl
  have htimeoutMs : spec.fields.lookup (jsText "timeoutMs") =
      some (.number (some (spec.timeoutMs : ℤ))) := rfl
  rw [toValue, parseStructuredJobSpec, hobject]
  simp only [hknown, hargv, hcwd, henvironment, htimeoutMs, Option.bind_some, Option.map_some,
    Option.getD_some, readStrings_argv, readRecord_environment, readTimeout_timeoutMs, JsValue.readString]
  exact spec.checkJobSpec_self

end StructuredJobSpec

end Bloom
