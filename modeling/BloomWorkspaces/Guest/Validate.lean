import BloomWorkspaces.Library.Ascii
import BloomWorkspaces.Library.Checked
import BloomWorkspaces.Library.JsNumber
import Mathlib.Algebra.GroupWithZero.Nat

/-!
# Request validation of the guest

The fields of a request are JSON values, and a check that fails throws a `ControlError`.
-/

namespace Bloom

inductive ErrorCode
  | invalidRequest
  | notFound
  | permissionDenied
  | limitExceeded
  | conflict
  | unavailable
  | internal
  deriving DecidableEq, Repr

structure ControlError where
  code : ErrorCode
  message : String
  deriving DecidableEq, Repr

namespace ControlError

def invalidRequest (message : String) : ControlError := ⟨.invalidRequest, message⟩

def notFound (message : String) : ControlError := ⟨.notFound, message⟩

def permissionDenied (message : String) : ControlError := ⟨.permissionDenied, message⟩

def limitExceeded (message : String) : ControlError := ⟨.limitExceeded, message⟩

def conflict (message : String) : ControlError := ⟨.conflict, message⟩

def internal (message : String) : ControlError := ⟨.internal, message⟩

end ControlError

/-- What ends a call of the controller that does not return a value; a `blocked` one waits for ever. -/
inductive Halt
  | error (error : ControlError)
  | blocked
  deriving DecidableEq, Repr

/-- A `serde_json::Value`; the keys of an object come in the order of its map. -/
inductive Json
  | null
  | bool (b : Bool)
  | number (n : JsNumber)
  | string (s : String)
  | array (items : List Json)
  | object (fields : List (String × Json))

namespace Json

def asStr : Json → Option String
  | .string s => some s
  | _ => none

def asBool : Json → Option Bool
  | .bool b => some b
  | _ => none

def asI64 : Json → Option ℤ
  | .number n => n.filter fun n => -(2 ^ 63) ≤ n && n < 2 ^ 63
  | _ => none

end Json

/-! ### Paths -/

/-- `CString::new` fails on a text with a zero byte, which no validated text has. -/
def hasNul (s : String) : Bool := '\x00' ∈ s.toList

/-- The components of a relative path. -/
def pathParts (s : String) : List (List Char) := s.toList.splitOn '/'

/-- `parts.join("/")` -/
def joinParts (parts : List String) : String :=
  String.ofList (['/'].intercalate (parts.map String.toList))

def validateRelativePath (value : Json) : Except ControlError (List String) :=
  match value.asStr with
  | none => .error (.invalidRequest "workspace path must be a string")
  | some s =>
    if s.utf8ByteSize = 0 ∨ 1024 < s.utf8ByteSize then
      .error (.invalidRequest "workspace path has an invalid length")
    else if hasNul s ∨ '\\' ∈ s.toList then
      .error (.invalidRequest "workspace path contains forbidden characters")
    else if s.toList.head? = some '/' ∨ s.toList.getLast? = some '/' then
      .error (.invalidRequest "workspace path must be relative")
    else if (pathParts s).any fun part => part = [] || part = ['.'] || part = ['.', '.'] then
      .error (.invalidRequest "invalid workspace path")
    else .ok ((pathParts s).map String.ofList)

/-- A text that is accepted as a relative path. -/
structure IsRelativePath (s : String) : Prop where
  length_le : s.utf8ByteSize ≤ 1024
  noNul : hasNul s = false
  noBackslash : '\\' ∉ s.toList
  parts : ∀ part ∈ pathParts s, part ≠ [] ∧ part ≠ ['.'] ∧ part ≠ ['.', '.']

lemma pathParts_ne_nil (s : String) : pathParts s ≠ [] := List.splitOn_ne_nil _ _

lemma slash_not_mem_of_mem_pathParts {s : String} {part : List Char} (h : part ∈ pathParts s) :
    '/' ∉ part := Ascii.not_mem_of_mem_splitOn h

lemma validateRelativePath_ok {value : Json} {parts : List String}
    (h : validateRelativePath value = .ok parts) :
    ∃ s, value.asStr = some s ∧ IsRelativePath s ∧ parts = (pathParts s).map String.ofList := by
  rw [validateRelativePath] at h
  split at h
  · cases h
  · rename_i s hs
    split at h
    · cases h
    · rename_i hlength
      split at h
      · cases h
      · rename_i hchars
        split at h
        · cases h
        · split at h
          · cases h
          · rename_i hparts
            cases h
            rw [not_or, Bool.not_eq_true] at hchars
            refine ⟨s, hs, ⟨by omega, hchars.1, hchars.2, ?_⟩, rfl⟩
            intro part hpart
            simp only [List.any_eq_true, not_exists, not_and] at hparts
            simpa [and_assoc] using hparts part hpart

lemma validateRelativePath_ne_nil {value : Json} {parts : List String}
    (h : validateRelativePath value = .ok parts) : parts ≠ [] := by
  obtain ⟨s, -, -, rfl⟩ := validateRelativePath_ok h
  simpa using pathParts_ne_nil s

/-- The texts that are accepted. -/
theorem validateRelativePath_eq_ok {s : String} (h : IsRelativePath s) :
    validateRelativePath (.string s) = .ok ((pathParts s).map String.ofList) := by
  have hnonempty : s.utf8ByteSize ≠ 0 := by
    intro hzero
    have hs : s = "" := String.utf8ByteSize_eq_zero_iff.mp hzero
    refine (h.parts [] ?_).1 rfl
    rw [hs]
    exact List.mem_singleton.mpr rfl
  have hlength := h.length_le
  simp only [validateRelativePath, Json.asStr]
  rw [if_neg (by omega), if_neg (by rw [h.noNul]; simpa using h.noBackslash), if_neg, if_neg]
  · simp only [List.any_eq_true, not_exists, not_and]
    intro part hpart
    simpa [and_assoc] using h.parts part hpart
  · rintro (hhead | hlast)
    · exact (h.parts [] (Ascii.nil_mem_splitOn_of_head hhead)).1 rfl
    · exact (h.parts [] (Ascii.nil_mem_splitOn_of_getLast hlast)).1 rfl

/-- Like `validateRelativePath` but `.` is allowed and means the root. -/
def validateWorkspaceDirectory (value : Json) : Except ControlError (List String) :=
  if value.asStr = some "." then .ok [] else validateRelativePath value

lemma validateWorkspaceDirectory_ok {value : Json} {parts : List String}
    (h : validateWorkspaceDirectory value = .ok parts) :
    value.asStr = some "." ∧ parts = [] ∨
      value.asStr ≠ some "." ∧ validateRelativePath value = .ok parts := by
  rw [validateWorkspaceDirectory] at h
  split at h
  · rename_i hdot
    cases h
    exact Or.inl ⟨hdot, rfl⟩
  · rename_i hdot
    exact Or.inr ⟨hdot, h⟩

/-- The texts of the values that are accepted. -/
lemma isRelativePath_of_ok {s : String} {parts : List String}
    (h : validateRelativePath (.string s) = .ok parts) :
    IsRelativePath s ∧ parts = (pathParts s).map String.ofList := by
  obtain ⟨s', hs', hpath, hparts⟩ := validateRelativePath_ok h
  obtain rfl := Option.some.inj hs'
  exact ⟨hpath, hparts⟩

lemma utf8ByteSize_of_validateWorkspaceDirectory {s : String} {parts : List String}
    (h : validateWorkspaceDirectory (.string s) = .ok parts) : s.utf8ByteSize ≤ 1024 := by
  rcases validateWorkspaceDirectory_ok h with ⟨hdot, -⟩ | ⟨-, hrelative⟩
  · obtain rfl := Option.some.inj hdot
    decide
  · exact (isRelativePath_of_ok hrelative).1.length_le

/-- `validate_integer`; `Int` holds every `i64`. -/
def validateInteger (value : Json) (min max : ℤ) (label : String) : Except ControlError ℤ :=
  match value.asI64 with
  | none => .error (.invalidRequest (label ++ " must be an integer"))
  | some n =>
    if n < min ∨ max < n then .error (.invalidRequest (label ++ " is outside the allowed range"))
    else .ok n

lemma validateInteger_ok {value : Json} {min max n : ℤ} {label : String}
    (h : validateInteger value min max label = .ok n) : min ≤ n ∧ n ≤ max := by
  rw [validateInteger] at h
  split at h
  · cases h
  · split at h
    · cases h
    · rename_i hrange
      cases h
      rw [not_or, Int.not_lt, Int.not_lt] at hrange
      exact hrange

lemma validateInteger_eq_ok {min max n : ℤ} {label : String} (hmin : min ≤ n) (hmax : n ≤ max)
    (hlow : -(2 ^ 63) ≤ n) (hhigh : n < 2 ^ 63) :
    validateInteger (.number (some n)) min max label = .ok n := by
  have hvalue : (Json.number (some n)).asI64 = some n := by
    rw [Json.asI64, Option.filter_some, decide_eq_true hlow, decide_eq_true hhigh]
    rfl
  rw [validateInteger, hvalue]
  simp only
  rw [if_neg (by omega)]

/-! ### Job ids -/

/-- The positions of the dashes of a UUID. -/
def dashPositions : List ℕ := [8, 13, 18, 23]

/-- Hexadecimal digits in five groups. -/
def hasUuidShape (chars : List Char) : Bool :=
  chars.length = 36 &&
    (List.range 36).all fun i =>
      if i ∈ dashPositions then chars[i]? = some '-' else (chars[i]?).any Ascii.isHexDigit

/-- `parse_uuid` before it lower-cases what it has accepted. -/
def isUuidText (chars : List Char) : Bool :=
  hasUuidShape chars && chars[14]? = some '4' && (chars[19]?).any (· ∈ ['8', '9', 'a', 'b'])

def parseUuid (s : String) : Option String :=
  if isUuidText s.toList then some (String.ofList (Ascii.toLower s.toList)) else none

def validateJobId (value : Json) : Except ControlError String :=
  match value.asStr with
  | none => .error (.invalidRequest "job id must be a UUID")
  | some s =>
    match parseUuid s with
    | none => .error (.invalidRequest "job id must be a UUID")
    | some parsed =>
      if parsed ≠ s then .error (.invalidRequest "job id must be a canonical lowercase UUID")
      else .ok s

lemma validateJobId_ok {value : Json} {id : String} (h : validateJobId value = .ok id) :
    isUuidText id.toList = true := by
  rw [validateJobId] at h
  split at h
  · cases h
  · rename_i s _
    split at h
    · cases h
    · rename_i hparsed
      split at h
      · cases h
      · cases h
        rw [parseUuid] at hparsed
        split at hparsed
        · assumption
        · cases hparsed

/-! ### Arguments and environment -/

def validateArgument (arg : Json) : Except ControlError String :=
  match arg.asStr with
  | none => .error (.invalidRequest "argv contains an invalid argument")
  | some s =>
    if s = "" ∨ hasNul s then .error (.invalidRequest "argv contains an invalid argument")
    else if 4096 < s.utf8ByteSize then
      .error (.limitExceeded "argv contains an oversized argument")
    else .ok s

/-- The loop of `start` over its arguments, which have `total` bytes so far. -/
def validateArguments : ℕ → List Json → Except ControlError (List String)
  | _, [] => .ok []
  | total, arg :: rest => do
    let s ← validateArgument arg
    if 32 * 1024 < total + s.utf8ByteSize then
      .error (.limitExceeded "argv exceeds the aggregate size limit")
    else
      let others ← validateArguments (total + s.utf8ByteSize) rest
      return s :: others

def validateArgv (value : Json) : Except ControlError (List String) :=
  match value with
  | .array args =>
    if args.length = 0 ∨ 64 < args.length then
      .error (.invalidRequest "argv must contain between 1 and 64 arguments")
    else validateArguments 0 args
  | _ => .error (.invalidRequest "argv must be an array")

def isNameStart (c : Char) : Bool := c.isAlpha || c = '_'

def isNameChar (c : Char) : Bool := c.isAlphanum || c = '_'

/-- `^[A-Za-z_][A-Za-z0-9_]{0,63}$` -/
def isEnvName (name : String) : Bool :=
  name.toList.head?.any isNameStart && name.toList.tail.all isNameChar &&
    name.toList.length ≤ 64

def userEnvExact : List String := [
  "CI", "DEBUG", "FORCE_COLOR", "LANG", "LC_ALL", "LOG_LEVEL", "NODE_ENV", "NO_COLOR",
  "PYTHONUNBUFFERED", "RUST_BACKTRACE", "RUST_LOG", "TERM", "TZ"]

def userEnvPrefixes : List String := ["APP_", "JOB_", "TEST_"]

def isAllowlisted (name : String) : Bool :=
  userEnvExact.contains name || userEnvPrefixes.any fun p => p.toList.isPrefixOf name.toList

def validateVariable (name : String) (item : Json) : Except ControlError String :=
  if isEnvName name = false then
    .error (.invalidRequest "job environment contains an invalid name")
  else if isAllowlisted name = false then
    .error (.permissionDenied ("job environment variable is not allowlisted: " ++ name))
  else
    match item.asStr with
    | none => .error (.invalidRequest ("job environment value is invalid: " ++ name))
    | some val =>
      if hasNul val then .error (.invalidRequest ("job environment value is invalid: " ++ name))
      else if 8192 < val.utf8ByteSize then
        .error (.limitExceeded ("job environment value is too large: " ++ name))
      else .ok val

/-- The loop of `validate_environment`, which has seen `total` bytes so far. -/
def validateVariables : ℕ → List (String × Json) → Except ControlError (List (String × String))
  | _, [] => .ok []
  | total, (name, item) :: rest => do
    let val ← validateVariable name item
    if 32 * 1024 < total + (name.utf8ByteSize + val.utf8ByteSize) then
      .error (.limitExceeded "job environment exceeds the aggregate size limit")
    else
      let others ← validateVariables (total + (name.utf8ByteSize + val.utf8ByteSize)) rest
      return (name, val) :: others

def validateEnvironment (value : Json) : Except ControlError (List (String × String)) :=
  match value with
  | .object fields =>
    if 64 < fields.length then
      .error (.invalidRequest "job environment must contain at most 64 variables")
    else validateVariables 0 fields
  | _ => .error (.invalidRequest "job environment must be an object")

/-! ### Accepted arguments and environments -/

/-- An argument that is accepted by itself. -/
structure IsArgument (s : String) : Prop where
  ne_empty : s ≠ ""
  noNul : hasNul s = false
  length_le : s.utf8ByteSize ≤ 4096

lemma validateArgument_eq_ok {s : String} (h : IsArgument s) :
    validateArgument (.string s) = .ok s := by
  have hlength := h.length_le
  simp only [validateArgument, Json.asStr]
  rw [if_neg (by simp [h.ne_empty, h.noNul]), if_neg (by omega)]

lemma validateArgument_ok {arg : Json} {s : String} (h : validateArgument arg = .ok s) :
    arg.asStr = some s ∧ IsArgument s := by
  rw [validateArgument] at h
  split at h
  · cases h
  · rename_i s' hs
    split at h
    · cases h
    · rename_i hvalid
      split at h
      · cases h
      · cases h
        rw [not_or, Bool.not_eq_true] at hvalid
        exact ⟨hs, hvalid.1, hvalid.2, by omega⟩

/-- Arguments are accepted when each is and all together are small enough. -/
lemma validateArguments_eq_ok {args : List String} {total : ℕ} (hvalid : ∀ s ∈ args, IsArgument s)
    (htotal : total + (args.map String.utf8ByteSize).sum ≤ 32 * 1024) :
    validateArguments total (args.map .string) = .ok args := by
  induction args generalizing total with
  | nil => rfl
  | cons s args ih =>
    rw [List.map_cons, List.sum_cons] at htotal
    rw [List.map_cons, validateArguments,
      Checked.bind_ok (validateArgument_eq_ok (hvalid s List.mem_cons_self)), if_neg (by omega),
      Checked.bind_ok (ih (fun s' hs' => hvalid s' (List.mem_cons_of_mem _ hs')) (by omega))]
    rfl

lemma validateArguments_ok {args : List Json} {total : ℕ} {strings : List String}
    (h : validateArguments total args = .ok strings) :
    ∀ arg ∈ args, ∃ s, arg.asStr = some s ∧ IsArgument s := by
  induction args generalizing total strings with
  | nil => exact fun arg harg => absurd harg List.not_mem_nil
  | cons first args ih =>
    obtain ⟨s, hs, h⟩ := Checked.of_bind_ok h
    split at h
    · cases h
    · obtain ⟨others, hothers, -⟩ := Checked.of_bind_ok h
      intro arg harg
      rcases List.mem_cons.mp harg with rfl | hin
      · exact ⟨s, validateArgument_ok hs⟩
      · exact ih hothers arg hin

/-- A variable that is accepted by itself. -/
structure IsVariable (name val : String) : Prop where
  name_valid : isEnvName name = true
  allowlisted : isAllowlisted name = true
  noNul : hasNul val = false
  length_le : val.utf8ByteSize ≤ 8192

lemma validateVariable_eq_ok {name val : String} (h : IsVariable name val) :
    validateVariable name (.string val) = .ok val := by
  have hlength := h.length_le
  simp only [validateVariable, Json.asStr]
  rw [if_neg (by simp [h.name_valid]), if_neg (by simp [h.allowlisted]),
    if_neg (by simp [h.noNul]), if_neg (by omega)]

lemma validateVariable_ok {name val : String} {item : Json}
    (h : validateVariable name item = .ok val) : item.asStr = some val ∧ IsVariable name val := by
  rw [validateVariable] at h
  split at h
  · cases h
  · rename_i hname
    split at h
    · cases h
    · rename_i hallowed
      split at h
      · cases h
      · rename_i val' hval
        split at h
        · cases h
        · rename_i hnul
          split at h
          · cases h
          · cases h
            rw [Bool.not_eq_false] at hname hallowed
            rw [Bool.not_eq_true] at hnul
            exact ⟨hval, hname, hallowed, hnul, by omega⟩

lemma validateVariables_eq_ok {vars : List (String × String)} {total : ℕ}
    (hvalid : ∀ p ∈ vars, IsVariable p.1 p.2)
    (htotal : total + (vars.map fun p => p.1.utf8ByteSize + p.2.utf8ByteSize).sum ≤ 32 * 1024) :
    validateVariables total (vars.map fun p => (p.1, .string p.2)) = .ok vars := by
  induction vars generalizing total with
  | nil => rfl
  | cons p vars ih =>
    rw [List.map_cons, List.sum_cons] at htotal
    rw [List.map_cons, validateVariables,
      Checked.bind_ok (validateVariable_eq_ok (hvalid p List.mem_cons_self)), if_neg (by omega),
      Checked.bind_ok (ih (fun q hq => hvalid q (List.mem_cons_of_mem _ hq)) (by omega))]
    rfl

lemma validateVariables_ok {fields : List (String × Json)} {total : ℕ}
    {vars : List (String × String)} (h : validateVariables total fields = .ok vars) :
    ∀ p ∈ fields, ∃ val, p.2.asStr = some val ∧ IsVariable p.1 val := by
  induction fields generalizing total vars with
  | nil => exact fun p hp => absurd hp List.not_mem_nil
  | cons first fields ih =>
    obtain ⟨val, hval, h⟩ := Checked.of_bind_ok h
    split at h
    · cases h
    · obtain ⟨others, hothers, -⟩ := Checked.of_bind_ok h
      intro p hp
      rcases List.mem_cons.mp hp with rfl | hin
      · exact ⟨val, validateVariable_ok hval⟩
      · exact ih hothers p hin

end Bloom
