import BloomWorkspaces.Guest.FileSystem
import BloomWorkspaces.Library.Base64
import Mathlib.Algebra.Group.Int.Defs

/-!
# File operations of the guest

The operations of `files.rs`. The write lock makes writes and deletes exclusive, and every operation
here runs alone. A write is given the numbers of bytes that its `pwrite`s take.
-/

namespace Bloom

namespace WorkspaceFiles

def maxFileChunkBytes : ℕ := 256 * 1024

def maxFileBytes : ℕ := 8 * 1024 * 1024

def maxListEntries : ℕ := 1000

def maxScanEntries : ℕ := 20000

/-- The directories that a walk enters below one another. -/
def maxScanDepth : ℕ := 32

/-- The storage quota that the guest is started with. -/
structure Quota where
  bytes : ℕ
  inRange : 1024 * 1024 ≤ bytes ∧ bytes ≤ 16 * 1024 * 1024 * 1024

def Quota.smallest : Quota := ⟨1024 * 1024, by decide⟩

def fileName (part : String) : FileName := Utf8.encode part.toList

/-! ### Errors -/

def orThrow {α : Type} : Except ControlError α → FileAction α
  | .ok a => pure a
  | .error e => refuse e

def orIoError {α : Type} : Except Errno α → FileAction α
  | .ok a => pure a
  | .error errno => refuse (fromIoError errno)

/-- The contents of what must be a regular file. -/
def regularFile (n : FileNode) (message : String) : FileAction (List UInt8) :=
  match n with
  | .file contents => pure contents
  | _ => refuse (.invalidRequest message)

/-- Run a program where a flag is set. -/
def onlyIf (flag : Bool) (x : FileAction Unit) : FileAction Unit := if flag then x else pure ()

/-! ### Opening -/

def directoryFlags : OpenFlags := { directory := true, noFollow := true }

/-- `mkdirat` for a missing parent; that it fails is no error. -/
def makeParent (dir : Object) (name : FileName) : FileAction Unit := do
  match ← mkdirat dir name with
  | .ok _ => fchownat dir name
  | .error _ => pure ()

/-- The loop of `open_directory` over the parts that are left. -/
def descend (create : Bool) : Object → List String → FileAction Object
  | current, [] => pure current
  | current, part :: parts => do
    onlyIf create (makeParent current (fileName part))
    let next ← orIoError (← openat .request current (fileName part) directoryFlags)
    descend create next parts

def openDirectory (parts : List String) (create : Bool) : FileAction Object := do
  let current ← orIoError (← openat .request (.inside []) dot directoryFlags)
  descend create current parts

def openFile (parts : List String) (flags : OpenFlags) (createParents : Bool) : FileAction Object :=
  if parts.length < 2 then refuse (.invalidRequest "file path must include a parent directory")
  else do
    let parent ← openDirectory parts.dropLast createParents
    orIoError (← openat .request parent (fileName (parts.getLastD "")) { flags with noFollow := true })

/-! ### Storage accounting -/

/-- The counters of a walk. -/
structure Scan where
  count : ℕ
  total : ℕ
  deriving DecidableEq, Repr

def tooManyFiles : ControlError := .limitExceeded "workspace contains too many files"

/-- One entry of a directory that is walked; `enter` walks a directory below it. -/
def scanEntry (enter : Object → Scan → FileAction (Scan × Option ControlError)) (fd : Object)
    (name : FileName) (s : Scan) : FileAction (Scan × Option ControlError) := do
  match ← fstatat .listing fd name with
  | .ok (.file contents) =>
    if maxScanEntries < s.count + 1 then
      pure ({ s with count := s.count + 1 }, some tooManyFiles)
    else pure (⟨s.count + 1, s.total + contents.length⟩, none)
  | .ok .directory =>
    match ← openat .listing fd name directoryFlags with
    | .ok child => do
      -- an error below is dropped, the counters are kept
      let (s', _) ← enter child s
      pure (s', none)
    | .error _ => pure (s, none)
  | _ => pure (s, none)

def scanNames (enter : Object → Scan → FileAction (Scan × Option ControlError)) (fd : Object) :
    List FileName → Scan → FileAction (Scan × Option ControlError)
  | [], s => pure (s, none)
  | raw :: rest, s => do
    if Utf8.lossy raw = dot ∨ Utf8.lossy raw = dotDot then scanNames enter fd rest s
    else
      match ← scanEntry enter fd (Utf8.lossy raw) s with
      | (s', some e) => pure (s', some e)
      | (s', none) => scanNames enter fd rest s'

/-- `walk_dir_bytes`, to the depth that `fuel` leaves. -/
def walkDirBytes : ℕ → Object → Scan → FileAction (Scan × Option ControlError)
  | 0, _, s => pure (s, none)
  | fuel + 1, fd, s => do
    match ← openat .listing fd dot { directory := true } with
    | .error _ => pure (s, some (.internal "fdopendir failed"))
    | .ok dirp => do
      let names ← readdir dirp
      scanNames (walkDirBytes fuel) fd names s

def directoryBytes : FileAction ℕ := do
  match ← walkDirBytes (maxScanDepth + 1) (.inside []) ⟨0, 0⟩ with
  | (_, some e) => refuse e
  | (s, none) => pure s.total

/-! ### Listing -/

inductive EntryKind
  | file
  | directory
  | symlink
  deriving DecidableEq, Repr

def entryKind : FileNode → EntryKind
  | .symlink _ => .symlink
  | .directory => .directory
  | _ => .file

/-- An entry of a reply to `fs.list`, without its time of modification. -/
structure ListEntry where
  path : FileName
  kind : EntryKind
  size : ℕ
  deriving DecidableEq, Repr

/-- The loop over the sorted names; what has gone is left out. -/
def listEntries (dir : Object) (pathPrefix : FileName) : List FileName → FileAction (List ListEntry)
  | [] => pure []
  | name :: rest => do
    match ← fstatat .listing dir name with
    | .error _ => listEntries dir pathPrefix rest
    | .ok n => do
      let others ← listEntries dir pathPrefix rest
      pure (⟨pathPrefix ++ name, entryKind n, n.size⟩ :: others)

/-- The names of a directory as texts, in their order. -/
def sortedNames (names : List FileName) : List FileName :=
  ((names.map Utf8.lossy).filter fun name => name ≠ dot && name ≠ dotDot).mergeSort
    fun a b => decide (a ≤ b)

def list (path : Json) : FileAction (List ListEntry) := do
  let parts ← orThrow (validateWorkspaceDirectory path)
  let dir ← openDirectory parts false
  match ← openat .listing dir dot { directory := true } with
  | .error _ => refuse (.internal "fdopendir failed")
  | .ok dirp => do
    let names ← readdir dirp
    if maxListEntries < (sortedNames names).length then
      refuse (.limitExceeded "directory contains too many entries")
    else
      let pathPrefix := if parts = [] then [] else fileName (joinParts parts) ++ [slash]
      listEntries dir pathPrefix (sortedNames names)

/-! ### Reading -/

structure ReadReply where
  path : String
  offset : ℕ
  nextOffset : ℕ
  size : ℕ
  eof : Bool
  data : List Char
  deriving DecidableEq, Repr

/-- The read of an open file. -/
def readChunk (parts : List String) (fd : Object) (start limit : ℕ) : FileAction ReadReply := do
  let contents ← regularFile (← fstat fd) "download path is not a regular file"
  if maxFileBytes < contents.length then refuse (.limitExceeded "file exceeds the download limit")
  else if contents.length < start then refuse (.invalidRequest "file offset exceeds the file size")
  else do
    let buf ← pread fd contents limit start
    pure {
      path := joinParts parts
      offset := start
      nextOffset := start + buf.length
      size := contents.length
      eof := contents.length ≤ start + buf.length
      data := Base64.encode buf }

def read (path offset maxBytes : Json) : FileAction ReadReply := do
  let parts ← orThrow (validateRelativePath path)
  let start ← orThrow (validateInteger offset 0 maxFileBytes "file offset")
  let limit ← orThrow (validateInteger maxBytes 1 maxFileChunkBytes "file read size")
  let fd ← openFile parts {} false
  readChunk parts fd start.toNat limit.toNat

/-! ### Writing -/

/-- The fields of an `fs.write` that pass their checks. -/
structure WriteFields where
  parts : List String
  start : ℕ
  chunk : List UInt8
  truncate : Bool
  deriving DecidableEq, Repr

def writeFields (path offset encoded truncate : Json) : Except ControlError WriteFields := do
  let parts ← validateRelativePath path
  let start ← validateInteger offset 0 maxFileBytes "file offset"
  match encoded.asStr, truncate.asBool with
  | none, _ => .error (.invalidRequest "file payload must be base64")
  | some _, none => .error (.invalidRequest "truncate must be boolean")
  | some text, some doTruncate =>
    if doTruncate ∧ start ≠ 0 then
      .error (.invalidRequest "a truncating write must begin at offset zero")
    else if Base64.isBase64 text.toList = false ∨
        Base64.encode (Base64.decode text.toList) ≠ text.toList then
      .error (.invalidRequest "file payload is not canonical base64")
    else
      let chunk := Base64.decode text.toList
      if maxFileChunkBytes < chunk.length then
        .error (.limitExceeded "file write chunk is too large")
      else if maxFileBytes < start.toNat + chunk.length then
        .error (.limitExceeded "file exceeds the upload limit")
      else .ok ⟨parts, start.toNat, chunk, doTruncate⟩

structure WriteReply where
  path : String
  size : ℕ
  nextOffset : ℕ
  usedBytes : ℤ
  quotaBytes : ℕ
  deriving DecidableEq, Repr

/-- The size of the target after the write, as it is accounted for. -/
def WriteFields.resultingSize (r : WriteFields) (prior : ℕ) : ℕ :=
  if r.truncate then r.start + r.chunk.length else max (r.start + r.chunk.length) prior

/-- The bytes in use after the write, as they are accounted for. -/
def WriteFields.accounted (r : WriteFields) (used prior : ℕ) : ℤ :=
  used - prior + r.resultingSize prior

def quotaExceeded : ControlError := .limitExceeded "workspace storage quota exceeded"

/-- The write to the open target. -/
def writeChunk (quota : Quota) (pwrites : List ℕ) (r : WriteFields) (fd : Object) :
    FileAction WriteReply := do
  fchown fd
  let contents ← regularFile (← fstat fd) "upload target is not a regular file"
  let used ← directoryBytes
  if quota.bytes < r.accounted used contents.length then refuse quotaExceeded
  else do
    onlyIf r.truncate (ftruncate fd)
    pwriteAll fd pwrites r.chunk r.start
    let after ← fstat fd
    pure {
      path := joinParts r.parts
      size := after.size
      nextOffset := r.start + r.chunk.length
      usedBytes := r.accounted used contents.length
      quotaBytes := quota.bytes }

def writeFlags : OpenFlags := { create := true, writable := true }

def write (quota : Quota) (pwrites : List ℕ) (path offset encoded truncate : Json) :
    FileAction WriteReply := do
  let r ← orThrow (writeFields path offset encoded truncate)
  withWriteLock do
    let fd ← openFile r.parts writeFlags true
    writeChunk quota pwrites r fd

/-! ### Deleting -/

structure DeleteReply where
  path : String
  usedBytes : ℕ
  quotaBytes : ℕ
  deriving DecidableEq, Repr

/-- The section of `delete` with the lock. -/
def deleteFile (quota : Quota) (parts : List String) : FileAction DeleteReply := do
  let parent ← openDirectory parts.dropLast false
  let name := fileName (parts.getLastD "")
  let n ← orIoError (← fstatat .request parent name)
  let _ ← regularFile n "delete path is not a regular file"
  let _ ← orIoError (← unlinkat parent name)
  let used ← directoryBytes
  pure ⟨joinParts parts, used, quota.bytes⟩

def delete (quota : Quota) (path recursive : Json) : FileAction DeleteReply := do
  let parts ← orThrow (validateRelativePath path)
  if recursive.asBool.getD false then
    refuse (.permissionDenied "recursive deletion is not supported")
  else withWriteLock (deleteFile quota parts)

/-! ### Directories of jobs -/

def openJobCwd (path : Json) : FileAction Object := do
  let parts ← orThrow (validateWorkspaceDirectory path)
  openDirectory parts false

/-! ### Fields of a request -/

variable {parts : List String} {path offset encoded truncate : Json} {r : WriteFields}

lemma map_fileName_split (hne : parts ≠ []) :
    parts.map fileName = parts.dropLast.map fileName ++ [fileName (parts.getLastD "")] ∧
      parts.getLastD "" ∈ parts := by
  have hlast : parts.getLastD "" = parts.getLast hne := by
    rw [List.getLastD_eq_getLast?, List.getLast?_eq_some_getLast hne]
    rfl
  rw [hlast]
  constructor
  · conv_lhs => rw [← List.dropLast_append_getLast hne]
    rw [List.map_append]
    rfl
  · exact List.getLast_mem hne

/-- The fields that pass. -/
lemma writeFields_ok (h : writeFields path offset encoded truncate = .ok r) :
    validateRelativePath path = .ok r.parts ∧ r.chunk.length ≤ maxFileChunkBytes ∧
      r.start + r.chunk.length ≤ maxFileBytes ∧ (r.truncate = true → r.start = 0) := by
  rw [writeFields] at h
  obtain ⟨parts, hparts, h⟩ := Checked.of_bind_ok h
  obtain ⟨start, hstart, h⟩ := Checked.of_bind_ok h
  split at h
  · cases h
  · cases h
  · split at h
    · cases h
    · rename_i htruncate
      split at h
      · cases h
      · simp only at h
        split at h
        · cases h
        · rename_i hchunk
          split at h
          · cases h
          · rename_i hsize
            cases h
            refine ⟨hparts, Nat.le_of_not_lt hchunk, Nat.le_of_not_lt hsize, ?_⟩
            intro hflag
            by_contra hne
            refine htruncate ⟨hflag, ?_⟩
            rintro rfl
            exact hne rfl

lemma writeFields_parts (h : writeFields path offset encoded truncate = .ok r) :
    validateRelativePath path = .ok r.parts := (writeFields_ok h).1

lemma validateOffset {offset : ℕ} (h : offset ≤ maxFileBytes) :
    validateInteger (.number (some offset)) 0 maxFileBytes "file offset" = .ok (offset : ℤ) := by
  have hmax : maxFileBytes = 8388608 := rfl
  exact validateInteger_eq_ok (by omega) (by omega) (by omega) (by omega)

/-- The fields of a chunk that is within the bounds. -/
lemma writeFields_encode {offset : ℕ} {chunk : List UInt8} {truncate : Bool}
    (hparts : validateRelativePath path = .ok parts) (hchunk : chunk.length ≤ maxFileChunkBytes)
    (hsize : offset + chunk.length ≤ maxFileBytes) (htruncate : truncate = true → offset = 0) :
    writeFields path (.number (some offset)) (.string (String.ofList (Base64.encode chunk)))
      (.bool truncate) = .ok ⟨parts, offset, chunk, truncate⟩ := by
  have hlimit : ¬maxFileChunkBytes < chunk.length := Nat.not_lt.mpr hchunk
  have hflag : ¬(truncate = true ∧ (offset : ℤ) ≠ 0) := by
    rintro ⟨htrue, hne⟩
    exact hne (by rw [htruncate htrue]; rfl)
  rw [writeFields, hparts, validateOffset (by omega)]
  simp only [Json.asStr, Json.asBool, String.toList_ofList, Base64.isBase64_encode,
    Base64.decode_encode]
  show (if _ then _ else _) = _
  rw [if_neg hflag, if_neg (by simp), if_neg hlimit, Int.toNat_natCast, if_neg (by omega)]

end WorkspaceFiles

/-! ### The components of a path -/

/-- The components that a path names. -/
def namedComponents (path : Json) : TreePath :=
  match path.asStr with
  | some s => if s = "." then [] else (pathParts s).map Utf8.encode
  | none => []

section Components

variable {path : Json} {parts : List String}

lemma IsRelativePath.ne_dot {s : String} (h : IsRelativePath s) : s ≠ "." := by
  rintro rfl
  have hparts : pathParts "." = [['.']] := List.splitOn_eq_singleton (by decide)
  refine (h.parts ['.'] ?_).2.1 rfl
  rw [hparts]
  exact List.mem_singleton.mpr rfl

lemma isStep_encode {part : List Char} (h : part ≠ ['.'] ∧ part ≠ ['.', '.']) (hslash : '/' ∉ part) :
    IsStep (Utf8.encode part) := by
  refine ⟨?_, ?_, ?_⟩
  · intro heq
    exact h.1 (Utf8.encode_injective (heq.trans (by decide : dot = Utf8.encode ['.'])))
  · intro heq
    exact h.2 (Utf8.encode_injective (heq.trans (by decide : dotDot = Utf8.encode ['.', '.'])))
  · rw [← Bool.not_eq_true, List.contains_iff_mem]
    intro hmem
    exact hslash (Utf8.mem_of_mem_encode (by decide) hmem)

lemma named_of_validateRelativePath (h : validateRelativePath path = .ok parts) :
    parts.map WorkspaceFiles.fileName = namedComponents path ∧
      ∀ part ∈ parts, IsStep (WorkspaceFiles.fileName part) := by
  obtain ⟨s, hs, hpath, rfl⟩ := validateRelativePath_ok h
  constructor
  · rw [namedComponents, hs]
    simp only
    rw [if_neg hpath.ne_dot, List.map_map]
    refine List.map_congr_left fun part _ => ?_
    simp [WorkspaceFiles.fileName]
  · intro part hpart
    obtain ⟨chars, hchars, rfl⟩ := List.mem_map.mp hpart
    rw [WorkspaceFiles.fileName, String.toList_ofList]
    exact isStep_encode (hpath.parts chars hchars).2 (slash_not_mem_of_mem_pathParts hchars)

lemma named_of_validateWorkspaceDirectory (h : validateWorkspaceDirectory path = .ok parts) :
    parts.map WorkspaceFiles.fileName = namedComponents path ∧
      ∀ part ∈ parts, IsStep (WorkspaceFiles.fileName part) := by
  rcases validateWorkspaceDirectory_ok h with ⟨hdot, rfl⟩ | ⟨-, hrelative⟩
  · refine ⟨?_, fun part hpart => absurd hpart List.not_mem_nil⟩
    rw [namedComponents, hdot]
    rfl
  · exact named_of_validateRelativePath hrelative

end Components

end Bloom
