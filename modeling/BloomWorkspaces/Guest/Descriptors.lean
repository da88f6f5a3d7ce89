import BloomWorkspaces.Guest.Identity
import BloomWorkspaces.Guest.Listing
import BloomWorkspaces.Library.Descriptors
import Mathlib.Data.List.Sort

/-!
# Descriptors of the guest

The operations of `files.rs` and the helpers of `control.rs` that open files, with the descriptors that
they open and close. What a system call answers is given from outside: every call may fail, and a
directory may have any names in it.
-/

namespace Bloom

namespace GuestDescriptors

open Descriptors

/-! ### System calls -/

inductive FileKind
  | regular
  | directory
  | symlink
  | other
  deriving DecidableEq, Repr

structure Stat where
  kind : FileKind
  size : ℕ
  mtime : ℤ
  deriving DecidableEq, Repr

/-- What a call answers. A call looks at the fields that it has, and at `errno` where it can fail. -/
structure Answer where
  errno : Option ℕ
  stat : Stat
  names : List FileName
  bytes : List UInt8
  count : ℕ
  flag : Bool
  deriving DecidableEq, Repr

def Answer.fails (i : Answer) : Bool := i.errno.isSome

/-- The function that makes a call. -/
inductive Caller
  | listDirEntries (dir : KeyDirectory)
  | readSmallRegularFile (maximum : ℕ)
  | other
  deriving DecidableEq, Repr

inductive Call
  | openat (dir : ℕ) (name : FileName) (flags : OpenFlags)
  | open (path : String) (flags : OpenFlags)
  | fdopendir (fd : ℕ)
  | readdir (dirp : ℕ)
  | mkdirat (dir : ℕ) (name : FileName)
  | fchownat (dir : ℕ) (name : FileName)
  | fchown (fd : ℕ)
  | fchmod (fd mode : ℕ)
  | fstat (fd : ℕ)
  | fstatat (dir : ℕ) (name : FileName)
  | unlinkat (dir : ℕ) (name : FileName)
  | pread (fd limit start : ℕ)
  | read (fd maximum : ℕ)
  | pwrite (fd : ℕ) (bytes : List UInt8) (start : ℕ)
  | ftruncate (fd length : ℕ)
  | fsync (fd : ℕ)
  | geteuid
  | which (command : String)
  | isMount (path : String)
  deriving DecidableEq, Repr

/-- A call that has been made. -/
structure Event where
  caller : Caller
  call : Call
  answer : Answer
  deriving DecidableEq, Repr

abbrev Task (α : Type) := Program Answer Event ControlError α

/-- `from_io_error` -/
def fromOsError (errno : ℕ) : ControlError :=
  if errno = 2 then .notFound "workspace operation failed"
  else if errno = 13 ∨ errno = 1 ∨ errno = 40 ∨ errno = 20 then
    .permissionDenied "workspace operation failed"
  else .internal "workspace operation failed"

/-- A call that opens a descriptor. -/
def opening (caller : Caller) (call : Call) : Task (Except ControlError ℕ) :=
  acquire
    (fun i =>
      match i.errno with
      | none => .ok ()
      | some errno => .error (fromOsError errno))
    fun i => ⟨caller, call, i⟩

/-- A call that opens none. -/
def ask (caller : Caller) (call : Call) : Task Answer := look id fun i => ⟨caller, call, i⟩

/-- A call whose answer is not looked at. -/
def order (call : Call) : Task Unit := look (fun _ => ()) fun i => ⟨.other, call, i⟩

/-- `errno` as an error where the call has failed. -/
def checked (i : Answer) : Except ControlError Answer :=
  match i.errno with
  | none => .ok i
  | some errno => .error (fromOsError errno)

/-- Run a task where a flag is set. -/
def onlyIf (flag : Bool) (x : Task Unit) : Task Unit := if flag then x else pure ()

/-- The files of a workspace with the descriptor of their root. -/
structure Files where
  rootFd : ℕ
  quota : WorkspaceFiles.Quota

/-! ### Directories -/

/-- `mkdirat` for a missing parent; that it fails is no error. -/
def makeParent (dir : ℕ) (name : FileName) : Task Unit := do
  let made ← ask .other (.mkdirat dir name)
  if made.fails then pure ()
  else do
    let user ← ask .other .geteuid
    onlyIf user.flag (order (.fchownat dir name))

/-- The loop of `open_directory` over the parts that are left. -/
def descend (create : Bool) : ℕ → List String → Task ℕ
  | current, [] => pure current
  | current, part :: parts => do
    onlyIf create (makeParent current (WorkspaceFiles.fileName part))
    match ← opening .other (.openat current (WorkspaceFiles.fileName part) WorkspaceFiles.directoryFlags) with
    | .error e => do
      release current
      .throws e
    | .ok next => do
      release current
      descend create next parts

def openDirectory (files : Files) (parts : List String) (create : Bool) : Task ℕ := do
  match ← opening .other (.openat files.rootFd dot WorkspaceFiles.directoryFlags) with
  | .error e => .throws e
  | .ok current => descend create current parts

def openFile (files : Files) (parts : List String) (flags : OpenFlags) (createParents : Bool) : Task ℕ :=
  if parts.length < 2 then .throws (.invalidRequest "file path must include a parent directory")
  else do
    let parent ← openDirectory files parts.dropLast createParents
    let fd ← opening .other
      (.openat parent (WorkspaceFiles.fileName (parts.getLastD "")) { flags with noFollow := true })
    release parent
    ofExcept fd

/-- `fdopendir` of `.` in a directory; without a descriptor it fails at once. -/
def openDir (caller : Caller) (fd : ℕ) : Task (Option ℕ) := do
  match ← opening caller (.openat fd dot { directory := true }) with
  | .error _ => pure none
  | .ok dirp => do
    let opened ← ask caller (.fdopendir dirp)
    if opened.fails then pure none else pure (some dirp)

/-- The texts of the names that are entries. -/
def entryTexts (names : List FileName) : List FileName :=
  (names.map Utf8.lossy).filter fun name => name ≠ dot && name ≠ dotDot

def sorted (texts : List FileName) : List FileName := texts.insertionSort (· ≤ ·)

/-- The loop of `readdir`s, to its end or its first failure. -/
def readNames (caller : Caller) (dirp : ℕ) : Task (List FileName) :=
  look Answer.names fun i => ⟨caller, .readdir dirp, i⟩

def listDirEntries (dir : KeyDirectory) (fd : ℕ) : Task (Option (List FileName)) := do
  match ← openDir (.listDirEntries dir) fd with
  | none => pure none
  | some dirp => do
    let names ← readNames (.listDirEntries dir) dirp
    release dirp
    pure (some (entryTexts names))

/-! ### Storage accounting -/

open WorkspaceFiles in
/-- One entry of a directory that is walked; `enter` walks a directory below it. -/
def scanEntry (enter : ℕ → Scan → Task (Scan × Option ControlError)) (fd : ℕ) (name : FileName)
    (s : Scan) : Task (Scan × Option ControlError) := do
  let found ← ask .other (.fstatat fd name)
  if found.fails then pure (s, none)
  else
    match found.stat.kind with
    | .regular =>
      if maxScanEntries < s.count + 1 then pure ({ s with count := s.count + 1 }, some tooManyFiles)
      else pure (⟨s.count + 1, s.total + found.stat.size⟩, none)
    | .directory => do
      match ← opening .other (.openat fd name directoryFlags) with
      | .error _ => pure (s, none)
      | .ok child => do
        -- an error below is dropped, the counters are kept
        let (s', _) ← enter child s
        release child
        pure (s', none)
    | .symlink | .other => pure (s, none)

open WorkspaceFiles in
def scanNames (enter : ℕ → Scan → Task (Scan × Option ControlError)) (fd : ℕ) :
    List FileName → Scan → Task (Scan × Option ControlError)
  | [], s => pure (s, none)
  | name :: rest, s => do
    match ← scanEntry enter fd name s with
    | (s', some e) => pure (s', some e)
    | (s', none) => scanNames enter fd rest s'

open WorkspaceFiles in
/-- `walk_dir_bytes`, to the depth that `fuel` leaves. -/
def walkDirBytes : ℕ → ℕ → Scan → Task (Scan × Option ControlError)
  | 0, _, s => pure (s, none)
  | fuel + 1, fd, s => do
    match ← openDir .other fd with
    | none => pure (s, some (.internal "fdopendir failed"))
    | some dirp => do
      let names ← readNames .other dirp
      let result ← scanNames (walkDirBytes fuel) fd (entryTexts names) s
      release dirp
      pure result

open WorkspaceFiles in
def directoryBytes (files : Files) : Task ℕ := do
  match ← walkDirBytes (maxScanDepth + 1) files.rootFd ⟨0, 0⟩ with
  | (_, some e) => .throws e
  | (s, none) => pure s.total

/-! ### Operations -/

section Operations

open WorkspaceFiles

variable (files : Files)

def prepareJobTmp : Task Unit := do
  let fd ← openDirectory files [".tmp"] true
  order (.fchmod fd 0o700)
  let user ← ask .other .geteuid
  onlyIf user.flag (order (.fchown fd))
  release fd

def kindOf : FileKind → EntryKind
  | .symlink => .symlink
  | .directory => .directory
  | .regular | .other => .file

def sizeOf (st : Stat) : ℕ := if st.kind = .regular then st.size else 0

/-- The loop over the sorted names; what has gone is left out. -/
def fileRecords (dir : ℕ) (pathPrefix : FileName) : List FileName → Task (List FileRecord)
  | [] => pure []
  | name :: rest => do
    let found ← ask .other (.fstatat dir name)
    let others ← fileRecords dir pathPrefix rest
    if found.fails then pure others
    else pure (⟨⟨pathPrefix ++ name, kindOf found.stat.kind, sizeOf found.stat⟩,
      modifiedAt found.stat.mtime⟩ :: others)

def listOpen (parts : List String) (dir : ℕ) : Task (List FileRecord) := do
  match ← openDir .other dir with
  | none => .throws (.internal "fdopendir failed")
  | some dirp => do
    let names ← readNames .other dirp
    release dirp
    let entries := sorted (entryTexts names)
    if maxListEntries < entries.length then
      .throws (.limitExceeded "directory contains too many entries")
    else fileRecords dir (listPrefix parts) entries

def list (path : Json) : Task (List FileRecord) := do
  let parts ← ofExcept (validateWorkspaceDirectory path)
  let dir ← openDirectory files parts false
  closing dir (listOpen parts dir)

def statOpen (fd : ℕ) : Task Stat := do
  let found ← ask .other (.fstat fd)
  if found.fails then .throws (.internal "fstat failed") else pure found.stat

def readOpen (parts : List String) (fd start limit : ℕ) : Task WorkspaceFiles.ReadReply := do
  let st ← statOpen fd
  if st.kind ≠ .regular then .throws (.invalidRequest "download path is not a regular file")
  else if maxFileBytes < st.size then .throws (.limitExceeded "file exceeds the download limit")
  else if st.size < start then .throws (.invalidRequest "file offset exceeds the file size")
  else do
    let got ← ask .other (.pread fd limit start)
    if got.fails then .throws (.internal "pread failed")
    else
      let buf := got.bytes.take limit
      pure {
        path := joinParts parts
        offset := start
        nextOffset := start + buf.length
        size := st.size
        eof := st.size ≤ start + buf.length
        data := Base64.encode buf }

def read (path offset maxBytes : Json) : Task WorkspaceFiles.ReadReply := do
  let parts ← ofExcept (validateRelativePath path)
  let start ← ofExcept (validateInteger offset 0 maxFileBytes "file offset")
  let limit ← ofExcept (validateInteger maxBytes 1 maxFileChunkBytes "file read size")
  let fd ← openFile files parts {} false
  closing fd (readOpen parts fd start.toNat limit.toNat)

/-- The loop of `pwrite`s over what is left of a chunk, each of which writes a byte at least. -/
def pwriteAll (fd : ℕ) : ℕ → List UInt8 → ℕ → Task Unit
  | 0, _, _ => pure ()
  | fuel + 1, chunk, start =>
    if chunk = [] then pure ()
    else do
      let written ← ask .other (.pwrite fd chunk start)
      if written.fails ∨ written.count = 0 then
        .throws (.internal "file write made no progress")
      else pwriteAll fd fuel (chunk.drop written.count) (start + written.count)

def writeOpen (r : WriteFields) (fd : ℕ) : Task WriteReply := do
  let user ← ask .other .geteuid
  onlyIf user.flag (order (.fchown fd))
  let st ← statOpen fd
  if st.kind ≠ .regular then .throws (.invalidRequest "upload target is not a regular file")
  else do
    let used ← directoryBytes files
    if files.quota.bytes < r.accounted used st.size then .throws quotaExceeded
    else do
      onlyIf r.truncate (order (.ftruncate fd 0))
      pwriteAll fd r.chunk.length r.chunk r.start
      order (.fsync fd)
      let after ← ask .other (.fstat fd)
      pure {
        path := joinParts r.parts
        size := if after.fails then 0 else after.stat.size
        nextOffset := r.start + r.chunk.length
        usedBytes := r.accounted used st.size
        quotaBytes := files.quota.bytes }

def write (path offset encoded truncate : Json) : Task WriteReply := do
  let r ← ofExcept (writeFields path offset encoded truncate)
  let fd ← openFile files r.parts writeFlags true
  closing fd (writeOpen files r fd)

def deleteOpen (parts : List String) (parent : ℕ) : Task DeleteReply := do
  let name := fileName (parts.getLastD "")
  let found ← ask .other (.fstatat parent name)
  let found ← ofExcept (checked found)
  if found.stat.kind ≠ .regular then .throws (.invalidRequest "delete path is not a regular file")
  else do
    let unlinked ← ask .other (.unlinkat parent name)
    let _ ← ofExcept (checked unlinked)
    let used ← directoryBytes files
    pure ⟨joinParts parts, used, files.quota.bytes⟩

def delete (path recursive : Json) : Task DeleteReply := do
  let parts ← ofExcept (validateRelativePath path)
  if recursive.asBool.getD false then
    .throws (.permissionDenied "recursive deletion is not supported")
  else do
    let parent ← openDirectory files parts.dropLast false
    closing parent (deleteOpen files parts parent)

def openJobCwd (path : Json) : Task ℕ := do
  let parts ← ofExcept (validateWorkspaceDirectory path)
  openDirectory files parts false

end Operations

/-! ### Keys -/

/-- The text of a small file that has been read. -/
def smallText (maximum : ℕ) (got : Answer) : Option (List Char) :=
  if got.fails then none else (Utf8.decode (got.bytes.take maximum)).map trimText

/-- A regular file of at most `maximum` bytes. -/
def Answer.isSmall (maximum : ℕ) (i : Answer) : Bool :=
  !i.fails && i.stat.kind = .regular && i.stat.size ≤ maximum

def readSmallOpen (fd maximum : ℕ) : Task (Option (List Char)) := do
  let found ← ask .other (.fstat fd)
  if found.isSmall maximum then do
    let got ← ask .other (.read fd maximum)
    pure (smallText maximum got)
  else pure none

def readSmall (files : Files) (path : String) (maximum : ℕ) : Task (Option (List Char)) :=
  match validateRelativePath (.string path) with
  | .error _ => pure none
  | .ok parts => do
    match ← (openFile files parts {} false).attempt with
    | .error _ => pure none
    | .ok fd => closing fd (readSmallOpen fd maximum)

/-- Whether a directory has the entries of a key and no others, in which case it is closed. -/
def holdsKey (dir : KeyDirectory) (fd : ℕ) : Task Bool := do
  match ← listDirEntries dir fd with
  | none => pure false
  | some entries =>
    if sorted entries = keyEntries dir then do
      release fd
      pure true
    else pure false

def readIdentity (files : Files) : Task (Option String) := do
  match ← readSmall files ".bloom/keystore/workspace-login/kind" 256 with
  | none => pure none
  | some kind => do
    match ← readSmall files ".bloom/keystore/workspace-login/address" 256 with
    | none => pure none
    | some address => do
      match ← readSmall files ".bloom/keystore/workspace-login/pubkey" 256 with
      | none => pure none
      | some publicKey => pure (identityOf kind address publicKey)

/-- Open a directory of the key and look at its entries. -/
def checkKey (files : Files) (dir : KeyDirectory) : Task Bool := do
  match ← (openDirectory files (keyParts dir) false).attempt with
  | .error _ => pure false
  | .ok fd => holdsKey dir fd

def watchIdentity (files : Files) : Task (Option String) := do
  if ← checkKey files .keystore then
    if ← checkKey files .wallet then readIdentity files else pure none
  else pure none

/-- `read_small_regular_file` of `control.rs` -/
def readSmallRegularFile (path : String) (maximum : ℕ) : Task (Option (List Char)) := do
  match ← opening (.readSmallRegularFile maximum) (.open path { noFollow := true }) with
  | .error _ => pure none
  | .ok fd => do
    let found ← ask (.readSmallRegularFile maximum) (.fstat fd)
    if found.isSmall maximum then do
      let got ← ask (.readSmallRegularFile maximum) (.read fd maximum)
      release fd
      pure (smallText maximum got)
    else pure none

/-- What `bloom_status` finds out, before it puts it into its reply. -/
def bloomStatus (files : Files) : Task (Option String × Bool × Bool) := do
  let address ← watchIdentity files
  let executable ← ask .other (.which "bloom")
  let mounted ← ask .other (.isMount "/bloom")
  pure (address, executable.flag, mounted.flag)

def connectionStatus (g : Connections.Circumstances) (conn : Connections.ConnectionState)
    (workspaceId : String) (nfsEnabled : Bool) : Task Json := do
  let hostKey ← readSmallRegularFile "/run/bloom/ssh/ssh_host_ed25519_key.pub" 1024
  pure (Connections.connectionStatus { g with hostKey := hostKey.map String.ofList } conn workspaceId
    nfsEnabled)

/-! ### All operations -/

inductive Operation
  | openDirectory (parts : List String) (create : Bool)
  | openFile (parts : List String) (flags : OpenFlags) (createParents : Bool)
  | openJobCwd (path : Json)
  | prepareJobTmp
  | list (path : Json)
  | read (path offset maxBytes : Json)
  | write (path offset encoded truncate : Json)
  | delete (path recursive : Json)
  | directoryBytes
  | readSmall (path : String) (maximum : ℕ)
  | watchIdentity
  | readSmallRegularFile (path : String) (maximum : ℕ)
  | bloomStatus
  | connectionStatus (g : Connections.Circumstances) (conn : Connections.ConnectionState)
      (workspaceId : String) (nfsEnabled : Bool)

/-- The descriptor is the result. -/
def handing (x : Task ℕ) : Task (Option ℕ) := do
  let fd ← x
  pure (some fd)

/-- The result has no descriptor. -/
def handingNone {α : Type} (x : Task α) : Task (Option ℕ) := do
  let _ ← x
  pure none

/-- Run an operation, with the descriptor that it hands to its caller. -/
def serve (files : Files) : Operation → Task (Option ℕ)
  | .openDirectory parts create => handing (GuestDescriptors.openDirectory files parts create)
  | .openFile parts flags createParents => handing (GuestDescriptors.openFile files parts flags createParents)
  | .openJobCwd path => handing (GuestDescriptors.openJobCwd files path)
  | .prepareJobTmp => handingNone (GuestDescriptors.prepareJobTmp files)
  | .list path => handingNone (GuestDescriptors.list files path)
  | .read path offset maxBytes => handingNone (GuestDescriptors.read files path offset maxBytes)
  | .write path offset encoded truncate =>
    handingNone (GuestDescriptors.write files path offset encoded truncate)
  | .delete path recursive => handingNone (GuestDescriptors.delete files path recursive)
  | .directoryBytes => handingNone (GuestDescriptors.directoryBytes files)
  | .readSmall path maximum => handingNone (GuestDescriptors.readSmall files path maximum)
  | .watchIdentity => handingNone (GuestDescriptors.watchIdentity files)
  | .readSmallRegularFile path maximum =>
    handingNone (GuestDescriptors.readSmallRegularFile path maximum)
  | .bloomStatus => handingNone (GuestDescriptors.bloomStatus files)
  | .connectionStatus g conn workspaceId nfsEnabled =>
    handingNone (GuestDescriptors.connectionStatus g conn workspaceId nfsEnabled)

/-- What the caller does with a result: it closes a descriptor that it has been handed. -/
def finish (result : Except ControlError (Option ℕ)) : Task Unit :=
  match result with
  | .ok (some fd) => release fd
  | .ok none | .error _ => pure ()

/-- Any number of operations, one after another. -/
def serveAll (files : Files) : List Operation → Task Unit
  | [] => pure ()
  | op :: ops => do
    let result ← (serve files op).attempt
    finish result
    serveAll files ops

end GuestDescriptors

end Bloom
