import BloomWorkspaces.Agent.PathValidators
import BloomWorkspaces.Guest.Accounting
import BloomWorkspaces.Library.Routine

/-!
# Data files

`write` and `delete` of `WorkspaceDataFiles`, as routines with an `await` for each call of the file system.
Any of these calls may fail, and a failed write may have written a part of its contents.
-/

namespace Bloom

namespace DataFiles

def maxFileTransferBytes : ℕ := 8 * 1024 * 1024

def maxQuotaScanEntries : ℕ := 20000

/-- What is found at the path of the root; `foreign` is a link, or anything else but a directory. -/
inductive RootKind
  | directory
  | foreign
  | missing
  deriving DecidableEq, Repr

structure DataRoot where
  kind : RootKind
  tree : WorkspaceTree

/-- The errors of the file system that the code tells apart. -/
inductive FsError
  | noEntry
  | loop
  | other
  deriving DecidableEq, Repr

/-- `unfinished` is the error of a scan that has run out of fuel. -/
inductive DataError
  | data (error : RuntimeDataError)
  | io (error : FsError)
  | unfinished
  deriving DecidableEq, Repr

inductive Answer
  | done
  | fails (written : ℕ)
  deriving DecidableEq, Repr

/-- The reply to a delete has no size. -/
structure DataReply where
  size : Option ℕ
  usedBytes : ℤ
  quotaBytes : ℕ
  deriving DecidableEq, Repr

abbrev DataRoutine (α : Type) := Routine DataRoot Answer DataError α

variable {α : Type}

def reject (message : String) (status : ℕ) : DataRoutine α := .throws (.data ⟨message, status⟩)

/-! ### The file system -/

namespace DataRoot

def writeInode (r : DataRoot) (inode : ℕ) (contents : List UInt8) : DataRoot :=
  { r with tree := r.tree.writeInode inode contents }

def lastName (path : TreePath) : FileName := path.getLast?.getD []

/-- `lstat` of a path whose directory has been looked up. -/
def lstat (r : DataRoot) (path : TreePath) : Except FsError FileNode :=
  match r.tree.node path with
  | some node => .ok node
  | none =>
    if isPlainName (lastName path) ∧ (r.tree.node path.dropLast).all (· = .directory) then .error .noEntry
    else .error .other

def mkdir (r : DataRoot) (path : TreePath) : Except FsError Unit × DataRoot :=
  if r.tree.CanHold path.dropLast (lastName path) then
    (.ok (), { r with tree := r.tree.make path.dropLast (lastName path) .directory })
  else (.error .other, r)

/-- `open` with `O_WRONLY | O_CREAT | O_TRUNC | O_NOFOLLOW` of a path where a regular file or nothing has been
found before; the handle is the inode. -/
def openFile (r : DataRoot) (path : TreePath) : Except FsError ℕ × DataRoot :=
  match r.tree.node path, r.tree.inodeAt path with
  | some (.file _), some inode => (.ok inode, r.writeInode inode [])
  | some (.symlink _), _ => (.error .loop, r)
  | some _, _ => (.error .other, r)
  | none, _ =>
    if r.tree.CanHold path.dropLast (lastName path) then
      (.ok r.tree.freshInode, { r with tree := r.tree.make path.dropLast (lastName path) (.file []) })
    else (.error .other, r)

/-- `rm` without `recursive`. -/
def rm (r : DataRoot) (path : TreePath) : Except FsError Unit × DataRoot :=
  match r.tree.node path with
  | some .directory => (.error .other, r)
  | some _ => (.ok (), { r with tree := r.tree.remove path })
  | none => (.error .noEntry, r)

end DataRoot

/-- An awaited call that does nothing when it fails. -/
def fsCall (f : DataRoot → Except FsError α × DataRoot) : DataRoutine α :=
  .await
    (fun answer r =>
      match answer with
      | .done => (f r).2
      | .fails _ => r)
    fun answer r =>
      match answer, (f r).1 with
      | .done, .ok a => .returns a
      | .done, .error e => .throws (.io e)
      | .fails _, _ => .throws (.io .other)

def query (f : DataRoot → Except FsError α) : DataRoutine α := fsCall fun r => (f r, r)

def lstat (path : TreePath) : DataRoutine FileNode := query fun r => r.lstat path

/-- `handle.writeFile` on a file that has just been opened. -/
def writeHandle (inode : ℕ) (contents : List UInt8) : DataRoutine Unit :=
  .await
    (fun answer r =>
      match answer with
      | .done => r.writeInode inode contents
      | .fails written => r.writeInode inode (contents.take written))
    fun answer _ =>
      match answer with
      | .done => .returns ()
      | .fails _ => .throws (.io .other)

/-! ### Checks of paths -/

def assertRoot : DataRoutine Unit := do
  match ← query fun r => .ok r.kind with
  | .directory => pure ()
  | .foreign => reject "Workspace data root is unsafe" 409
  | .missing => reject "Workspace data root is unavailable" 409

/-- The names on a validated path, as the file system gets them. -/
def pathNames (path : JsText) : TreePath :=
  if path = [] then []
  else (path.splitOn JsText.slash).map fun part => Utf8.encode (Utf16.toWellFormed part)

def checkNames (cursor : TreePath) : List FileName → DataRoutine Unit
  | [] => pure ()
  | name :: rest => do
    match ← (lstat (cursor ++ [name])).attempt with
    | .ok (.symlink _) => reject "Symbolic links are not allowed" 400
    | .ok _ => checkNames (cursor ++ [name]) rest
    | .error (.io .noEntry) => reject "Workspace path does not exist" 404
    | .error e => .throws e

/-- The target of a validated path is below the root. -/
def checkedExistingPath (requestedPath : JsText) (allowEmpty : Bool) : DataRoutine TreePath :=
  match validateRelativePath requestedPath allowEmpty with
  | .error e => .throws (.data e)
  | .ok path => do
    checkNames [] (pathNames path)
    pure (pathNames path)

def ensureNames (cursor : TreePath) : List FileName → DataRoutine Unit
  | [] => pure ()
  | name :: rest => do
    match ← (lstat (cursor ++ [name])).attempt with
    | .ok .directory => ensureNames (cursor ++ [name]) rest
    | .ok _ => reject "Workspace path contains an unsafe parent" 400
    | .error (.io .noEntry) => do
      fsCall fun r => r.mkdir (cursor ++ [name])
      match ← lstat (cursor ++ [name]) with
      | .directory => ensureNames (cursor ++ [name]) rest
      | _ => reject "Workspace path contains an unsafe parent" 400
    | .error e => .throws e

/-- A relative path that starts with two dots is taken for one that leaves the root. -/
def ensureSafeParents (parents : TreePath) : DataRoutine Unit :=
  if dotDot <+: parents.headD [] then reject "Workspace path escapes /workspace" 400
  else ensureNames [] parents

def regularFileSizeOrZero (target : TreePath) : DataRoutine ℕ := do
  match ← (lstat target).attempt with
  | .ok (.file contents) => pure contents.length
  | .ok _ => reject "Upload target is not a regular file" 400
  | .error (.io .noEntry) => pure 0
  | .error e => .throws e

/-! ### The size of the root -/

/-- The variables of `directoryBytes`; the directory that was pushed last comes first. -/
structure Scan where
  count : ℕ
  bytes : ℕ
  pending : List TreePath
  deriving DecidableEq, Repr

def Scan.visit (s : Scan) (path : TreePath) : FileNode → Scan
  | .file contents => { s with count := s.count + 1, bytes := s.bytes + contents.length }
  | .directory => { s with count := s.count + 1, pending := path :: s.pending }
  | _ => { s with count := s.count + 1 }

/-- The loop over the entries of a directory, whose names are read as texts. -/
def scanEntries (directory : TreePath) : List FileName → Scan → DataRoutine Scan
  | [], s => pure s
  | name :: rest, s =>
    if maxQuotaScanEntries < s.count + 1 then reject "Workspace contains too many files" 413
    else do
      let node ← lstat (directory ++ [Utf8.lossy name])
      scanEntries directory rest (s.visit (directory ++ [Utf8.lossy name]) node)

def scanPending : ℕ → Scan → DataRoutine ℕ
  | fuel, s =>
    match s.pending with
    | [] => pure s.bytes
    | directory :: pending =>
      match fuel with
      | 0 => .throws .unfinished
      | fuel + 1 => do
        let names ← query fun r => .ok (r.tree.names directory)
        let s ← scanEntries directory names { s with pending := pending }
        scanPending fuel s

def directoryBytes : DataRoutine ℕ := do
  assertRoot
  scanPending (maxQuotaScanEntries + 1) ⟨0, 0, [[]]⟩

/-! ### Operations -/

/-- A `close` that fails takes the place of an error of the write. -/
def replaceContents (target : TreePath) (contents : List UInt8) : DataRoutine Unit := do
  match ← (fsCall fun r => r.openFile target).attempt with
  | .error (.io .loop) => reject "Symbolic links are not allowed" 400
  | .error e => .throws e
  | .ok inode => do
    let written ← (writeHandle inode contents).attempt
    query fun _ => .ok ()
    match written with
    | .error e => .throws e
    | .ok () => pure ()

/-- What `write` hands to `serialized`. -/
def write (quotaBytes : ℕ) (requestedPath : JsText) (contents : List UInt8) : DataRoutine DataReply := do
  assertRoot
  match validateRelativePath requestedPath false with
  | .error e => .throws (.data e)
  | .ok path => do
    let target := pathNames path
    ensureSafeParents target.dropLast
    let priorSize ← regularFileSizeOrZero target
    let usedBefore ← directoryBytes
    let usedAfter : ℤ := (usedBefore : ℤ) - priorSize + contents.length
    if (quotaBytes : ℤ) < usedAfter then reject "Workspace storage quota exceeded" 413
    else do
      replaceContents target contents
      pure ⟨some contents.length, usedAfter, quotaBytes⟩

/-- What `delete` hands to `serialized`. -/
def delete (quotaBytes : ℕ) (requestedPath : JsText) : DataRoutine DataReply := do
  assertRoot
  let target ← checkedExistingPath requestedPath false
  match ← lstat target with
  | .symlink _ => reject "Symbolic links are not allowed" 400
  | .file _ => do
    fsCall fun r => r.rm target
    let usedBytes ← directoryBytes
    pure ⟨none, usedBytes, quotaBytes⟩
  | _ => reject "Delete path is not a regular file" 400

/-- A call of `write` or `delete` on a root. -/
inductive DataRequest
  | write (path : JsText) (contents : List UInt8)
  | delete (path : JsText)
  deriving DecidableEq, Repr

def DataRequest.routine (quotaBytes : ℕ) : DataRequest → DataRoutine DataReply
  | .write path contents => DataFiles.write quotaBytes path contents
  | .delete path => DataFiles.delete quotaBytes path

end DataFiles

end Bloom
