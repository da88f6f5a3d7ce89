import BloomWorkspaces.Guest.Validate
import BloomWorkspaces.Guest.WorkspaceTree
import BloomWorkspaces.Library.Action

/-!
# System calls on the workspace

A descriptor is the object that it was opened on, and a call names an object by a name below a
descriptor. The kernel logs every call that reaches an object, with the tree that the call found. A call
can wait for ever, and then keeps the lock that it holds.
-/

namespace Bloom

inductive Errno
  | noEntry
  | fileExists
  | loop
  | notDirectory
  | isDirectory
  | nameTooLong
  | noSpace
  | noDevice
  deriving DecidableEq, Repr

def fromIoError : Errno → ControlError
  | .noEntry => .notFound "workspace operation failed"
  | .loop => .permissionDenied "workspace operation failed"
  | .notDirectory => .permissionDenied "workspace operation failed"
  | .fileExists => .internal "workspace operation failed"
  | .isDirectory => .internal "workspace operation failed"
  | .nameTooLong => .internal "workspace operation failed"
  | .noSpace => .internal "workspace operation failed"
  | .noDevice => .internal "workspace operation failed"

/-- What a name stands for below a directory, before a link is followed. A name with a slash would
lead on to anywhere. -/
def resolve : Object → FileName → Object
  | .outside, _ => .outside
  | .inside dir, name =>
    if name = dot then .inside dir
    else if name = dotDot then if dir = [] then .outside else .inside dir.dropLast
    else if name.contains slash then .outside
    else .inside (dir ++ [name])

/-- The names that no lookup accepts. -/
def nameErrno (name : FileName) : Option Errno :=
  if name = [] then some .noEntry
  else if !name.contains slash && 255 < name.length then some .nameTooLong
  else none

structure OpenFlags where
  directory : Bool := false
  noFollow : Bool := false
  create : Bool := false
  writable : Bool := false
  deriving DecidableEq, Repr

namespace WorkspaceTree

/-- The object that a descriptor is open on; nothing is known of those outside. -/
def nodeOf (t : WorkspaceTree) : Object → FileNode
  | .inside path => (t.node path).getD .other
  | .outside => .other

def makeAt (t : WorkspaceTree) (path : TreePath) (n : FileNode) : Except Errno (Object × WorkspaceTree) :=
  if t.CanHold path.dropLast (path.getLastD []) then
    .ok (.inside path, t.make path.dropLast (path.getLastD []) n)
  else if t.node path.dropLast = some .directory then .error .noSpace
  else .error .notDirectory

def openat (t : WorkspaceTree) (dir : Object) (name : FileName) (flags : OpenFlags) :
    Except Errno (Object × WorkspaceTree) :=
  match nameErrno name, resolve dir name with
  | some errno, _ => .error errno
  | none, .outside => .ok (.outside, t)
  | none, .inside path =>
    match t.node path with
    | none => if flags.create then t.makeAt path (.file []) else .error .noEntry
    | some .directory => if flags.writable then .error .isDirectory else .ok (.inside path, t)
    | some (.symlink target) =>
      if flags.noFollow then .error (if flags.directory then .notDirectory else .loop)
      else .ok (target, t)
    | some .socket => .error (if flags.directory then .notDirectory else .noDevice)
    | some _ => if flags.directory then .error .notDirectory else .ok (.inside path, t)

/-- A named pipe whose other end nobody opens. -/
def hangs (t : WorkspaceTree) (path : TreePath) (writable : Bool) : Bool :=
  match t.node path with
  | some (.fifo reader writer) => !(if writable then reader else writer)
  | _ => false

/-- Without `O_NONBLOCK` an `openat` waits for the other end of a named pipe. -/
def waits (t : WorkspaceTree) (dir : Object) (name : FileName) (flags : OpenFlags) : Bool :=
  match nameErrno name, resolve dir name with
  | none, .inside path => !flags.directory && t.hangs path flags.writable
  | _, _ => false

def mkdirat (t : WorkspaceTree) (dir : Object) (name : FileName) :
    Except Errno (Object × WorkspaceTree) :=
  match nameErrno name, resolve dir name with
  | some errno, _ => .error errno
  | none, .outside => .ok (.outside, t)
  | none, .inside path =>
    if t.node path = none then t.makeAt path .directory else .error .fileExists

/-- `fstatat` with `AT_SYMLINK_NOFOLLOW` -/
def fstatat (t : WorkspaceTree) (dir : Object) (name : FileName) : Except Errno FileNode :=
  match nameErrno name, resolve dir name with
  | some errno, _ => .error errno
  | none, .outside => .ok .other
  | none, .inside path =>
    match t.node path with
    | none => .error .noEntry
    | some n => .ok n

def unlinkat (t : WorkspaceTree) (dir : Object) (name : FileName) :
    Except Errno (Object × WorkspaceTree) :=
  match nameErrno name, resolve dir name with
  | some errno, _ => .error errno
  | none, .outside => .ok (.outside, t)
  | none, .inside path =>
    match t.node path with
    | none => .error .noEntry
    | some .directory => .error .isDirectory
    | some _ => .ok (.inside path, t.remove path)

/-- What is read from a directory, with the entries for itself and its parent. -/
def readdir (t : WorkspaceTree) : Object → List FileName
  | .inside dir => dot :: dotDot :: t.names dir
  | .outside => []

/-- Change the contents of an open regular file. -/
def update (t : WorkspaceTree) (fd : Object) (f : List UInt8 → List UInt8) : WorkspaceTree :=
  match fd, t.nodeOf fd with
  | .inside path, .file contents => t.setContents path (f contents)
  | _, _ => t

end WorkspaceTree

/-- What a file holds after a write; a gap before the write reads as zeros. -/
def splice (start : ℕ) (chunk contents : List UInt8) : List UInt8 :=
  contents.take start ++ List.replicate (start - contents.length) 0 ++ chunk ++
    contents.drop (start + chunk.length)

/-! ### The log -/

inductive Call
  | stat
  | open
  | makeDirectory
  | changeOwner
  | readDirectory
  | read
  | truncate
  | write
  | unlink
  deriving DecidableEq, Repr

/-- Whether the name of the object comes from the request or from a directory that was read. -/
inductive Origin
  | request
  | listing
  deriving DecidableEq, Repr

/-- A call that has reached an object, with the tree before the call. -/
structure Access where
  call : Call
  origin : Origin
  object : Object
  tree : WorkspaceTree

/-- The state of the workspace; `locked` says that a call that never returned has the write lock. -/
structure Kernel where
  tree : WorkspaceTree
  log : List Access
  locked : Bool

def Kernel.initial (t : WorkspaceTree) : Kernel := ⟨t, [], false⟩

def Kernel.saw (k : Kernel) (call : Call) (origin : Origin) (object : Object) : Kernel :=
  { k with log := ⟨call, origin, object, k.tree⟩ :: k.log }

abbrev FileAction := ExceptT Halt (StateM Kernel)

def refuse {α : Type} (e : ControlError) : FileAction α := throw (.error e)

/-- A section with the guard of `write_lock.lock()`. Nothing else asks for the lock before the section ends,
if it ever does. -/
def withWriteLock {α : Type} (x : FileAction α) : FileAction α := fun k =>
  if k.locked then (.error .blocked, k)
  else
    match Action.outcome x k with
    | (.error .blocked, k') => (.error .blocked, { k' with locked := true })
    | (r, k') => (r, k')

/-- Carry out a call that opens, makes or removes an object. -/
def perform (call : Call) (origin : Origin)
    (f : WorkspaceTree → Except Errno (Object × WorkspaceTree)) : FileAction (Except Errno Object) :=
  modifyGet fun k =>
    match f k.tree with
    | .ok (object, tree) => (.ok object, { k.saw call origin object with tree := tree })
    | .error errno => (.error errno, k)

/-- Carry out a call that looks at an object. -/
def observe {α : Type} (call : Call) (origin : Origin) (object : Object) (f : WorkspaceTree → α) :
    FileAction α :=
  modifyGet fun k => (f k.tree, k.saw call origin object)

/-- Carry out a call on an open regular file. -/
def alter (call : Call) (fd : Object) (f : List UInt8 → List UInt8) : FileAction Unit :=
  modifyGet fun k => ((), { k.saw call .request fd with tree := k.tree.update fd f })

/-- A call that waits for ever for the object that it opens. -/
def wait {α : Type} (origin : Origin) (object : Object) : FileAction α := do
  observe .open origin object fun _ => ()
  throw .blocked

def openat (origin : Origin) (dir : Object) (name : FileName) (flags : OpenFlags) :
    FileAction (Except Errno Object) := do
  let k ← get
  if k.tree.waits dir name flags then wait origin (resolve dir name)
  else perform .open origin fun t => t.openat dir name flags

def mkdirat (dir : Object) (name : FileName) : FileAction (Except Errno Object) :=
  perform .makeDirectory .request fun t => t.mkdirat dir name

def unlinkat (dir : Object) (name : FileName) : FileAction (Except Errno Object) :=
  perform .unlink .request fun t => t.unlinkat dir name

/-- `fchownat` with `AT_SYMLINK_NOFOLLOW`; owners are not part of the tree. -/
def fchownat (dir : Object) (name : FileName) : FileAction Unit :=
  observe .changeOwner .request (resolve dir name) fun _ => ()

def fchown (fd : Object) : FileAction Unit := observe .changeOwner .request fd fun _ => ()

def fstatat (origin : Origin) (dir : Object) (name : FileName) : FileAction (Except Errno FileNode) :=
  observe .stat origin (resolve dir name) fun t => t.fstatat dir name

def fstat (fd : Object) : FileAction FileNode := observe .stat .request fd fun t => t.nodeOf fd

def readdir (dir : Object) : FileAction (List FileName) :=
  observe .readDirectory .listing dir fun t => t.readdir dir

/-- `pread` of a regular file, whose contents are known from `fstat`. -/
def pread (fd : Object) (contents : List UInt8) (limit start : ℕ) : FileAction (List UInt8) :=
  observe .read .request fd fun _ => (contents.drop start).take limit

def ftruncate (fd : Object) : FileAction Unit := alter .truncate fd fun _ => []

def noProgress : ControlError := .internal "file write made no progress"

/-- The loop of `pwrite`s over a chunk. The calls take as many bytes as the list says, or all that are left,
and one that takes none has failed; those after the list take all. -/
def pwriteAll (fd : Object) : List ℕ → List UInt8 → ℕ → FileAction Unit
  | [], chunk, start => if chunk = [] then pure () else alter .write fd (splice start chunk)
  | n :: pwrites, chunk, start =>
    if chunk = [] then pure ()
    else if n = 0 then do
      observe .write .request fd fun _ => ()
      refuse noProgress
    else do
      alter .write fd (splice start (chunk.take n))
      pwriteAll fd pwrites (chunk.drop n) (start + n)

/-- How many bytes of a chunk of some length the loop writes. -/
def taken : List ℕ → ℕ → ℕ
  | [], length => length
  | n :: pwrites, length => if length = 0 ∨ n = 0 then 0 else min n length + taken pwrites (length - n)

/-- No `pwrite` of the loop fails. -/
def Completes (pwrites : List ℕ) (length : ℕ) : Prop := taken pwrites length = length

instance (pwrites : List ℕ) (length : ℕ) : Decidable (Completes pwrites length) :=
  inferInstanceAs (Decidable (_ = _))

/-! ### Names that are entries -/

/-- A name that stands for an entry of the directory and for nothing else. -/
structure IsStep (name : FileName) : Prop where
  ne_dot : name ≠ dot
  ne_dotDot : name ≠ dotDot
  noSlash : name.contains slash = false

section Step

variable {t t' : WorkspaceTree} {dir : TreePath} {name : FileName} {flags : OpenFlags}
  {object : Object} {n : FileNode} {raw : FileName}

lemma isPlainName_iff :
    isPlainName name = true ↔
      IsStep name ∧ name ≠ [] ∧ name.length ≤ 255 ∧ name.contains 0 = false := by
  simp only [isPlainName, Bool.and_eq_true, decide_eq_true_eq, Bool.not_eq_true', ne_eq]
  constructor
  · rintro ⟨⟨⟨⟨⟨hnil, hdot⟩, hdotDot⟩, hlength⟩, hnul⟩, hslash⟩
    exact ⟨⟨hdot, hdotDot, hslash⟩, hnil, hlength, hnul⟩
  · rintro ⟨⟨hdot, hdotDot, hslash⟩, hnil, hlength, hnul⟩
    exact ⟨⟨⟨⟨⟨hnil, hdot⟩, hdotDot⟩, hlength⟩, hnul⟩, hslash⟩

lemma IsStep.of_plain (h : isPlainName name = true) : IsStep name := (isPlainName_iff.mp h).1

lemma nameErrno_of_plain (h : isPlainName name = true) : nameErrno name = none := by
  obtain ⟨-, hnil, hlength, -⟩ := isPlainName_iff.mp h
  rw [nameErrno, if_neg hnil, if_neg]
  simpa using fun _ => hlength

@[simp] lemma nameErrno_dot : nameErrno dot = none := by decide

@[simp] lemma resolve_dot (dir : TreePath) : resolve (.inside dir) dot = .inside dir := by
  simp [resolve]

lemma IsStep.resolve (h : IsStep name) : resolve (.inside dir) name = .inside (dir ++ [name]) := by
  rw [Bloom.resolve, if_neg h.ne_dot, if_neg h.ne_dotDot, h.noSlash]
  rfl

lemma makeAt_of_canHold (h : t.CanHold dir name) :
    t.makeAt (dir ++ [name]) n = .ok (.inside (dir ++ [name]), t.make dir name n) := by
  rw [WorkspaceTree.makeAt, List.dropLast_concat, List.getLastD_concat, if_pos h]

lemma makeAt_of_not (h : ¬t.CanHold dir name) : ∃ errno, t.makeAt (dir ++ [name]) n = .error errno := by
  rw [WorkspaceTree.makeAt, List.dropLast_concat, List.getLastD_concat, if_neg h]
  split
  · exact ⟨_, rfl⟩
  · exact ⟨_, rfl⟩

lemma makeAt_ok (h : t.makeAt (dir ++ [name]) n = .ok (object, t')) :
    t.CanHold dir name ∧ object = .inside (dir ++ [name]) ∧ t' = t.make dir name n := by
  by_cases hcan : t.CanHold dir name
  · rw [makeAt_of_canHold hcan] at h
    cases h
    exact ⟨hcan, rfl, rfl⟩
  · obtain ⟨errno, herror⟩ := makeAt_of_not (n := n) hcan
    rw [herror] at h
    cases h

lemma noSlash_of_mem_readdir (h : raw ∈ t.readdir (.inside dir)) : raw.contains slash = false := by
  rw [WorkspaceTree.readdir] at h
  rcases List.mem_cons.mp h with rfl | h
  · decide
  · rcases List.mem_cons.mp h with rfl | h
    · decide
    · obtain ⟨n, hn⟩ := WorkspaceTree.mem_names.mp h
      exact (IsStep.of_plain (WorkspaceTree.plain_of_node hn)).noSlash

/-- The conversion to a text makes no slash. -/
lemma isStep_lossy (hraw : raw.contains slash = false) (hdot : Utf8.lossy raw ≠ dot)
    (hdotDot : Utf8.lossy raw ≠ dotDot) : IsStep (Utf8.lossy raw) := by
  refine ⟨hdot, hdotDot, ?_⟩
  rw [← Bool.not_eq_true, List.contains_iff_mem] at hraw ⊢
  intro hmem
  rcases Utf8.mem_lossy hmem with hin | hrepl
  · exact hraw hin
  · revert hrepl
    decide

/-- What `openat` without following links can do with the name of an entry. -/
lemma openat_ok (hname : IsStep name) (hflags : flags.noFollow = true)
    (h : t.openat (.inside dir) name flags = .ok (object, t')) :
    object = .inside (dir ++ [name]) ∧ nameErrno name = none ∧
      ((∃ n, t.node (dir ++ [name]) = some n ∧ t' = t ∧ (flags.directory = true → n = .directory) ∧
          (flags.writable = true → n ≠ .directory) ∧ (∀ target, n ≠ .symlink target) ∧ n ≠ .socket) ∨
        flags.create = true ∧ t.CanHold dir name ∧ t' = t.make dir name (.file [])) := by
  rw [WorkspaceTree.openat, hname.resolve] at h
  split at h
  · cases h
  · cases ‹_ = Object.outside›
  · rename_i path herrno hpath
    cases hpath
    split at h
    · split at h
      · rename_i hcreate
        obtain ⟨hcan, rfl, rfl⟩ := makeAt_ok h
        exact ⟨rfl, herrno, Or.inr ⟨hcreate, hcan, rfl⟩⟩
      · cases h
    · rename_i hnode
      split at h
      · cases h
      · rename_i hwritable
        cases h
        exact ⟨rfl, herrno,
          Or.inl ⟨_, hnode, rfl, fun _ => rfl, fun hw => absurd hw hwritable, by simp, by simp⟩⟩
    · rw [if_pos hflags] at h
      cases h
    · cases h
    · rename_i m hnotDirectory hnotLink hnotSocket hnode
      split at h
      · cases h
      · rename_i hdirectory
        cases h
        refine ⟨rfl, herrno, Or.inl ⟨_, hnode, rfl, fun hd => absurd hd hdirectory, ?_, ?_, ?_⟩⟩
        · rintro - rfl
          exact hnotDirectory rfl
        · rintro target rfl
          exact hnotLink target rfl
        · rintro rfl
          exact hnotSocket rfl

/-- A regular file that is there or can be made is opened for writing. -/
lemma openat_file {contents : List UInt8} (hname : isPlainName name = true) (hcreate : flags.create = true)
    (hdirectory : flags.directory = false)
    (h : (t.make dir name (.file [])).node (dir ++ [name]) = some (.file contents)) :
    t.openat (.inside dir) name flags = .ok (.inside (dir ++ [name]), t.make dir name (.file [])) := by
  simp only [WorkspaceTree.openat, nameErrno_of_plain hname, (IsStep.of_plain hname).resolve]
  cases hnode : t.node (dir ++ [name]) with
  | none =>
    simp only
    have hcan : t.CanHold dir name := by
      by_contra hno
      rw [WorkspaceTree.make_of_not hno, hnode] at h
      cases h
    rw [if_pos hcreate, makeAt_of_canHold hcan]
  | some n =>
    have hn : (t.make dir name (.file [])).node (dir ++ [name]) = some n :=
      WorkspaceTree.node_make_of_some hnode
    rw [h] at hn
    cases hn
    rw [WorkspaceTree.make_of_not]
    · simp [hdirectory]
    · intro hcan
      rw [hcan.free] at hnode
      cases hnode

/-- A regular file that is there is opened. -/
lemma openat_existing {contents : List UInt8} (hdirectory : flags.directory = false)
    (h : t.node (dir ++ [name]) = some (.file contents)) :
    t.openat (.inside dir) name flags = .ok (.inside (dir ++ [name]), t) := by
  have hname := WorkspaceTree.plain_of_node h
  simp only [WorkspaceTree.openat, nameErrno_of_plain hname, (IsStep.of_plain hname).resolve, h]
  rw [hdirectory]
  rfl

/-- `.` is the directory itself. -/
lemma openat_dot (hdir : t.node dir = some .directory) (hflags : flags.writable = false) :
    t.openat (.inside dir) dot flags = .ok (.inside dir, t) := by
  simp [WorkspaceTree.openat, hdir, hflags]

lemma mkdirat_eq (t : WorkspaceTree) (dir : TreePath) (hname : IsStep name) :
    t.mkdirat (.inside dir) name = .ok (.inside (dir ++ [name]), t.make dir name .directory) ∧
        t.CanHold dir name ∨
      (∃ errno, t.mkdirat (.inside dir) name = .error errno) ∧ ¬ t.CanHold dir name := by
  rw [WorkspaceTree.mkdirat, hname.resolve]
  by_cases hcan : t.CanHold dir name
  · left
    rw [nameErrno_of_plain hcan.plain]
    refine ⟨?_, hcan⟩
    simp only
    rw [if_pos hcan.free, makeAt_of_canHold hcan]
  · right
    refine ⟨?_, hcan⟩
    cases nameErrno name with
    | some errno => exact ⟨errno, rfl⟩
    | none =>
      simp only
      split
      · exact makeAt_of_not hcan
      · exact ⟨_, rfl⟩

lemma fstatat_eq (h : t.node (dir ++ [name]) = some n) : t.fstatat (.inside dir) name = .ok n := by
  have hplain := WorkspaceTree.plain_of_node h
  simp only [WorkspaceTree.fstatat, nameErrno_of_plain hplain, (IsStep.of_plain hplain).resolve, h]

lemma fstatat_ok (hname : IsStep name) (h : t.fstatat (.inside dir) name = .ok n) :
    t.node (dir ++ [name]) = some n := by
  rw [WorkspaceTree.fstatat, hname.resolve] at h
  split at h
  · cases h
  · cases ‹_ = Object.outside›
  · rename_i path herrno hpath
    cases hpath
    split at h
    · cases h
    · cases h
      assumption

lemma unlinkat_file {contents : List UInt8} (h : t.node (dir ++ [name]) = some (.file contents)) :
    t.unlinkat (.inside dir) name = .ok (.inside (dir ++ [name]), t.remove (dir ++ [name])) := by
  have hplain := WorkspaceTree.plain_of_node h
  simp only [WorkspaceTree.unlinkat, nameErrno_of_plain hplain, (IsStep.of_plain hplain).resolve, h]

lemma unlinkat_ok (hname : IsStep name) (h : t.unlinkat (.inside dir) name = .ok (object, t')) :
    object = .inside (dir ++ [name]) ∧ t' = t.remove (dir ++ [name]) := by
  rw [WorkspaceTree.unlinkat, hname.resolve] at h
  split at h
  · cases h
  · cases ‹_ = Object.outside›
  · rename_i path herrno hpath
    cases hpath
    split at h
    · cases h
    · cases h
    · cases h
      exact ⟨rfl, rfl⟩

lemma update_file {path : TreePath} {contents : List UInt8} {f : List UInt8 → List UInt8}
    (h : t.node path = some (.file contents)) :
    t.update (.inside path) f = t.setContents path (f contents) := by
  simp [WorkspaceTree.update, WorkspaceTree.nodeOf, h]

/-- A change of contents keeps the directories. -/
lemma update_directory {fd : Object} {f : List UInt8 → List UInt8}
    (h : t.node dir = some .directory) : (t.update fd f).node dir = some .directory := by
  unfold WorkspaceTree.update
  split
  · exact WorkspaceTree.node_setContents_directory.mpr h
  · exact h

end Step

/-! ### Writes -/

section Writes

variable {pwrites : List ℕ} {length start : ℕ} {chunk contents : List UInt8}

lemma length_splice (start : ℕ) (chunk contents : List UInt8) :
    (splice start chunk contents).length = max (start + chunk.length) contents.length := by
  simp only [splice, List.length_append, List.length_take, List.length_replicate, List.length_drop]
  omega

/-- A second write where the first one has ended. -/
lemma splice_splice (start : ℕ) (chunk rest contents : List UInt8) :
    splice (start + chunk.length) rest (splice start chunk contents) = splice start (chunk ++ rest) contents := by
  have hhead : (contents.take start ++ List.replicate (start - contents.length) 0 ++ chunk).length =
      start + chunk.length := by
    simp only [List.length_append, List.length_take, List.length_replicate]
    omega
  rw [splice, length_splice, Nat.sub_eq_zero_of_le (Nat.le_max_left _ _), List.replicate_zero,
    List.append_nil]
  simp only [splice]
  rw [List.take_left' hhead, ← List.drop_drop, List.drop_left' hhead, List.drop_drop, List.length_append]
  simp only [List.append_assoc, Nat.add_assoc]

lemma taken_le (pwrites : List ℕ) (length : ℕ) : taken pwrites length ≤ length := by
  induction pwrites generalizing length with
  | nil => exact Nat.le_refl _
  | cons n pwrites ih =>
    have hrest := ih (length - n)
    rw [taken]
    split
    · exact Nat.zero_le _
    · omega

@[simp] lemma taken_zero (pwrites : List ℕ) : taken pwrites 0 = 0 := Nat.le_zero.mp (taken_le pwrites 0)

lemma taken_cons {n : ℕ} (hlength : length ≠ 0) (hn : n ≠ 0) :
    taken (n :: pwrites) length = min n length + taken pwrites (length - n) := by
  rw [taken, if_neg (not_or.mpr ⟨hlength, hn⟩)]

lemma completes_zero (pwrites : List ℕ) : Completes pwrites 0 := taken_zero pwrites

lemma completes_cons {n : ℕ} (hlength : length ≠ 0) (hn : n ≠ 0) :
    Completes (n :: pwrites) length ↔ Completes pwrites (length - n) := by
  rw [Completes, Completes, taken_cons hlength hn]
  omega

end Writes

/-! ### Calls that wait -/

lemma WorkspaceTree.waits_directory (t : WorkspaceTree) (dir : Object) (name : FileName) (flags : OpenFlags)
    (h : flags.directory = true) : t.waits dir name flags = false := by
  unfold WorkspaceTree.waits
  split
  · rw [h]
    rfl
  · rfl

lemma WorkspaceTree.not_hangs {t : WorkspaceTree} {path : TreePath}
    (h : ∀ reader writer, t.node path ≠ some (.fifo reader writer)) (writable : Bool) :
    t.hangs path writable = false := by
  rw [WorkspaceTree.hangs]
  split
  · exact absurd ‹_› (h _ _)
  · rfl

lemma WorkspaceTree.exists_of_hangs {t : WorkspaceTree} {path : TreePath} {writable : Bool}
    (h : t.hangs path writable = true) : ∃ reader writer, t.node path = some (.fifo reader writer) := by
  by_contra hno
  simp only [not_exists] at hno
  rw [WorkspaceTree.not_hangs hno] at h
  cases h

/-- What is opened by the name of an entry is waited for exactly if it hangs. -/
lemma WorkspaceTree.waits_step (t : WorkspaceTree) (dir : TreePath) {name : FileName} (hname : IsStep name)
    (flags : OpenFlags) (hdirectory : flags.directory = false) :
    t.waits (.inside dir) name flags = t.hangs (dir ++ [name]) flags.writable := by
  rw [WorkspaceTree.waits, hname.resolve]
  cases hnode : t.node (dir ++ [name]) with
  | none =>
    have hno : t.hangs (dir ++ [name]) flags.writable = false := by rw [WorkspaceTree.hangs, hnode]
    rw [hno]
    cases nameErrno name with
    | some errno => rfl
    | none => exact (congrArg (!flags.directory && ·) hno).trans (Bool.and_false _)
  | some n =>
    rw [nameErrno_of_plain (WorkspaceTree.plain_of_node hnode), hdirectory]
    rfl

lemma outcome_openat_waits {origin : Origin} {dir : Object} {name : FileName} {flags : OpenFlags} {k : Kernel}
    (h : k.tree.waits dir name flags = true) :
    Action.outcome (openat origin dir name flags) k =
      (.error .blocked, k.saw .open origin (resolve dir name)) := by
  rw [openat, Action.outcome_bind_ok (Action.outcome_get k), if_pos h]
  rfl

lemma outcome_openat {origin : Origin} {dir : Object} {name : FileName} {flags : OpenFlags} {k : Kernel}
    (h : k.tree.waits dir name flags = false) :
    Action.outcome (openat origin dir name flags) k =
      Action.outcome (perform .open origin fun t => t.openat dir name flags) k := by
  rw [openat, Action.outcome_bind_ok (Action.outcome_get k), if_neg (by rw [h]; exact Bool.false_ne_true)]

/-! ### The write lock -/

section Lock

variable {α : Type} {x : FileAction α} {k k' : Kernel}

lemma outcome_withWriteLock_locked (h : k.locked = true) :
    Action.outcome (withWriteLock x) k = (.error .blocked, k) := if_pos h

lemma outcome_withWriteLock_blocked (h : k.locked = false) (hx : Action.outcome x k = (.error .blocked, k')) :
    Action.outcome (withWriteLock x) k = (.error .blocked, { k' with locked := true }) := by
  show (if k.locked then _ else _) = _
  rw [if_neg (by rw [h]; exact Bool.false_ne_true), hx]

lemma outcome_withWriteLock {r : Except Halt α} (h : k.locked = false) (hx : Action.outcome x k = (r, k'))
    (hr : r ≠ .error .blocked) : Action.outcome (withWriteLock x) k = (r, k') := by
  show (if k.locked then _ else _) = _
  rw [if_neg (by rw [h]; exact Bool.false_ne_true), hx]
  split
  · exact absurd (Prod.mk.inj ‹_›).1 hr
  · rename_i heq
    exact heq.symm

end Lock

end Bloom
