import BloomWorkspaces.Library.Table
import BloomWorkspaces.Library.Utf8
import Mathlib.Algebra.BigOperators.Group.List.Basic
import Mathlib.Algebra.Order.BigOperators.Group.Finset
import Mathlib.Data.List.Induction

/-!
# The tree below the root of a workspace

The names below the root with the objects that they lead to, in the order in which a directory is
read. Links may point anywhere, and whatever is no directory may have several names, which then have
one inode. Owners, modes and times are left out.
-/

namespace Bloom

/-- The bytes of a name in a directory. -/
abbrev FileName := List UInt8

/-- The names that lead from the root of the workspace to an object. -/
abbrev TreePath := List FileName

/-- What a name leads to: an object of the workspace, or one that is not below its root. -/
inductive Object
  | inside (path : TreePath)
  | outside
  deriving DecidableEq, Repr

/-- An object; `fifo` says whether some process has or gets a named pipe open for reading and for writing
while others wait for it, and `other` is a device. -/
inductive FileNode
  | file (contents : List UInt8)
  | directory
  | symlink (target : Object)
  | fifo (reader writer : Bool)
  | socket
  | other
  deriving DecidableEq, Repr

namespace FileNode

def isFile : FileNode → Bool
  | file _ => true
  | _ => false

/-- The `st_size` of a regular file. -/
def size : FileNode → ℕ
  | file contents => contents.length
  | _ => 0

/-- How many regular files it is. -/
def count : FileNode → ℕ
  | file _ => 1
  | _ => 0

end FileNode

structure DirEntry where
  dir : TreePath
  name : FileName
  inode : ℕ
  node : FileNode
  deriving DecidableEq, Repr

def DirEntry.path (e : DirEntry) : TreePath := e.dir ++ [e.name]

/-- `.` -/
def dot : FileName := [46]

/-- `..` -/
def dotDot : FileName := [46, 46]

/-- `/` -/
def slash : UInt8 := 47

/-- A name that a directory can hold. -/
def isPlainName (name : FileName) : Bool :=
  name ≠ [] && name ≠ dot && name ≠ dotDot && name.length ≤ 255 && !name.contains 0 &&
    !name.contains slash

/-- A tree; `slot` is the choice of the file system where a new entry is listed, and `room` says for which
ones it has room. -/
structure WorkspaceTree where
  entries : List DirEntry
  slot : List DirEntry → ℕ
  room : List DirEntry → TreePath → Bool
  nodup : (entries.map DirEntry.path).Nodup
  plain : ∀ e ∈ entries, isPlainName e.name = true
  closed : ∀ e ∈ entries, e.dir = [] ∨ ∃ d ∈ entries, d.path = e.dir ∧ d.node = .directory
  linked : ∀ e ∈ entries, ∀ e' ∈ entries, e.inode = e'.inode →
    e.path = e'.path ∨ e.node = e'.node ∧ e.node ≠ .directory

namespace WorkspaceTree

/-- The object at a path; the root is a directory. -/
def node (t : WorkspaceTree) (path : TreePath) : Option FileNode :=
  if path = [] then some .directory
  else (t.entries.find? fun e => e.path = path).map DirEntry.node

/-- The inode of what stands at a path below the root. -/
def inodeAt (t : WorkspaceTree) (path : TreePath) : Option ℕ :=
  (t.entries.find? fun e => e.path = path).map DirEntry.inode

/-- The names of a directory, in the order in which they are read. -/
def names (t : WorkspaceTree) (dir : TreePath) : List FileName :=
  (t.entries.filter fun e => e.dir = dir).map DirEntry.name

/-- The objects with their inodes, each of them once. -/
def objects (t : WorkspaceTree) : Finset (ℕ × FileNode) :=
  (t.entries.map fun e => (e.inode, e.node)).toFinset

/-- The sum of a weight over all objects. -/
def total (t : WorkspaceTree) (w : FileNode → ℕ) : ℕ := ∑ o ∈ t.objects, w o.2

/-- The sum of a weight over all names. -/
def sum (t : WorkspaceTree) (w : FileNode → ℕ) : ℕ := (t.entries.map fun e => w e.node).sum

/-- The size of all regular files. -/
def totalBytes (t : WorkspaceTree) : ℕ := t.total FileNode.size

/-- The number of regular files. -/
def fileCount (t : WorkspaceTree) : ℕ := t.total FileNode.count

/-- The size of all regular files, where each name counts. -/
def listedBytes (t : WorkspaceTree) : ℕ := t.sum FileNode.size

/-- The number of names of regular files. -/
def listedFiles (t : WorkspaceTree) : ℕ := t.sum FileNode.count

/-- What stands at the path has no second name. -/
def single (t : WorkspaceTree) (path : TreePath) : Bool :=
  t.entries.all fun e => t.inodeAt path ≠ some e.inode || e.path = path

/-- A regular file with more than one name is empty. -/
def NamedOnce (t : WorkspaceTree) : Prop :=
  ∀ e ∈ t.entries, ∀ e' ∈ t.entries, e.inode = e'.inode → e.node.size = 0 ∨ e.path = e'.path

instance (t : WorkspaceTree) : Decidable t.NamedOnce :=
  inferInstanceAs (Decidable (∀ e ∈ t.entries, ∀ e' ∈ t.entries, _))

variable {t : WorkspaceTree} {p q dir : TreePath} {name : FileName} {n : FileNode} {e e' : DirEntry}
  {inode : ℕ} {w : FileNode → ℕ} {old contents : List UInt8}

/-! ### Lookup -/

@[simp] lemma node_nil (t : WorkspaceTree) : t.node [] = some .directory := by
  simp [node]

lemma path_ne_nil (e : DirEntry) : e.path ≠ [] := by
  simp [DirEntry.path]

lemma path_inj {e e' : DirEntry} (h : e.path = e'.path) : e.dir = e'.dir ∧ e.name = e'.name :=
  List.append_singleton_inj.mp h

/-- What stands at a path other than the root. -/
lemma node_eq_some_iff (hp : p ≠ []) :
    t.node p = some n ↔ ∃ e ∈ t.entries, e.path = p ∧ e.node = n := by
  rw [node, if_neg hp, Option.map_eq_some_iff]
  simp only [Table.find?_key_eq_some t.nodup]
  constructor
  · rintro ⟨e, ⟨he, hpath⟩, hnode⟩
    exact ⟨e, he, hpath, hnode⟩
  · rintro ⟨e, he, hpath, hnode⟩
    exact ⟨e, ⟨he, hpath⟩, hnode⟩

lemma node_of_mem (he : e ∈ t.entries) : t.node e.path = some e.node :=
  (node_eq_some_iff (path_ne_nil e)).mpr ⟨e, he, rfl, rfl⟩

lemma node_concat :
    t.node (dir ++ [name]) = some n ↔ ∃ inode, (⟨dir, name, inode, n⟩ : DirEntry) ∈ t.entries := by
  rw [node_eq_some_iff (by simp)]
  constructor
  · rintro ⟨e, he, hpath, rfl⟩
    obtain ⟨hdir, hname⟩ := List.append_singleton_inj.mp hpath
    rw [← hdir, ← hname]
    exact ⟨e.inode, he⟩
  · rintro ⟨inode, he⟩
    exact ⟨_, he, rfl, rfl⟩

lemma plain_of_node (h : t.node (dir ++ [name]) = some n) : isPlainName name = true := by
  obtain ⟨inode, he⟩ := node_concat.mp h
  exact t.plain _ he

lemma node_dir (h : t.node (dir ++ [name]) = some n) : t.node dir = some .directory := by
  obtain ⟨inode, he⟩ := node_concat.mp h
  cases t.closed _ he with
  | inl hroot =>
    rw [show dir = [] from hroot]
    exact node_nil t
  | inr hparent =>
    obtain ⟨d, hd, hpath, hnode⟩ := hparent
    rw [← show d.path = dir from hpath, node_of_mem hd, hnode]

/-- An object is reached through directories. -/
theorem node_prefix (h : t.node q = some n) (hp : p <+: q) (hne : p ≠ q) :
    t.node p = some .directory := by
  induction q using List.reverseRecOn generalizing n with
  | nil => exact absurd (List.prefix_nil.mp hp) hne
  | append_singleton dir name ih =>
    have hdir := node_dir h
    rcases List.prefix_concat_iff.mp hp with heq | hprefix
    · exact absurd heq hne
    · by_cases hsame : p = dir
      · rw [hsame]
        exact hdir
      · exact ih hdir hprefix hsame

lemma node_of_append (h : t.node (p ++ q) = some .directory) : t.node p = some .directory := by
  by_cases hq : q = []
  · rw [hq, List.append_nil] at h
    exact h
  · refine node_prefix h (List.prefix_append _ _) ?_
    simpa using hq

lemma mem_names : name ∈ t.names dir ↔ ∃ n, t.node (dir ++ [name]) = some n := by
  simp only [names, List.mem_map, List.mem_filter, decide_eq_true_eq, node_concat]
  constructor
  · rintro ⟨e, ⟨he, rfl⟩, rfl⟩
    exact ⟨e.node, e.inode, he⟩
  · rintro ⟨n, inode, he⟩
    exact ⟨_, ⟨he, rfl⟩, rfl⟩

lemma nodup_names (t : WorkspaceTree) (dir : TreePath) : (t.names dir).Nodup := by
  apply List.Nodup.map_on
  · intro e he e' he' hname
    rw [List.mem_filter, decide_eq_true_eq] at he he'
    apply List.inj_on_of_nodup_map t.nodup he.1 he'.1
    rw [DirEntry.path, DirEntry.path, he.2, he'.2, hname]
  · exact (List.Nodup.of_map _ t.nodup).filter _

/-! ### Inodes -/

lemma inodeAt_eq_some_iff : t.inodeAt p = some inode ↔ ∃ e ∈ t.entries, e.path = p ∧ e.inode = inode := by
  rw [inodeAt, Option.map_eq_some_iff]
  simp only [Table.find?_key_eq_some t.nodup, and_assoc]

lemma inodeAt_of_mem (he : e ∈ t.entries) : t.inodeAt e.path = some e.inode :=
  inodeAt_eq_some_iff.mpr ⟨e, he, rfl, rfl⟩

/-- All names of an inode lead to the same object. -/
lemma node_eq_of_inode_eq (he : e ∈ t.entries) (he' : e' ∈ t.entries) (h : e.inode = e'.inode) :
    e.node = e'.node := by
  rcases t.linked e he e' he' h with hpath | hnode
  · rw [Table.eq_of_key_eq t.nodup he he' hpath]
  · exact hnode.1

lemma exists_file (h : t.node p = some (.file old)) :
    ∃ e ∈ t.entries, e.path = p ∧ e.node = .file old := by
  apply (node_eq_some_iff _).mp h
  rintro rfl
  rw [node_nil] at h
  cases h

/-- The number of the inode of a new object. -/
def freshInode (t : WorkspaceTree) : ℕ := (t.entries.map DirEntry.inode).max?.getD 0 + 1

lemma inode_lt_fresh (he : e ∈ t.entries) : e.inode < t.freshInode :=
  Nat.lt_succ_of_le (List.le_max?_getD_of_mem (List.mem_map_of_mem he))

lemma mem_objects {o : ℕ × FileNode} : o ∈ t.objects ↔ ∃ e ∈ t.entries, (e.inode, e.node) = o := by
  rw [objects, List.mem_toFinset, List.mem_map]

/-- What is counted once weighs no more than what is counted for each name. -/
lemma total_le_sum (t : WorkspaceTree) (w : FileNode → ℕ) : t.total w ≤ t.sum w := by
  rw [total, objects, sum]
  induction t.entries with
  | nil => exact Nat.le_refl _
  | cons e rest ih =>
    rw [List.map_cons, List.toFinset_cons, List.map_cons, List.sum_cons]
    by_cases hmem : (e.inode, e.node) ∈ (rest.map fun e => (e.inode, e.node)).toFinset
    · rw [Finset.insert_eq_of_mem hmem]
      exact ih.trans (Nat.le_add_left _ _)
    · rw [Finset.sum_insert hmem]
      exact Nat.add_le_add_left ih _

lemma NamedOnce.totalBytes_eq (h : t.NamedOnce) : t.totalBytes = t.listedBytes := by
  have hgen : ∀ l : List DirEntry, (l.map DirEntry.path).Nodup →
      (∀ e ∈ l, ∀ e' ∈ l, e.inode = e'.inode → e.node.size = 0 ∨ e.path = e'.path) →
      ∑ o ∈ (l.map fun e => (e.inode, e.node)).toFinset, o.2.size =
        (l.map fun e => e.node.size).sum := by
    intro l
    induction l with
    | nil => exact fun _ _ => rfl
    | cons e rest ih =>
      intro hnd honce
      rw [List.map_cons, List.nodup_cons] at hnd
      have hrest := ih hnd.2 fun x hx y hy => honce x (List.mem_cons_of_mem e hx) y (List.mem_cons_of_mem e hy)
      rw [List.map_cons, List.toFinset_cons, List.map_cons, List.sum_cons, ← hrest]
      by_cases hmem : (e.inode, e.node) ∈ (rest.map fun e => (e.inode, e.node)).toFinset
      · rw [Finset.insert_eq_of_mem hmem]
        -- A second name of the object: it is empty.
        obtain ⟨e', he', hpair⟩ := List.mem_map.mp (List.mem_toFinset.mp hmem)
        have hinode : e.inode = e'.inode := (Prod.mk.inj hpair).1.symm
        rcases honce e List.mem_cons_self e' (List.mem_cons_of_mem e he') hinode with hsize | hpath
        · rw [hsize, Nat.zero_add]
        · exact absurd (hpath ▸ List.mem_map_of_mem he') hnd.1
      · rw [Finset.sum_insert hmem]
  exact hgen t.entries t.nodup h

/-- A workspace without anything in it. -/
def empty : WorkspaceTree where
  entries := []
  slot := List.length
  room := fun _ _ => true
  nodup := List.nodup_nil
  plain := fun _ he => absurd he List.not_mem_nil
  closed := fun _ he => absurd he List.not_mem_nil
  linked := fun _ he => absurd he List.not_mem_nil

/-! ### New entries -/

/-- A new entry may be made under the name. -/
structure CanHold (t : WorkspaceTree) (dir : TreePath) (name : FileName) : Prop where
  plain : isPlainName name = true
  parent : t.node dir = some .directory
  free : t.node (dir ++ [name]) = none
  room : t.room t.entries (dir ++ [name]) = true

lemma canHold_iff :
    t.CanHold dir name ↔ isPlainName name = true ∧ t.node dir = some .directory ∧
      t.node (dir ++ [name]) = none ∧ t.room t.entries (dir ++ [name]) = true :=
  ⟨fun h => ⟨h.plain, h.parent, h.free, h.room⟩, fun h => ⟨h.1, h.2.1, h.2.2.1, h.2.2.2⟩⟩

instance (t : WorkspaceTree) (dir : TreePath) (name : FileName) : Decidable (t.CanHold dir name) :=
  decidable_of_iff _ canHold_iff.symm

/-- Put `e` into the list before the element at `n`, or last. -/
def placeAt (n : ℕ) (e : DirEntry) (entries : List DirEntry) : List DirEntry :=
  entries.take n ++ e :: entries.drop n

lemma placeAt_perm (n : ℕ) (e : DirEntry) (entries : List DirEntry) :
    (placeAt n e entries).Perm (e :: entries) := by
  rw [placeAt]
  apply List.perm_middle.trans
  rw [List.take_append_drop]

def insert (t : WorkspaceTree) (dir : TreePath) (name : FileName) (n : FileNode)
    (h : t.CanHold dir name) : WorkspaceTree where
  entries := placeAt (t.slot t.entries) ⟨dir, name, t.freshInode, n⟩ t.entries
  slot := t.slot
  room := t.room
  nodup := by
    have hperm := (placeAt_perm (t.slot t.entries) ⟨dir, name, t.freshInode, n⟩ t.entries).map DirEntry.path
    apply hperm.nodup_iff.mpr
    rw [List.map_cons, List.nodup_cons]
    refine ⟨?_, t.nodup⟩
    intro hmem
    obtain ⟨e', he', hpath⟩ := List.mem_map.mp hmem
    have hnode := node_of_mem he'
    rw [hpath, DirEntry.path, h.free] at hnode
    cases hnode
  plain := by
    intro e' he'
    rcases List.mem_cons.mp ((placeAt_perm _ _ _).mem_iff.mp he') with rfl | hold
    · exact h.plain
    · exact t.plain e' hold
  closed := by
    intro e' he'
    have hold : ∀ d ∈ t.entries, d ∈ placeAt (t.slot t.entries) ⟨dir, name, t.freshInode, n⟩ t.entries :=
      fun d hd => (placeAt_perm _ _ _).mem_iff.mpr (List.mem_cons_of_mem _ hd)
    rcases List.mem_cons.mp ((placeAt_perm _ _ _).mem_iff.mp he') with rfl | hmem
    · by_cases hroot : dir = []
      · exact Or.inl hroot
      · obtain ⟨d, hd, hpath, hnode⟩ := (node_eq_some_iff hroot).mp h.parent
        exact Or.inr ⟨d, hold d hd, hpath, hnode⟩
    · rcases t.closed e' hmem with hroot | ⟨d, hd, hpath, hnode⟩
      · exact Or.inl hroot
      · exact Or.inr ⟨d, hold d hd, hpath, hnode⟩
  linked := by
    intro e he e' he' hinode
    rcases List.mem_cons.mp ((placeAt_perm _ _ _).mem_iff.mp he) with rfl | hold
    · rcases List.mem_cons.mp ((placeAt_perm _ _ _).mem_iff.mp he') with rfl | hold'
      · exact Or.inl rfl
      · exact absurd (inode_lt_fresh hold') (hinode ▸ Nat.lt_irrefl _)
    · rcases List.mem_cons.mp ((placeAt_perm _ _ _).mem_iff.mp he') with rfl | hold'
      · exact absurd (inode_lt_fresh hold) (hinode ▸ Nat.lt_irrefl _)
      · exact t.linked e hold e' hold' hinode

/-- Make an object, where this is possible. -/
def make (t : WorkspaceTree) (dir : TreePath) (name : FileName) (n : FileNode) : WorkspaceTree :=
  if h : t.CanHold dir name then t.insert dir name n h else t

lemma mem_make (h : t.CanHold dir name) :
    e ∈ (t.make dir name n).entries ↔ e = ⟨dir, name, t.freshInode, n⟩ ∨ e ∈ t.entries := by
  rw [make, dif_pos h]
  show e ∈ placeAt _ _ _ ↔ _
  rw [(placeAt_perm _ _ _).mem_iff, List.mem_cons]

lemma make_of_not (h : ¬ t.CanHold dir name) : t.make dir name n = t := by
  rw [make, dif_neg h]

@[simp] lemma room_make : (t.make dir name n).room = t.room := by
  rw [make]
  split <;> rfl

lemma node_make_self (h : t.CanHold dir name) : (t.make dir name n).node (dir ++ [name]) = some n := by
  rw [node_concat]
  exact ⟨t.freshInode, (mem_make h).mpr (Or.inl rfl)⟩

lemma node_make_ne (hp : p ≠ dir ++ [name]) : (t.make dir name n).node p = t.node p := by
  by_cases h : t.CanHold dir name
  · by_cases hnil : p = []
    · rw [hnil, node_nil, node_nil]
    · ext m
      rw [node_eq_some_iff hnil, node_eq_some_iff hnil]
      simp only [mem_make h]
      constructor
      · rintro ⟨e, rfl | he, hpath, hnode⟩
        · exact absurd hpath.symm hp
        · exact ⟨e, he, hpath, hnode⟩
      · rintro ⟨e, he, hpath, hnode⟩
        exact ⟨e, Or.inr he, hpath, hnode⟩
  · rw [make_of_not h]

/-- What is there stays there. -/
lemma node_make_of_some {m : FileNode} (h : t.node p = some m) :
    (t.make dir name n).node p = some m := by
  by_cases hp : p = dir ++ [name]
  · rw [make_of_not, h]
    intro hcan
    rw [hp, hcan.free] at h
    cases h
  · rw [node_make_ne hp, h]

lemma total_make (h : t.CanHold dir name) (w : FileNode → ℕ) :
    (t.make dir name n).total w = w n + t.total w := by
  have hobjects : (t.make dir name n).objects = Insert.insert (t.freshInode, n) t.objects := by
    ext o
    rw [Finset.mem_insert, mem_objects, mem_objects]
    simp only [mem_make h]
    constructor
    · rintro ⟨e, rfl | he, rfl⟩
      · exact Or.inl rfl
      · exact Or.inr ⟨e, he, rfl⟩
    · rintro (rfl | ⟨e, he, rfl⟩)
      · exact ⟨_, Or.inl rfl, rfl⟩
      · exact ⟨e, Or.inr he, rfl⟩
  have hnew : (t.freshInode, n) ∉ t.objects := by
    intro hmem
    obtain ⟨e, he, hpair⟩ := mem_objects.mp hmem
    exact absurd (inode_lt_fresh he) (by rw [(Prod.mk.inj hpair).1]; exact Nat.lt_irrefl _)
  rw [total, hobjects, Finset.sum_insert hnew, total]

lemma sum_make (h : t.CanHold dir name) (w : FileNode → ℕ) :
    (t.make dir name n).sum w = w n + t.sum w := by
  rw [make, dif_pos h]
  show ((placeAt _ _ _).map _).sum = _
  rw [((placeAt_perm _ _ _).map _).sum_eq, List.map_cons, List.sum_cons]
  rfl

/-! ### Contents of files -/

/-- The entry of a regular file with other contents. -/
def withContents (contents : List UInt8) (e : DirEntry) : DirEntry :=
  if e.node.isFile then { e with node := .file contents } else e

lemma withContents_path (contents : List UInt8) (e : DirEntry) :
    (withContents contents e).path = e.path := by
  rw [withContents]
  split <;> rfl

lemma withContents_inode (contents : List UInt8) (e : DirEntry) :
    (withContents contents e).inode = e.inode := by
  rw [withContents]
  split <;> rfl

lemma withContents_of_file (h : e.node = .file old) :
    (withContents contents e).node = .file contents := by
  rw [withContents, if_pos (by rw [h]; rfl)]

lemma withContents_directory_iff :
    (withContents contents e).node = .directory ↔ e.node = .directory := by
  obtain ⟨dir, name, inode, n⟩ := e
  cases n <;> simp [withContents, FileNode.isFile]

/-- The entry after the inode has got other contents. -/
def rewritten (inode : ℕ) (contents : List UInt8) (e : DirEntry) : DirEntry :=
  if e.inode = inode then withContents contents e else e

lemma rewritten_path (inode : ℕ) (contents : List UInt8) (e : DirEntry) :
    (rewritten inode contents e).path = e.path := by
  rw [rewritten]
  split
  · exact withContents_path contents e
  · rfl

lemma rewritten_inode (inode : ℕ) (contents : List UInt8) (e : DirEntry) :
    (rewritten inode contents e).inode = e.inode := by
  rw [rewritten]
  split
  · exact withContents_inode contents e
  · rfl

lemma rewritten_directory_iff :
    (rewritten inode contents e).node = .directory ↔ e.node = .directory := by
  rw [rewritten]
  split
  · exact withContents_directory_iff
  · rfl

lemma rewritten_isFile (inode : ℕ) (contents : List UInt8) (e : DirEntry) :
    (rewritten inode contents e).node.isFile = e.node.isFile := by
  rw [rewritten, withContents]
  split
  · split
    · exact Eq.symm ‹_›
    · rfl
  · rfl

lemma rewritten_of_ne (h : e.inode ≠ inode) : rewritten inode contents e = e := if_neg h

/-- Write over the contents of a regular file, which shows under all of its names. -/
def writeInode (t : WorkspaceTree) (inode : ℕ) (contents : List UInt8) : WorkspaceTree where
  entries := t.entries.map (rewritten inode contents)
  slot := t.slot
  room := t.room
  nodup := by
    have hpaths : t.entries.map (DirEntry.path ∘ rewritten inode contents) = t.entries.map DirEntry.path :=
      List.map_congr_left fun e _ => rewritten_path inode contents e
    rw [List.map_map, hpaths]
    exact t.nodup
  plain := by
    intro e he
    obtain ⟨e', he', rfl⟩ := List.mem_map.mp he
    rw [(path_inj (rewritten_path inode contents e')).2]
    exact t.plain e' he'
  closed := by
    intro e he
    obtain ⟨e', he', rfl⟩ := List.mem_map.mp he
    rw [(path_inj (rewritten_path inode contents e')).1]
    rcases t.closed e' he' with hroot | ⟨d, hd, hpath, hnode⟩
    · exact Or.inl hroot
    · refine Or.inr ⟨_, List.mem_map_of_mem hd, (rewritten_path _ _ d).trans hpath, ?_⟩
      exact rewritten_directory_iff.mpr hnode
  linked := by
    intro e he e' he' hsame
    obtain ⟨d, hd, rfl⟩ := List.mem_map.mp he
    obtain ⟨d', hd', rfl⟩ := List.mem_map.mp he'
    rw [rewritten_inode, rewritten_inode] at hsame
    rw [rewritten_path, rewritten_path]
    rcases t.linked d hd d' hd' hsame with hpath | ⟨hnode, hdirectory⟩
    · exact Or.inl hpath
    · refine Or.inr ⟨?_, fun h => hdirectory (rewritten_directory_iff.mp h)⟩
      rw [rewritten, rewritten, hsame, withContents, withContents, hnode]
      split
      · split
        · rfl
        · exact hnode
      · exact hnode

/-- Write over the contents of the regular file at a path. -/
def setContents (t : WorkspaceTree) (path : TreePath) (contents : List UInt8) : WorkspaceTree :=
  match t.inodeAt path with
  | some inode => t.writeInode inode contents
  | none => t

lemma mem_writeInode :
    e ∈ (t.writeInode inode contents).entries ↔ ∃ e' ∈ t.entries, rewritten inode contents e' = e :=
  List.mem_map

lemma setContents_eq (h : t.inodeAt p = some inode) : t.setContents p contents = t.writeInode inode contents := by
  rw [setContents, h]

lemma inodeAt_writeInode : (t.writeInode inode contents).inodeAt p = t.inodeAt p := by
  ext i
  simp only [inodeAt_eq_some_iff, mem_writeInode]
  constructor
  · rintro ⟨_, ⟨e, he, rfl⟩, hpath, hinode⟩
    rw [rewritten_path] at hpath
    rw [rewritten_inode] at hinode
    exact ⟨e, he, hpath, hinode⟩
  · rintro ⟨e, he, hpath, hinode⟩
    exact ⟨_, ⟨e, he, rfl⟩, (rewritten_path _ _ e).trans hpath, (rewritten_inode _ _ e).trans hinode⟩

lemma inodeAt_of_file (h : t.node p = some (.file old)) : ∃ inode, t.inodeAt p = some inode := by
  obtain ⟨e, he, rfl, -⟩ := exists_file h
  exact ⟨e.inode, inodeAt_of_mem he⟩

lemma node_writeInode (he : e ∈ t.entries) :
    (t.writeInode inode contents).node e.path = some (rewritten inode contents e).node := by
  rw [← rewritten_path inode contents e]
  exact node_of_mem (mem_writeInode.mpr ⟨e, he, rfl⟩)

lemma node_writeInode_self (hp : t.inodeAt p = some inode) (h : t.node p = some (.file old)) :
    (t.writeInode inode contents).node p = some (.file contents) := by
  obtain ⟨e, he, rfl, hnode⟩ := exists_file h
  rw [inodeAt_of_mem he] at hp
  rw [node_writeInode he, rewritten, if_pos (Option.some.inj hp), withContents_of_file hnode]

/-- Directories stay directories. -/
lemma node_writeInode_directory :
    (t.writeInode inode contents).node q = some .directory ↔ t.node q = some .directory := by
  by_cases hnil : q = []
  · rw [hnil, node_nil, node_nil]
  · rw [node_eq_some_iff hnil, node_eq_some_iff hnil]
    constructor
    · rintro ⟨_, hmem, hpath, hnode⟩
      obtain ⟨e, he, rfl⟩ := mem_writeInode.mp hmem
      rw [rewritten_path] at hpath
      exact ⟨e, he, hpath, rewritten_directory_iff.mp hnode⟩
    · rintro ⟨e, he, hpath, hnode⟩
      exact ⟨_, mem_writeInode.mpr ⟨e, he, rfl⟩, (rewritten_path _ _ e).trans hpath,
        rewritten_directory_iff.mpr hnode⟩

lemma node_setContents_directory :
    (t.setContents p contents).node q = some .directory ↔ t.node q = some .directory := by
  rw [setContents]
  split
  · exact node_writeInode_directory
  · rfl

lemma node_setContents_self (h : t.node p = some (.file old)) :
    (t.setContents p contents).node p = some (.file contents) := by
  obtain ⟨inode, hinode⟩ := inodeAt_of_file h
  rw [setContents_eq hinode]
  exact node_writeInode_self hinode h

/-- The sum over the objects changes by the one whose contents change, whatever names it has. -/
lemma total_setContents (h : t.node p = some (.file old)) (w : FileNode → ℕ) :
    (t.setContents p contents).total w + w (.file old) = t.total w + w (.file contents) := by
  obtain ⟨e, he, rfl, hnode⟩ := exists_file h
  rw [setContents_eq (inodeAt_of_mem he)]
  have hold : (e.inode, FileNode.file old) ∈ t.objects := mem_objects.mpr ⟨e, he, by rw [hnode]⟩
  have hnew : (e.inode, FileNode.file contents) ∉ t.objects.erase (e.inode, .file old) := by
    intro hmem
    obtain ⟨hne, hin⟩ := Finset.mem_erase.mp hmem
    obtain ⟨e', he', hpair⟩ := mem_objects.mp hin
    obtain ⟨hinode, hnode'⟩ := Prod.mk.inj hpair
    rw [← hnode', node_eq_of_inode_eq he' he hinode, hnode] at hne
    exact hne rfl
  have hobjects : (t.writeInode e.inode contents).objects =
      Insert.insert (e.inode, .file contents) (t.objects.erase (e.inode, .file old)) := by
    ext o
    rw [Finset.mem_insert, Finset.mem_erase, mem_objects, mem_objects]
    constructor
    · rintro ⟨_, hmem, rfl⟩
      obtain ⟨d, hd, rfl⟩ := mem_writeInode.mp hmem
      by_cases hinode : d.inode = e.inode
      · left
        rw [rewritten, if_pos hinode, withContents_inode, hinode,
          withContents_of_file ((node_eq_of_inode_eq hd he hinode).trans hnode)]
      · rw [rewritten_of_ne hinode]
        exact Or.inr ⟨fun heq => hinode (Prod.mk.inj heq).1, d, hd, rfl⟩
    · rintro (rfl | ⟨hne, d, hd, rfl⟩)
      · refine ⟨_, mem_writeInode.mpr ⟨e, he, rfl⟩, ?_⟩
        rw [rewritten, if_pos rfl, withContents_inode, withContents_of_file hnode]
      · refine ⟨_, mem_writeInode.mpr ⟨d, hd, rfl⟩, ?_⟩
        rw [rewritten_of_ne]
        intro hinode
        rw [hinode, (node_eq_of_inode_eq hd he hinode).trans hnode] at hne
        exact hne rfl
  rw [total, hobjects, Finset.sum_insert hnew, total, ← Finset.add_sum_erase _ _ hold]
  simp only
  omega

lemma mem_of_single (hsingle : t.single p = true) (he : e ∈ t.entries)
    (hinode : t.inodeAt p = some e.inode) : e.path = p := by
  simp only [single, List.all_eq_true, Bool.or_eq_true, decide_eq_true_eq] at hsingle
  exact (hsingle e he).resolve_left fun hne => hne hinode

/-- The sum over the names does so too where the object has no other name. -/
lemma sum_setContents (hsingle : t.single p = true) (h : t.node p = some (.file old))
    (w : FileNode → ℕ) :
    (t.setContents p contents).sum w + w (.file old) = t.sum w + w (.file contents) := by
  obtain ⟨e, he, rfl, hnode⟩ := exists_file h
  rw [setContents_eq (inodeAt_of_mem he)]
  have hentries : (t.writeInode e.inode contents).entries =
      Table.updateWhere (fun d => d.path = e.path) (withContents contents) t.entries := by
    refine List.map_congr_left fun d hd => ?_
    rw [rewritten]
    by_cases hpath : d.path = e.path
    · rw [Table.eq_of_key_eq t.nodup hd he hpath, if_pos rfl, if_pos (decide_eq_true rfl)]
    · rw [if_neg, if_neg (by simpa using hpath)]
      intro hinode
      exact hpath (mem_of_single hsingle hd (by rw [inodeAt_of_mem he, hinode]))
  have hsum := Table.sum_updateWhere_key t.nodup he (withContents contents) fun e => w e.node
  rw [withContents_of_file hnode, hnode] at hsum
  rw [sum, hentries]
  exact hsum

/-! ### Removal -/

/-- Remove what stands at a path, unless it is a directory. -/
def remove (t : WorkspaceTree) (path : TreePath) : WorkspaceTree where
  entries := Table.deleteWhere (fun e => e.path = path && e.node ≠ .directory) t.entries
  slot := t.slot
  room := t.room
  nodup := (Table.map_deleteWhere_sublist _ _ _).nodup t.nodup
  plain := by
    intro e he
    exact t.plain e (Table.mem_deleteWhere.mp he).1
  closed := by
    intro e he
    rcases t.closed e (Table.mem_deleteWhere.mp he).1 with hroot | ⟨d, hd, hpath, hnode⟩
    · exact Or.inl hroot
    · refine Or.inr ⟨d, Table.mem_deleteWhere.mpr ⟨hd, ?_⟩, hpath, hnode⟩
      simp [hnode]
  linked := by
    intro e he e' he'
    exact t.linked e (Table.mem_deleteWhere.mp he).1 e' (Table.mem_deleteWhere.mp he').1

/-- Removing a name leaves no more than there was. -/
lemma total_remove_le (t : WorkspaceTree) (p : TreePath) (w : FileNode → ℕ) :
    (t.remove p).total w ≤ t.total w := by
  refine Finset.sum_le_sum_of_subset fun o ho => ?_
  obtain ⟨e, he, hpair⟩ := mem_objects.mp ho
  exact mem_objects.mpr ⟨e, (Table.mem_deleteWhere.mp he).1, hpair⟩

end WorkspaceTree

end Bloom
