import BloomWorkspaces.Guest.Outcomes

/-!
# What the accounting counts

In a tree whose names are texts and whose files are not too deep, the walk adds up all regular files, each
as often as it has names, as long as there are not too many of them. Too many are noticed when the walk
meets a file of the root after them; below the root the error is dropped.
-/

namespace Bloom

open Action

namespace WorkspaceTree

variable {t : WorkspaceTree} {p q dir : TreePath} {name : FileName} {n : FileNode} {w : FileNode → ℕ}

/-! ### Sums below a path -/

/-- The sum of a weight over the objects at and below a path. -/
def sumBelow (t : WorkspaceTree) (w : FileNode → ℕ) (p : TreePath) : ℕ :=
  (t.entries.map fun e => if p <+: e.path then w e.node else 0).sum

lemma sumBelow_root (t : WorkspaceTree) (w : FileNode → ℕ) : t.sumBelow w [] = t.sum w := by
  simp [sumBelow, sum]

/-- An object that is not a directory stands alone. -/
lemma sumBelow_leaf (h : t.node p = some n) (hn : n ≠ .directory) (w : FileNode → ℕ) :
    t.sumBelow w p = w n := by
  have hp : p ≠ [] := by
    rintro rfl
    rw [node_nil] at h
    exact hn (Option.some.inj h).symm
  obtain ⟨e, he, rfl, rfl⟩ := (node_eq_some_iff hp).mp h
  rw [sumBelow, Table.sum_map_single (List.Nodup.of_map _ t.nodup) he, if_pos List.prefix_rfl]
  intro x hx hne
  apply if_neg
  intro hprefix
  by_cases hpath : e.path = x.path
  · exact hne (Table.eq_of_key_eq t.nodup hx he hpath.symm)
  · have hdir := node_prefix (node_of_mem hx) hprefix hpath
    rw [h] at hdir
    exact hn (Option.some.inj hdir)

/-- Every object below a directory is at or below one of its entries. -/
lemma sumBelow_entry (hdir : t.node p = some .directory) (hw : w .directory = 0) {e : DirEntry}
    (he : e ∈ t.entries) :
    (if p <+: e.path then w e.node else 0) =
      ((t.names p).map fun m => if p ++ [m] <+: e.path then w e.node else 0).sum := by
  by_cases hprefix : p <+: e.path
  · obtain ⟨rest, hrest⟩ := hprefix
    rw [if_pos ⟨rest, hrest⟩]
    cases rest with
    | nil =>
      have hself : w e.node = 0 := by
        rw [List.append_nil] at hrest
        have hnode := node_of_mem he
        rw [← hrest, hdir] at hnode
        rw [← Option.some.inj hnode, hw]
      rw [hself]
      simp
    | cons m rest =>
      have hiff : ∀ m', p ++ [m'] <+: e.path ↔ m' = m := by
        intro m'
        rw [← hrest, List.prefix_append_right_inj, List.cons_prefix_cons]
        exact and_iff_left List.nil_prefix
      have hm : m ∈ t.names p := by
        rw [mem_names]
        by_cases hnil : rest = []
        · rw [hnil] at hrest
          exact ⟨e.node, hrest ▸ node_of_mem he⟩
        · refine ⟨.directory, node_prefix (node_of_mem he) ((hiff m).mpr rfl) ?_⟩
          rw [← hrest]
          simpa using hnil
      rw [Table.sum_map_single (nodup_names t p) hm, if_pos ((hiff m).mpr rfl)]
      intro m' _ hne
      exact if_neg fun h => hne ((hiff m').mp h)
  · rw [if_neg hprefix]
    symm
    apply List.sum_eq_zero
    intro x hx
    obtain ⟨m, -, rfl⟩ := List.mem_map.mp hx
    exact if_neg fun h => hprefix ((List.prefix_append p [m]).trans h)

/-- The sum below a directory is that below its entries. -/
theorem sumBelow_children (hdir : t.node p = some .directory) (hw : w .directory = 0) :
    t.sumBelow w p = ((t.names p).map fun m => t.sumBelow w (p ++ [m])).sum := by
  have hswap : ∀ (l : List DirEntry) (ms : List FileName) (g : DirEntry → FileName → ℕ),
      (l.map fun e => (ms.map (g e)).sum).sum = (ms.map fun m => (l.map fun e => g e m).sum).sum := by
    intro l ms g
    induction l with
    | nil => simp
    | cons e l ih =>
      simp only [List.map_cons, List.sum_cons]
      rw [ih, List.sum_map_add]
  rw [sumBelow, List.map_congr_left fun e he => sumBelow_entry hdir hw he, hswap]
  rfl

/-- No file lies below a path that is as long as the longest path of a file below it. -/
lemma sumBelow_eq_zero (hdir : t.node p = some .directory) (hw : ∀ n : FileNode, n.isFile = false → w n = 0)
    (hdeep : ∀ e ∈ t.entries, e.node.isFile = true → p <+: e.path → e.path.length ≤ p.length) :
    t.sumBelow w p = 0 := by
  apply List.sum_eq_zero
  intro x hx
  obtain ⟨e, he, rfl⟩ := List.mem_map.mp hx
  by_cases hprefix : p <+: e.path
  · rw [if_pos hprefix]
    apply hw
    by_contra hfile
    rw [Bool.not_eq_false] at hfile
    have hpath := hprefix.eq_of_length_le (hdeep e he hfile hprefix)
    have hnode := node_of_mem he
    rw [← hpath, hdir] at hnode
    rw [← Option.some.inj hnode] at hfile
    cases hfile
  · exact if_neg hprefix

/-! ### Trees that the walk counts -/

/-- Every name is a text and no regular file is out of the reach of the walk. -/
structure Accountable (t : WorkspaceTree) : Prop where
  readable : ∀ e ∈ t.entries, Utf8.lossy e.name = e.name
  shallow : ∀ e ∈ t.entries, e.node.isFile = true →
    e.path.length ≤ WorkspaceFiles.maxScanDepth + 1

/-- What files hold is no matter. -/
lemma Accountable.setContents {contents : List UInt8} (h : t.Accountable) :
    (t.setContents p contents).Accountable := by
  rw [WorkspaceTree.setContents]
  split
  · rename_i inode _
    refine ⟨?_, ?_⟩
    · intro e he
      obtain ⟨e', he', rfl⟩ := mem_writeInode.mp he
      rw [(path_inj (rewritten_path inode contents e')).2]
      exact h.readable e' he'
    · intro e he hfile
      obtain ⟨e', he', rfl⟩ := mem_writeInode.mp he
      rw [rewritten_isFile] at hfile
      rw [rewritten_path]
      exact h.shallow e' he' hfile
  · exact h

/-- There is a regular file in the root before which the walk has counted the most files that it may
count. -/
def Overflows (t : WorkspaceTree) : Prop :=
  ∃ before name after contents, t.names [] = before ++ name :: after ∧
    t.node [name] = some (.file contents) ∧
    WorkspaceFiles.maxScanEntries ≤ (before.map fun m => t.sumBelow FileNode.count [m]).sum

end WorkspaceTree

/-! ### The walk -/

section Walk

variable {t : WorkspaceTree} {dir : TreePath} {name : FileName} {names : List FileName} {n : FileNode}
  {enter : Object → WorkspaceFiles.Scan → FileAction (WorkspaceFiles.Scan × Option ControlError)}
  {s : WorkspaceFiles.Scan}

/-- The counters after all objects below some paths. -/
def WorkspaceFiles.Scan.past (s : WorkspaceFiles.Scan) (t : WorkspaceTree) (paths : List TreePath) :
    WorkspaceFiles.Scan :=
  ⟨s.count + (paths.map (t.sumBelow FileNode.count)).sum,
    s.total + (paths.map (t.sumBelow FileNode.size)).sum⟩

/-- The walk of a directory counts what is below it, or counts too much. -/
structure Walks (t : WorkspaceTree)
    (enter : Object → WorkspaceFiles.Scan → FileAction (WorkspaceFiles.Scan × Option ControlError))
    (dir : TreePath) : Prop where
  fits : ∀ s : WorkspaceFiles.Scan, (s.past t [dir]).count ≤ WorkspaceFiles.maxScanEntries →
    Gives t (enter (.inside dir) s) (.ok (s.past t [dir], none)) t
  excess : ∀ s : WorkspaceFiles.Scan, WorkspaceFiles.maxScanEntries < (s.past t [dir]).count →
    ∃ s' e, Gives t (enter (.inside dir) s) (.ok (s', e)) t ∧ WorkspaceFiles.maxScanEntries < s'.count

lemma past_cons (p : TreePath) (paths : List TreePath) :
    s.past t (p :: paths) = (s.past t [p]).past t paths := by
  simp [WorkspaceFiles.Scan.past, Nat.add_assoc]

lemma past_leaf (h : t.node (dir ++ [name]) = some n) (hn : n ≠ .directory) :
    s.past t [dir ++ [name]] = ⟨s.count + n.count, s.total + n.size⟩ := by
  simp [WorkspaceFiles.Scan.past, WorkspaceTree.sumBelow_leaf h hn]

lemma gives_fstatat_entry (h : t.node (dir ++ [name]) = some n) :
    Gives t (fstatat .listing (.inside dir) name) (.ok (.ok n)) t := by
  rw [← fstatat_eq h]
  exact gives_fstatat .listing dir name

lemma scanEntry_fits (h : t.node (dir ++ [name]) = some n)
    (henter : n = .directory → Walks t enter (dir ++ [name]))
    (hfit : (s.past t [dir ++ [name]]).count ≤ WorkspaceFiles.maxScanEntries) :
    Gives t (WorkspaceFiles.scanEntry enter (.inside dir) name s)
      (.ok (s.past t [dir ++ [name]], none)) t := by
  refine Ends.bind_ok (gives_fstatat_entry h) ?_
  cases n with
  | file contents =>
    rw [past_leaf h (by simp)] at hfit ⊢
    have hcount : s.count + 1 ≤ WorkspaceFiles.maxScanEntries := hfit
    simp only
    rw [if_neg (Nat.not_lt.mpr hcount)]
    exact Ends.pure _
  | directory =>
    refine Ends.bind_ok (gives_openat_directory h) ?_
    exact Ends.bind_ok ((henter rfl).fits s hfit) (Ends.pure _)
  | symlink target =>
    rw [past_leaf h (by simp)]
    exact Ends.pure _
  | fifo reader writer =>
    rw [past_leaf h (by simp)]
    exact Ends.pure _
  | socket =>
    rw [past_leaf h (by simp)]
    exact Ends.pure _
  | other =>
    rw [past_leaf h (by simp)]
    exact Ends.pure _

/-- Only a file that is one too many ends the walk of its directory. -/
lemma scanEntry_excess (h : t.node (dir ++ [name]) = some n)
    (henter : n = .directory → Walks t enter (dir ++ [name]))
    (hexcess : WorkspaceFiles.maxScanEntries < (s.past t [dir ++ [name]]).count) :
    ∃ s' e, Gives t (WorkspaceFiles.scanEntry enter (.inside dir) name s) (.ok (s', e)) t ∧
      WorkspaceFiles.maxScanEntries < s'.count ∧
      e = if n.isFile then some WorkspaceFiles.tooManyFiles else none := by
  cases n with
  | file contents =>
    rw [past_leaf h (by simp)] at hexcess
    have hcount : WorkspaceFiles.maxScanEntries < s.count + 1 := hexcess
    refine ⟨{ s with count := s.count + 1 }, _, ?_, hcount, rfl⟩
    refine Ends.bind_ok (gives_fstatat_entry h) ?_
    simp only
    rw [if_pos hcount]
    exact Ends.pure _
  | directory =>
    obtain ⟨s', e, hwalk, hcount⟩ := (henter rfl).excess s hexcess
    refine ⟨s', none, ?_, hcount, rfl⟩
    refine Ends.bind_ok (gives_fstatat_entry h) ?_
    refine Ends.bind_ok (gives_openat_directory h) ?_
    exact Ends.bind_ok hwalk (Ends.pure _)
  | symlink target =>
    rw [past_leaf h (by simp)] at hexcess
    refine ⟨s, none, ?_, hexcess, rfl⟩
    exact Ends.bind_ok (gives_fstatat_entry h) (Ends.pure _)
  | fifo reader writer =>
    rw [past_leaf h (by simp)] at hexcess
    refine ⟨s, none, ?_, hexcess, rfl⟩
    exact Ends.bind_ok (gives_fstatat_entry h) (Ends.pure _)
  | socket =>
    rw [past_leaf h (by simp)] at hexcess
    refine ⟨s, none, ?_, hexcess, rfl⟩
    exact Ends.bind_ok (gives_fstatat_entry h) (Ends.pure _)
  | other =>
    rw [past_leaf h (by simp)] at hexcess
    refine ⟨s, none, ?_, hexcess, rfl⟩
    exact Ends.bind_ok (gives_fstatat_entry h) (Ends.pure _)

/-- The names are those of entries that the walk can read and enter. -/
structure Walkable (t : WorkspaceTree)
    (enter : Object → WorkspaceFiles.Scan → FileAction (WorkspaceFiles.Scan × Option ControlError))
    (dir : TreePath) (names : List FileName) : Prop where
  exists_node : ∀ name ∈ names, ∃ n, t.node (dir ++ [name]) = some n
  readable : ∀ name ∈ names, Utf8.lossy name = name
  walks : ∀ name ∈ names, t.node (dir ++ [name]) = some .directory → Walks t enter (dir ++ [name])

lemma Walkable.tail (h : Walkable t enter dir (name :: names)) : Walkable t enter dir names :=
  ⟨fun m hm => h.exists_node m (List.mem_cons_of_mem _ hm),
    fun m hm => h.readable m (List.mem_cons_of_mem _ hm),
    fun m hm => h.walks m (List.mem_cons_of_mem _ hm)⟩

/-- A readable name is looked up as it is. -/
lemma Walkable.lookup (h : Walkable t enter dir (name :: names)) :
    Utf8.lossy name = name ∧ ¬(name = dot ∨ name = dotDot) := by
  obtain ⟨n, hn⟩ := h.exists_node name List.mem_cons_self
  have hstep := IsStep.of_plain (WorkspaceTree.plain_of_node hn)
  refine ⟨h.readable name List.mem_cons_self, ?_⟩
  rw [not_or]
  exact ⟨hstep.ne_dot, hstep.ne_dotDot⟩

lemma scanNames_next {s' : WorkspaceFiles.Scan}
    {r : Except Halt (WorkspaceFiles.Scan × Option ControlError)}
    (h : Walkable t enter dir (name :: names))
    (hentry : Gives t (WorkspaceFiles.scanEntry enter (.inside dir) name s) (.ok (s', none)) t)
    (hrest : Gives t (WorkspaceFiles.scanNames enter (.inside dir) names s') r t) :
    Gives t (WorkspaceFiles.scanNames enter (.inside dir) (name :: names) s) r t := by
  rw [WorkspaceFiles.scanNames, h.lookup.1, if_neg h.lookup.2]
  exact Ends.bind_ok hentry hrest

lemma scanNames_stop {s' : WorkspaceFiles.Scan} {e : ControlError}
    (h : Walkable t enter dir (name :: names))
    (hentry : Gives t (WorkspaceFiles.scanEntry enter (.inside dir) name s) (.ok (s', some e)) t) :
    Gives t (WorkspaceFiles.scanNames enter (.inside dir) (name :: names) s) (.ok (s', some e)) t := by
  rw [WorkspaceFiles.scanNames, h.lookup.1, if_neg h.lookup.2]
  exact Ends.bind_ok hentry (Ends.pure _)

lemma scanNames_fits (h : Walkable t enter dir names)
    (hfit : (s.past t (names.map fun m => dir ++ [m])).count ≤ WorkspaceFiles.maxScanEntries) :
    Gives t (WorkspaceFiles.scanNames enter (.inside dir) names s)
      (.ok (s.past t (names.map fun m => dir ++ [m]), none)) t := by
  induction names generalizing s with
  | nil => exact Ends.pure _
  | cons name rest ih =>
    obtain ⟨n, hn⟩ := h.exists_node name List.mem_cons_self
    rw [List.map_cons, past_cons] at hfit ⊢
    have hhere : (s.past t [dir ++ [name]]).count ≤ WorkspaceFiles.maxScanEntries :=
      Nat.le_trans (Nat.le_add_right _ _) hfit
    refine scanNames_next h (scanEntry_fits hn ?_ hhere) (ih h.tail hfit)
    rintro rfl
    exact h.walks name List.mem_cons_self hn

/-- Counting too much shows in the counter. -/
lemma scanNames_excess (h : Walkable t enter dir names)
    (hexcess : WorkspaceFiles.maxScanEntries < (s.past t (names.map fun m => dir ++ [m])).count) :
    ∃ s' e, Gives t (WorkspaceFiles.scanNames enter (.inside dir) names s) (.ok (s', e)) t ∧
      WorkspaceFiles.maxScanEntries < s'.count := by
  induction names generalizing s with
  | nil => exact ⟨s, none, Ends.pure _, hexcess⟩
  | cons name rest ih =>
    obtain ⟨n, hn⟩ := h.exists_node name List.mem_cons_self
    have hwalks : n = .directory → Walks t enter (dir ++ [name]) := by
      rintro rfl
      exact h.walks name List.mem_cons_self hn
    rw [List.map_cons, past_cons] at hexcess
    by_cases hhere : (s.past t [dir ++ [name]]).count ≤ WorkspaceFiles.maxScanEntries
    · obtain ⟨s', e, hrest, hcount⟩ := ih h.tail hexcess
      exact ⟨s', e, scanNames_next h (scanEntry_fits hn hwalks hhere) hrest, hcount⟩
    · obtain ⟨s', e, hentry, hcount, rfl⟩ := scanEntry_excess hn hwalks (Nat.not_le.mp hhere)
      cases hfile : n.isFile with
      | true =>
        rw [hfile] at hentry
        exact ⟨s', _, scanNames_stop h hentry, hcount⟩
      | false =>
        rw [hfile] at hentry
        obtain ⟨s'', e, hrest, hcount'⟩ :=
          ih (s := s') h.tail (Nat.lt_of_lt_of_le hcount (Nat.le_add_right _ _))
        exact ⟨s'', e, scanNames_next h hentry hrest, hcount'⟩

/-- A file that is listed after the most files that may be counted is refused. -/
lemma scanNames_overflow {before after : List FileName} {contents : List UInt8}
    (h : Walkable t enter dir (before ++ name :: after))
    (hfile : t.node (dir ++ [name]) = some (.file contents))
    (hcount : WorkspaceFiles.maxScanEntries ≤ (s.past t (before.map fun m => dir ++ [m])).count) :
    ∃ s', Gives t (WorkspaceFiles.scanNames enter (.inside dir) (before ++ name :: after) s)
      (.ok (s', some WorkspaceFiles.tooManyFiles)) t := by
  induction before generalizing s with
  | nil =>
    have hexcess : WorkspaceFiles.maxScanEntries < (s.past t [dir ++ [name]]).count := by
      rw [past_leaf hfile (by simp)]
      exact Nat.lt_succ_of_le hcount
    obtain ⟨s', e, hentry, -, rfl⟩ := scanEntry_excess hfile (fun hd => by cases hd) hexcess
    exact ⟨s', scanNames_stop h hentry⟩
  | cons m before ih =>
    obtain ⟨n, hn⟩ := h.exists_node m List.mem_cons_self
    have hwalks : n = .directory → Walks t enter (dir ++ [m]) := by
      rintro rfl
      exact h.walks m List.mem_cons_self hn
    rw [List.map_cons, past_cons] at hcount
    rw [List.cons_append] at h ⊢
    by_cases hhere : (s.past t [dir ++ [m]]).count ≤ WorkspaceFiles.maxScanEntries
    · obtain ⟨s', hrest⟩ := ih h.tail hcount
      exact ⟨s', scanNames_next h (scanEntry_fits hn hwalks hhere) hrest⟩
    · obtain ⟨s', e, hentry, hexcess, rfl⟩ := scanEntry_excess hn hwalks (Nat.not_le.mp hhere)
      cases hisFile : n.isFile with
      | true =>
        rw [hisFile] at hentry
        exact ⟨s', scanNames_stop h hentry⟩
      | false =>
        rw [hisFile] at hentry
        obtain ⟨s'', hrest⟩ :=
          ih (s := s') h.tail (Nat.le_trans (Nat.le_of_lt hexcess) (Nat.le_add_right _ _))
        exact ⟨s'', scanNames_next h hentry hrest⟩

/-- Below a directory are its entries. -/
lemma past_directory (hdir : t.node dir = some .directory) :
    s.past t [dir] = s.past t ((t.names dir).map fun m => dir ++ [m]) := by
  have hchildren : ∀ w : FileNode → ℕ, w .directory = 0 →
      t.sumBelow w dir = (((t.names dir).map fun m => dir ++ [m]).map (t.sumBelow w)).sum := by
    intro w hw
    rw [WorkspaceTree.sumBelow_children hdir hw, List.map_map]
    rfl
  simp only [WorkspaceFiles.Scan.past, List.map_cons, List.map_nil, List.sum_cons, List.sum_nil,
    Nat.add_zero]
  rw [hchildren _ rfl, hchildren _ rfl]

/-- The entries for the directory and its parent are skipped. -/
lemma scanNames_readdir (enter : Object → WorkspaceFiles.Scan →
    FileAction (WorkspaceFiles.Scan × Option ControlError)) (s : WorkspaceFiles.Scan) :
    WorkspaceFiles.scanNames enter (.inside dir) (t.readdir (.inside dir)) s =
      WorkspaceFiles.scanNames enter (.inside dir) (t.names dir) s := by
  have hdot : Utf8.lossy dot = dot := by decide
  have hdotDot : Utf8.lossy dotDot = dotDot := by decide
  rw [WorkspaceTree.readdir, WorkspaceFiles.scanNames, if_pos (Or.inl hdot),
    WorkspaceFiles.scanNames, if_pos (Or.inr hdotDot)]

lemma gives_walkDirBytes {fuel : ℕ} {r : Except Halt (WorkspaceFiles.Scan × Option ControlError)}
    (hdir : t.node dir = some .directory)
    (h : Gives t (WorkspaceFiles.scanNames (WorkspaceFiles.walkDirBytes fuel) (.inside dir)
      (t.names dir) s) r t) :
    Gives t (WorkspaceFiles.walkDirBytes (fuel + 1) (.inside dir) s) r t := by
  rw [WorkspaceFiles.walkDirBytes]
  refine Ends.bind_ok (gives_openat_dot hdir rfl rfl) ?_
  refine Ends.bind_ok (gives_readdir dir) ?_
  rw [scanNames_readdir]
  exact h

/-- With fuel for the files below it, the walk of a directory counts them. -/
lemma walks_walkDirBytes {fuel : ℕ} (hreadable : ∀ e ∈ t.entries, Utf8.lossy e.name = e.name)
    (hdir : t.node dir = some .directory)
    (hdeep : ∀ e ∈ t.entries, e.node.isFile = true → dir <+: e.path →
      e.path.length ≤ dir.length + fuel) :
    Walks t (WorkspaceFiles.walkDirBytes fuel) dir := by
  induction fuel generalizing dir with
  | zero =>
    have hzero : ∀ w : FileNode → ℕ, (∀ n : FileNode, n.isFile = false → w n = 0) →
        t.sumBelow w dir = 0 := fun w hw => WorkspaceTree.sumBelow_eq_zero hdir hw hdeep
    have hpast : ∀ s : WorkspaceFiles.Scan, s.past t [dir] = s := by
      intro s
      have hcount : t.sumBelow FileNode.count dir = 0 := by
        apply hzero
        intro n hn
        cases n <;> first | rfl | cases hn
      have hsize : t.sumBelow FileNode.size dir = 0 := by
        apply hzero
        intro n hn
        cases n <;> first | rfl | cases hn
      simp [WorkspaceFiles.Scan.past, hcount, hsize]
    refine ⟨?_, ?_⟩
    · intro s _
      rw [hpast]
      exact Ends.pure _
    · intro s hexcess
      rw [hpast] at hexcess
      exact ⟨s, none, Ends.pure _, hexcess⟩
  | succ fuel ih =>
    have hwalkable : Walkable t (WorkspaceFiles.walkDirBytes fuel) dir (t.names dir) := by
      refine ⟨fun m hm => WorkspaceTree.mem_names.mp hm, ?_, ?_⟩
      · intro m hm
        obtain ⟨n, hn⟩ := WorkspaceTree.mem_names.mp hm
        obtain ⟨inode, he⟩ := WorkspaceTree.node_concat.mp hn
        exact hreadable _ he
      · intro m _ hmdir
        refine ih hmdir ?_
        intro e he hfile hprefix
        have hlength := hdeep e he hfile ((List.prefix_append dir [m]).trans hprefix)
        simp only [List.length_append, List.length_singleton]
        omega
    refine ⟨?_, ?_⟩
    · intro s hfit
      rw [past_directory hdir] at hfit ⊢
      exact gives_walkDirBytes hdir (scanNames_fits hwalkable hfit)
    · intro s hexcess
      rw [past_directory hdir] at hexcess
      obtain ⟨s', e, hscan, hcount⟩ := scanNames_excess hwalkable hexcess
      exact ⟨s', e, gives_walkDirBytes hdir hscan, hcount⟩

/-- The walk below the root of an accountable tree. -/
lemma WorkspaceTree.Accountable.walkable (h : t.Accountable) :
    Walkable t (WorkspaceFiles.walkDirBytes WorkspaceFiles.maxScanDepth) [] (t.names []) := by
  refine ⟨fun m hm => WorkspaceTree.mem_names.mp hm, ?_, ?_⟩
  · intro m hm
    obtain ⟨n, hn⟩ := WorkspaceTree.mem_names.mp hm
    obtain ⟨inode, he⟩ := WorkspaceTree.node_concat.mp hn
    exact h.readable _ he
  · intro m _ hmdir
    refine walks_walkDirBytes h.readable hmdir ?_
    intro e he hfile _
    have hlength := h.shallow e he hfile
    simp only [List.nil_append, List.length_singleton]
    omega

lemma usedBytes_eq {r : Except Halt ℕ} (h : Gives t WorkspaceFiles.directoryBytes r t) :
    t.usedBytes = r :=
  ((gives_directoryBytes t).unique (s := .initial t) h rfl).1

/-- An accountable tree without too many files is accounted for name by name. -/
theorem usedBytes_of_accountable (h : t.Accountable)
    (hcount : t.listedFiles ≤ WorkspaceFiles.maxScanEntries) : t.usedBytes = .ok t.listedBytes := by
  have hroot : (⟨0, 0⟩ : WorkspaceFiles.Scan).past t [[]] = ⟨t.listedFiles, t.listedBytes⟩ := by
    simp [WorkspaceFiles.Scan.past, WorkspaceTree.sumBelow_root, WorkspaceTree.listedFiles,
      WorkspaceTree.listedBytes]
  have hwalk : Gives t (WorkspaceFiles.walkDirBytes (WorkspaceFiles.maxScanDepth + 1) (.inside [])
      ⟨0, 0⟩) (.ok (⟨t.listedFiles, t.listedBytes⟩, none)) t := by
    refine gives_walkDirBytes (WorkspaceTree.node_nil t) ?_
    have hscan := scanNames_fits (s := ⟨0, 0⟩) h.walkable
    rw [← past_directory (WorkspaceTree.node_nil t), hroot] at hscan
    exact hscan hcount
  exact usedBytes_eq (Ends.bind_ok hwalk (Ends.pure _))

/-- Too many files before a file of the root are refused. -/
theorem usedBytes_of_overflows (h : t.Accountable) (hoverflow : t.Overflows) :
    t.usedBytes = .error (.error WorkspaceFiles.tooManyFiles) := by
  obtain ⟨before, name, after, contents, hnames, hfile, hcount⟩ := hoverflow
  have hwalkable := h.walkable
  rw [hnames] at hwalkable
  have hpast : WorkspaceFiles.maxScanEntries ≤
      ((⟨0, 0⟩ : WorkspaceFiles.Scan).past t (before.map fun m => [] ++ [m])).count := by
    simp only [WorkspaceFiles.Scan.past, List.map_map, Nat.zero_add]
    exact hcount
  obtain ⟨s', hscan⟩ := scanNames_overflow hwalkable hfile hpast
  rw [← hnames] at hscan
  exact usedBytes_eq (Ends.bind_ok (gives_walkDirBytes (WorkspaceTree.node_nil t) hscan)
    (gives_refuse _))

end Walk

end Bloom
