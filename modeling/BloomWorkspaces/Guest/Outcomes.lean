import BloomWorkspaces.Guest.WorkspaceFiles

/-!
# What the file operations do to the tree

For every tree, how an operation ends and which tree it leaves, whatever has been logged before, as long
as the write lock is free. A refused operation may leave new directories and a new empty file, and a write
that fails half-way a part of its chunk.
-/

namespace Bloom

open Action

namespace WorkspaceTree

variable {t t' t'' : WorkspaceTree} {dir p q : TreePath} {name : FileName} {names : List FileName}
  {n : FileNode} {create : Bool} {contents contents' : List UInt8}

/-! ### Contents written twice -/

@[ext] lemma ext_entries (h : t.entries = t'.entries) (hslot : t.slot = t'.slot)
    (hroom : t.room = t'.room) : t = t' := by
  cases t
  cases t'
  cases h
  cases hslot
  cases hroom
  rfl

lemma withContents_withContents (e : DirEntry) :
    withContents contents' (withContents contents e) = withContents contents' e := by
  obtain ⟨dir, name, inode, n⟩ := e
  cases n <;> rfl

lemma writeInode_writeInode {inode : ℕ} :
    (t.writeInode inode contents).writeInode inode contents' = t.writeInode inode contents' := by
  refine ext_entries ?_ rfl rfl
  show (t.entries.map _).map _ = t.entries.map _
  rw [List.map_map]
  refine List.map_congr_left fun e _ => ?_
  rw [Function.comp_apply]
  by_cases h : e.inode = inode
  · rw [rewritten, rewritten_inode, if_pos h, rewritten, if_pos h, rewritten, if_pos h,
      withContents_withContents]
  · rw [rewritten_of_ne h, rewritten_of_ne h]

lemma setContents_setContents :
    (t.setContents q contents).setContents q contents' = t.setContents q contents' := by
  cases hinode : t.inodeAt q with
  | none => simp only [setContents, hinode]
  | some inode =>
    rw [setContents_eq hinode, setContents_eq hinode,
      setContents_eq (inodeAt_writeInode.trans hinode), writeInode_writeInode]

/-- Writing what is there changes nothing. -/
lemma setContents_self (h : t.node q = some (.file contents)) : t.setContents q contents = t := by
  obtain ⟨e, he, rfl, hnode⟩ := exists_file h
  rw [setContents_eq (inodeAt_of_mem he)]
  refine ext_entries ?_ rfl rfl
  conv_rhs => rw [← List.map_id t.entries]
  refine List.map_congr_left fun d hd => ?_
  rw [rewritten, id]
  split
  · rename_i hinode
    have hsame := (node_eq_of_inode_eq hd he hinode).trans hnode
    rw [withContents, if_pos (by rw [hsame]; rfl), ← hsame]
  · rfl

/-! ### Growth -/

/-- `t'` holds what `t` holds, and besides only directories and empty files. -/
structure Grows (t t' : WorkspaceTree) : Prop where
  kept : ∀ p n, t.node p = some n → t'.node p = some n
  added : ∀ p n, t'.node p = some n → t.node p = some n ∨ n = .directory ∨ n = .file []
  total : t'.totalBytes = t.totalBytes
  listed : t'.listedBytes = t.listedBytes

namespace Grows

lemma refl (t : WorkspaceTree) : Grows t t := ⟨fun _ _ h => h, fun _ _ h => Or.inl h, rfl, rfl⟩

lemma trans (h : Grows t t') (h' : Grows t' t'') : Grows t t'' := by
  refine ⟨fun p n hn => h'.kept p n (h.kept p n hn), ?_, h'.total.trans h.total,
    h'.listed.trans h.listed⟩
  intro p n hn
  rcases h'.added p n hn with hold | hnew
  · exact h.added p n hold
  · exact Or.inr hnew

lemma make (hn : n = .directory ∨ n = .file []) : Grows t (t.make dir name n) := by
  by_cases hcan : t.CanHold dir name
  · refine ⟨fun p m hm => node_make_of_some hm, ?_, ?_, ?_⟩
    · intro p m hm
      by_cases hp : p = dir ++ [name]
      · rw [hp, node_make_self hcan] at hm
        cases hm
        exact Or.inr hn
      · rw [node_make_ne hp] at hm
        exact Or.inl hm
    · rw [totalBytes, total_make hcan]
      rcases hn with rfl | rfl <;> exact Nat.zero_add _
    · rw [listedBytes, sum_make hcan]
      rcases hn with rfl | rfl <;> exact Nat.zero_add _
  · rw [make_of_not hcan]
    exact refl t

end Grows

/-! ### Parents -/

/-- The tree after the directories below `dir` have been entered, made on the way or not. -/
def enter (create : Bool) : WorkspaceTree → TreePath → List FileName → WorkspaceTree
  | t, _, [] => t
  | t, dir, name :: rest =>
    enter create (if create then t.make dir name .directory else t) (dir ++ [name]) rest

lemma enter_false (t : WorkspaceTree) (dir : TreePath) (names : List FileName) :
    t.enter false dir names = t := by
  induction names generalizing dir with
  | nil => rfl
  | cons name rest ih => exact ih (dir ++ [name])

@[simp] lemma room_enter : (t.enter create dir names).room = t.room := by
  induction names generalizing t dir with
  | nil => rfl
  | cons name rest ih =>
    rw [enter, ih]
    split
    · exact room_make
    · rfl

lemma grows_enter : Grows t (t.enter create dir names) := by
  induction names generalizing t dir with
  | nil => exact Grows.refl t
  | cons name rest ih =>
    rw [enter]
    refine Grows.trans ?_ ih
    split
    · exact Grows.make (Or.inl rfl)
    · exact Grows.refl t

/-- What is not below the directory stays as it is. -/
lemma node_enter (hp : p.length ≤ dir.length) : (t.enter create dir names).node p = t.node p := by
  induction names generalizing t dir with
  | nil => rfl
  | cons name rest ih =>
    rw [enter, ih (by simp; omega)]
    split
    · apply node_make_ne
      rintro rfl
      rw [List.length_append, List.length_singleton] at hp
      omega
    · rfl

/-- Directories that are there are entered as they are. -/
lemma enter_existing (h : t.node (dir ++ names) = some .directory) : t.enter create dir names = t := by
  induction names generalizing dir with
  | nil => rfl
  | cons name rest ih =>
    rw [List.append_cons] at h
    have hsame : (if create then t.make dir name .directory else t) = t := by
      split
      · apply make_of_not
        intro hcan
        have hnone := hcan.free
        rw [node_of_append h] at hnone
        cases hnone
      · rfl
    rw [enter, hsame, ih h]

/-- Missing directories are made where there is room. -/
lemma isDirectory_enter (hroom : ∀ entries p, t.room entries p = true) (hdir : t.node dir = some .directory)
    (hplain : ∀ name ∈ names, isPlainName name = true)
    (hfree : ∀ p, p <+: names → t.node (dir ++ p) = some .directory ∨ t.node (dir ++ p) = none) :
    (t.enter true dir names).node (dir ++ names) = some .directory := by
  induction names generalizing t dir with
  | nil =>
    rw [List.append_nil]
    exact hdir
  | cons name rest ih =>
    have hhere : (t.make dir name .directory).node (dir ++ [name]) = some .directory := by
      rcases hfree [name] (List.cons_prefix_cons.mpr ⟨rfl, List.nil_prefix⟩) with hsome | hnone
      · exact node_make_of_some hsome
      · exact node_make_self ⟨hplain name List.mem_cons_self, hdir, hnone, hroom _ _⟩
    have hroom' : ∀ entries p, (t.make dir name .directory).room entries p = true := by
      intro entries p
      rw [room_make]
      exact hroom entries p
    rw [enter, if_pos rfl, List.append_cons dir name rest]
    refine ih hroom' hhere (fun m hm => hplain m (List.mem_cons_of_mem _ hm)) ?_
    intro p hp
    by_cases hnil : p = []
    · rw [hnil, List.append_nil]
      exact Or.inl hhere
    · rw [node_make_ne, ← List.append_cons dir name p]
      · exact hfree (name :: p) (List.cons_prefix_cons.mpr ⟨rfl, hp⟩)
      · simpa using hnil

end WorkspaceTree

/-! ### System calls -/

/-- What matters of the kernel is the tree and the write lock. -/
def Kernel.shown (k : Kernel) : WorkspaceTree × Bool := (k.tree, k.locked)

/-- How a program ends from a tree, and with which tree, while nobody has the write lock. -/
abbrev Gives {α : Type} (t : WorkspaceTree) (x : FileAction α) (r : Except Halt α)
    (t' : WorkspaceTree) : Prop :=
  Ends Kernel.shown (t, false) x r (t', false)

section Calls

variable {t t' : WorkspaceTree} {dir : TreePath} {name : FileName} {object : Object} {errno : Errno}
  {call : Call} {origin : Origin} {f : WorkspaceTree → Except Errno (Object × WorkspaceTree)}
  {flags : OpenFlags}

lemma Gives.of_tree {α : Type} {x : FileAction α} {r : Except Halt α}
    (h : ∀ k : Kernel, k.locked = false → k.tree = t →
      ∃ k', outcome x k = (r, k') ∧ k'.tree = t' ∧ k'.locked = false) : Gives t x r t' := by
  intro k hk
  obtain ⟨htree, hlocked⟩ := Prod.mk.inj hk
  obtain ⟨k', hrun, htree', hlocked'⟩ := h k hlocked htree
  exact ⟨k', hrun, Prod.ext htree' hlocked'⟩

lemma gives_perform_ok (h : f t = .ok (object, t')) :
    Gives t (perform call origin f) (.ok (.ok object)) t' := by
  refine Gives.of_tree fun k hlocked htree => ?_
  subst htree
  refine ⟨{ k.saw call origin object with tree := t' }, ?_, rfl, hlocked⟩
  simp [perform, h]

lemma gives_perform_error (h : f t = .error errno) :
    Gives t (perform call origin f) (.ok (.error errno)) t := by
  refine Gives.of_tree fun k hlocked htree => ?_
  subst htree
  refine ⟨k, ?_, rfl, hlocked⟩
  simp [perform, h]

lemma gives_observe {α : Type} (f : WorkspaceTree → α) :
    Gives t (observe call origin object f) (.ok (f t)) t := by
  refine Gives.of_tree fun k hlocked htree => ?_
  subst htree
  exact ⟨k.saw call origin object, rfl, rfl, hlocked⟩

lemma gives_alter (f : List UInt8 → List UInt8) :
    Gives t (alter call object f) (.ok ()) (t.update object f) := by
  refine Gives.of_tree fun k hlocked htree => ?_
  subst htree
  exact ⟨{ k.saw call .request object with tree := k.tree.update object f }, rfl, rfl, hlocked⟩

lemma gives_refuse {α : Type} (e : ControlError) : Gives t (refuse e : FileAction α) (.error (.error e)) t :=
  Ends.throw _

/-- A call that does not wait. -/
lemma gives_openat {r : Except Halt (Except Errno Object)} {dir : Object} (hwaits : t.waits dir name flags = false)
    (h : Gives t (perform .open origin fun t => t.openat dir name flags) r t') :
    Gives t (openat origin dir name flags) r t' := by
  intro k hk
  obtain ⟨k', hrun, hk'⟩ := h k hk
  obtain ⟨rfl, hlocked⟩ := Prod.mk.inj hk
  exact ⟨k', (outcome_openat hwaits).trans hrun, hk'⟩

lemma gives_openat_waits {dir : Object} (hwaits : t.waits dir name flags = true) :
    Gives t (openat origin dir name flags) (.error .blocked) t := by
  refine Gives.of_tree fun k hlocked htree => ?_
  subst htree
  exact ⟨_, outcome_openat_waits hwaits, rfl, hlocked⟩

lemma gives_openat_directory (h : t.node (dir ++ [name]) = some .directory) :
    Gives t (openat origin (.inside dir) name WorkspaceFiles.directoryFlags)
      (.ok (.ok (.inside (dir ++ [name])))) t := by
  have hplain := WorkspaceTree.plain_of_node h
  refine gives_openat (t.waits_directory _ _ _ rfl) (gives_perform_ok ?_)
  simp [WorkspaceTree.openat, nameErrno_of_plain hplain, (IsStep.of_plain hplain).resolve, h,
    WorkspaceFiles.directoryFlags]

lemma gives_openat_no_directory (origin : Origin) (hname : IsStep name) (h : t.node (dir ++ [name]) ≠ some .directory) :
    ∃ errno, Gives t (openat origin (.inside dir) name WorkspaceFiles.directoryFlags)
      (.ok (.error errno)) t := by
  have hwaits := t.waits_directory (.inside dir) name WorkspaceFiles.directoryFlags rfl
  cases hopen : t.openat (.inside dir) name WorkspaceFiles.directoryFlags with
  | error errno => exact ⟨errno, gives_openat hwaits (gives_perform_error hopen)⟩
  | ok result =>
    obtain ⟨-, -, hcases⟩ := openat_ok hname rfl hopen
    rcases hcases with ⟨n, hnode, -, hn, -⟩ | ⟨hcreate, -⟩
    · rw [hnode, hn rfl] at h
      exact absurd rfl h
    · cases hcreate

lemma gives_openat_dot (hdir : t.node dir = some .directory) (hdirectory : flags.directory = true)
    (hflags : flags.writable = false) :
    Gives t (openat origin (.inside dir) dot flags) (.ok (.ok (.inside dir))) t :=
  gives_openat (t.waits_directory _ _ _ hdirectory) (gives_perform_ok (openat_dot hdir hflags))

lemma gives_makeParent (hname : IsStep name) :
    Gives t (WorkspaceFiles.makeParent (.inside dir) name) (.ok ()) (t.make dir name .directory) := by
  rcases mkdirat_eq t dir hname with ⟨hok, -⟩ | ⟨⟨errno, herror⟩, hcan⟩
  · exact Ends.bind_ok (gives_perform_ok hok) (gives_observe _)
  · rw [WorkspaceTree.make_of_not hcan]
    exact Ends.bind_ok (gives_perform_error herror) (Ends.pure _)

lemma gives_onlyIf {x : FileAction Unit} {flag : Bool} (h : flag = true → Gives t x (.ok ()) t') :
    Gives t (WorkspaceFiles.onlyIf flag x) (.ok ()) (if flag then t' else t) := by
  cases flag with
  | true => exact h rfl
  | false => exact Ends.pure ()

end Calls

/-! ### The write lock -/

section Lock

variable {α : Type} {t t' : WorkspaceTree} {x : FileAction α} {r : Except Halt α}

lemma gives_withWriteLock (hx : Gives t x r t') (hr : r ≠ .error .blocked) :
    Gives t (withWriteLock x) r t' := by
  intro k hk
  obtain ⟨k', hrun, hk'⟩ := hx k hk
  exact ⟨k', outcome_withWriteLock (Prod.mk.inj hk).2 hrun hr, hk'⟩

/-- A call that waits for ever in the section keeps the lock. -/
lemma ends_withWriteLock_blocked (hx : Gives t x (.error .blocked) t') :
    Ends Kernel.shown (t, false) (withWriteLock x) (.error .blocked) (t', true) := by
  intro k hk
  obtain ⟨k', hrun, hk'⟩ := hx k hk
  exact ⟨_, outcome_withWriteLock_blocked (Prod.mk.inj hk).2 hrun, Prod.ext (Prod.mk.inj hk').1 rfl⟩

end Lock

/-! ### Opening -/

section Opening

variable {t : WorkspaceTree} {dir : TreePath} {parts : List String} {create : Bool}

lemma gives_descend_ok (hparts : ∀ part ∈ parts, IsStep (WorkspaceFiles.fileName part))
    (h : (t.enter create dir (parts.map WorkspaceFiles.fileName)).node
      (dir ++ parts.map WorkspaceFiles.fileName) = some .directory) :
    Gives t (WorkspaceFiles.descend create (.inside dir) parts)
      (.ok (.inside (dir ++ parts.map WorkspaceFiles.fileName)))
      (t.enter create dir (parts.map WorkspaceFiles.fileName)) := by
  induction parts generalizing t dir with
  | nil =>
    rw [List.map_nil, List.append_nil]
    exact Ends.pure _
  | cons part parts ih =>
    rw [List.map_cons, WorkspaceTree.enter,
      List.append_cons dir (WorkspaceFiles.fileName part) (parts.map WorkspaceFiles.fileName)] at h ⊢
    have hhere : (if create then t.make dir (WorkspaceFiles.fileName part) .directory else t).node
        (dir ++ [WorkspaceFiles.fileName part]) = some .directory := by
      have hfinal := WorkspaceTree.node_of_append h
      rwa [WorkspaceTree.node_enter (Nat.le_refl _)] at hfinal
    refine Ends.bind_ok (gives_onlyIf fun _ => gives_makeParent (hparts part List.mem_cons_self)) ?_
    refine Ends.bind_ok (gives_openat_directory hhere) ?_
    refine Ends.bind_ok (Ends.pure _) ?_
    exact ih (fun p hp => hparts p (List.mem_cons_of_mem _ hp)) h

lemma gives_descend_error (hparts : ∀ part ∈ parts, IsStep (WorkspaceFiles.fileName part))
    (hdir : t.node dir = some .directory)
    (h : (t.enter create dir (parts.map WorkspaceFiles.fileName)).node
      (dir ++ parts.map WorkspaceFiles.fileName) ≠ some .directory) :
    ∃ e t', Gives t (WorkspaceFiles.descend create (.inside dir) parts) (.error (.error e)) t' ∧
      t.Grows t' ∧ (create = false → t' = t) ∧
      ∀ p : TreePath, dir.length + parts.length < p.length → t'.node p = t.node p := by
  induction parts generalizing t dir with
  | nil =>
    rw [List.map_nil, List.append_nil] at h
    exact absurd hdir h
  | cons part parts ih =>
    rw [List.map_cons, WorkspaceTree.enter,
      List.append_cons dir (WorkspaceFiles.fileName part) (parts.map WorkspaceFiles.fileName)] at h
    have hname := hparts part List.mem_cons_self
    have hmake : Gives t (WorkspaceFiles.onlyIf create
        (WorkspaceFiles.makeParent (.inside dir) (WorkspaceFiles.fileName part))) (.ok ())
        (if create then t.make dir (WorkspaceFiles.fileName part) .directory else t) :=
      gives_onlyIf fun _ => gives_makeParent hname
    have hgrows : t.Grows
        (if create then t.make dir (WorkspaceFiles.fileName part) .directory else t) := by
      split
      · exact .make (Or.inl rfl)
      · exact .refl t
    have hsame : create = false →
        (if create then t.make dir (WorkspaceFiles.fileName part) .directory else t) = t := by
      rintro rfl
      rfl
    have hbelow : ∀ p : TreePath, dir.length + (part :: parts).length < p.length →
        (if create then t.make dir (WorkspaceFiles.fileName part) .directory else t).node p =
          t.node p := by
      intro p hp
      split
      · apply WorkspaceTree.node_make_ne
        rintro rfl
        simp only [List.length_append, List.length_cons, List.length_nil] at hp
        omega
      · rfl
    by_cases hhere : (if create then t.make dir (WorkspaceFiles.fileName part) .directory else t).node
        (dir ++ [WorkspaceFiles.fileName part]) = some .directory
    · obtain ⟨e, t', hrest, hgrows', hsame', hbelow'⟩ :=
        ih (fun p hp => hparts p (List.mem_cons_of_mem _ hp)) hhere h
      refine ⟨e, t', ?_, hgrows.trans hgrows', fun hc => (hsame' hc).trans (hsame hc), ?_⟩
      · refine Ends.bind_ok hmake ?_
        refine Ends.bind_ok (gives_openat_directory hhere) ?_
        exact Ends.bind_ok (Ends.pure _) hrest
      · intro p hp
        refine (hbelow' p ?_).trans (hbelow p hp)
        simp only [List.length_append, List.length_cons, List.length_nil] at hp ⊢
        omega
    · obtain ⟨errno, hopen⟩ := gives_openat_no_directory .request hname hhere
      refine ⟨fromIoError errno, _, ?_, hgrows, hsame, hbelow⟩
      refine Ends.bind_ok hmake ?_
      refine Ends.bind_ok hopen ?_
      exact Ends.bind_error (Ends.throw _)

lemma gives_openDirectory_ok (hparts : ∀ part ∈ parts, IsStep (WorkspaceFiles.fileName part))
    (h : (t.enter create [] (parts.map WorkspaceFiles.fileName)).node
      (parts.map WorkspaceFiles.fileName) = some .directory) :
    Gives t (WorkspaceFiles.openDirectory parts create)
      (.ok (.inside (parts.map WorkspaceFiles.fileName)))
      (t.enter create [] (parts.map WorkspaceFiles.fileName)) := by
  refine Ends.bind_ok (gives_openat_dot (WorkspaceTree.node_nil t) rfl rfl) ?_
  refine Ends.bind_ok (Ends.pure _) ?_
  exact gives_descend_ok hparts h

lemma gives_openDirectory_error (hparts : ∀ part ∈ parts, IsStep (WorkspaceFiles.fileName part))
    (h : (t.enter create [] (parts.map WorkspaceFiles.fileName)).node
      (parts.map WorkspaceFiles.fileName) ≠ some .directory) :
    ∃ e t', Gives t (WorkspaceFiles.openDirectory parts create) (.error (.error e)) t' ∧ t.Grows t' ∧
      (create = false → t' = t) ∧
      ∀ p : TreePath, parts.length < p.length → t'.node p = t.node p := by
  obtain ⟨e, t', hdescend, hgrows, hsame, hbelow⟩ :=
    gives_descend_error hparts (WorkspaceTree.node_nil t) h
  refine ⟨e, t', ?_, hgrows, hsame, fun p hp => hbelow p (by simpa using hp)⟩
  refine Ends.bind_ok (gives_openat_dot (WorkspaceTree.node_nil t) rfl rfl) ?_
  exact Ends.bind_ok (Ends.pure _) hdescend

lemma gives_openDirectory_existing (create : Bool) (hparts : ∀ part ∈ parts, IsStep (WorkspaceFiles.fileName part))
    (h : t.node (parts.map WorkspaceFiles.fileName) = some .directory) :
    Gives t (WorkspaceFiles.openDirectory parts create)
      (.ok (.inside (parts.map WorkspaceFiles.fileName))) t := by
  have hsame : t.enter create [] (parts.map WorkspaceFiles.fileName) = t := WorkspaceTree.enter_existing h
  rw [← hsame] at h
  have hopen := gives_openDirectory_ok hparts h
  rw [hsame] at hopen
  exact hopen

lemma gives_openDirectory_missing (hparts : ∀ part ∈ parts, IsStep (WorkspaceFiles.fileName part))
    (h : t.node (parts.map WorkspaceFiles.fileName) ≠ some .directory) :
    ∃ e, Gives t (WorkspaceFiles.openDirectory parts false) (.error (.error e)) t := by
  rw [← WorkspaceTree.enter_false t [] (parts.map WorkspaceFiles.fileName)] at h
  obtain ⟨e, t', hopen, -, hsame, -⟩ := gives_openDirectory_error hparts h
  rw [hsame rfl] at hopen
  exact ⟨e, hopen⟩

end Opening

/-! ### Accounting -/

section Accounting

variable {t : WorkspaceTree} {dir : TreePath} {name : FileName}
  {enter : Object → WorkspaceFiles.Scan → FileAction (WorkspaceFiles.Scan × Option ControlError)}

/-- What the accounting of the guest finds in a tree. -/
def WorkspaceTree.usedBytes (t : WorkspaceTree) : Except Halt ℕ :=
  (outcome WorkspaceFiles.directoryBytes (.initial t)).1

lemma gives_fstatat (origin : Origin) (dir : TreePath) (name : FileName) :
    Gives t (fstatat origin (.inside dir) name) (.ok (t.fstatat (.inside dir) name)) t :=
  gives_observe _

lemma gives_readdir (dir : TreePath) :
    Gives t (readdir (.inside dir)) (.ok (t.readdir (.inside dir))) t :=
  gives_observe _

/-- A part of the walk returns, leaves the tree as it is and finds at most that there are too many files. -/
def Scans (t : WorkspaceTree) (x : FileAction (WorkspaceFiles.Scan × Option ControlError)) : Prop :=
  ∃ s e, Gives t x (.ok (s, e)) t ∧ ∀ error, e = some error → error = WorkspaceFiles.tooManyFiles

lemma scans_none (s : WorkspaceFiles.Scan) : Scans t (pure (s, none)) := ⟨s, none, Ends.pure _, by simp⟩

lemma scans_bind {α : Type} {x : FileAction α} {a : α}
    {f : α → FileAction (WorkspaceFiles.Scan × Option ControlError)} (hx : Gives t x (.ok a) t)
    (hf : Scans t (f a)) : Scans t (x >>= f) := by
  obtain ⟨s, e, hgives, he⟩ := hf
  exact ⟨s, e, Ends.bind_ok hx hgives, he⟩

lemma scans_scanEntry (s : WorkspaceFiles.Scan)
    (henter : ∀ q s, t.node q = some .directory → Scans t (enter (.inside q) s))
    (hname : IsStep name) : Scans t (WorkspaceFiles.scanEntry enter (.inside dir) name s) := by
  have hstat := gives_fstatat (t := t) .listing dir name
  cases hfound : t.fstatat (.inside dir) name with
  | error errno =>
    rw [hfound] at hstat
    exact scans_bind hstat (scans_none _)
  | ok n =>
    rw [hfound] at hstat
    refine scans_bind hstat ?_
    cases n with
    | file contents =>
      simp only
      split
      · exact ⟨_, _, Ends.pure _, fun error he => (Option.some.inj he).symm⟩
      · exact scans_none _
    | directory =>
      have hnode := fstatat_ok hname hfound
      obtain ⟨s', e, hr, -⟩ := henter (dir ++ [name]) s hnode
      refine scans_bind (gives_openat_directory hnode) ?_
      exact scans_bind hr (scans_none _)
    | symlink target => exact scans_none _
    | fifo reader writer => exact scans_none _
    | socket => exact scans_none _
    | other => exact scans_none _

lemma scans_scanNames {names : List FileName} (s : WorkspaceFiles.Scan)
    (henter : ∀ q s, t.node q = some .directory → Scans t (enter (.inside q) s))
    (hnames : ∀ raw ∈ names, raw.contains slash = false) :
    Scans t (WorkspaceFiles.scanNames enter (.inside dir) names s) := by
  induction names generalizing s with
  | nil => exact scans_none _
  | cons raw rest ih =>
    have hrest := fun s => ih s fun r hr => hnames r (List.mem_cons_of_mem raw hr)
    rw [WorkspaceFiles.scanNames]
    split
    · exact hrest s
    · rename_i hskip
      rw [not_or] at hskip
      have hname := isStep_lossy (hnames raw List.mem_cons_self) hskip.1 hskip.2
      obtain ⟨s', e, hr, he⟩ := scans_scanEntry s henter hname
      refine scans_bind hr ?_
      cases e with
      | some e => exact ⟨_, _, Ends.pure _, he⟩
      | none => exact hrest s'

lemma scans_walkDirBytes (fuel : ℕ) (s : WorkspaceFiles.Scan) (hdir : t.node dir = some .directory) :
    Scans t (WorkspaceFiles.walkDirBytes fuel (.inside dir) s) := by
  induction fuel generalizing dir s with
  | zero => exact scans_none _
  | succ fuel ih =>
    rw [WorkspaceFiles.walkDirBytes]
    refine scans_bind (gives_openat_dot hdir rfl rfl) ?_
    refine scans_bind (gives_readdir dir) ?_
    exact scans_scanNames s (fun q s hq => ih s hq) fun raw hraw => noSlash_of_mem_readdir hraw

/-- The accounting leaves the tree as it is, does not depend on the log and fails only over too many
files. -/
lemma directoryBytes_spec (t : WorkspaceTree) :
    Gives t WorkspaceFiles.directoryBytes t.usedBytes t ∧
      ∀ e, t.usedBytes = .error e → e = .error WorkspaceFiles.tooManyFiles := by
  obtain ⟨r, hr, herror⟩ : ∃ r, Gives t WorkspaceFiles.directoryBytes r t ∧
      ∀ e, r = .error e → e = .error WorkspaceFiles.tooManyFiles := by
    obtain ⟨s, e, hwalk, he⟩ := scans_walkDirBytes (WorkspaceFiles.maxScanDepth + 1) ⟨0, 0⟩
      (WorkspaceTree.node_nil t)
    cases e with
    | some e =>
      refine ⟨.error (.error e), Ends.bind_ok hwalk (gives_refuse e), fun e' he' => ?_⟩
      rw [← Except.error.inj he', he e rfl]
    | none => exact ⟨.ok s.total, Ends.bind_ok hwalk (Ends.pure _), by simp⟩
  obtain ⟨k, hrun, -⟩ := hr (.initial t) rfl
  rw [WorkspaceTree.usedBytes, hrun]
  exact ⟨hr, herror⟩

theorem gives_directoryBytes (t : WorkspaceTree) :
    Gives t WorkspaceFiles.directoryBytes t.usedBytes t := (directoryBytes_spec t).1

lemma usedBytes_error {e : Halt} (h : t.usedBytes = .error e) : e = .error WorkspaceFiles.tooManyFiles :=
  (directoryBytes_spec t).2 e h

lemma usedBytes_ne_blocked (t : WorkspaceTree) : t.usedBytes ≠ .error .blocked := by
  intro h
  cases usedBytes_error h

end Accounting

/-! ### Targets of writes -/

/-- What the regular file at a path holds; nothing where there is none. -/
def WorkspaceTree.contentsAt (t : WorkspaceTree) (path : TreePath) : List UInt8 :=
  match t.node path with
  | some (.file contents) => contents
  | _ => []

/-- The tree in which the target of a write has been opened. -/
def WorkspaceTree.prepared (t : WorkspaceTree) (target : TreePath) : WorkspaceTree :=
  (t.enter true [] target.dropLast).make target.dropLast (target.getLastD []) (.file [])

/-- The parents of the target are directories or missing, and it is a regular file or missing. -/
structure WorkspaceTree.Fits (t : WorkspaceTree) (target : TreePath) : Prop where
  parents : ∀ p, p <+: target → p ≠ target → t.node p = some .directory ∨ t.node p = none
  file : t.node target = none ∨ ∃ contents, t.node target = some (.file contents)

/-- There is room for what is missing of the target and its parents. -/
def WorkspaceTree.HasRoom (t : WorkspaceTree) (target : TreePath) : Prop :=
  ∃ n, (t.prepared target).node target = some n

/-- A path that a write can open as a regular file. -/
structure WorkspaceTree.Writable (t : WorkspaceTree) (target : TreePath) : Prop extends
    t.Fits target where
  length : 2 ≤ target.length
  plain : ∀ name ∈ target, isPlainName name = true
  hasRoom : t.HasRoom target

/-- What the target holds after the write. -/
def WorkspaceFiles.WriteFields.written (r : WorkspaceFiles.WriteFields) (contents : List UInt8) :
    List UInt8 :=
  let base := if r.truncate then [] else contents
  if r.chunk = [] then base else splice r.start r.chunk base

/-- What the target holds after the `pwrite`s, one of which may have failed. -/
def WorkspaceFiles.WriteFields.partly (r : WorkspaceFiles.WriteFields) (pwrites : List ℕ)
    (contents : List UInt8) : List UInt8 :=
  WorkspaceFiles.WriteFields.written { r with chunk := r.chunk.take (taken pwrites r.chunk.length) } contents

section Writing

variable {t t' : WorkspaceTree} {dir target : TreePath} {name : FileName} {contents : List UInt8}
  {parts : List String} {quota : WorkspaceFiles.Quota} {r : WorkspaceFiles.WriteFields}
  {pwrites : List ℕ}

lemma WorkspaceTree.prepared_concat (t : WorkspaceTree) (dir : TreePath) (name : FileName) :
    t.prepared (dir ++ [name]) = (t.enter true [] dir).make dir name (.file []) := by
  rw [WorkspaceTree.prepared, List.dropLast_concat, List.getLastD_concat]

lemma WorkspaceTree.Writable.split (h : t.Writable target) :
    ∃ dir name, target = dir ++ [name] ∧ isPlainName name = true ∧
      (t.enter true [] dir).node dir = some .directory := by
  have hne : target ≠ [] := by
    rintro rfl
    exact absurd h.length (by decide)
  refine ⟨target.dropLast, target.getLast hne, (List.dropLast_append_getLast hne).symm,
    h.plain _ (List.getLast_mem hne), ?_⟩
  obtain ⟨n, hnode⟩ := h.hasRoom
  rw [← List.dropLast_append_getLast hne, WorkspaceTree.prepared_concat] at hnode
  have hdir := WorkspaceTree.node_dir hnode
  rwa [WorkspaceTree.node_make_ne (by simp)] at hdir

/-- A target that is there is opened as it is. -/
lemma WorkspaceTree.prepared_of_node {n : FileNode} (hne : target ≠ []) (h : t.node target = some n) :
    t.prepared target = t := by
  rw [← List.dropLast_append_getLast hne] at h ⊢
  rw [WorkspaceTree.prepared_concat, WorkspaceTree.enter_existing (WorkspaceTree.node_dir h)]
  apply WorkspaceTree.make_of_not
  intro hcan
  have hnone := hcan.free
  rw [h] at hnone
  cases hnone

lemma WorkspaceTree.prepared_of_file (h : t.node target = some (.file contents)) :
    t.prepared target = t := by
  refine WorkspaceTree.prepared_of_node ?_ h
  rintro rfl
  rw [WorkspaceTree.node_nil] at h
  cases h

lemma WorkspaceTree.grows_prepared (t : WorkspaceTree) (target : TreePath) :
    t.Grows (t.prepared target) :=
  WorkspaceTree.grows_enter.trans (.make (Or.inr rfl))

/-- What is at the target before it is opened. -/
lemma WorkspaceTree.node_enter_target (t : WorkspaceTree) (dir : TreePath) (name : FileName) :
    (t.enter true [] dir).node (dir ++ [name]) = t.node (dir ++ [name]) := by
  have hgen : ∀ (names : List FileName) (t : WorkspaceTree) (start p : TreePath),
      (start ++ names).length < p.length → (t.enter true start names).node p = t.node p := by
    intro names
    induction names with
    | nil =>
      intro t start p _
      rfl
    | cons m rest ih =>
      intro t start p hp
      rw [WorkspaceTree.enter, if_pos rfl, ih _ _ _ (by simpa using hp), WorkspaceTree.node_make_ne]
      rintro rfl
      simp at hp
  exact hgen dir t [] _ (by simp)

lemma WorkspaceTree.Writable.node_prepared (h : t.Writable target) :
    (t.prepared target).node target = some (.file (t.contentsAt target)) := by
  obtain ⟨n, hroom⟩ := h.hasRoom
  obtain ⟨dir, name, rfl, -, -⟩ := h.split
  have htarget := WorkspaceTree.node_enter_target t dir name
  rw [WorkspaceTree.prepared_concat] at hroom ⊢
  rw [WorkspaceTree.contentsAt]
  rcases h.file with hnone | ⟨contents, hfile⟩
  · by_cases hcan : (t.enter true [] dir).CanHold dir name
    · rw [WorkspaceTree.node_make_self hcan, hnone]
    · rw [WorkspaceTree.make_of_not hcan, htarget, hnone] at hroom
      cases hroom
  · rw [hfile, WorkspaceTree.node_make_of_some]
    rw [htarget, hfile]

/-- A path that leads to a regular file once parents and target have been made. -/
lemma WorkspaceTree.writable_of_prepared (hlength : 2 ≤ target.length)
    (hnode : (t.prepared target).node target = some (.file contents)) : t.Writable target := by
  have hgrows := WorkspaceTree.grows_prepared t target
  refine ⟨⟨?_, ?_⟩, hlength, ?_, ⟨_, hnode⟩⟩
  · intro p hp hne
    have hdir := WorkspaceTree.node_prefix hnode hp hne
    cases hbefore : t.node p with
    | none => exact Or.inr rfl
    | some n =>
      rw [hgrows.kept p n hbefore] at hdir
      exact Or.inl hdir
  · cases hbefore : t.node target with
    | none => exact Or.inl rfl
    | some n =>
      rw [hgrows.kept target n hbefore] at hnode
      exact Or.inr ⟨contents, hnode⟩
  · intro name hname
    obtain ⟨before, after, rfl⟩ := List.append_of_mem hname
    have hprefix : ∃ n, (t.prepared (before ++ name :: after)).node (before ++ [name]) = some n := by
      by_cases hafter : after = []
      · rw [hafter] at hnode ⊢
        exact ⟨_, hnode⟩
      · refine ⟨.directory, WorkspaceTree.node_prefix hnode ?_ ?_⟩
        · exact (List.prefix_append_right_inj before).mpr
            (List.cons_prefix_cons.mpr ⟨rfl, List.nil_prefix⟩)
        · simpa using hafter
    obtain ⟨n, hn⟩ := hprefix
    exact WorkspaceTree.plain_of_node hn

/-- Where the file system never lacks room, there is room for every path. -/
lemma WorkspaceTree.Fits.hasRoom (h : t.Fits target) (hroom : ∀ entries p, t.room entries p = true)
    (hne : target ≠ []) (hplain : ∀ name ∈ target, isPlainName name = true) : t.HasRoom target := by
  have hsplit := List.dropLast_append_getLast hne
  have hdir : (t.enter true [] target.dropLast).node target.dropLast = some .directory := by
    refine WorkspaceTree.isDirectory_enter hroom (WorkspaceTree.node_nil t)
      (fun m hm => hplain m (List.dropLast_subset _ hm)) ?_
    intro p hp
    refine h.parents p (hp.trans (List.dropLast_prefix _)) ?_
    rintro rfl
    have hlength := hp.length_le
    rw [List.length_dropLast] at hlength
    have hpos := List.length_pos_of_ne_nil hne
    omega
  rw [WorkspaceTree.HasRoom, ← hsplit, WorkspaceTree.prepared_concat]
  have htarget := WorkspaceTree.node_enter_target t target.dropLast (target.getLast hne)
  cases hnode : t.node (target.dropLast ++ [target.getLast hne]) with
  | some n => exact ⟨n, WorkspaceTree.node_make_of_some (htarget.trans hnode)⟩
  | none =>
    refine ⟨_, WorkspaceTree.node_make_self ⟨hplain _ (List.getLast_mem hne), hdir, htarget.trans hnode, ?_⟩⟩
    rw [WorkspaceTree.room_enter]
    exact hroom _ _

/-- What is opened as a regular file is no named pipe. -/
lemma WorkspaceTree.not_hangs_of_make
    (h : (t.make dir name (.file [])).node (dir ++ [name]) = some (.file contents)) (writable : Bool) :
    t.hangs (dir ++ [name]) writable = false := by
  refine WorkspaceTree.not_hangs (fun reader writer hfifo => ?_) writable
  rw [WorkspaceTree.node_make_of_some hfifo] at h
  cases h

lemma WorkspaceTree.not_hangs_of_file (h : t.node target = some (.file contents)) (writable : Bool) :
    t.hangs target writable = false := by
  refine WorkspaceTree.not_hangs (fun reader writer hfifo => ?_) writable
  rw [h] at hfifo
  cases hfifo

/-- A writable path is opened. -/
lemma gives_openFile_write (hparts : ∀ part ∈ parts, IsStep (WorkspaceFiles.fileName part))
    (h : t.Writable (parts.map WorkspaceFiles.fileName)) :
    Gives t (WorkspaceFiles.openFile parts WorkspaceFiles.writeFlags true)
      (.ok (.inside (parts.map WorkspaceFiles.fileName)))
      (t.prepared (parts.map WorkspaceFiles.fileName)) := by
  have hlength := h.length
  rw [List.length_map] at hlength
  have hne : parts ≠ [] := by
    rintro rfl
    exact absurd hlength (by decide)
  obtain ⟨hsplit, hlast⟩ := WorkspaceFiles.map_fileName_split hne
  have hnode := h.node_prepared
  obtain ⟨dir, name, htarget, hname, hdir⟩ := h.split
  rw [hsplit] at htarget hnode ⊢
  obtain ⟨rfl, rfl⟩ := List.append_singleton_inj.mp htarget
  rw [WorkspaceFiles.openFile, if_neg (by omega)]
  refine Ends.bind_ok (gives_openDirectory_ok
    (fun p hp => hparts p (List.dropLast_subset _ hp)) hdir) ?_
  rw [WorkspaceTree.prepared_concat] at hnode ⊢
  have hwaits := (WorkspaceTree.waits_step _ _ (IsStep.of_plain hname)
    { WorkspaceFiles.writeFlags with noFollow := true } rfl).trans
    (WorkspaceTree.not_hangs_of_make hnode true)
  exact Ends.bind_ok (gives_openat hwaits (gives_perform_ok (openat_file hname rfl rfl hnode)))
    (Ends.pure _)

/-- The last name of a path that is not writable leads to no regular file: opening it may create an
empty one, but only where the target would have become writable. -/
lemma WorkspaceTree.openat_no_file {object : Object} {t₂ : WorkspaceTree} (hname : IsStep name)
    (hlength : 2 ≤ (dir ++ [name]).length) (h : ¬ t.Writable (dir ++ [name]))
    (hresult : (t.enter true [] dir).openat (.inside dir) name
      { WorkspaceFiles.writeFlags with noFollow := true } = .ok (object, t₂)) :
    object = .inside (dir ++ [name]) ∧ t.Grows t₂ ∧
      t₂.node (dir ++ [name]) = t.node (dir ++ [name]) ∧
      ∀ contents, t₂.nodeOf object ≠ .file contents := by
  obtain ⟨rfl, -, hcases⟩ := openat_ok hname rfl hresult
  have hmade : t₂ = (t.enter true [] dir).make dir name (.file []) := by
    rcases hcases with ⟨n, hnode, rfl, -⟩ | ⟨-, -, rfl⟩
    · rw [WorkspaceTree.make_of_not]
      intro hcan
      rw [hcan.free] at hnode
      cases hnode
    · rfl
  have hprepared : t₂ = t.prepared (dir ++ [name]) := by
    rw [hmade, WorkspaceTree.prepared_concat]
  have hno : ∀ contents, t₂.node (dir ++ [name]) ≠ some (.file contents) := by
    intro contents hnode
    rw [hprepared] at hnode
    exact h (WorkspaceTree.writable_of_prepared hlength hnode)
  have hkept : t₂.node (dir ++ [name]) = (t.enter true [] dir).node (dir ++ [name]) := by
    rcases hcases with ⟨n, -, rfl, -⟩ | ⟨-, hcan, rfl⟩
    · rfl
    · exact absurd (WorkspaceTree.node_make_self hcan) (hno [])
  refine ⟨rfl, hprepared ▸ WorkspaceTree.grows_prepared t _,
    hkept.trans (WorkspaceTree.node_enter_target t dir name), ?_⟩
  intro contents hfile
  refine hno contents ?_
  rw [WorkspaceTree.nodeOf] at hfile
  cases hn : t₂.node (dir ++ [name]) with
  | none =>
    rw [hn] at hfile
    cases hfile
  | some n =>
    rw [hn] at hfile
    exact congrArg some hfile

/-- Where the target cannot be opened as a regular file it stays as it is; only a named pipe without a
reader makes the call wait. -/
lemma gives_openFile_no_file (hparts : ∀ part ∈ parts, IsStep (WorkspaceFiles.fileName part))
    (h : ¬ t.Writable (parts.map WorkspaceFiles.fileName)) :
    ∃ t', t.Grows t' ∧
      t'.node (parts.map WorkspaceFiles.fileName) = t.node (parts.map WorkspaceFiles.fileName) ∧
      ((∃ e, Gives t (WorkspaceFiles.openFile parts WorkspaceFiles.writeFlags true) (.error (.error e)) t') ∨
        (Gives t (WorkspaceFiles.openFile parts WorkspaceFiles.writeFlags true) (.error .blocked) t' ∧
          2 ≤ parts.length ∧ t.hangs (parts.map WorkspaceFiles.fileName) true = true) ∨
        ∃ fd, Gives t (WorkspaceFiles.openFile parts WorkspaceFiles.writeFlags true) (.ok fd) t' ∧
          ∀ contents, t'.nodeOf fd ≠ .file contents) := by
  rw [WorkspaceFiles.openFile]
  split
  · exact ⟨t, .refl t, rfl, Or.inl ⟨_, gives_refuse _⟩⟩
  · rename_i hlength
    have hne : parts ≠ [] := by
      rintro rfl
      exact hlength (by decide)
    obtain ⟨hsplit, hlast⟩ := WorkspaceFiles.map_fileName_split hne
    have hdirs := fun p hp => hparts p (List.dropLast_subset parts hp)
    have hpathLength : 2 ≤ (parts.map WorkspaceFiles.fileName).length := by
      rw [List.length_map]
      omega
    by_cases hdir : (t.enter true [] (parts.dropLast.map WorkspaceFiles.fileName)).node
        (parts.dropLast.map WorkspaceFiles.fileName) = some .directory
    · have hopen := gives_openDirectory_ok hdirs hdir
      have hname := hparts _ hlast
      rw [hsplit] at h hpathLength ⊢
      set dir := parts.dropLast.map WorkspaceFiles.fileName
      set name := WorkspaceFiles.fileName (parts.getLastD "")
      set t₁ := t.enter true [] dir
      have hgrows : t.Grows t₁ := WorkspaceTree.grows_enter
      have htarget : t₁.node (dir ++ [name]) = t.node (dir ++ [name]) :=
        WorkspaceTree.node_enter_target t dir name
      have hwaits := t₁.waits_step dir hname { WorkspaceFiles.writeFlags with noFollow := true } rfl
      cases hhangs : t₁.hangs (dir ++ [name]) true with
      | true =>
        refine ⟨t₁, hgrows, htarget, Or.inr (Or.inl ⟨?_, by omega, ?_⟩)⟩
        · exact Ends.bind_ok hopen (Ends.bind_error (gives_openat_waits (hwaits.trans hhangs)))
        · simp only [WorkspaceTree.hangs, htarget] at hhangs ⊢
          exact hhangs
      | false =>
        cases hresult : t₁.openat (.inside dir) name
            { WorkspaceFiles.writeFlags with noFollow := true } with
        | error errno =>
          refine ⟨t₁, hgrows, htarget, Or.inl ⟨fromIoError errno, ?_⟩⟩
          refine Ends.bind_ok hopen ?_
          exact Ends.bind_ok (gives_openat (hwaits.trans hhangs) (gives_perform_error hresult))
            (gives_refuse _)
        | ok result =>
          obtain ⟨object, t₂⟩ := result
          obtain ⟨rfl, hgrown, hkept, hno⟩ := WorkspaceTree.openat_no_file hname hpathLength h hresult
          refine ⟨t₂, hgrown, hkept, Or.inr (Or.inr ⟨.inside (dir ++ [name]), ?_, hno⟩)⟩
          refine Ends.bind_ok hopen ?_
          exact Ends.bind_ok (gives_openat (hwaits.trans hhangs) (gives_perform_ok hresult)) (Ends.pure _)
    · obtain ⟨e, t', hopen, hgrows, -, hbelow⟩ := gives_openDirectory_error hdirs hdir
      refine ⟨t', hgrows, hbelow _ ?_, Or.inl ⟨e, Ends.bind_error hopen⟩⟩
      have hpos := List.length_pos_of_ne_nil hne
      rw [List.length_map, List.length_dropLast]
      omega

/-! ### Writing -/

lemma gives_regularFile_no_file {n : FileNode} (h : ∀ contents, n ≠ .file contents) (message : String) :
    Gives t (WorkspaceFiles.regularFile n message) (.error (.error (.invalidRequest message))) t := by
  cases n with
  | file contents => exact absurd rfl (h contents)
  | directory => exact gives_refuse _
  | symlink target => exact gives_refuse _
  | fifo reader writer => exact gives_refuse _
  | socket => exact gives_refuse _
  | other => exact gives_refuse _

/-- The reply to a write. -/
def WorkspaceFiles.WriteFields.reply (r : WorkspaceFiles.WriteFields) (quota : WorkspaceFiles.Quota)
    (used : ℕ) (contents : List UInt8) : WorkspaceFiles.WriteReply where
  path := joinParts r.parts
  size := (r.written contents).length
  nextOffset := r.start + r.chunk.length
  usedBytes := r.accounted used contents.length
  quotaBytes := quota.bytes

lemma nodeOf_inside {n : FileNode} (h : t.node target = some n) : t.nodeOf (.inside target) = n := by
  rw [WorkspaceTree.nodeOf, h]
  rfl

lemma gives_truncate (flag : Bool) (h : t.node target = some (.file contents)) :
    Gives t (WorkspaceFiles.onlyIf flag (ftruncate (.inside target))) (.ok ())
      (t.setContents target (if flag then [] else contents)) := by
  have htruncate : Gives t (ftruncate (.inside target)) (.ok ()) (t.setContents target []) := by
    rw [← update_file (f := fun _ => []) h]
    exact gives_alter _
  cases flag with
  | true => exact htruncate
  | false =>
    rw [if_neg Bool.false_ne_true, WorkspaceTree.setContents_self h]
    exact Ends.pure ()

/-- What the calls of the loop take is in the file afterwards. -/
lemma gives_pwriteAll (pwrites : List ℕ) (chunk : List UInt8) (start : ℕ)
    (h : t.node target = some (.file contents)) :
    Gives t (pwriteAll (.inside target) pwrites chunk start)
      (if Completes pwrites chunk.length then .ok () else .error (.error noProgress))
      (t.setContents target
        (if chunk.take (taken pwrites chunk.length) = [] then contents
          else splice start (chunk.take (taken pwrites chunk.length)) contents)) := by
  induction pwrites generalizing t chunk start contents with
  | nil =>
    rw [pwriteAll, taken, if_pos (show Completes [] chunk.length from rfl), List.take_length]
    by_cases hchunk : chunk = []
    · rw [if_pos hchunk, if_pos hchunk, WorkspaceTree.setContents_self h]
      exact Ends.pure _
    · rw [if_neg hchunk, if_neg hchunk, ← update_file (f := splice start chunk) h]
      exact gives_alter _
  | cons n pwrites ih =>
    rw [pwriteAll]
    by_cases hchunk : chunk = []
    · subst hchunk
      rw [if_pos rfl, List.length_nil, if_pos (completes_zero _), List.take_nil, if_pos rfl,
        WorkspaceTree.setContents_self h]
      exact Ends.pure _
    · have hlength : chunk.length ≠ 0 := fun h => hchunk (List.eq_nil_of_length_eq_zero h)
      rw [if_neg hchunk]
      by_cases hn : n = 0
      · have hnone : taken (n :: pwrites) chunk.length = 0 := by rw [taken, if_pos (Or.inr hn)]
        have hfails : ¬Completes (n :: pwrites) chunk.length := by
          rw [Completes, hnone]
          exact Ne.symm hlength
        rw [if_pos hn, if_neg hfails, hnone, List.take_zero, if_pos rfl, WorkspaceTree.setContents_self h]
        exact Ends.bind_ok (gives_observe _) (gives_refuse _)
      · -- One call more: the rest of the loop meets the file with what this call has taken.
        have hpart : chunk.take n ≠ [] := by
          intro hnil
          have hlen := congrArg List.length hnil
          rw [List.length_take, List.length_nil] at hlen
          omega
        have hle := taken_le pwrites (chunk.length - n)
        have hspliced : (t.setContents target (splice start (chunk.take n) contents)).node target =
            some (.file (splice start (chunk.take n) contents)) := WorkspaceTree.node_setContents_self h
        have hrest := ih (chunk.drop n) (start + n) hspliced
        rw [WorkspaceTree.setContents_setContents, List.length_drop] at hrest
        rw [if_neg hn, taken_cons hlength hn]
        have halter : Gives t (alter .write (.inside target) (splice start (chunk.take n))) (.ok ())
            (t.update (.inside target) (splice start (chunk.take n))) := gives_alter _
        rw [update_file h] at halter
        refine Ends.bind_ok halter ?_
        have hcut : chunk.take (min n chunk.length + taken pwrites (chunk.length - n)) =
            chunk.take n ++ (chunk.drop n).take (taken pwrites (chunk.length - n)) := by
          rcases Nat.le_total n chunk.length with hsmall | hlarge
          · rw [Nat.min_eq_left hsmall, List.take_add]
          · rw [Nat.min_eq_right hlarge, List.take_of_length_le (Nat.le_add_right _ _),
              List.take_of_length_le hlarge, List.drop_eq_nil_of_le hlarge, List.take_nil, List.append_nil]
        have hne : chunk.take n ++ (chunk.drop n).take (taken pwrites (chunk.length - n)) ≠ [] := by
          intro hnil
          exact hpart (List.append_eq_nil_iff.mp hnil).1
        rw [hcut, if_neg hne]
        simp only [completes_cons hlength hn]
        convert hrest using 3
        by_cases hmore : (chunk.drop n).take (taken pwrites (chunk.length - n)) = []
        · rw [if_pos hmore, hmore, List.append_nil]
        · have hn' : (chunk.take n).length = n := by
            rw [List.length_take, Nat.min_eq_left]
            by_contra hlarge
            rw [List.drop_eq_nil_of_le (by omega), List.take_nil] at hmore
            exact hmore rfl
          rw [if_neg hmore, ← splice_splice, hn']

/-- A write to an open regular file whose accounting fails. -/
lemma gives_writeChunk_unaccounted {e : Halt} (h : t.node target = some (.file contents))
    (hused : t.usedBytes = .error e) :
    Gives t (WorkspaceFiles.writeChunk quota pwrites r (.inside target)) (.error e) t := by
  have hbytes := gives_directoryBytes t
  rw [hused] at hbytes
  refine Ends.bind_ok (gives_observe _) ?_
  refine Ends.bind_ok (gives_observe _) ?_
  rw [nodeOf_inside h]
  refine Ends.bind_ok (Ends.pure _) ?_
  exact Ends.bind_error hbytes

/-- A write to an open regular file that would take more than the quota. -/
lemma gives_writeChunk_refused {used : ℕ} (h : t.node target = some (.file contents))
    (hused : t.usedBytes = .ok used) (hquota : (quota.bytes : ℤ) < r.accounted used contents.length) :
    Gives t (WorkspaceFiles.writeChunk quota pwrites r (.inside target))
      (.error (.error WorkspaceFiles.quotaExceeded)) t := by
  have hbytes := gives_directoryBytes t
  rw [hused] at hbytes
  refine Ends.bind_ok (gives_observe _) ?_
  refine Ends.bind_ok (gives_observe _) ?_
  rw [nodeOf_inside h]
  refine Ends.bind_ok (Ends.pure _) ?_
  refine Ends.bind_ok hbytes ?_
  rw [if_pos hquota]
  exact gives_refuse _

lemma partly_of_completes (h : Completes pwrites r.chunk.length) : r.partly pwrites contents = r.written contents := by
  rw [WorkspaceFiles.WriteFields.partly, h, List.take_length]

/-- A write to an open regular file that is carried out as far as the calls take it. -/
lemma gives_writeChunk (pwrites : List ℕ) {used : ℕ} (h : t.node target = some (.file contents))
    (hused : t.usedBytes = .ok used) (hquota : r.accounted used contents.length ≤ quota.bytes) :
    Gives t (WorkspaceFiles.writeChunk quota pwrites r (.inside target))
      (if Completes pwrites r.chunk.length then .ok (r.reply quota used contents)
        else .error (.error noProgress))
      (t.setContents target (r.partly pwrites contents)) := by
  have hbytes := gives_directoryBytes t
  rw [hused] at hbytes
  refine Ends.bind_ok (gives_observe _) ?_
  refine Ends.bind_ok (gives_observe _) ?_
  rw [nodeOf_inside h]
  refine Ends.bind_ok (Ends.pure _) ?_
  refine Ends.bind_ok hbytes ?_
  rw [if_neg (Int.not_lt.mpr hquota)]
  have hnode : (t.setContents target (if r.truncate then [] else contents)).node target =
      some (.file (if r.truncate then [] else contents)) := WorkspaceTree.node_setContents_self h
  have hwrite := gives_pwriteAll pwrites r.chunk r.start hnode
  rw [WorkspaceTree.setContents_setContents] at hwrite
  refine Ends.bind_ok (gives_truncate r.truncate h) ?_
  by_cases hdone : Completes pwrites r.chunk.length
  · rw [if_pos hdone] at hwrite ⊢
    refine Ends.bind_ok hwrite ?_
    refine Ends.bind_ok (gives_observe _) ?_
    rw [nodeOf_inside (WorkspaceTree.node_setContents_self h)]
    have hreply : r.partly pwrites contents = r.written contents := partly_of_completes hdone
    rw [WorkspaceFiles.WriteFields.reply, ← hreply]
    exact Ends.pure _
  · rw [if_neg hdone] at hwrite ⊢
    exact Ends.bind_error hwrite

lemma gives_writeChunk_ok {used : ℕ} (h : t.node target = some (.file contents))
    (hused : t.usedBytes = .ok used) (hquota : r.accounted used contents.length ≤ quota.bytes)
    (hdone : Completes pwrites r.chunk.length) :
    Gives t (WorkspaceFiles.writeChunk quota pwrites r (.inside target)) (.ok (r.reply quota used contents))
      (t.setContents target (r.written contents)) := by
  have hchunk := gives_writeChunk pwrites h hused hquota
  rwa [if_pos hdone, partly_of_completes hdone] at hchunk

lemma gives_writeChunk_failed {used : ℕ} (h : t.node target = some (.file contents))
    (hused : t.usedBytes = .ok used) (hquota : r.accounted used contents.length ≤ quota.bytes)
    (hfailed : ¬Completes pwrites r.chunk.length) :
    Gives t (WorkspaceFiles.writeChunk quota pwrites r (.inside target)) (.error (.error noProgress))
      (t.setContents target (r.partly pwrites contents)) := by
  have hchunk := gives_writeChunk pwrites h hused hquota
  rwa [if_neg hfailed] at hchunk

section Requests

variable {path offset encoded truncate : Json}

/-- A write with bad fields is refused and changes nothing. -/
lemma gives_write_invalid {e : ControlError} (h : WorkspaceFiles.writeFields path offset encoded truncate = .error e) :
    Gives t (WorkspaceFiles.write quota pwrites path offset encoded truncate) (.error (.error e)) t := by
  rw [WorkspaceFiles.write, h]
  exact Ends.bind_error (gives_refuse e)

/-- A write whose path does not lead to a regular file is refused, and the target stays as it is; at a named
pipe without a reader it waits and keeps the lock. -/
lemma gives_write_unwritable (quota : WorkspaceFiles.Quota) (pwrites : List ℕ)
    (h : WorkspaceFiles.writeFields path offset encoded truncate = .ok r)
    (hwritable : ¬ t.Writable (r.parts.map WorkspaceFiles.fileName)) :
    ∃ t', t.Grows t' ∧
      t'.node (r.parts.map WorkspaceFiles.fileName) = t.node (r.parts.map WorkspaceFiles.fileName) ∧
      ((∃ e, Gives t (WorkspaceFiles.write quota pwrites path offset encoded truncate)
          (.error (.error e)) t') ∨
        Ends Kernel.shown (t, false) (WorkspaceFiles.write quota pwrites path offset encoded truncate)
            (.error .blocked) (t', true) ∧
          2 ≤ r.parts.length ∧ t.hangs (r.parts.map WorkspaceFiles.fileName) true = true) := by
  have hparts := (named_of_validateRelativePath (WorkspaceFiles.writeFields_parts h)).2
  rw [WorkspaceFiles.write, h]
  obtain ⟨t', hgrows, hnode, ⟨e, hopen⟩ | ⟨hopen, hhangs⟩ | ⟨fd, hopen, hfile⟩⟩ :=
    gives_openFile_no_file hparts hwritable
  · refine ⟨t', hgrows, hnode, Or.inl ⟨e, Ends.bind_ok (Ends.pure r) ?_⟩⟩
    exact gives_withWriteLock (Ends.bind_error hopen) (by simp)
  · refine ⟨t', hgrows, hnode, Or.inr ⟨Ends.bind_ok (Ends.pure r) ?_, hhangs⟩⟩
    exact ends_withWriteLock_blocked (Ends.bind_error hopen)
  · refine ⟨t', hgrows, hnode,
      Or.inl ⟨.invalidRequest "upload target is not a regular file", Ends.bind_ok (Ends.pure r) ?_⟩⟩
    refine gives_withWriteLock (Ends.bind_ok hopen ?_) (by simp)
    refine Ends.bind_ok (gives_observe _) ?_
    refine Ends.bind_ok (gives_observe _) ?_
    exact Ends.bind_error (gives_regularFile_no_file hfile _)

/-- A write to a writable path is the write to the open target. -/
lemma gives_write {t' : WorkspaceTree} {result : Except Halt WorkspaceFiles.WriteReply}
    (h : WorkspaceFiles.writeFields path offset encoded truncate = .ok r)
    (hwritable : t.Writable (r.parts.map WorkspaceFiles.fileName))
    (hchunk : Gives (t.prepared (r.parts.map WorkspaceFiles.fileName))
      (WorkspaceFiles.writeChunk quota pwrites r (.inside (r.parts.map WorkspaceFiles.fileName))) result t')
    (hresult : result ≠ .error .blocked) :
    Gives t (WorkspaceFiles.write quota pwrites path offset encoded truncate) result t' := by
  have hparts := (named_of_validateRelativePath (WorkspaceFiles.writeFields_parts h)).2
  rw [WorkspaceFiles.write, h]
  refine Ends.bind_ok (Ends.pure r) (gives_withWriteLock ?_ hresult)
  exact Ends.bind_ok (gives_openFile_write hparts hwritable) hchunk

/-! ### Reading -/

/-- A regular file behind directories is opened for reading. -/
lemma gives_openFile_read (hparts : ∀ part ∈ parts, IsStep (WorkspaceFiles.fileName part))
    (hlength : 2 ≤ parts.length)
    (h : t.node (parts.map WorkspaceFiles.fileName) = some (.file contents)) :
    Gives t (WorkspaceFiles.openFile parts {} false)
      (.ok (.inside (parts.map WorkspaceFiles.fileName))) t := by
  have hne : parts ≠ [] := by
    rintro rfl
    exact absurd hlength (by decide)
  obtain ⟨hsplit, hlast⟩ := WorkspaceFiles.map_fileName_split hne
  rw [hsplit] at h ⊢
  have hopen := gives_openDirectory_existing false
    (fun p hp => hparts p (List.dropLast_subset parts hp)) (WorkspaceTree.node_dir h)
  rw [WorkspaceFiles.openFile, if_neg (by omega)]
  refine Ends.bind_ok hopen ?_
  have hwaits := (t.waits_step _ (hparts _ hlast) { noFollow := true } rfl).trans
    (WorkspaceTree.not_hangs_of_file h false)
  exact Ends.bind_ok (gives_openat hwaits (gives_perform_ok (openat_existing rfl h))) (Ends.pure _)

/-- The reply to a read of a regular file. -/
def readReply (parts : List String) (contents : List UInt8) (start limit : ℕ) :
    WorkspaceFiles.ReadReply where
  path := joinParts parts
  offset := start
  nextOffset := start + ((contents.drop start).take limit).length
  size := contents.length
  eof := contents.length ≤ start + ((contents.drop start).take limit).length
  data := Base64.encode ((contents.drop start).take limit)

lemma gives_readChunk {start limit : ℕ} (h : t.node target = some (.file contents))
    (hsize : contents.length ≤ WorkspaceFiles.maxFileBytes) (hstart : start ≤ contents.length) :
    Gives t (WorkspaceFiles.readChunk parts (.inside target) start limit)
      (.ok (readReply parts contents start limit)) t := by
  refine Ends.bind_ok (gives_observe _) ?_
  rw [nodeOf_inside h]
  refine Ends.bind_ok (Ends.pure _) ?_
  rw [if_neg (by omega), if_neg (by omega)]
  refine Ends.bind_ok (gives_observe _) ?_
  exact Ends.pure _

/-- A regular file of at most the largest size is read. -/
lemma gives_read {maxBytes : Json} {start limit : ℕ} (hvalid : validateRelativePath path = .ok parts)
    (hoffset : validateInteger offset 0 WorkspaceFiles.maxFileBytes "file offset" = .ok start)
    (hlimit : validateInteger maxBytes 1 WorkspaceFiles.maxFileChunkBytes "file read size" = .ok limit)
    (hlength : 2 ≤ parts.length)
    (h : t.node (parts.map WorkspaceFiles.fileName) = some (.file contents))
    (hsize : contents.length ≤ WorkspaceFiles.maxFileBytes) (hstart : start ≤ contents.length) :
    Gives t (WorkspaceFiles.read path offset maxBytes) (.ok (readReply parts contents start limit)) t := by
  have hparts := (named_of_validateRelativePath hvalid).2
  rw [WorkspaceFiles.read, hvalid, hoffset, hlimit]
  refine Ends.bind_ok (Ends.pure parts) ?_
  refine Ends.bind_ok (Ends.pure _) ?_
  refine Ends.bind_ok (Ends.pure _) ?_
  refine Ends.bind_ok (gives_openFile_read hparts hlength h) ?_
  rw [Int.toNat_natCast, Int.toNat_natCast]
  exact gives_readChunk h hsize hstart

/-! ### Deleting -/

variable {recursive : Json}

lemma map_ne_blocked {α β : Type} {r : Except Halt α} {f : α → β} (h : r ≠ .error .blocked) :
    r.map f ≠ .error .blocked := by
  cases r with
  | ok a =>
    intro heq
    cases heq
  | error e =>
    intro heq
    cases heq
    exact h rfl

/-- A regular file is deleted, whether or not the accounting that follows succeeds. -/
lemma gives_delete (quota : WorkspaceFiles.Quota) (hvalid : validateRelativePath path = .ok parts)
    (hrecursive : recursive.asBool.getD false = false)
    (h : t.node (parts.map WorkspaceFiles.fileName) = some (.file contents)) :
    Gives t (WorkspaceFiles.delete quota path recursive)
      ((t.remove (parts.map WorkspaceFiles.fileName)).usedBytes.map fun used =>
        ⟨joinParts parts, used, quota.bytes⟩)
      (t.remove (parts.map WorkspaceFiles.fileName)) := by
  have hparts := (named_of_validateRelativePath hvalid).2
  obtain ⟨hsplit, hlast⟩ := WorkspaceFiles.map_fileName_split (validateRelativePath_ne_nil hvalid)
  have hbytes := gives_directoryBytes (t.remove (parts.map WorkspaceFiles.fileName))
  rw [hsplit] at h hbytes ⊢
  have hopen := gives_openDirectory_existing false
    (fun p hp => hparts p (List.dropLast_subset parts hp)) (WorkspaceTree.node_dir h)
  rw [WorkspaceFiles.delete, hvalid]
  refine Ends.bind_ok (Ends.pure parts) ?_
  rw [if_neg (by rw [hrecursive]; exact Bool.false_ne_true)]
  have hresult := usedBytes_ne_blocked (t.remove
    (parts.dropLast.map WorkspaceFiles.fileName ++ [WorkspaceFiles.fileName (parts.getLastD "")]))
  refine gives_withWriteLock ?_ (map_ne_blocked hresult)
  refine Ends.bind_ok hopen ?_
  refine Ends.bind_ok (gives_fstatat .request _ _) ?_
  rw [fstatat_eq h]
  refine Ends.bind_ok (Ends.pure _) ?_
  refine Ends.bind_ok (Ends.pure _) ?_
  refine Ends.bind_ok (gives_perform_ok (unlinkat_file h)) ?_
  refine Ends.bind_ok (Ends.pure _) ?_
  cases hused : WorkspaceTree.usedBytes _ with
  | error e =>
    rw [hused] at hbytes
    exact Ends.bind_error hbytes
  | ok used =>
    rw [hused] at hbytes
    exact Ends.bind_ok hbytes (Ends.pure _)

/-- Every other delete is refused and changes nothing. -/
lemma gives_delete_refused (quota : WorkspaceFiles.Quota) (t : WorkspaceTree) (path recursive : Json)
    (h : ∀ parts contents, validateRelativePath path = .ok parts →
      recursive.asBool.getD false = false →
      t.node (parts.map WorkspaceFiles.fileName) ≠ some (.file contents)) :
    ∃ e, Gives t (WorkspaceFiles.delete quota path recursive) (.error (.error e)) t := by
  rw [WorkspaceFiles.delete]
  cases hvalid : validateRelativePath path with
  | error e => exact ⟨e, Ends.bind_error (gives_refuse e)⟩
  | ok parts =>
    have hparts := (named_of_validateRelativePath hvalid).2
    obtain ⟨hsplit, hlast⟩ := WorkspaceFiles.map_fileName_split (validateRelativePath_ne_nil hvalid)
    have hname := hparts _ hlast
    cases hrecursive : recursive.asBool.getD false with
    | true =>
      refine ⟨.permissionDenied "recursive deletion is not supported", ?_⟩
      refine Ends.bind_ok (Ends.pure parts) ?_
      exact gives_refuse _
    | false =>
      have hnode := fun contents => h parts contents hvalid hrecursive
      rw [hsplit] at hnode
      have hdirs := fun p hp => hparts p (List.dropLast_subset parts hp)
      by_cases hdir : t.node (parts.dropLast.map WorkspaceFiles.fileName) = some .directory
      · have hopen := gives_openDirectory_existing false hdirs hdir
        have hstat := gives_fstatat (t := t) .request (parts.dropLast.map WorkspaceFiles.fileName)
          (WorkspaceFiles.fileName (parts.getLastD ""))
        cases hfound : t.fstatat (.inside (parts.dropLast.map WorkspaceFiles.fileName))
            (WorkspaceFiles.fileName (parts.getLastD "")) with
        | error errno =>
          rw [hfound] at hstat
          refine ⟨fromIoError errno, ?_⟩
          refine Ends.bind_ok (Ends.pure parts) ?_
          refine gives_withWriteLock (Ends.bind_ok hopen ?_) (by simp)
          exact Ends.bind_ok hstat (Ends.bind_error (gives_refuse _))
        | ok n =>
          rw [hfound] at hstat
          have hn := fstatat_ok hname hfound
          have hfile : ∀ contents, n ≠ .file contents := by
            rintro contents rfl
            exact hnode contents hn
          refine ⟨.invalidRequest "delete path is not a regular file", ?_⟩
          refine Ends.bind_ok (Ends.pure parts) ?_
          refine gives_withWriteLock (Ends.bind_ok hopen ?_) (by simp)
          refine Ends.bind_ok hstat ?_
          refine Ends.bind_ok (Ends.pure _) ?_
          exact Ends.bind_error (gives_regularFile_no_file hfile _)
      · obtain ⟨e, hopen⟩ := gives_openDirectory_missing hdirs hdir
        refine ⟨e, ?_⟩
        refine Ends.bind_ok (Ends.pure parts) ?_
        exact gives_withWriteLock (Ends.bind_error hopen) (by simp)

end Requests

end Writing

end Bloom
