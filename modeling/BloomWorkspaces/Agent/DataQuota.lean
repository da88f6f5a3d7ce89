import BloomWorkspaces.Agent.DataFiles

/-!
# What the operations on data files do to the bytes in use

The scan adds up the sizes of all regular files where every name is read as it is and no file has a second
name. A write reckons with the size that its file had, and leaves the bytes that it reports.
-/

namespace Bloom

namespace DataFiles

open Routine

/-- The size of the regular files of a root. -/
def DataRoot.bytes (r : DataRoot) : ℕ := r.tree.totalBytes

/-- No name is read as the name of something else in its directory. -/
def counted (t : WorkspaceTree) : Bool :=
  t.entries.all fun e => Utf8.lossy e.name = e.name || (t.node (e.dir ++ [Utf8.lossy e.name])).isNone

/-- The scan counts each file once: no name is read as another one, and no file that is not empty has two. -/
def scannable (t : WorkspaceTree) : Bool := counted t && decide t.NamedOnce

/-- The request can tell what it does to the bytes in use: it scans a tree in which each file counts once. -/
def DataRequest.reckons (r : DataRoot) : DataRequest → Bool
  | .write path _ =>
    match validateRelativePath path false with
    | .error _ => true
    | .ok path => scannable (r.tree.enter true [] (pathNames path).dropLast)
  | .delete path =>
    match validateRelativePath path false with
    | .error _ => true
    | .ok path => scannable (r.tree.remove (pathNames path))

variable {α : Type} {I : DataRoot → Prop} {E : DataError → DataRoot → Prop} {r r' : DataRoot}
  {path target : TreePath} {name : FileName} {t : WorkspaceTree}

/-! ### Awaited calls -/

lemma ensures_fsCall {f : DataRoot → Except FsError α × DataRoot} {Q : α → DataRoot → Prop} (hI : I r)
    (hok : ∀ a, (f r).1 = .ok a → I (f r).2 ∧ Q a (f r).2)
    (herr : ∀ e, (f r).1 = .error e → I (f r).2 ∧ E (.io e) (f r).2) (hfail : E (.io .other) r) :
    (fsCall f).Ensures I Q E r := by
  rw [fsCall, ensures_await]
  rintro (_ | written)
  · cases hf : (f r).1 with
    | ok a => exact hok a hf
    | error e => exact herr e hf
  · exact ⟨hI, hfail⟩

lemma ensures_query {f : DataRoot → Except FsError α} {Q : α → DataRoot → Prop} (hI : I r)
    (hok : ∀ a, f r = .ok a → Q a r) (herr : ∀ e, f r = .error e → E (.io e) r)
    (hfail : E (.io .other) r) : (query f).Ensures I Q E r :=
  ensures_fsCall hI (fun a h => ⟨hI, hok a h⟩) (fun e h => ⟨hI, herr e h⟩) hfail

/-- Nothing has changed, and the error is not that of a scan without fuel. -/
def Unchanged (r : DataRoot) (e : DataError) (r' : DataRoot) : Prop := e ≠ .unfinished ∧ r' = r

lemma unchanged_io (r : DataRoot) (e : FsError) : Unchanged r (.io e) r := ⟨by simp, rfl⟩

lemma unchanged_data (r : DataRoot) (e : RuntimeDataError) : Unchanged r (.data e) r := ⟨by simp, rfl⟩

lemma ensures_assertRoot (hI : I r) : assertRoot.Ensures I (fun _ r' => r' = r) (Unchanged r) r := by
  rw [assertRoot, ensures_bind]
  refine ensures_query hI (fun kind _ => ?_) (fun e _ => unchanged_io r e) (unchanged_io r _)
  cases kind with
  | directory => rfl
  | foreign => exact unchanged_data r _
  | missing => exact unchanged_data r _

lemma node_of_lstat {node : FileNode} (h : r.lstat path = .ok node) : r.tree.node path = some node := by
  rw [DataRoot.lstat] at h
  split at h
  · rename_i node' hnode
    rw [hnode, Except.ok.inj h]
  · split_ifs at h

lemma node_of_noEntry (h : r.lstat path = .error .noEntry) : r.tree.node path = none := by
  rw [DataRoot.lstat] at h
  split at h
  · cases h
  · assumption

/-! ### The scan -/

/-- The scan has counted everything but what is below some paths, and has the fuel for what is pending. -/
structure Tally (t : WorkspaceTree) (total fuel : ℕ) (rest : List TreePath) (s : Scan) : Prop where
  bytes : counted t = true → s.bytes + ((rest ++ s.pending).map (t.sumBelow FileNode.size)).sum = total
  pending : ∀ p ∈ s.pending, t.node p = some .directory
  fuel : maxQuotaScanEntries + s.pending.length ≤ fuel + s.count
  count : s.count ≤ maxQuotaScanEntries

variable {total fuel : ℕ} {rest : List TreePath} {s : Scan}

/-- One entry more is counted, as what stands at the path that is read. -/
lemma Tally.visit {node : FileNode} {read : TreePath} (h : Tally t total fuel (path :: rest) s)
    (hnode : t.node read = some node) (hread : counted t = true → read = path)
    (hcount : s.count < maxQuotaScanEntries) : Tally t total fuel rest (s.visit read node) := by
  have hbytes : counted t = true →
      s.bytes + (t.sumBelow FileNode.size read + ((rest ++ s.pending).map (t.sumBelow FileNode.size)).sum) =
        total := by
    intro hcounted
    have hold := h.bytes hcounted
    rw [List.cons_append, List.map_cons, List.sum_cons] at hold
    rw [hread hcounted]
    exact hold
  have hfuel := h.fuel
  cases node with
  | directory =>
    refine ⟨fun hcounted => ?_, ?_, ?_, hcount⟩
    · rw [← hbytes hcounted]
      simp only [Scan.visit, List.map_append, List.map_cons, List.sum_append_nat, List.sum_cons]
      omega
    · intro p hp
      rcases List.mem_cons.mp hp with rfl | hold
      · exact hnode
      · exact h.pending p hold
    · show maxQuotaScanEntries + (s.pending.length + 1) ≤ fuel + (s.count + 1)
      omega
  | file contents =>
    rw [WorkspaceTree.sumBelow_leaf hnode (by simp)] at hbytes
    refine ⟨fun hcounted => ?_, h.pending, ?_, hcount⟩
    · rw [← hbytes hcounted]
      exact Nat.add_assoc _ _ _
    · show maxQuotaScanEntries + s.pending.length ≤ fuel + (s.count + 1)
      omega
  | _ =>
    rw [WorkspaceTree.sumBelow_leaf hnode (by simp)] at hbytes
    refine ⟨fun hcounted => ?_, h.pending, ?_, hcount⟩
    · rw [← hbytes hcounted]
      simp [Scan.visit, FileNode.size]
    · show maxQuotaScanEntries + s.pending.length ≤ fuel + (s.count + 1)
      omega

/-- A name that is there is read as it is, or nothing is found. -/
lemma lossy_of_counted {dir : TreePath} {n n' : FileNode} (hcounted : counted t = true)
    (hname : t.node (dir ++ [name]) = some n) (hread : t.node (dir ++ [Utf8.lossy name]) = some n') :
    Utf8.lossy name = name := by
  obtain ⟨inode, he⟩ := WorkspaceTree.node_concat.mp hname
  have hentry := List.all_eq_true.mp hcounted _ he
  simp only [Bool.or_eq_true, decide_eq_true_eq, hread, Option.isNone_some] at hentry
  exact hentry.resolve_right Bool.false_ne_true

lemma ensures_scanEntries {dir : TreePath} {names : List FileName} (hI : I r)
    (hnames : ∀ m ∈ names, ∃ n, r.tree.node (dir ++ [m]) = some n)
    (h : Tally r.tree total fuel (names.map fun m => dir ++ [m]) s) :
    (scanEntries dir names s).Ensures I (fun s' r' => r' = r ∧ Tally r.tree total fuel [] s')
      (Unchanged r) r := by
  induction names generalizing s with
  | nil => exact ⟨rfl, h⟩
  | cons name names ih =>
    rw [scanEntries]
    split_ifs with hmany
    · exact unchanged_data r _
    · rw [ensures_bind]
      refine ensures_query hI (fun node hnode => ?_) (fun e _ => unchanged_io r e) (unchanged_io r _)
      have hread := node_of_lstat hnode
      obtain ⟨n, hname⟩ := hnames name List.mem_cons_self
      refine ih (fun m hm => hnames m (List.mem_cons_of_mem name hm)) (h.visit hread ?_ ?_)
      · intro hcounted
        rw [lossy_of_counted hcounted hname hread]
      · exact Nat.lt_of_succ_le (Nat.not_lt.mp hmany)

lemma ensures_scanPending (hI : I r) (h : Tally r.tree total fuel [] s) :
    (scanPending fuel s).Ensures I (fun bytes r' => r' = r ∧ (counted r.tree = true → bytes = total))
      (Unchanged r) r := by
  induction fuel generalizing s with
  | zero =>
    have hnone : s.pending = [] := by
      have hfuel := h.fuel
      have hcount := h.count
      exact List.eq_nil_of_length_eq_zero (by omega)
    rw [scanPending, hnone]
    refine ⟨rfl, fun hcounted => ?_⟩
    have hbytes := h.bytes hcounted
    rw [hnone] at hbytes
    exact hbytes
  | succ fuel ih =>
    rw [scanPending]
    cases hpending : s.pending with
    | nil =>
      refine ⟨rfl, fun hcounted => ?_⟩
      have hbytes := h.bytes hcounted
      rw [hpending] at hbytes
      exact hbytes
    | cons dir pending =>
      rw [ensures_bind]
      refine ensures_query hI (fun names hnames => ?_) (fun e _ => unchanged_io r e) (unchanged_io r _)
      cases hnames
      have hdir := h.pending dir (by rw [hpending]; exact List.mem_cons_self)
      rw [ensures_bind]
      have htally : Tally r.tree total fuel ((r.tree.names dir).map fun m => dir ++ [m])
          { s with pending := pending } := by
        refine ⟨fun hcounted => ?_, fun p hp => ?_, ?_, h.count⟩
        · have hbytes := h.bytes hcounted
          rw [hpending, List.nil_append, List.map_cons, List.sum_cons,
            WorkspaceTree.sumBelow_children hdir rfl] at hbytes
          rw [List.map_append, List.sum_append_nat, List.map_map]
          exact hbytes
        · exact h.pending p (by rw [hpending]; exact List.mem_cons_of_mem dir hp)
        · have hfuel := h.fuel
          rw [hpending, List.length_cons] at hfuel
          show maxQuotaScanEntries + pending.length ≤ fuel + s.count
          omega
      refine (ensures_scanEntries hI (fun m hm => WorkspaceTree.mem_names.mp hm) htally).mono ?_
        fun e r' he => he
      rintro s' r' ⟨rfl, htally'⟩
      exact ih htally'

/-- The scan always comes to an end, and finds the bytes in use where it counts each file once. -/
lemma ensures_directoryBytes (hI : I r) :
    directoryBytes.Ensures I (fun bytes r' => r' = r ∧ (scannable r.tree = true → bytes = r.bytes))
      (Unchanged r) r := by
  rw [directoryBytes, ensures_bind]
  refine (ensures_assertRoot hI).mono ?_ fun e r' he => he
  rintro _ r' rfl
  have htally : Tally r'.tree r'.tree.listedBytes (maxQuotaScanEntries + 1) [] ⟨0, 0, [[]]⟩ := by
    refine ⟨fun _ => ?_, ?_, ?_, Nat.zero_le _⟩
    · rw [List.nil_append, List.map_cons, List.map_nil, List.sum_singleton, WorkspaceTree.sumBelow_root]
      exact Nat.zero_add _
    · intro p hp
      rw [List.mem_singleton.mp hp]
      exact WorkspaceTree.node_nil _
    · exact Nat.le_refl _
  refine (ensures_scanPending hI htally).mono ?_ fun e r' he => he
  rintro bytes _ ⟨rfl, hbytes⟩
  refine ⟨rfl, fun hscannable => ?_⟩
  rw [scannable, Bool.and_eq_true, decide_eq_true_eq] at hscannable
  exact (hbytes hscannable.1).trans hscannable.2.totalBytes_eq.symm

/-! ### Checks of paths -/

lemma ensures_checkNames (hI : I r) (cursor : TreePath) (names : List FileName) :
    (checkNames cursor names).Ensures I (fun _ r' => r' = r) (Unchanged r) r := by
  induction names generalizing cursor with
  | nil => exact rfl
  | cons name rest ih =>
    rw [checkNames, ensures_bind, ensures_attempt]
    refine ensures_query hI (fun node _ => ?_) (fun e _ => ?_) (unchanged_io r .other)
    · cases node with
      | symlink link => exact unchanged_data r _
      | _ => exact ih _
    · cases e with
      | noEntry => exact unchanged_data r _
      | loop => exact unchanged_io r .loop
      | other => exact unchanged_io r .other

lemma lastName_concat (dir : TreePath) (name : FileName) : DataRoot.lastName (dir ++ [name]) = name := by
  simp [DataRoot.lastName]

lemma mkdir_concat (r : DataRoot) (dir : TreePath) (name : FileName) :
    r.mkdir (dir ++ [name]) =
      if r.tree.CanHold dir name then (.ok (), { r with tree := r.tree.make dir name .directory })
      else (.error .other, r) := by
  rw [DataRoot.mkdir, lastName_concat, List.dropLast_concat]

/-- The directories on the way are there, or have been made. -/
lemma ensures_ensureNames (hI : ∀ r', r'.bytes = r.bytes → I r') (cursor : TreePath)
    (names : List FileName) :
    (ensureNames cursor names).Ensures I
      (fun _ r' => r' = { r with tree := r.tree.enter true cursor names })
      (fun e r' => e ≠ .unfinished ∧ r'.bytes = r.bytes) r := by
  induction names generalizing cursor r with
  | nil => exact rfl
  | cons name rest ih =>
    rw [ensureNames, ensures_bind, ensures_attempt, WorkspaceTree.enter, if_pos rfl]
    have herror : ∀ e : FsError, (DataError.io e) ≠ .unfinished ∧ r.bytes = r.bytes :=
      fun e => ⟨by simp, rfl⟩
    refine ensures_query (hI r rfl) (fun node hnode => ?_) (fun e he => ?_) (herror _)
    · cases node with
      | directory =>
        have hsame : r.tree.make cursor name .directory = r.tree := by
          refine WorkspaceTree.make_of_not fun hcan => ?_
          have hnone := hcan.free
          rw [node_of_lstat hnode] at hnone
          cases hnone
        rw [hsame]
        exact ih hI (cursor ++ [name])
      | _ => exact ⟨by simp, rfl⟩
    · cases e with
      | loop => exact herror _
      | other => exact herror _
      | noEntry =>
        simp only
        rw [ensures_bind]
        have hmade : (r.mkdir (cursor ++ [name])).2.bytes = r.bytes := by
          rw [mkdir_concat]
          split_ifs
          · exact (WorkspaceTree.Grows.make (Or.inl rfl)).total
          · rfl
        refine ensures_fsCall (hI r rfl) (fun _ hok => ⟨hI _ hmade, ?_⟩)
          (fun e _ => ⟨hI _ hmade, by simp, hmade⟩) (herror _)
        rw [mkdir_concat] at hok hmade ⊢
        split_ifs at hok hmade ⊢ with hcan
        rw [ensures_bind]
        refine ensures_query (hI _ hmade) (fun node hnode => ?_) (fun e _ => ⟨by simp, hmade⟩)
          ⟨by simp, hmade⟩
        have hdir := node_of_lstat hnode
        rw [show ({ r with tree := r.tree.make cursor name .directory } : DataRoot).tree =
          r.tree.make cursor name .directory from rfl, WorkspaceTree.node_make_self hcan] at hdir
        cases hdir
        refine (ih (fun r' hr' => hI r' (hr'.trans hmade)) (cursor ++ [name])).mono (fun _ r' hr' => hr') ?_
        rintro e r' ⟨hfinished, hbytes⟩
        exact ⟨hfinished, hbytes.trans hmade⟩

lemma ensures_regularFileSizeOrZero (hI : I r) (target : TreePath) :
    (regularFileSizeOrZero target).Ensures I
      (fun size r' => r' = r ∧ ((∃ contents, r.tree.node target = some (.file contents) ∧
        size = contents.length) ∨ r.tree.node target = none ∧ size = 0)) (Unchanged r) r := by
  rw [regularFileSizeOrZero, ensures_bind, ensures_attempt]
  refine ensures_query hI (fun node hnode => ?_) (fun e he => ?_) (unchanged_io r _)
  · cases node with
    | file contents => exact ⟨rfl, .inl ⟨contents, node_of_lstat hnode, rfl⟩⟩
    | _ => exact unchanged_data r _
  · cases e with
    | noEntry => exact ⟨rfl, .inr ⟨node_of_noEntry he, rfl⟩⟩
    | loop => exact unchanged_io r _
    | other => exact unchanged_io r _

/-! ### Contents -/

/-- A handle of the regular file at the path. -/
structure Handle (r : DataRoot) (inode : ℕ) (path : TreePath) (contents : List UInt8) : Prop where
  inode : r.tree.inodeAt path = some inode
  node : r.tree.node path = some (.file contents)

variable {inode : ℕ} {contents contents' : List UInt8}

lemma Handle.writeInode_eq (h : Handle r inode path contents) (contents' : List UInt8) :
    r.writeInode inode contents' = { r with tree := r.tree.setContents path contents' } := by
  rw [WorkspaceTree.setContents_eq h.inode]
  rfl

/-- The file is counted once, whatever names it has. -/
lemma Handle.bytes_writeInode (h : Handle r inode path contents) (contents' : List UInt8) :
    (r.writeInode inode contents').bytes + contents.length = r.bytes + contents'.length := by
  rw [h.writeInode_eq]
  exact WorkspaceTree.total_setContents h.node FileNode.size

lemma Handle.writeInode (h : Handle r inode path contents) (contents' : List UInt8) :
    Handle (r.writeInode inode contents') inode path contents' where
  inode := WorkspaceTree.inodeAt_writeInode.trans h.inode
  node := WorkspaceTree.node_writeInode_self h.inode h.node

/-- A file that is opened is empty. -/
lemma openFile_ok
    (hprior : (∃ contents, r.tree.node target = some (.file contents) ∧ total = contents.length) ∨
      r.tree.node target = none ∧ total = 0) (hopen : (r.openFile target).1 = .ok inode) :
    Handle (r.openFile target).2 inode target [] ∧ (r.openFile target).2.bytes + total = r.bytes := by
  rcases hprior with ⟨contents, hnode, rfl⟩ | ⟨hnode, rfl⟩
  · obtain ⟨i, hinode⟩ := WorkspaceTree.inodeAt_of_file hnode
    have hhandle : Handle r i target contents := ⟨hinode, hnode⟩
    simp only [DataRoot.openFile, hnode, hinode] at hopen ⊢
    cases hopen
    exact ⟨hhandle.writeInode [], hhandle.bytes_writeInode []⟩
  · simp only [DataRoot.openFile, hnode] at hopen ⊢
    split_ifs at hopen ⊢ with hcan
    cases hopen
    have hne : target ≠ [] := by
      rintro rfl
      rw [WorkspaceTree.node_nil] at hnode
      cases hnode
    have hpath : target.dropLast ++ [DataRoot.lastName target] = target := by
      rw [DataRoot.lastName, List.getLast?_eq_some_getLast hne, Option.getD_some]
      exact List.dropLast_append_getLast hne
    have hmade := (WorkspaceTree.mem_make (n := .file []) hcan).mpr (Or.inl rfl)
    have hinode := WorkspaceTree.inodeAt_of_mem hmade
    have hself := WorkspaceTree.node_of_mem hmade
    rw [DirEntry.path, hpath] at hinode hself
    refine ⟨⟨hinode, hself⟩, ?_⟩
    exact (WorkspaceTree.Grows.make (Or.inr rfl)).total

lemma openFile_error {e : FsError} (h : (r.openFile target).1 = .error e) : (r.openFile target).2 = r := by
  rw [DataRoot.openFile] at h ⊢
  split at h
  · cases h
  · rfl
  · rfl
  · split_ifs at h ⊢ with hcan
    rfl

/-- The root stays within the quota, and fails otherwise with an error of its own. -/
def Within (quotaBytes : ℕ) (e : DataError) (r : DataRoot) : Prop := e ≠ .unfinished ∧ r.bytes ≤ quotaBytes

lemma Unchanged.within {quotaBytes : ℕ} {e : DataError} (h : Unchanged r e r')
    (hle : r.bytes ≤ quotaBytes) : Within quotaBytes e r' := by
  obtain ⟨hfinished, rfl⟩ := h
  exact ⟨hfinished, hle⟩

variable {quotaBytes : ℕ}

lemma ensures_replaceContents (hle : r.bytes ≤ quotaBytes)
    (hprior : (∃ contents, r.tree.node target = some (.file contents) ∧ total = contents.length) ∨
      r.tree.node target = none ∧ total = 0) (hroom : r.bytes + contents.length ≤ quotaBytes + total) :
    (replaceContents target contents).Ensures (fun r' => r'.bytes ≤ quotaBytes)
      (fun _ r' => r'.bytes + total = r.bytes + contents.length ∧ r'.bytes ≤ quotaBytes)
      (Within quotaBytes) r := by
  rw [replaceContents, ensures_bind, ensures_attempt]
  have hio : ∀ (e : FsError) (r' : DataRoot), r'.bytes ≤ quotaBytes → Within quotaBytes (.io e) r' :=
    fun e r' h => ⟨by simp, h⟩
  refine ensures_fsCall hle (fun inode hopen => ?_) (fun e herror => ?_) (hio _ _ hle)
  · obtain ⟨hhandle, hbytes⟩ := openFile_ok hprior hopen
    refine ⟨by omega, ?_⟩
    simp only
    rw [ensures_bind, ensures_attempt, writeHandle, ensures_await]
    -- What has been written is never more than the contents.
    have hwritten : ∀ part : List UInt8, part.length ≤ contents.length →
        ((r.openFile target).2.writeInode inode part).bytes ≤ quotaBytes := by
      intro part hpart
      have hsum := hhandle.bytes_writeInode part
      rw [List.length_nil] at hsum
      omega
    rintro (_ | written)
    · refine ⟨hwritten contents (Nat.le_refl _), ?_⟩
      have hsum := hhandle.bytes_writeInode contents
      rw [List.length_nil] at hsum
      simp only [ensures_returns, ensures_bind]
      refine ensures_query (hwritten contents (Nat.le_refl _)) (fun _ _ => ?_)
        (fun e _ => hio e _ ?_) (hio _ _ ?_)
      · exact ⟨by omega, hwritten contents (Nat.le_refl _)⟩
      · exact hwritten contents (Nat.le_refl _)
      · exact hwritten contents (Nat.le_refl _)
    · have hpart := hwritten (contents.take written) (List.length_take_le' written contents)
      refine ⟨hpart, ?_⟩
      simp only [ensures_throws, ensures_bind]
      exact ensures_query hpart (fun _ _ => hio _ _ hpart) (fun e _ => hio e _ hpart) (hio _ _ hpart)
  · rw [openFile_error herror]
    refine ⟨hle, ?_⟩
    cases e with
    | loop => exact ⟨by simp, hle⟩
    | noEntry => exact hio _ _ hle
    | other => exact hio _ _ hle

/-! ### Requests -/

/-- The reply reports the quota, and the bytes in use as they are, within the quota. -/
def Exact (quotaBytes : ℕ) (reply : DataReply) (r : DataRoot) : Prop :=
  reply.quotaBytes = quotaBytes ∧ reply.usedBytes = r.bytes ∧ r.bytes ≤ quotaBytes

lemma ensures_write {requestedPath : JsText} (hle : r.bytes ≤ quotaBytes)
    (hreckons : (DataRequest.write requestedPath contents).reckons r = true) :
    (write quotaBytes requestedPath contents).Ensures (fun r' => r'.bytes ≤ quotaBytes)
      (Exact quotaBytes) (Within quotaBytes) r := by
  rw [write, ensures_bind]
  refine (ensures_assertRoot hle).mono ?_ fun e r' he => he.within hle
  rintro _ _ rfl
  cases hpath : validateRelativePath requestedPath false with
  | error e => exact ⟨by simp, hle⟩
  | ok path =>
    simp only [DataRequest.reckons, hpath] at hreckons
    simp only
    rw [ensures_bind, ensureSafeParents]
    split_ifs with hdots
    · exact ⟨by simp, hle⟩
    · refine (ensures_ensureNames (fun r' h => h.le.trans hle) [] _).mono ?_
        fun e r' he => ⟨he.1, he.2.le.trans hle⟩
      rintro _ made hmade
      have hmadeBytes : made.bytes ≤ quotaBytes := by
        rw [hmade]
        exact WorkspaceTree.grows_enter.total.le.trans hle
      have hscannable : scannable made.tree = true := by
        rw [hmade]
        exact hreckons
      rw [ensures_bind]
      refine (ensures_regularFileSizeOrZero hmadeBytes _).mono ?_ fun e r' he => he.within hmadeBytes
      rintro priorSize _ ⟨rfl, hprior⟩
      rw [ensures_bind]
      refine (ensures_directoryBytes hmadeBytes).mono ?_ fun e r' he => he.within hmadeBytes
      rintro usedBefore _ ⟨rfl, hused⟩
      rw [hused hscannable]
      split_ifs with hfull
      · exact ⟨by simp, hmadeBytes⟩
      · rw [ensures_bind]
        refine (ensures_replaceContents hmadeBytes hprior (by omega)).mono ?_ fun e r' he => he
        rintro _ r' ⟨hbytes, hwithin⟩
        refine ⟨rfl, ?_, hwithin⟩
        show (DataRoot.bytes _ : ℤ) - priorSize + contents.length = r'.bytes
        omega

lemma ensures_delete {requestedPath : JsText} (hle : r.bytes ≤ quotaBytes)
    (hreckons : (DataRequest.delete requestedPath).reckons r = true) :
    (delete quotaBytes requestedPath).Ensures (fun r' => r'.bytes ≤ quotaBytes)
      (Exact quotaBytes) (Within quotaBytes) r := by
  have hio : ∀ e : FsError, Within quotaBytes (.io e) r := fun e => ⟨by simp, hle⟩
  rw [delete, ensures_bind]
  refine (ensures_assertRoot hle).mono ?_ fun e r' he => he.within hle
  rintro _ _ rfl
  rw [ensures_bind, checkedExistingPath]
  cases hpath : validateRelativePath requestedPath false with
  | error e => exact ⟨by simp, hle⟩
  | ok path =>
    simp only [DataRequest.reckons, hpath] at hreckons
    rw [ensures_bind]
    refine (ensures_checkNames hle [] _).mono ?_ fun e r' he => he.within hle
    rintro _ r' rfl
    rw [pure_eq, ensures_returns, ensures_bind]
    refine ensures_query hle (fun node hnode => ?_) (fun e _ => hio e) (hio _)
    cases node with
    | file contents =>
      have hfile := node_of_lstat hnode
      simp only
      rw [ensures_bind]
      refine ensures_fsCall hle (fun _ hok => ?_) (fun e herror => ?_) (hio _)
      · simp only [DataRoot.rm, hfile]
        have hremoved : DataRoot.bytes { r' with tree := r'.tree.remove (pathNames path) } ≤ quotaBytes :=
          (WorkspaceTree.total_remove_le _ _ FileNode.size).trans hle
        refine ⟨hremoved, ?_⟩
        rw [ensures_bind]
        refine (ensures_directoryBytes hremoved).mono ?_ fun e r' he => he.within hremoved
        rintro usedBytes r' ⟨rfl, hused⟩
        exact ⟨rfl, congrArg Nat.cast (hused hreckons), hremoved⟩
      · simp only [DataRoot.rm, hfile] at herror
        cases herror
    | _ => exact ⟨by simp, hle⟩

/-- A request that can tell what it does keeps the root within the quota at every await, and reports the
bytes in use as they are. -/
theorem DataRequest.ensures {request : DataRequest} (hle : r.bytes ≤ quotaBytes)
    (hreckons : request.reckons r = true) :
    (request.routine quotaBytes).Ensures (fun r' => r'.bytes ≤ quotaBytes) (Exact quotaBytes)
      (Within quotaBytes) r := by
  cases request with
  | write path contents => exact ensures_write hle hreckons
  | delete path => exact ensures_delete hle hreckons

end DataFiles

end Bloom
