import BloomWorkspaces.Agent.GuestWorkspace
import BloomWorkspaces.Guest.Waiting
import BloomWorkspaces.Library.Utf16

/-!
# Listings of a directory

`WorkspaceFiles.list` with the times of modification, and the schema of the host for its result. The
names are turned into texts before the entries are looked up again.
-/

namespace Bloom

open Action

namespace WorkspaceFiles

/-- The `st_mtime` of every object, a signed number of 64 bits. -/
structure Clock where
  mtime : Object → ℤ
  inRange : ∀ object, -(2 ^ 63) ≤ mtime object ∧ mtime object < 2 ^ 63

/-- `(st.st_mtime as u64) * 1000`, which may be too large for a `u64`. -/
def millis (mtime : ℤ) : ℕ := (mtime % 2 ^ 64).toNat * 1000

/-- The product wraps in a release build. -/
def modifiedAt (mtime : ℤ) : ℤ := ((millis mtime % 2 ^ 64 : ℕ) : ℤ)

/-- An entry of a reply to `fs.list`. -/
structure FileRecord extends ListEntry where
  modifiedAt : ℤ
  deriving DecidableEq, Repr

/-- The loop over the sorted names. -/
def fileRecords (clock : Clock) (dir : Object) (pathPrefix : FileName) :
    List FileName → FileAction (List FileRecord)
  | [] => pure []
  | name :: rest => do
    match ← fstatat .listing dir name with
    | .error _ => fileRecords clock dir pathPrefix rest
    | .ok n => do
      let others ← fileRecords clock dir pathPrefix rest
      pure (⟨⟨pathPrefix ++ name, entryKind n, n.size⟩,
        modifiedAt (clock.mtime (resolve dir name))⟩ :: others)

def listPrefix (parts : List String) : FileName :=
  if parts = [] then [] else fileName (joinParts parts) ++ [slash]

/-- `list` with the times. -/
def listFiles (clock : Clock) (path : Json) : FileAction (List FileRecord) := do
  let parts ← orThrow (validateWorkspaceDirectory path)
  let dir ← openDirectory parts false
  match ← openat .listing dir dot { directory := true } with
  | .error _ => refuse (.internal "fdopendir failed")
  | .ok dirp => do
    let names ← readdir dirp
    if maxListEntries < (sortedNames names).length then
      refuse (.limitExceeded "directory contains too many entries")
    else fileRecords clock dir (listPrefix parts) (sortedNames names)

/-! ### The schema of the host -/

/-- `z.string().min(1).max(1024)` of a path. -/
def isEntryPath (path : FileName) : Bool :=
  1 ≤ (Utf16.encode (Utf8.toText path)).length && (Utf16.encode (Utf8.toText path)).length ≤ 1024

/-- The schema `FileEntry`; an integer is a safe one. -/
def isFileEntry (r : FileRecord) : Bool :=
  isEntryPath r.path && r.size ≤ maxSafeInteger && (0 ≤ r.modifiedAt && r.modifiedAt ≤ maxSafeInteger)

/-- The schema `FileList` -/
def isFileList (records : List FileRecord) : Bool :=
  records.length ≤ 1000 && records.all isFileEntry

/-! ### Exact listings -/

section Exact

variable (clock : Clock) (t : WorkspaceTree) (dir : TreePath) (pathPrefix : FileName)

/-- Kind, size and time of what is under a name. -/
def stat (name : FileName) : Option (EntryKind × ℕ × ℤ) :=
  (t.node (dir ++ [name])).map fun n =>
    (entryKind n, n.size, clock.mtime (.inside (dir ++ [name])))

/-- What the loop makes of a text. -/
def recordOf (name : FileName) : Option FileRecord :=
  (stat clock t dir name).map fun s => ⟨⟨pathPrefix ++ name, s.1, s.2.1⟩, modifiedAt s.2.2⟩

/-- The record that an entry is due. -/
def ownRecord (name : FileName) : Option FileRecord :=
  (stat clock t dir name).map fun s => ⟨⟨pathPrefix ++ Utf8.lossy name, s.1, s.2.1⟩, 1000 * s.2.2⟩

/-- Whether the write lock is held or not, the listing of a directory has one record for each entry, in the
order of their paths, no product is too large and the host accepts the result. -/
structure ListsExactly (path : Json) (records : List FileRecord) : Prop where
  gives : ∀ locked, Ends Kernel.shown (t, locked) (listFiles clock path) (.ok records) (t, locked)
  exact : records.Perm ((t.names dir).filterMap (ownRecord clock t dir pathPrefix))
  sorted : records.Pairwise fun r r' => r.path ≤ r'.path
  noOverflow : ∀ name ∈ sortedNames (t.readdir (.inside dir)), ∀ s, stat clock t dir name = some s →
    millis s.2.2 < 2 ^ 64
  accepted : isFileList records = true

/-- An entry that is listed as it is: what is under the text of its name looks like itself, its time is
not before 1970, and its fields are within the bounds of the host. -/
structure IsListable (name : FileName) : Prop where
  found : stat clock t dir (Utf8.lossy name) = stat clock t dir name
  path_fits : isEntryPath (pathPrefix ++ Utf8.lossy name) = true
  fits : ∀ s, stat clock t dir name = some s →
    s.2.1 ≤ maxSafeInteger ∧ 0 ≤ s.2.2 ∧ 1000 * s.2.2 ≤ maxSafeInteger

end Exact

/-! ### The two models of a listing -/

section Models

variable (clock : Clock)

/-- Without the times the records are the entries. -/
lemma listEntries_eq (dir : Object) (pathPrefix : FileName) (names : List FileName) :
    listEntries dir pathPrefix names =
      List.map FileRecord.toListEntry <$> fileRecords clock dir pathPrefix names := by
  induction names with
  | nil => rfl
  | cons name names ih =>
    rw [listEntries, fileRecords, map_bind]
    congr 1
    funext found
    cases found with
    | error _ => exact ih
    | ok n =>
      simp only [ih, map_bind, map_pure, bind_map_left]
      rfl

end Models

/-! ### Products -/

section Products

variable {m m' : ℤ}

/-- A time before 1970 is a large number, and its product too large. -/
lemma millis_lt_iff (hlow : -(2 ^ 63) ≤ m) (hhigh : m < 2 ^ 63) :
    millis m < 2 ^ 64 ↔ 0 ≤ m ∧ 1000 * m < 2 ^ 64 := by
  rw [millis]
  omega

lemma modifiedAt_eq (hlow : 0 ≤ m) (hhigh : 1000 * m < 2 ^ 64) : modifiedAt m = 1000 * m := by
  rw [modifiedAt, millis]
  omega

end Products

/-! ### What the loop returns -/

section Loop

variable {clock : Clock} {t : WorkspaceTree} {dir : TreePath} {pathPrefix name : FileName}
  {names : List FileName} {r : FileRecord}

/-- The loop leaves out what it does not find. -/
lemma gives_fileRecords (hnames : ∀ name ∈ names, IsStep name) :
    Gives t (fileRecords clock (.inside dir) pathPrefix names)
      (.ok (names.filterMap (recordOf clock t dir pathPrefix))) t := by
  induction names with
  | nil => exact Ends.pure _
  | cons name names ih =>
    have hname := hnames name List.mem_cons_self
    have hrest := ih fun name' hin => hnames name' (List.mem_cons_of_mem _ hin)
    refine Ends.bind_ok (gives_fstatat .listing dir name) ?_
    cases hfound : t.fstatat (.inside dir) name with
    | error errno =>
      have hnone : recordOf clock t dir pathPrefix name = none := by
        cases hnode : t.node (dir ++ [name]) with
        | none => rw [recordOf, stat, hnode]; rfl
        | some n =>
          rw [fstatat_eq hnode] at hfound
          cases hfound
      rw [List.filterMap_cons_none hnone]
      exact hrest
    | ok n =>
      have hsome : recordOf clock t dir pathPrefix name = some ⟨⟨pathPrefix ++ name, entryKind n,
          n.size⟩, modifiedAt (clock.mtime (.inside (dir ++ [name])))⟩ := by
        rw [recordOf, stat, fstatat_ok hname hfound]
        rfl
      rw [List.filterMap_cons_some hsome, ← hname.resolve]
      exact Ends.bind_ok hrest (Ends.pure _)

/-- The names that are looked up are those of the entries as texts, sorted. -/
lemma sortedNames_perm (t : WorkspaceTree) (dir : TreePath) :
    (sortedNames (t.readdir (.inside dir))).Perm
      (((t.names dir).map Utf8.lossy).filter fun name => name ≠ dot && name ≠ dotDot) := by
  have hdot : Utf8.lossy dot = dot := by decide +kernel
  have hdotDot : Utf8.lossy dotDot = dotDot := by decide +kernel
  refine (List.mergeSort_perm _ _).trans (List.Perm.of_eq ?_)
  rw [WorkspaceTree.readdir, List.map_cons, List.map_cons, hdot, hdotDot,
    List.filter_cons_of_neg (by decide), List.filter_cons_of_neg (by decide)]

lemma isStep_of_mem_sortedNames (h : name ∈ sortedNames (t.readdir (.inside dir))) :
    IsStep name := by
  rw [(sortedNames_perm t dir).mem_iff, List.mem_filter, List.mem_map] at h
  obtain ⟨⟨raw, hraw, rfl⟩, hname⟩ := h
  simp only [Bool.and_eq_true, decide_eq_true_eq, ne_eq] at hname
  obtain ⟨n, hn⟩ := WorkspaceTree.mem_names.mp hraw
  exact isStep_lossy (IsStep.of_plain (WorkspaceTree.plain_of_node hn)).noSlash hname.1 hname.2

lemma length_sortedNames_le (t : WorkspaceTree) (dir : TreePath) :
    (sortedNames (t.readdir (.inside dir))).length ≤ (t.names dir).length := by
  rw [(sortedNames_perm t dir).length_eq]
  exact Nat.le_trans (List.length_filter_le _ _) (Nat.le_of_eq (List.length_map _))

lemma pairwise_sortedNames (names : List FileName) :
    (sortedNames names).Pairwise fun name name' => name ≤ name' := by
  have htrans : ∀ a b c : FileName, decide (a ≤ b) = true → decide (b ≤ c) = true →
      decide (a ≤ c) = true := fun a b c hab hbc =>
    decide_eq_true (List.le_trans (of_decide_eq_true hab) (of_decide_eq_true hbc))
  have htotal : ∀ a b : FileName, (decide (a ≤ b) || decide (b ≤ a)) = true := fun a b => by
    simpa using List.le_total a b
  have hsorted : (sortedNames names).Pairwise fun a b => decide (a ≤ b) = true :=
    List.pairwise_mergeSort htrans htotal _
  exact hsorted.imp fun h => of_decide_eq_true h

end Loop

/-! ### The law -/

section Law

variable {clock : Clock} {t : WorkspaceTree} {dir : TreePath} {pathPrefix name : FileName}
  {path : Json} {parts : List String} {r : FileRecord} {records : List FileRecord}

lemma recordOf_eq_some :
    recordOf clock t dir pathPrefix name = some r ↔
      ∃ s, stat clock t dir name = some s ∧
        r = ⟨⟨pathPrefix ++ name, s.1, s.2.1⟩, modifiedAt s.2.2⟩ := by
  rw [recordOf, Option.map_eq_some_iff]
  exact exists_congr fun s => and_congr_right fun _ => eq_comm

lemma ownRecord_eq_some :
    ownRecord clock t dir pathPrefix name = some r ↔
      ∃ s, stat clock t dir name = some s ∧
        r = ⟨⟨pathPrefix ++ Utf8.lossy name, s.1, s.2.1⟩, 1000 * s.2.2⟩ := by
  rw [ownRecord, Option.map_eq_some_iff]
  exact exists_congr fun s => and_congr_right fun _ => eq_comm

lemma stat_of_mem_names (clock : Clock) (h : name ∈ t.names dir) : ∃ s, stat clock t dir name = some s := by
  obtain ⟨n, hn⟩ := WorkspaceTree.mem_names.mp h
  exact ⟨_, by rw [stat, hn]; rfl⟩

lemma plain_of_stat {s : EntryKind × ℕ × ℤ} (h : stat clock t dir name = some s) :
    isPlainName name = true := by
  obtain ⟨n, hn, -⟩ := Option.map_eq_some_iff.mp h
  exact WorkspaceTree.plain_of_node hn

lemma stat_inRange {s : EntryKind × ℕ × ℤ} (h : stat clock t dir name = some s) :
    -(2 ^ 63) ≤ s.2.2 ∧ s.2.2 < 2 ^ 63 := by
  obtain ⟨n, -, rfl⟩ := Option.map_eq_some_iff.mp h
  exact clock.inRange _

/-- What `list` returns for a directory that is not too large. -/
lemma gives_listFiles (clock : Clock) (hvalid : validateWorkspaceDirectory path = .ok parts)
    (hdir : t.node (parts.map fileName) = some .directory)
    (hcount : (t.names (parts.map fileName)).length ≤ maxListEntries) :
    Gives t (listFiles clock path)
      (.ok ((sortedNames (t.readdir (.inside (parts.map fileName)))).filterMap
        (recordOf clock t (parts.map fileName) (listPrefix parts)))) t := by
  have hparts := (named_of_validateWorkspaceDirectory hvalid).2
  have hlength := length_sortedNames_le t (parts.map fileName)
  rw [listFiles, hvalid]
  refine Ends.bind_ok (Ends.pure parts) ?_
  refine Ends.bind_ok (gives_openDirectory_existing _ hparts hdir) ?_
  refine Ends.bind_ok (gives_openat_dot hdir rfl rfl) ?_
  refine Ends.bind_ok (gives_readdir _) ?_
  rw [if_neg (by omega)]
  exact gives_fileRecords fun name hname => isStep_of_mem_sortedNames hname

lemma lockFree_fileRecords (dir : Object) (names : List FileName) :
    LockFree (fileRecords clock dir pathPrefix names) := by
  induction names with
  | nil => exact LockFree.pure []
  | cons name rest ih =>
    refine LockFree.bind (LockFree.observe _ _ _ _) fun found => ?_
    cases found with
    | error errno => exact ih
    | ok n => exact LockFree.bind ih fun others => LockFree.pure _

lemma lockFree_listFiles (path : Json) : LockFree (listFiles clock path) := by
  refine LockFree.bind (lockFree_orThrow _) fun parts => ?_
  refine LockFree.bind (lockFree_openDirectory _ _) fun dir => ?_
  refine LockFree.bind (LockFree.openat _ _ _ _) fun opened => ?_
  cases opened with
  | error errno => exact LockFree.throw _
  | ok dirp =>
    refine LockFree.bind (LockFree.observe _ _ _ _) fun names => ?_
    split
    · exact LockFree.throw _
    · exact lockFree_fileRecords _ _

/-- The paths of the records are in order. -/
lemma pairwise_records (names : List FileName) :
    ((sortedNames names).filterMap (recordOf clock t dir pathPrefix)).Pairwise
      fun r r' => r.path ≤ r'.path := by
  refine List.Pairwise.filterMap _ ?_ (pairwise_sortedNames names)
  intro name name' hle r hr r' hr'
  obtain ⟨s, -, rfl⟩ := recordOf_eq_some.mp hr
  obtain ⟨s', -, rfl⟩ := recordOf_eq_some.mp hr'
  exact List.append_left_le hle

/-- An entry of a directory that is listed as it is. -/
lemma isListable_of_listsExactly (h : ListsExactly clock t dir pathPrefix path records)
    (hrecords : records =
      (sortedNames (t.readdir (.inside dir))).filterMap (recordOf clock t dir pathPrefix))
    (hname : name ∈ t.names dir) : IsListable clock t dir pathPrefix name := by
  obtain ⟨s, hs⟩ := stat_of_mem_names clock hname
  have hown : ownRecord clock t dir pathPrefix name =
      some ⟨⟨pathPrefix ++ Utf8.lossy name, s.1, s.2.1⟩, 1000 * s.2.2⟩ :=
    ownRecord_eq_some.mpr ⟨s, hs, rfl⟩
  have hmem := h.exact.mem_iff.mpr (List.mem_filterMap.mpr ⟨name, hname, hown⟩)
  have hentry := h.accepted
  simp only [isFileList, Bool.and_eq_true, List.all_eq_true] at hentry
  have hentry := hentry.2 _ hmem
  simp only [isFileEntry, Bool.and_eq_true, decide_eq_true_eq] at hentry
  obtain ⟨⟨hpath, hsize⟩, hlow, hhigh⟩ := hentry
  -- the record comes from the text of the name, whatever is under it
  rw [hrecords] at hmem
  obtain ⟨name', hname', hrecord⟩ := List.mem_filterMap.mp hmem
  obtain ⟨s', hs', heq⟩ := recordOf_eq_some.mp hrecord
  simp only [FileRecord.mk.injEq, ListEntry.mk.injEq, List.append_cancel_left_eq] at heq
  obtain ⟨⟨rfl, hkind, hsize'⟩, htime⟩ := heq
  have hrange := stat_inRange hs'
  have hmillis := (millis_lt_iff hrange.1 hrange.2).mp (h.noOverflow _ hname' s' hs')
  rw [modifiedAt_eq hmillis.1 hmillis.2] at htime
  have hsame : s' = s := by
    have hmtime : s'.2.2 = s.2.2 := by omega
    exact Prod.ext hkind.symm (Prod.ext hsize'.symm hmtime)
  refine ⟨by rw [hs', hs, hsame], hpath, fun s'' hs'' => ?_⟩
  rw [hs] at hs''
  cases hs''
  exact ⟨hsize, by omega, hhigh⟩

/-- A directory whose entries are all listed as they are. -/
lemma perm_of_isListable (h : ∀ name ∈ t.names dir, IsListable clock t dir pathPrefix name) :
    ((sortedNames (t.readdir (.inside dir))).filterMap (recordOf clock t dir pathPrefix)).Perm
      ((t.names dir).filterMap (ownRecord clock t dir pathPrefix)) := by
  have hplain : ∀ name ∈ (t.names dir).map Utf8.lossy,
      (name ≠ dot && name ≠ dotDot) = true := by
    intro text htext
    obtain ⟨name, hname, rfl⟩ := List.mem_map.mp htext
    obtain ⟨s, hs⟩ := stat_of_mem_names clock hname
    rw [← (h name hname).found] at hs
    have hstep := IsStep.of_plain (plain_of_stat hs)
    simpa using ⟨hstep.ne_dot, hstep.ne_dotDot⟩
  have hrecord : ∀ name ∈ t.names dir, recordOf clock t dir pathPrefix (Utf8.lossy name) =
      ownRecord clock t dir pathPrefix name := by
    intro name hname
    obtain ⟨s, hs⟩ := stat_of_mem_names clock hname
    have hfits := (h name hname).fits s hs
    have hmax : maxSafeInteger = 9007199254740991 := rfl
    rw [recordOf, ownRecord, (h name hname).found, hs, Option.map_some, Option.map_some,
      modifiedAt_eq hfits.2.1 (by omega)]
  refine ((sortedNames_perm t dir).filterMap _).trans (List.Perm.of_eq ?_)
  rw [List.filter_eq_self.mpr hplain, List.filterMap_map]
  exact List.filterMap_congr hrecord

lemma millis_lt_of_isListable {s : EntryKind × ℕ × ℤ}
    (h : IsListable clock t dir pathPrefix name) (hs : stat clock t dir name = some s) :
    millis s.2.2 < 2 ^ 64 := by
  have hfits := h.fits s hs
  have hrange := stat_inRange hs
  have hmax : maxSafeInteger = 9007199254740991 := rfl
  exact (millis_lt_iff hrange.1 hrange.2).mpr ⟨hfits.2.1, by omega⟩

lemma isListable_of_stat {s : EntryKind × ℕ × ℤ} (hlossy : Utf8.lossy name = name)
    (hpath : isEntryPath (pathPrefix ++ name) = true) (hs : stat clock t dir name = some s)
    (hfits : s.2.1 ≤ maxSafeInteger ∧ 0 ≤ s.2.2 ∧ 1000 * s.2.2 ≤ maxSafeInteger) :
    IsListable clock t dir pathPrefix name := by
  refine ⟨by rw [hlossy], by rwa [hlossy], fun s' hs' => ?_⟩
  rw [hs] at hs'
  cases hs'
  exact hfits

lemma isFileEntry_of_isListable (h : IsListable clock t dir pathPrefix name)
    (hown : ownRecord clock t dir pathPrefix name = some r) : isFileEntry r = true := by
  obtain ⟨s, hs, rfl⟩ := ownRecord_eq_some.mp hown
  obtain ⟨hsize, hlow, hhigh⟩ := h.fits s hs
  simp only [isFileEntry, Bool.and_eq_true, decide_eq_true_eq]
  exact ⟨⟨h.path_fits, hsize⟩, by omega, hhigh⟩

/-- A directory with at most as many entries as a listing may have is listed exactly if and only if
each of its entries can be listed as it is. -/
theorem listsExactly_iff (clock : Clock) (t : WorkspaceTree) (path : Json) (parts : List String)
    (hvalid : validateWorkspaceDirectory path = .ok parts)
    (hdir : t.node (parts.map fileName) = some .directory)
    (hcount : (t.names (parts.map fileName)).length ≤ maxListEntries) :
    (∃ records, ListsExactly clock t (parts.map fileName) (listPrefix parts) path records) ↔
      ∀ name ∈ t.names (parts.map fileName),
        IsListable clock t (parts.map fileName) (listPrefix parts) name := by
  have hgives := gives_listFiles clock hvalid hdir hcount
  constructor
  · rintro ⟨records, h⟩ name hname
    have hsame := (Ends.unique (h.gives false) hgives (s := .initial t) rfl).1
    exact isListable_of_listsExactly h (Except.ok.inj hsame) hname
  · intro h
    have hperm := perm_of_isListable h
    refine ⟨_, (lockFree_listFiles _).ends hgives, hperm, pairwise_records _, ?_, ?_⟩
    · intro text htext s hs
      rw [(sortedNames_perm t _).mem_iff, List.mem_filter, List.mem_map] at htext
      obtain ⟨⟨name, hname, rfl⟩, -⟩ := htext
      rw [(h name hname).found] at hs
      exact millis_lt_of_isListable (h name hname) hs
    · have hlength := List.length_filterMap_le
        (ownRecord clock t (parts.map fileName) (listPrefix parts)) (t.names (parts.map fileName))
      have hmax : maxListEntries = 1000 := rfl
      simp only [isFileList, Bool.and_eq_true, decide_eq_true_eq, List.all_eq_true, hperm.length_eq,
        hperm.mem_iff]
      refine ⟨by omega, fun r hr => ?_⟩
      obtain ⟨name, hname, hown⟩ := List.mem_filterMap.mp hr
      exact isFileEntry_of_isListable (h name hname) hown

def stoppedClock (time : ℤ) (h : -(2 ^ 63) ≤ time ∧ time < 2 ^ 63) : Clock := ⟨fun _ => time, fun _ => h⟩

/-- A directory `d` with a file, a directory and a link out of the workspace. -/
def threeEntries : WorkspaceTree where
  entries := [⟨[], [100], 0, .directory⟩, ⟨[[100]], [99], 1, .symlink .outside⟩,
    ⟨[[100]], [97], 2, .file [104, 105, 10]⟩, ⟨[[100]], [98], 3, .directory⟩]
  slot := fun _ => 0
  room := fun _ _ => true
  nodup := by decide
  plain := by decide
  closed := by decide
  linked := by decide

theorem listsExactly_iff_threeEntries :
    threeEntries.names [[100]] = [[99], [97], [98]] ∧
      ∃ records, ListsExactly (stoppedClock 1700000000 (by decide)) threeEntries (["d"].map fileName)
        (listPrefix ["d"]) (.string "d") records := by
  have hnames : threeEntries.names [[100]] = [[99], [97], [98]] := by decide
  have hdir : (["d"].map fileName) = [[100]] := by decide +kernel
  have hprefix : listPrefix ["d"] = [100, 47] := by decide +kernel
  refine ⟨hnames, (listsExactly_iff (stoppedClock 1700000000 (by decide)) threeEntries (.string "d") ["d"]
    (by decide +kernel) (by decide +kernel) (by decide +kernel)).mpr ?_⟩
  rw [hdir, hprefix, hnames]
  intro name hname
  simp only [List.mem_cons, List.not_mem_nil, or_false] at hname
  rcases hname with rfl | rfl | rfl
  · exact isListable_of_stat (s := (.symlink, 0, 1700000000)) (by decide +kernel) (by decide +kernel)
      (by decide +kernel) (by decide +kernel)
  · exact isListable_of_stat (s := (.file, 3, 1700000000)) (by decide +kernel) (by decide +kernel)
      (by decide +kernel) (by decide +kernel)
  · exact isListable_of_stat (s := (.directory, 0, 1700000000)) (by decide +kernel) (by decide +kernel)
      (by decide +kernel) (by decide +kernel)

/-- A workspace with one file, which was last modified a second before 1970. -/
def oldFile : WorkspaceTree := WorkspaceTree.empty.make [] [97] (.file [])

theorem not_listsExactly : ¬∀ (clock : Clock) (t : WorkspaceTree) (path : Json) (parts : List String),
    validateWorkspaceDirectory path = .ok parts → t.node (parts.map fileName) = some .directory →
    (t.names (parts.map fileName)).length ≤ maxListEntries →
    ∃ records, ListsExactly clock t (parts.map fileName) (listPrefix parts) path records := by
  intro h
  have hnames : oldFile.names [] = [[97]] := by decide +kernel
  have hcount : (oldFile.names []).length ≤ maxListEntries := by
    rw [hnames]
    decide
  obtain ⟨records, hrecords⟩ := h (stoppedClock (-1) (by decide)) oldFile (.string ".") [] rfl rfl hcount
  have hname : [97] ∈ oldFile.names [] := by
    rw [hnames]
    exact List.mem_singleton.mpr rfl
  have hgives := @gives_listFiles oldFile (.string ".") [] (stoppedClock (-1) (by decide)) rfl rfl
    hcount
  have hsame := (Ends.unique (hrecords.gives false) hgives (s := .initial oldFile) rfl).1
  have hlistable := isListable_of_listsExactly hrecords (Except.ok.inj hsame) hname
  have hstat : stat (stoppedClock (-1) (by decide)) oldFile [] [97] = some (.file, 0, -1) := by
    decide +kernel
  exact absurd (hlistable.fits _ hstat).2.1 (by decide)

end Law

end WorkspaceFiles

end Bloom
