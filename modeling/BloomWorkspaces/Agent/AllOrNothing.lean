import BloomWorkspaces.Agent.RoundTrip

/-!
# Uploads that fail

An upload that fails keeps what its target held only where nothing has been written yet, or where the
chunks written by then are what the target held.
-/

namespace Bloom

/-- Where an upload fails, its target is what it was. -/
def AllOrNothing (quota : WorkspaceFiles.Quota) (pwrites : ℕ → List ℕ) (path : JsText)
    (contents : List UInt8) (t : WorkspaceTree) : Prop :=
  ∀ (ids : ℕ → RequestId) (n : ℕ) (u : Upload) (failure : ReadFailure),
    uploadLoop quota ids pwrites path contents t n = (u, some (.error failure)) →
      ∀ text, Utf16.decode path = some text →
        u.tree.node (components text) = t.node (components text)

/-- The chunks before the `k`-th are stored. -/
structure Arrives (quota : WorkspaceFiles.Quota) (pwrites : ℕ → List ℕ) (t : WorkspaceTree)
    (target : TreePath) (contents : List UInt8) (k : ℕ) : Prop where
  hasChunk : HasChunk contents k
  before : ∀ j < k, Stores quota pwrites t target contents j

/-- The `k`-th chunk is the first that is not stored, and it is not within the quota. -/
structure RefusedAt (quota : WorkspaceFiles.Quota) (pwrites : ℕ → List ℕ) (t : WorkspaceTree)
    (target : TreePath) (contents : List UInt8) (k : ℕ) : Prop extends
    Arrives quota pwrites t target contents k where
  refused : ¬ Grants quota t target contents k

/-- The `k`-th chunk is the first that is not stored; it is within the quota, and one of its `pwrite`s
fails. -/
structure FailedAt (quota : WorkspaceFiles.Quota) (pwrites : ℕ → List ℕ) (t : WorkspaceTree)
    (target : TreePath) (contents : List UInt8) (k : ℕ) : Prop extends
    Arrives quota pwrites t target contents k where
  grants : Grants quota t target contents k
  failed : ¬ ChunkCompletes pwrites contents k

/-- An upload to the open target loses nothing: its accounting finds what it replaces, at the chunk that is
refused the target is there and holds what it held at first, and so it does after a `pwrite` that fails. -/
structure Harmless (quota : WorkspaceFiles.Quota) (pwrites : ℕ → List ℕ) (t : WorkspaceTree)
    (target : TreePath) (contents : List UInt8) : Prop where
  covers : Stores quota pwrites t target contents 0 → Covers t target contents
  untouched : ∀ k, RefusedAt quota pwrites t target contents k →
    t.node target = some (.file (heldAt t target contents k))
  unwritten : ∀ k, FailedAt quota pwrites t target contents k →
    t.node target = some (.file (heldAfter pwrites contents k))

section Failing

variable {quota : WorkspaceFiles.Quota} {t : WorkspaceTree} {path : JsText} {text : List Char}
  {contents : List UInt8} {ids : ℕ → RequestId} {pwrites : ℕ → List ℕ} {k n : ℕ} {u : Upload}
  {failure : ReadFailure}

/-- An upload that fails on a writable path has a first chunk that is not stored, unless it does not count
what it replaces. -/
lemma exists_first (h : Addresses path text) (hsize : contents.length ≤ maxReadBytes)
    (hwritable : t.Writable (components text))
    (hcovers : Stores quota pwrites t (components text) contents 0 → Covers t (components text) contents)
    (herror : uploadLoop quota ids pwrites path contents t n = (u, some (.error failure))) :
    ∃ k, RefusedAt quota pwrites t (components text) contents k ∨
      FailedAt quota pwrites t (components text) contents k := by
  by_contra hnone
  have hstores : ∀ k, HasChunk contents k → Stores quota pwrites t (components text) contents k := by
    intro k hchunk
    refine stores_of_no_first (fun j hj hbefore => ?_) hchunk
    have hgrants : Grants quota t (components text) contents j := by
      by_contra hrefused
      exact hnone ⟨j, Or.inl ⟨⟨hj, hbefore⟩, hrefused⟩⟩
    refine ⟨hgrants, ?_⟩
    by_contra hfailed
    exact hnone ⟨j, Or.inr ⟨⟨hj, hbefore⟩, hgrants, hfailed⟩⟩
  obtain ⟨m, u', reply, hok, -⟩ := uploadLoop_stored ids h hsize hwritable
    (hcovers (hstores 0 (Or.inl rfl))) hstores
  cases (uploadLoop_unique hok herror).2

lemma Arrives.covers (h : Arrives quota pwrites t (components text) contents k)
    (hcovers : Stores quota pwrites t (components text) contents 0 → Covers t (components text) contents) :
    0 < k → Covers t (components text) contents :=
  fun hpos => hcovers (h.before 0 hpos)

/-- What stands at the target when a chunk has been refused. -/
lemma RefusedAt.node (ids : ℕ → RequestId) (h : Addresses path text) (hsize : contents.length ≤ maxReadBytes)
    (hwritable : t.Writable (components text))
    (hcovers : Stores quota pwrites t (components text) contents 0 → Covers t (components text) contents)
    (hrefused : RefusedAt quota pwrites t (components text) contents k) :
    ∃ u failure, uploadLoop quota ids pwrites path contents t (k + 1) = (u, some (.error failure)) ∧
      u.tree.node (components text) = some (.file (heldAt t (components text) contents k)) := by
  obtain ⟨failure, hloop⟩ := uploadLoop_refused ids h hsize hwritable hrefused.hasChunk
    (hrefused.covers hcovers) hrefused.before hrefused.refused
  exact ⟨_, failure, hloop, node_openedTree hwritable k⟩

/-- What stands there when a `pwrite` has failed. -/
lemma FailedAt.node (ids : ℕ → RequestId) (h : Addresses path text) (hsize : contents.length ≤ maxReadBytes)
    (hwritable : t.Writable (components text))
    (hcovers : Stores quota pwrites t (components text) contents 0 → Covers t (components text) contents)
    (hfailed : FailedAt quota pwrites t (components text) contents k) :
    ∃ u failure, uploadLoop quota ids pwrites path contents t (k + 1) = (u, some (.error failure)) ∧
      u.tree.node (components text) = some (.file (heldAfter pwrites contents k)) := by
  obtain ⟨failure, hloop⟩ := uploadLoop_failed ids h hsize hwritable hfailed.hasChunk
    (hfailed.covers hcovers) hfailed.before hfailed.grants hfailed.failed
  exact ⟨_, failure, hloop, WorkspaceTree.node_setContents_self (node_openedTree hwritable k)⟩

lemma covers_of_allOrNothing (h : Addresses path text) (hsize : contents.length ≤ maxReadBytes)
    (hwritable : t.Writable (components text)) (hall : AllOrNothing quota pwrites path contents t)
    (hstores : Stores quota pwrites t (components text) contents 0) :
    Covers t (components text) contents := by
  intro used hused
  by_contra hlt
  rw [Nat.not_le] at hlt
  obtain ⟨failure, herror⟩ :=
    uploadLoop_uncovered default h hsize hwritable hused hlt hstores.completes
  have hnode := hall default 1 _ failure herror text h.decoded
  rw [node_storedTree hwritable] at hnode
  rw [contentsAt_of_node hnode.symm, List.length_take] at hlt
  omega

end Failing

/-- An upload is all or nothing exactly when its target cannot be opened or it loses nothing. -/
theorem allOrNothing_iff {quota : WorkspaceFiles.Quota} {pwrites : ℕ → List ℕ} {t : WorkspaceTree}
    {path : JsText} {contents : List UInt8} (hsize : contents.length ≤ maxReadBytes) :
    AllOrNothing quota pwrites path contents t ↔
      ∀ text, Addresses path text → t.Writable (components text) →
        Harmless quota pwrites t (components text) contents := by
  constructor
  · intro hall text h hwritable
    have hcovers : Stores quota pwrites t (components text) contents 0 →
        Covers t (components text) contents := covers_of_allOrNothing h hsize hwritable hall
    refine ⟨hcovers, ?_, ?_⟩
    · intro k hrefused
      obtain ⟨u, failure, herror, hnode⟩ := hrefused.node default h hsize hwritable hcovers
      rw [← hall default (k + 1) u failure herror text h.decoded]
      exact hnode
    · intro k hfailed
      obtain ⟨u, failure, herror, hnode⟩ := hfailed.node default h hsize hwritable hcovers
      rw [← hall default (k + 1) u failure herror text h.decoded]
      exact hnode
  · intro hharmless ids n u failure herror text htext
    by_cases haddresses : ∃ text, Addresses path text
    · obtain ⟨text', h⟩ := haddresses
      obtain rfl : text' = text := Option.some.inj (h.decoded.symm.trans htext)
      by_cases hwritable : t.Writable (components text')
      · obtain ⟨hcovers, huntouched, hunwritten⟩ := hharmless text' h hwritable
        obtain ⟨k, hrefused | hfailed⟩ := exists_first h hsize hwritable hcovers herror
        · obtain ⟨u', failure', hloop, hnode⟩ := hrefused.node ids h hsize hwritable hcovers
          obtain ⟨rfl, -⟩ := uploadLoop_unique hloop herror
          rw [hnode, huntouched k hrefused]
        · obtain ⟨u', failure', hloop, hnode⟩ := hfailed.node ids h hsize hwritable hcovers
          obtain ⟨rfl, -⟩ := uploadLoop_unique hloop herror
          rw [hnode, hunwritten k hfailed]
      · obtain ⟨failure', t', hturn, hnode⟩ := turn_unwritable h hsize hwritable
        obtain ⟨rfl, -⟩ := uploadLoop_unique (uploadLoop_one hturn) herror
        exact hnode
    · obtain ⟨failure', hturn⟩ := turn_unaddressed (not_exists.mp haddresses)
      obtain ⟨rfl, -⟩ := uploadLoop_unique (uploadLoop_one hturn) herror
      rfl

/-! ### Uploads to a small file -/

/-- A tree with three bytes in `d/f`. -/
def smallTree : WorkspaceTree :=
  (WorkspaceTree.empty.prepared [[100], [102]]).setContents [[100], [102]] [1, 2, 3]

/-- One byte more than the smallest quota. -/
def largeContents : List UInt8 := List.replicate (1024 * 1024 + 1) 0

lemma node_smallTree : smallTree.node [[100], [102]] = some (.file [1, 2, 3]) :=
  WorkspaceTree.node_setContents_self writable_nested.node_prepared

lemma writable_smallTree : smallTree.Writable [[100], [102]] :=
  writable_of_file writable_nested node_smallTree

lemma counted_smallTree : Counted smallTree [[100], [102]] := by
  have hsame := WorkspaceTree.prepared_of_file node_smallTree
  refine ⟨?_, ?_, ?_⟩
  · rw [hsame]
    exact counted_nested.accountable.setContents
  · rw [hsame]
    decide +kernel
  · rw [hsame]
    decide +kernel

/-- An upload whose second `pwrite` fails when what is there has been written anew. -/
theorem allOrNothing_smallTree :
    AllOrNothing .smallest (fun _ => [3, 0]) nestedPath [1, 2, 3, 4] smallTree := by
  refine (allOrNothing_iff (by decide)).mpr ?_
  intro text h hwritable
  rw [decode_nestedPath h.decoded, components_nested]
  refine ⟨fun _ => covers_of_counted writable_smallTree counted_smallTree, ?_, ?_⟩
  · intro k hrefused
    obtain rfl := hrefused.hasChunk.eq_zero (by decide)
    rw [node_smallTree, heldAt, contentsAt_of_node node_smallTree]
  · intro k hfailed
    obtain rfl := hfailed.hasChunk.eq_zero (by decide)
    rw [node_smallTree]
    rfl

/-- There is room for four chunks in the place of the file, and not for the fifth. -/
lemma grants_smallTree (k : ℕ) :
    Grants .smallest smallTree [[100], [102]] largeContents k ↔ k < 4 := by
  have hbytes : smallTree.listedBytes = 3 := by decide +kernel
  have hheld : (smallTree.contentsAt [[100], [102]]).length = 3 := by
    rw [contentsAt_of_node node_smallTree]
    rfl
  have hlength : largeContents.length = 1048577 := List.length_replicate
  have hmax : maxFileChunkBytes = 262144 := rfl
  have hquota : WorkspaceFiles.Quota.smallest.bytes = 1048576 := rfl
  rw [grants_iff_room writable_smallTree counted_smallTree, hbytes, hheld, hlength, hmax, hquota]
  omega

/-- A large upload in the place of a small file is cut off after the fourth chunk. -/
theorem not_allOrNothing_smallTree :
    largeContents.length ≤ maxReadBytes ∧
      ¬ AllOrNothing .smallest (fun _ => []) nestedPath largeContents smallTree := by
  have hlength : largeContents.length = 1048577 := List.length_replicate
  have hmax : maxFileChunkBytes = 262144 := rfl
  have hsize : largeContents.length ≤ maxReadBytes := by
    rw [hlength]
    decide
  have haddresses : Addresses nestedPath ['d', '/', 'f'] :=
    ⟨by decide +kernel, by decide, by decide +kernel⟩
  refine ⟨hsize, ?_⟩
  intro hall
  have hchunk : HasChunk largeContents 4 := by
    right
    rw [hlength, hmax]
    decide
  have hcovers : Covers smallTree [[100], [102]] largeContents :=
    covers_of_counted writable_smallTree counted_smallTree
  have hrefused : RefusedAt .smallest (fun _ => []) smallTree [[100], [102]] largeContents 4 :=
    ⟨⟨hchunk, fun j hj => ⟨(grants_smallTree j).mpr hj, rfl⟩⟩,
      fun hgrants => absurd ((grants_smallTree 4).mp hgrants) (by decide)⟩
  rw [← components_nested] at hcovers hrefused
  obtain ⟨u, failure, herror, hafter⟩ := hrefused.node default haddresses hsize
    (components_nested.symm ▸ writable_smallTree) fun _ => hcovers
  have hnode := hall default _ u failure herror _ haddresses.decoded
  rw [hafter, components_nested, node_smallTree] at hnode
  have hsame := congrArg List.length (FileNode.file.inj (Option.some.inj hnode))
  rw [heldAt, List.length_take, hlength, hmax] at hsame
  exact absurd hsame (by decide)

end Bloom
