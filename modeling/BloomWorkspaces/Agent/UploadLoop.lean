import BloomWorkspaces.Agent.Upload
import BloomWorkspaces.Guest.Accounting

/-!
# How far an upload gets

The chunks of an upload are written one after the other, and each is accounted for on its own. An upload
runs through its chunks until one of them is refused.
-/

namespace Bloom

/-- The `k`-th chunk is one of an upload; an empty file has one empty chunk. -/
def HasChunk (contents : List UInt8) (k : ℕ) : Prop := k = 0 ∨ k * maxFileChunkBytes < contents.length

/-- What the target holds when the first `k` chunks have been written. -/
def heldAt (t : WorkspaceTree) (target : TreePath) (contents : List UInt8) : ℕ → List UInt8
  | 0 => t.contentsAt target
  | k + 1 => contents.take ((k + 1) * maxFileChunkBytes)

/-- The tree that the first `k` chunks leave. -/
def storedTree (t : WorkspaceTree) (target : TreePath) (contents : List UInt8) : ℕ → WorkspaceTree
  | 0 => t
  | k + 1 => (t.prepared target).setContents target (contents.take ((k + 1) * maxFileChunkBytes))

/-- The tree that the `k`-th chunk is accounted for in, with its target open. -/
def openedTree (t : WorkspaceTree) (target : TreePath) (contents : List UInt8) : ℕ → WorkspaceTree
  | 0 => t.prepared target
  | k + 1 => storedTree t target contents (k + 1)

/-- The bytes that are accounted for when the `k`-th chunk is written. -/
def accountedAt (t : WorkspaceTree) (target : TreePath) (contents : List UInt8) (k used : ℕ) : ℤ :=
  used - (heldAt t target contents k).length + min ((k + 1) * maxFileChunkBytes) contents.length

/-- The `k`-th chunk is within the quota. -/
def Grants (quota : WorkspaceFiles.Quota) (t : WorkspaceTree) (target : TreePath)
    (contents : List UInt8) (k : ℕ) : Prop :=
  ∃ used, (openedTree t target contents k).usedBytes = .ok used ∧
    accountedAt t target contents k used ≤ quota.bytes

/-- No `pwrite` of the `k`-th chunk fails. -/
def ChunkCompletes (pwrites : ℕ → List ℕ) (contents : List UInt8) (k : ℕ) : Prop :=
  Completes (pwrites k) (fileChunk contents k).length

instance (pwrites : ℕ → List ℕ) (contents : List UInt8) (k : ℕ) :
    Decidable (ChunkCompletes pwrites contents k) :=
  inferInstanceAs (Decidable (Completes _ _))

/-- The `k`-th chunk is within the quota, and none of its `pwrite`s fails. -/
structure Stores (quota : WorkspaceFiles.Quota) (pwrites : ℕ → List ℕ) (t : WorkspaceTree)
    (target : TreePath) (contents : List UInt8) (k : ℕ) : Prop where
  grants : Grants quota t target contents k
  completes : ChunkCompletes pwrites contents k

/-- What the target holds when a `pwrite` of the `k`-th chunk has failed. -/
def heldAfter (pwrites : ℕ → List ℕ) (contents : List UInt8) (k : ℕ) : List UInt8 :=
  contents.take (k * maxFileChunkBytes + taken (pwrites k) (fileChunk contents k).length)

/-- The accounting finds what the first chunk replaces, up to the size of this chunk. -/
def Covers (t : WorkspaceTree) (target : TreePath) (contents : List UInt8) : Prop :=
  ∀ used, (t.prepared target).usedBytes = .ok used →
    (t.contentsAt target).length ≤ used + min maxFileChunkBytes contents.length

/-! ### Stages -/

section Stages

variable {t : WorkspaceTree} {target : TreePath} {contents held : List UInt8} {k used : ℕ}

lemma contentsAt_of_node (h : t.node target = some (.file held)) : t.contentsAt target = held := by
  rw [WorkspaceTree.contentsAt, h]

/-- A file is writable as long as it is there. -/
lemma writable_of_file (hwritable : t.Writable target) {t' : WorkspaceTree}
    (h : t'.node target = some (.file held)) : t'.Writable target := by
  have hprepared : (t'.prepared target).node target = some (.file held) := by
    rwa [WorkspaceTree.prepared_of_file h]
  exact WorkspaceTree.writable_of_prepared hwritable.length hprepared

lemma node_storedTree (hwritable : t.Writable target) (k : ℕ) :
    (storedTree t target contents (k + 1)).node target =
      some (.file (contents.take ((k + 1) * maxFileChunkBytes))) :=
  WorkspaceTree.node_setContents_self hwritable.node_prepared

lemma writable_storedTree (hwritable : t.Writable target) (k : ℕ) :
    (storedTree t target contents k).Writable target := by
  cases k with
  | zero => exact hwritable
  | succ k => exact writable_of_file hwritable (node_storedTree hwritable k)

lemma contentsAt_storedTree (hwritable : t.Writable target) (k : ℕ) :
    (storedTree t target contents k).contentsAt target = heldAt t target contents k := by
  cases k with
  | zero => rfl
  | succ k => exact contentsAt_of_node (node_storedTree hwritable k)

lemma prepared_storedTree (hwritable : t.Writable target) (k : ℕ) :
    (storedTree t target contents k).prepared target = openedTree t target contents k := by
  cases k with
  | zero => rfl
  | succ k => exact WorkspaceTree.prepared_of_file (node_storedTree hwritable k)

lemma node_openedTree (hwritable : t.Writable target) (k : ℕ) :
    (openedTree t target contents k).node target = some (.file (heldAt t target contents k)) := by
  rw [← prepared_storedTree hwritable, ← contentsAt_storedTree hwritable]
  exact (writable_storedTree hwritable k).node_prepared

/-- The next chunk is written into the open target. -/
lemma setContents_openedTree (k : ℕ) :
    (openedTree t target contents k).setContents target
        (contents.take ((k + 1) * maxFileChunkBytes)) =
      storedTree t target contents (k + 1) := by
  cases k with
  | zero => rfl
  | succ k => exact WorkspaceTree.setContents_setContents

/-! ### Chunks -/

/-- A file that fits into one chunk has no other. -/
lemma HasChunk.eq_zero (h : HasChunk contents k) (hsize : contents.length ≤ maxFileChunkBytes) : k = 0 := by
  rcases h with hzero | hlt
  · exact hzero
  · by_contra hne
    have hle := Nat.mul_le_mul_right maxFileChunkBytes (Nat.one_le_iff_ne_zero.mpr hne)
    omega

lemma HasChunk.le (h : HasChunk contents k) : k * maxFileChunkBytes ≤ contents.length := by
  rcases h with rfl | hlt
  · rw [Nat.zero_mul]
    exact Nat.zero_le _
  · exact Nat.le_of_lt hlt

lemma HasChunk.before {j : ℕ} (h : HasChunk contents k) (hj : j < k) : HasChunk contents j := by
  rcases h with rfl | hlt
  · exact absurd hj (Nat.not_lt_zero j)
  · exact Or.inr (Nat.lt_of_le_of_lt (Nat.mul_le_mul_right _ (Nat.le_of_lt hj)) hlt)

lemma HasChunk.succ (h : HasChunk contents (k + 1)) :
    (k + 1) * maxFileChunkBytes < contents.length := by
  rcases h with hzero | hlt
  · cases hzero
  · exact hlt

/-- The upload ends where the chunk after the last would begin. -/
lemma nextOffset_eq (h : HasChunk contents k) :
    k * maxFileChunkBytes + (fileChunk contents k).length =
      min ((k + 1) * maxFileChunkBytes) contents.length := by
  have hle := h.le
  rw [length_fileChunk, Nat.succ_mul]
  omega

lemma take_append_fileChunk (contents : List UInt8) (k : ℕ) {m : ℕ} (hm : m ≤ (fileChunk contents k).length) :
    contents.take (k * maxFileChunkBytes + m) =
      contents.take (k * maxFileChunkBytes) ++ (fileChunk contents k).take m := by
  have hlength := length_fileChunk contents k
  rw [List.take_add, fileChunk, List.take_take, Nat.min_eq_left (by omega)]

lemma splice_at_end (start : ℕ) (chunk base : List UInt8) (h : base.length = start) :
    splice start chunk base = base ++ chunk := by
  rw [splice, List.take_of_length_le (Nat.le_of_eq h), h, Nat.sub_self, List.replicate_zero,
    List.append_nil, List.drop_eq_nil_of_le (by omega), List.append_nil]

/-- What the target holds when `m` bytes of the `k`-th chunk have been written. -/
lemma written_prefix (text : List Char) (h : HasChunk contents k) {m : ℕ}
    (hm : m ≤ (fileChunk contents k).length) :
    (chunkFields text (k * maxFileChunkBytes) ((fileChunk contents k).take m)
      (k * maxFileChunkBytes = 0)).written (heldAt t target contents k) =
        contents.take (k * maxFileChunkBytes + m) := by
  rw [take_append_fileChunk contents k hm]
  cases k with
  | zero =>
    simp only [WorkspaceFiles.WriteFields.written, chunkFields, Nat.zero_mul, decide_true, if_true,
      List.take_zero, List.nil_append]
    split
    · rename_i hempty
      exact hempty.symm
    · exact splice_at_end 0 _ [] rfl
  | succ k =>
    have hlt := h.succ
    have hpos : 0 < maxFileChunkBytes := by decide
    have hne : (k + 1) * maxFileChunkBytes ≠ 0 := by
      rw [Nat.succ_mul]
      omega
    simp only [WorkspaceFiles.WriteFields.written, chunkFields, heldAt, decide_eq_true_eq, if_neg hne]
    split
    · rename_i hempty
      rw [hempty, List.append_nil]
    · apply splice_at_end
      rw [List.length_take]
      omega

/-- What the target holds when the `k`-th chunk has been written. -/
lemma written_chunk (text : List Char) (h : HasChunk contents k) :
    (chunkFields text (k * maxFileChunkBytes) (fileChunk contents k)
      (k * maxFileChunkBytes = 0)).written (heldAt t target contents k) =
        contents.take ((k + 1) * maxFileChunkBytes) := by
  have hwhole : (chunkFields text (k * maxFileChunkBytes)
      ((fileChunk contents k).take (fileChunk contents k).length) (k * maxFileChunkBytes = 0)).written
        (heldAt t target contents k) = _ := written_prefix text h le_rfl
  have hnext := nextOffset_eq h
  rw [List.take_length, hnext] at hwhole
  rw [hwhole, List.take_eq_take_iff]
  omega

/-- What the target holds when a `pwrite` of the `k`-th chunk has failed. -/
lemma partly_chunk (text : List Char) (taking : List ℕ) (h : HasChunk contents k) :
    (chunkFields text (k * maxFileChunkBytes) (fileChunk contents k)
      (k * maxFileChunkBytes = 0)).partly taking (heldAt t target contents k) =
        contents.take (k * maxFileChunkBytes + taken taking (fileChunk contents k).length) :=
  written_prefix text h (taken_le taking _)

/-- The bytes that the guest accounts for are those of the whole upload so far. -/
lemma accounted_chunk (text : List Char) (h : HasChunk contents k) (used : ℕ) :
    (chunkFields text (k * maxFileChunkBytes) (fileChunk contents k)
      (k * maxFileChunkBytes = 0)).accounted used (heldAt t target contents k).length =
        accountedAt t target contents k used := by
  have hpos : 0 < maxFileChunkBytes := by decide
  have hnext := nextOffset_eq h
  rw [WorkspaceFiles.WriteFields.accounted, accountedAt, WorkspaceFiles.WriteFields.resultingSize]
  simp only [chunkFields, decide_eq_true_eq]
  rw [hnext]
  cases k with
  | zero => rw [if_pos (Nat.zero_mul _)]
  | succ k =>
    have hlt := h.succ
    have hne : (k + 1) * maxFileChunkBytes ≠ 0 := by
      rw [Nat.succ_mul]
      omega
    have hheld : (heldAt t target contents (k + 1)).length = (k + 1) * maxFileChunkBytes := by
      rw [heldAt, List.length_take]
      omega
    have hmax : max (min ((k + 1 + 1) * maxFileChunkBytes) contents.length)
        ((k + 1) * maxFileChunkBytes) = min ((k + 1 + 1) * maxFileChunkBytes) contents.length := by
      rw [Nat.succ_mul (k + 1)]
      omega
    rw [if_neg hne, hheld, hmax]

/-- No stage of an upload is accounted for with less than nothing. -/
lemma accountedAt_nonneg (hcovers : Covers t target contents) (h : HasChunk contents k)
    (hused : (openedTree t target contents k).usedBytes = .ok used) :
    0 ≤ accountedAt t target contents k used := by
  rw [accountedAt]
  cases k with
  | zero =>
    have hle := hcovers used hused
    rw [heldAt, Nat.zero_add, Nat.one_mul]
    omega
  | succ k =>
    have hlt := h.succ
    have hheld : (heldAt t target contents (k + 1)).length = (k + 1) * maxFileChunkBytes := by
      rw [heldAt, List.length_take]
      omega
    rw [hheld, Nat.succ_mul (k + 1)]
    omega

end Stages

/-! ### Room in a tree that is counted -/

section Room

variable {t : WorkspaceTree} {target : TreePath} {contents : List UInt8} {k : ℕ}
  {quota : WorkspaceFiles.Quota}

/-- The walk counts the tree in which the target, which has no second name, has been opened. -/
structure Counted (t : WorkspaceTree) (target : TreePath) : Prop where
  accountable : (t.prepared target).Accountable
  listedFiles_le : (t.prepared target).listedFiles ≤ WorkspaceFiles.maxScanEntries
  single : (t.prepared target).single target = true

lemma sum_openedTree (hwritable : t.Writable target) (hsingle : (t.prepared target).single target = true)
    (w : FileNode → ℕ) (k : ℕ) :
    (openedTree t target contents k).sum w + w (.file (t.contentsAt target)) =
      (t.prepared target).sum w + w (.file (heldAt t target contents k)) := by
  cases k with
  | zero => rfl
  | succ k => exact WorkspaceTree.sum_setContents hsingle hwritable.node_prepared w

/-- Such a tree is counted exactly at every stage. -/
lemma usedBytes_openedTree (contents : List UInt8) (hwritable : t.Writable target) (h : Counted t target) (k : ℕ) :
    (openedTree t target contents k).usedBytes = .ok (openedTree t target contents k).listedBytes := by
  have hcount : (openedTree t target contents k).listedFiles = (t.prepared target).listedFiles :=
    Nat.add_right_cancel (sum_openedTree hwritable h.single FileNode.count k)
  refine usedBytes_of_accountable ?_ (hcount.symm ▸ h.listedFiles_le)
  cases k with
  | zero => exact h.accountable
  | succ k => exact h.accountable.setContents

/-- What is accounted for then are the bytes of the tree with the upload in place of the target. -/
lemma accountedAt_counted (contents : List UInt8) (hwritable : t.Writable target) (h : Counted t target)
    (k : ℕ) :
    accountedAt t target contents k (openedTree t target contents k).listedBytes +
        (t.contentsAt target).length =
      t.listedBytes + min ((k + 1) * maxFileChunkBytes) contents.length := by
  have hsum : (openedTree t target contents k).listedBytes + (t.contentsAt target).length =
      (t.prepared target).listedBytes + (heldAt t target contents k).length :=
    sum_openedTree hwritable h.single FileNode.size k
  have hgrown := (WorkspaceTree.grows_prepared t target).listed
  rw [accountedAt]
  omega

/-- A chunk is within the quota if and only if there is room for the upload up to its end. -/
lemma grants_iff_room (hwritable : t.Writable target) (h : Counted t target) :
    Grants quota t target contents k ↔
      t.listedBytes + min ((k + 1) * maxFileChunkBytes) contents.length ≤
        quota.bytes + (t.contentsAt target).length := by
  have hused := usedBytes_openedTree contents hwritable h k
  have haccounted := accountedAt_counted contents hwritable h k
  constructor
  · rintro ⟨used, hfound, hquota⟩
    rw [hused] at hfound
    cases hfound
    omega
  · intro hroom
    exact ⟨_, hused, by omega⟩

lemma covers_of_counted (hwritable : t.Writable target) (h : Counted t target) :
    Covers t target contents := by
  intro used hused
  rw [usedBytes_of_accountable h.accountable h.listedFiles_le] at hused
  cases hused
  have hsum : ((t.prepared target).setContents target []).listedBytes + (t.contentsAt target).length =
      (t.prepared target).listedBytes + 0 :=
    WorkspaceTree.sum_setContents h.single hwritable.node_prepared FileNode.size
  omega

end Room

/-! ### One turn of the loop -/

section Turn

variable {t : WorkspaceTree} {path : JsText} {text : List Char} {contents : List UInt8} {k used : ℕ}
  {quota : WorkspaceFiles.Quota} {id : RequestId} {taking : List ℕ}

lemma length_fileChunk_le (contents : List UInt8) (k : ℕ) :
    (fileChunk contents k).length ≤ maxFileChunkBytes := by
  rw [length_fileChunk]
  exact Nat.min_le_left _ _

lemma HasChunk.end_le (h : HasChunk contents k) (hsize : contents.length ≤ maxReadBytes) :
    k * maxFileChunkBytes + (fileChunk contents k).length ≤ maxReadBytes := by
  rw [nextOffset_eq h]
  exact Nat.le_trans (Nat.min_le_right _ _) hsize

/-- A request that fails ends the upload where it is. -/
lemma turn_failure {u : Upload} {tree : WorkspaceTree} {failure : ReadFailure}
    (h : (writeRequest quota taking path u.offset (Base64.encode (u.chunk contents)) (u.offset = 0)).send id
      u.tree = (.error failure, tree)) :
    u.turn quota id taking path contents = ({ u with tree := tree }, some (.error failure)) := by
  rw [Upload.turn]
  simp only [h]
  rfl

lemma turn_rejected {u : Upload} {tree : WorkspaceTree} {reply : WorkspaceFiles.WriteReply}
    {failure : ReadFailure}
    (h : (writeRequest quota taking path u.offset (Base64.encode (u.chunk contents)) (u.offset = 0)).send id
      u.tree = (.ok reply, tree))
    (hparsed : parseWriteChunk reply = .error failure) :
    u.turn quota id taking path contents = ({ u with tree := tree }, some (.error failure)) := by
  rw [Upload.turn]
  simp only [h, Except.bind, hparsed]

lemma turn_reply {u : Upload} {tree : WorkspaceTree} {reply : WorkspaceFiles.WriteReply}
    {final : WriteChunk}
    (h : (writeRequest quota taking path u.offset (Base64.encode (u.chunk contents)) (u.offset = 0)).send id
      u.tree = (.ok reply, tree))
    (hparsed : parseWriteChunk reply = .ok final) :
    u.turn quota id taking path contents = { u with tree := tree }.receive path contents final := by
  rw [Upload.turn]
  simp only [h, Except.bind, hparsed]

lemma length_chunk_le (u : Upload) (contents : List UInt8) :
    (u.chunk contents).length ≤ maxFileChunkBytes := by
  rw [Upload.chunk]
  exact List.length_take_le _ _

lemma turn_unaddressed (hno : ∀ text, ¬ Addresses path text) :
    ∃ failure, (⟨0, t⟩ : Upload).turn quota id taking path contents = (⟨0, t⟩, some (.error failure)) := by
  have hoffset : 0 ≤ maxSafeInteger := Nat.zero_le maxSafeInteger
  have hlength := length_chunk_le ⟨0, t⟩ contents
  obtain ⟨failure, hsend⟩ := send_writeRequest_unaddressed hno hoffset hlength
  exact ⟨failure, turn_failure hsend⟩

lemma turn_unwritable (h : Addresses path text) (hsize : contents.length ≤ maxReadBytes)
    (hwritable : ¬ t.Writable (components text)) :
    ∃ failure t', (⟨0, t⟩ : Upload).turn quota id taking path contents = (⟨0, t'⟩, some (.error failure)) ∧
      t'.node (components text) = t.node (components text) := by
  have hend : 0 + ((⟨0, t⟩ : Upload).chunk contents).length ≤ maxReadBytes := by
    rw [Nat.zero_add, Upload.chunk, List.drop_zero]
    exact Nat.le_trans (List.length_take_le' _ _) hsize
  have hlength := length_chunk_le ⟨0, t⟩ contents
  have htruncate : decide ((0 : ℕ) = 0) = true → (0 : ℕ) = 0 := of_decide_eq_true
  obtain ⟨failure, t', hsend, hnode⟩ :=
    send_writeRequest_unwritable h hlength hend htruncate hwritable
  exact ⟨failure, t', turn_failure hsend, hnode⟩

lemma turn_refused (h : Addresses path text) (hsize : contents.length ≤ maxReadBytes)
    (hwritable : t.Writable (components text)) (hchunk : HasChunk contents k)
    (hno : ¬ Grants quota t (components text) contents k) :
    ∃ failure, (⟨k * maxFileChunkBytes, storedTree t (components text) contents k⟩ : Upload).turn quota
      id taking path contents =
        (⟨k * maxFileChunkBytes, openedTree t (components text) contents k⟩, some (.error failure)) := by
  have hstored : (storedTree t (components text) contents k).Writable (components text) :=
    writable_storedTree hwritable k
  have hrefused : ∀ used, ((storedTree t (components text) contents k).prepared
      (components text)).usedBytes = .ok used →
      (quota.bytes : ℤ) < (chunkFields text (k * maxFileChunkBytes) (fileChunk contents k)
        (k * maxFileChunkBytes = 0)).accounted used
          ((storedTree t (components text) contents k).contentsAt (components text)).length := by
    intro used hused
    rw [prepared_storedTree hwritable] at hused
    rw [contentsAt_storedTree hwritable, accounted_chunk text hchunk]
    by_contra hle
    exact hno ⟨used, hused, Int.not_lt.mp hle⟩
  obtain ⟨failure, hsend⟩ : ∃ failure, (writeRequest quota taking path (k * maxFileChunkBytes)
      (Base64.encode (fileChunk contents k)) (k * maxFileChunkBytes = 0)).send id
        (storedTree t (components text) contents k) =
          (.error failure, (storedTree t (components text) contents k).prepared (components text)) :=
    send_writeRequest_refused h (length_fileChunk_le contents k) (hchunk.end_le hsize)
      of_decide_eq_true hstored hrefused
  rw [prepared_storedTree hwritable] at hsend
  exact ⟨failure, turn_failure hsend⟩

/-- The guest's reply to the `k`-th chunk. -/
def replyAt (quota : WorkspaceFiles.Quota) (t : WorkspaceTree) (text : List Char)
    (contents : List UInt8) (k used : ℕ) : WorkspaceFiles.WriteReply where
  path := String.ofList text
  size := min ((k + 1) * maxFileChunkBytes) contents.length
  nextOffset := min ((k + 1) * maxFileChunkBytes) contents.length
  usedBytes := accountedAt t (components text) contents k used
  quotaBytes := quota.bytes

lemma reply_chunk (hchunk : HasChunk contents k) (used : ℕ) :
    (chunkFields text (k * maxFileChunkBytes) (fileChunk contents k)
      (k * maxFileChunkBytes = 0)).reply quota used (heldAt t (components text) contents k) =
        replyAt quota t text contents k used := by
  rw [WorkspaceFiles.WriteFields.reply, written_chunk text hchunk, accounted_chunk text hchunk,
    List.length_take, replyAt]
  simp only [chunkFields]
  rw [joinParts_guestParts, nextOffset_eq hchunk]

lemma send_granted (id : RequestId) (h : Addresses path text) (hsize : contents.length ≤ maxReadBytes)
    (hwritable : t.Writable (components text)) (hchunk : HasChunk contents k)
    (hused : (openedTree t (components text) contents k).usedBytes = .ok used)
    (hquota : accountedAt t (components text) contents k used ≤ quota.bytes)
    (hdone : Completes taking (fileChunk contents k).length) :
    (writeRequest quota taking path (k * maxFileChunkBytes) (Base64.encode (fileChunk contents k))
      (k * maxFileChunkBytes = 0)).send id (storedTree t (components text) contents k) =
        (receiveResponse id (writeRequest quota taking path (k * maxFileChunkBytes)
          (Base64.encode (fileChunk contents k)) (k * maxFileChunkBytes = 0)).result
            (.ok (replyAt quota t text contents k used)),
          storedTree t (components text) contents (k + 1)) := by
  have hstored : (storedTree t (components text) contents k).Writable (components text) :=
    writable_storedTree hwritable k
  rw [← accounted_chunk text hchunk, ← contentsAt_storedTree hwritable] at hquota
  rw [← prepared_storedTree hwritable] at hused
  have hsend := send_writeRequest_granted id h (length_fileChunk_le contents k)
    (hchunk.end_le hsize) of_decide_eq_true hstored hused hquota hdone
  rw [contentsAt_storedTree hwritable, reply_chunk hchunk, written_chunk text hchunk,
    prepared_storedTree hwritable, setContents_openedTree] at hsend
  exact hsend

lemma quota_le (quota : WorkspaceFiles.Quota) : quota.bytes ≤ maxSafeInteger ∧ 0 < quota.bytes := by
  have hrange := quota.inRange
  have hsafe : 16 * 1024 * 1024 * 1024 ≤ maxSafeInteger := by decide
  omega

/-- A chunk that is within the quota is stored. -/
lemma turn_granted (h : Addresses path text) (hsize : contents.length ≤ maxReadBytes)
    (hwritable : t.Writable (components text)) (hchunk : HasChunk contents k)
    (hcovers : Covers t (components text) contents)
    (hused : (openedTree t (components text) contents k).usedBytes = .ok used)
    (hquota : accountedAt t (components text) contents k used ≤ quota.bytes)
    (hdone : Completes taking (fileChunk contents k).length) :
    (⟨k * maxFileChunkBytes, storedTree t (components text) contents k⟩ : Upload).turn quota id
      taking path contents =
        (⟨k * maxFileChunkBytes, storedTree t (components text) contents (k + 1)⟩ : Upload).receive path
          contents ⟨path, min ((k + 1) * maxFileChunkBytes) contents.length,
            min ((k + 1) * maxFileChunkBytes) contents.length,
            (accountedAt t (components text) contents k used).toNat, quota.bytes⟩ := by
  have hsend := send_granted id h hsize hwritable hchunk hused hquota hdone
  have hpos := accountedAt_nonneg hcovers hchunk hused
  have hsafe : maxReadBytes ≤ maxSafeInteger := by decide
  have hquotaSafe := quota_le quota
  have hpath : Utf16.encode (replyAt quota t text contents k used).path.toList = path := h.encode_text
  have hmin : min ((k + 1) * maxFileChunkBytes) contents.length ≤ maxSafeInteger := by omega
  rw [receiveResponse_ok (frame_writeReply quota (by rw [hpath]; exact h.accepted) hmin hmin hpos
    (by simp only [replyAt]; omega) hquotaSafe.1)] at hsend
  have hparsed : parseWriteChunk (replyAt quota t text contents k used) =
      .ok ⟨path, min ((k + 1) * maxFileChunkBytes) contents.length,
        min ((k + 1) * maxFileChunkBytes) contents.length,
        (accountedAt t (components text) contents k used).toNat, quota.bytes⟩ := by
    rw [parseWriteChunk, hpath, if_pos]
    · rfl
    · simp only [replyAt]
      omega
  exact turn_reply hsend hparsed

/-- A chunk with a call that fails is stored in part. -/
lemma turn_failed (id : RequestId) (h : Addresses path text) (hsize : contents.length ≤ maxReadBytes)
    (hwritable : t.Writable (components text)) (hchunk : HasChunk contents k)
    (hgrants : Grants quota t (components text) contents k)
    (hfailed : ¬Completes taking (fileChunk contents k).length) :
    ∃ failure, (⟨k * maxFileChunkBytes, storedTree t (components text) contents k⟩ : Upload).turn quota id
      taking path contents =
        (⟨k * maxFileChunkBytes, (openedTree t (components text) contents k).setContents (components text)
            (contents.take (k * maxFileChunkBytes + taken taking (fileChunk contents k).length))⟩,
          some (.error failure)) := by
  obtain ⟨used, hused, hquota⟩ := hgrants
  rw [← accounted_chunk text hchunk, ← contentsAt_storedTree hwritable] at hquota
  rw [← prepared_storedTree hwritable] at hused
  obtain ⟨failure, hsend⟩ := send_writeRequest_failed h (length_fileChunk_le contents k)
    (hchunk.end_le hsize) of_decide_eq_true (writable_storedTree hwritable k) hused hquota hfailed
  rw [contentsAt_storedTree hwritable, partly_chunk text taking hchunk, prepared_storedTree hwritable] at hsend
  exact ⟨failure, turn_failure hsend⟩

/-- A chunk that is accounted for with less than nothing is stored, but its reply is not accepted. -/
lemma turn_uncovered (quota : WorkspaceFiles.Quota) (id : RequestId) (h : Addresses path text)
    (hsize : contents.length ≤ maxReadBytes)
    (hwritable : t.Writable (components text)) (hchunk : HasChunk contents k)
    (hused : (openedTree t (components text) contents k).usedBytes = .ok used)
    (hneg : accountedAt t (components text) contents k used < 0)
    (hdone : Completes taking (fileChunk contents k).length) :
    ∃ failure, (⟨k * maxFileChunkBytes, storedTree t (components text) contents k⟩ : Upload).turn quota
      id taking path contents =
        (⟨k * maxFileChunkBytes, storedTree t (components text) contents (k + 1)⟩,
          some (.error failure)) := by
  have hquota : accountedAt t (components text) contents k used ≤ quota.bytes := by omega
  have hsend := send_granted id h hsize hwritable hchunk hused hquota hdone
  cases hreply : receiveResponse id (writeRequest quota taking path (k * maxFileChunkBytes)
      (Base64.encode (fileChunk contents k)) (k * maxFileChunkBytes = 0)).result
        (.ok (replyAt quota t text contents k used)) with
  | error failure =>
    rw [hreply] at hsend
    exact ⟨failure, turn_failure hsend⟩
  | ok reply =>
    obtain rfl := receiveResponse_eq_ok hreply
    have hparsed : parseWriteChunk (replyAt quota t text contents k used) = .error .schema := by
      rw [parseWriteChunk, if_neg]
      simp only [replyAt]
      omega
    rw [hreply] at hsend
    exact ⟨.schema, turn_rejected hsend hparsed⟩

lemma receive_more {u : Upload} {final : WriteChunk} (hpath : final.path = path)
    (hnext : final.nextOffset = u.offset + (u.chunk contents).length)
    (hmore : final.nextOffset < contents.length) :
    u.receive path contents final = ({ u with offset := final.nextOffset }, none) := by
  rw [Upload.receive, if_neg (by simp [hpath, hnext]), if_pos hmore]

lemma receive_last {u : Upload} {final : WriteChunk} (hpath : final.path = path)
    (hnext : final.nextOffset = u.offset + (u.chunk contents).length)
    (hlast : contents.length ≤ final.nextOffset) (hsize : final.size = contents.length) :
    u.receive path contents final = ({ u with offset := final.nextOffset },
      some (.ok ⟨final.size, final.usedBytes, final.quotaBytes⟩)) := by
  rw [Upload.receive, if_neg (by simp [hpath, hnext]), if_neg (Nat.not_lt.mpr hlast),
    if_neg (not_not.mpr hsize)]

lemma turn_goes_on (h : Addresses path text) (hsize : contents.length ≤ maxReadBytes)
    (hwritable : t.Writable (components text)) (hmore : HasChunk contents (k + 1))
    (hcovers : Covers t (components text) contents)
    (hgrants : Grants quota t (components text) contents k)
    (hdone : Completes taking (fileChunk contents k).length) :
    (⟨k * maxFileChunkBytes, storedTree t (components text) contents k⟩ : Upload).turn quota id
      taking path contents =
        (⟨(k + 1) * maxFileChunkBytes, storedTree t (components text) contents (k + 1)⟩, none) := by
  obtain ⟨used, hused, hquota⟩ := hgrants
  have hchunk : HasChunk contents k := hmore.before (Nat.lt_succ_self k)
  have hlt := hmore.succ
  have hmin : min ((k + 1) * maxFileChunkBytes) contents.length = (k + 1) * maxFileChunkBytes :=
    Nat.min_eq_left (Nat.le_of_lt hlt)
  have hnext := nextOffset_eq hchunk
  rw [turn_granted h hsize hwritable hchunk hcovers hused hquota hdone, hmin]
  rw [hmin] at hnext
  exact receive_more rfl hnext.symm hlt

/-- The last chunk ends the upload. -/
lemma turn_ends (id : RequestId) (h : Addresses path text) (hsize : contents.length ≤ maxReadBytes)
    (hwritable : t.Writable (components text)) (hchunk : HasChunk contents k)
    (hlast : contents.length ≤ (k + 1) * maxFileChunkBytes)
    (hcovers : Covers t (components text) contents)
    (hgrants : Grants quota t (components text) contents k)
    (hdone : Completes taking (fileChunk contents k).length) :
    ∃ reply, (⟨k * maxFileChunkBytes, storedTree t (components text) contents k⟩ : Upload).turn quota
      id taking path contents =
        (⟨contents.length, storedTree t (components text) contents (k + 1)⟩, some (.ok reply)) := by
  obtain ⟨used, hused, hquota⟩ := hgrants
  have hmin : min ((k + 1) * maxFileChunkBytes) contents.length = contents.length :=
    Nat.min_eq_right hlast
  have hnext := nextOffset_eq hchunk
  rw [turn_granted h hsize hwritable hchunk hcovers hused hquota hdone, hmin]
  rw [hmin] at hnext
  exact ⟨_, receive_last rfl hnext.symm (Nat.le_refl _) rfl⟩

end Turn

/-! ### The loop -/

section Loop

variable {t : WorkspaceTree} {path : JsText} {text : List Char} {contents : List UInt8} {k n : ℕ}
  {quota : WorkspaceFiles.Quota} {ids : ℕ → RequestId} {pwrites : ℕ → List ℕ} {u : Upload}
  {outcome : Except ReadFailure WorkspaceFileWrite}

lemma uploadLoop_succ (h : uploadLoop quota ids pwrites path contents t n = (u, none)) :
    uploadLoop quota ids pwrites path contents t (n + 1) = u.turn quota (ids n) (pwrites n) path contents := by
  simp [uploadLoop, h]

lemma uploadLoop_stays (h : uploadLoop quota ids pwrites path contents t k = (u, some outcome)) (hn : k ≤ n) :
    uploadLoop quota ids pwrites path contents t n = (u, some outcome) := by
  induction hn with
  | refl => exact h
  | step _ ih => simp [uploadLoop, ih]

/-- An upload ends in one way only. -/
lemma uploadLoop_unique {u' : Upload} {outcome' : Except ReadFailure WorkspaceFileWrite}
    (h : uploadLoop quota ids pwrites path contents t k = (u, some outcome))
    (h' : uploadLoop quota ids pwrites path contents t n = (u', some outcome')) :
    u' = u ∧ outcome' = outcome := by
  have hmax := uploadLoop_stays h (Nat.le_max_left k n)
  rw [uploadLoop_stays h' (Nat.le_max_right k n)] at hmax
  cases hmax
  exact ⟨rfl, rfl⟩

/-- As long as chunks are stored the upload goes on. -/
lemma uploadLoop_running (ids : ℕ → RequestId) (h : Addresses path text)
    (hsize : contents.length ≤ maxReadBytes) (hwritable : t.Writable (components text)) (hchunk : HasChunk contents k)
    (hcovers : 0 < k → Covers t (components text) contents)
    (hstores : ∀ j < k, Stores quota pwrites t (components text) contents j) :
    uploadLoop quota ids pwrites path contents t k =
      (⟨k * maxFileChunkBytes, storedTree t (components text) contents k⟩, none) := by
  induction k with
  | zero =>
    rw [Nat.zero_mul]
    rfl
  | succ k ih =>
    have hbefore := ih (hchunk.before (Nat.lt_succ_self k)) (fun _ => hcovers (Nat.succ_pos k))
      fun j hj => hstores j (Nat.lt_succ_of_lt hj)
    obtain ⟨hgrants, hdone⟩ := hstores k (Nat.lt_succ_self k)
    rw [uploadLoop_succ hbefore]
    exact turn_goes_on h hsize hwritable hchunk (hcovers (Nat.succ_pos k)) hgrants hdone

/-- The first chunk that is not within the quota is refused. -/
lemma uploadLoop_refused (ids : ℕ → RequestId) (h : Addresses path text)
    (hsize : contents.length ≤ maxReadBytes) (hwritable : t.Writable (components text)) (hchunk : HasChunk contents k)
    (hcovers : 0 < k → Covers t (components text) contents)
    (hstores : ∀ j < k, Stores quota pwrites t (components text) contents j)
    (hno : ¬ Grants quota t (components text) contents k) :
    ∃ failure, uploadLoop quota ids pwrites path contents t (k + 1) =
      (⟨k * maxFileChunkBytes, openedTree t (components text) contents k⟩, some (.error failure)) := by
  rw [uploadLoop_succ (uploadLoop_running ids h hsize hwritable hchunk hcovers hstores)]
  exact turn_refused h hsize hwritable hchunk hno

/-- The first chunk with a call that fails ends the upload too. -/
lemma uploadLoop_failed (ids : ℕ → RequestId) (h : Addresses path text)
    (hsize : contents.length ≤ maxReadBytes) (hwritable : t.Writable (components text)) (hchunk : HasChunk contents k)
    (hcovers : 0 < k → Covers t (components text) contents)
    (hstores : ∀ j < k, Stores quota pwrites t (components text) contents j)
    (hgrants : Grants quota t (components text) contents k) (hfailed : ¬ ChunkCompletes pwrites contents k) :
    ∃ failure, uploadLoop quota ids pwrites path contents t (k + 1) =
      (⟨k * maxFileChunkBytes, (openedTree t (components text) contents k).setContents (components text)
        (heldAfter pwrites contents k)⟩, some (.error failure)) := by
  rw [uploadLoop_succ (uploadLoop_running ids h hsize hwritable hchunk hcovers hstores)]
  exact turn_failed (ids k) h hsize hwritable hchunk hgrants hfailed

/-- An upload that does not count what it replaces fails although its first chunk is stored. -/
lemma uploadLoop_uncovered {used : ℕ} (ids : ℕ → RequestId) (h : Addresses path text)
    (hsize : contents.length ≤ maxReadBytes) (hwritable : t.Writable (components text))
    (hused : (t.prepared (components text)).usedBytes = .ok used)
    (hneg : used + min maxFileChunkBytes contents.length < (t.contentsAt (components text)).length)
    (hdone : ChunkCompletes pwrites contents 0) :
    ∃ failure, uploadLoop quota ids pwrites path contents t 1 =
      (⟨0, storedTree t (components text) contents 1⟩, some (.error failure)) := by
  have hchunk : HasChunk contents 0 := Or.inl rfl
  have haccounted : accountedAt t (components text) contents 0 used < 0 := by
    rw [accountedAt, heldAt, Nat.zero_add, Nat.one_mul]
    omega
  have hturn := turn_uncovered quota (ids 0) h hsize hwritable hchunk hused haccounted hdone
  rw [Nat.zero_mul] at hturn
  exact hturn

/-- An upload that its first turn ends. -/
lemma uploadLoop_one
    (h : (⟨0, t⟩ : Upload).turn quota (ids 0) (pwrites 0) path contents = (u, some outcome)) :
    uploadLoop quota ids pwrites path contents t 1 = (u, some outcome) := by
  rw [uploadLoop_succ rfl]
  exact h

/-- Without a first chunk that is not stored all are stored. -/
lemma stores_of_no_first {target : TreePath}
    (h : ∀ k, HasChunk contents k → (∀ j < k, Stores quota pwrites t target contents j) →
      Stores quota pwrites t target contents k) (hchunk : HasChunk contents k) :
    Stores quota pwrites t target contents k := by
  induction k using Nat.strongRecOn with
  | ind k ih => exact h k hchunk fun j hj => ih j hj (hchunk.before hj)

/-- An upload of which all chunks are stored stores its contents. -/
theorem uploadLoop_stored (ids : ℕ → RequestId) (h : Addresses path text)
    (hsize : contents.length ≤ maxReadBytes) (hwritable : t.Writable (components text)) (hcovers : Covers t (components text) contents)
    (hstores : ∀ k, HasChunk contents k → Stores quota pwrites t (components text) contents k) :
    ∃ n u reply, uploadLoop quota ids pwrites path contents t n = (u, some (.ok reply)) ∧
      u.tree.node (components text) = some (.file contents) := by
  obtain ⟨k, hchunk, hlast⟩ : ∃ k, HasChunk contents k ∧
      contents.length ≤ (k + 1) * maxFileChunkBytes := exists_last_chunk contents
  have hrunning := uploadLoop_running ids h hsize hwritable hchunk (fun _ => hcovers)
    fun j hj => hstores j (hchunk.before hj)
  obtain ⟨hgrants, hdone⟩ := hstores k hchunk
  obtain ⟨reply, hturn⟩ := turn_ends (ids k) h hsize hwritable hchunk hlast hcovers hgrants hdone
  rw [← uploadLoop_succ hrunning] at hturn
  refine ⟨k + 1, _, reply, hturn, ?_⟩
  rw [node_storedTree hwritable, List.take_of_length_le hlast]

/-- What an upload that succeeds has met. -/
theorem uploadLoop_ok {reply : WorkspaceFileWrite} (hsize : contents.length ≤ maxReadBytes)
    (hok : uploadLoop quota ids pwrites path contents t n = (u, some (.ok reply))) :
    ∃ text, Addresses path text ∧ t.Writable (components text) ∧ Covers t (components text) contents ∧
      ∀ k, HasChunk contents k → Stores quota pwrites t (components text) contents k := by
  have hno : ∀ {m : ℕ} {u' : Upload} {failure : ReadFailure},
      uploadLoop quota ids pwrites path contents t m ≠ (u', some (.error failure)) := by
    intro m u' failure herror
    cases (uploadLoop_unique hok herror).2
  have haddresses : ∃ text, Addresses path text := by
    by_contra hnone
    obtain ⟨failure, hturn⟩ := turn_unaddressed (not_exists.mp hnone)
    exact hno (uploadLoop_one hturn)
  obtain ⟨text, h⟩ := haddresses
  have hwritable : t.Writable (components text) := by
    by_contra hunwritable
    obtain ⟨failure, t', hturn, -⟩ := turn_unwritable h hsize hunwritable
    exact hno (uploadLoop_one hturn)
  have hfirst : HasChunk contents 0 := Or.inl rfl
  have hnone : ∀ j < 0, Stores quota pwrites t (components text) contents j := fun j hj => by omega
  -- the first chunk is carried out, so its reply has to count what it replaces
  have hcovers : Covers t (components text) contents := by
    intro used hused
    by_contra hlt
    rw [Nat.not_le] at hlt
    have hgrants : Grants quota t (components text) contents 0 := by
      refine ⟨used, hused, ?_⟩
      rw [accountedAt, heldAt, Nat.zero_add, Nat.one_mul]
      omega
    by_cases hdone : ChunkCompletes pwrites contents 0
    · obtain ⟨failure, herror⟩ := uploadLoop_uncovered ids h hsize hwritable hused hlt hdone
      exact hno herror
    · obtain ⟨failure, herror⟩ :=
        uploadLoop_failed ids h hsize hwritable hfirst (fun _ => by omega) hnone hgrants hdone
      exact hno herror
  refine ⟨text, h, hwritable, hcovers, fun k hchunk => stores_of_no_first (fun j hj hbefore => ?_) hchunk⟩
  have hgrants : Grants quota t (components text) contents j := by
    by_contra hrefused
    obtain ⟨failure, herror⟩ :=
      uploadLoop_refused ids h hsize hwritable hj (fun _ => hcovers) hbefore hrefused
    exact hno herror
  refine ⟨hgrants, ?_⟩
  by_contra hfailed
  obtain ⟨failure, herror⟩ :=
    uploadLoop_failed ids h hsize hwritable hj (fun _ => hcovers) hbefore hgrants hfailed
  exact hno herror

end Loop

end Bloom
