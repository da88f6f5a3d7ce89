import BloomWorkspaces.Guest.Accounting
import BloomWorkspaces.Library.Transition

/-!
# The storage quota

Runs of writes and deletes. The quota is kept and the bytes in use are reported as they are, in every
run whose requests meet trees that the walk counts, in which no file that is not empty has two names, and
write no empty chunk behind the end of a file.
-/

namespace Bloom

open Action

/-- A write comes with what its `pwrite`s take. -/
inductive QuotaRequest
  | write (pwrites : List ℕ) (path offset encoded truncate : Json)
  | delete (path recursive : Json)

namespace QuotaRequest

/-- Serve a request; what counts of the reply are its `usedBytes`. -/
def serve (quota : WorkspaceFiles.Quota) : QuotaRequest → FileAction ℤ
  | write pwrites path offset encoded truncate => do
    let reply ← WorkspaceFiles.write quota pwrites path offset encoded truncate
    pure reply.usedBytes
  | delete path recursive => do
    let reply ← WorkspaceFiles.delete quota path recursive
    pure reply.usedBytes

/-- The answer to a request, with the tree that it leaves. -/
def respond (quota : WorkspaceFiles.Quota) (request : QuotaRequest) (t : WorkspaceTree) :
    Except Halt ℤ × WorkspaceTree :=
  ((outcome (request.serve quota) (.initial t)).1, (outcome (request.serve quota) (.initial t)).2.tree)

/-- Nothing gets the lock after a request that waits for ever. -/
def step (quota : WorkspaceFiles.Quota) (t : WorkspaceTree) (request : QuotaRequest) :
    Option WorkspaceTree :=
  if (request.respond quota t).1 = .error .blocked then none else some (request.respond quota t).2

/-- The request would take more than the quota, or the accounting meets more files than it may. -/
inductive Exceeds (quota : WorkspaceFiles.Quota) (t : WorkspaceTree) : QuotaRequest → Prop
  | quota {pwrites : List ℕ} {path offset encoded truncate : Json} {r : WorkspaceFiles.WriteFields}
      (hfields : WorkspaceFiles.writeFields path offset encoded truncate = .ok r)
      (hwritable : t.Writable (r.parts.map WorkspaceFiles.fileName))
      (hquota : quota.bytes + (t.contentsAt (r.parts.map WorkspaceFiles.fileName)).length <
        t.totalBytes + (r.written (t.contentsAt (r.parts.map WorkspaceFiles.fileName))).length) :
      Exceeds quota t (write pwrites path offset encoded truncate)
  | filesOfWrite {pwrites : List ℕ} {path offset encoded truncate : Json} {r : WorkspaceFiles.WriteFields}
      (hfields : WorkspaceFiles.writeFields path offset encoded truncate = .ok r)
      (hwritable : t.Writable (r.parts.map WorkspaceFiles.fileName))
      (hcount : WorkspaceFiles.maxScanEntries <
        (t.prepared (r.parts.map WorkspaceFiles.fileName)).fileCount) :
      Exceeds quota t (write pwrites path offset encoded truncate)
  | filesOfDelete {path recursive : Json} {parts : List String} {contents : List UInt8}
      (hvalid : validateRelativePath path = .ok parts)
      (hrecursive : recursive.asBool.getD false = false)
      (hfile : t.node (parts.map WorkspaceFiles.fileName) = some (.file contents))
      (hcount : WorkspaceFiles.maxScanEntries <
        (t.remove (parts.map WorkspaceFiles.fileName)).fileCount) :
      Exceeds quota t (delete path recursive)

end QuotaRequest

/-- After a success the files take no more than the quota and what is reported; what exceeds a limit
is refused as such. -/
structure QuotaKept (quota : WorkspaceFiles.Quota) (t : WorkspaceTree) (request : QuotaRequest) :
    Prop where
  bounded : ∀ used, (request.respond quota t).1 = .ok used →
    (request.respond quota t).2.totalBytes ≤ quota.bytes ∧
      used = (request.respond quota t).2.totalBytes
  refused : request.Exceeds quota t →
    ∃ message, (request.respond quota t).1 = .error (.error (.limitExceeded message))

/-- The walk counts each file of the tree once, or notices that there are too many. -/
def Countable (t : WorkspaceTree) : Prop :=
  t.Accountable ∧ (t.NamedOnce ∧ t.listedFiles ≤ WorkspaceFiles.maxScanEntries ∨ t.Overflows)

/-- The tree that the accounting meets can be counted, and an empty chunk does not lie behind the end
of the file. -/
def Accounted (t : WorkspaceTree) : QuotaRequest → Prop
  | .write _ path offset encoded truncate => ∀ r,
    WorkspaceFiles.writeFields path offset encoded truncate = .ok r →
    t.Writable (r.parts.map WorkspaceFiles.fileName) →
    Countable (t.prepared (r.parts.map WorkspaceFiles.fileName)) ∧
      (r.chunk = [] → r.start ≤ (t.contentsAt (r.parts.map WorkspaceFiles.fileName)).length)
  | .delete path recursive => ∀ parts contents,
    validateRelativePath path = .ok parts → recursive.asBool.getD false = false →
    t.node (parts.map WorkspaceFiles.fileName) = some (.file contents) →
    Countable (t.remove (parts.map WorkspaceFiles.fileName))

section Kept

variable {quota : WorkspaceFiles.Quota} {t t' : WorkspaceTree} {request : QuotaRequest}
  {r : WorkspaceFiles.WriteFields} {pwrites : List ℕ} {path offset encoded truncate recursive : Json}

lemma respond_eq {result : Except Halt ℤ} (h : Gives t (request.serve quota) result t') :
    request.respond quota t = (result, t') := by
  obtain ⟨k, hrun, hshown⟩ := h (.initial t) rfl
  rw [QuotaRequest.respond, hrun, ← (Prod.mk.inj hshown).1]

/-! ### Sizes -/

/-- The size that is accounted for is that of the file. -/
lemma length_written {contents : List UInt8} (htruncate : r.truncate = true → r.start = 0)
    (hempty : r.chunk = [] → r.start ≤ contents.length) :
    (r.written contents).length = r.resultingSize contents.length := by
  rw [WorkspaceFiles.WriteFields.written, WorkspaceFiles.WriteFields.resultingSize]
  cases hflag : r.truncate with
  | true =>
    have hstart := htruncate hflag
    simp only [if_true]
    by_cases hchunk : r.chunk = []
    · simp [hchunk, hstart]
    · rw [if_neg hchunk, length_splice, hstart]
      simp
  | false =>
    simp only [Bool.false_eq_true, if_false]
    by_cases hchunk : r.chunk = []
    · have hle := hempty hchunk
      rw [if_pos hchunk, hchunk, List.length_nil]
      omega
    · rw [if_neg hchunk, length_splice]

/-- A write that fails half-way leaves no more than was accounted for. -/
lemma length_partly_le (pwrites : List ℕ) (contents : List UInt8) :
    (r.partly pwrites contents).length ≤ r.resultingSize contents.length := by
  have htake := List.length_take_le' (taken pwrites r.chunk.length) r.chunk
  rw [WorkspaceFiles.WriteFields.partly, WorkspaceFiles.WriteFields.written,
    WorkspaceFiles.WriteFields.resultingSize]
  cases r.truncate with
  | true =>
    simp only [if_true]
    split
    · exact Nat.zero_le _
    · rw [length_splice, List.length_nil]
      omega
  | false =>
    simp only [Bool.false_eq_true, if_false]
    split
    · exact Nat.le_max_right _ _
    · rw [length_splice]
      omega

/-! ### One request -/

/-- What the answer of a request that is accounted for is, case by case. -/
structure Answered (quota : WorkspaceFiles.Quota) (t : WorkspaceTree) (request : QuotaRequest) : Prop
    extends QuotaKept quota t request where
  total_le : (request.respond quota t).2.totalBytes ≤ quota.bytes

lemma answered_error {e : Halt} (hrespond : request.respond quota t = (.error e, t'))
    (htotal : t'.totalBytes ≤ quota.bytes)
    (hexceeds : request.Exceeds quota t → ∃ message, e = .error (.limitExceeded message)) :
    Answered quota t request := by
  refine ⟨⟨?_, ?_⟩, ?_⟩
  · intro used hused
    rw [hrespond] at hused
    cases hused
  · intro hex
    obtain ⟨message, rfl⟩ := hexceeds hex
    exact ⟨message, by rw [hrespond]⟩
  · rw [hrespond]
    exact htotal

lemma answered_ok {used : ℤ} (h : Gives t (request.serve quota) (.ok used) t')
    (htotal : t'.totalBytes ≤ quota.bytes) (hused : used = t'.totalBytes)
    (hexceeds : ¬ request.Exceeds quota t) : Answered quota t request := by
  have hrespond := respond_eq h
  refine ⟨⟨?_, fun hex => absurd hex hexceeds⟩, ?_⟩
  · intro used' hused'
    rw [hrespond] at hused' ⊢
    cases hused'
    exact ⟨htotal, hused⟩
  · rw [hrespond]
    exact htotal

lemma respond_write_error {e : Halt} {b : Bool}
    (h : Ends Kernel.shown (t, false) (WorkspaceFiles.write quota pwrites path offset encoded truncate)
      (.error e) (t', b)) :
    (QuotaRequest.write pwrites path offset encoded truncate).respond quota t = (.error e, t') := by
  have hserve : Ends Kernel.shown (t, false)
      ((QuotaRequest.write pwrites path offset encoded truncate).serve quota) (.error e) (t', b) :=
    Ends.bind_error h
  obtain ⟨k, hrun, hshown⟩ := hserve (.initial t) rfl
  rw [QuotaRequest.respond, hrun, ← (Prod.mk.inj hshown).1]

/-- What a countable tree is counted as. -/
lemma usedBytes_of_countable (h : Countable t) :
    t.usedBytes = .error (.error WorkspaceFiles.tooManyFiles) ∨
      t.usedBytes = .ok t.totalBytes ∧ t.fileCount ≤ WorkspaceFiles.maxScanEntries := by
  obtain ⟨haccountable, ⟨honce, hcount⟩ | hoverflow⟩ := h
  · rw [honce.totalBytes_eq]
    exact Or.inr ⟨usedBytes_of_accountable haccountable hcount,
      (WorkspaceTree.total_le_sum t FileNode.count).trans hcount⟩
  · exact Or.inl (usedBytes_of_overflows haccountable hoverflow)

/-- A write that the limits allow exceeds none of them. -/
lemma not_exceeds_write (hfields : WorkspaceFiles.writeFields path offset encoded truncate = .ok r)
    (hquota : t.totalBytes + (r.written (t.contentsAt (r.parts.map WorkspaceFiles.fileName))).length ≤
      quota.bytes + (t.contentsAt (r.parts.map WorkspaceFiles.fileName)).length)
    (hcount : (t.prepared (r.parts.map WorkspaceFiles.fileName)).fileCount ≤ WorkspaceFiles.maxScanEntries) :
    ¬(QuotaRequest.write pwrites path offset encoded truncate).Exceeds quota t := by
  rintro (⟨hok, -, hexceeds⟩ | ⟨hok, -, hexceeds⟩)
  · rw [hfields] at hok
    cases hok
    omega
  · rw [hfields] at hok
    cases hok
    omega

lemma answered_write (htotal : t.totalBytes ≤ quota.bytes)
    (haccounted : Accounted t (.write pwrites path offset encoded truncate)) :
    Answered quota t (.write pwrites path offset encoded truncate) := by
  cases hfields : WorkspaceFiles.writeFields path offset encoded truncate with
  | error e =>
    refine answered_error (respond_write_error (gives_write_invalid hfields)) htotal ?_
    rintro (⟨hok, -, -⟩ | ⟨hok, -, -⟩)
    · rw [hfields] at hok
      cases hok
    · rw [hfields] at hok
      cases hok
  | ok r =>
    by_cases hwritable : t.Writable (r.parts.map WorkspaceFiles.fileName)
    · obtain ⟨hcountable, hempty⟩ := haccounted r hfields hwritable
      obtain ⟨-, -, -, htruncate⟩ := WorkspaceFiles.writeFields_ok hfields
      have hnode := hwritable.node_prepared
      have hgrown := (WorkspaceTree.grows_prepared t (r.parts.map WorkspaceFiles.fileName)).total
      have hlength := length_written htruncate hempty
      -- Whatever the target holds afterwards, the total changes by its size.
      have hsum : ∀ new : List UInt8, ((t.prepared (r.parts.map WorkspaceFiles.fileName)).setContents
          (r.parts.map WorkspaceFiles.fileName) new).totalBytes +
            (t.contentsAt (r.parts.map WorkspaceFiles.fileName)).length = t.totalBytes + new.length := by
        intro new
        rw [← hgrown]
        exact WorkspaceTree.total_setContents hnode FileNode.size
      rcases usedBytes_of_countable hcountable with hused | ⟨hused, hcount⟩
      · refine answered_error (respond_write_error (gives_write hfields hwritable
          (gives_writeChunk_unaccounted hnode hused) (by simp))) (hgrown.trans_le htotal) ?_
        exact fun _ => ⟨_, rfl⟩
      · rw [hgrown] at hused
        by_cases hquota : r.accounted t.totalBytes
            (t.contentsAt (r.parts.map WorkspaceFiles.fileName)).length ≤ quota.bytes
        · have hfits := hquota
          rw [WorkspaceFiles.WriteFields.accounted, ← hlength] at hfits
          have hexceeds : ¬(QuotaRequest.write pwrites path offset encoded truncate).Exceeds quota t :=
            not_exceeds_write hfields (by omega) hcount
          by_cases hdone : Completes pwrites r.chunk.length
          · have hwritten := hsum (r.written (t.contentsAt (r.parts.map WorkspaceFiles.fileName)))
            refine answered_ok (Ends.bind_ok (gives_write hfields hwritable
              (gives_writeChunk_ok hnode hused hquota hdone) (by simp)) (Ends.pure _)) ?_ ?_ hexceeds
            · omega
            · show r.accounted _ _ = _
              rw [WorkspaceFiles.WriteFields.accounted, ← hlength]
              omega
          · have hpartly := hsum (r.partly pwrites (t.contentsAt (r.parts.map WorkspaceFiles.fileName)))
            have hle := length_partly_le (r := r) pwrites (t.contentsAt (r.parts.map WorkspaceFiles.fileName))
            refine answered_error (respond_write_error (gives_write hfields hwritable
              (gives_writeChunk_failed hnode hused hquota hdone) (by simp))) ?_
              fun hex => absurd hex hexceeds
            omega
        · refine answered_error (respond_write_error (gives_write hfields hwritable
            (gives_writeChunk_refused hnode hused (Int.not_le.mp hquota)) (by simp)))
            (hgrown.trans_le htotal) ?_
          exact fun _ => ⟨_, rfl⟩
    · have hunwritable : ∃ e t', (QuotaRequest.write pwrites path offset encoded truncate).respond quota t =
          (.error e, t') ∧ t.Grows t' := by
        obtain ⟨t', hgrows, -, ⟨e, hwrite⟩ | ⟨hwrite, -⟩⟩ :=
          gives_write_unwritable quota pwrites hfields hwritable
        · exact ⟨_, t', respond_write_error hwrite, hgrows⟩
        · exact ⟨_, t', respond_write_error hwrite, hgrows⟩
      obtain ⟨e, t', hrespond, hgrows⟩ := hunwritable
      refine answered_error hrespond (hgrows.total.trans_le htotal) ?_
      rintro (⟨hok, hyes, -⟩ | ⟨hok, hyes, -⟩)
      · rw [hfields] at hok
        cases hok
        exact absurd hyes hwritable
      · rw [hfields] at hok
        cases hok
        exact absurd hyes hwritable

lemma answered_delete (htotal : t.totalBytes ≤ quota.bytes)
    (haccounted : Accounted t (.delete path recursive)) :
    Answered quota t (.delete path recursive) := by
  by_cases hfile : ∃ parts contents, validateRelativePath path = .ok parts ∧
      recursive.asBool.getD false = false ∧
      t.node (parts.map WorkspaceFiles.fileName) = some (.file contents)
  · obtain ⟨parts, contents, hvalid, hrecursive, hnode⟩ := hfile
    have hcountable := haccounted parts contents hvalid hrecursive hnode
    have hle : (t.remove (parts.map WorkspaceFiles.fileName)).totalBytes ≤ t.totalBytes :=
      WorkspaceTree.total_remove_le t _ FileNode.size
    have hdelete := gives_delete quota hvalid hrecursive hnode
    rcases usedBytes_of_countable hcountable with hused | ⟨hused, hcount⟩
    · rw [hused] at hdelete
      exact answered_error (respond_eq (Ends.bind_error hdelete)) (hle.trans htotal) fun _ => ⟨_, rfl⟩
    · rw [hused] at hdelete
      refine answered_ok (Ends.bind_ok hdelete (Ends.pure _)) (hle.trans htotal) rfl ?_
      rintro (_ | _ | ⟨hvalid', -, -, hexceeds⟩)
      rw [hvalid] at hvalid'
      cases hvalid'
      omega
  · obtain ⟨e, hdelete⟩ := gives_delete_refused quota t path recursive fun parts contents hvalid
      hrecursive hnode => hfile ⟨parts, contents, hvalid, hrecursive, hnode⟩
    refine answered_error (respond_eq (Ends.bind_error hdelete)) htotal ?_
    rintro (_ | _ | ⟨hvalid, hrecursive, hnode, -⟩)
    exact absurd ⟨_, _, hvalid, hrecursive, hnode⟩ hfile

lemma answered (htotal : t.totalBytes ≤ quota.bytes) (h : Accounted t request) :
    Answered quota t request := by
  cases request with
  | write pwrites path offset encoded truncate => exact answered_write htotal h
  | delete path recursive => exact answered_delete htotal h

end Kept

/-! ### Runs -/

/-- In a run whose requests are all accounted for, each of them keeps the quota. -/
theorem quotaKept_of_accounted {quota : WorkspaceFiles.Quota} {t₀ t : WorkspaceTree}
    {request : QuotaRequest} (h₀ : t₀.totalBytes ≤ quota.bytes)
    (hrun : Transition.Leads (QuotaRequest.step quota) Accounted t₀ t) (h : Accounted t request) :
    QuotaKept quota t request := by
  have htotal : t.totalBytes ≤ quota.bytes := by
    refine hrun.invariant (fun t => t.totalBytes ≤ quota.bytes) h₀ ?_
    intro t request t' htotal hrequest hstep
    rw [QuotaRequest.step] at hstep
    split at hstep
    · cases hstep
    obtain rfl := Option.some.inj hstep
    exact (answered htotal hrequest).total_le
  exact (answered htotal h).toQuotaKept

/-- A write of one byte to `d/f`. -/
def oneByteWrite : QuotaRequest :=
  .write [] (.string "d/f") (.number (some 0)) (.string "QQ==") (.bool true)

lemma writeFields_oneByte :
    WorkspaceFiles.writeFields (.string "d/f") (.number (some 0)) (.string "QQ==") (.bool true) =
      .ok ⟨["d", "f"], 0, [65], true⟩ := by
  decide +kernel

lemma accounted_oneByte : Accounted .empty oneByteWrite := by
  intro r hr _
  rw [writeFields_oneByte] at hr
  cases hr
  refine ⟨⟨⟨?_, ?_⟩, Or.inl ⟨?_, ?_⟩⟩, ?_⟩
  · decide +kernel
  · decide +kernel
  · decide +kernel
  · decide +kernel
  · rintro ⟨⟩

/-- Two more bytes for `d/f`, of which the first `pwrite` takes one. -/
def twoMoreBytes : QuotaRequest :=
  .write [1] (.string "d/f") (.number (some 1)) (.string "QkM=") (.bool false)

theorem quotaKept_of_accounted_twoMoreBytes :
    (oneByteWrite.respond .smallest .empty).2.totalBytes = 1 ∧
      QuotaKept .smallest (oneByteWrite.respond .smallest .empty).2 twoMoreBytes := by
  have hbegin : WorkspaceTree.empty.totalBytes ≤ WorkspaceFiles.Quota.smallest.bytes := by decide
  refine ⟨by decide +kernel, quotaKept_of_accounted hbegin
    (Transition.Leads.single (a := oneByteWrite) accounted_oneByte (if_neg ?_)) ?_⟩
  · decide +kernel
  · intro r hr _
    have hfields : WorkspaceFiles.writeFields (.string "d/f") (.number (some 1)) (.string "QkM=")
        (.bool false) = .ok ⟨["d", "f"], 1, [66, 67], false⟩ := by
      decide +kernel
    rw [hfields] at hr
    cases hr
    refine ⟨⟨⟨?_, ?_⟩, Or.inl ⟨?_, ?_⟩⟩, ?_⟩
    · decide +kernel
    · decide +kernel
    · decide +kernel
    · decide +kernel
    · rintro ⟨⟩

/-- An empty chunk written behind the end of the empty file `d/f`. -/
def emptyChunkWrite : QuotaRequest :=
  .write [] (.string "d/f") (.number (some 1)) (.string "") (.bool false)

/-- An empty write behind the end of a file is reported as if it had made the file longer. -/
theorem not_quotaKept :
    ∃ t₀ t, t₀.totalBytes ≤ WorkspaceFiles.Quota.smallest.bytes ∧
      Transition.Leads (QuotaRequest.step .smallest) Transition.anyStep t₀ t ∧
      ¬ QuotaKept .smallest t emptyChunkWrite := by
  refine ⟨.empty, _, by decide, Transition.Leads.single (a := .write [] (.string "d/f")
    (.number (some 0)) (.string "") (.bool true)) trivial (if_neg (by decide +kernel)), ?_⟩
  intro hkept
  have hreported := (hkept.bounded 1 (by decide +kernel)).2
  revert hreported
  decide +kernel

end Bloom
