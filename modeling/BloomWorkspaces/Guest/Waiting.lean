import BloomWorkspaces.Guest.ErrorMessages
import BloomWorkspaces.Guest.Outcomes

/-!
# Requests that wait for ever

The guest opens files without `O_NONBLOCK`, so it waits at a named pipe whose other end nobody opens, and a
write that waits keeps the write lock. The fields of a request and the workspace decide whether it waits.
-/

namespace Bloom

open Action

/-! ### Programs without the lock -/

def Kernel.setLocked (locked : Bool) (k : Kernel) : Kernel := { k with locked := locked }

/-- The program does the same whether the lock is held or not. -/
def LockFree {α : Type} (x : FileAction α) : Prop := ∀ locked, Ignores (Kernel.setLocked locked) x

namespace LockFree

variable {α β : Type} {x : FileAction α} {f : α → FileAction β}

lemma pure (a : α) : LockFree (Pure.pure a : FileAction α) := fun _ => Ignores.pure a

lemma throw (halt : Halt) : LockFree (MonadExcept.throw halt : FileAction α) := fun _ => Ignores.throw halt

lemma bind (hx : LockFree x) (hf : ∀ a, LockFree (f a)) : LockFree (x >>= f) :=
  fun locked => Ignores.bind (hx locked) fun a => hf a locked

lemma tryCatch {h : Halt → FileAction α} (hx : LockFree x) (hh : ∀ halt, LockFree (h halt)) :
    LockFree (MonadExcept.tryCatch x h) :=
  fun locked => Ignores.tryCatch (hx locked) fun halt => hh halt locked

lemma observe (call : Call) (origin : Origin) (object : Object) (g : WorkspaceTree → α) :
    LockFree (Bloom.observe call origin object g) := fun _ => Ignores.modifyGet fun _ => rfl

lemma perform (call : Call) (origin : Origin)
    (g : WorkspaceTree → Except Errno (Object × WorkspaceTree)) :
    LockFree (Bloom.perform call origin g) := by
  refine fun locked => Ignores.modifyGet fun k => ?_
  rw [show (k.setLocked locked).tree = k.tree from rfl]
  cases g k.tree with
  | error errno => rfl
  | ok result => rfl

lemma openat (origin : Origin) (dir : Object) (name : FileName) (flags : OpenFlags) :
    LockFree (Bloom.openat origin dir name flags) := by
  refine fun locked => Ignores.look (fun k => ?_) fun k => rfl
  split
  · exact Ignores.bind (observe _ _ _ _ locked) fun _ => Ignores.throw _
  · exact perform _ _ _ locked

/-- What a program does where the lock is free it does everywhere. -/
lemma ends {r : Except Halt α} {t t' : WorkspaceTree} (hx : LockFree x) (h : Gives t x r t')
    (locked : Bool) : Ends Kernel.shown (t, locked) x r (t', locked) := by
  intro k hk
  obtain ⟨htree, hlocked⟩ := Prod.mk.inj hk
  obtain ⟨k', hrun, hshown⟩ := h (k.setLocked false) (Prod.ext htree rfl)
  have hsame := hx k.locked (k.setLocked false)
  rw [hrun] at hsame
  exact ⟨k'.setLocked k.locked, hsame, Prod.ext (Prod.mk.inj hshown).1 hlocked⟩

lemma outcome {r : Except Halt α} {t t' : WorkspaceTree} {k : Kernel} (hx : LockFree x) (h : Gives t x r t')
    (hk : k.tree = t) : ∃ k', Action.outcome x k = (r, k') ∧ k'.tree = t' := by
  obtain ⟨k', hrun, hshown⟩ := hx.ends h k.locked k (Prod.ext hk rfl)
  exact ⟨k', hrun, (Prod.mk.inj hshown).1⟩

end LockFree

namespace WorkspaceFiles

lemma lockFree_orThrow {α : Type} (r : Except ControlError α) : LockFree (orThrow r) := by
  cases r with
  | ok a => exact LockFree.pure a
  | error e => exact LockFree.throw _

lemma lockFree_orIoError {α : Type} (r : Except Errno α) : LockFree (orIoError r) := by
  cases r with
  | ok a => exact LockFree.pure a
  | error errno => exact LockFree.throw _

lemma lockFree_makeParent (dir : Object) (name : FileName) : LockFree (makeParent dir name) := by
  refine LockFree.bind (LockFree.perform _ _ _) fun r => ?_
  cases r with
  | ok object => exact LockFree.observe _ _ _ _
  | error errno => exact LockFree.pure ()

lemma lockFree_descend (create : Bool) (parts : List String) (current : Object) :
    LockFree (descend create current parts) := by
  induction parts generalizing current with
  | nil => exact LockFree.pure current
  | cons part parts ih =>
    refine LockFree.bind ?_ fun _ => ?_
    · cases create with
      | true => exact lockFree_makeParent _ _
      | false => exact LockFree.pure ()
    · refine LockFree.bind (LockFree.openat _ _ _ _) fun r => ?_
      exact LockFree.bind (lockFree_orIoError r) fun next => ih next

lemma lockFree_openDirectory (parts : List String) (create : Bool) :
    LockFree (openDirectory parts create) := by
  refine LockFree.bind (LockFree.openat _ _ _ _) fun r => ?_
  exact LockFree.bind (lockFree_orIoError r) fun current => lockFree_descend create parts current

lemma lockFree_openFile (parts : List String) (flags : OpenFlags) (createParents : Bool) :
    LockFree (openFile parts flags createParents) := by
  rw [openFile]
  split
  · exact LockFree.throw _
  · refine LockFree.bind (lockFree_openDirectory _ _) fun parent => ?_
    exact LockFree.bind (LockFree.openat _ _ _ _) fun r => lockFree_orIoError r

lemma lockFree_listEntries (dir : Object) (pathPrefix : FileName) (names : List FileName) :
    LockFree (listEntries dir pathPrefix names) := by
  induction names with
  | nil => exact LockFree.pure []
  | cons name rest ih =>
    refine LockFree.bind (LockFree.observe _ _ _ _) fun found => ?_
    cases found with
    | error errno => exact ih
    | ok n => exact LockFree.bind ih fun others => LockFree.pure _

lemma lockFree_list (path : Json) : LockFree (list path) := by
  refine LockFree.bind (lockFree_orThrow _) fun parts => ?_
  refine LockFree.bind (lockFree_openDirectory _ _) fun dir => ?_
  refine LockFree.bind (LockFree.openat _ _ _ _) fun opened => ?_
  cases opened with
  | error errno => exact LockFree.throw _
  | ok dirp =>
    refine LockFree.bind (LockFree.observe _ _ _ _) fun names => ?_
    split
    · exact LockFree.throw _
    · exact lockFree_listEntries _ _ _

end WorkspaceFiles

/-! ### What waits -/

section Waiting

variable {α β : Type} {x : FileAction α} {f : α → FileAction β} {k : Kernel}

/-- What always ends does not wait. -/
lemma ThrowsShort.ne_blocked (hx : ThrowsShort x) (k : Kernel) : (outcome x k).1 ≠ .error .blocked := by
  have hpost := hx k
  rcases hrun : outcome x k with ⟨halt | a, k'⟩
  · rw [hrun] at hpost
    rintro ⟨⟩
    exact hpost
  · rintro ⟨⟩

lemma bind_waits_iff (hf : ∀ a, ThrowsShort (f a)) :
    (outcome (x >>= f) k).1 = .error .blocked ↔ (outcome x k).1 = .error .blocked := by
  rcases hrun : outcome x k with ⟨halt | a, k'⟩
  · rw [outcome_bind_error hrun]
    exact ⟨fun h => congrArg Except.error (Except.error.inj h), fun h =>
      congrArg Except.error (Except.error.inj h)⟩
  · rw [outcome_bind_ok hrun]
    exact ⟨fun h => absurd h ((hf a).ne_blocked k'), nofun⟩

lemma withWriteLock_waits_iff :
    (outcome (withWriteLock x) k).1 = .error .blocked ↔
      k.locked = true ∨ (outcome x k).1 = .error .blocked := by
  cases hlocked : k.locked with
  | true =>
    rw [outcome_withWriteLock_locked hlocked]
    exact ⟨fun _ => Or.inl rfl, fun _ => rfl⟩
  | false =>
    rcases hrun : outcome x k with ⟨r, k'⟩
    by_cases hr : r = .error .blocked
    · subst hr
      rw [outcome_withWriteLock_blocked hlocked hrun]
      exact ⟨fun _ => Or.inr rfl, fun _ => rfl⟩
    · rw [outcome_withWriteLock hlocked hrun hr]
      exact ⟨Or.inr, fun h => h.resolve_left Bool.false_ne_true⟩

end Waiting

/-! ### Opening -/

section Opening

variable {t : WorkspaceTree} {parts : List String} {flags : OpenFlags} {create : Bool} {k : Kernel}

/-- A named pipe stands behind directories, so it is come to. -/
lemma gives_openFile_hangs (hparts : ∀ part ∈ parts, IsStep (WorkspaceFiles.fileName part))
    (hlength : 2 ≤ parts.length) (hdirectory : flags.directory = false)
    (h : t.hangs (parts.map WorkspaceFiles.fileName) flags.writable = true) :
    Gives t (WorkspaceFiles.openFile parts flags create) (.error .blocked) t := by
  have hne : parts ≠ [] := by
    rintro rfl
    exact absurd hlength (by decide)
  obtain ⟨hsplit, hlast⟩ := WorkspaceFiles.map_fileName_split hne
  rw [hsplit] at h
  obtain ⟨reader, writer, hnode⟩ := WorkspaceTree.exists_of_hangs h
  have hopen := gives_openDirectory_existing create
    (fun p hp => hparts p (List.dropLast_subset parts hp)) (WorkspaceTree.node_dir hnode)
  have hwaits := t.waits_step (parts.dropLast.map WorkspaceFiles.fileName) (hparts _ hlast)
    { flags with noFollow := true } hdirectory
  rw [WorkspaceFiles.openFile, if_neg (by omega)]
  exact Ends.bind_ok hopen (Ends.bind_error (gives_openat_waits (hwaits.trans h)))

/-- Otherwise a path that is opened for reading opens the object there, unless it is no regular file. -/
lemma gives_openFile_readOnly (t : WorkspaceTree)
    (hparts : ∀ part ∈ parts, IsStep (WorkspaceFiles.fileName part)) (hlength : 2 ≤ parts.length)
    (h : t.hangs (parts.map WorkspaceFiles.fileName) false = false) :
    Gives t (WorkspaceFiles.openFile parts {} false)
        (.ok (.inside (parts.map WorkspaceFiles.fileName))) t ∨
      (∀ contents, t.node (parts.map WorkspaceFiles.fileName) ≠ some (.file contents)) ∧
        ∃ e, Gives t (WorkspaceFiles.openFile parts {} false) (.error (.error e)) t := by
  have hne : parts ≠ [] := by
    rintro rfl
    exact absurd hlength (by decide)
  obtain ⟨hsplit, hlast⟩ := WorkspaceFiles.map_fileName_split hne
  have hdirs := fun p hp => hparts p (List.dropLast_subset parts hp)
  have hname := hparts _ hlast
  rw [hsplit] at h ⊢
  rw [WorkspaceFiles.openFile, if_neg (by omega)]
  set dir := parts.dropLast.map WorkspaceFiles.fileName
  set name := WorkspaceFiles.fileName (parts.getLastD "")
  by_cases hdir : t.node dir = some .directory
  · have hopen := gives_openDirectory_existing false hdirs hdir
    have hwaits := (t.waits_step dir hname { noFollow := true } rfl).trans h
    cases hresult : t.openat (.inside dir) name { noFollow := true } with
    | error errno =>
      refine Or.inr ⟨fun contents hnode => ?_, fromIoError errno, ?_⟩
      · rw [openat_existing rfl hnode] at hresult
        cases hresult
      · refine Ends.bind_ok hopen ?_
        exact Ends.bind_ok (gives_openat hwaits (gives_perform_error hresult)) (gives_refuse _)
    | ok result =>
      obtain ⟨object, t'⟩ := result
      obtain ⟨rfl, -, ⟨n, -, rfl, -⟩ | ⟨hcreate, -⟩⟩ := openat_ok hname rfl hresult
      · refine Or.inl (Ends.bind_ok hopen ?_)
        exact Ends.bind_ok (gives_openat hwaits (gives_perform_ok hresult)) (Ends.pure _)
      · cases hcreate
  · obtain ⟨e, hopen⟩ := gives_openDirectory_missing hdirs hdir
    refine Or.inr ⟨fun contents hnode => hdir (WorkspaceTree.node_dir hnode), e, Ends.bind_error hopen⟩

/-- A path that is opened is waited for if and only if a named pipe without another end is there. -/
lemma openFile_waits_iff (hflags : flags = {} ∧ create = false ∨ flags = WorkspaceFiles.writeFlags ∧ create = true)
    (hparts : ∀ part ∈ parts, IsStep (WorkspaceFiles.fileName part)) :
    (outcome (WorkspaceFiles.openFile parts flags create) k).1 = .error .blocked ↔
      2 ≤ parts.length ∧ k.tree.hangs (parts.map WorkspaceFiles.fileName) flags.writable = true := by
  have hfree := WorkspaceFiles.lockFree_openFile parts flags create
  have hno : ∀ {r t'}, Gives k.tree (WorkspaceFiles.openFile parts flags create) r t' →
      r ≠ .error .blocked → (outcome (WorkspaceFiles.openFile parts flags create) k).1 ≠ .error .blocked := by
    intro r t' h hr
    obtain ⟨k', hrun, -⟩ := hfree.outcome h rfl
    rw [hrun]
    exact hr
  constructor
  · intro hblocked
    by_cases hlength : 2 ≤ parts.length
    · refine ⟨hlength, ?_⟩
      by_contra hhangs
      rw [Bool.not_eq_true] at hhangs
      obtain ⟨rfl, rfl⟩ | ⟨rfl, rfl⟩ := hflags
      · obtain h | ⟨-, e, h⟩ := gives_openFile_readOnly k.tree hparts hlength hhangs
        · exact hno h nofun hblocked
        · exact hno h nofun hblocked
      · by_cases hwritable : k.tree.Writable (parts.map WorkspaceFiles.fileName)
        · exact hno (gives_openFile_write hparts hwritable) nofun hblocked
        · obtain ⟨t', -, -, ⟨e, h⟩ | ⟨-, -, h⟩ | ⟨fd, h, -⟩⟩ := gives_openFile_no_file hparts hwritable
          · exact hno h nofun hblocked
          · rw [show WorkspaceFiles.writeFlags.writable = true from rfl, h] at hhangs
            cases hhangs
          · exact hno h nofun hblocked
    · rw [WorkspaceFiles.openFile, if_pos (by omega)] at hblocked
      cases hblocked
  · rintro ⟨hlength, hhangs⟩
    have hdirectory : flags.directory = false := by
      obtain ⟨rfl, -⟩ | ⟨rfl, -⟩ := hflags
      · rfl
      · rfl
    obtain ⟨k', hrun, -⟩ := hfree.outcome (gives_openFile_hangs hparts hlength hdirectory hhangs) rfl
    rw [hrun]

end Opening

/-! ### Requests -/

/-- A read with good fields comes to a named pipe without a writer. -/
def ReadWaits (t : WorkspaceTree) (path offset maxBytes : Json) : Prop :=
  ∃ parts start limit, validateRelativePath path = .ok parts ∧
    validateInteger offset 0 WorkspaceFiles.maxFileBytes "file offset" = .ok start ∧
    validateInteger maxBytes 1 WorkspaceFiles.maxFileChunkBytes "file read size" = .ok limit ∧
    2 ≤ parts.length ∧ t.hangs (parts.map WorkspaceFiles.fileName) false = true

/-- A write with good fields finds the lock taken, or comes to a named pipe without a reader. -/
def WriteWaits (k : Kernel) (path offset encoded truncate : Json) : Prop :=
  ∃ r, WorkspaceFiles.writeFields path offset encoded truncate = .ok r ∧
    (k.locked = true ∨
      2 ≤ r.parts.length ∧ k.tree.hangs (r.parts.map WorkspaceFiles.fileName) true = true)

/-- A delete with good fields finds the lock taken. -/
def DeleteWaits (k : Kernel) (path recursive : Json) : Prop :=
  ∃ parts, validateRelativePath path = .ok parts ∧ recursive.asBool.getD false = false ∧ k.locked = true

section Requests

variable {path offset encoded truncate maxBytes recursive : Json} {k : Kernel}
  {quota : WorkspaceFiles.Quota} {pwrites : List ℕ}

/-- A read waits if and only if it comes to a named pipe without a writer. -/
theorem read_waits_iff :
    (outcome (WorkspaceFiles.read path offset maxBytes) k).1 = .error .blocked ↔
      ReadWaits k.tree path offset maxBytes := by
  rw [WorkspaceFiles.read, ReadWaits]
  cases hpath : validateRelativePath path with
  | error e =>
    constructor
    · intro h
      cases h
    · rintro ⟨_, _, _, h, _⟩
      cases h
  | ok parts =>
    cases validateInteger offset 0 WorkspaceFiles.maxFileBytes "file offset" with
    | error e =>
      constructor
      · intro h
        cases h
      · rintro ⟨_, _, _, _, h, _⟩
        cases h
    | ok start =>
      cases validateInteger maxBytes 1 WorkspaceFiles.maxFileChunkBytes "file read size" with
      | error e =>
        constructor
        · intro h
          cases h
        · rintro ⟨_, _, _, _, _, h, _⟩
          cases h
      | ok limit =>
        show (outcome (WorkspaceFiles.openFile parts {} false >>= fun fd =>
          WorkspaceFiles.readChunk parts fd start.toNat limit.toNat) k).1 = _ ↔ _
        rw [bind_waits_iff fun fd => WorkspaceFiles.short_readChunk parts fd _ _,
          openFile_waits_iff (Or.inl ⟨rfl, rfl⟩) (named_of_validateRelativePath hpath).2]
        constructor
        · exact fun h => ⟨parts, start, limit, rfl, rfl, rfl, h⟩
        · rintro ⟨_, _, _, ⟨⟩, -, -, h⟩
          exact h

/-- A write waits if and only if it finds the lock taken or comes to a named pipe without a reader. -/
theorem write_waits_iff :
    (outcome (WorkspaceFiles.write quota pwrites path offset encoded truncate) k).1 = .error .blocked ↔
      WriteWaits k path offset encoded truncate := by
  rw [WorkspaceFiles.write, WriteWaits]
  cases hfields : WorkspaceFiles.writeFields path offset encoded truncate with
  | error e =>
    constructor
    · intro h
      cases h
    · rintro ⟨_, h, _⟩
      cases h
  | ok r =>
    show (outcome (withWriteLock (WorkspaceFiles.openFile r.parts WorkspaceFiles.writeFlags true >>= fun fd =>
      WorkspaceFiles.writeChunk quota pwrites r fd)) k).1 = _ ↔ _
    rw [withWriteLock_waits_iff, bind_waits_iff fun fd => WorkspaceFiles.short_writeChunk quota pwrites r fd,
      openFile_waits_iff (Or.inr ⟨rfl, rfl⟩)
        (named_of_validateRelativePath (WorkspaceFiles.writeFields_parts hfields)).2]
    constructor
    · exact fun h => ⟨r, rfl, h⟩
    · rintro ⟨_, ⟨⟩, h⟩
      exact h

/-- A delete waits if and only if it finds the lock taken. -/
theorem delete_waits_iff :
    (outcome (WorkspaceFiles.delete quota path recursive) k).1 = .error .blocked ↔
      DeleteWaits k path recursive := by
  rw [WorkspaceFiles.delete, DeleteWaits]
  cases hpath : validateRelativePath path with
  | error e =>
    constructor
    · intro h
      cases h
    · rintro ⟨_, h, _⟩
      cases h
  | ok parts =>
    cases hrecursive : recursive.asBool.getD false with
    | true =>
      constructor
      · intro h
        cases h
      · rintro ⟨_, _, h, _⟩
        cases h
    | false =>
      show (outcome (withWriteLock (WorkspaceFiles.deleteFile quota parts)) k).1 = _ ↔ _
      rw [withWriteLock_waits_iff]
      constructor
      · rintro (h | h)
        · exact ⟨parts, rfl, rfl, h⟩
        · exact absurd h ((WorkspaceFiles.short_deleteFile quota parts).ne_blocked k)
      · rintro ⟨_, -, -, h⟩
        exact Or.inl h

end Requests

end Bloom
