import BloomWorkspaces.Guest.Connections
import BloomWorkspaces.Guest.Waiting

/-!
# The identity of the workspace

`watch_identity` reads the address of a key to watch, where the keystore holds this key and nothing else. It
ends unless a file of the key that it comes to is a named pipe without a writer.
-/

namespace Bloom

open Action

/-! ### Keys -/

/-- `trim` -/
def trimText (text : List Char) : List Char :=
  ((text.dropWhile Connections.isWhitespace).reverse.dropWhile Connections.isWhitespace).reverse

/-- The directories with the key of the workspace. -/
inductive KeyDirectory
  | keystore
  | wallet
  deriving DecidableEq, Repr

def keyParts : KeyDirectory → List String
  | .keystore => [".bloom", "keystore"]
  | .wallet => [".bloom", "keystore", "workspace-login"]

def keyEntries : KeyDirectory → List FileName
  | .keystore => [WorkspaceFiles.fileName "workspace-login"]
  | .wallet => ["address", "kind", "pubkey"].map WorkspaceFiles.fileName

/-- The address of a key to watch. -/
def identityOf (kind address publicKey : List Char) : Option String :=
  let normalized := String.ofList (Ascii.toLower address)
  if kind ≠ "watch".toList ∨ publicKey ≠ [] ∨ Connections.isEvmAddress normalized = false then none
  else some normalized

namespace WorkspaceFiles

/-- `ok()`: an error is dropped, and what waits goes on waiting. -/
def attempt {α : Type} (x : FileAction α) : FileAction (Option α) :=
  tryCatch (do
      let a ← x
      pure (some a))
    fun
    | .error _ => pure none
    | .blocked => throw .blocked

def listDirEntries (fd : Object) : FileAction (Option (List FileName)) := do
  match ← openat .listing fd dot { directory := true } with
  | .error _ => pure none
  | .ok dirp => do
    let names ← readdir dirp
    pure (some names)

def readSmallOpen (fd : Object) (maximum : ℕ) : FileAction (Option (List Char)) := do
  match ← fstat fd with
  | .file contents =>
    if contents.length ≤ maximum then do
      let buf ← pread fd contents maximum 0
      pure ((Utf8.decode buf).map trimText)
    else pure none
  | _ => pure none

def readSmall (path : String) (maximum : ℕ) : FileAction (Option (List Char)) :=
  match validateRelativePath (.string path) with
  | .error _ => pure none
  | .ok parts => do
    match ← attempt (openFile parts {} false) with
    | none => pure none
    | some fd => readSmallOpen fd maximum

/-- Whether a directory has the entries of a key and no others. -/
def holdsKey (dir : KeyDirectory) (fd : Object) : FileAction Bool := do
  match ← listDirEntries fd with
  | none => pure false
  | some entries => pure (sortedNames entries = keyEntries dir)

/-- Open a directory of the key and look at its entries. -/
def checkKey (dir : KeyDirectory) : FileAction Bool := do
  match ← attempt (openDirectory (keyParts dir) false) with
  | none => pure false
  | some fd => holdsKey dir fd

def readIdentity : FileAction (Option String) := do
  match ← readSmall ".bloom/keystore/workspace-login/kind" 256 with
  | none => pure none
  | some kind => do
    match ← readSmall ".bloom/keystore/workspace-login/address" 256 with
    | none => pure none
    | some address => do
      match ← readSmall ".bloom/keystore/workspace-login/pubkey" 256 with
      | none => pure none
      | some publicKey => pure (identityOf kind address publicKey)

def watchIdentity : FileAction (Option String) := do
  if ← checkKey .keystore then
    if ← checkKey .wallet then readIdentity else pure none
  else pure none

end WorkspaceFiles

/-! ### The key in the tree -/

namespace WorkspaceTree

/-- The directory has the entries of a key and no others. -/
def holdsKey (t : WorkspaceTree) (dir : KeyDirectory) : Bool :=
  t.node ((keyParts dir).map WorkspaceFiles.fileName) = some .directory &&
    WorkspaceFiles.sortedNames (t.readdir (.inside ((keyParts dir).map WorkspaceFiles.fileName))) =
      keyEntries dir

/-- The text of a small regular file. -/
def smallText (t : WorkspaceTree) (path : TreePath) (maximum : ℕ) : Option (List Char) :=
  match t.node path with
  | some (.file contents) =>
    if contents.length ≤ maximum then (Utf8.decode contents).map trimText else none
  | _ => none

def keyPath (name : String) : TreePath := (keyParts .wallet ++ [name]).map WorkspaceFiles.fileName

/-- One of the files is a named pipe without a writer, and those before it have texts. -/
def hangsAmong (t : WorkspaceTree) : List TreePath → Bool
  | [] => false
  | path :: paths => t.hangs path false || (t.smallText path 256).isSome && t.hangsAmong paths

/-- `watch_identity` comes to a named pipe without a writer. -/
def KeyWaits (t : WorkspaceTree) : Prop :=
  t.holdsKey .keystore = true ∧ t.holdsKey .wallet = true ∧
    t.hangsAmong (["kind", "address", "pubkey"].map keyPath) = true

end WorkspaceTree

section Identity

variable {α : Type} {x : FileAction α} {t : WorkspaceTree} {path : String} {parts : List String}
  {maximum : ℕ} {k : Kernel}

/-! ### Programs with the lock untouched -/

namespace WorkspaceFiles

lemma lockFree_attempt (hx : LockFree x) : LockFree (attempt x) := by
  refine LockFree.tryCatch (LockFree.bind hx fun a => LockFree.pure _) fun halt => ?_
  cases halt with
  | error e => exact LockFree.pure none
  | blocked => exact LockFree.throw _

lemma lockFree_checkKey (dir : KeyDirectory) : LockFree (checkKey dir) := by
  refine LockFree.bind (lockFree_attempt (lockFree_openDirectory _ _)) fun opened => ?_
  cases opened with
  | none => exact LockFree.pure false
  | some fd =>
    refine LockFree.bind ?_ fun entries => ?_
    · refine LockFree.bind (LockFree.openat _ _ _ _) fun r => ?_
      cases r with
      | error errno => exact LockFree.pure none
      | ok dirp => exact LockFree.bind (LockFree.observe _ _ _ _) fun names => LockFree.pure _
    · cases entries with
      | none => exact LockFree.pure false
      | some entries => exact LockFree.pure _

lemma lockFree_readSmall (path : String) (maximum : ℕ) : LockFree (readSmall path maximum) := by
  rw [readSmall]
  split
  · exact LockFree.pure none
  · refine LockFree.bind (lockFree_attempt (lockFree_openFile _ _ _)) fun opened => ?_
    cases opened with
    | none => exact LockFree.pure none
    | some fd =>
      refine LockFree.bind (LockFree.observe _ _ _ _) fun n => ?_
      split
      · split
        · exact LockFree.bind (LockFree.observe _ _ _ _) fun buf => LockFree.pure _
        · exact LockFree.pure none
      · exact LockFree.pure none

lemma lockFree_watchIdentity : LockFree watchIdentity := by
  refine LockFree.bind (lockFree_checkKey _) fun holds => ?_
  split
  · refine LockFree.bind (lockFree_checkKey _) fun holds => ?_
    split
    · refine LockFree.bind (lockFree_readSmall _ _) fun kind => ?_
      cases kind with
      | none => exact LockFree.pure none
      | some kind =>
        refine LockFree.bind (lockFree_readSmall _ _) fun address => ?_
        cases address with
        | none => exact LockFree.pure none
        | some address =>
          refine LockFree.bind (lockFree_readSmall _ _) fun publicKey => ?_
          cases publicKey with
          | none => exact LockFree.pure none
          | some publicKey => exact LockFree.pure _
    · exact LockFree.pure none
  · exact LockFree.pure none

/-! ### Messages -/

lemma short_attempt (hx : MayWait x) : MayWait (attempt x) := by
  refine Yields.tryCatch (Yields.bind hx fun a _ => Yields.pure trivial) fun halt hhalt => ?_
  cases halt with
  | error e => exact Yields.pure trivial
  | blocked => exact Yields.throw trivial

lemma short_readSmall (path : String) (maximum : ℕ) : MayWait (readSmall path maximum) := by
  rw [readSmall]
  split
  · exact Yields.pure trivial
  · refine MayWait.bind (short_attempt (short_openFile _ _ _)) fun opened => ?_
    cases opened with
    | none => exact Yields.pure trivial
    | some fd =>
      apply MayWait.of_throwsShort
      refine ThrowsShort.bind (ThrowsShort.observe _ _ _ _) fun n => ?_
      split
      · split
        · exact ThrowsShort.bind (ThrowsShort.observe _ _ _ _) fun buf => ThrowsShort.pure _
        · exact ThrowsShort.pure none
      · exact ThrowsShort.pure none

lemma short_checkKey (dir : KeyDirectory) : MayWait (checkKey dir) := by
  refine MayWait.bind (short_attempt (MayWait.of_throwsShort (short_openDirectory _ _))) fun opened => ?_
  apply MayWait.of_throwsShort
  cases opened with
  | none => exact ThrowsShort.pure false
  | some fd =>
    refine ThrowsShort.bind ?_ fun entries => ?_
    · refine ThrowsShort.bind (ThrowsShort.openat rfl _ _ _) fun r => ?_
      cases r with
      | error errno => exact ThrowsShort.pure none
      | ok dirp => exact ThrowsShort.bind (ThrowsShort.observe _ _ _ _) fun names => ThrowsShort.pure _
    · cases entries with
      | none => exact ThrowsShort.pure false
      | some entries => exact ThrowsShort.pure _

lemma short_watchIdentity : MayWait watchIdentity := by
  refine MayWait.bind (short_checkKey _) fun holds => ?_
  split
  · refine MayWait.bind (short_checkKey _) fun holds => ?_
    split
    · refine MayWait.bind (short_readSmall _ _) fun kind => ?_
      cases kind with
      | none => exact Yields.pure trivial
      | some kind =>
        refine MayWait.bind (short_readSmall _ _) fun address => ?_
        cases address with
        | none => exact Yields.pure trivial
        | some address =>
          refine MayWait.bind (short_readSmall _ _) fun publicKey => ?_
          cases publicKey with
          | none => exact Yields.pure trivial
          | some publicKey => exact Yields.pure trivial
    · exact Yields.pure trivial
  · exact Yields.pure trivial

/-! ### Outcomes -/

lemma gives_attempt_ok {a : α} {t' : WorkspaceTree} (h : Gives t x (.ok a) t') :
    Gives t (attempt x) (.ok (some a)) t' := Ends.tryCatch_ok (Ends.bind_ok h (Ends.pure _))

lemma gives_attempt_error {e : ControlError} {t' : WorkspaceTree} (h : Gives t x (.error (.error e)) t') :
    Gives t (attempt x) (.ok none) t' := Ends.tryCatch_error (Ends.bind_error h) (Ends.pure _)

lemma gives_attempt_blocked {t' : WorkspaceTree} (h : Gives t x (.error .blocked) t') :
    Gives t (attempt x) (.error .blocked) t' := Ends.tryCatch_error (Ends.bind_error h) (Ends.throw _)

lemma isStep_keyParts (dir : KeyDirectory) : ∀ part ∈ keyParts dir, IsStep (fileName part) := by
  have hplain : ∀ part ∈ keyParts dir, isPlainName (fileName part) = true := by
    cases dir with
    | keystore => decide +kernel
    | wallet => decide +kernel
  exact fun part hpart => IsStep.of_plain (hplain part hpart)

lemma gives_checkKey (t : WorkspaceTree) (dir : KeyDirectory) :
    Gives t (checkKey dir) (.ok (t.holdsKey dir)) t := by
  rw [WorkspaceTree.holdsKey]
  by_cases hdir : t.node ((keyParts dir).map fileName) = some .directory
  · refine Ends.bind_ok (gives_attempt_ok (gives_openDirectory_existing _ (isStep_keyParts dir) hdir)) ?_
    have hentries : Gives t (listDirEntries (.inside ((keyParts dir).map fileName)))
        (.ok (some (t.readdir (.inside ((keyParts dir).map fileName))))) t := by
      refine Ends.bind_ok (gives_openat_dot hdir rfl rfl) ?_
      exact Ends.bind_ok (gives_readdir _) (Ends.pure _)
    refine Ends.bind_ok hentries ?_
    rw [decide_eq_true hdir, Bool.true_and]
    exact Ends.pure _
  · obtain ⟨e, hopen⟩ := gives_openDirectory_missing (isStep_keyParts dir) hdir
    refine Ends.bind_ok (gives_attempt_error hopen) ?_
    rw [decide_eq_false hdir, Bool.false_and]
    exact Ends.pure _

lemma smallText_of_no_file (h : ∀ contents, t.node (parts.map fileName) ≠ some (.file contents)) :
    t.smallText (parts.map fileName) maximum = none := by
  rw [WorkspaceTree.smallText]
  split
  · exact absurd ‹_› (h _)
  · rfl

lemma gives_readSmallOpen (t : WorkspaceTree) (target : TreePath) (maximum : ℕ) :
    Gives t (readSmallOpen (.inside target) maximum) (.ok (t.smallText target maximum)) t := by
  refine Ends.bind_ok (gives_observe _) ?_
  rw [WorkspaceTree.smallText, WorkspaceTree.nodeOf]
  cases t.node target with
  | none => exact Ends.pure _
  | some n =>
    cases n with
    | file contents =>
      simp only [Option.getD_some]
      split
      · refine Ends.bind_ok (gives_observe _) ?_
        rw [List.drop_zero, List.take_of_length_le ‹_›]
        exact Ends.pure _
      · exact Ends.pure _
    | _ => exact Ends.pure _

lemma gives_readSmall_waits (hvalid : validateRelativePath (.string path) = .ok parts)
    (hlength : 2 ≤ parts.length) (h : t.hangs (parts.map fileName) false = true) :
    Gives t (readSmall path maximum) (.error .blocked) t := by
  rw [readSmall, hvalid]
  exact Ends.bind_error (gives_attempt_blocked
    (gives_openFile_hangs (named_of_validateRelativePath hvalid).2 hlength rfl h))

lemma gives_readSmall (hvalid : validateRelativePath (.string path) = .ok parts)
    (hlength : 2 ≤ parts.length) (h : t.hangs (parts.map fileName) false = false) :
    Gives t (readSmall path maximum) (.ok (t.smallText (parts.map fileName) maximum)) t := by
  rw [readSmall, hvalid]
  obtain hopen | ⟨hno, e, hopen⟩ :=
    gives_openFile_readOnly t (named_of_validateRelativePath hvalid).2 hlength h
  · exact Ends.bind_ok (gives_attempt_ok hopen) (gives_readSmallOpen _ _ _)
  · rw [smallText_of_no_file hno]
    exact Ends.bind_ok (gives_attempt_error hopen) (Ends.pure _)

/-- A text that is read before a program that may wait. -/
lemma gives_readSmall_then {f : Option (List Char) → FileAction (Option String)} {paths : List TreePath}
    (hvalid : validateRelativePath (.string path) = .ok parts) (hlength : 2 ≤ parts.length)
    (hnone : Gives t (f none) (.ok none) t)
    (hsome : ∀ text, ∃ r, Gives t (f (some text)) r t ∧ (r = .error .blocked ↔ t.hangsAmong paths = true)) :
    ∃ r, Gives t (readSmall path 256 >>= f) r t ∧
      (r = .error .blocked ↔ t.hangsAmong (parts.map fileName :: paths) = true) := by
  cases hhangs : t.hangs (parts.map fileName) false with
  | true =>
    refine ⟨_, Ends.bind_error (gives_readSmall_waits hvalid hlength hhangs), ?_⟩
    rw [WorkspaceTree.hangsAmong, hhangs]
    exact ⟨fun _ => rfl, fun _ => rfl⟩
  | false =>
    have hread : Gives t (readSmall path 256) _ t := gives_readSmall hvalid hlength hhangs
    rw [WorkspaceTree.hangsAmong, hhangs, Bool.false_or]
    cases htext : t.smallText (parts.map fileName) 256 with
    | none =>
      rw [htext] at hread
      exact ⟨_, Ends.bind_ok hread hnone, nofun, nofun⟩
    | some text =>
      rw [htext] at hread
      obtain ⟨r, hr, hiff⟩ := hsome text
      refine ⟨r, Ends.bind_ok hread hr, hiff.trans ?_⟩
      rw [Option.isSome_some, Bool.true_and]

lemma gives_readIdentity (t : WorkspaceTree) :
    ∃ r, Gives t readIdentity r t ∧
      (r = .error .blocked ↔
        t.hangsAmong (["kind", "address", "pubkey"].map WorkspaceTree.keyPath) = true) := by
  have hvalid : ∀ name ∈ ["kind", "address", "pubkey"],
      validateRelativePath (.string (".bloom/keystore/workspace-login/" ++ name)) =
        .ok (keyParts .wallet ++ [name]) := by decide +kernel
  refine gives_readSmall_then (hvalid "kind" (by decide)) (by decide) (Ends.pure _) fun kind => ?_
  refine gives_readSmall_then (hvalid "address" (by decide)) (by decide) (Ends.pure _) fun address => ?_
  refine gives_readSmall_then (hvalid "pubkey" (by decide)) (by decide) (Ends.pure _) fun publicKey => ?_
  exact ⟨_, Ends.pure _, nofun, nofun⟩

end WorkspaceFiles

/-- The identity is waited for if and only if a file of the key that is come to is a named pipe without a
writer. -/
theorem watchIdentity_waits_iff :
    (outcome WorkspaceFiles.watchIdentity k).1 = .error .blocked ↔ k.tree.KeyWaits := by
  have hends : ∃ r, Gives k.tree WorkspaceFiles.watchIdentity r k.tree ∧
      (r = .error .blocked ↔ k.tree.KeyWaits) := by
    have hkeystore := WorkspaceFiles.gives_checkKey k.tree .keystore
    have hwallet := WorkspaceFiles.gives_checkKey k.tree .wallet
    rw [WorkspaceTree.KeyWaits]
    cases hholds : k.tree.holdsKey .keystore with
    | false =>
      rw [hholds] at hkeystore
      exact ⟨_, Ends.bind_ok hkeystore (Ends.pure _), nofun, nofun⟩
    | true =>
      rw [hholds] at hkeystore
      cases hholds' : k.tree.holdsKey .wallet with
      | false =>
        rw [hholds'] at hwallet
        exact ⟨_, Ends.bind_ok hkeystore (Ends.bind_ok hwallet (Ends.pure _)), nofun, nofun⟩
      | true =>
        rw [hholds'] at hwallet
        obtain ⟨r, hr, hiff⟩ := WorkspaceFiles.gives_readIdentity k.tree
        refine ⟨r, Ends.bind_ok hkeystore (Ends.bind_ok hwallet hr), hiff.trans ?_⟩
        exact ⟨fun h => ⟨rfl, rfl, h⟩, fun h => h.2.2⟩
  obtain ⟨r, hr, hiff⟩ := hends
  obtain ⟨k', hrun, -⟩ := WorkspaceFiles.lockFree_watchIdentity.outcome hr rfl
  rw [hrun]
  exact hiff

/-- What is found is an address. -/
lemma isEvmAddress_of_identityOf {kind address publicKey : List Char} {identity : String}
    (h : identityOf kind address publicKey = some identity) :
    Connections.isEvmAddress identity = true := by
  rw [identityOf] at h
  split at h
  · cases h
  · rename_i hnot
    obtain rfl := Option.some.inj h
    simp only [not_or, Bool.not_eq_false] at hnot
    exact hnot.2.2

/-- The identity that is found, if any, is an address. -/
lemma yields_watchIdentity : Yields (fun _ => True)
    (fun found : Option String => ∀ identity, found = some identity →
      Connections.isEvmAddress identity = true) WorkspaceFiles.watchIdentity := by
  refine Yields.bind (Yields.any _) fun holds _ => ?_
  split
  · refine Yields.bind (Yields.any _) fun holds _ => ?_
    split
    · refine Yields.bind (Yields.any _) fun kind _ => ?_
      cases kind with
      | none => exact Yields.pure nofun
      | some kind =>
        refine Yields.bind (Yields.any _) fun address _ => ?_
        cases address with
        | none => exact Yields.pure nofun
        | some address =>
          refine Yields.bind (Yields.any _) fun publicKey _ => ?_
          cases publicKey with
          | none => exact Yields.pure nofun
          | some publicKey => exact Yields.pure fun _ => isEvmAddress_of_identityOf
    · exact Yields.pure nofun
  · exact Yields.pure nofun

end Identity

end Bloom
