import BloomWorkspaces.Guest.Outcomes

/-!
# A write that is refused

`fs.write` makes the parents of its target and the target, and gives it to the workspace user, before it
knows that it may write. Owners are kept beside the tree, as the calls that set them are in the log.
-/

namespace Bloom

open Action

/-- The objects whose owner has been set. -/
def chowned (log : List Access) : List Object :=
  (log.filter fun a => a.call = .changeOwner).map Access.object

/-- The owner of an object after the calls of a log. -/
def ownerAfter (uid : ℕ) (owner : TreePath → ℕ) (log : List Access) (path : TreePath) : ℕ :=
  if .inside path ∈ chowned log then uid else owner path

/-- The tree is what it was, and the owners in it. -/
structure Intact (uid : ℕ) (owner : TreePath → ℕ) (t : WorkspaceTree) (k : Kernel) : Prop where
  tree : k.tree = t
  owner : ∀ path n, t.node path = some n → ownerAfter uid owner k.log path = owner path

/-- What is expected of a write: where it is refused, and not by a `pwrite` that fails, it has changed
nothing. -/
def RefusesUnchanged (quota : WorkspaceFiles.Quota) (uid : ℕ) (owner : TreePath → ℕ) (t : WorkspaceTree)
    (path offset encoded truncate : Json) : Prop :=
  ∀ pwrites e k, outcome (WorkspaceFiles.write quota pwrites path offset encoded truncate) (.initial t) =
      (.error (.error e), k) →
    e ≠ noProgress → Intact uid owner t k

namespace WorkspaceTree

/-- Something on the way to the target, or the target itself, is missing and can be made. -/
def Makes (t : WorkspaceTree) (target : TreePath) : Prop :=
  ∃ dir name rest, target = dir ++ name :: rest ∧ t.CanHold dir name

/-- The target is there and can be opened for writing. -/
def Opens (t : WorkspaceTree) (target : TreePath) : Prop :=
  (∃ n, t.node target = some n ∧ n ≠ .directory ∧ (∀ link, n ≠ .symlink link) ∧ n ≠ .socket) ∧
    t.hangs target true = false

end WorkspaceTree

/-- The target is or becomes a regular file, and with it in place the limits allow the write. -/
structure WorkspaceFiles.WriteFields.Permitted (r : WorkspaceFiles.WriteFields)
    (quota : WorkspaceFiles.Quota) (t : WorkspaceTree) (target : TreePath) : Prop where
  writable : t.Writable target
  fits : ∃ used, (t.prepared target).usedBytes = .ok used ∧
    r.accounted used (t.contentsAt target).length ≤ quota.bytes

/-- The write is permitted, or there is nothing that it could make and no owner that it could change. -/
def SparesRefused (quota : WorkspaceFiles.Quota) (uid : ℕ) (owner : TreePath → ℕ) (t : WorkspaceTree)
    (r : WorkspaceFiles.WriteFields) : Prop :=
  r.Permitted quota t (r.parts.map WorkspaceFiles.fileName) ∨
    ¬t.Makes (r.parts.map WorkspaceFiles.fileName) ∧
      (t.Opens (r.parts.map WorkspaceFiles.fileName) → owner (r.parts.map WorkspaceFiles.fileName) = uid)

/-! ### What is made -/

namespace WorkspaceTree

variable {t : WorkspaceTree} {create : Bool} {dir target start mid : TreePath} {name : FileName}
  {names rest : List FileName}

/-- Nothing is made below what is no directory. -/
lemma enter_blocked (h : t.node dir ≠ some .directory) : t.enter create dir names = t := by
  induction names generalizing dir with
  | nil => rfl
  | cons name rest ih =>
    have hsame : (if create then t.make dir name .directory else t) = t := by
      split
      · exact make_of_not fun hcan => h hcan.parent
      · rfl
    rw [enter, hsame]
    exact ih fun hdir => h (node_dir hdir)

lemma enter_of_not_makes (h : ¬t.Makes (dir ++ names)) : t.enter create dir names = t := by
  induction names generalizing dir with
  | nil => rfl
  | cons name rest ih =>
    have hsame : (if create then t.make dir name .directory else t) = t := by
      split
      · exact make_of_not fun hcan => h ⟨dir, name, rest, rfl, hcan⟩
      · rfl
    rw [enter, hsame]
    rw [List.append_cons] at h
    exact ih h

lemma prepared_of_not_makes (hne : target ≠ []) (h : ¬t.Makes target) : t.prepared target = t := by
  rw [← List.dropLast_append_getLast hne] at h ⊢
  have hparents : ¬t.Makes ([] ++ target.dropLast) := by
    rintro ⟨dir, name, rest, heq, hcan⟩
    refine h ⟨dir, name, rest ++ [target.getLast hne], ?_, hcan⟩
    rw [← List.nil_append target.dropLast, heq, List.append_assoc, List.cons_append]
  rw [prepared_concat, enter_of_not_makes hparents]
  exact make_of_not fun hcan => h ⟨_, _, [], rfl, hcan⟩

/-- What is missing on the way is made. -/
lemma node_enter_of_canHold (hcan : t.CanHold (start ++ mid) name) :
    (t.enter true start (mid ++ name :: rest)).node (start ++ mid ++ [name]) = some .directory := by
  induction mid generalizing start with
  | nil =>
    rw [List.append_nil] at hcan ⊢
    rw [List.nil_append, enter, if_pos rfl]
    exact grows_enter.kept _ _ (node_make_self hcan)
  | cons m mid ih =>
    rw [List.append_cons start m mid] at hcan ⊢
    have hthere : t.node (start ++ [m]) = some .directory := node_of_append hcan.parent
    have hsame : t.make start m .directory = t := by
      refine make_of_not fun hmake => ?_
      rw [hmake.free] at hthere
      cases hthere
    rw [List.cons_append, enter, if_pos rfl, hsame]
    exact ih hcan

lemma prepared_ne_of_makes (h : t.Makes target) : t.prepared target ≠ t := by
  obtain ⟨dir, name, rest, rfl, hcan⟩ := h
  have hmade : ∃ n, (t.prepared (dir ++ name :: rest)).node (dir ++ [name]) = some n := by
    rcases List.eq_nil_or_concat' rest with rfl | ⟨rest, last, rfl⟩
    · rw [prepared_concat, enter_existing hcan.parent]
      exact ⟨_, node_make_self hcan⟩
    · rw [← List.cons_append, ← List.append_assoc, prepared_concat]
      exact ⟨_, node_make_of_some (node_enter_of_canHold hcan)⟩
  intro hsame
  obtain ⟨n, hn⟩ := hmade
  rw [hsame, hcan.free] at hn
  cases hn

lemma prepared_eq_iff (hne : target ≠ []) : t.prepared target = t ↔ ¬t.Makes target :=
  ⟨fun hsame hmakes => prepared_ne_of_makes hmakes hsame, prepared_of_not_makes hne⟩

end WorkspaceTree

/-! ### Opening the target -/

section Opening

variable {t : WorkspaceTree} {dir : TreePath} {name : FileName} {parts : List String}

/-- The target is opened, made or not, or nothing is made and it cannot be opened. -/
lemma gives_openat_target (hname : IsStep name) :
    (t.make dir name (.file [])).Opens (dir ++ [name]) ∧
        Gives t (openat .request (.inside dir) name { WorkspaceFiles.writeFlags with noFollow := true })
          (.ok (.ok (.inside (dir ++ [name])))) (t.make dir name (.file [])) ∨
      ¬(t.make dir name (.file [])).Opens (dir ++ [name]) ∧ t.make dir name (.file []) = t ∧
        ((∃ errno, Gives t
            (openat .request (.inside dir) name { WorkspaceFiles.writeFlags with noFollow := true })
            (.ok (.error errno)) t) ∨
          Gives t (openat .request (.inside dir) name { WorkspaceFiles.writeFlags with noFollow := true })
              (.error .blocked) t ∧
            t.hangs (dir ++ [name]) true = true) := by
  have hwaits := t.waits_step dir hname { WorkspaceFiles.writeFlags with noFollow := true } rfl
  by_cases hcan : t.CanHold dir name
  · have hmade : (t.make dir name (.file [])).node (dir ++ [name]) = some (.file []) :=
      WorkspaceTree.node_make_self hcan
    refine .inl ⟨⟨⟨_, hmade, by simp, by simp, by simp⟩, WorkspaceTree.not_hangs_of_file hmade true⟩, ?_⟩
    exact gives_openat (hwaits.trans (WorkspaceTree.not_hangs_of_make hmade true))
      (gives_perform_ok (openat_file hcan.plain rfl rfl hmade))
  · rw [WorkspaceTree.make_of_not hcan]
    cases hhangs : t.hangs (dir ++ [name]) true with
    | true =>
      refine .inr ⟨fun hopens => ?_, rfl, .inr ⟨gives_openat_waits (hwaits.trans hhangs), rfl⟩⟩
      rw [hopens.2] at hhangs
      cases hhangs
    | false =>
      cases hopen : t.openat (.inside dir) name { WorkspaceFiles.writeFlags with noFollow := true } with
      | ok result =>
        obtain ⟨object, t'⟩ := result
        obtain ⟨rfl, -, ⟨n, hnode, rfl, -, hdirectory, hlink, hsocket⟩ | ⟨-, hfree, -⟩⟩ :=
          openat_ok hname rfl hopen
        · exact .inl ⟨⟨⟨n, hnode, hdirectory rfl, hlink, hsocket⟩, hhangs⟩,
            gives_openat (hwaits.trans hhangs) (gives_perform_ok hopen)⟩
        · exact absurd hfree hcan
      | error errno =>
        refine .inr ⟨?_, rfl, .inl ⟨errno, gives_openat (hwaits.trans hhangs) (gives_perform_error hopen)⟩⟩
        rintro ⟨⟨n, hnode, hdirectory, hlink, hsocket⟩, -⟩
        have hplain := WorkspaceTree.plain_of_node hnode
        rw [WorkspaceTree.openat, nameErrno_of_plain hplain, hname.resolve] at hopen
        simp only [hnode] at hopen
        cases n with
        | file contents => cases hopen
        | directory => exact hdirectory rfl
        | symlink link => exact hlink link rfl
        | fifo reader writer => cases hopen
        | socket => exact hsocket rfl
        | other => cases hopen

lemma gives_descend_blocked (hparts : ∀ part ∈ parts, IsStep (WorkspaceFiles.fileName part))
    (hdir : t.node dir = some .directory)
    (h : (t.enter true dir (parts.map WorkspaceFiles.fileName)).node
      (dir ++ parts.map WorkspaceFiles.fileName) ≠ some .directory) :
    ∃ errno, Gives t (WorkspaceFiles.descend true (.inside dir) parts) (.error (.error (fromIoError errno)))
      (t.enter true dir (parts.map WorkspaceFiles.fileName)) := by
  induction parts generalizing t dir with
  | nil =>
    rw [List.map_nil, List.append_nil] at h
    exact absurd hdir h
  | cons part parts ih =>
    rw [List.map_cons, WorkspaceTree.enter, if_pos rfl,
      List.append_cons dir (WorkspaceFiles.fileName part) (parts.map WorkspaceFiles.fileName)] at h
    rw [List.map_cons, WorkspaceTree.enter, if_pos rfl]
    have hname := hparts part List.mem_cons_self
    have hmake : Gives t (WorkspaceFiles.onlyIf true
        (WorkspaceFiles.makeParent (.inside dir) (WorkspaceFiles.fileName part))) (.ok ())
        (t.make dir (WorkspaceFiles.fileName part) .directory) := gives_makeParent hname
    by_cases hhere : (t.make dir (WorkspaceFiles.fileName part) .directory).node
        (dir ++ [WorkspaceFiles.fileName part]) = some .directory
    · obtain ⟨e, hrest⟩ := ih (fun p hp => hparts p (List.mem_cons_of_mem _ hp)) hhere h
      refine ⟨e, Ends.bind_ok hmake ?_⟩
      refine Ends.bind_ok (gives_openat_directory hhere) ?_
      exact Ends.bind_ok (Ends.pure _) hrest
    · obtain ⟨errno, hopen⟩ := gives_openat_no_directory .request hname hhere
      rw [WorkspaceTree.enter_blocked hhere]
      refine ⟨errno, Ends.bind_ok hmake ?_⟩
      exact Ends.bind_ok hopen (Ends.bind_error (gives_refuse _))

/-- How the target of a write is opened, and what has been made by then. -/
lemma gives_openFile_target (hparts : ∀ part ∈ parts, IsStep (WorkspaceFiles.fileName part))
    (hlength : 2 ≤ parts.length) :
    (t.prepared (parts.map WorkspaceFiles.fileName)).Opens (parts.map WorkspaceFiles.fileName) ∧
        Gives t (WorkspaceFiles.openFile parts WorkspaceFiles.writeFlags true)
          (.ok (.inside (parts.map WorkspaceFiles.fileName)))
          (t.prepared (parts.map WorkspaceFiles.fileName)) ∨
      ¬(t.prepared (parts.map WorkspaceFiles.fileName)).Opens (parts.map WorkspaceFiles.fileName) ∧
        ((∃ errno, Gives t (WorkspaceFiles.openFile parts WorkspaceFiles.writeFlags true)
            (.error (.error (fromIoError errno))) (t.prepared (parts.map WorkspaceFiles.fileName))) ∨
          Gives t (WorkspaceFiles.openFile parts WorkspaceFiles.writeFlags true) (.error .blocked)
              (t.prepared (parts.map WorkspaceFiles.fileName)) ∧
            (t.prepared (parts.map WorkspaceFiles.fileName)).hangs (parts.map WorkspaceFiles.fileName) true =
              true) := by
  have hne : parts ≠ [] := by
    rintro rfl
    exact absurd hlength (by decide)
  obtain ⟨hsplit, hlast⟩ := WorkspaceFiles.map_fileName_split hne
  have hdirs := fun p hp => hparts p (List.dropLast_subset parts hp)
  have hname := hparts _ hlast
  rw [hsplit, WorkspaceTree.prepared_concat, WorkspaceFiles.openFile, if_neg (by omega)]
  by_cases hdir : (t.enter true [] (parts.dropLast.map WorkspaceFiles.fileName)).node
      (parts.dropLast.map WorkspaceFiles.fileName) = some .directory
  · have hopen := gives_openDirectory_ok hdirs hdir
    rcases gives_openat_target hname with ⟨hopens, htarget⟩ |
      ⟨hopens, hsame, ⟨errno, htarget⟩ | ⟨htarget, hhangs⟩⟩
    · refine .inl ⟨hopens, Ends.bind_ok hopen ?_⟩
      exact Ends.bind_ok htarget (Ends.pure _)
    · refine .inr ⟨hopens, .inl ⟨errno, Ends.bind_ok hopen ?_⟩⟩
      rw [hsame]
      exact Ends.bind_ok htarget (gives_refuse _)
    · refine .inr ⟨hopens, .inr ⟨Ends.bind_ok hopen ?_, ?_⟩⟩
      · rw [hsame]
        exact Ends.bind_error htarget
      · rw [hsame]
        exact hhangs
  · have hsame : (t.enter true [] (parts.dropLast.map WorkspaceFiles.fileName)).make
        (parts.dropLast.map WorkspaceFiles.fileName) (WorkspaceFiles.fileName (parts.getLastD "")) (.file []) =
          t.enter true [] (parts.dropLast.map WorkspaceFiles.fileName) :=
      WorkspaceTree.make_of_not fun hcan => hdir hcan.parent
    obtain ⟨e, hdescend⟩ := gives_descend_blocked hdirs (WorkspaceTree.node_nil t) hdir
    rw [hsame]
    refine .inr ⟨?_, .inl ⟨e, Ends.bind_error ?_⟩⟩
    · rintro ⟨⟨n, hnode, -⟩, -⟩
      exact hdir (WorkspaceTree.node_dir hnode)
    · refine Ends.bind_ok (gives_openat_dot (WorkspaceTree.node_nil t) rfl rfl) ?_
      exact Ends.bind_ok (Ends.pure _) hdescend

end Opening

/-! ### Owners -/

/-- A program that sets no owner. -/
def Quiet {α : Type} (x : FileAction α) : Prop :=
  ∀ objects, Triple (fun k => chowned k.log = objects) x (fun _ k => chowned k.log = objects)
    fun _ k => chowned k.log = objects

section Owners

variable {α β : Type} {x : FileAction α} {f : α → FileAction β} {call : Call} {origin : Origin}
  {object fd : Object} {k : Kernel} {r : WorkspaceFiles.WriteFields} {quota : WorkspaceFiles.Quota}
  {enter : Object → WorkspaceFiles.Scan → FileAction (WorkspaceFiles.Scan × Option ControlError)}

lemma chowned_saw_ne (hcall : call ≠ .changeOwner) : chowned (k.saw call origin object).log = chowned k.log := by
  rw [chowned, Kernel.saw, List.filter_cons_of_neg (by simpa using hcall), chowned]

lemma chowned_saw : chowned (k.saw .changeOwner origin object).log = object :: chowned k.log := by
  rw [chowned, Kernel.saw, List.filter_cons_of_pos (by simp), List.map_cons, chowned]

lemma quiet_pure (a : α) : Quiet (pure a) := fun _ => Triple.pure fun _ hk => hk

lemma quiet_throw (e : Halt) : Quiet (throw e : FileAction α) := fun _ => Triple.throw fun _ hk => hk

lemma quiet_refuse (e : ControlError) : Quiet (refuse e : FileAction α) := quiet_throw _

lemma Quiet.bind (hx : Quiet x) (hf : ∀ a, Quiet (f a)) : Quiet (x >>= f) :=
  fun objects => Triple.bind (hx objects) fun a => hf a objects

lemma quiet_perform (f : WorkspaceTree → Except Errno (Object × WorkspaceTree)) (hcall : call ≠ .changeOwner) :
    Quiet (perform call origin f) := by
  refine fun objects => Triple.modifyGet fun k hk => ?_
  split
  · exact (chowned_saw_ne hcall).trans hk
  · exact hk

lemma quiet_observe (f : WorkspaceTree → α) (hcall : call ≠ .changeOwner) :
    Quiet (observe call origin object f) :=
  fun _ => Triple.modifyGet fun _ hk => (chowned_saw_ne hcall).trans hk

lemma quiet_alter (f : List UInt8 → List UInt8) (hcall : call ≠ .changeOwner) : Quiet (alter call fd f) :=
  fun _ => Triple.modifyGet fun _ hk => (chowned_saw_ne hcall).trans hk

lemma quiet_openat (dir : Object) (name : FileName) (flags : OpenFlags) :
    Quiet (openat origin dir name flags) := by
  refine Quiet.bind (fun _ => Triple.get fun _ hk => hk) fun k => ?_
  split
  · exact Quiet.bind (quiet_observe _ (by decide)) fun _ => quiet_throw _
  · exact quiet_perform _ (by decide)

lemma quiet_scanEntry (henter : ∀ fd s, Quiet (enter fd s)) (fd : Object) (name : FileName)
    (s : WorkspaceFiles.Scan) : Quiet (WorkspaceFiles.scanEntry enter fd name s) := by
  refine Quiet.bind (quiet_observe _ (by decide)) fun found => ?_
  split
  · split
    · exact quiet_pure _
    · exact quiet_pure _
  · refine Quiet.bind (quiet_openat _ _ _) fun opened => ?_
    cases opened with
    | ok child => exact Quiet.bind (henter child s) fun _ => quiet_pure _
    | error errno => exact quiet_pure _
  · exact quiet_pure _

lemma quiet_scanNames (henter : ∀ fd s, Quiet (enter fd s)) (fd : Object) (names : List FileName)
    (s : WorkspaceFiles.Scan) : Quiet (WorkspaceFiles.scanNames enter fd names s) := by
  induction names generalizing s with
  | nil => exact quiet_pure _
  | cons raw rest ih =>
    rw [WorkspaceFiles.scanNames]
    split
    · exact ih s
    · refine Quiet.bind (quiet_scanEntry henter fd _ s) fun scanned => ?_
      obtain ⟨s', e⟩ := scanned
      cases e with
      | some e => exact quiet_pure _
      | none => exact ih s'

lemma quiet_walkDirBytes (fuel : ℕ) (fd : Object) (s : WorkspaceFiles.Scan) :
    Quiet (WorkspaceFiles.walkDirBytes fuel fd s) := by
  induction fuel generalizing fd s with
  | zero => exact quiet_pure _
  | succ fuel ih =>
    refine Quiet.bind (quiet_openat _ _ _) fun opened => ?_
    cases opened with
    | ok dirp => exact Quiet.bind (quiet_observe _ (by decide)) fun names => quiet_scanNames ih fd names s
    | error errno => exact quiet_pure _

lemma quiet_directoryBytes : Quiet WorkspaceFiles.directoryBytes := by
  refine Quiet.bind (quiet_walkDirBytes _ _ _) fun walked => ?_
  obtain ⟨s, e⟩ := walked
  cases e with
  | some e => exact quiet_refuse e
  | none => exact quiet_pure _

lemma quiet_regularFile (n : FileNode) (message : String) : Quiet (WorkspaceFiles.regularFile n message) := by
  cases n with
  | file contents => exact quiet_pure _
  | _ => exact quiet_refuse _

lemma quiet_pwriteAll (pwrites : List ℕ) (chunk : List UInt8) (start : ℕ) :
    Quiet (pwriteAll fd pwrites chunk start) := by
  induction pwrites generalizing chunk start with
  | nil =>
    rw [pwriteAll]
    split
    · exact quiet_pure _
    · exact quiet_alter _ (by decide)
  | cons n pwrites ih =>
    rw [pwriteAll]
    split
    · exact quiet_pure _
    · split
      · exact Quiet.bind (quiet_observe _ (by decide)) fun _ => quiet_refuse _
      · exact Quiet.bind (quiet_alter _ (by decide)) fun _ => ih _ _

lemma quiet_onlyIf {x : FileAction Unit} (hx : Quiet x) (flag : Bool) : Quiet (WorkspaceFiles.onlyIf flag x) := by
  cases flag with
  | true => exact hx
  | false => exact quiet_pure ()

/-- The write to the open target sets its owner first. -/
lemma chowned_writeChunk (pwrites : List ℕ) (objects : List Object) : Triple (fun k => chowned k.log = objects)
    (WorkspaceFiles.writeChunk quota pwrites r fd) (fun _ k => chowned k.log = fd :: objects)
    fun _ k => chowned k.log = fd :: objects := by
  refine Triple.bind (Q := fun _ k => chowned k.log = fd :: objects)
    (Triple.modifyGet fun k hk => chowned_saw.trans (congrArg _ hk)) fun _ => ?_
  refine Quiet.bind (quiet_observe _ (by decide)) (fun n => ?_) (fd :: objects)
  refine Quiet.bind (quiet_regularFile n _) fun contents => ?_
  refine Quiet.bind quiet_directoryBytes fun used => ?_
  split
  · exact quiet_refuse _
  · refine Quiet.bind (quiet_onlyIf (quiet_alter _ (by decide)) r.truncate) fun _ => ?_
    refine Quiet.bind (quiet_pwriteAll pwrites r.chunk r.start) fun _ => ?_
    exact Quiet.bind (quiet_observe _ (by decide)) fun _ => quiet_pure _

/-! ### Parents that are made -/

/-- What the tree holds is still there, and of that no owner has been set. -/
def Spared (t : WorkspaceTree) (k : Kernel) : Prop :=
  (∀ p n, t.node p = some n → k.tree.node p = some n) ∧ ∀ p, .inside p ∈ chowned k.log → t.node p = none

lemma Spared.initial (t : WorkspaceTree) : Spared t (.initial t) :=
  ⟨fun _ _ hn => hn, fun _ hp => absurd hp List.not_mem_nil⟩

lemma Spared.none_of {t : WorkspaceTree} {p : TreePath} (h : Spared t k) (hp : k.tree.node p = none) :
    t.node p = none := by
  cases hnode : t.node p with
  | none => rfl
  | some n =>
    rw [h.1 p n hnode] at hp
    cases hp

lemma kept_makeAt {t t' : WorkspaceTree} {path p : TreePath} {n m : FileNode}
    (h : t.makeAt path n = .ok (object, t')) (hm : t.node p = some m) : t'.node p = some m := by
  rw [WorkspaceTree.makeAt] at h
  split at h
  · obtain ⟨-, rfl⟩ := Prod.mk.inj (Except.ok.inj h)
    exact WorkspaceTree.node_make_of_some hm
  · split at h
    · cases h
    · cases h

lemma kept_openat {t t' : WorkspaceTree} {dir : Object} {name : FileName} {flags : OpenFlags} {p : TreePath}
    {m : FileNode} (h : t.openat dir name flags = .ok (object, t')) (hm : t.node p = some m) :
    t'.node p = some m := by
  rw [WorkspaceTree.openat] at h
  split at h
  · cases h
  · obtain ⟨-, rfl⟩ := Prod.mk.inj (Except.ok.inj h)
    exact hm
  · split at h
    · split at h
      · exact kept_makeAt h hm
      · cases h
    · split at h
      · cases h
      · cases h
        exact hm
    · split at h
      · cases h
      · cases h
        exact hm
    · cases h
    · split at h
      · cases h
      · cases h
        exact hm

lemma kept_mkdirat {t t' : WorkspaceTree} {dir : Object} {name : FileName} {p : TreePath} {m : FileNode}
    (h : t.mkdirat dir name = .ok (object, t')) (hm : t.node p = some m) : t'.node p = some m := by
  rw [WorkspaceTree.mkdirat] at h
  split at h
  · cases h
  · obtain ⟨-, rfl⟩ := Prod.mk.inj (Except.ok.inj h)
    exact hm
  · split at h
    · exact kept_makeAt h hm
    · cases h

/-- A directory that has been made was missing. -/
lemma missing_mkdirat {t t' : WorkspaceTree} {dir : Object} {name : FileName} {p : TreePath}
    (h : t.mkdirat dir name = .ok (object, t')) (hp : resolve dir name = .inside p) : t.node p = none := by
  rw [WorkspaceTree.mkdirat, hp] at h
  split at h
  · cases h
  · cases ‹Object.inside p = Object.outside›
  · rename_i heq
    cases heq
    split at h
    · assumption
    · cases h

lemma Spared.saw {t t' : WorkspaceTree} (h : Spared t k) (hcall : call ≠ .changeOwner)
    (hkept : ∀ p n, k.tree.node p = some n → t'.node p = some n) :
    Spared t { k.saw call origin object with tree := t' } := by
  have hsame : chowned (k.saw call origin object).log = chowned k.log := chowned_saw_ne hcall
  refine ⟨fun p n hn => hkept p n (h.1 p n hn), fun p hp => h.2 p ?_⟩
  rwa [← hsame]

/-- A program that spares what the tree holds. -/
def Spares {α : Type} (t : WorkspaceTree) (x : FileAction α) : Prop :=
  Triple (Spared t) x (fun _ => Spared t) fun _ => Spared t

/-- A call that makes at most something new; `A` is what is known when it succeeds. -/
lemma spared_perform {t : WorkspaceTree} {A : Prop} {f : WorkspaceTree → Except Errno (Object × WorkspaceTree)}
    (hcall : call ≠ .changeOwner)
    (hkept : ∀ tree o tree' p n, f tree = .ok (o, tree') → tree.node p = some n → tree'.node p = some n)
    (hA : ∀ k o tree', Spared t k → f k.tree = .ok (o, tree') → A) :
    Triple (Spared t) (perform call origin f) (fun r k => Spared t k ∧ ∀ o, r = .ok o → A)
      fun _ => Spared t := by
  refine Triple.modifyGet fun k hk => ?_
  cases hf : f k.tree with
  | error errno =>
    refine ⟨hk, fun o ho => ?_⟩
    cases ho
  | ok result =>
    exact ⟨hk.saw hcall fun p n hn => hkept _ _ _ p n hf hn, fun _ _ => hA k result.1 result.2 hk hf⟩

lemma spares_openat (t : WorkspaceTree) (dir : Object) (name : FileName) (flags : OpenFlags) :
    Spares t (openat origin dir name flags) := by
  refine Triple.bind (Q := fun _ => Spared t) (Triple.get fun _ hk => hk) fun k => ?_
  split
  · exact Triple.bind (Q := fun _ => Spared t)
      (Triple.modifyGet fun k hk => hk.saw (by decide) fun _ _ hn => hn) fun _ => Triple.throw fun _ hk => hk
  · exact (spared_perform (A := True) (by decide) (fun _ _ _ _ _ => kept_openat) fun _ _ _ _ _ => trivial).mono
      (fun _ hk => hk) (fun _ _ hk => hk.1) fun _ _ hk => hk

/-- The owner of a parent is set where it has just been made. -/
lemma spares_makeParent (t : WorkspaceTree) (dir : Object) (name : FileName) :
    Spares t (WorkspaceFiles.makeParent dir name) := by
  refine Triple.bind (spared_perform (A := ∀ p, resolve dir name = .inside p → t.node p = none) (by decide)
    (fun _ _ _ _ _ => kept_mkdirat) fun k _ _ hk hmake p hp => hk.none_of (missing_mkdirat hmake hp))
    fun made => ?_
  cases made with
  | error errno => exact Triple.pure fun k hk => hk.1
  | ok o =>
    refine Triple.modifyGet fun k hk => ⟨hk.1.1, fun p hp => ?_⟩
    rw [chowned_saw] at hp
    rcases List.mem_cons.mp hp with hmade | hbefore
    · exact hk.2 o rfl p hmade.symm
    · exact hk.1.2 p hbefore

lemma spares_orIoError (t : WorkspaceTree) (r : Except Errno α) : Spares t (WorkspaceFiles.orIoError r) := by
  cases r with
  | ok a => exact Triple.pure fun _ hk => hk
  | error errno => exact Triple.throw fun _ hk => hk

lemma spares_descend (t : WorkspaceTree) (current : Object) (parts : List String) :
    Spares t (WorkspaceFiles.descend true current parts) := by
  induction parts generalizing current with
  | nil => exact Triple.pure fun _ hk => hk
  | cons part parts ih =>
    refine Triple.bind (spares_makeParent t _ _) fun _ => ?_
    refine Triple.bind (spares_openat t _ _ _) fun opened => ?_
    exact Triple.bind (spares_orIoError t opened) ih

lemma spares_openFile (t : WorkspaceTree) (parts : List String) (flags : OpenFlags) :
    Spares t (WorkspaceFiles.openFile parts flags true) := by
  rw [WorkspaceFiles.openFile]
  split
  · exact Triple.throw fun _ hk => hk
  · have hdirectory : Spares t (WorkspaceFiles.openDirectory parts.dropLast true) :=
      Triple.bind (spares_openat t _ _ _) fun opened =>
        Triple.bind (spares_orIoError t opened) fun current => spares_descend t current _
    refine Triple.bind hdirectory fun parent => ?_
    exact Triple.bind (spares_openat t _ _ _) fun opened => spares_orIoError t opened

end Owners

/-! ### Refusals -/

section Refusals

variable {quota : WorkspaceFiles.Quota} {uid : ℕ} {owner : TreePath → ℕ} {t : WorkspaceTree}
  {r : WorkspaceFiles.WriteFields} {target : TreePath} {k : Kernel} {path offset encoded truncate : Json}

/-- What an open target comes to: a refused write is refused before the first `pwrite`. -/
lemma gives_writeChunk_target (pwrites : List ℕ) (hopens : (t.prepared target).Opens target)
    (hlength : 2 ≤ target.length) :
    r.Permitted quota t target ∧ (∃ result t', Gives (t.prepared target)
        (WorkspaceFiles.writeChunk quota pwrites r (.inside target)) result t' ∧
          ((∃ reply, result = .ok reply) ∨ result = .error (.error noProgress))) ∨
      ¬r.Permitted quota t target ∧ ∃ e, e ≠ noProgress ∧ Gives (t.prepared target)
        (WorkspaceFiles.writeChunk quota pwrites r (.inside target)) (.error (.error e)) (t.prepared target) := by
  obtain ⟨⟨n, hnode, hdirectory, hlink, hsocket⟩, -⟩ := hopens
  by_cases hregular : ∃ contents, n = .file contents
  · obtain ⟨contents, rfl⟩ := hregular
    have hwritable : t.Writable target := WorkspaceTree.writable_of_prepared hlength hnode
    have hcontents : contents = t.contentsAt target := by
      have hprepared := hwritable.node_prepared
      rw [hnode] at hprepared
      exact FileNode.file.inj (Option.some.inj hprepared)
    cases hused : (t.prepared target).usedBytes with
    | error e =>
      obtain rfl := usedBytes_error hused
      refine .inr ⟨fun hpermitted => ?_, WorkspaceFiles.tooManyFiles, by decide,
        gives_writeChunk_unaccounted hnode hused⟩
      obtain ⟨used, hok, -⟩ := hpermitted.fits
      rw [hused] at hok
      cases hok
    | ok used =>
      by_cases hfits : r.accounted used contents.length ≤ quota.bytes
      · refine .inl ⟨⟨hwritable, used, hused, hcontents ▸ hfits⟩, _, _, gives_writeChunk pwrites hnode hused hfits, ?_⟩
        split
        · exact .inl ⟨_, rfl⟩
        · exact .inr rfl
      · refine .inr ⟨fun hpermitted => ?_, _, by decide,
          gives_writeChunk_refused hnode hused (Int.not_le.mp hfits)⟩
        obtain ⟨used', hok, hle⟩ := hpermitted.fits
        rw [hused] at hok
        obtain rfl := Except.ok.inj hok
        exact hfits (hcontents ▸ hle)
  · refine .inr ⟨fun hpermitted => ?_, .invalidRequest "upload target is not a regular file", by decide, ?_⟩
    · rw [hpermitted.writable.node_prepared] at hnode
      exact hregular ⟨_, (Option.some.inj hnode).symm⟩
    · refine Ends.bind_ok (gives_observe _) ?_
      refine Ends.bind_ok (gives_observe _) ?_
      rw [nodeOf_inside hnode]
      exact Ends.bind_error (gives_regularFile_no_file (fun contents hn => hregular ⟨contents, hn⟩) _)

lemma Intact.initial (uid : ℕ) (owner : TreePath → ℕ) (t : WorkspaceTree) : Intact uid owner t (.initial t) :=
  ⟨rfl, fun _ _ _ => if_neg List.not_mem_nil⟩

/-- A write that every kernel refuses in the same way. -/
lemma refusesUnchanged_iff_of_runs {P : Prop}
    (hrun : ∀ pwrites, ∃ e k, e ≠ noProgress ∧ (Intact uid owner t k ↔ P) ∧
      outcome (WorkspaceFiles.write quota pwrites path offset encoded truncate) (.initial t) =
        (.error (.error e), k)) :
    RefusesUnchanged quota uid owner t path offset encoded truncate ↔ P := by
  constructor
  · intro h
    obtain ⟨e, k, hne, hiff, hout⟩ := hrun []
    exact hiff.mp (h [] e k hout hne)
  · intro hP pwrites e k hout hne
    obtain ⟨e', k', -, hiff, hout'⟩ := hrun pwrites
    rw [hout] at hout'
    obtain ⟨-, rfl⟩ := Prod.mk.inj hout'
    exact hiff.mpr hP

lemma refusesUnchanged_of_initial
    (hrun : ∀ pwrites, ∃ r, outcome (WorkspaceFiles.write quota pwrites path offset encoded truncate)
      (.initial t) = (r, .initial t)) :
    RefusesUnchanged quota uid owner t path offset encoded truncate := by
  intro pwrites e k hout _
  obtain ⟨r, hrun⟩ := hrun pwrites
  rw [hrun] at hout
  obtain ⟨-, rfl⟩ := Prod.mk.inj hout
  exact Intact.initial uid owner t

lemma fromIoError_ne_noProgress (errno : Errno) : fromIoError errno ≠ noProgress := by
  cases errno <;> decide

/-- Where the target cannot be opened, nothing but what was made is different. -/
lemma intact_iff_of_spared (hne : target ≠ []) (htree : k.tree = t.prepared target)
    (hopens : ¬(t.prepared target).Opens target) (hspared : Spared t k) :
    Intact uid owner t k ↔ ¬t.Makes target ∧ (t.Opens target → owner target = uid) := by
  constructor
  · intro h
    have hsame : t.prepared target = t := htree.symm.trans h.tree
    rw [hsame] at hopens
    exact ⟨(WorkspaceTree.prepared_eq_iff hne).mp hsame, fun hopen => absurd hopen hopens⟩
  · rintro ⟨hmakes, -⟩
    refine ⟨htree.trans (WorkspaceTree.prepared_of_not_makes hne hmakes), fun p n hn => if_neg fun hp => ?_⟩
    rw [hspared.2 p hp] at hn
    cases hn

/-- Where it was opened, its owner has been set. -/
lemma intact_iff_of_opened {objects : List Object} (hne : target ≠ []) (htree : k.tree = t.prepared target)
    (hopens : (t.prepared target).Opens target) (hchowned : chowned k.log = .inside target :: objects)
    (hspared : ∀ p, .inside p ∈ objects → t.node p = none) :
    Intact uid owner t k ↔ ¬t.Makes target ∧ (t.Opens target → owner target = uid) := by
  constructor
  · intro h
    refine ⟨(WorkspaceTree.prepared_eq_iff hne).mp (htree.symm.trans h.tree), ?_⟩
    rintro ⟨⟨n, hn, -⟩, -⟩
    rw [← h.owner target n hn, ownerAfter, hchowned, if_pos List.mem_cons_self]
  · rintro ⟨hmakes, howner⟩
    have hsame := WorkspaceTree.prepared_of_not_makes hne hmakes
    rw [hsame] at hopens htree
    refine ⟨htree, fun p n hn => ?_⟩
    rw [ownerAfter, hchowned]
    split
    · rename_i hp
      rcases List.mem_cons.mp hp with heq | hmade
      · rw [Object.inside.inj heq, howner hopens]
      · rw [hspared p hmade] at hn
        cases hn
    · rfl

/-- A write with a long enough path. -/
lemma refusesUnchanged_iff_of_fields
    (h : WorkspaceFiles.writeFields path offset encoded truncate = .ok r) (hlength : 2 ≤ r.parts.length) :
    RefusesUnchanged quota uid owner t path offset encoded truncate ↔ SparesRefused quota uid owner t r := by
  have hparts := (named_of_validateRelativePath (WorkspaceFiles.writeFields_parts h)).2
  have hwrite : ∀ {pwrites : List ℕ} {result : Except Halt WorkspaceFiles.WriteReply} {k : Kernel},
      outcome (WorkspaceFiles.openFile r.parts WorkspaceFiles.writeFlags true >>=
        WorkspaceFiles.writeChunk quota pwrites r) (.initial t) = (result, k) → result ≠ .error .blocked →
      outcome (WorkspaceFiles.write quota pwrites path offset encoded truncate) (.initial t) = (result, k) := by
    intro pwrites result k hbody hresult
    rw [WorkspaceFiles.write, h]
    exact (outcome_bind_ok rfl).trans (outcome_withWriteLock rfl hbody hresult)
  have htargetLength : 2 ≤ (r.parts.map WorkspaceFiles.fileName).length := by rwa [List.length_map]
  have hne : r.parts.map WorkspaceFiles.fileName ≠ [] := by
    intro hnil
    rw [hnil] at htargetLength
    exact absurd htargetLength (by decide)
  rcases gives_openFile_target (t := t) hparts hlength with ⟨hopens, hopen⟩ | ⟨hopens, ⟨e, hopen⟩ | ⟨hopen, hhangs⟩⟩
  · obtain ⟨k₁, hrun₁, hshown₁⟩ := hopen (.initial t) rfl
    have hspared : Spared t k₁ := (spares_openFile t _ _).ok (Spared.initial t) hrun₁
    by_cases hpermitted : r.Permitted quota t (r.parts.map WorkspaceFiles.fileName)
    · refine ⟨fun _ => .inl hpermitted, fun _ pwrites e k herror hne => ?_⟩
      rcases gives_writeChunk_target pwrites hopens htargetLength with ⟨-, result, t', hchunk, hresult⟩ | ⟨hno, -⟩
      · obtain ⟨k₂, hrun₂, -⟩ := hchunk k₁ hshown₁
        have hrun := hwrite ((outcome_bind_ok hrun₁).trans hrun₂)
        rcases hresult with ⟨reply, rfl⟩ | rfl
        · rw [hrun (by simp)] at herror
          cases (Prod.mk.inj herror).1
        · rw [hrun (by simp)] at herror
          cases (Prod.mk.inj herror).1
          exact absurd rfl hne
      · exact absurd hpermitted hno
    · have hrefused : SparesRefused quota uid owner t r ↔
          ¬t.Makes (r.parts.map WorkspaceFiles.fileName) ∧
            (t.Opens (r.parts.map WorkspaceFiles.fileName) →
              owner (r.parts.map WorkspaceFiles.fileName) = uid) :=
        ⟨fun hspares => hspares.resolve_left hpermitted, Or.inr⟩
      rw [hrefused]
      refine refusesUnchanged_iff_of_runs fun pwrites => ?_
      rcases gives_writeChunk_target pwrites hopens htargetLength with ⟨hyes, -⟩ | ⟨-, e, hprogress, hchunk⟩
      · exact absurd hyes hpermitted
      · obtain ⟨k₂, hrun₂, hshown₂⟩ := hchunk k₁ hshown₁
        have hchowned := (chowned_writeChunk pwrites (chowned k₁.log)).error rfl hrun₂
        exact ⟨e, k₂, hprogress,
          intact_iff_of_opened hne (Prod.mk.inj hshown₂).1 hopens hchowned hspared.2,
          hwrite ((outcome_bind_ok hrun₁).trans hrun₂) (by simp)⟩
  · obtain ⟨k₁, hrun₁, hshown₁⟩ := hopen (.initial t) rfl
    have hspared : Spared t k₁ := (spares_openFile t _ _).error (Spared.initial t) hrun₁
    have hrefused : ¬r.Permitted quota t (r.parts.map WorkspaceFiles.fileName) := fun hpermitted =>
      hopens ⟨⟨_, hpermitted.writable.node_prepared, by simp, by simp, by simp⟩,
        WorkspaceTree.not_hangs_of_file hpermitted.writable.node_prepared true⟩
    have hspares : SparesRefused quota uid owner t r ↔
        ¬t.Makes (r.parts.map WorkspaceFiles.fileName) ∧
          (t.Opens (r.parts.map WorkspaceFiles.fileName) →
            owner (r.parts.map WorkspaceFiles.fileName) = uid) :=
      ⟨fun hspares => hspares.resolve_left hrefused, Or.inr⟩
    rw [hspares]
    exact refusesUnchanged_iff_of_runs fun pwrites => ⟨fromIoError e, k₁, fromIoError_ne_noProgress e,
      intact_iff_of_spared hne (Prod.mk.inj hshown₁).1 hopens hspared,
      hwrite (outcome_bind_error hrun₁) (by simp)⟩
  · -- The write waits: it is not refused, and nothing was missing.
    obtain ⟨k₁, hrun₁, -⟩ := hopen (.initial t) rfl
    obtain ⟨reader, writer, hfifo⟩ := WorkspaceTree.exists_of_hangs hhangs
    have hsame : t.prepared (r.parts.map WorkspaceFiles.fileName) = t := by
      by_cases hmakes : t.Makes (r.parts.map WorkspaceFiles.fileName)
      · rcases (WorkspaceTree.grows_prepared t _).added _ _ hfifo with hold | hnew | hnew
        · exact WorkspaceTree.prepared_of_node hne hold
        · cases hnew
        · cases hnew
      · exact WorkspaceTree.prepared_of_not_makes hne hmakes
    rw [hsame] at hopens
    refine ⟨fun _ => .inr ⟨(WorkspaceTree.prepared_eq_iff hne).mp hsame, fun hopen => absurd hopen hopens⟩,
      fun _ pwrites e k herror _ => ?_⟩
    have hblocked : (outcome (WorkspaceFiles.write quota pwrites path offset encoded truncate)
        (.initial t)).1 = .error .blocked := by
      rw [WorkspaceFiles.write, h]
      exact congrArg Prod.fst ((outcome_bind_ok rfl).trans
        (outcome_withWriteLock_blocked rfl (outcome_bind_error hrun₁)))
    rw [herror] at hblocked
    cases hblocked

/-- A write that is refused changes nothing exactly if its fields are refused, its path has no parent
directory, it is permitted, or there was nothing to make and no owner to change. -/
theorem refusesUnchanged_iff (quota : WorkspaceFiles.Quota) (uid : ℕ) (owner : TreePath → ℕ) (t : WorkspaceTree)
    (path offset encoded truncate : Json) :
    RefusesUnchanged quota uid owner t path offset encoded truncate ↔
      ∀ r, WorkspaceFiles.writeFields path offset encoded truncate = .ok r → 2 ≤ r.parts.length →
        SparesRefused quota uid owner t r := by
  cases hfields : WorkspaceFiles.writeFields path offset encoded truncate with
  | error e =>
    have hrun : ∀ pwrites, outcome (WorkspaceFiles.write quota pwrites path offset encoded truncate)
        (.initial t) = (.error (.error e), .initial t) := by
      intro pwrites
      rw [WorkspaceFiles.write, hfields]
      exact outcome_bind_error rfl
    refine ⟨fun _ r hr => ?_, fun _ => refusesUnchanged_of_initial fun pwrites => ⟨_, hrun pwrites⟩⟩
    cases hr
  | ok r =>
    by_cases hlength : 2 ≤ r.parts.length
    · rw [refusesUnchanged_iff_of_fields hfields hlength]
      refine ⟨fun h r' hr' _ => ?_, fun h => h r rfl hlength⟩
      rwa [← Except.ok.inj hr']
    · have hrun : ∀ pwrites, outcome (WorkspaceFiles.write quota pwrites path offset encoded truncate)
          (.initial t) =
          (.error (.error (.invalidRequest "file path must include a parent directory")), .initial t) := by
        intro pwrites
        rw [WorkspaceFiles.write, hfields]
        refine (outcome_bind_ok rfl).trans (outcome_withWriteLock rfl (outcome_bind_error ?_) (by simp))
        rw [WorkspaceFiles.openFile, if_pos (Nat.lt_of_not_le hlength)]
        rfl
      refine ⟨fun _ r' hr' hlength' => ?_, fun _ => refusesUnchanged_of_initial fun pwrites => ⟨_, hrun pwrites⟩⟩
      rw [← Except.ok.inj hr'] at hlength'
      exact absurd hlength' hlength

end Refusals

/-- One byte at the offset 2 MiB of `d/f` is too much for a quota of 1 MiB, and an empty workspace is left
with the directory and the file. -/
theorem not_refusesUnchanged : ¬∀ (quota : WorkspaceFiles.Quota) (uid : ℕ) (owner : TreePath → ℕ)
    (t : WorkspaceTree) (path offset encoded truncate : Json),
    RefusesUnchanged quota uid owner t path offset encoded truncate := by
  intro hall
  have hrefused := hall .smallest 1000 (fun _ => 1000) .empty (.string "d/f") (.number (some 2097152))
    (.string "QQ==") (.bool false)
  have hrun : (outcome (WorkspaceFiles.write .smallest [] (.string "d/f") (.number (some 2097152))
      (.string "QQ==") (.bool false)) (.initial .empty)).1 =
        .error (.error WorkspaceFiles.quotaExceeded) ∧
      (outcome (WorkspaceFiles.write .smallest [] (.string "d/f") (.number (some 2097152))
        (.string "QQ==") (.bool false)) (.initial .empty)).2.tree.entries.length = 2 := by
    decide +kernel
  rcases hout : outcome (WorkspaceFiles.write .smallest [] (.string "d/f") (.number (some 2097152))
      (.string "QQ==") (.bool false)) (.initial .empty) with ⟨e | reply, k⟩
  · rw [hout] at hrun
    obtain rfl := Except.error.inj hrun.1
    rw [(hrefused [] _ k hout (by decide)).tree] at hrun
    exact absurd hrun.2 (by decide)
  · rw [hout] at hrun
    cases hrun.1

end Bloom
