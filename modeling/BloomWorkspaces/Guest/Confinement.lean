import BloomWorkspaces.Guest.WorkspaceFiles

/-!
# Confinement of the file operations

Every object that an operation reaches lies below the root, behind directories of the tree, under the
components of the request. A link on the way, wherever it points, is never followed.
-/

namespace Bloom

open Action

/-- The object lies below the root and every step to it goes through a directory of the tree; if its
name comes from the request, it stands under the first of the `named` components. -/
def Access.ReachedBy (named : TreePath) (a : Access) : Prop :=
  ∃ q, a.object = .inside q ∧ (∀ p, p <+: q → p ≠ q → a.tree.node p = some .directory) ∧
    (a.origin = .request → q <+: named)

/-- Everything in the log has been reached so. -/
def Kernel.Reached (named : TreePath) (k : Kernel) : Prop := ∀ a ∈ k.log, a.ReachedBy named

/-- The way to `q` leads through directories. -/
def WorkspaceTree.Leads (t : WorkspaceTree) (q : TreePath) : Prop :=
  ∀ p, p <+: q → p ≠ q → t.node p = some .directory

section Steps

variable {named dir q : TreePath} {name : FileName} {k : Kernel} {t t' : WorkspaceTree}
  {flags : OpenFlags} {origin : Origin} {call : Call} {n : FileNode}

lemma WorkspaceTree.leads_of_node (h : t.node q = some n) : t.Leads q :=
  fun _ hp hne => WorkspaceTree.node_prefix h hp hne

lemma WorkspaceTree.leads_concat (h : t.node dir = some .directory) : t.Leads (dir ++ [name]) := by
  intro p hp hne
  rcases List.prefix_concat_iff.mp hp with heq | hprefix
  · exact absurd heq hne
  · by_cases hsame : p = dir
    · rw [hsame]
      exact h
    · exact WorkspaceTree.node_prefix h hprefix hsame

lemma WorkspaceTree.leads_update {fd : Object} {f : List UInt8 → List UInt8} (h : t.Leads q) :
    (t.update fd f).Leads q :=
  fun p hp hne => update_directory (h p hp hne)

lemma Kernel.Reached.saw (h : k.Reached named) (hleads : k.tree.Leads q)
    (hnamed : origin = .request → q <+: named) : (k.saw call origin (.inside q)).Reached named := by
  intro a ha
  rcases List.mem_cons.mp ha with rfl | hold
  · exact ⟨q, rfl, hleads, hnamed⟩
  · exact h a hold

/-! ### Confined programs -/

/-- From a tree with `P` the program reaches only what it may reach, and returns with `Q`. -/
def Confined {α : Type} (named : TreePath) (P : WorkspaceTree → Prop) (x : FileAction α)
    (Q : α → WorkspaceTree → Prop) : Prop :=
  Triple (fun k => k.Reached named ∧ P k.tree) x (fun a k => k.Reached named ∧ Q a k.tree)
    fun _ k => k.Reached named

namespace Confined

variable {α β : Type} {P P' : WorkspaceTree → Prop} {Q Q' : α → WorkspaceTree → Prop}
  {R : β → WorkspaceTree → Prop} {x : FileAction α}

lemma bind {f : α → FileAction β} (hx : Confined named P x Q)
    (hf : ∀ a, Confined named (Q a) (f a) R) : Confined named P (x >>= f) R :=
  Triple.bind hx hf

lemma pure {a : α} (h : ∀ t, P t → Q a t) : Confined named P (Pure.pure a) Q :=
  Triple.pure fun k hk => ⟨hk.1, h k.tree hk.2⟩

lemma throw (e : Halt) : Confined named P (MonadExcept.throw e) Q :=
  Triple.throw fun _ hk => hk.1

lemma refuse (e : ControlError) : Confined named P (Bloom.refuse e) Q := throw _

lemma mono (hx : Confined named P x Q) (hP : ∀ t, P' t → P t) (hQ : ∀ a t, Q a t → Q' a t) :
    Confined named P' x Q' :=
  Triple.mono hx (fun k hk => ⟨hk.1, hP k.tree hk.2⟩) (fun a k hk => ⟨hk.1, hQ a k.tree hk.2⟩)
    fun _ _ hk => hk

/-- A fact that the precondition gives may be used. -/
lemma of_pre {p : Prop} (hp : ∀ t, P t → p) (h : p → Confined named P x Q) : Confined named P x Q :=
  Triple.of_pre (fun k hk => hp k.tree hk.2) h

/-- A program that leaves every tree with `P` as it is keeps `P`. -/
lemma keeps (h : ∀ t, P t → Confined named (fun t' => t' = t) x fun _ t' => t' = t) :
    Confined named P x fun _ t => P t := by
  intro k hk
  have hpost := h k.tree hk.2 k ⟨hk.1, rfl⟩
  rcases hrun : outcome x k with ⟨e | a, k'⟩
  · rw [hrun] at hpost
    exact hpost
  · rw [hrun] at hpost
    refine ⟨hpost.1, ?_⟩
    show P k'.tree
    rw [hpost.2]
    exact hk.2

lemma observe {γ : Type} {call : Call} {f : WorkspaceTree → γ}
    (hleads : ∀ t, P t → t.Leads q) (hnamed : origin = .request → q <+: named) :
    Confined named P (Bloom.observe call origin (.inside q) f) fun a t => P t ∧ a = f t :=
  Triple.modifyGet fun k hk => ⟨hk.1.saw (hleads k.tree hk.2) hnamed, hk.2, rfl⟩

lemma perform {f : WorkspaceTree → Except Errno (Object × WorkspaceTree)}
    {Q : Except Errno Object → WorkspaceTree → Prop}
    (hok : ∀ t object t', P t → f t = .ok (object, t') → Q (.ok object) t' ∧
      ∃ q, object = .inside q ∧ t.Leads q ∧ (origin = .request → q <+: named))
    (herror : ∀ t errno, P t → f t = .error errno → Q (.error errno) t) :
    Confined named P (Bloom.perform call origin f) Q := by
  refine Triple.modifyGet fun k hk => ?_
  cases hf : f k.tree with
  | error errno => exact ⟨hk.1, herror k.tree errno hk.2 hf⟩
  | ok result =>
    obtain ⟨hQ, q, hq, hleads, hnamed⟩ := hok k.tree result.1 result.2 hk.2 hf
    simp only
    rw [hq]
    rw [hq] at hQ
    exact ⟨hk.1.saw hleads hnamed, hQ⟩

lemma alter {f : List UInt8 → List UInt8} (hleads : ∀ t, P t → t.Leads q) (hnamed : q <+: named)
    (hP : ∀ t, P t → P (t.update (.inside q) f)) :
    Confined named P (Bloom.alter call (.inside q) f) fun _ => P :=
  Triple.modifyGet fun k hk =>
    ⟨hk.1.saw (hleads k.tree hk.2) fun _ => hnamed, hP k.tree hk.2⟩

/-- A call that waits has reached what the call would open. -/
lemma openat {dir : Object} {flags : OpenFlags} {Q : Except Errno Object → WorkspaceTree → Prop}
    (hwait : ∀ t, P t → t.waits dir name flags = true →
      ∃ q, resolve dir name = .inside q ∧ t.Leads q ∧ (origin = .request → q <+: named))
    (hopen : Confined named P (Bloom.perform .open origin fun t => t.openat dir name flags) Q) :
    Confined named P (Bloom.openat origin dir name flags) Q := by
  intro k hk
  cases hwaits : k.tree.waits dir name flags with
  | true =>
    obtain ⟨q, hq, hleads, hnamed⟩ := hwait k.tree hk.2 hwaits
    rw [outcome_openat_waits hwaits, hq]
    exact hk.1.saw hleads hnamed
  | false =>
    rw [outcome_openat hwaits]
    exact hopen k hk

/-- A section that is not carried out reaches nothing. -/
lemma withWriteLock (hx : Confined named P x Q) : Confined named P (Bloom.withWriteLock x) Q := by
  intro k hk
  cases hlocked : k.locked with
  | true =>
    rw [outcome_withWriteLock_locked hlocked]
    exact hk.1
  | false =>
    have hpost := hx k hk
    rcases hrun : outcome x k with ⟨r, k'⟩
    rw [hrun] at hpost
    by_cases hr : r = .error .blocked
    · subst hr
      rw [outcome_withWriteLock_blocked hlocked hrun]
      exact hpost
    · rw [outcome_withWriteLock hlocked hrun hr]
      exact hpost

end Confined

/-! ### Opening -/

section Opening

variable {create : Bool} {part : String} {parts : List String}

lemma confined_onlyIf {P : WorkspaceTree → Prop} {flag : Bool} {x : FileAction Unit}
    (hx : Confined named P x fun _ => P) : Confined named P (WorkspaceFiles.onlyIf flag x) fun _ => P := by
  cases flag with
  | true => exact hx
  | false => exact Confined.pure fun t ht => ht

lemma confined_orThrow {α : Type} {P : WorkspaceTree → Prop} (r : Except ControlError α) :
    Confined named P (WorkspaceFiles.orThrow r) fun a t => P t ∧ r = .ok a := by
  cases r with
  | ok a => exact Confined.pure fun t ht => ⟨ht, rfl⟩
  | error e => exact Confined.refuse e

lemma confined_orIoError {α : Type} {P : WorkspaceTree → Prop} (r : Except Errno α) :
    Confined named P (WorkspaceFiles.orIoError r) fun a t => P t ∧ r = .ok a := by
  cases r with
  | ok a => exact Confined.pure fun t ht => ⟨ht, rfl⟩
  | error errno => exact Confined.refuse _

lemma confined_regularFile {P : WorkspaceTree → Prop} (n : FileNode) (message : String) :
    Confined named P (WorkspaceFiles.regularFile n message) fun contents t =>
      P t ∧ n = .file contents := by
  cases n with
  | file contents => exact Confined.pure fun t ht => ⟨ht, rfl⟩
  | directory => exact Confined.refuse _
  | symlink target => exact Confined.refuse _
  | fifo reader writer => exact Confined.refuse _
  | socket => exact Confined.refuse _
  | other => exact Confined.refuse _

/-- The descriptor is that of a directory of the tree. -/
def IsDirectory (dir : TreePath) (t : WorkspaceTree) : Prop := t.node dir = some .directory

lemma confined_openat (hname : IsStep name) (hflags : flags.noFollow = true)
    (hnamed : origin = .request → dir ++ [name] <+: named) :
    Confined named (IsDirectory dir) (openat origin (.inside dir) name flags) fun r t =>
      IsDirectory dir t ∧ ∀ object, r = .ok object → object = .inside (dir ++ [name]) ∧
        (flags.directory = true → flags.create = false → IsDirectory (dir ++ [name]) t) := by
  refine Confined.openat (fun t hdir _ => ⟨_, hname.resolve, WorkspaceTree.leads_concat hdir, hnamed⟩) ?_
  refine Confined.perform ?_ ?_
  · intro t object t' hdir hopen
    obtain ⟨rfl, -, hcases⟩ := openat_ok hname hflags hopen
    refine ⟨⟨?_, ?_⟩, _, rfl, WorkspaceTree.leads_concat hdir, hnamed⟩
    · rcases hcases with ⟨n, -, rfl, -⟩ | ⟨-, -, rfl⟩
      · exact hdir
      · exact WorkspaceTree.node_make_of_some hdir
    · intro object hobject
      cases hobject
      refine ⟨rfl, ?_⟩
      intro hdirectory hcreate
      rcases hcases with ⟨n, hnode, rfl, hn, -⟩ | ⟨hcreate', -⟩
      · rw [IsDirectory, hnode, hn hdirectory]
      · rw [hcreate] at hcreate'
        cases hcreate'
  · intro t errno hdir _
    refine ⟨hdir, ?_⟩
    intro object hobject
    cases hobject

lemma confined_openDot (hflags : flags.writable = false) (hnamed : origin = .request → dir <+: named) :
    Confined named (IsDirectory dir) (openat origin (.inside dir) dot flags) fun r t =>
      IsDirectory dir t ∧ r = .ok (.inside dir) := by
  refine Confined.openat (fun t hdir _ => ⟨_, resolve_dot dir, WorkspaceTree.leads_of_node hdir, hnamed⟩) ?_
  refine Confined.perform ?_ ?_
  · intro t object t' hdir hopen
    rw [openat_dot hdir hflags] at hopen
    cases hopen
    exact ⟨⟨hdir, rfl⟩, dir, rfl, WorkspaceTree.leads_of_node hdir, hnamed⟩
  · intro t errno hdir hopen
    rw [openat_dot hdir hflags] at hopen
    cases hopen

lemma confined_makeParent (hname : IsStep name) (hnamed : dir ++ [name] <+: named) :
    Confined named (IsDirectory dir) (WorkspaceFiles.makeParent (.inside dir) name) fun _ =>
      IsDirectory dir := by
  refine Confined.bind (Q := fun _ => IsDirectory dir) ?_ ?_
  · refine Confined.perform ?_ fun t errno hdir _ => hdir
    intro t object t' hdir hmake
    rcases mkdirat_eq t dir hname with ⟨hok, -⟩ | ⟨⟨errno, herror⟩, -⟩
    · rw [hok] at hmake
      cases hmake
      exact ⟨WorkspaceTree.node_make_of_some hdir, _, rfl, WorkspaceTree.leads_concat hdir,
        fun _ => hnamed⟩
    · rw [herror] at hmake
      cases hmake
  · intro r
    cases r with
    | error errno => exact Confined.pure fun t ht => ht
    | ok object =>
      show Confined _ _ (fchownat _ _) _
      rw [fchownat, hname.resolve]
      exact (Confined.observe (fun t ht => WorkspaceTree.leads_concat ht) fun _ => hnamed).mono
        (fun t ht => ht) fun a t ht => ht.1

lemma confined_descend (hparts : ∀ part ∈ parts, IsStep (WorkspaceFiles.fileName part))
    (hnamed : dir ++ parts.map WorkspaceFiles.fileName <+: named) :
    Confined named (IsDirectory dir) (WorkspaceFiles.descend create (.inside dir) parts) fun fd t =>
      fd = .inside (dir ++ parts.map WorkspaceFiles.fileName) ∧
        IsDirectory (dir ++ parts.map WorkspaceFiles.fileName) t := by
  induction parts generalizing dir with
  | nil =>
    refine Confined.pure fun t ht => ?_
    rw [List.map_nil, List.append_nil]
    exact ⟨rfl, ht⟩
  | cons part parts ih =>
    rw [List.map_cons, List.append_cons] at hnamed ⊢
    have hname := hparts part List.mem_cons_self
    have hhere : dir ++ [WorkspaceFiles.fileName part] <+: named :=
      (List.prefix_append _ _).trans hnamed
    rw [WorkspaceFiles.descend]
    refine Confined.bind (confined_onlyIf (confined_makeParent hname hhere)) fun _ => ?_
    refine Confined.bind (confined_openat hname rfl fun _ => hhere) fun r => ?_
    refine Confined.bind (confined_orIoError r) fun next => ?_
    refine Confined.of_pre (fun t ht => (ht.1.2 next ht.2).1) ?_
    rintro rfl
    refine (ih (fun p hp => hparts p (List.mem_cons_of_mem _ hp)) hnamed).mono ?_ fun _ _ h => h
    intro t ht
    exact (ht.1.2 _ ht.2).2 rfl rfl

lemma confined_openDirectory (hparts : ∀ part ∈ parts, IsStep (WorkspaceFiles.fileName part))
    (hnamed : parts.map WorkspaceFiles.fileName <+: named) :
    Confined named (fun _ => True) (WorkspaceFiles.openDirectory parts create) fun fd t =>
      fd = .inside (parts.map WorkspaceFiles.fileName) ∧
        IsDirectory (parts.map WorkspaceFiles.fileName) t := by
  have hroot : Confined named (fun _ => True)
      (openat .request (.inside []) dot WorkspaceFiles.directoryFlags) fun r t =>
        IsDirectory [] t ∧ r = .ok (.inside []) :=
    (confined_openDot rfl fun _ => List.nil_prefix).mono
      (fun t _ => WorkspaceTree.node_nil t) fun _ _ h => h
  refine Confined.bind hroot fun r => ?_
  refine Confined.of_pre (fun t ht => ht.2) ?_
  rintro rfl
  refine Confined.bind (confined_orIoError _) fun current => ?_
  refine Confined.of_pre (fun t ht => Except.ok.inj ht.2) ?_
  rintro rfl
  exact (confined_descend hparts hnamed).mono (fun t ht => ht.1.1) fun _ _ h => h

/-- An open file lies behind directories, whatever it is. -/
lemma confined_openFile (hparts : ∀ part ∈ parts, IsStep (WorkspaceFiles.fileName part))
    (hnamed : parts.map WorkspaceFiles.fileName <+: named) :
    Confined named (fun _ => True) (WorkspaceFiles.openFile parts flags create) fun fd t =>
      fd = .inside (parts.map WorkspaceFiles.fileName) ∧
        t.Leads (parts.map WorkspaceFiles.fileName) := by
  rw [WorkspaceFiles.openFile]
  split
  · exact Confined.refuse _
  · rename_i hlength
    have hne : parts ≠ [] := by
      rintro rfl
      exact hlength (by decide)
    obtain ⟨hsplit, hlast⟩ := WorkspaceFiles.map_fileName_split hne
    rw [hsplit] at hnamed ⊢
    refine Confined.bind (confined_openDirectory
      (fun p hp => hparts p (List.dropLast_subset _ hp))
      ((List.prefix_append _ _).trans hnamed)) fun parent => ?_
    refine Confined.of_pre (fun t ht => ht.1) ?_
    rintro rfl
    refine Confined.bind ((confined_openat (hparts _ hlast) rfl fun _ => hnamed).mono
      (fun t ht => ht.2) fun _ _ h => h) fun r => ?_
    refine (confined_orIoError r).mono (fun _ h => h) ?_
    intro fd t ht
    exact ⟨(ht.1.2 fd ht.2).1, WorkspaceTree.leads_concat ht.1.1⟩

end Opening

/-! ### Reading directories -/

section Listing

variable {fuel : ℕ} {s : WorkspaceFiles.Scan} {names : List FileName}

/-- The tree is `t` and stays so. -/
abbrev Unchanged {α : Type} (named : TreePath) (t : WorkspaceTree) (x : FileAction α) : Prop :=
  Confined named (fun t' => t' = t) x fun _ t' => t' = t

lemma unchanged_fstatat (hname : IsStep name) (hdir : IsDirectory dir t) :
    Unchanged named t (fstatat .listing (.inside dir) name) := by
  rw [fstatat, hname.resolve]
  refine (Confined.observe ?_ ?_).mono (fun _ h => h) fun _ _ h => h.1
  · rintro t' rfl
    exact WorkspaceTree.leads_concat hdir
  · rintro ⟨⟩

lemma confined_readdir (hdir : IsDirectory dir t) :
    Confined named (fun t' => t' = t) (readdir (.inside dir)) fun names t' =>
      t' = t ∧ names = t.readdir (.inside dir) := by
  have hlisting : Origin.listing = .request → dir <+: named := by
    rintro ⟨⟩
  refine (Confined.observe ?_ hlisting).mono (fun _ h => h) ?_
  · rintro t' rfl
    exact WorkspaceTree.leads_of_node hdir
  · rintro names t' ⟨rfl, rfl⟩
    exact ⟨rfl, rfl⟩

/-- Opening a directory by a name in it makes nothing. -/
lemma unchanged_openat (hname : IsStep name) (hdir : IsDirectory dir t) :
    Confined named (fun t' => t' = t)
      (openat .listing (.inside dir) name WorkspaceFiles.directoryFlags) fun r t' =>
        t' = t ∧ ∀ object, r = .ok object → object = .inside (dir ++ [name]) ∧
          IsDirectory (dir ++ [name]) t := by
  refine Confined.openat ?_ (Confined.perform ?_ ?_)
  · rintro t₁ rfl -
    refine ⟨_, hname.resolve, WorkspaceTree.leads_concat hdir, ?_⟩
    rintro ⟨⟩
  · rintro t₁ object t₂ rfl hopen
    obtain ⟨rfl, -, hcases⟩ := openat_ok hname rfl hopen
    rcases hcases with ⟨n, hnode, rfl, hn, -⟩ | ⟨hcreate, -⟩
    · refine ⟨⟨rfl, ?_⟩, _, rfl, WorkspaceTree.leads_concat hdir, ?_⟩
      · intro object hobject
        cases hobject
        refine ⟨rfl, ?_⟩
        rw [IsDirectory, hnode, hn rfl]
      · rintro ⟨⟩
    · cases hcreate
  · rintro t₁ errno rfl -
    refine ⟨rfl, ?_⟩
    rintro object ⟨⟩

lemma unchanged_scanEntry
    {enter : Object → WorkspaceFiles.Scan → FileAction (WorkspaceFiles.Scan × Option ControlError)}
    (henter : ∀ q s, IsDirectory q t → Unchanged named t (enter (.inside q) s)) (hname : IsStep name)
    (hdir : IsDirectory dir t) :
    Unchanged named t (WorkspaceFiles.scanEntry enter (.inside dir) name s) := by
  rw [WorkspaceFiles.scanEntry]
  refine Confined.bind (unchanged_fstatat hname hdir) fun r => ?_
  rcases r with errno | n
  · exact Confined.pure fun _ ht => ht
  · cases n with
    | file contents =>
      simp only
      split
      · exact Confined.pure fun _ ht => ht
      · exact Confined.pure fun _ ht => ht
    | directory =>
      refine Confined.bind (unchanged_openat hname hdir) fun r => ?_
      cases r with
      | error errno => exact Confined.pure fun _ ht => ht.1
      | ok child =>
        refine Confined.of_pre (fun t' ht => ht.2 child rfl) ?_
        rintro ⟨rfl, hchild⟩
        refine Confined.bind ((henter _ s hchild).mono (fun _ ht => ht.1) fun _ _ h => h) fun r => ?_
        exact Confined.pure fun _ ht => ht
    | symlink target => exact Confined.pure fun _ ht => ht
    | fifo reader writer => exact Confined.pure fun _ ht => ht
    | socket => exact Confined.pure fun _ ht => ht
    | other => exact Confined.pure fun _ ht => ht

lemma unchanged_scanNames
    {enter : Object → WorkspaceFiles.Scan → FileAction (WorkspaceFiles.Scan × Option ControlError)}
    (henter : ∀ q s, IsDirectory q t → Unchanged named t (enter (.inside q) s))
    (hdir : IsDirectory dir t) (hnames : ∀ raw ∈ names, raw.contains slash = false) :
    Unchanged named t (WorkspaceFiles.scanNames enter (.inside dir) names s) := by
  induction names generalizing s with
  | nil => exact Confined.pure fun _ ht => ht
  | cons raw rest ih =>
    have hrest := fun r hr => hnames r (List.mem_cons_of_mem raw hr)
    rw [WorkspaceFiles.scanNames]
    split
    · exact ih hrest
    · rename_i hskip
      rw [not_or] at hskip
      have hname := isStep_lossy (hnames raw List.mem_cons_self) hskip.1 hskip.2
      refine Confined.bind (unchanged_scanEntry henter hname hdir) fun r => ?_
      obtain ⟨s', e⟩ := r
      cases e with
      | some e => exact Confined.pure fun _ ht => ht
      | none => exact ih hrest

lemma unchanged_walkDirBytes (hdir : IsDirectory dir t) :
    Unchanged named t (WorkspaceFiles.walkDirBytes fuel (.inside dir) s) := by
  induction fuel generalizing dir s with
  | zero => exact Confined.pure fun _ ht => ht
  | succ fuel ih =>
    rw [WorkspaceFiles.walkDirBytes]
    have hopen : Confined named (fun t' => t' = t)
        (openat .listing (.inside dir) dot { directory := true }) fun r t' =>
          t' = t ∧ r = .ok (.inside dir) := by
      refine Confined.openat ?_ (Confined.perform ?_ ?_)
      · rintro t₁ rfl -
        refine ⟨_, resolve_dot dir, WorkspaceTree.leads_of_node hdir, ?_⟩
        rintro ⟨⟩
      · rintro t₁ object t₂ rfl hopen
        rw [openat_dot hdir rfl] at hopen
        cases hopen
        refine ⟨⟨rfl, rfl⟩, dir, rfl, WorkspaceTree.leads_of_node hdir, ?_⟩
        rintro ⟨⟩
      · rintro t₁ errno rfl hopen
        rw [openat_dot hdir rfl] at hopen
        cases hopen
    refine Confined.bind hopen fun r => ?_
    refine Confined.of_pre (fun t' ht => ht.2) ?_
    rintro rfl
    refine Confined.bind ((confined_readdir hdir).mono (fun _ ht => ht.1) fun _ _ h => h) fun names => ?_
    refine Confined.of_pre (fun t' ht => ht.2) ?_
    rintro rfl
    exact (unchanged_scanNames (fun q s hq => ih hq) hdir fun raw hraw =>
      noSlash_of_mem_readdir hraw).mono (fun _ ht => ht.1) fun _ _ h => h

/-- The accounting keeps what is known of the tree. -/
lemma confined_directoryBytes {P : WorkspaceTree → Prop} :
    Confined named P WorkspaceFiles.directoryBytes fun _ => P := by
  refine Confined.keeps fun t _ => ?_
  rw [WorkspaceFiles.directoryBytes]
  refine Confined.bind (unchanged_walkDirBytes (WorkspaceTree.node_nil t)) fun r => ?_
  obtain ⟨s, e⟩ := r
  cases e with
  | some e => exact Confined.refuse e
  | none => exact Confined.pure fun _ ht => ht

lemma unchanged_listEntries {pathPrefix : FileName} (hdir : IsDirectory dir t)
    (hnames : ∀ name ∈ names, IsStep name) :
    Unchanged named t (WorkspaceFiles.listEntries (.inside dir) pathPrefix names) := by
  induction names with
  | nil => exact Confined.pure fun _ ht => ht
  | cons name rest ih =>
    have hrest := ih fun r hr => hnames r (List.mem_cons_of_mem name hr)
    rw [WorkspaceFiles.listEntries]
    refine Confined.bind (unchanged_fstatat (hnames name List.mem_cons_self) hdir) fun r => ?_
    cases r with
    | error errno => exact hrest
    | ok n =>
      refine Confined.bind hrest fun others => ?_
      exact Confined.pure fun _ ht => ht

lemma isStep_of_mem_sortedNames (h : name ∈ WorkspaceFiles.sortedNames (t.readdir (.inside dir))) :
    IsStep name := by
  rw [WorkspaceFiles.sortedNames, List.mem_mergeSort, List.mem_filter, List.mem_map] at h
  obtain ⟨⟨raw, hraw, rfl⟩, hskip⟩ := h
  simp only [ne_eq, Bool.and_eq_true, decide_eq_true_eq] at hskip
  exact isStep_lossy (noSlash_of_mem_readdir hraw) hskip.1 hskip.2

end Listing

end Steps

/-! ### The operations -/

/-- A request, with what the `pwrite`s of a write come to. -/
inductive FileRequest
  | list (path : Json)
  | read (path offset maxBytes : Json)
  | write (pwrites : List ℕ) (path offset encoded truncate : Json)
  | delete (path recursive : Json)
  | openJobCwd (path : Json)

def FileRequest.path : FileRequest → Json
  | .list path => path
  | .read path _ _ => path
  | .write _ path _ _ _ => path
  | .delete path _ => path
  | .openJobCwd path => path

/-- Serve a request; what is logged is all that counts here. -/
def FileRequest.serve (quota : WorkspaceFiles.Quota) : FileRequest → FileAction Unit
  | .list path => do
    let _ ← WorkspaceFiles.list path
    pure ()
  | .read path offset maxBytes => do
    let _ ← WorkspaceFiles.read path offset maxBytes
    pure ()
  | .write pwrites path offset encoded truncate => do
    let _ ← WorkspaceFiles.write quota pwrites path offset encoded truncate
    pure ()
  | .delete path recursive => do
    let _ ← WorkspaceFiles.delete quota path recursive
    pure ()
  | .openJobCwd path => do
    let _ ← WorkspaceFiles.openJobCwd path
    pure ()

/-- What is reached while a request is served from a tree. -/
def FileRequest.accesses (quota : WorkspaceFiles.Quota) (request : FileRequest) (t : WorkspaceTree) :
    List Access :=
  (outcome (request.serve quota) (.initial t)).2.log

section Operations

variable {path : Json} {parts : List String} {t : WorkspaceTree} {quota : WorkspaceFiles.Quota}

lemma confined_list :
    Confined (namedComponents path) (fun _ => True) (WorkspaceFiles.list path) fun _ _ => True := by
  rw [WorkspaceFiles.list]
  refine Confined.bind (confined_orThrow _) fun parts => ?_
  refine Confined.of_pre (fun t ht => named_of_validateWorkspaceDirectory ht.2) ?_
  rintro ⟨hnamed, hparts⟩
  refine Confined.bind ((confined_openDirectory hparts (hnamed ▸ List.prefix_rfl)).mono
    (fun _ _ => trivial) fun _ _ h => h) fun dir => ?_
  refine Confined.of_pre (fun t ht => ht.1) ?_
  rintro rfl
  refine Confined.bind ((confined_openDot rfl fun h => by cases h).mono
    (fun t ht => ht.2) fun _ _ h => h) fun r => ?_
  refine Confined.of_pre (fun t ht => ht.2) ?_
  rintro rfl
  -- from here on the tree does not change
  intro k hk
  refine (Confined.bind (P := fun t => t = k.tree) (R := fun _ _ => True)
    (confined_readdir hk.2.1) fun names => ?_) k ⟨hk.1, rfl⟩
  refine Confined.of_pre (fun t ht => ht.2) ?_
  rintro rfl
  split
  · exact Confined.refuse _
  · exact (unchanged_listEntries hk.2.1 fun name hname => isStep_of_mem_sortedNames hname).mono
      (fun _ ht => ht.1) fun _ _ _ => trivial

lemma confined_read (offset maxBytes : Json) :
    Confined (namedComponents path) (fun _ => True) (WorkspaceFiles.read path offset maxBytes)
      fun _ _ => True := by
  rw [WorkspaceFiles.read]
  refine Confined.bind (confined_orThrow _) fun parts => ?_
  refine Confined.of_pre (fun t ht => named_of_validateRelativePath ht.2) ?_
  rintro ⟨hnamed, hparts⟩
  refine Confined.bind (confined_orThrow _) fun start => ?_
  refine Confined.bind (confined_orThrow _) fun limit => ?_
  refine Confined.bind ((confined_openFile hparts (hnamed ▸ List.prefix_rfl)).mono
    (fun _ _ => trivial) fun _ _ h => h) fun fd => ?_
  refine Confined.of_pre (fun t ht => ht.1) ?_
  rintro rfl
  have hrequest : ∀ {origin : Origin}, origin = .request →
      parts.map WorkspaceFiles.fileName <+: namedComponents path := fun _ => hnamed ▸ List.prefix_rfl
  rw [WorkspaceFiles.readChunk]
  refine Confined.bind (Confined.observe (fun t ht => ht.2) hrequest) fun n => ?_
  refine Confined.bind (confined_regularFile n _) fun contents => ?_
  split
  · exact Confined.refuse _
  · split
    · exact Confined.refuse _
    · refine Confined.bind (Confined.observe (fun t ht => ht.1.1.2) hrequest) fun buf => ?_
      exact Confined.pure fun _ _ => trivial

/-- However far the loop gets, it stays in the file. -/
lemma confined_pwriteAll {named q : TreePath} (hnamed : q <+: named) (pwrites : List ℕ) (chunk : List UInt8)
    (start : ℕ) :
    Confined named (fun t => t.Leads q) (pwriteAll (.inside q) pwrites chunk start) fun _ t =>
      t.Leads q := by
  induction pwrites generalizing chunk start with
  | nil =>
    rw [pwriteAll]
    split
    · exact Confined.pure fun _ ht => ht
    · exact Confined.alter (fun t ht => ht) hnamed fun t ht => WorkspaceTree.leads_update ht
  | cons n pwrites ih =>
    rw [pwriteAll]
    split
    · exact Confined.pure fun _ ht => ht
    · split
      · exact Confined.bind (Confined.observe (fun t ht => ht) fun _ => hnamed) fun _ => Confined.refuse _
      · have halter : Confined named (fun t => t.Leads q)
            (alter .write (.inside q) (splice start (chunk.take n))) fun _ t => t.Leads q :=
          Confined.alter (fun t ht => ht) hnamed fun t ht => WorkspaceTree.leads_update ht
        exact Confined.bind halter fun _ => ih _ _

lemma confined_writeChunk {pwrites : List ℕ} {r : WorkspaceFiles.WriteFields} {q : TreePath}
    (hnamed : q <+: namedComponents path) :
    Confined (namedComponents path) (fun t => t.Leads q)
      (WorkspaceFiles.writeChunk quota pwrites r (.inside q)) fun _ _ => True := by
  rw [WorkspaceFiles.writeChunk]
  refine Confined.bind (Confined.observe (fun t ht => ht) fun _ => hnamed) fun _ => ?_
  refine Confined.bind (Confined.observe (fun t ht => ht.1) fun _ => hnamed) fun n => ?_
  refine Confined.bind (confined_regularFile n _) fun contents => ?_
  refine Confined.bind confined_directoryBytes fun used => ?_
  simp only
  split
  · exact Confined.refuse _
  · have htruncate : Confined (namedComponents path) (fun t => t.Leads q)
        (ftruncate (.inside q)) fun _ t => t.Leads q :=
      Confined.alter (fun t ht => ht) hnamed fun t ht => WorkspaceTree.leads_update ht
    refine Confined.bind (((confined_onlyIf htruncate)).mono
      (fun t ht => ht.1.1.1) fun _ _ h => h) fun _ => ?_
    refine Confined.bind (confined_pwriteAll hnamed pwrites r.chunk r.start) fun _ => ?_
    refine Confined.bind (Confined.observe (fun t ht => ht) fun _ => hnamed) fun n => ?_
    exact Confined.pure fun _ _ => trivial

lemma confined_write (pwrites : List ℕ) (offset encoded truncate : Json) :
    Confined (namedComponents path) (fun _ => True)
      (WorkspaceFiles.write quota pwrites path offset encoded truncate) fun _ _ => True := by
  rw [WorkspaceFiles.write]
  refine Confined.bind (confined_orThrow _) fun r => ?_
  refine Confined.of_pre (fun t ht => WorkspaceFiles.writeFields_parts ht.2) fun hvalid => ?_
  obtain ⟨hnamed, hparts⟩ := named_of_validateRelativePath hvalid
  refine Confined.withWriteLock ?_
  refine Confined.bind ((confined_openFile hparts (hnamed ▸ List.prefix_rfl)).mono
    (fun _ _ => trivial) fun _ _ h => h) fun fd => ?_
  refine Confined.of_pre (fun t ht => ht.1) ?_
  rintro rfl
  exact (confined_writeChunk (hnamed ▸ List.prefix_rfl)).mono (fun t ht => ht.2) fun _ _ h => h

lemma confined_delete (recursive : Json) :
    Confined (namedComponents path) (fun _ => True) (WorkspaceFiles.delete quota path recursive)
      fun _ _ => True := by
  rw [WorkspaceFiles.delete]
  refine Confined.bind (confined_orThrow _) fun parts => ?_
  refine Confined.of_pre (fun t ht => ht.2) fun hvalid => ?_
  obtain ⟨hnamed, hparts⟩ := named_of_validateRelativePath hvalid
  split
  · exact Confined.refuse _
  · refine Confined.withWriteLock ?_
    obtain ⟨hsplit, hlast⟩ := WorkspaceFiles.map_fileName_split (validateRelativePath_ne_nil hvalid)
    have hwhole : parts.dropLast.map WorkspaceFiles.fileName ++
        [WorkspaceFiles.fileName (parts.getLastD "")] <+: namedComponents path :=
      ⟨[], by rw [List.append_nil, ← hsplit, hnamed]⟩
    refine Confined.bind ((confined_openDirectory
      (fun p hp => hparts p (List.dropLast_subset _ hp))
      ((List.prefix_append _ _).trans hwhole)).mono (fun _ _ => trivial) fun _ _ h => h) fun parent => ?_
    refine Confined.of_pre (fun t ht => ht.1) ?_
    rintro rfl
    have hstep := hparts _ hlast
    simp only
    rw [fstatat, hstep.resolve]
    refine Confined.bind (Confined.observe (fun t ht => WorkspaceTree.leads_concat ht.2)
      fun _ => hwhole) fun n => ?_
    refine Confined.bind (confined_orIoError n) fun n => ?_
    refine Confined.bind (confined_regularFile n _) fun _ => ?_
    refine Confined.bind (Q := fun _ _ => True) ?_ fun r => ?_
    · refine Confined.perform ?_ fun _ _ _ _ => trivial
      intro t object t' ht hunlink
      obtain ⟨rfl, -⟩ := unlinkat_ok hstep hunlink
      exact ⟨trivial, _, rfl, WorkspaceTree.leads_concat ht.1.1.1.2, fun _ => hwhole⟩
    refine Confined.bind (confined_orIoError r) fun _ => ?_
    refine Confined.bind confined_directoryBytes fun used => ?_
    exact Confined.pure fun _ _ => trivial

lemma confined_openJobCwd :
    Confined (namedComponents path) (fun _ => True) (WorkspaceFiles.openJobCwd path)
      fun _ _ => True := by
  rw [WorkspaceFiles.openJobCwd]
  refine Confined.bind (confined_orThrow _) fun parts => ?_
  refine Confined.of_pre (fun t ht => named_of_validateWorkspaceDirectory ht.2) ?_
  rintro ⟨hnamed, hparts⟩
  exact (confined_openDirectory hparts (hnamed ▸ List.prefix_rfl)).mono
    (fun _ _ => trivial) fun _ _ _ => trivial

/-- Whatever the tree, its links and the request are, an operation reaches nothing but objects below
the root, through directories and under the components of its path. -/
theorem accesses_reachedBy (quota : WorkspaceFiles.Quota) (request : FileRequest) (t : WorkspaceTree) :
    ∀ a ∈ request.accesses quota t, a.ReachedBy (namedComponents request.path) := by
  have hserve : Confined (namedComponents request.path) (fun _ => True) (request.serve quota)
      fun _ _ => True := by
    cases request with
    | list path => exact Confined.bind confined_list fun _ => Confined.pure fun _ h => h
    | read path offset maxBytes =>
      exact Confined.bind (confined_read offset maxBytes) fun _ => Confined.pure fun _ h => h
    | write pwrites path offset encoded truncate =>
      exact Confined.bind (confined_write pwrites offset encoded truncate) fun _ => Confined.pure fun _ h => h
    | delete path recursive =>
      exact Confined.bind (confined_delete recursive) fun _ => Confined.pure fun _ h => h
    | openJobCwd path => exact Confined.bind confined_openJobCwd fun _ => Confined.pure fun _ h => h
  have hempty : Kernel.Reached (namedComponents request.path) (.initial t) :=
    fun a ha => absurd ha List.not_mem_nil
  have hpost := hserve (.initial t) ⟨hempty, trivial⟩
  rw [FileRequest.accesses]
  rcases hrun : outcome (request.serve quota) (.initial t) with ⟨e | a, k⟩
  · rw [hrun] at hpost
    exact hpost
  · rw [hrun] at hpost
    exact hpost.1

end Operations

/-- A workspace whose only entry is a link out of it. -/
def escapingTree : WorkspaceTree where
  entries := [⟨[], [108], 0, .symlink .outside⟩]
  slot := fun _ => 0
  room := fun _ _ => true
  nodup := by decide
  plain := by decide
  closed := by decide
  linked := by decide

def escapingRead : FileRequest := .read (.string "l/secret") (.number (some 0)) (.number (some 1))

/-- Reading through the link gets to the root of the workspace and not behind the link. -/
theorem accesses_reachedBy_link :
    ∃ a ∈ escapingRead.accesses .smallest escapingTree,
      a.origin = .request ∧ a.ReachedBy (namedComponents escapingRead.path) := by
  have hany : (escapingRead.accesses .smallest escapingTree).any
      (fun a => a.origin = .request) = true := by decide +kernel
  obtain ⟨a, ha, horigin⟩ := List.any_eq_true.mp hany
  exact ⟨a, ha, of_decide_eq_true horigin, accesses_reachedBy _ _ _ a ha⟩

end Bloom
