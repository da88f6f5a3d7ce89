import BloomWorkspaces.Guest.Descriptors

/-!
# The descriptor table of the guest

No operation closes a descriptor twice. The table is afterwards as it was before, unless a stream could
not be made of a directory that was opened, a directory of the key had other entries than those of a key,
or the public host key was no small regular file.
-/

namespace Bloom

namespace GuestDescriptors

open Descriptors

/-! ### Harmful answers -/

/-- An answer after which a descriptor is never closed. -/
def Event.isHarmful (e : Event) : Bool :=
  match e.caller, e.call with
  | _, .fdopendir _ => e.answer.fails
  | .listDirEntries _, .openat .. => e.answer.fails
  | .listDirEntries dir, .readdir _ => sorted (entryTexts e.answer.names) ≠ keyEntries dir
  | .readSmallRegularFile maximum, .fstat _ => !e.answer.isSmall maximum
  | _, _ => false

def Event.Harmful (e : Event) : Prop := e.isHarmful = true

variable {files : Files} {fd current dir : ℕ} {fds : Multiset ℕ} {create : Bool} {parts : List String}

lemma calm_order {call : Call} (h : ∀ fd, call ≠ .fdopendir fd) : Calm Event.Harmful (order call) := by
  refine calm_look fun i => ?_
  cases call <;> simp_all [Event.Harmful, Event.isHarmful]

lemma calm_ask {call : Call} (h : ∀ fd, call ≠ .fdopendir fd) :
    Calm Event.Harmful (ask .other call) := by
  refine calm_look fun i => ?_
  cases call <;> simp_all [Event.Harmful, Event.isHarmful]

lemma calm_readNames (dirp : ℕ) : Calm Event.Harmful (readNames .other dirp) :=
  calm_look fun _ => Bool.false_ne_true

/-- What a call that opens a descriptor leaves in the hands of its caller. -/
def opened (fds : Multiset ℕ) : Except ControlError (Except ControlError ℕ) → Holding
  | .ok (.ok fd) => ⟨fd ::ₘ fds, False⟩
  | .ok (.error _) => ⟨fds, False⟩
  | .error _ => .nothing

lemma balanced_opening {call : Call} (h : ∀ fd, call ≠ .fdopendir fd) :
    Balanced Event.Harmful ⟨fds, False⟩ (opening .other call) (opened fds) := by
  have hharmless : ∀ i, ¬Event.Harmful ⟨.other, call, i⟩ := fun i => by
    cases call <;> simp_all [Event.Harmful, Event.isHarmful]
  exact balanced_acquire (fun i _ => hharmless i) (fun _ => rfl) (fun _ => rfl)
    fun i _ _ => iff_of_false not_false (hharmless i)

lemma Calm.onlyIf {x : Task Unit} {flag : Bool} (hx : Calm Event.Harmful x) :
    Calm Event.Harmful (onlyIf flag x) := by
  rw [GuestDescriptors.onlyIf]
  split
  · exact hx
  · exact calm_returns ()

/-! ### Directories -/

lemma calm_makeParent (dir : ℕ) (name : FileName) : Calm Event.Harmful (makeParent dir name) := by
  refine (calm_ask (by simp)).bind fun made => ?_
  split
  · exact calm_returns ()
  · exact (calm_ask (by simp)).bind fun user => Calm.onlyIf (calm_order (by simp))

/-- What a program that opens a descriptor for its caller leaves in its hands. -/
def handed : Except ControlError ℕ → Holding
  | .ok fd => .one fd
  | .error _ => .nothing

theorem balanced_descend :
    Balanced Event.Harmful (.one current) (descend create current parts) handed := by
  induction parts generalizing current with
  | nil => exact balanced_returns rfl
  | cons part parts ih =>
    refine ((Calm.onlyIf (calm_makeParent _ _)) {current}).bind (fun _ => ?_) fun _ => rfl
    refine (balanced_opening (by simp)).bind (fun next => ?_) fun _ => rfl
    cases next with
    | error e => exact (balanced_release _ _ False).bind (fun _ => balanced_throws rfl) fun _ => rfl
    | ok next =>
      have hswap : next ::ₘ ({current} : Multiset ℕ) = current ::ₘ {next} := Multiset.cons_swap next current 0
      simp only [opened, hswap]
      exact (balanced_release _ _ False).bind (fun _ => ih) fun _ => rfl

theorem balanced_openDirectory :
    Balanced Event.Harmful .nothing (openDirectory files parts create) handed := by
  refine (balanced_opening (by simp)).bind (fun first => ?_) fun _ => rfl
  cases first with
  | error e => exact balanced_throws rfl
  | ok current => exact balanced_descend

theorem balanced_openFile {flags : OpenFlags} :
    Balanced Event.Harmful .nothing (openFile files parts flags create) handed := by
  rw [openFile]
  split
  · exact balanced_throws rfl
  · refine balanced_openDirectory.bind (fun parent => ?_) fun _ => rfl
    refine (balanced_opening (by simp)).bind (fun fd => ?_) fun _ => rfl
    cases fd with
    | error e => exact (balanced_release _ _ False).bind (fun _ => balanced_throws rfl) fun _ => rfl
    | ok fd =>
      have hswap : fd ::ₘ ({parent} : Multiset ℕ) = parent ::ₘ {fd} := Multiset.cons_swap fd parent 0
      simp only [opened, hswap]
      exact (balanced_release _ _ False).bind (fun _ => balanced_returns rfl) fun _ => rfl

/-! ### Streams -/

/-- What `openDir` leaves in the hands of its caller, who is doomed without a stream or is not. -/
def streamed (fds : Multiset ℕ) (doomed : Prop) : Except ControlError (Option ℕ) → Holding
  | .ok (some dirp) => ⟨dirp ::ₘ fds, False⟩
  | .ok none => ⟨fds, doomed⟩
  | .error _ => .nothing

/-- Without a stream, the descriptor for it is lost. -/
lemma balanced_fdopendir {caller : Caller} {dirp : ℕ} {doomed : Prop} :
    Balanced Event.Harmful ⟨dirp ::ₘ fds, False⟩
      (do
        let opened ← ask caller (.fdopendir dirp)
        if opened.fails then pure none else pure (some dirp))
      (streamed fds doomed) := by
  have hask : Balanced Event.Harmful ⟨dirp ::ₘ fds, False⟩ (ask caller (.fdopendir dirp)) fun
      | .ok i => ⟨dirp ::ₘ fds, i.fails = true⟩
      | .error _ => .nothing :=
    balanced_look (fun _ => rfl) fun i => by simp [Event.Harmful, Event.isHarmful]
  refine hask.bind (fun i => ?_) fun _ => rfl
  cases hfails : i.fails with
  | true =>
    simp only [hfails, if_true]
    exact balanced_drop rfl
  | false =>
    simp only [hfails, Bool.false_eq_true, if_false]
    exact balanced_returns rfl

theorem balanced_openDir :
    Balanced Event.Harmful ⟨fds, False⟩ (openDir .other fd) (streamed fds False) := by
  refine (balanced_opening (by simp)).bind (fun dirp => ?_) fun _ => rfl
  cases dirp with
  | error e => exact balanced_returns rfl
  | ok dirp => exact balanced_fdopendir

/-! ### Storage accounting -/

section Scan

open WorkspaceFiles

variable {enter : ℕ → Scan → Task (Scan × Option ControlError)}

lemma calm_scanEntry (henter : ∀ child s, Calm Event.Harmful (enter child s)) (name : FileName)
    (s : Scan) : Calm Event.Harmful (scanEntry enter fd name s) := by
  refine (calm_ask (by simp)).bind fun found => ?_
  split
  · exact calm_returns _
  · split
    · split
      · exact calm_returns _
      · exact calm_returns _
    · intro fds
      refine (balanced_opening (by simp)).bind (fun child => ?_) fun _ => rfl
      cases child with
      | error e => exact balanced_returns rfl
      | ok child =>
        refine (henter child s (child ::ₘ fds)).bind (fun result => ?_) fun _ => rfl
        exact (balanced_release _ _ False).bind (fun _ => balanced_returns rfl) fun _ => rfl
    · exact calm_returns _
    · exact calm_returns _

lemma calm_scanNames (henter : ∀ child s, Calm Event.Harmful (enter child s)) (names : List FileName)
    (s : Scan) : Calm Event.Harmful (scanNames enter fd names s) := by
  induction names generalizing s with
  | nil => exact calm_returns _
  | cons name names ih =>
    refine (calm_scanEntry henter name s).bind fun result => ?_
    obtain ⟨s', stop⟩ := result
    cases stop with
    | some e => exact calm_returns _
    | none => exact ih s'

theorem calm_walkDirBytes (fuel : ℕ) (s : Scan) : Calm Event.Harmful (walkDirBytes fuel fd s) := by
  induction fuel generalizing fd s with
  | zero => exact calm_returns _
  | succ fuel ih =>
    intro fds
    refine balanced_openDir.bind (fun dirp => ?_) fun _ => rfl
    cases dirp with
    | none => exact balanced_returns rfl
    | some dirp =>
      refine (calm_readNames dirp (dirp ::ₘ fds)).bind (fun names => ?_) fun _ => rfl
      refine (calm_scanNames (fun child s => ih s) _ s (dirp ::ₘ fds)).bind (fun result => ?_) fun _ => rfl
      exact (balanced_release _ _ False).bind (fun _ => balanced_returns rfl) fun _ => rfl

theorem tidy_directoryBytes : Tidy Event.Harmful (directoryBytes files) := by
  refine (calm_walkDirBytes _ _).tidy.bind fun result => ?_
  obtain ⟨s, stop⟩ := result
  cases stop with
  | some e => exact tidy_throws e
  | none => exact tidy_returns _

end Scan

/-! ### Operations -/

section Operations

open WorkspaceFiles

lemma Tidy.closing_handed {α : Type} {x : Task ℕ} {body : ℕ → Task α}
    (hx : Balanced Event.Harmful .nothing x handed) (hbody : ∀ fd, Tidy Event.Harmful (body fd)) :
    Tidy Event.Harmful (x >>= fun fd => closing fd (body fd)) :=
  hx.bind (fun fd => balanced_closing (hbody fd)) fun _ => rfl

theorem tidy_prepareJobTmp : Tidy Event.Harmful (prepareJobTmp files) := by
  refine balanced_openDirectory.bind (fun fd => ?_) fun _ => rfl
  refine (calm_order (by simp) {fd}).bind (fun _ => ?_) fun _ => rfl
  refine (calm_ask (by simp) {fd}).bind (fun user => ?_) fun _ => rfl
  refine ((Calm.onlyIf (calm_order (by simp))) {fd}).bind (fun _ => ?_) fun _ => rfl
  exact balanced_release fd 0 False

lemma calm_fileRecords (dir : ℕ) (pathPrefix : FileName) (names : List FileName) :
    Calm Event.Harmful (fileRecords dir pathPrefix names) := by
  induction names with
  | nil => exact calm_returns _
  | cons name names ih =>
    refine (calm_ask (by simp)).bind fun found => ih.bind fun others => ?_
    split
    · exact calm_returns _
    · exact calm_returns _

lemma tidy_listOpen (parts : List String) (dir : ℕ) : Tidy Event.Harmful (listOpen parts dir) := by
  refine balanced_openDir.bind (fun dirp => ?_) fun _ => rfl
  cases dirp with
  | none => exact tidy_throws _
  | some dirp =>
    refine (calm_readNames dirp {dirp}).bind (fun names => ?_) fun _ => rfl
    refine (balanced_release dirp 0 False).bind (fun _ => ?_) fun _ => rfl
    dsimp only
    split
    · exact tidy_throws _
    · exact (calm_fileRecords dir _ _).tidy

theorem tidy_list (path : Json) : Tidy Event.Harmful (list files path) :=
  (tidy_ofExcept _).bind fun parts =>
    Tidy.closing_handed balanced_openDirectory fun dir => tidy_listOpen parts dir

lemma tidy_statOpen (fd : ℕ) : Tidy Event.Harmful (statOpen fd) := by
  refine (calm_ask (by simp)).tidy.bind fun found => ?_
  split
  · exact tidy_throws _
  · exact tidy_returns _

lemma tidy_readOpen (parts : List String) (fd start limit : ℕ) :
    Tidy Event.Harmful (readOpen parts fd start limit) := by
  refine (tidy_statOpen fd).bind fun st => ?_
  split_ifs
  · exact tidy_throws _
  · exact tidy_throws _
  · exact tidy_throws _
  · refine (calm_ask (by simp)).tidy.bind fun got => ?_
    split
    · exact tidy_throws _
    · exact tidy_returns _

theorem tidy_read (path offset maxBytes : Json) : Tidy Event.Harmful (read files path offset maxBytes) :=
  (tidy_ofExcept _).bind fun parts => (tidy_ofExcept _).bind fun start =>
    (tidy_ofExcept _).bind fun limit =>
      Tidy.closing_handed balanced_openFile fun fd => tidy_readOpen parts fd start.toNat limit.toNat

lemma tidy_pwriteAll (fd fuel : ℕ) (chunk : List UInt8) (start : ℕ) :
    Tidy Event.Harmful (pwriteAll fd fuel chunk start) := by
  induction fuel generalizing chunk start with
  | zero => exact tidy_returns ()
  | succ fuel ih =>
    rw [pwriteAll]
    split
    · exact tidy_returns ()
    · refine (calm_ask (by simp)).tidy.bind fun written => ?_
      split
      · exact tidy_throws _
      · exact ih _ _

/-- How many bytes a `pwrite` has taken; one that fails has taken none. -/
def Answer.written (i : Answer) : ℕ := if i.fails then 0 else i.count

/-- What the `pwrite`s from the `n`th answer on have taken. -/
def writtenFrom (answers : ℕ → Answer) : ℕ → ℕ → List ℕ
  | _, 0 => []
  | n, fuel + 1 => (answers n).written :: writtenFrom answers (n + 1) fuel

/-- The loop ends as the one over the tree does when its calls take as much. -/
theorem pwriteAll_run (answers : ℕ → Answer) (object : Object) (k : Kernel) (fd fuel n start : ℕ)
    (chunk : List UInt8) (s : State Event) (hfuel : chunk.length ≤ fuel) :
    ((pwriteAll fd fuel chunk start).run answers n s).1.mapError Halt.error =
      (Action.outcome (Bloom.pwriteAll object (writtenFrom answers n fuel) chunk start) k).1 := by
  induction fuel generalizing n start chunk s k with
  | zero =>
    obtain rfl : chunk = [] := List.length_eq_zero_iff.mp (Nat.le_zero.mp hfuel)
    rfl
  | succ fuel ih =>
    rw [pwriteAll, writtenFrom, Bloom.pwriteAll]
    by_cases hchunk : chunk = []
    · rw [if_pos hchunk, if_pos hchunk]
      rfl
    · rw [if_neg hchunk, if_neg hchunk]
      have hlength := List.length_pos_of_ne_nil hchunk
      by_cases hnone : (answers n).written = 0
      · have hfailed : (answers n).fails ∨ (answers n).count = 0 := by
          rw [Answer.written] at hnone
          split at hnone
          · exact Or.inl ‹_›
          · exact Or.inr hnone
        rw [if_pos hnone]
        show ((if (answers n).fails ∨ (answers n).count = 0 then _ else _ : Task Unit).run answers
          (n + 1) _).1.mapError Halt.error = _
        rw [if_pos hfailed]
        rfl
      · have hsome : ¬((answers n).fails ∨ (answers n).count = 0) := by
          rintro (hfails | hcount)
          · exact hnone (if_pos hfails)
          · exact hnone (by rw [Answer.written, hcount, ite_self])
        have hcount : (answers n).written = (answers n).count := if_neg fun hfails => hsome (Or.inl hfails)
        have hleft : (chunk.drop (answers n).count).length ≤ fuel := by
          rw [List.length_drop]
          omega
        rw [if_neg hnone, hcount]
        show ((if (answers n).fails ∨ (answers n).count = 0 then _ else _ : Task Unit).run answers
          (n + 1) _).1.mapError Halt.error = _
        rw [if_neg hsome]
        exact ih _ (n + 1) _ _ _ hleft

lemma tidy_writeOpen (r : WriteFields) (fd : ℕ) : Tidy Event.Harmful (writeOpen files r fd) := by
  refine (calm_ask (by simp)).tidy.bind fun user => ?_
  refine (Calm.onlyIf (calm_order (by simp))).tidy.bind fun _ => ?_
  refine (tidy_statOpen fd).bind fun st => ?_
  split
  · exact tidy_throws _
  · refine tidy_directoryBytes.bind fun used => ?_
    split
    · exact tidy_throws _
    · refine (Calm.onlyIf (calm_order (by simp))).tidy.bind fun _ => ?_
      refine (tidy_pwriteAll _ _ _ _).bind fun _ => ?_
      refine (calm_order (by simp)).tidy.bind fun _ => ?_
      exact (calm_ask (by simp)).tidy.bind fun after => tidy_returns _

theorem tidy_write (path offset encoded truncate : Json) :
    Tidy Event.Harmful (write files path offset encoded truncate) :=
  (tidy_ofExcept _).bind fun r =>
    Tidy.closing_handed balanced_openFile fun fd => tidy_writeOpen r fd

lemma tidy_deleteOpen (parts : List String) (parent : ℕ) :
    Tidy Event.Harmful (deleteOpen files parts parent) := by
  refine (calm_ask (by simp)).tidy.bind fun found => (tidy_ofExcept _).bind fun found => ?_
  split
  · exact tidy_throws _
  · refine (calm_ask (by simp)).tidy.bind fun unlinked => (tidy_ofExcept _).bind fun _ => ?_
    exact tidy_directoryBytes.bind fun used => tidy_returns _

theorem tidy_delete (path recursive : Json) : Tidy Event.Harmful (delete files path recursive) := by
  refine (tidy_ofExcept _).bind fun parts => ?_
  split
  · exact tidy_throws _
  · exact Tidy.closing_handed balanced_openDirectory fun parent => tidy_deleteOpen parts parent

theorem balanced_openJobCwd (path : Json) :
    Balanced Event.Harmful .nothing (openJobCwd files path) handed :=
  Balanced.bind (tidy_ofExcept _) (fun _ => balanced_openDirectory) fun _ => rfl

end Operations

/-! ### Keys -/

lemma tidy_readSmallOpen (fd maximum : ℕ) : Tidy Event.Harmful (readSmallOpen fd maximum) := by
  refine (calm_ask (by simp)).tidy.bind fun found => ?_
  split
  · exact (calm_ask (by simp)).tidy.bind fun got => tidy_returns _
  · exact tidy_returns _

/-- What an attempt to open a descriptor leaves in the hands of its caller. -/
def handedOver : Except ControlError (Except ControlError ℕ) → Holding
  | .ok opened => handed opened
  | .error _ => .nothing

theorem tidy_readSmall (path : String) (maximum : ℕ) : Tidy Event.Harmful (readSmall files path maximum) := by
  rw [readSmall]
  split
  · exact tidy_returns _
  · have hopen : ∀ parts, Balanced Event.Harmful .nothing (openFile files parts {} false).attempt handedOver :=
      fun parts => Balanced.attempt balanced_openFile fun _ => rfl
    refine (hopen _).bind (fun fd => ?_) fun _ => rfl
    cases fd with
    | error e => exact balanced_returns rfl
    | ok fd => exact balanced_closing (tidy_readSmallOpen fd maximum)

/-- What a listing of a key directory leaves in the hands of a caller that closes the directory only where it
has the right entries. -/
def listed (fds : Multiset ℕ) (dir : KeyDirectory) : Except ControlError (Option (List FileName)) → Holding
  | .ok none => ⟨fds, True⟩
  | .ok (some entries) => ⟨fds, sorted entries ≠ keyEntries dir⟩
  | .error _ => .nothing

/-- A call of `listDirEntries` that fails dooms its caller. -/
def openedForKey (fds : Multiset ℕ) : Except ControlError (Except ControlError ℕ) → Holding
  | .ok (.ok fd) => ⟨fd ::ₘ fds, False⟩
  | .ok (.error _) => ⟨fds, True⟩
  | .error _ => .nothing

lemma balanced_openDir_key (dir : KeyDirectory) :
    Balanced Event.Harmful ⟨fds, False⟩ (openDir (.listDirEntries dir) fd) (streamed fds True) := by
  have hopen : Balanced Event.Harmful ⟨fds, False⟩
      (opening (.listDirEntries dir) (.openat fd dot { directory := true })) (openedForKey fds) := by
    refine balanced_acquire (fun i hok => ?_) (fun _ => rfl) (fun _ => rfl) fun i e herror => ?_
    · cases herrno : i.errno <;> simp_all [Event.Harmful, Event.isHarmful, Answer.fails]
    · cases herrno : i.errno <;>
        simp_all [Event.Harmful, Event.isHarmful, Answer.fails, openedForKey]
  refine hopen.bind (fun dirp => ?_) fun _ => rfl
  cases dirp with
  | error e => exact balanced_returns rfl
  | ok dirp => exact balanced_fdopendir

lemma balanced_listDirEntries (dir : KeyDirectory) :
    Balanced Event.Harmful ⟨fds, False⟩ (listDirEntries dir fd) (listed fds dir) := by
  refine (balanced_openDir_key dir).bind (fun dirp => ?_) fun _ => rfl
  cases dirp with
  | none => exact balanced_returns rfl
  | some dirp =>
    have hread : Balanced Event.Harmful ⟨dirp ::ₘ fds, False⟩ (readNames (.listDirEntries dir) dirp) fun
        | .ok names => ⟨dirp ::ₘ fds, sorted (entryTexts names) ≠ keyEntries dir⟩
        | .error _ => .nothing :=
      balanced_look (fun _ => rfl) fun i => by simp [Event.Harmful, Event.isHarmful]
    refine hread.bind (fun names => ?_) fun _ => rfl
    exact (balanced_release dirp fds _).bind (fun _ => balanced_returns rfl) fun _ => rfl

lemma balanced_holdsKey (dir : KeyDirectory) :
    Balanced Event.Harmful (.one fd) (holdsKey dir fd) fun _ => .nothing := by
  refine Balanced.bind (balanced_listDirEntries dir) (fun entries => ?_) fun _ => rfl
  cases entries with
  | none => exact balanced_drop rfl
  | some entries =>
    by_cases hkey : sorted entries = keyEntries dir
    · simp only [listed, hkey, ne_eq, not_true_eq_false, if_true]
      exact (balanced_release fd 0 False).bind (fun _ => balanced_returns rfl) fun _ => rfl
    · simp only [listed, hkey, ne_eq, not_false_eq_true, if_false]
      exact balanced_drop rfl

lemma tidy_checkKey (dir : KeyDirectory) : Tidy Event.Harmful (checkKey files dir) := by
  have hopen : Balanced Event.Harmful .nothing (openDirectory files (keyParts dir) false).attempt handedOver :=
    Balanced.attempt balanced_openDirectory fun _ => rfl
  refine hopen.bind (fun fd => ?_) fun _ => rfl
  cases fd with
  | error e => exact tidy_returns _
  | ok fd => exact balanced_holdsKey dir

lemma tidy_readIdentity : Tidy Event.Harmful (readIdentity files) := by
  unfold readIdentity
  refine Tidy.bind (tidy_readSmall _ _) ?_
  rintro (_ | kind)
  · exact tidy_returns _
  refine Tidy.bind (tidy_readSmall _ _) ?_
  rintro (_ | address)
  · exact tidy_returns _
  refine Tidy.bind (tidy_readSmall _ _) ?_
  rintro (_ | publicKey)
  · exact tidy_returns _
  · exact tidy_returns _

theorem tidy_watchIdentity : Tidy Event.Harmful (watchIdentity files) := by
  refine (tidy_checkKey _).bind fun keystore => ?_
  split
  · refine (tidy_checkKey _).bind fun wallet => ?_
    split
    · exact tidy_readIdentity
    · exact tidy_returns _
  · exact tidy_returns _

theorem tidy_readSmallRegularFile (path : String) (maximum : ℕ) :
    Tidy Event.Harmful (readSmallRegularFile path maximum) := by
  have hopen : Balanced Event.Harmful .nothing
      (opening (.readSmallRegularFile maximum) (.open path { noFollow := true })) (opened 0) :=
    balanced_acquire (fun _ _ => Bool.false_ne_true) (fun _ => rfl) (fun _ => rfl)
      fun _ _ _ => iff_of_false not_false Bool.false_ne_true
  refine hopen.bind (fun fd => ?_) fun _ => rfl
  cases fd with
  | error e => exact tidy_returns _
  | ok fd =>
    have hstat : Balanced Event.Harmful ⟨{fd}, False⟩ (ask (.readSmallRegularFile maximum) (.fstat fd)) fun
        | .ok i => ⟨{fd}, i.isSmall maximum = false⟩
        | .error _ => .nothing :=
      balanced_look (fun _ => rfl) fun i => by simp [Event.Harmful, Event.isHarmful]
    refine hstat.bind (fun found => ?_) fun _ => rfl
    cases hsmall : found.isSmall maximum with
    | false =>
      simp only [hsmall, Bool.false_eq_true, if_false]
      exact balanced_drop rfl
    | true =>
      have hread : Calm Event.Harmful (ask (.readSmallRegularFile maximum) (.read fd maximum)) :=
        calm_look fun _ => Bool.false_ne_true
      simp only [hsmall, Bool.true_eq_false, if_true]
      refine (hread {fd}).bind (fun got => ?_) fun _ => rfl
      exact (balanced_release fd 0 False).bind (fun _ => balanced_returns rfl) fun _ => rfl

theorem tidy_bloomStatus : Tidy Event.Harmful (bloomStatus files) :=
  tidy_watchIdentity.bind fun address => (calm_ask (by simp)).tidy.bind fun executable =>
    (calm_ask (by simp)).tidy.bind fun mounted => tidy_returns _

theorem tidy_connectionStatus (g : Connections.Circumstances) (conn : Connections.ConnectionState)
    (workspaceId : String) (nfsEnabled : Bool) :
    Tidy Event.Harmful (connectionStatus g conn workspaceId nfsEnabled) :=
  (tidy_readSmallRegularFile _ _).bind fun _ => tidy_returns _

/-! ### All operations -/

/-- What an operation leaves in the hands of its caller. -/
def served : Except ControlError (Option ℕ) → Holding
  | .ok fd => fd.elim .nothing .one
  | .error _ => .nothing

lemma balanced_handing {x : Task ℕ} (hx : Balanced Event.Harmful .nothing x handed) :
    Balanced Event.Harmful .nothing (handing x) served :=
  hx.bind (fun _ => balanced_returns rfl) fun _ => rfl

lemma Tidy.handingNone {α : Type} {x : Task α} (hx : Tidy Event.Harmful x) :
    Balanced Event.Harmful .nothing (handingNone x) served :=
  Balanced.bind hx (fun _ => balanced_returns rfl) fun _ => rfl

theorem balanced_serve (op : Operation) : Balanced Event.Harmful .nothing (serve files op) served := by
  cases op with
  | openDirectory parts create => exact balanced_handing balanced_openDirectory
  | openFile parts flags createParents => exact balanced_handing balanced_openFile
  | openJobCwd path => exact balanced_handing (balanced_openJobCwd path)
  | prepareJobTmp => exact Tidy.handingNone tidy_prepareJobTmp
  | list path => exact Tidy.handingNone (tidy_list path)
  | read path offset maxBytes => exact Tidy.handingNone (tidy_read path offset maxBytes)
  | write path offset encoded truncate => exact Tidy.handingNone (tidy_write path offset encoded truncate)
  | delete path recursive => exact Tidy.handingNone (tidy_delete path recursive)
  | directoryBytes => exact Tidy.handingNone tidy_directoryBytes
  | readSmall path maximum => exact Tidy.handingNone (tidy_readSmall path maximum)
  | watchIdentity => exact Tidy.handingNone tidy_watchIdentity
  | readSmallRegularFile path maximum =>
    exact Tidy.handingNone (tidy_readSmallRegularFile path maximum)
  | bloomStatus => exact Tidy.handingNone tidy_bloomStatus
  | connectionStatus g conn workspaceId nfsEnabled =>
    exact Tidy.handingNone (tidy_connectionStatus g conn workspaceId nfsEnabled)

theorem tidy_serveAll (ops : List Operation) : Tidy Event.Harmful (serveAll files ops) := by
  induction ops with
  | nil => exact tidy_returns ()
  | cons op ops ih =>
    have hattempt : Balanced Event.Harmful .nothing (serve files op).attempt fun
        | .ok result => served result
        | .error _ => .nothing := Balanced.attempt (balanced_serve op) fun _ => rfl
    refine hattempt.bind (fun result => ?_) fun _ => rfl
    have hfinish : Balanced Event.Harmful (served result) (finish result) (kept .nothing) := by
      rcases result with e | fd | fd
      · exact balanced_returns rfl
      · exact balanced_returns rfl
      · exact balanced_release fd 0 False
    exact hfinish.bind (fun _ => ih) fun _ => rfl

/-- No operation closes a descriptor twice. One operation leaves the table as it was, with the descriptor
that it hands over, and any number of them leave it as it was, exactly when no answer was harmful. -/
theorem leaves_serve (files : Files) (table : Finset ℕ) :
    (∀ op, (serve files op).Ensures (fun _ => True)
      (fun fd s => s.stray = 0 ∧ (Leaves table fd s ↔ ∀ e ∈ s.log, ¬e.Harmful))
      (fun _ s => s.stray = 0 ∧ (Leaves table none s ↔ ∀ e ∈ s.log, ¬e.Harmful)) ⟨table, 0, []⟩) ∧
    ∀ ops, (serveAll files ops).Ensures (fun _ => True)
      (fun _ s => s.stray = 0 ∧ (Leaves table none s ↔ ∀ e ∈ s.log, ¬e.Harmful))
      (fun _ s => s.stray = 0 ∧ (Leaves table none s ↔ ∀ e ∈ s.log, ¬e.Harmful)) ⟨table, 0, []⟩ := by
  constructor
  · intro op
    refine (balanced_serve op _ table.val (add_zero _).symm).mono (fun fd s hs => ?_) fun e s hs => ?_
    · exact hs.leaves fd rfl
    · exact hs.leaves none rfl
  · intro ops
    refine (tidy_serveAll ops _ table.val (add_zero _).symm).mono (fun _ s hs => ?_) fun e s hs => ?_
    · exact hs.leaves none rfl
    · exact hs.leaves none rfl

/-- The answers of a guest where `.bloom/keystore` is empty. -/
def emptyKeystore : Answer := ⟨none, ⟨.directory, 0, 0⟩, [], [], 0, false⟩

/-- A workspace whose root is open as the descriptor 3. -/
def rootFiles : Files := ⟨3, .smallest⟩

/-- The standard streams and the root. -/
def startTable : Finset ℕ := {0, 1, 2, 3}

/-- A request for the status of a guest whose keystore is empty leaves the keystore open. -/
theorem not_leaves_serve :
    ¬∀ (files : Files) (op : Operation) (table : Finset ℕ), (serve files op).Ensures (fun _ => True)
      (fun fd s => s.stray = 0 ∧ Leaves table fd s) (fun _ s => s.stray = 0 ∧ Leaves table none s)
      ⟨table, 0, []⟩ := by
  intro h
  have hrun := (h rootFiles .bloomStatus startTable).run (fun _ => emptyKeystore) 0
  have hresult : ((serve rootFiles .bloomStatus).run (fun _ => emptyKeystore) 0
      ⟨startTable, 0, []⟩).1.toOption = some none := by decide
  have htable : ((serve rootFiles .bloomStatus).run (fun _ => emptyKeystore) 0
      ⟨startTable, 0, []⟩).2.table = {0, 1, 2, 3, 4} := by decide
  rcases hout : (serve rootFiles .bloomStatus).run (fun _ => emptyKeystore) 0 ⟨startTable, 0, []⟩ with
    ⟨e | fd, s⟩
  · rw [hout] at hresult
    cases hresult
  · rw [hout] at hrun hresult htable
    obtain rfl : fd = none := Option.some_inj.mp hresult
    have hsame : ({0, 1, 2, 3, 4} : Finset ℕ) = startTable := htable.symm.trans hrun.2
    exact absurd hsame (by decide)

end GuestDescriptors

end Bloom
