import BloomWorkspaces.Guest.Connections
import BloomWorkspaces.Guest.JobEngine
import BloomWorkspaces.Guest.WorkspaceFiles

/-!
# Messages of errors

The errors of every operation but the calls to Bloom have short messages.
-/

namespace Bloom

open Action

/-- The message is not cut. -/
def ControlError.IsShort (e : ControlError) : Prop := e.message.utf8ByteSize ≤ 1024

/-- A result whose error is short. -/
def IsShortResult {α : Type} (x : Except ControlError α) : Prop :=
  Checked.Yields ControlError.IsShort (fun _ => True) x

/-- A call that waits for ever has no message. -/
def Halt.IsShort : Halt → Prop
  | .error e => e.IsShort
  | .blocked => True

/-- The call has ended, with a short error. -/
def Halt.IsShortError : Halt → Prop
  | .error e => e.IsShort
  | .blocked => False

lemma Halt.IsShortError.isShort {halt : Halt} (h : halt.IsShortError) : halt.IsShort := by
  cases halt with
  | error e => exact h
  | blocked => trivial

/-- A program that always ends, and whose errors are short. -/
def ThrowsShort {α : Type} (x : FileAction α) : Prop :=
  Yields Halt.IsShortError (fun _ => True) x

/-- A program that may wait for ever, and whose errors are short. -/
def MayWait {α : Type} (x : FileAction α) : Prop := Yields Halt.IsShort (fun _ => True) x

namespace ControlError

lemma isShort {code : ErrorCode} {message : String} (h : message.utf8ByteSize ≤ 1024) :
    IsShort ⟨code, message⟩ := h

lemma isShort_append {code : ErrorCode} {text detail : String} (h : text.utf8ByteSize ≤ 512)
    (hdetail : detail.utf8ByteSize ≤ 512) : IsShort ⟨code, text ++ detail⟩ := by
  show (text ++ detail).utf8ByteSize ≤ 1024
  rw [String.utf8ByteSize_append]
  omega

end ControlError

open ControlError

/-! ### Validation -/

namespace IsShortResult

variable {α β : Type}

lemma ok (a : α) : IsShortResult (.ok a) := trivial

lemma bind {x : Except ControlError α} {f : α → Except ControlError β} (hx : IsShortResult x)
    (hf : ∀ a, IsShortResult (f a)) : IsShortResult (x >>= f) := Checked.Yields.bind hx fun a _ => hf a

end IsShortResult

lemma short_validateRelativePath (value : Json) : IsShortResult (validateRelativePath value) := by
  unfold validateRelativePath
  split
  · exact isShort (by decide)
  · split
    · exact isShort (by decide)
    · split
      · exact isShort (by decide)
      · split
        · exact isShort (by decide)
        · split
          · exact isShort (by decide)
          · trivial

lemma short_validateWorkspaceDirectory (value : Json) :
    IsShortResult (validateWorkspaceDirectory value) := by
  unfold validateWorkspaceDirectory
  split
  · trivial
  · exact short_validateRelativePath value

lemma short_validateInteger {value : Json} {min max : ℤ} {label : String}
    (h : label.utf8ByteSize ≤ 512) : IsShortResult (validateInteger value min max label) := by
  unfold validateInteger
  split
  · exact isShort_append h (by decide)
  · split
    · exact isShort_append h (by decide)
    · trivial

lemma short_validateJobId (value : Json) : IsShortResult (validateJobId value) := by
  unfold validateJobId
  split
  · exact isShort (by decide)
  · split
    · exact isShort (by decide)
    · split
      · exact isShort (by decide)
      · trivial

lemma short_validateArgument (arg : Json) : IsShortResult (validateArgument arg) := by
  unfold validateArgument
  split
  · exact isShort (by decide)
  · split
    · exact isShort (by decide)
    · split
      · exact isShort (by decide)
      · trivial

lemma short_validateArguments (args : List Json) (total : ℕ) :
    IsShortResult (validateArguments total args) := by
  induction args generalizing total with
  | nil => trivial
  | cons arg rest ih =>
    apply IsShortResult.bind (short_validateArgument arg)
    intro s
    split
    · exact isShort (by decide)
    · exact IsShortResult.bind (ih _) fun others => IsShortResult.ok _

lemma short_validateArgv (value : Json) : IsShortResult (validateArgv value) := by
  unfold validateArgv
  split
  · split
    · exact isShort (by decide)
    · exact short_validateArguments _ 0
  · exact isShort (by decide)

lemma size_envName_le {name : String} (h : isEnvName name = true) : name.utf8ByteSize ≤ 512 := by
  have hlength : name.toList.length ≤ 64 := by
    simp only [isEnvName, Bool.and_eq_true, decide_eq_true_eq] at h
    exact h.2
  have hsize := Utf8.length_encode_le name.toList
  rw [Utf8.length_encode] at hsize
  omega

lemma short_validateVariable (name : String) (item : Json) :
    IsShortResult (validateVariable name item) := by
  unfold validateVariable
  split
  · exact isShort (by decide)
  · rename_i hname
    have hsize : name.utf8ByteSize ≤ 512 := size_envName_le (by simpa using hname)
    split
    · exact isShort_append (by decide) hsize
    · split
      · exact isShort_append (by decide) hsize
      · split
        · exact isShort_append (by decide) hsize
        · split
          · exact isShort_append (by decide) hsize
          · trivial

lemma short_validateVariables (fields : List (String × Json)) (total : ℕ) :
    IsShortResult (validateVariables total fields) := by
  induction fields generalizing total with
  | nil => trivial
  | cons p rest ih =>
    apply IsShortResult.bind (short_validateVariable p.1 p.2)
    intro val
    split
    · exact isShort (by decide)
    · exact IsShortResult.bind (ih _) fun others => IsShortResult.ok _

lemma short_validateEnvironment (value : Json) : IsShortResult (validateEnvironment value) := by
  unfold validateEnvironment
  split
  · split
    · exact isShort (by decide)
    · exact short_validateVariables _ 0
  · exact isShort (by decide)

lemma short_validateRequest (raw : Json) : IsShortResult (validateRequest raw) := by
  unfold validateRequest
  split
  · simp only
    split
    · exact isShort (by decide)
    · split
      · exact isShort (by decide)
      · split
        · exact isShort (by decide)
        · split
          · exact isShort (by decide)
          · split
            · exact isShort (by decide)
            · trivial
  · exact isShort (by decide)

/-! ### Files -/

namespace ThrowsShort

variable {α β : Type} {x : FileAction α} {f : α → FileAction β}

lemma pure (a : α) : ThrowsShort (Pure.pure a) := Yields.pure trivial

lemma refuse {e : ControlError} (h : e.IsShort) : ThrowsShort (Bloom.refuse e : FileAction α) :=
  Yields.throw (e := Halt.error e) h

lemma bind (hx : ThrowsShort x) (hf : ∀ a, ThrowsShort (f a)) : ThrowsShort (x >>= f) :=
  Yields.bind hx fun a _ => hf a

lemma perform (call : Call) (origin : Origin)
    (g : WorkspaceTree → Except Errno (Object × WorkspaceTree)) :
    ThrowsShort (Bloom.perform call origin g) := Yields.modifyGet fun _ => trivial

lemma observe (call : Call) (origin : Origin) (object : Object) (g : WorkspaceTree → α) :
    ThrowsShort (Bloom.observe call origin object g) := Yields.modifyGet fun _ => trivial

lemma alter (call : Call) (fd : Object) (g : List UInt8 → List UInt8) :
    ThrowsShort (Bloom.alter call fd g) := Yields.modifyGet fun _ => trivial

/-- A directory is opened at once. -/
lemma openat {flags : OpenFlags} (h : flags.directory = true) (origin : Origin) (dir : Object)
    (name : FileName) : ThrowsShort (Bloom.openat origin dir name flags) := by
  intro k
  rw [outcome_openat (k.tree.waits_directory dir name flags h)]
  exact perform .open origin (fun t => t.openat dir name flags) k

end ThrowsShort

namespace MayWait

variable {α β : Type} {x : FileAction α} {f : α → FileAction β}

lemma of_throwsShort (hx : ThrowsShort x) : MayWait x :=
  fun k => (hx k).mono (fun _ _ _ => trivial) fun _ _ he => he.isShort

lemma bind (hx : MayWait x) (hf : ∀ a, MayWait (f a)) : MayWait (x >>= f) :=
  Yields.bind hx fun a _ => hf a

lemma openat (origin : Origin) (dir : Object) (name : FileName) (flags : OpenFlags) :
    MayWait (Bloom.openat origin dir name flags) := by
  intro k
  cases hwaits : k.tree.waits dir name flags with
  | true =>
    rw [outcome_openat_waits hwaits]
    trivial
  | false =>
    rw [outcome_openat hwaits]
    exact of_throwsShort (ThrowsShort.perform .open origin fun t => t.openat dir name flags) k

lemma withWriteLock (hx : MayWait x) : MayWait (Bloom.withWriteLock x) := by
  intro k
  cases hlocked : k.locked with
  | true =>
    rw [outcome_withWriteLock_locked hlocked]
    trivial
  | false =>
    have hpost := hx k
    rcases hrun : outcome x k with ⟨r, k'⟩
    rw [hrun] at hpost
    by_cases hr : r = .error .blocked
    · subst hr
      rw [outcome_withWriteLock_blocked hlocked hrun]
      trivial
    · rw [outcome_withWriteLock hlocked hrun hr]
      exact hpost

end MayWait

namespace WorkspaceFiles

variable {α : Type}

lemma short_orThrow {r : Except ControlError α} (h : IsShortResult r) : ThrowsShort (orThrow r) := by
  cases r with
  | ok a => exact ThrowsShort.pure a
  | error e => exact ThrowsShort.refuse h

lemma short_orIoError (r : Except Errno α) : ThrowsShort (orIoError r) := by
  cases r with
  | ok a => exact ThrowsShort.pure a
  | error errno =>
    apply ThrowsShort.refuse
    cases errno <;> exact isShort (by decide)

lemma short_regularFile (n : FileNode) {message : String} (h : message.utf8ByteSize ≤ 1024) :
    ThrowsShort (regularFile n message) := by
  cases n with
  | file contents => exact ThrowsShort.pure contents
  | _ => exact ThrowsShort.refuse h

lemma short_onlyIf (flag : Bool) {x : FileAction Unit} (h : ThrowsShort x) :
    ThrowsShort (onlyIf flag x) := by
  unfold onlyIf
  split
  · exact h
  · exact ThrowsShort.pure ()

lemma short_makeParent (dir : Object) (name : FileName) : ThrowsShort (makeParent dir name) := by
  apply ThrowsShort.bind (ThrowsShort.perform _ _ _)
  intro r
  cases r with
  | ok object => exact ThrowsShort.observe _ _ _ _
  | error errno => exact ThrowsShort.pure ()

lemma short_descend (create : Bool) (parts : List String) (current : Object) :
    ThrowsShort (descend create current parts) := by
  induction parts generalizing current with
  | nil => exact ThrowsShort.pure current
  | cons part parts ih =>
    apply ThrowsShort.bind (short_onlyIf create (short_makeParent current (fileName part)))
    intro _
    apply ThrowsShort.bind (ThrowsShort.openat rfl _ _ _)
    intro r
    exact ThrowsShort.bind (short_orIoError r) fun next => ih next

lemma short_openDirectory (parts : List String) (create : Bool) :
    ThrowsShort (openDirectory parts create) := by
  apply ThrowsShort.bind (ThrowsShort.openat rfl _ _ _)
  intro r
  exact ThrowsShort.bind (short_orIoError r) fun current => short_descend create parts current

lemma short_openFile (parts : List String) (flags : OpenFlags) (createParents : Bool) :
    MayWait (openFile parts flags createParents) := by
  unfold openFile
  split
  · exact MayWait.of_throwsShort (ThrowsShort.refuse (isShort (by decide)))
  · apply MayWait.bind (MayWait.of_throwsShort (short_openDirectory _ createParents))
    intro parent
    exact MayWait.bind (MayWait.openat _ _ _ _) fun r => MayWait.of_throwsShort (short_orIoError r)

/-- The error that a walk returns beside its counters. -/
def ShortScan (r : Scan × Option ControlError) : Prop := ∀ e ∈ r.2, e.IsShort

/-- A program of a walk throws nothing long and returns no long error. -/
def ScansShort (x : FileAction (Scan × Option ControlError)) : Prop :=
  Yields Halt.IsShortError ShortScan x

lemma short_scanEntry {enter : Object → Scan → FileAction (Scan × Option ControlError)}
    (henter : ∀ fd s, ScansShort (enter fd s)) (fd : Object) (name : FileName) (s : Scan) :
    ScansShort (scanEntry enter fd name s) := by
  apply Yields.bind (ThrowsShort.observe _ _ _ _)
  intro r _
  split
  · split
    · refine Yields.pure ?_
      rintro e ⟨⟩
      exact isShort (by decide)
    · exact Yields.pure nofun
  · apply Yields.bind (ThrowsShort.openat rfl _ _ _)
    intro r _
    cases r with
    | ok child => exact Yields.bind (henter child s) fun _ _ => Yields.pure nofun
    | error errno => exact Yields.pure nofun
  · exact Yields.pure nofun

lemma short_scanNames {enter : Object → Scan → FileAction (Scan × Option ControlError)}
    (henter : ∀ fd s, ScansShort (enter fd s)) (fd : Object) (names : List FileName) (s : Scan) :
    ScansShort (scanNames enter fd names s) := by
  induction names generalizing s with
  | nil => exact Yields.pure nofun
  | cons raw rest ih =>
    unfold scanNames
    split
    · exact ih s
    · apply Yields.bind (short_scanEntry henter fd _ s)
      rintro ⟨s', _ | e⟩ hshort
      · exact ih s'
      · exact Yields.pure hshort

lemma short_walkDirBytes (fuel : ℕ) (fd : Object) (s : Scan) :
    ScansShort (walkDirBytes fuel fd s) := by
  induction fuel generalizing fd s with
  | zero => exact Yields.pure nofun
  | succ fuel ih =>
    apply Yields.bind (ThrowsShort.openat rfl _ _ _)
    intro r _
    cases r with
    | ok dirp =>
      exact Yields.bind (ThrowsShort.observe _ _ _ _) fun names _ => short_scanNames ih fd names s
    | error errno =>
      refine Yields.pure ?_
      rintro e ⟨⟩
      exact isShort (by decide)

lemma short_directoryBytes : ThrowsShort directoryBytes := by
  apply Yields.bind (short_walkDirBytes _ _ _)
  rintro ⟨s, _ | e⟩ hshort
  · exact Yields.pure trivial
  · exact ThrowsShort.refuse (hshort e rfl)

lemma short_listEntries (dir : Object) (pathPrefix : FileName) (names : List FileName) :
    ThrowsShort (listEntries dir pathPrefix names) := by
  induction names with
  | nil => exact ThrowsShort.pure []
  | cons name rest ih =>
    apply ThrowsShort.bind (ThrowsShort.observe _ _ _ _)
    intro r
    cases r with
    | ok n => exact ThrowsShort.bind ih fun others => ThrowsShort.pure _
    | error errno => exact ih

lemma short_list (path : Json) : ThrowsShort (list path) := by
  apply ThrowsShort.bind (short_orThrow (short_validateWorkspaceDirectory path))
  intro parts
  apply ThrowsShort.bind (short_openDirectory parts false)
  intro dir
  apply ThrowsShort.bind (ThrowsShort.openat rfl _ _ _)
  intro r
  cases r with
  | ok dirp =>
    apply ThrowsShort.bind (ThrowsShort.observe _ _ _ _)
    intro names
    split
    · exact ThrowsShort.refuse (isShort (by decide))
    · exact short_listEntries _ _ _
  | error errno => exact ThrowsShort.refuse (isShort (by decide))

lemma short_readChunk (parts : List String) (fd : Object) (start limit : ℕ) :
    ThrowsShort (readChunk parts fd start limit) := by
  apply ThrowsShort.bind (ThrowsShort.observe _ _ _ _)
  intro n
  apply ThrowsShort.bind (short_regularFile n (by decide))
  intro contents
  split
  · exact ThrowsShort.refuse (isShort (by decide))
  · split
    · exact ThrowsShort.refuse (isShort (by decide))
    · exact ThrowsShort.bind (ThrowsShort.observe _ _ _ _) fun buf => ThrowsShort.pure _

lemma short_read (path offset maxBytes : Json) : MayWait (read path offset maxBytes) := by
  apply MayWait.bind (MayWait.of_throwsShort (short_orThrow (short_validateRelativePath path)))
  intro parts
  apply MayWait.bind (MayWait.of_throwsShort (short_orThrow (short_validateInteger (by decide))))
  intro start
  apply MayWait.bind (MayWait.of_throwsShort (short_orThrow (short_validateInteger (by decide))))
  intro limit
  exact MayWait.bind (short_openFile parts {} false) fun fd =>
    MayWait.of_throwsShort (short_readChunk parts fd _ _)

lemma short_writeFields (path offset encoded truncate : Json) :
    IsShortResult (writeFields path offset encoded truncate) := by
  apply IsShortResult.bind (short_validateRelativePath path)
  intro parts
  apply IsShortResult.bind (short_validateInteger (by decide))
  intro start
  split
  · exact isShort (by decide)
  · exact isShort (by decide)
  · split
    · exact isShort (by decide)
    · split
      · exact isShort (by decide)
      · simp only
        split
        · exact isShort (by decide)
        · split
          · exact isShort (by decide)
          · trivial

lemma short_pwriteAll (fd : Object) (pwrites : List ℕ) (chunk : List UInt8) (start : ℕ) :
    ThrowsShort (pwriteAll fd pwrites chunk start) := by
  induction pwrites generalizing chunk start with
  | nil =>
    unfold pwriteAll
    split
    · exact ThrowsShort.pure ()
    · exact ThrowsShort.alter _ _ _
  | cons n pwrites ih =>
    unfold pwriteAll
    split
    · exact ThrowsShort.pure ()
    · split
      · exact ThrowsShort.bind (ThrowsShort.observe _ _ _ _) fun _ =>
          ThrowsShort.refuse (isShort (by decide))
      · exact ThrowsShort.bind (ThrowsShort.alter _ _ _) fun _ => ih _ _

lemma short_writeChunk (quota : Quota) (pwrites : List ℕ) (r : WriteFields) (fd : Object) :
    ThrowsShort (writeChunk quota pwrites r fd) := by
  apply ThrowsShort.bind (ThrowsShort.observe _ _ _ _)
  intro _
  apply ThrowsShort.bind (ThrowsShort.observe _ _ _ _)
  intro n
  apply ThrowsShort.bind (short_regularFile n (by decide))
  intro contents
  apply ThrowsShort.bind short_directoryBytes
  intro used
  split
  · exact ThrowsShort.refuse (isShort (by decide))
  · apply ThrowsShort.bind (short_onlyIf r.truncate (ThrowsShort.alter _ _ _))
    intro _
    apply ThrowsShort.bind (short_pwriteAll fd pwrites r.chunk r.start)
    intro _
    exact ThrowsShort.bind (ThrowsShort.observe _ _ _ _) fun after => ThrowsShort.pure _

lemma short_write (quota : Quota) (pwrites : List ℕ) (path offset encoded truncate : Json) :
    MayWait (write quota pwrites path offset encoded truncate) := by
  apply MayWait.bind
    (MayWait.of_throwsShort (short_orThrow (short_writeFields path offset encoded truncate)))
  intro r
  apply MayWait.withWriteLock
  exact MayWait.bind (short_openFile r.parts writeFlags true) fun fd =>
    MayWait.of_throwsShort (short_writeChunk quota pwrites r fd)

lemma short_deleteFile (quota : Quota) (parts : List String) : ThrowsShort (deleteFile quota parts) := by
  apply ThrowsShort.bind (short_openDirectory _ false)
  intro parent
  apply ThrowsShort.bind (ThrowsShort.observe _ _ _ _)
  intro r
  apply ThrowsShort.bind (short_orIoError r)
  intro n
  apply ThrowsShort.bind (short_regularFile n (by decide))
  intro _
  apply ThrowsShort.bind (ThrowsShort.perform _ _ _)
  intro r'
  apply ThrowsShort.bind (short_orIoError r')
  intro _
  exact ThrowsShort.bind short_directoryBytes fun used => ThrowsShort.pure _

lemma short_delete (quota : Quota) (path recursive : Json) : MayWait (delete quota path recursive) := by
  apply MayWait.bind (MayWait.of_throwsShort (short_orThrow (short_validateRelativePath path)))
  intro parts
  split
  · exact MayWait.of_throwsShort (ThrowsShort.refuse (isShort (by decide)))
  · exact MayWait.withWriteLock (MayWait.of_throwsShort (short_deleteFile quota parts))

lemma short_openJobCwd (path : Json) : ThrowsShort (openJobCwd path) :=
  ThrowsShort.bind (short_orThrow (short_validateWorkspaceDirectory path)) fun parts =>
    short_openDirectory parts false

end WorkspaceFiles

/-! ### Jobs -/

namespace JobEngine

/-- An error of a launch is one of `open_job_cwd`. -/
def FromFiles : Event → Prop
  | .launch _ _ (.noDirectory e) =>
    ∃ path k k', outcome (WorkspaceFiles.openJobCwd path) k = (.error (.error e), k')
  | _ => True

variable {s s' : JobEngine} {t : Transport} {answer : Answer}

lemma short_validateStart (jobId argv cwd environment timeoutMs : Json) :
    IsShortResult (validateStart jobId argv cwd environment timeoutMs) := by
  apply IsShortResult.bind (short_validateJobId jobId)
  intro id
  apply IsShortResult.bind (short_validateArgv argv)
  intro args
  apply IsShortResult.bind (short_validateWorkspaceDirectory cwd)
  intro parts
  apply IsShortResult.bind (short_validateInteger (by decide))
  intro timeout
  exact IsShortResult.bind (short_validateEnvironment environment) fun vars => IsShortResult.ok _

lemma short_receive {request : JobRequest} (h : s.receive t request = (s', some answer)) :
    IsShortResult answer := by
  cases request with
  | start jobId argv cwd environment timeoutMs =>
    simp only [receive] at h
    split at h
    · rename_i e he
      cases h
      have hshort := short_validateStart jobId argv cwd environment timeoutMs
      rw [he] at hshort
      exact hshort
    · cases h
  | status jobId logOffset maxBytes =>
    simp only [receive] at h
    split at h
    · rename_i e he
      cases h
      have hshort : IsShortResult (do
          let jobId ← validateJobId jobId
          let logOffset ← validateInteger logOffset 0 (2 ^ 53 - 1) "log cursor"
          let maxBytes ← validateInteger maxBytes 1 maxLogChunkBytes "log read size"
          return (jobId, logOffset, maxBytes)) := by
        apply IsShortResult.bind (short_validateJobId jobId)
        intro id
        apply IsShortResult.bind (short_validateInteger (by decide))
        intro offset
        exact IsShortResult.bind (short_validateInteger (by decide)) fun size => IsShortResult.ok _
      rw [he] at hshort
      exact hshort
    · split at h
      · cases h
        exact isShort (by decide)
      · cases h
  | cancel jobId =>
    simp only [receive] at h
    split at h
    · rename_i e he
      cases h
      have hshort := short_validateJobId jobId
      rw [he] at hshort
      exact hshort
    · split at h
      · cases h
        exact isShort (by decide)
      · cases h

lemma short_checkLimits (jobId : String) : IsShortResult (s.checkLimits jobId) := by
  unfold checkLimits
  split
  · exact isShort (by decide)
  · split
    · exact isShort (by decide)
    · trivial

/-- Every answer of the engine is a status or a short error. -/
lemma short_respond {event : Event} (hfiles : FromFiles event)
    (h : s.respond event = some (s', some answer)) : IsShortResult answer := by
  cases event with
  | receive t request =>
    simp only [respond] at h
    split at h
    · exact short_receive (Option.some.inj h)
    · cases h
  | checkLimits t =>
    simp only [respond] at h
    split at h
    · rename_i spec _
      split at h
      · rename_i e he
        cases h
        have hshort := short_checkLimits (s := s) spec.jobId
        rw [he] at hshort
        exact hshort
      · cases h
    · cases h
  | prune t =>
    simp only [respond] at h
    split at h <;> cases h
  | checkRetained t =>
    simp only [respond] at h
    split at h
    · split at h
      · cases h
        exact isShort (by decide)
      · cases h
    · cases h
  | launch t createdAt launch =>
    simp only [respond] at h
    split at h
    · cases launch with
      | noDirectory e =>
        cases h
        obtain ⟨path, k, k', hrun⟩ := hfiles
        have hshort := WorkspaceFiles.short_openJobCwd path k
        rw [hrun] at hshort
        exact hshort
      | failed error finishedAt => cases h
      | spawned pid startedAt => cases h
    · cases h
  | insert t =>
    simp only [respond] at h
    split at h <;> cases h
  | push t =>
    simp only [respond] at h
    split at h
    · cases h
      trivial
    · cases h
    · cases h
  | report t =>
    simp only [respond] at h
    split at h
    · obtain ⟨job, -, hjob⟩ := Option.map_eq_some_iff.mp h
      cases hjob
      trivial
    · cases h
  | cancel t appended =>
    simp only [respond] at h
    split at h
    · obtain ⟨job, -, hjob⟩ := Option.map_eq_some_iff.mp h
      simp only [cancelJob] at hjob
      split at hjob
      · cases hjob
        trivial
      · split at hjob
        · cases hjob
          exact isShort (by decide)
        · cases hjob
          trivial
    · cases h
  | output ref chunk =>
    simp only [respond] at h
    split at h <;> cases h
  | waiterReads ref timedOut status =>
    simp only [respond] at h
    split at h <;> cases h
  | waiterWrites ref now =>
    simp only [respond] at h
    split at h <;> cases h

end JobEngine

/-! ### Connections -/

namespace Connections

/-- A program of the connections whose errors are short. -/
def FailsShort {α : Type} (x : Control α) : Prop := Yields Halt.IsShort (fun _ => True) x

namespace FailsShort

variable {α β : Type} {x : Control α} {f : α → Control β}

lemma pure (a : α) : FailsShort (Pure.pure a) := Yields.pure trivial

lemma fail {e : ControlError} (h : e.IsShort) : FailsShort (Connections.fail e : Control α) :=
  Yields.throw h

lemma change (g : Controller → Controller) : FailsShort (modify g : Control PUnit) :=
  Yields.modifyGet fun _ => trivial

lemma bind (hx : FailsShort x) (hf : ∀ a, FailsShort (f a)) : FailsShort (x >>= f) :=
  Yields.bind hx fun a _ => hf a

/-- The state is read. -/
lemma look {f : Controller → Control β} (hf : ∀ c, FailsShort (f c)) : FailsShort (get >>= f) :=
  bind (Yields.modifyGet fun _ => trivial) hf

lemma liftResult {r : Except ControlError α} (h : IsShortResult r) :
    FailsShort (Connections.liftResult r) := by
  cases r with
  | ok a => exact pure a
  | error e => exact fail h

lemma onError {handler : ControlError → Control α} (hx : FailsShort x)
    (hh : ∀ e, e.IsShort → FailsShort (handler e)) : FailsShort (Connections.onError x handler) := by
  apply Yields.tryCatch hx
  intro halt hhalt
  cases halt with
  | error e => exact hh e hhalt
  | blocked => exact Yields.throw trivial

lemma withConn (hx : FailsShort x) : FailsShort (Connections.withConn x) := by
  have hlock : FailsShort lock := by
    apply look
    intro c
    split
    · exact Yields.throw trivial
    · exact change _
  apply bind hlock
  intro _
  apply bind
  · apply onError hx
    intro e he
    exact bind (change _) fun _ => fail he
  · intro a
    exact bind (change _) fun _ => pure a

end FailsShort

variable {g : Circumstances} {request : Json} {fields : ConfigureFields}

lemma short_stopPartialNfs : FailsShort (stopPartialNfs g) := by
  apply FailsShort.look
  intro c
  simp only
  split
  · split
    · exact FailsShort.bind (FailsShort.change _) fun _ => FailsShort.change _
    · exact FailsShort.change _
  · exact FailsShort.change _

lemma short_failNfs {message : String} (h : message.utf8ByteSize ≤ 1024) :
    FailsShort (failNfs g message) :=
  FailsShort.bind (FailsShort.withConn short_stopPartialNfs) fun _ => FailsShort.fail h

lemma short_requireTools (tools : List Tool) : FailsShort (requireTools g tools) := by
  induction tools with
  | nil => exact FailsShort.pure ()
  | cons tool tools ih =>
    unfold requireTools
    split
    · exact ih
    · apply short_failNfs
      cases tool <;> decide

lemma short_startMountd : FailsShort (startMountd g) := by
  unfold startMountd
  split
  · refine FailsShort.bind (FailsShort.change _) fun _ => ?_
    split
    · exact FailsShort.withConn (FailsShort.change _)
    · exact short_failNfs (by decide)
  · exact short_failNfs (by decide)

lemma short_startNfs : FailsShort (startNfs g) := by
  apply FailsShort.bind (short_requireTools _)
  intro _
  refine FailsShort.bind ?_ fun _ => FailsShort.bind ?_ fun _ =>
    FailsShort.bind short_startMountd fun _ => ?_
  · unfold mountNfsd
    split
    · exact FailsShort.pure ()
    · exact short_failNfs (by decide)
  · unfold exportWorkspace
    split
    · exact FailsShort.pure ()
    · exact short_failNfs (by decide)
  · unfold startNfsd
    split
    · exact FailsShort.pure ()
    · exact short_failNfs (by decide)

lemma short_startDaemons : FailsShort (startDaemons g fields) := by
  unfold startDaemons
  split
  · exact FailsShort.fail (isShort (by decide))
  · rename_i pid _
    have hlast : FailsShort (do
        modify (Controller.setConn fun conn =>
          { conn with sshd := some pid, scope := some fields.scope })
        let c ← get
        pure (connectionStatus g c.conn fields.workspaceId fields.nfsEnabled)) :=
      FailsShort.bind (FailsShort.change _) fun _ => FailsShort.look fun c => FailsShort.pure _
    refine FailsShort.bind (FailsShort.change _) fun _ => ?_
    simp only
    split
    · refine FailsShort.bind ?_ fun _ => FailsShort.bind (FailsShort.change _) fun _ => hlast
      apply FailsShort.onError short_startNfs
      intro e he
      exact FailsShort.bind (FailsShort.change _) fun _ => FailsShort.fail he
    · exact hlast

lemma short_stringField {key message : String} {accepts : String → Bool}
    (h : message.utf8ByteSize ≤ 1024) : IsShortResult (stringField request key accepts message) := by
  unfold stringField
  split
  · exact isShort h
  · split
    · trivial
    · exact isShort h

lemma short_configureFields : IsShortResult (configureFields request) := by
  apply IsShortResult.bind (short_stringField (by decide))
  intro workspaceId
  apply IsShortResult.bind (short_stringField (by decide))
  intro wallet
  apply IsShortResult.bind (short_stringField (by decide))
  intro caPublicKey
  refine IsShortResult.bind ?_ fun nfsEnabled => IsShortResult.ok _
  unfold boolField
  split
  · exact isShort (by decide)
  · trivial

lemma short_checkPayload (caPublicKey : String) : IsShortResult (checkPayload caPublicKey) := by
  unfold checkPayload
  simp only
  split
  · exact isShort (by decide)
  · split
    · exact isShort (by decide)
    · trivial

lemma short_prepareSshd : IsShortResult (prepareSshd g fields) := by
  unfold prepareSshd
  split
  · exact isShort (by decide)
  · split
    · exact isShort (by decide)
    · split
      · rename_i error he
        have hshort := short_checkPayload fields.caPublicKey
        rw [he] at hshort
        exact hshort
      · split
        · exact isShort (by decide)
        · split
          · exact isShort (by decide)
          · split
            · exact isShort (by decide)
            · trivial

lemma short_configureConnections (g : Circumstances) (request : Json) :
    FailsShort (configureConnections g request) := by
  apply FailsShort.withConn
  apply FailsShort.bind (FailsShort.liftResult short_configureFields)
  intro fields
  apply FailsShort.look
  intro c
  split
  · split
    · exact FailsShort.pure _
    · exact FailsShort.fail (isShort (by decide))
  · exact FailsShort.bind (FailsShort.liftResult short_prepareSshd) fun _ => short_startDaemons

end Connections

end Bloom
