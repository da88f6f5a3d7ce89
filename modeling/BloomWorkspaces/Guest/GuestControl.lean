import BloomWorkspaces.Guest.Ceremony
import BloomWorkspaces.Guest.Identity

/-!
# The dispatcher of the guest

`handle` answers every request but those that run into a panic, a lock that is never freed or a named pipe
whose other end nobody opens. A panic would end the controller: it is explicit wherever the source unwraps,
indexes or slices.
-/

namespace Bloom

namespace GuestControl

open Action

/-! ### Responses -/

inductive OperationResult
  | value (json : Json)
  | files (entries : List WorkspaceFiles.ListEntry)
  | read (reply : WorkspaceFiles.ReadReply)
  | write (reply : WorkspaceFiles.WriteReply)
  | delete (reply : WorkspaceFiles.DeleteReply)
  | job (reply : JobReply)
  | requests (pending : List PendingRequest)

/-- What `handle` returns, without the version of the protocol. -/
inductive Response
  | ok (id : String) (result : OperationResult)
  | error (id : String) (code : ErrorCode) (message : String)

/-- The ends of a call that returns nothing. -/
inductive Crash
  | panic
  | blocked
  deriving DecidableEq, Repr

/-- What ends an operation early. -/
inductive Stop
  | error (error : ControlError)
  | crash (crash : Crash)
  deriving DecidableEq, Repr

/-! ### Surroundings -/

/-- An answer that the job engine gives in one of its steps. -/
structure EngineAnswer where
  answer : JobEngine.Answer
  given : ∃ (s : JobEngine) (event : JobEngine.Event) (s' : JobEngine),
    JobEngine.FromFiles event ∧ s.respond event = some (s', some answer)

/-- What a call meets. `pwrites` is what each `pwrite` takes, `hasBloom` the outcome of `which` and `isMounted`
that of `is_mount`. -/
structure Surroundings where
  quota : WorkspaceFiles.Quota
  pwrites : List ℕ
  connections : Connections.Circumstances
  bloom : BloomSocket
  jobs : JobRequest → EngineAnswer
  hasBloom : Bool
  isMounted : Bool

structure GuestState where
  files : Kernel
  connections : Connections.Controller

abbrev Dispatch (α : Type) := ExceptT Stop (StateM GuestState) α

section Parts

variable {α : Type}

def haltStop : Halt → Stop
  | .error e => .error e
  | .blocked => .crash .blocked

def onFiles (x : FileAction α) : Dispatch α :=
  zoom GuestState.files (fun files g => { g with files := files }) haltStop x

def onConnections (x : Connections.Control α) : Dispatch α :=
  zoom GuestState.connections (fun connections g => { g with connections := connections }) haltStop x

def faultStop : Fault → Stop
  | .error e => .error e
  | .panic => .crash .panic

/-- Every request has calls of its own. -/
def onBloom (x : Ipc α) : Dispatch α := zoom (fun _ => []) (fun _ g => g) faultStop x

def orStop (x : Except ControlError α) : Dispatch α :=
  match x with
  | .ok a => pure a
  | .error e => throw (.error e)

/-- The result of an operation. -/
def resultOf (f : α → OperationResult) (x : Dispatch α) : Dispatch OperationResult := do
  let a ← x
  pure (f a)

end Parts

/-! ### Operations -/

/-- The parts of a path become C strings, which unwraps, and where `needsLast` the last of them is
taken by its index. -/
def convertNames (validated : Except ControlError (List String)) (needsLast : Bool) : Dispatch Unit :=
  match validated with
  | .ok parts =>
    if parts.any hasNul || (needsLast && parts = []) then throw (.crash .panic) else pure ()
  | .error _ => pure ()

def operations : List String := [
  "fs.list", "fs.read", "fs.write", "fs.delete", "job.start", "job.status", "job.cancel",
  "bloom.status", "connections.configure", "ceremony.pending"]

def maxJobProcesses : ℕ := 64

def jsonLimit (name : String) (limit : ℕ) : String × Json := (name, .number (some (limit : ℤ)))

def hello : Json := .object [
  ("limits", .object [
    jsonLimit "activeJobs" maxActiveJobs,
    jsonLimit "fileBytes" WorkspaceFiles.maxFileBytes,
    jsonLimit "fileChunkBytes" WorkspaceFiles.maxFileChunkBytes,
    jsonLimit "jobLogBytes" maxLogBytes,
    jsonLimit "jobProcesses" maxJobProcesses,
    jsonLimit "jobTimeoutMs" maxJobTimeoutMs,
    jsonLimit "retainedJobs" maxRetainedJobs]),
  ("operations", .array (operations.map .string)),
  ("protocolVersion", .number (some protocolVersion))]

def bloomStatus (e : Surroundings) : Dispatch Json := do
  let address ← onFiles WorkspaceFiles.watchIdentity
  let hasAddr := address.isSome
  let identity ←
    if hasAddr then
      match address with
      | some address => pure (Json.object [("address", .string address), ("kind", .string "watch")])
      | none => throw (.crash .panic)
    else pure Json.null
  pure (.object [
    ("available", .bool (e.hasBloom && hasAddr)),
    ("capabilities", .object [
      ("bloomRead", .bool (e.hasBloom && hasAddr)),
      ("files", .bool true),
      ("jobs", .bool true),
      ("transactions", .bool false),
      ("walletSigning", .bool false)]),
    ("helper", .object [
      ("name", .string "bloom-workspace"), ("protocolVersion", .number (some protocolVersion))]),
    ("identity", identity),
    ("mount", .object [("mounted", .bool e.isMounted), ("path", .string "/bloom")])])

def jobRequest (e : Surroundings) (request : JobRequest) : Dispatch OperationResult :=
  resultOf .job (orStop (e.jobs request).answer)

def perform (e : Surroundings) (raw : Json) : String → Dispatch OperationResult
  | "hello" => pure (.value hello)
  | "fs.list" => do
    convertNames (validateWorkspaceDirectory (raw.index "path")) false
    resultOf .files (onFiles (WorkspaceFiles.list (raw.index "path")))
  | "fs.read" => do
    convertNames (validateRelativePath (raw.index "path")) false
    resultOf .read (onFiles
      (WorkspaceFiles.read (raw.index "path") (raw.index "offset") (raw.index "maxBytes")))
  | "fs.write" => do
    convertNames (validateRelativePath (raw.index "path")) false
    resultOf .write (onFiles
      (WorkspaceFiles.write e.quota e.pwrites (raw.index "path") (raw.index "offset") (raw.index "data")
        (raw.index "truncate")))
  | "fs.delete" => do
    convertNames (validateRelativePath (raw.index "path")) true
    resultOf .delete (onFiles
      (WorkspaceFiles.delete e.quota (raw.index "path") (raw.index "recursive")))
  | "job.start" => do
    convertNames (validateWorkspaceDirectory (raw.index "cwd")) false
    jobRequest e (.start (raw.index "jobId") (raw.index "argv") (raw.index "cwd")
      (raw.index "environment") (raw.index "timeoutMs"))
  | "job.status" =>
    jobRequest e (.status (raw.index "jobId") (raw.index "logOffset") (raw.index "maxBytes"))
  | "job.cancel" => jobRequest e (.cancel (raw.index "jobId"))
  | "bloom.status" => resultOf .value (bloomStatus e)
  | "connections.configure" =>
    resultOf .value (onConnections (Connections.configureConnections e.connections raw))
  | "ceremony.pending" => resultOf .requests (onBloom (ceremonyPending e.bloom))
  | _ => throw (.error (.invalidRequest "unknown guest operation"))

def operationOf (raw : Json) : String := ((raw.index "operation").asStr).getD ""

def requestId (raw : Json) : String := (((raw.index "id").asStr).filter isRequestId).getD "invalid"

def dispatch (e : Surroundings) (raw : Json) : Dispatch OperationResult := do
  orStop (validateRequest raw)
  perform e raw (operationOf raw)

def handle (e : Surroundings) (raw : Json) (g : GuestState) : Except Crash Response × GuestState :=
  match outcome (dispatch e raw) g with
  | (.ok result, g') => (.ok (.ok (requestId raw) result), g')
  | (.error (.error error), g') =>
    match truncateStr error.message 1024 with
    | some message => (.ok (.error (requestId raw) error.code message), g')
    | none => (.error .panic, g')
  | (.error (.crash crash), g') => (.error crash, g')

/-! ### Operations that cannot crash -/

/-- The handler can answer with what has ended the operation. -/
def Stop.IsHarmless : Stop → Prop
  | .error e => IsCuttable 1024 e.message
  | .crash _ => False

/-- Whatever the state, the operation ends without harm. -/
def Harmless {α : Type} (x : Dispatch α) : Prop := Yields Stop.IsHarmless (fun _ => True) x

lemma isHarmless_of_isShort {e : ControlError} (h : e.IsShort) : (Stop.error e).IsHarmless :=
  Or.inl h

section Harmless

variable {α : Type} {e : Surroundings} {raw : Json}

lemma harmless_pure (a : α) : Harmless (pure a) := Yields.pure trivial

lemma Harmless.bind {β : Type} {x : Dispatch α} {f : α → Dispatch β} (hx : Harmless x)
    (hf : ∀ a, Harmless (f a)) : Harmless (x >>= f) := Yields.bind hx fun a _ => hf a

lemma Harmless.resultOf {x : Dispatch α} {f : α → OperationResult} (hx : Harmless x) :
    Harmless (resultOf f x) := hx.bind fun a => harmless_pure (f a)

lemma harmless_orStop {x : Except ControlError α} (h : IsShortResult x) : Harmless (orStop x) := by
  cases x with
  | ok a => exact harmless_pure a
  | error e => exact Yields.throw (isHarmless_of_isShort h)

lemma harmless_onFiles {x : FileAction α} (h : ThrowsShort x) : Harmless (onFiles x) := by
  intro g
  rw [onFiles, post_zoom]
  refine (h g.files).mono (fun _ _ _ => trivial) ?_
  rintro (error | _) _ hshort
  · exact isHarmless_of_isShort hshort
  · exact hshort

/-- No part of a validated path has a zero byte, and there is a last one. -/
lemma names_of_validateRelativePath {value : Json} {parts : List String}
    (h : validateRelativePath value = .ok parts) : parts.any hasNul = false ∧ parts ≠ [] := by
  refine ⟨?_, validateRelativePath_ne_nil h⟩
  obtain ⟨s, -, hpath, rfl⟩ := validateRelativePath_ok h
  rw [List.any_eq_false]
  intro part hpart
  obtain ⟨chars, hchars, rfl⟩ := List.mem_map.mp hpart
  have hnul := hpath.noNul
  simp only [hasNul, String.toList_ofList, decide_eq_false_iff_not, decide_eq_true_eq] at hnul ⊢
  exact fun hmem => hnul (Ascii.mem_of_mem_splitOn hchars hmem)

lemma convertNames_relativePath (value : Json) (needsLast : Bool) :
    convertNames (validateRelativePath value) needsLast = pure () := by
  unfold convertNames
  split
  · rename_i parts hparts
    obtain ⟨hnul, hne⟩ := names_of_validateRelativePath hparts
    rw [hnul]
    simp only [hne, decide_false, Bool.and_false, Bool.or_false, Bool.false_eq_true, if_false]
  · rfl

lemma convertNames_directory (value : Json) :
    convertNames (validateWorkspaceDirectory value) false = pure () := by
  unfold convertNames
  split
  · rename_i parts hparts
    have hnul : parts.any hasNul = false := by
      rcases validateWorkspaceDirectory_ok hparts with ⟨-, rfl⟩ | ⟨-, hrelative⟩
      · rfl
      · exact (names_of_validateRelativePath hrelative).1
    rw [hnul]
    rfl
  · rfl

lemma harmless_jobRequest (request : JobRequest) : Harmless (jobRequest e request) := by
  obtain ⟨s, event, s', hfiles, hrespond⟩ := (e.jobs request).given
  exact Harmless.resultOf (harmless_orStop (JobEngine.short_respond hfiles hrespond))

end Harmless

/-! ### The law -/

/-- What an operation needs in order to end: the files have no named pipe to wait at, the write lock and the
mutex of the connections are free, a configuration does not get as far as NFS, and Bloom's replies are cut at
the boundaries of characters. -/
def CanEnd (e : Surroundings) (raw : Json) (g : GuestState) : String → Prop
  | "fs.read" =>
    ¬ReadWaits g.files.tree (raw.index "path") (raw.index "offset") (raw.index "maxBytes")
  | "fs.write" =>
    ¬WriteWaits g.files (raw.index "path") (raw.index "offset") (raw.index "data") (raw.index "truncate")
  | "fs.delete" => ¬DeleteWaits g.files (raw.index "path") (raw.index "recursive")
  | "bloom.status" => ¬g.files.tree.KeyWaits
  | "connections.configure" =>
    g.connections.held = false ∧ ¬Connections.ReachesNfs e.connections raw g.connections.conn
  | "ceremony.pending" => Walk.IsSafe e.bloom .initial
  | _ => True

/-- A request that is not well-formed is refused at once. -/
def IsAnswerable (e : Surroundings) (raw : Json) (g : GuestState) : Prop :=
  validateRequest raw = .ok () → CanEnd e raw g (operationOf raw)

/-- An operation ends without harm if and only if `p` holds. -/
def EndsIf {α : Type} (p : Prop) : Except Stop α × GuestState → Prop :=
  Post (fun _ _ => p) fun stop _ => p ↔ stop.IsHarmless

section Law

variable {α β : Type} {e : Surroundings} {raw : Json} {g : GuestState} {p : Prop}

lemma EndsIf.of_harmless {x : Dispatch α} (hx : Harmless x) (hp : p) : EndsIf p (outcome x g) :=
  (hx g).mono (fun _ _ _ => hp) fun _ _ hstop => ⟨fun _ => hstop, fun _ => hp⟩

lemma EndsIf.bind {x : Dispatch α} {f : α → Dispatch β} (hx : EndsIf p (outcome x g))
    (hf : ∀ a, Harmless (f a)) : EndsIf p (outcome (x >>= f) g) := by
  rw [EndsIf, post_bind]
  exact hx.mono (fun a g' hp => EndsIf.of_harmless (hf a) hp) fun _ _ hstop => hstop

lemma EndsIf.resultOf {x : Dispatch α} {f : α → OperationResult} (hx : EndsIf p (outcome x g)) :
    EndsIf p (outcome (resultOf f x) g) := hx.bind fun a => harmless_pure (f a)

lemma endsIf_onFiles {x : FileAction α} (hshort : MayWait x)
    (hwaits : (outcome x g.files).1 = .error .blocked ↔ p) : EndsIf (¬p) (outcome (onFiles x) g) := by
  rw [onFiles, EndsIf, post_zoom]
  have hpost := hshort g.files
  rcases hrun : outcome x g.files with ⟨halt | a, k'⟩
  · rw [hrun] at hpost hwaits
    cases halt with
    | error error => exact ⟨fun _ => isHarmless_of_isShort hpost, fun _ hp => nomatch hwaits.mpr hp⟩
    | blocked => exact ⟨fun hp => absurd (hwaits.mp rfl) hp, False.elim⟩
  · rw [hrun] at hwaits
    exact fun hp => nomatch hwaits.mpr hp

/-- The address is there where it is unwrapped. -/
lemma endsIf_bloomStatus : EndsIf (¬g.files.tree.KeyWaits) (outcome (bloomStatus e) g) := by
  refine (endsIf_onFiles WorkspaceFiles.short_watchIdentity watchIdentity_waits_iff).bind fun address => ?_
  cases address with
  | none => exact harmless_pure _
  | some address => exact harmless_pure _

lemma endsIf_configure :
    EndsIf (g.connections.held = false ∧
      ¬Connections.ReachesNfs e.connections raw g.connections.conn)
      (outcome (onConnections (Connections.configureConnections e.connections raw)) g) := by
  rw [onConnections, EndsIf, post_zoom]
  cases hheld : g.connections.held with
  | true =>
    rw [Connections.configureConnections, Connections.post_withConn_held hheld]
    exact ⟨fun h => absurd h.1 (by decide), False.elim⟩
  | false =>
    have hpost := (Connections.post_configureConnections hheld).and
      (Connections.short_configureConnections e.connections raw g.connections)
    refine hpost.mono ?_ ?_
    · rintro _ _ ⟨⟨hreaches, -⟩, -⟩
      exact ⟨rfl, hreaches⟩
    · rintro (error | _) _ ⟨hreaches, hshort⟩
      · exact ⟨fun _ => isHarmless_of_isShort hshort, fun _ => ⟨rfl, hreaches.1⟩⟩
      · exact ⟨fun h => h.2 hreaches, False.elim⟩

lemma endsIf_ceremony :
    EndsIf (Walk.IsSafe e.bloom .initial) (outcome (onBloom (ceremonyPending e.bloom)) g) := by
  rw [onBloom, EndsIf, post_zoom]
  refine post_ceremonyPending.mono (fun _ _ hsafe => hsafe) ?_
  rintro (error | _) _ hsafe
  · exact hsafe
  · exact hsafe

/-- Each operation ends without harm where it can end. -/
lemma endsIf_perform (operation : String) :
    EndsIf (CanEnd e raw g operation) (outcome (perform e raw operation) g) := by
  unfold perform
  split
  · exact EndsIf.of_harmless (harmless_pure _) trivial
  · rw [convertNames_directory]
    exact EndsIf.of_harmless (Harmless.resultOf (harmless_onFiles (WorkspaceFiles.short_list _))) trivial
  · rw [convertNames_relativePath]
    exact EndsIf.resultOf (endsIf_onFiles (WorkspaceFiles.short_read _ _ _) read_waits_iff)
  · rw [convertNames_relativePath]
    exact EndsIf.resultOf (endsIf_onFiles (WorkspaceFiles.short_write _ _ _ _ _ _) write_waits_iff)
  · rw [convertNames_relativePath]
    exact EndsIf.resultOf (endsIf_onFiles (WorkspaceFiles.short_delete _ _ _) delete_waits_iff)
  · rw [convertNames_directory]
    exact EndsIf.of_harmless (harmless_jobRequest _) trivial
  · exact EndsIf.of_harmless (harmless_jobRequest _) trivial
  · exact EndsIf.of_harmless (harmless_jobRequest _) trivial
  · exact EndsIf.resultOf endsIf_bloomStatus
  · exact EndsIf.resultOf endsIf_configure
  · exact EndsIf.resultOf endsIf_ceremony
  · have hcan : CanEnd e raw g operation := by
      unfold CanEnd
      split
      all_goals first | contradiction | trivial
    exact EndsIf.of_harmless
      (Yields.throw (isHarmless_of_isShort (ControlError.isShort (by decide)))) hcan

lemma endsIf_dispatch : EndsIf (IsAnswerable e raw g) (outcome (dispatch e raw) g) := by
  unfold dispatch IsAnswerable
  cases hrequest : validateRequest raw with
  | error error =>
    have hshort := short_validateRequest raw
    rw [hrequest] at hshort
    exact ⟨fun _ => isHarmless_of_isShort hshort, fun _ => nofun⟩
  | ok _ =>
    show EndsIf _ (outcome (perform e raw (operationOf raw)) g)
    rw [forall_prop_of_true rfl]
    exact endsIf_perform _

/-- The handler answers where the operation ends without harm. -/
lemma responds_iff_harmless :
    (∃ response, (handle e raw g).1 = .ok response) ↔
      Post (fun _ _ => True) (fun stop _ => stop.IsHarmless) (outcome (dispatch e raw) g) := by
  unfold handle
  rcases outcome (dispatch e raw) g with ⟨stop | result, g'⟩
  · cases stop with
    | error error =>
      show _ ↔ IsCuttable 1024 error.message
      cases hmessage : truncateStr error.message 1024 with
      | some message =>
        simp only [hmessage]
        refine ⟨fun _ => ?_, fun _ => ⟨_, rfl⟩⟩
        by_contra hnot
        rw [truncateStr_eq_none_iff.mpr hnot] at hmessage
        cases hmessage
      | none =>
        simp only [hmessage]
        refine ⟨?_, fun hcut => absurd hcut (truncateStr_eq_none_iff.mp hmessage)⟩
        rintro ⟨_, hresponse⟩
        cases hresponse
    | crash crash =>
      refine ⟨?_, False.elim⟩
      rintro ⟨_, hresponse⟩
      cases hresponse
  · exact ⟨fun _ => trivial, fun _ => ⟨_, rfl⟩⟩

end Law

/-! ### A reply that cannot be cut -/

/-- A text of which a character of two bytes is across the limit of a message. -/
def straddlingText : List Char := List.replicate 1005 'a' ++ ['é']

def straddlingError : IpcValue := .object [("error", .string (String.ofList straddlingText))]

/-- A process that answers every call with one value. -/
def constantSocket (value : IpcValue) : BloomSocket where
  exchange _ := .written [.received (Utf8.encode (value.text ++ ['\n']))]
  fromSlice _ := some value

/-- The answer to a request with a malformed id. -/
def refusedJob : EngineAnswer where
  answer := .error (.invalidRequest "job id must be a UUID")
  given := ⟨.initial, .receive .stdio (.cancel .null), .initial, trivial, rfl⟩

def guestWith (bloom : BloomSocket) : Surroundings where
  quota := .smallest
  pwrites := []
  connections := Connections.equippedGuest
  bloom := bloom
  jobs _ := refusedJob
  hasBloom := true
  isMounted := true

def ceremonyRequest : Json := .object [
  ("id", .string "1"), ("operation", .string "ceremony.pending"), ("version", .number (some 1))]

def idleState : GuestState :=
  ⟨.initial { WorkspaceTree.empty with slot := fun _ => 0 }, Connections.idleController⟩

end GuestControl

end Bloom
