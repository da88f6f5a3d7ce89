import BloomWorkspaces.Agent.GuestWorkspace
import BloomWorkspaces.Guest.JobTable

/-!
# The status of a job on the host

The schema `JobStatus` of the host against the replies of the job engine.
-/

namespace Bloom

/-! ### The schema -/

/-- `z.string().uuid()` -/
def isZodUuid (chars : List Char) : Bool :=
  (hasUuidShape chars && (chars[14]?).any (fun c => '1' ≤ c && c ≤ '8') &&
    (chars[19]?).any (· ∈ ['8', '9', 'a', 'b', 'A', 'B'])) ||
  chars = "00000000-0000-0000-0000-000000000000".toList ||
  chars = "ffffffff-ffff-ffff-ffff-ffffffffffff".toList

/-- `z.number().int().nonnegative()` -/
def isSafeNatural (n : ℕ) : Bool := n ≤ maxSafeInteger

/-- `JobLogChunk` -/
def isJobLogChunk (value : LogChunk) : Bool :=
  isSafeNatural value.offset && isSafeNatural value.nextOffset && isSafeNatural value.endOffset &&
    value.encoding = "base64" &&
    (value.offset ≤ value.nextOffset && value.nextOffset ≤ value.endOffset) &&
    (Base64.encode (Base64.decode value.data) = value.data &&
      (Base64.decode value.data).length ≤ maxLogChunkBytes &&
      value.offset + (Base64.decode value.data).length = value.nextOffset)

/-- The `logs` of a status; an error object is no log chunk. -/
def isLogsField : Except String LogChunk → Bool
  | .ok logs => isJobLogChunk logs
  | .error _ => false

/-- `JobStatus` -/
def isJobStatus (job : JobReply) : Bool :=
  isZodUuid job.jobId.toList && isSafeNatural job.createdAt && job.startedAt.all isSafeNatural &&
    job.finishedAt.all isSafeNatural && job.exitCode.all isSafeNatural &&
    job.signal.all (fun n => isSafeNatural n && 0 < n) &&
    (1000 ≤ job.timeoutMs && job.timeoutMs ≤ maxJobTimeoutMs) &&
    isLogsField job.logs &&
    job.state.isTerminal = job.finishedAt.isSome &&
    decide (job.state = .queued) = job.startedAt.isNone &&
    (job.state ≠ .succeeded || job.exitCode = some 0)

lemma isZodUuid_of_isUuidText {chars : List Char} (h : isUuidText chars = true) :
    isZodUuid chars = true := by
  simp only [isUuidText, Bool.and_eq_true, decide_eq_true_eq] at h
  obtain ⟨⟨hshape, hversion⟩, hvariant⟩ := h
  obtain ⟨c, hc, hin⟩ := (Option.any_eq_true _ _).mp hvariant
  have hmore : (chars[19]?).any (· ∈ ['8', '9', 'a', 'b', 'A', 'B']) = true := by
    rw [hc, Option.any_some, decide_eq_true_eq]
    rw [decide_eq_true_eq] at hin
    exact List.mem_append_left ['A', 'B'] hin
  rw [isZodUuid, hshape, hversion, hmore]
  rfl

/-- A slice is a chunk for the host if the cursor is within the ring and its numbers fit. -/
lemma isLogsField_statusOfInner {job : Job} {cursor maximum : ℕ}
    (hmaximum : maximum ≤ maxLogChunkBytes) :
    isLogsField (JobEngine.statusOfInner job cursor maximum).logs = true ↔
      cursor ≤ job.logs.endOffset ∧ job.logs.endOffset ≤ maxSafeInteger := by
  by_cases hcursor : job.logs.endOffset < cursor
  · rw [JobEngine.statusOfInner, LogRing.slice, if_pos hcursor]
    simp only [isLogsField, Bool.false_eq_true, false_iff]
    omega
  · have hoffsets := job.logs.offsets
    have hlength := job.logs.length_chunkAt maximum (Nat.le_max_right cursor job.logs.startOffset)
    have hoffset : max cursor job.logs.startOffset ≤ job.logs.endOffset := by omega
    rw [JobEngine.statusOfInner, LogRing.slice, if_neg hcursor]
    simp only [isLogsField, isJobLogChunk, Base64.decode_encode, isSafeNatural, Bool.and_eq_true,
      decide_eq_true_eq, hlength, and_true, true_and]
    generalize max cursor job.logs.startOffset = offset at hoffset ⊢
    omega

/-! ### Jobs that the schema accepts -/

/-- A start after its validation. -/
structure StartSpec.Ok (spec : StartSpec) : Prop where
  jobId : isUuidText spec.jobId.toList = true
  timeout : 1000 ≤ spec.timeoutMs ∧ spec.timeoutMs ≤ maxJobTimeoutMs

/-- What the schema asks of a job apart from its logs and the size of its numbers. -/
structure Job.Ok (job : Job) : Prop where
  jobId : isUuidText job.jobId.toList = true
  timeout : 1000 ≤ job.timeoutMs ∧ job.timeoutMs ≤ maxJobTimeoutMs
  finished : job.state.isTerminal = job.finishedAt.isSome
  started : job.startedAt.isSome = job.pid.isSome
  unqueued : job.state ≠ .queued
  exit_zero : job.state = .succeeded → job.exitCode = some 0
  exit_lt : ∀ n, job.exitCode = some n → n < 256
  signal_range : ∀ n, job.signalNumber = some n → 0 < n ∧ n < 128

/-- The numbers that nothing bounds are safe integers of JavaScript. -/
structure Job.Fits (job : Job) : Prop where
  createdAt : job.createdAt ≤ maxSafeInteger
  startedAt : ∀ n, job.startedAt = some n → n ≤ maxSafeInteger
  finishedAt : ∀ n, job.finishedAt = some n → n ≤ maxSafeInteger
  logs : job.logs.endOffset ≤ maxSafeInteger

namespace JobEngine

variable {s s' : JobEngine}

lemma isSafeNatural_iff {n : ℕ} : isSafeNatural n = true ↔ n ≤ maxSafeInteger := decide_eq_true_iff

lemma all_isSafeNatural_iff {value : Option ℕ} :
    value.all isSafeNatural = true ↔ ∀ n, value = some n → n ≤ maxSafeInteger := by
  cases value with
  | none => simp
  | some n => simp [isSafeNatural]

/-- The reply about a job is accepted if its process was spawned and the cursor is within its log. -/
lemma isJobStatus_statusOfInner {job : Job} {cursor maximum : ℕ} (hok : job.Ok)
    (hmaximum : maximum ≤ maxLogChunkBytes) :
    isJobStatus (statusOfInner job cursor maximum) = true ↔
      job.pid.isSome = true ∧ cursor ≤ job.logs.endOffset ∧ job.Fits := by
  have hexit : (job.exitCode).all isSafeNatural = true :=
    all_isSafeNatural_iff.mpr fun n hn => by
      have hlt := hok.exit_lt n hn
      rw [maxSafeInteger]
      omega
  have hsignal : (job.signalNumber).all (fun n => isSafeNatural n && 0 < n) = true := by
    cases hn : job.signalNumber with
    | none => rfl
    | some n =>
      have hrange := hok.signal_range n hn
      rw [Option.all_some, Bool.and_eq_true, isSafeNatural_iff, decide_eq_true_eq, maxSafeInteger]
      omega
  have hsucceeded : (job.state ≠ .succeeded || job.exitCode = some 0) = true := by
    by_cases hstate : job.state = .succeeded
    · rw [hok.exit_zero hstate, decide_eq_true rfl, Bool.or_true]
    · rw [decide_eq_true hstate, Bool.true_or]
  have hqueued : decide (job.state = .queued) = false := decide_eq_false hok.unqueued
  simp only [isJobStatus, Bool.and_eq_true, isLogsField_statusOfInner hmaximum]
  simp only [statusOfInner, isZodUuid_of_isUuidText hok.jobId, hexit, hsignal, hsucceeded, hqueued,
    all_isSafeNatural_iff, isSafeNatural_iff, hok.finished, hok.timeout, decide_eq_true_eq, true_and,
    and_true]
  have hpid : false = job.startedAt.isNone ↔ job.pid.isSome = true := by
    rw [← hok.started]
    cases job.startedAt with
    | none => simp
    | some n => simp
  rw [hpid]
  constructor
  · rintro ⟨⟨⟨⟨hcreated, hstarted⟩, hfinished⟩, hcursor, hlogs⟩, hspawned⟩
    exact ⟨hspawned, hcursor, hcreated, hstarted, hfinished, hlogs⟩
  · rintro ⟨hspawned, hcursor, hfits⟩
    exact ⟨⟨⟨⟨hfits.createdAt, hfits.startedAt⟩, hfits.finishedAt⟩, hcursor, hfits.logs⟩, hspawned⟩

/-! ### Runs -/

/-- What the local variables of a thread hold. -/
def HandlerOk : Handler → Prop
  | .checkLimits spec | .prune spec | .checkRetained spec | .launch spec => spec.Ok
  | .insert _ _ (some reply) | .push _ _ (some reply) =>
    reply.startedAt = none ∧ reply.state = .failed
  | .report _ _ maximum => maximum ≤ maxLogChunkBytes
  | _ => True

structure StatusInv (s : JobEngine) : Prop where
  jobs : ∀ job ∈ s.jobs, job.Ok
  handlers : ∀ t, HandlerOk (s.handler t)

lemma StatusInv.setHandler (hinv : StatusInv s) {t : Transport} {h : Handler} (hok : HandlerOk h) :
    StatusInv (s.setHandler t h) where
  jobs := hinv.jobs
  handlers t' := by
    by_cases hsame : t' = t
    · rw [hsame, setHandler_self]
      exact hok
    · have hother : (s.setHandler t h).handler t' = s.handler t' := Function.update_of_ne hsame _ _
      rw [hother]
      exact hinv.handlers t'

lemma StatusInv.mapJobs (hinv : StatusInv s) {f : Job → Job}
    (hf : ∀ job ∈ s.jobs, job.Ok → (f job).Ok) : StatusInv { s with jobs := s.jobs.map f } where
  jobs job hjob := by
    obtain ⟨old, hold, rfl⟩ := List.mem_map.mp hjob
    exact hf old hold (hinv.jobs old hold)
  handlers := hinv.handlers

lemma StatusInv.updateJob (hinv : StatusInv s) {f : Job → Job} (hf : ∀ job : Job, job.Ok → (f job).Ok)
    (ref : ℕ) : StatusInv (s.updateJob ref f) := by
  refine hinv.mapJobs fun job _ hok => ?_
  split
  · exact hf job hok
  · exact hok

lemma StatusInv.addJob (hinv : StatusInv s) {job : Job} (hok : job.Ok) :
    StatusInv { s with jobs := s.jobs ++ [job] } where
  jobs job' hjob' := by
    rcases List.mem_append.mp hjob' with hold | hnew
    · exact hinv.jobs job' hold
    · rw [List.mem_singleton.mp hnew]
      exact hok
  handlers := hinv.handlers

lemma StatusInv.pruneLoop (turns : ℕ) (hinv : StatusInv s) : StatusInv (pruneLoop turns s) := by
  induction turns generalizing s with
  | zero => exact hinv
  | succ turns ih =>
    rw [JobEngine.pruneLoop]
    split
    · exact hinv
    · split
      · refine ih ⟨fun job hjob => ?_, hinv.handlers⟩
        obtain ⟨old, hold, rfl⟩ := Table.mem_updateWhere.mp hjob
        have hok := hinv.jobs old hold
        split
        · exact { hok with }
        · exact hok
      · exact hinv

lemma validateStart_ok {jobId argv cwd environment timeoutMs : Json} {spec : StartSpec}
    (h : validateStart jobId argv cwd environment timeoutMs = .ok spec) : spec.Ok := by
  rw [validateStart] at h
  obtain ⟨id, hid, h⟩ := Checked.of_bind_ok h
  obtain ⟨args, -, h⟩ := Checked.of_bind_ok h
  obtain ⟨parts, -, h⟩ := Checked.of_bind_ok h
  obtain ⟨timeout, htimeout, h⟩ := Checked.of_bind_ok h
  obtain ⟨env, -, h⟩ := Checked.of_bind_ok h
  cases h
  refine ⟨validateJobId_ok hid, ?_⟩
  have hrange := validateInteger_ok htimeout
  show 1000 ≤ timeout.toNat ∧ timeout.toNat ≤ maxJobTimeoutMs
  omega

lemma failedJob_ok {spec : StartSpec} (hspec : spec.Ok) (ref createdAt : ℕ) (error : String)
    (finishedAt : ℕ) : (failedJob ref spec createdAt error finishedAt).Ok :=
  ⟨hspec.jobId, hspec.timeout, rfl, rfl, nofun, nofun, nofun, nofun⟩

lemma spawnedJob_ok {spec : StartSpec} (hspec : spec.Ok) (ref createdAt pid startedAt : ℕ) :
    (spawnedJob ref spec createdAt pid startedAt).Ok :=
  ⟨hspec.jobId, hspec.timeout, rfl, rfl, nofun, nofun, nofun, nofun⟩

lemma waiter_ok (waiter : Job → Waiter) (job : Job) (hok : job.Ok) :
    ({ job with waiter := waiter job } : Job).Ok := { hok with }

lemma logs_ok (logs : Job → LogRing) (job : Job) (hok : job.Ok) :
    ({ job with logs := logs job } : Job).Ok := { hok with }

lemma requestCancel_ok (appended : List UInt8) (job : Job) (hok : job.Ok) :
    (requestCancel appended job).Ok := { hok with }

lemma finishJob_ok {job : Job} (hok : job.Ok) (outcome : JobOutcome) (now : ℕ) :
    (finishJob job outcome now).Ok := by
  refine ⟨hok.jobId, hok.timeout, outcome.terminal, hok.started, fun hqueued => ?_,
    fun hsucceeded => ?_, fun n hn => ?_, fun n hn => ?_⟩
  · have hterminal := outcome.terminal
    have hstate : outcome.state = .queued := hqueued
    rw [hstate] at hterminal
    cases hterminal
  · obtain ⟨hexit, hsignal⟩ := outcome.exit_zero hsucceeded
    simp only [finishJob, hsignal, hexit, Option.isSome_none, Bool.false_eq_true, if_false]
  · simp only [finishJob] at hn
    split at hn
    · exact hok.exit_lt n hn
    · exact outcome.exit_lt n hn
  · simp only [finishJob] at hn
    split at hn
    · exact outcome.signal_range n hn
    · exact hok.signal_range n hn

lemma StatusInv.receive (hinv : StatusInv s) (t : Transport) (request : JobRequest) :
    StatusInv (s.receive t request).1 := by
  cases request with
  | start jobId argv cwd environment timeoutMs =>
    rw [JobEngine.receive]
    split
    · exact hinv
    · rename_i hspec
      exact hinv.setHandler (validateStart_ok hspec)
  | status jobId logOffset maxBytes =>
    simp only [JobEngine.receive]
    split
    · exact hinv
    · rename_i id cursor maximum hvalid
      obtain ⟨_, -, hvalid⟩ := Checked.of_bind_ok hvalid
      obtain ⟨_, -, hvalid⟩ := Checked.of_bind_ok hvalid
      obtain ⟨size, hsize, hvalid⟩ := Checked.of_bind_ok hvalid
      cases hvalid
      split
      · exact hinv
      · refine hinv.setHandler ?_
        have hrange := validateInteger_ok hsize
        show maximum.toNat ≤ maxLogChunkBytes
        omega
  | cancel jobId =>
    rw [JobEngine.receive]
    split
    · exact hinv
    · split
      · exact hinv
      · exact hinv.setHandler trivial

lemma StatusInv.step {event : Event} (hinv : StatusInv s) (hstep : s.step event = some s') :
    StatusInv s' := by
  rw [JobEngine.step] at hstep
  obtain ⟨r, hrespond, rfl⟩ := Option.map_eq_some_iff.mp hstep
  cases event with
  | receive t request =>
    simp only [respond] at hrespond
    split at hrespond
    · obtain rfl := Option.some.inj hrespond
      exact hinv.receive t request
    · cases hrespond
  | checkLimits t =>
    have hhandler := hinv.handlers t
    simp only [respond] at hrespond
    split at hrespond
    · rename_i spec hspec
      rw [hspec] at hhandler
      split at hrespond
      · obtain rfl := Option.some.inj hrespond
        exact hinv.setHandler trivial
      · obtain rfl := Option.some.inj hrespond
        exact hinv.setHandler hhandler
    · cases hrespond
  | prune t =>
    have hhandler := hinv.handlers t
    simp only [respond] at hrespond
    split at hrespond
    · rename_i spec hspec
      rw [hspec] at hhandler
      obtain rfl := Option.some.inj hrespond
      exact (hinv.pruneLoop s.len).setHandler hhandler
    · cases hrespond
  | checkRetained t =>
    have hhandler := hinv.handlers t
    simp only [respond] at hrespond
    split at hrespond
    · rename_i spec hspec
      rw [hspec] at hhandler
      split at hrespond
      · obtain rfl := Option.some.inj hrespond
        exact hinv.setHandler trivial
      · obtain rfl := Option.some.inj hrespond
        exact hinv.setHandler hhandler
    · cases hrespond
  | launch t createdAt launch =>
    have hhandler := hinv.handlers t
    simp only [respond] at hrespond
    split at hrespond
    · rename_i spec hspec
      rw [hspec] at hhandler
      obtain rfl := Option.some.inj hrespond
      cases launch with
      | noDirectory error => exact hinv.setHandler trivial
      | failed error finishedAt =>
        exact (hinv.addJob (failedJob_ok hhandler _ _ _ _)).setHandler ⟨rfl, rfl⟩
      | spawned pid startedAt =>
        exact (hinv.addJob (spawnedJob_ok hhandler _ _ _ _)).setHandler trivial
    · cases hrespond
  | insert t =>
    have hhandler := hinv.handlers t
    simp only [respond] at hrespond
    split at hrespond
    · rename_i id ref reply hinsert
      rw [hinsert] at hhandler
      obtain rfl := Option.some.inj hrespond
      have hinserted : StatusInv (s.insertJob id ref) := by
        refine hinv.mapJobs fun job _ hok => ?_
        split
        · exact { hok with }
        · split
          · exact { hok with }
          · exact hok
      refine hinserted.setHandler ?_
      cases reply with
      | none => trivial
      | some reply => exact hhandler
    · cases hrespond
  | push t =>
    simp only [respond] at hrespond
    split at hrespond
    · rename_i id ref reply hpush
      obtain rfl := Option.some.inj hrespond
      have hpushed : StatusInv { s with order := s.order ++ [id] } := ⟨hinv.jobs, hinv.handlers⟩
      exact hpushed.setHandler trivial
    · rename_i id ref hpush
      obtain rfl := Option.some.inj hrespond
      have hpushed : StatusInv { s with order := s.order ++ [id] } := ⟨hinv.jobs, hinv.handlers⟩
      have hreport : HandlerOk (.report ref 0 maxLogChunkBytes) := Nat.le_refl _
      exact (hpushed.updateJob (waiter_ok fun _ => .waiting) ref).setHandler hreport
    · cases hrespond
  | report t =>
    simp only [respond] at hrespond
    split at hrespond
    · obtain ⟨job, -, rfl⟩ := Option.map_eq_some_iff.mp hrespond
      exact hinv.setHandler trivial
    · cases hrespond
  | cancel t appended =>
    simp only [respond] at hrespond
    split at hrespond
    · obtain ⟨job, -, rfl⟩ := Option.map_eq_some_iff.mp hrespond
      rw [cancelJob]
      split
      · exact hinv.setHandler trivial
      · split
        · exact hinv.setHandler trivial
        · have hanswered := hinv.setHandler (t := t) (h := .idle) trivial
          exact hanswered.updateJob (requestCancel_ok appended) job.ref
    · cases hrespond
  | output ref chunk =>
    simp only [respond] at hrespond
    split at hrespond
    · obtain rfl := Option.some.inj hrespond
      exact hinv.updateJob (logs_ok fun job => job.logs.append chunk) ref
    · cases hrespond
  | waiterReads ref timedOut status =>
    simp only [respond] at hrespond
    split at hrespond
    · obtain rfl := Option.some.inj hrespond
      exact hinv.updateJob
        (waiter_ok fun job => .deciding (jobOutcome timedOut job.cancelRequested status)) ref
    · cases hrespond
  | waiterWrites ref now =>
    simp only [respond] at hrespond
    split at hrespond
    · rename_i outcome _
      obtain rfl := Option.some.inj hrespond
      exact hinv.updateJob (fun job hok => finishJob_ok hok outcome now) ref
    · cases hrespond

lemma Reachable.statusInv (h : Reachable Transition.anyStep s) : StatusInv s := by
  have hinitial : StatusInv initial := {
    jobs := fun job hjob => by cases hjob
    handlers := fun _ => trivial }
  exact Transition.Leads.invariant StatusInv h hinitial fun _ _ _ hinv _ hstep => hinv.step hstep

/-! ### Replies -/

/-- The job that the reply to `event` is about, as the reply shows it, and the cursor of its logs. -/
def subject (s : JobEngine) : Event → Option (Job × ℕ)
  | .report t =>
    match s.handler t with
    | .report ref cursor _ => (s.deref ref).map fun job => (job, cursor)
    | _ => none
  | .cancel t appended =>
    match s.handler t with
    | .cancel ref => (s.deref ref).map fun job =>
      (if job.state.isTerminal then job else requestCancel appended job, job.logs.endOffset)
    | _ => none
  | _ => none

/-- The reply to `event` is about a job whose process was spawned, and its cursor is within the log. A
start whose process could not be spawned is answered by its last section and has no such job. -/
def Readable (s : JobEngine) (event : Event) : Prop :=
  ∃ job cursor, s.subject event = some (job, cursor) ∧ job.pid.isSome = true ∧
    cursor ≤ job.logs.endOffset ∧ job.Fits

lemma receive_answer (s : JobEngine) (t : Transport) (request : JobRequest) (reply : JobReply) :
    (s.receive t request).2 ≠ some (.ok reply) := by
  intro h
  cases request with
  | start jobId argv cwd environment timeoutMs =>
    rw [JobEngine.receive] at h
    split at h <;> cases h
  | status jobId logOffset maxBytes =>
    simp only [JobEngine.receive] at h
    split at h
    · cases h
    · split at h <;> cases h
  | cancel jobId =>
    rw [JobEngine.receive] at h
    split at h
    · cases h
    · split at h <;> cases h

/-- The host accepts the replies that are about a spawned job and a cursor within its log. -/
theorem isJobStatus_iff_readable (h : Reachable Transition.anyStep s) {event : Event}
    {reply : JobReply} (hrespond : s.respond event = some (s', some (.ok reply))) :
    isJobStatus reply = true ↔ s.Readable event := by
  have hinv := h.statusInv
  cases event with
  | push t =>
    have hhandler := hinv.handlers t
    simp only [respond] at hrespond
    split at hrespond
    · rename_i id ref answer hpush
      rw [hpush] at hhandler
      cases hrespond
      obtain ⟨hstarted, hstate⟩ := hhandler
      have hnot : isJobStatus reply = false := by
        rw [isJobStatus, hstarted, hstate]
        simp
      rw [hnot, Readable]
      simp [subject]
    · cases hrespond
    · cases hrespond
  | report t =>
    have hhandler := hinv.handlers t
    simp only [respond] at hrespond
    split at hrespond
    · rename_i ref cursor maximum hreport
      rw [hreport] at hhandler
      obtain ⟨job, hfound, heq⟩ := Option.map_eq_some_iff.mp hrespond
      cases heq
      rw [isJobStatus_statusOfInner (hinv.jobs job (List.mem_of_find?_eq_some hfound)) hhandler]
      simp [Readable, subject, hreport, hfound]
    · cases hrespond
  | cancel t appended =>
    simp only [respond] at hrespond
    split at hrespond
    · rename_i ref hcancel
      obtain ⟨job, hfound, heq⟩ := Option.map_eq_some_iff.mp hrespond
      have hok := hinv.jobs job (List.mem_of_find?_eq_some hfound)
      have hsize : 1 ≤ maxLogChunkBytes := by decide
      have hsubject : s.subject (.cancel t appended) =
          some (if job.state.isTerminal then job else requestCancel appended job,
            job.logs.endOffset) := by
        simp [subject, hcancel, hfound]
      rw [cancelJob] at heq
      split at heq
      · rename_i hterminal
        cases heq
        rw [isJobStatus_statusOfInner hok hsize]
        simp [Readable, hsubject, hterminal]
      · split at heq
        · cases heq
        · rename_i hrunning _
          cases heq
          rw [isJobStatus_statusOfInner (requestCancel_ok appended job hok) hsize]
          simp [Readable, hsubject, hrunning]
    · cases hrespond
  | receive t request =>
    simp only [respond] at hrespond
    split at hrespond
    · exact absurd (congrArg Prod.snd (Option.some.inj hrespond)) (s.receive_answer t request reply)
    · cases hrespond
  | checkLimits t =>
    simp only [respond] at hrespond
    split at hrespond
    · split at hrespond <;> cases hrespond
    · cases hrespond
  | checkRetained t =>
    simp only [respond] at hrespond
    split at hrespond
    · split at hrespond <;> cases hrespond
    · cases hrespond
  | launch t createdAt launch =>
    simp only [respond] at hrespond
    split at hrespond
    · cases launch <;> cases hrespond
    · cases hrespond
  | _ =>
    simp only [respond] at hrespond
    split at hrespond <;> cases hrespond

/-- The answer of a new job to its own start. -/
theorem isJobStatus_iff_readable_started :
    ∃ s s' reply, Transition.exec step initial demoRunning.dropLast = some s ∧
      s.respond (.report .stdio) = some (s', some (.ok reply)) ∧
      (isJobStatus reply = true ↔ s.Readable (.report .stdio)) := by
  have hrun : (Transition.exec step initial demoRunning.dropLast).any (fun s =>
      (s.respond (.report .stdio)).any fun r => r.2.any fun answer => answer.isOk) = true := by
    decide +kernel
  obtain ⟨s, hs, hrun⟩ := (Option.any_eq_true _ _).mp hrun
  obtain ⟨⟨s', answers⟩, hrespond, hrun⟩ := (Option.any_eq_true _ _).mp hrun
  obtain ⟨answer, hanswer, hok⟩ := (Option.any_eq_true _ _).mp hrun
  cases answer with
  | error e => cases hok
  | ok reply =>
    have hrespond' : s.respond (.report .stdio) = some (s', some (.ok reply)) := by
      rw [hrespond, ← hanswer]
    exact ⟨s, s', reply, hs, hrespond',
      isJobStatus_iff_readable (Transition.leads_of_exec hs) hrespond'⟩

/-- A status request whose cursor is beyond the end of the empty log is not refused. -/
theorem not_isJobStatus : ¬∀ s s' event reply, Reachable Transition.anyStep s →
    s.respond event = some (s', some (.ok reply)) → isJobStatus reply = true := by
  intro hall
  have hrun : (Transition.exec step initial (demoRunning ++ [.receive .stdio
      (.status (.string "00000000-0000-4000-8000-000000000000") (.number (some 1))
        (.number (some 100)))])).any (fun s =>
      (s.respond (.report .stdio)).any fun r => r.2.any fun answer =>
        answer.toOption.any fun reply => !isJobStatus reply) = true := by
    decide +kernel
  obtain ⟨s, hs, hrun⟩ := (Option.any_eq_true _ _).mp hrun
  obtain ⟨⟨s', answers⟩, hrespond, hrun⟩ := (Option.any_eq_true _ _).mp hrun
  obtain ⟨answer, hanswer, hrun⟩ := (Option.any_eq_true _ _).mp hrun
  obtain ⟨reply, hreply, hbad⟩ := (Option.any_eq_true _ _).mp hrun
  cases answer with
  | error e => cases hreply
  | ok found =>
    have hrespond' : s.respond (.report .stdio) = some (s', some (.ok found)) := by
      rw [hrespond, ← hanswer]
    cases hreply
    rw [hall s s' (.report .stdio) reply (Transition.leads_of_exec hs) hrespond'] at hbad
    cases hbad

end JobEngine

end Bloom
