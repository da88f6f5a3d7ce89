import BloomWorkspaces.Guest.Logs
import BloomWorkspaces.Library.Table
import BloomWorkspaces.Library.Transition

/-!
# The job engine of the guest

`JobEngine`. Requests come from two threads, the one that serves stdio and the one that serves the
sockets, and each of them works on one request at a time. A step is one section under a lock, with
what its thread does before the next one. Jobs are objects that threads hold after the table has let
them go, so the state keeps all of them.
-/

namespace Bloom

def maxActiveJobs : ℕ := 2

def maxRetainedJobs : ℕ := 64

def maxJobTimeoutMs : ℕ := 2 * 60 * 60 * 1000

def maxLogChunkBytes : ℕ := 256 * 1024

inductive JobState
  | queued
  | running
  | succeeded
  | failed
  | cancelled
  | timedOut
  deriving DecidableEq, Repr

/-- `is_terminal` -/
def JobState.isTerminal : JobState → Bool
  | .queued | .running => false
  | .succeeded | .failed | .cancelled | .timedOut => true

/-- What the wait thread writes into its job at the end. -/
structure JobOutcome where
  state : JobState
  exitCode : Option ℕ
  signal : Option ℕ
  terminal : state.isTerminal = true
  exit_zero : state = .succeeded → exitCode = some 0 ∧ signal = none
  exit_lt : ∀ n, exitCode = some n → n < 256
  signal_range : ∀ n, signal = some n → 0 < n ∧ n < 128
  deriving DecidableEq

/-- `WIFEXITED` -/
def hasExited (status : ℕ) : Prop := status % 128 = 0

instance (status : ℕ) : Decidable (hasExited status) := inferInstanceAs (Decidable (_ = _))

/-- `WIFSIGNALED` -/
def isSignaled (status : ℕ) : Prop := status % 128 ≠ 0 ∧ status % 128 ≠ 127

instance (status : ℕ) : Decidable (isSignaled status) := inferInstanceAs (Decidable (_ ∧ _))

/-- The terminal state of a job from what the wait thread has seen. -/
def jobOutcome (timedOut cancelRequested : Bool) (status : ℕ) : JobOutcome :=
  if timedOut && !cancelRequested then ⟨.timedOut, none, none, rfl, nofun, nofun, nofun⟩
  else if cancelRequested then ⟨.cancelled, none, none, rfl, nofun, nofun, nofun⟩
  else if hasExited status then
    if status / 256 % 256 = 0 then
      ⟨.succeeded, some 0, none, rfl, fun _ => ⟨rfl, rfl⟩, by simp, nofun⟩
    else
      ⟨.failed, some (status / 256 % 256), none, rfl, nofun, by
        rintro n ⟨⟩
        exact Nat.mod_lt _ (by decide), nofun⟩
  else if h : isSignaled status then
    ⟨.failed, none, some (status % 128), rfl, nofun, nofun, by
      rintro n ⟨⟩
      exact ⟨Nat.pos_of_ne_zero h.1, Nat.mod_lt _ (by decide)⟩⟩
  else ⟨.failed, none, none, rfl, nofun, nofun, nofun⟩

/-- The wait thread of a job: it is `deciding` between its read of `cancel_requested` and its last
write. -/
inductive Waiter
  | absent
  | waiting
  | deciding (outcome : JobOutcome)
  deriving DecidableEq

/-- Who holds a job: the call of `start` that has launched it, the table, or no one after it was
pruned from the table or another job has taken its key. -/
inductive JobPlace
  | launched
  | retained
  | pruned
  | replaced
  deriving DecidableEq, Repr

/-- A `Job` under its reference. -/
structure Job where
  ref : ℕ
  jobId : String
  timeoutMs : ℕ
  createdAt : ℕ
  state : JobState
  startedAt : Option ℕ
  finishedAt : Option ℕ
  exitCode : Option ℕ
  signalNumber : Option ℕ
  pid : Option ℕ
  cancelRequested : Bool
  logs : LogRing
  waiter : Waiter
  place : JobPlace

/-- The JSON of `status_of_inner`; the error of a slice takes the place of the logs. -/
structure JobReply where
  jobId : String
  state : JobState
  createdAt : ℕ
  startedAt : Option ℕ
  finishedAt : Option ℕ
  exitCode : Option ℕ
  signal : Option ℕ
  timeoutMs : ℕ
  logs : Except String LogChunk

/-- The arguments of `start` after its validation. -/
structure StartSpec where
  jobId : String
  argv : List String
  cwd : String
  timeoutMs : ℕ
  environment : List (String × String)
  deriving DecidableEq, Repr

inductive JobRequest
  | start (jobId argv cwd environment timeoutMs : Json)
  | status (jobId logOffset maxBytes : Json)
  | cancel (jobId : Json)

inductive Transport
  | stdio
  | socket
  deriving DecidableEq, Repr

def Transport.other : Transport → Transport
  | .stdio => .socket
  | .socket => .stdio

/-- The section that a thread takes next, with its local variables. A start whose process could not be
launched has its reply by then. -/
inductive Handler
  | idle
  | checkLimits (spec : StartSpec)
  | prune (spec : StartSpec)
  | checkRetained (spec : StartSpec)
  | launch (spec : StartSpec)
  | insert (jobId : String) (ref : ℕ) (reply : Option JobReply)
  | push (jobId : String) (ref : ℕ) (reply : Option JobReply)
  | report (ref logOffset maxBytes : ℕ)
  | cancel (ref : ℕ)

structure JobEngine where
  jobs : List Job
  order : List String
  handler : Transport → Handler

namespace JobEngine

def initial : JobEngine := ⟨[], [], fun _ => .idle⟩

def setHandler (s : JobEngine) (t : Transport) (h : Handler) : JobEngine :=
  { s with handler := Function.update s.handler t h }

def updateJob (s : JobEngine) (ref : ℕ) (f : Job → Job) : JobEngine :=
  { s with jobs := Table.updateWhere (fun job => job.ref = ref) f s.jobs }

/-- What a reference points to. -/
def deref (s : JobEngine) (ref : ℕ) : Option Job := s.jobs.find? fun job => job.ref = ref

def inTable (jobId : String) (job : Job) : Bool := job.place = .retained && job.jobId = jobId

/-- `jobs.get` -/
def get (s : JobEngine) (jobId : String) : Option Job := s.jobs.find? (inTable jobId)

/-- `jobs.len` -/
def len (s : JobEngine) : ℕ := s.jobs.countP fun job => job.place = .retained

/-- The jobs of the table that are not terminal. -/
def active (s : JobEngine) : ℕ :=
  s.jobs.countP fun job => job.place = .retained && !job.state.isTerminal

/-! ### Replies -/

def statusOfInner (job : Job) (logOffset maxBytes : ℕ) : JobReply where
  jobId := job.jobId
  state := job.state
  createdAt := job.createdAt
  startedAt := job.startedAt
  finishedAt := job.finishedAt
  exitCode := job.exitCode
  signal := job.signalNumber
  timeoutMs := job.timeoutMs
  logs :=
    match job.logs.slice logOffset maxBytes job.state.isTerminal with
    | .ok chunk => .ok chunk
    | .error e => .error e.message

/-! ### Starting -/

/-- `start` up to its limit checks. -/
def validateStart (jobId argv cwd environment timeoutMs : Json) : Except ControlError StartSpec := do
  let jobId ← validateJobId jobId
  let argv ← validateArgv argv
  let cwdParts ← validateWorkspaceDirectory cwd
  let timeoutMs ← validateInteger timeoutMs 1000 maxJobTimeoutMs "job timeout"
  let environment ← validateEnvironment environment
  return {
    jobId := jobId
    argv := argv
    cwd := if cwdParts = [] then "." else "/".intercalate cwdParts
    timeoutMs := timeoutMs.toNat
    environment := environment }

def checkLimits (s : JobEngine) (jobId : String) : Except ControlError Unit :=
  if (s.get jobId).isSome then .error (.conflict "job id already exists")
  else if maxActiveJobs ≤ s.active then
    .error (.limitExceeded "workspace already has the maximum number of active jobs")
  else .ok ()

/-- The first id of the order list whose job in the table is terminal. -/
def findTerminal (s : JobEngine) : Option String :=
  s.order.find? fun id => (s.get id).any fun job => job.state.isTerminal

def removeJob (s : JobEngine) (jobId : String) : JobEngine :=
  { s with
    jobs := Table.updateWhere (inTable jobId) (fun job => { job with place := .pruned }) s.jobs
    order := s.order.filter (· ≠ jobId) }

def pruneLoop : ℕ → JobEngine → JobEngine
  | 0, s => s
  | turns + 1, s =>
    if s.len < maxRetainedJobs then s
    else
      match s.findTerminal with
      | some id => pruneLoop turns (s.removeJob id)
      | none => s

/-- `prune_terminal_jobs`; every turn of its loop takes a job out of the table. -/
def pruneTerminalJobs (s : JobEngine) : JobEngine := pruneLoop s.len s

/-- What `open_job_cwd` and `command.spawn` come to. -/
inductive Launch
  | noDirectory (error : ControlError)
  | failed (error : String) (finishedAt : ℕ)
  | spawned (pid startedAt : ℕ)

def newJob (ref : ℕ) (spec : StartSpec) (createdAt : ℕ) : Job where
  ref := ref
  jobId := spec.jobId
  timeoutMs := spec.timeoutMs
  createdAt := createdAt
  state := .queued
  startedAt := none
  finishedAt := none
  exitCode := none
  signalNumber := none
  pid := none
  cancelRequested := false
  logs := .empty
  waiter := .absent
  place := .launched

/-- The job of a start whose process could not be launched. -/
def failedJob (ref : ℕ) (spec : StartSpec) (createdAt : ℕ) (error : String) (finishedAt : ℕ) : Job :=
  { newJob ref spec createdAt with
    state := .failed
    finishedAt := some finishedAt
    logs := LogRing.empty.append
      ("bloom job launch failed: " ++ error ++ "\n").toByteArray.data.toList }

def spawnedJob (ref : ℕ) (spec : StartSpec) (createdAt pid startedAt : ℕ) : Job :=
  { newJob ref spec createdAt with
    state := .running
    startedAt := some startedAt
    pid := some pid }

/-- `HashMap::insert` of the job under `ref`. -/
def insertJob (s : JobEngine) (jobId : String) (ref : ℕ) : JobEngine :=
  { s with
    jobs := s.jobs.map fun job =>
      if job.ref = ref then { job with place := .retained }
      else if inTable jobId job then { job with place := .replaced }
      else job }

/-! ### Steps -/

inductive Event
  | receive (t : Transport) (request : JobRequest)
  | checkLimits (t : Transport)
  | prune (t : Transport)
  | checkRetained (t : Transport)
  | launch (t : Transport) (createdAt : ℕ) (launch : Launch)
  | insert (t : Transport)
  | push (t : Transport)
  | report (t : Transport)
  | cancel (t : Transport) (appended : List UInt8)
  | output (ref : ℕ) (chunk : List UInt8)
  | waiterReads (ref : ℕ) (timedOut : Bool) (status : ℕ)
  | waiterWrites (ref now : ℕ)

abbrev Answer := Except ControlError JobReply

/-- A request up to the first section it takes; `status` and `cancel` look their job up in it. -/
def receive (s : JobEngine) (t : Transport) : JobRequest → JobEngine × Option Answer
  | .start jobId argv cwd environment timeoutMs =>
    match validateStart jobId argv cwd environment timeoutMs with
    | .error e => (s, some (.error e))
    | .ok spec => (s.setHandler t (.checkLimits spec), none)
  | .status jobId logOffset maxBytes =>
    let validated : Except ControlError (String × ℤ × ℤ) := do
      let jobId ← validateJobId jobId
      let logOffset ← validateInteger logOffset 0 (2 ^ 53 - 1) "log cursor"
      let maxBytes ← validateInteger maxBytes 1 maxLogChunkBytes "log read size"
      return (jobId, logOffset, maxBytes)
    match validated with
    | .error e => (s, some (.error e))
    | .ok (jobId, logOffset, maxBytes) =>
      match s.get jobId with
      | none => (s, some (.error (.notFound "job does not exist")))
      | some job => (s.setHandler t (.report job.ref logOffset.toNat maxBytes.toNat), none)
  | .cancel jobId =>
    match validateJobId jobId with
    | .error e => (s, some (.error e))
    | .ok jobId =>
      match s.get jobId with
      | none => (s, some (.error (.notFound "job does not exist")))
      | some job => (s.setHandler t (.cancel job.ref), none)

/-- `start` from its launch to its insertion. -/
def launchJob (s : JobEngine) (t : Transport) (spec : StartSpec) (createdAt : ℕ) :
    Launch → JobEngine × Option Answer
  | .noDirectory e => (s.setHandler t .idle, some (.error e))
  | .failed error finishedAt =>
    let job := failedJob s.jobs.length spec createdAt error finishedAt
    ({ s with jobs := s.jobs ++ [job] }.setHandler t
      (.insert spec.jobId job.ref (some (statusOfInner job 0 maxLogChunkBytes))), none)
  | .spawned pid startedAt =>
    let job := spawnedJob s.jobs.length spec createdAt pid startedAt
    ({ s with jobs := s.jobs ++ [job] }.setHandler t (.insert spec.jobId job.ref none), none)

/-- What `cancel` does to a job that runs. The wait thread may append to the log between the two reads
of the ring. -/
def requestCancel (appended : List UInt8) (job : Job) : Job :=
  { job with
    cancelRequested := true
    logs := if job.waiter = .waiting then job.logs.append appended else job.logs }

/-- `cancel` under the lock of its job. -/
def cancelJob (s : JobEngine) (t : Transport) (job : Job) (appended : List UInt8) :
    JobEngine × Option Answer :=
  let answered := s.setHandler t .idle
  if job.state.isTerminal then
    (answered, some (.ok (statusOfInner job job.logs.endOffset 1)))
  else if job.pid = none then (answered, some (.error (.conflict "job has not started")))
  else
    (answered.updateJob job.ref (requestCancel appended),
      some (.ok (statusOfInner (requestCancel appended job) job.logs.endOffset 1)))

def finishJob (job : Job) (outcome : JobOutcome) (now : ℕ) : Job :=
  { job with
    finishedAt := some now
    state := outcome.state
    signalNumber := if outcome.signal.isSome then outcome.signal else job.signalNumber
    exitCode := if outcome.signal.isSome then job.exitCode else outcome.exitCode
    waiter := .absent }

/-- One step, with the answer to the request that it ends. -/
def respond (s : JobEngine) : Event → Option (JobEngine × Option Answer)
  | .receive t request =>
    match s.handler t with
    | .idle => some (s.receive t request)
    | _ => none
  | .checkLimits t =>
    match s.handler t with
    | .checkLimits spec =>
      match s.checkLimits spec.jobId with
      | .error e => some (s.setHandler t .idle, some (.error e))
      | .ok () => some (s.setHandler t (.prune spec), none)
    | _ => none
  | .prune t =>
    match s.handler t with
    | .prune spec => some (s.pruneTerminalJobs.setHandler t (.checkRetained spec), none)
    | _ => none
  | .checkRetained t =>
    match s.handler t with
    | .checkRetained spec =>
      if maxRetainedJobs ≤ s.len then
        some (s.setHandler t .idle,
          some (.error (.limitExceeded "workspace has too many retained jobs")))
      else some (s.setHandler t (.launch spec), none)
    | _ => none
  | .launch t createdAt launch =>
    match s.handler t with
    | .launch spec => some (s.launchJob t spec createdAt launch)
    | _ => none
  | .insert t =>
    match s.handler t with
    | .insert jobId ref reply =>
      some ((s.insertJob jobId ref).setHandler t (.push jobId ref reply), none)
    | _ => none
  | .push t =>
    match s.handler t with
    | .push jobId _ (some reply) =>
      some ({ s with order := s.order ++ [jobId] }.setHandler t .idle, some (.ok reply))
    | .push jobId ref none =>
      some (({ s with order := s.order ++ [jobId] }.updateJob ref
        fun job => { job with waiter := .waiting }).setHandler t (.report ref 0 maxLogChunkBytes),
        none)
    | _ => none
  | .report t =>
    match s.handler t with
    | .report ref logOffset maxBytes =>
      (s.deref ref).map fun job =>
        (s.setHandler t .idle, some (.ok (statusOfInner job logOffset maxBytes)))
    | _ => none
  | .cancel t appended =>
    match s.handler t with
    | .cancel ref => (s.deref ref).map fun job => s.cancelJob t job appended
    | _ => none
  | .output ref chunk =>
    match (s.deref ref).map Job.waiter with
    | some .waiting =>
      some (s.updateJob ref fun job => { job with logs := job.logs.append chunk }, none)
    | _ => none
  | .waiterReads ref timedOut status =>
    match (s.deref ref).map Job.waiter with
    | some .waiting =>
      some (s.updateJob ref fun job =>
        { job with waiter := .deciding (jobOutcome timedOut job.cancelRequested status) }, none)
    | _ => none
  | .waiterWrites ref now =>
    match (s.deref ref).map Job.waiter with
    | some (.deciding outcome) =>
      some (s.updateJob ref fun job => finishJob job outcome now, none)
    | _ => none

def step (s : JobEngine) (event : Event) : Option JobEngine := (s.respond event).map (·.1)

end JobEngine

end Bloom
