import BloomWorkspaces.Control.Config
import BloomWorkspaces.Control.Database
import BloomWorkspaces.Library.Transition

/-!
# The workspace service

`WorkspaceService` runs on one thread: the code between two `await`s is one atomic step, and steps of
different calls interleave freely. A step is a function on `Service`, which holds the database, the
fields of the class and the continuation of every suspended call. Replies of the node agent arrive
as the arguments of the steps that resume a call, so any reply and any delay is covered.
-/

namespace Bloom

/-- What a call of the service can throw. -/
inductive ServiceError
  | workspace (message : String) (status : ℕ)
  | constraint (table : String)
  deriving DecidableEq, Repr

/-- A rejected agent request: `AgentClientError` has a status, a transport error has none. -/
structure AgentError where
  message : String
  status : Option ℕ
  deriving DecidableEq, Repr

inductive RuntimeState
  | running
  | stopped
  | failed
  | missing
  deriving DecidableEq, Repr

structure RuntimeStorage where
  mode : StorageMode
  volumeId : Option String
  quotaBytes : ℕ
  deriving DecidableEq, Repr

structure RuntimeSpec where
  id : String
  leaseExpiresAt : ℕ
  walletAddress : String
  storage : RuntimeStorage
  deriving DecidableEq, Repr

inductive AgentRequest
  | create (spec : RuntimeSpec)
  | status (id : String)
  | stop (id : String)
  | destroyVolume (volumeId : String)
  deriving DecidableEq, Repr

namespace AgentRequest

/-- The workspace that a `create` request starts. -/
def createId : AgentRequest → Option String
  | create spec => some spec.id
  | status _ | stop _ | destroyVolume _ => none

/-- The workspace that a request is about. -/
def workspaceId : AgentRequest → Option String
  | create spec => some spec.id
  | status id | stop id => some id
  | destroyVolume _ => none

lemma workspaceId_of_createId {q : AgentRequest} {id : String} (h : q.createId = some id) :
    q.workspaceId = some id := by
  cases q with
  | create spec => exact h
  | status _ => cases h
  | stop _ => cases h
  | destroyVolume _ => cases h

end AgentRequest

structure WorkspaceDataCapabilities where
  persistence : Bool
  persistenceReason : Option String
  deriving DecidableEq, Repr

structure PublicWorkspace where
  id : String
  state : WorkspaceState
  createdAt : ℕ
  leaseExpiresAt : ℕ
  storageMode : StorageMode
  storageQuotaBytes : ℕ
  retainedAfterStop : Bool
  queuePosition : Option ℕ
  failure : Option String
  deriving DecidableEq, Repr

/-- One promise of `stopWorkspace`: `outcome` is `none` while `agent.stop` is in flight. -/
structure StopOperation where
  row : WorkspaceRow
  reason : String
  call : ℕ
  outcome : Option (Except ServiceError Unit)

/-- Where the single reconciliation run is suspended. -/
inductive Reconciliation
  | stopping (operation : ℕ) (rest : List WorkspaceRow)
  | checking (row : WorkspaceRow) (rest : List WorkspaceRow) (call : ℕ)
  | starting (row : WorkspaceRow) (capacity : ℕ) (call : ℕ)
  | finished

/-- A call of `destroyPersistentVolume` suspended at its agent request. -/
structure Destroying where
  wallet : String
  volume : PersistentVolumeRow
  call : ℕ

/-- `sent` lists the agent requests in the order they were sent; a request is named by its index.
`operations` lists the stop promises, and `stopOperations` maps workspace ids to them. The last three
fields are history: the identifiers drawn so far, the rows as `create` inserted them, and the ids of
the rows that reconciliation moved from `queued` to `provisioning`. -/
structure Service where
  db : Database
  now : ℕ
  sent : List AgentRequest
  operations : List StopOperation
  stopOperations : List (String × ℕ)
  stopCallers : List ℕ
  reconciliation : Option Reconciliation
  destroyingVolumes : List String
  destroying : List Destroying
  uuids : List String
  admitted : List WorkspaceRow
  claims : List String

def Service.initial : Service :=
  ⟨.empty, 0, [], [], [], [], none, [], [], [], [], []⟩

namespace Service

def send (s : Service) (request : AgentRequest) : Service :=
  { s with sent := s.sent ++ [request] }

def audit (s : Service) (kind : String) (actor workspaceId : Option String)
    (detail : List (String × DetailValue)) : Service :=
  { s with db := s.db.audit s.now kind actor workspaceId detail }

/-! ### Errors of the node agent -/

def agentWorkspaceError (error : AgentError) : ServiceError :=
  match error.status with
  | some status =>
    .workspace error.message (if status ∈ [400, 403, 404, 409, 413, 501] then status else 503)
  | none => .workspace "Workspace node is unavailable" 503

/-- `{ error: String(error) }`. -/
def errorDetail (error : AgentError) : List (String × DetailValue) :=
  [("error", .text ("Error: " ++ error.message))]

/-! ### Stopping one workspace -/

/-- `stopWorkspace`: join the stop that is already under way, or send a new one. The second
component names the promise. -/
def stopWorkspace (s : Service) (row : WorkspaceRow) (reason : String) : Service × ℕ :=
  match s.stopOperations.lookup row.id with
  | some operation => (s, operation)
  | none =>
    ({ s.send (.stop row.id) with
        operations := s.operations ++ [⟨row, reason, s.sent.length, none⟩]
        stopOperations := (row.id, s.operations.length) :: s.stopOperations },
      s.operations.length)

/-- `WHERE id = ? AND state = 'stopping'`. -/
def isStopping (id : String) (r : WorkspaceRow) : Bool := r.id = id ∧ r.state = .stopping

@[simp] lemma isStopping_iff {id : String} {r : WorkspaceRow} :
    isStopping id r = true ↔ r.id = id ∧ r.state = .stopping := by
  simp [isStopping]

/-- The body of a stop promise after `agent.stop` has answered. -/
def stopReply (s : Service) (operation : ℕ) (reply : Except AgentError Unit) : Option Service :=
  match s.operations[operation]? with
  | none => none
  | some op =>
    if op.outcome.isSome then none
    else match reply with
    | .ok () =>
      let changes := s.db.count (isStopping op.row.id)
      let stopped := { s with
        db := s.db.updateWorkspaces (isStopping op.row.id) fun r =>
          { r with state := .stopped, stoppedAt := some s.now }
        operations := s.operations.set operation { op with outcome := some (.ok ()) } }
      some (if changes = 1 then
        stopped.audit "workspace.stopped" op.row.wallet op.row.id [("reason", .text op.reason)]
      else stopped)
    | .error error =>
      some ({ s with
        operations := s.operations.set operation
          { op with outcome := some (.error (agentWorkspaceError error)) } }.audit
        "workspace.agent_stop_failed" op.row.wallet op.row.id (errorDetail error))

/-- `operation.then(clear, clear)`. -/
def stopClear (s : Service) (operation : ℕ) : Option Service :=
  match s.operations[operation]? with
  | none => none
  | some op =>
    if op.outcome.isSome then
      some { s with stopOperations := s.stopOperations.filter (· ≠ (op.row.id, operation)) }
    else none

/-! ### Reconciliation -/

/-- `storage` of the request that `runReconciliation` sends for a row. -/
def runtimeSpec (row : WorkspaceRow) : RuntimeSpec where
  id := row.id
  leaseExpiresAt := row.leaseExpiresAt
  walletAddress := row.wallet
  storage :=
    if row.storageMode = .persistent then ⟨.persistent, row.volumeId, row.storageQuotaBytes⟩
    else ⟨.disposable, none, row.storageQuotaBytes⟩

/-- `WHERE state = 'queued' AND lease_expires_at > ? ORDER BY created_at LIMIT 1`. -/
def nextQueued (s : Service) : Option WorkspaceRow :=
  (s.db.workspaces.filter fun r => r.state = .queued ∧ s.now < r.leaseExpiresAt).argmin
    WorkspaceRow.createdAt

/-- `WHERE id = ? AND state = 'queued'`. -/
def isQueued (id : String) (r : WorkspaceRow) : Bool := r.id = id ∧ r.state = .queued

@[simp] lemma isQueued_iff {id : String} {r : WorkspaceRow} :
    isQueued id r = true ↔ r.id = id ∧ r.state = .queued := by
  simp [isQueued]

/-- The loop `while (capacity-- > 0)`, up to the next `agent.create`. -/
def claimLoop : ℕ → Service → Service
  | 0, s => { s with reconciliation := some .finished }
  | capacity + 1, s =>
    match s.nextQueued with
    | none => { s with reconciliation := some .finished }
    | some row =>
      let claimed := { s with
        db := s.db.updateWorkspaces (isQueued row.id) fun r => { r with state := .provisioning }
        claims := s.claims ++ [row.id] }
      if s.db.count (isQueued row.id) ≠ 1 then claimLoop capacity claimed
      else { claimed.send (.create (runtimeSpec row)) with
        reconciliation := some (.starting row capacity s.sent.length) }

/-- The loop does not run on a negative capacity, so the truncated difference is enough. -/
def startClaims (config : Config) (s : Service) : Service :=
  claimLoop (config.maxRunning - s.db.count (·.state.takesCapacity)) s

/-- The loop over the started rows, up to the next `agent.status`. -/
def checkLoop (config : Config) (rows : List WorkspaceRow) (s : Service) : Service :=
  match rows with
  | [] => startClaims config s
  | row :: rest =>
    { s.send (.status row.id) with reconciliation := some (.checking row rest s.sent.length) }

/-- The loop over the stopping rows, up to the next awaited stop. -/
def stopLoop (config : Config) (rows : List WorkspaceRow) (s : Service) : Service :=
  match rows with
  | [] => checkLoop config (s.db.workspaces.filter (·.state.isStarted)) s
  | row :: rest =>
    let reason := if row.leaseExpiresAt ≤ s.now then "lease_expired" else "retry"
    let stop := s.stopWorkspace row reason
    { stop.1 with reconciliation := some (.stopping stop.2 rest) }

/-- `state IN ('queued','provisioning','running') AND lease_expires_at <= ?`. -/
def isExpired (now : ℕ) (r : WorkspaceRow) : Bool := r.state.isStoppable ∧ r.leaseExpiresAt ≤ now

@[simp] lemma isExpired_iff {now : ℕ} {r : WorkspaceRow} :
    isExpired now r = true ↔ r.state.isStoppable = true ∧ r.leaseExpiresAt ≤ now := by
  simp [isExpired]

def runReconciliation (config : Config) (s : Service) : Service :=
  let expired := { s with
    db := s.db.updateWorkspaces (isExpired s.now) fun r => { r with state := .stopping } }
  stopLoop config (expired.db.workspaces.filter (·.state = .stopping)) expired

/-- `reconcile`, also reached through `scheduleReconciliation` and `recover`. -/
def reconcile (config : Config) (s : Service) : Service :=
  if s.reconciliation.isSome then s else runReconciliation config s

/-- The loop over the stopping rows continues once the awaited promise has settled. -/
def reconcileStopped (config : Config) (s : Service) : Option Service :=
  match s.reconciliation with
  | some (.stopping operation rest) =>
    match s.operations[operation]? with
    | some op => if op.outcome.isSome then some (stopLoop config rest s) else none
    | none => none
  | _ => none

/-- `WHERE id = ? AND state = 'provisioning'`. -/
def isProvisioning (id : String) (r : WorkspaceRow) : Bool := r.id = id ∧ r.state = .provisioning

@[simp] lemma isProvisioning_iff {id : String} {r : WorkspaceRow} :
    isProvisioning id r = true ↔ r.id = id ∧ r.state = .provisioning := by
  simp [isProvisioning]

/-- `WHERE id = ? AND state IN ('running','provisioning')`. -/
def isStarted (id : String) (r : WorkspaceRow) : Bool := r.id = id ∧ r.state.isStarted

@[simp] lemma isStarted_iff {id : String} {r : WorkspaceRow} :
    isStarted id r = true ↔ r.id = id ∧ r.state.isStarted = true := by
  simp [isStarted]

def stateName : RuntimeState → String
  | .running => "running"
  | .stopped => "stopped"
  | .failed => "failed"
  | .missing => "missing"

/-- The updates that the answer of `agent.status` for `row` leads to. -/
def applyStatus (s : Service) (row : WorkspaceRow) (reply : Except AgentError RuntimeState) :
    Service :=
  match reply with
  | .error error =>
    s.audit "workspace.agent_status_failed" row.wallet row.id (errorDetail error)
  | .ok state =>
    if state = .running ∧ row.state = .provisioning then
      { s with
        db := s.db.updateWorkspaces (isProvisioning row.id) fun r => { r with state := .running }
      }.audit "workspace.running" row.wallet row.id [("recovered", .flag true)]
    else if state ≠ .running then
      { s with
        db := s.db.updateWorkspaces (isStarted row.id) fun r =>
          { r with
            state := .failed
            stoppedAt := some s.now
            failure := some "The workspace process ended unexpectedly; please retry" }
      }.audit "workspace.lost" row.wallet row.id [("agentState", .text (stateName state))]
    else s

def statusReply (config : Config) (s : Service) (reply : Except AgentError RuntimeState) :
    Option Service :=
  match s.reconciliation with
  | some (.checking row rest _) => some (checkLoop config rest (s.applyStatus row reply))
  | _ => none

/-- The updates that the answer of `agent.create` for `row` leads to. -/
def applyCreate (s : Service) (row : WorkspaceRow) (reply : Except AgentError Unit) : Service :=
  match reply with
  | .ok () =>
    { s with
      db := s.db.updateWorkspaces (isProvisioning row.id) fun r => { r with state := .running }
    }.audit "workspace.running" row.wallet row.id []
  | .error error => s.audit "workspace.start_uncertain" row.wallet row.id (errorDetail error)

def createReply (s : Service) (reply : Except AgentError Unit) : Option Service :=
  match s.reconciliation with
  | some (.starting row capacity _) => some (claimLoop capacity (s.applyCreate row reply))
  | _ => none

/-- `reconciliation.then(clear, clear)`. -/
def reconcileClear (s : Service) : Option Service :=
  match s.reconciliation with
  | some .finished => some { s with reconciliation := none }
  | _ => none

end Service

end Bloom
