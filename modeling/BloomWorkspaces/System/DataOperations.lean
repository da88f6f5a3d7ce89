import BloomWorkspaces.Agent.Upload
import BloomWorkspaces.Control.Workspaces.Unread
import BloomWorkspaces.Guest.JobEngine
import BloomWorkspaces.Jobs.StructuredJobSpec
import BloomWorkspaces.Ssh.Contracts

/-!
# The data operations of the control plane

`WorkspaceService` forwards the file, job, bloom, ceremony, connection and SSH operations of a wallet to
the node, and the server attaches its terminals. Each of them looks the workspace up before its call and
within the same step. The rest of the service goes on between a call and its answer, and so do the
workspaces, which are whatever runs in their machines.
-/

namespace Bloom

/-! ### Operations -/

structure WorkspaceFileEntry where
  path : String
  type : String
  size : ℕ
  modifiedAt : ℕ
  deriving DecidableEq, Repr

structure WorkspaceUsage where
  usedBytes : ℕ
  quotaBytes : ℕ
  deriving DecidableEq, Repr

structure CeremonyAssertion where
  credentialId : String
  authenticatorData : String
  clientDataJSON : String
  signature : String
  deriving DecidableEq, Repr

structure SshLeaseBody where
  publicKey : String
  mode : SshAccessMode
  requestedTtlMs : Option ℕ
  deriving DecidableEq, Repr

/-- The fields of an `AgentSshLeaseGrant` that the service reads, and the rest. -/
structure AgentSshLeaseGrant where
  leaseId : String
  validBefore : ℕ
  secrets : List String
  deriving DecidableEq, Repr

/-- A request to the node with its arguments but the workspace. -/
inductive DataOperation
  | listFiles (path : String)
  | readFile (path : String)
  | writeFile (path : String) (contents : List UInt8)
  | deleteFile (path : String)
  | startJob (spec : StructuredJobSpec)
  | jobStatus (jobId : String) (offset maxBytes : ℕ)
  | cancelJob (jobId : String)
  | bloomStatus
  | ceremonyPending
  | ceremonyApprove (txId : String) (assertion : CeremonyAssertion)
  | connections
  | issueSsh (body : SshLeaseBody)
  | revokeSsh (leaseId : String)
  | terminal

/-- A terminal goes on after an answer. -/
def DataOperation.isSingle : DataOperation → Bool
  | terminal => false
  | _ => true

/-- What the node answers; a terminal answers with output. -/
def DataOperation.Reply : DataOperation → Type
  | listFiles _ => List WorkspaceFileEntry
  | readFile _ => List UInt8
  | writeFile _ _ => WorkspaceFileWrite
  | deleteFile _ => WorkspaceUsage
  | startJob _ | jobStatus _ _ _ | cancelJob _ => JobReply
  | bloomStatus => Json
  | ceremonyPending => List Json
  | ceremonyApprove _ _ => Bool
  | connections => Json
  | issueSsh _ => AgentSshLeaseGrant
  | revokeSsh _ => Unit
  | terminal => List UInt8

/-- The audit entry of an operation that the node has answered. -/
def DataOperation.audited : (op : DataOperation) → op.Reply →
    Option (String × List (String × DetailValue))
  | listFiles path, (files : List WorkspaceFileEntry) =>
    some ("workspace.file_listed", [("path", .text path), ("entries", .number files.length)])
  | readFile path, (contents : List UInt8) =>
    some ("workspace.file_downloaded", [("path", .text path), ("bytes", .number contents.length)])
  | writeFile path contents, (result : WorkspaceFileWrite) =>
    some ("workspace.file_uploaded",
      [("path", .text path), ("bytes", .number contents.length), ("usedBytes", .number result.usedBytes)])
  | deleteFile path, (result : WorkspaceUsage) =>
    some ("workspace.file_deleted", [("path", .text path), ("usedBytes", .number result.usedBytes)])
  | startJob spec, (result : JobReply) =>
    some ("workspace.job_started", [("jobId", .text result.jobId),
      ("timeoutMs", .number result.timeoutMs), ("argvCount", .number spec.argv.length)])
  | cancelJob jobId, _ => some ("workspace.job_cancelled", [("jobId", .text jobId)])
  | ceremonyPending, (requests : List Json) =>
    some ("workspace.ceremony_polled", [("count", .number requests.length)])
  | ceremonyApprove txId _, _ => some ("workspace.ceremony_approved", [("txId", .text txId)])
  | issueSsh body, (result : AgentSshLeaseGrant) =>
    some ("workspace.ssh_issued", [("leaseId", .text result.leaseId), ("mode", .text body.mode.text),
      ("validBefore", .number result.validBefore)])
  | revokeSsh leaseId, _ => some ("workspace.ssh_revoked", [("leaseId", .text leaseId)])
  | jobStatus _ _ _, _ | bloomStatus, _ | connections, _ | terminal, _ => none

/-- The audit entry of a file operation that has failed behind its call, from `dataOperation`. -/
def DataOperation.failed (op : DataOperation) (error : AgentError) :
    Option (String × List (String × DetailValue)) :=
  match op with
  | listFiles path => some (entry "list" path)
  | readFile path => some (entry "download" path)
  | writeFile path _ => some (entry "upload" path)
  | deleteFile path => some (entry "delete" path)
  | _ => none
where
  entry (operation path : String) : String × List (String × DetailValue) :=
    ("workspace.file_failed",
      [("operation", .text operation), ("path", .text path), ("error", .text error.message)])

/-! ### The gate -/

namespace Service

/-- `WHERE id = ? AND wallet = ?` -/
def findOwned (s : Service) (wallet id : String) : Option WorkspaceRow :=
  s.db.workspaces.find? fun r => r.id = id ∧ r.wallet = wallet

def ownsRunning (s : Service) (wallet id : String) : Bool :=
  s.db.workspaces.any fun r => r.id = id ∧ r.wallet = toLowerCase wallet ∧ r.state = .running ∧
    s.now < r.leaseExpiresAt

def ownedRunning (s : Service) (wallet id operation : String) :
    Service × Except ServiceError WorkspaceRow :=
  let denied (reason : String) : Service :=
    s.audit "workspace.file_denied" (some (toLowerCase wallet)) (some id)
      [("operation", .text operation), ("reason", .text reason)]
  match s.findOwned (toLowerCase wallet) id with
  | none => (denied "not_owner", .error (.workspace "Workspace not found" 404))
  | some row =>
    if row.state ≠ .running ∨ row.leaseExpiresAt ≤ s.now then
      (denied "not_running", .error (.workspace "Workspace is not running" 409))
    else (s, .ok row)

end Service

/-! ### Calls -/

/-- A call that the service has sent to the node, with what its continuation keeps of the row. The
`result` is there once the node has run the call; `settled` says that its promise is. -/
structure DataCall where
  wallet : String
  rowId : String
  rowWallet : String
  op : DataOperation
  result : Option (Except AgentError op.Reply)
  settled : Bool

/-- What a wallet gets. -/
structure Observation where
  wallet : String
  op : DataOperation
  outcome : Except ServiceError op.Reply

/-- `contents` is the machine of each workspace with its files, jobs and keys. -/
structure DataPlane (Contents : Type) where
  service : Service
  contents : String → Contents
  calls : List DataCall
  observed : List Observation

/-- What a machine does with a call and by itself; `Input` is all that comes from outside: time, chance,
what the network brings, and the volume that the node attaches. -/
structure WorkspaceMachine (Contents Input : Type) where
  run : Input → (op : DataOperation) → Contents → Contents × Except AgentError op.Reply
  work : Input → Contents → Contents

namespace DataPlane

variable {Contents Input : Type}

def observe (s : DataPlane Contents) (wallet : String) (op : DataOperation)
    (outcome : Except ServiceError op.Reply) : DataPlane Contents :=
  { s with observed := s.observed ++ [⟨wallet, op, outcome⟩] }

def send (s : DataPlane Contents) (wallet rowId rowWallet : String) (op : DataOperation) :
    DataPlane Contents :=
  { s with calls := s.calls ++ [⟨wallet, rowId, rowWallet, op, none, false⟩] }

/-- An operation up to its `await`: `ownedRunning`, then the call with the id of the row. -/
def forward (s : DataPlane Contents) (operation : String) (op : DataOperation) (wallet id : String) :
    DataPlane Contents :=
  match s.service.ownedRunning wallet id operation with
  | (service, .error error) => { s with service := service }.observe wallet op (.error error)
  | (service, .ok row) => { s with service := service }.send wallet row.id row.wallet op

def listFiles (s : DataPlane Contents) (wallet id path : String) : DataPlane Contents :=
  s.forward "list" (.listFiles path) wallet id

def readFile (s : DataPlane Contents) (wallet id path : String) : DataPlane Contents :=
  s.forward "download" (.readFile path) wallet id

def writeFile (s : DataPlane Contents) (wallet id path : String) (contents : List UInt8) :
    DataPlane Contents :=
  s.forward "upload" (.writeFile path contents) wallet id

def deleteFile (s : DataPlane Contents) (wallet id path : String) : DataPlane Contents :=
  s.forward "delete" (.deleteFile path) wallet id

def startJob (s : DataPlane Contents) (wallet id : String) (spec : StructuredJobSpec) :
    DataPlane Contents :=
  s.forward "job_start" (.startJob spec) wallet id

def jobStatus (s : DataPlane Contents) (wallet id jobId : String) (offset maxBytes : ℕ) :
    DataPlane Contents :=
  s.forward "job_status" (.jobStatus jobId offset maxBytes) wallet id

def cancelJob (s : DataPlane Contents) (wallet id jobId : String) : DataPlane Contents :=
  s.forward "job_cancel" (.cancelJob jobId) wallet id

def bloomStatus (s : DataPlane Contents) (wallet id : String) : DataPlane Contents :=
  s.forward "bloom_status" .bloomStatus wallet id

def ceremonyPending (s : DataPlane Contents) (wallet id : String) : DataPlane Contents :=
  s.forward "ceremony_pending" .ceremonyPending wallet id

def ceremonyApprove (s : DataPlane Contents) (wallet id txId : String) (assertion : CeremonyAssertion) :
    DataPlane Contents :=
  s.forward "ceremony_approve" (.ceremonyApprove txId assertion) wallet id

def connections (s : DataPlane Contents) (wallet id : String) : DataPlane Contents :=
  s.forward "connections" .connections wallet id

def issueSsh (s : DataPlane Contents) (wallet id : String) (body : SshLeaseBody) : DataPlane Contents :=
  s.forward "ssh_issue" (.issueSsh body) wallet id

def revokeSsh (s : DataPlane Contents) (wallet id leaseId : String) : DataPlane Contents :=
  s.forward "ssh_revoke" (.revokeSsh leaseId) wallet id

/-- The upgrade of a terminal: `ownsRunning`, then the attach to the workspace of the path. -/
def terminal (s : DataPlane Contents) (wallet id : String) : DataPlane Contents :=
  if s.service.ownsRunning wallet id then s.send wallet id (toLowerCase wallet) .terminal
  else s.observe wallet .terminal (.error (.workspace "Unauthorized" 401))

def request (s : DataPlane Contents) (wallet id : String) : DataOperation → DataPlane Contents
  | .listFiles path => s.listFiles wallet id path
  | .readFile path => s.readFile wallet id path
  | .writeFile path contents => s.writeFile wallet id path contents
  | .deleteFile path => s.deleteFile wallet id path
  | .startJob spec => s.startJob wallet id spec
  | .jobStatus jobId offset maxBytes => s.jobStatus wallet id jobId offset maxBytes
  | .cancelJob jobId => s.cancelJob wallet id jobId
  | .bloomStatus => s.bloomStatus wallet id
  | .ceremonyPending => s.ceremonyPending wallet id
  | .ceremonyApprove txId assertion => s.ceremonyApprove wallet id txId assertion
  | .connections => s.connections wallet id
  | .issueSsh body => s.issueSsh wallet id body
  | .revokeSsh leaseId => s.revokeSsh wallet id leaseId
  | .terminal => s.terminal wallet id

/-- The audit entry of a call, if it has one. -/
def log (s : Service) (call : DataCall) (entry : Option (String × List (String × DetailValue))) : Service :=
  match entry with
  | some (kind, detail) => s.audit kind (some call.rowWallet) (some call.rowId) detail
  | none => s

/-- The continuation of a call with its outcome; a terminal stays open after output. -/
def settle (s : DataPlane Contents) (n : ℕ) (call : DataCall)
    (outcome : Except AgentError call.op.Reply) : DataPlane Contents :=
  match outcome with
  | .ok reply =>
    { s with
      service := log s.service call (call.op.audited reply)
      calls := s.calls.set n { call with
        result := if call.op.isSingle then call.result else none
        settled := call.op.isSingle }
    }.observe call.wallet call.op (.ok reply)
  | .error error =>
    { s with
      service := log s.service call (call.op.failed error)
      calls := s.calls.set n { call with settled := true }
    }.observe call.wallet call.op (.error (Service.agentWorkspaceError error))

/-- The node runs a call on the machine that it names. -/
def run (machine : WorkspaceMachine Contents Input) (s : DataPlane Contents) (n : ℕ) (call : DataCall)
    (input : Input) : DataPlane Contents :=
  let after := machine.run input call.op (s.contents call.rowId)
  { s with
    contents := Function.update s.contents call.rowId after.1
    calls := s.calls.set n { call with result := some after.2 } }

end DataPlane

/-- `lose` is a failure at the client, such as its timeout, while the node may go on with the call. -/
inductive DataEvent (Input : Type)
  | service (action : Service.Action)
  | request (wallet id : String) (op : DataOperation)
  | run (n : ℕ) (input : Input)
  | reply (n : ℕ)
  | lose (n : ℕ) (error : AgentError)
  | work (id : String) (input : Input)

namespace DataPlane

variable {Contents Input : Type}

/-- An event about a call that is not in its stage changes nothing. -/
def onCall (s : DataPlane Contents) (n : ℕ) (f : DataCall → DataPlane Contents) : DataPlane Contents :=
  match s.calls[n]? with
  | some call => f call
  | none => s

def step (config : Config) (capabilities : Option WorkspaceDataCapabilities)
    (machine : WorkspaceMachine Contents Input) (s : DataPlane Contents) :
    DataEvent Input → Option (DataPlane Contents)
  | .service action =>
    (Service.step config capabilities s.service action).map fun service => { s with service := service }
  | .request wallet id op => some (s.request wallet id op)
  | .run n input =>
    some (s.onCall n fun call => if call.result.isSome then s else run machine s n call input)
  | .reply n =>
    some (s.onCall n fun call =>
      match call.result with
      | some outcome => if call.settled then s else s.settle n call outcome
      | none => s)
  | .lose n error => some (s.onCall n fun call => if call.settled then s else s.settle n call (.error error))
  | .work id input =>
    some { s with contents := Function.update s.contents id (machine.work input (s.contents id)) }

def initial (contents : String → Contents) : DataPlane Contents := ⟨.initial, contents, [], []⟩

/-- The workspace is the wallet's, runs and has time left. -/
def Admits (s : Service) (wallet id : String) : Prop :=
  ∃ r ∈ s.db.workspaces, r.id = id ∧ r.wallet = toLowerCase wallet ∧ r.state = .running ∧
    s.now < r.leaseExpiresAt

/-- Every call of a step is admitted in the state before it, and a request that is not admitted only
writes to the audit log. -/
structure Gated (s s' : DataPlane Contents) (e : DataEvent Input) : Prop where
  issued : ∀ call ∈ s'.calls.drop s.calls.length, Admits s.service call.wallet call.rowId ∧
    ∃ op, e = .request call.wallet call.rowId op
  refused : ∀ wallet id op, e = .request wallet id op → ¬Admits s.service wallet id →
    s'.calls = s.calls ∧ s'.contents = s.contents ∧
      ∃ events, s'.service = s.service.withAudit (s.service.db.auditEvents ++ events)

/-- Only the machines of other wallets differ. -/
def OthersOnly (wallet : String) (s : DataPlane Contents) (contents : String → Contents) : Prop :=
  ∀ id, contents id ≠ s.contents id → ∃ r ∈ s.service.db.workspaces, r.id = id ∧ r.wallet ≠ wallet

def observedBy (wallet : String) (s : DataPlane Contents) : List Observation :=
  s.observed.filter fun o => toLowerCase o.wallet = wallet

/-! ### The gate admits and refuses -/

section Gate

variable {s s' : DataPlane Contents} {wallet id operation : String} {op : DataOperation}

lemma ownsRunning_iff (s : Service) (wallet id : String) :
    s.ownsRunning wallet id = true ↔ Admits s wallet id := by
  simp only [Service.ownsRunning, List.any_eq_true, decide_eq_true_eq, Admits]

/-- What `forward` does: a call with the id of an admitted row, or an error and an audit entry. -/
lemma forward_cases (s : DataPlane Contents) (operation : String) (op : DataOperation) (wallet id : String) :
    (Admits s.service wallet id ∧
      s.forward operation op wallet id = s.send wallet id (toLowerCase wallet) op) ∨
    ∃ event error, s.forward operation op wallet id = { s with
      service := s.service.withAudit (s.service.db.auditEvents ++ [event])
      observed := s.observed ++ [⟨wallet, op, .error error⟩] } := by
  rw [forward]
  cases hfound : s.service.findOwned (toLowerCase wallet) id with
  | none =>
    simp only [Service.ownedRunning, hfound]
    exact Or.inr ⟨_, _, rfl⟩
  | some row =>
    have hrow := List.find?_some hfound
    simp only [decide_eq_true_eq] at hrow
    simp only [Service.ownedRunning, hfound]
    by_cases hgate : row.state ≠ .running ∨ row.leaseExpiresAt ≤ s.service.now
    · simp only [if_pos hgate]
      exact Or.inr ⟨_, _, rfl⟩
    · simp only [if_neg hgate]
      obtain ⟨hstate, hlease⟩ := not_or.mp hgate
      refine Or.inl ⟨⟨row, List.mem_of_find?_eq_some hfound, hrow.1, hrow.2, not_not.mp hstate,
        Nat.lt_of_not_le hlease⟩, ?_⟩
      rw [hrow.1, hrow.2]

/-- The terminal has its own gate, which does the same but for the audit entry. -/
lemma terminal_cases (s : DataPlane Contents) (wallet id : String) :
    (Admits s.service wallet id ∧ s.terminal wallet id = s.send wallet id (toLowerCase wallet) .terminal) ∨
    (¬Admits s.service wallet id ∧
      s.terminal wallet id = s.observe wallet .terminal (.error (.workspace "Unauthorized" 401))) := by
  rw [terminal]
  by_cases howns : s.service.ownsRunning wallet id = true
  · rw [if_pos howns]
    exact Or.inl ⟨(ownsRunning_iff ..).mp howns, rfl⟩
  · rw [if_neg howns]
    exact Or.inr ⟨fun hadmits => howns ((ownsRunning_iff ..).mpr hadmits), rfl⟩

/-- What every operation does up to its first answer. -/
lemma request_cases (s : DataPlane Contents) (wallet id : String) (op : DataOperation) :
    (Admits s.service wallet id ∧ s.request wallet id op = s.send wallet id (toLowerCase wallet) op) ∨
    ∃ events error, s.request wallet id op = { s with
      service := s.service.withAudit (s.service.db.auditEvents ++ events)
      observed := s.observed ++ [⟨wallet, op, .error error⟩] } := by
  have hforward : ∀ operation op', (Admits s.service wallet id ∧
      s.forward operation op' wallet id = s.send wallet id (toLowerCase wallet) op') ∨
      ∃ events error, s.forward operation op' wallet id = { s with
        service := s.service.withAudit (s.service.db.auditEvents ++ events)
        observed := s.observed ++ [⟨wallet, op', .error error⟩] } := by
    intro operation op'
    rcases forward_cases s operation op' wallet id with hadmitted | ⟨event, error, hrefused⟩
    · exact Or.inl hadmitted
    · exact Or.inr ⟨[event], error, hrefused⟩
  cases op with
  | terminal =>
    rcases terminal_cases s wallet id with hadmitted | ⟨-, hrefused⟩
    · exact Or.inl hadmitted
    · refine Or.inr ⟨[], .workspace "Unauthorized" 401, ?_⟩
      rw [request, hrefused, List.append_nil]
      rfl
  | _ => exact hforward _ _

lemma onCall_calls_length {n : ℕ} {f : DataCall → DataPlane Contents}
    (hf : ∀ call, s.calls[n]? = some call → (f call).calls.length = s.calls.length) :
    (s.onCall n f).calls.length = s.calls.length := by
  rw [onCall]
  cases hcall : s.calls[n]? with
  | none => rfl
  | some call => exact hf call hcall

lemma settle_calls_length (n : ℕ) (call : DataCall) (outcome : Except AgentError call.op.Reply) :
    (s.settle n call outcome).calls.length = s.calls.length := by
  cases outcome with
  | ok reply => exact List.length_set
  | error error => exact List.length_set

end Gate

section Steps

variable {config : Config} {capabilities : Option WorkspaceDataCapabilities}
  {machine : WorkspaceMachine Contents Input} {s s' t : DataPlane Contents} {wallet : String}

/-- Only a request adds a call. -/
lemma step_calls_length {e : DataEvent Input} (hs : step config capabilities machine s e = some s')
    (he : ∀ wallet id op, e ≠ .request wallet id op) : s'.calls.length = s.calls.length := by
  cases e with
  | service action =>
    obtain ⟨service, -, rfl⟩ := Option.map_eq_some_iff.mp hs
    rfl
  | request wallet id op => exact absurd rfl (he wallet id op)
  | run n input =>
    cases hs
    refine onCall_calls_length fun call hcall => ?_
    split_ifs
    · rfl
    · exact List.length_set
  | reply n =>
    cases hs
    refine onCall_calls_length fun call hcall => ?_
    cases call.result with
    | none => rfl
    | some outcome =>
      simp only
      split_ifs
      · rfl
      · exact settle_calls_length n call outcome
  | lose n error =>
    cases hs
    refine onCall_calls_length fun call hcall => ?_
    split_ifs
    · rfl
    · exact settle_calls_length n call _
  | work id input =>
    cases hs
    rfl

/-- Every step is gated, in whatever state. -/
theorem gated_step {e : DataEvent Input} (hs : step config capabilities machine s e = some s') :
    Gated s s' e := by
  cases e with
  | request wallet id op =>
    cases hs
    rcases request_cases s wallet id op with ⟨hadmits, hsend⟩ | ⟨events, error, hrefused⟩
    · refine ⟨fun call hcall => ?_, fun wallet' id' op' he hnot => ?_⟩
      · rw [hsend, send, List.drop_left] at hcall
        obtain rfl := List.mem_singleton.mp hcall
        exact ⟨hadmits, op, rfl⟩
      · cases he
        exact absurd hadmits hnot
    · refine ⟨fun call hcall => ?_, fun wallet' id' op' he hnot => ?_⟩
      · rw [hrefused, List.drop_length] at hcall
        cases hcall
      · rw [hrefused]
        exact ⟨rfl, rfl, events, rfl⟩
  | _ =>
    have hlength := step_calls_length hs (by rintro _ _ _ ⟨⟩)
    refine ⟨fun call hcall => ?_, fun _ _ _ he => ?_⟩
    · rw [List.drop_eq_nil_of_le hlength.le] at hcall
      cases hcall
    · cases he

end Steps

end DataPlane

/-! ### Owners -/

namespace Service

/-- The workspace was created for the wallet. -/
def BelongsTo (s : Service) (id wallet : String) : Prop :=
  ∃ r ∈ s.admitted, r.id = id ∧ r.wallet = wallet

/-- The rows keep the wallets that their ids were drawn for. -/
structure Owned (s : Service) : Prop where
  rows : ∀ r ∈ s.db.workspaces, s.BelongsTo r.id r.wallet
  drawn : ∀ r ∈ s.admitted, r.id ∈ s.uuids
  unique : ∀ id wallet wallet', s.BelongsTo id wallet → s.BelongsTo id wallet' → wallet = wallet'

variable {config : Config} {capabilities : Option WorkspaceDataCapabilities} {s s' : Service}

lemma BelongsTo.mono {id wallet : String} (h : s.BelongsTo id wallet) (hle : s.admitted ⊆ s'.admitted) :
    s'.BelongsTo id wallet := by
  obtain ⟨r, hr, howner⟩ := h
  exact ⟨r, hle hr, howner⟩

/-- The history only grows. -/
lemma admitted_subset_step {a : Action} (hs : step config capabilities s a = some s') :
    s.admitted ⊆ s'.admitted := by
  cases step_effect hs with
  | clock now haction => exact List.Subset.refl _
  | refused id volumeId => exact List.Subset.refl _
  | admitted hfresh hpersistence hadmitted hframe =>
    rw [hframe.admitted]
    exact List.subset_append_left _ _
  | frame hframe => exact hframe.admitted ▸ List.Subset.refl _
  | volumes hnow hrows hvolumes huuids hadmitted => exact hadmitted ▸ List.Subset.refl _
  | maintenance => exact List.Subset.refl _

lemma Owned.frame {done : String → Prop} (h : s.Owned) (hf : Frame done s s') : s'.Owned where
  rows := by
    intro r' hr'
    obtain ⟨r, hr, hm⟩ := hf.rows.exists_of_mem_right hr'
    rw [hm.id_eq, hm.wallet_eq]
    exact (h.rows r hr).mono (hf.admitted ▸ List.Subset.refl _)
  drawn := by
    rw [hf.admitted, hf.uuids]
    exact h.drawn
  unique := by
    simp only [BelongsTo, hf.admitted]
    exact h.unique

/-- The new row has an id that no earlier row had. -/
lemma Owned.insertRow {wallet ipHash id volumeId : String} {storageMode : StorageMode}
    {row : WorkspaceRow} {db : Database} (h : s.Owned) (hfresh : s.fresh id volumeId)
    (ha : Admitted config s.now wallet ipHash storageMode id volumeId s.db row db) :
    Owned { s with db := db, uuids := id :: volumeId :: s.uuids, admitted := s.admitted ++ [row] } := by
  have hid : row.id = id := by
    obtain ⟨volume, rfl, -⟩ := ha.volume
    rfl
  have hnew : ∀ r ∈ s.admitted, r.id ≠ row.id := by
    intro r hr heq
    exact hfresh.1 (hid ▸ heq ▸ h.drawn r hr)
  constructor
  · intro r hr
    rw [ha.workspaces] at hr
    rcases List.mem_append.mp hr with hold | hlast
    · exact (h.rows r hold).mono (List.subset_append_left _ _)
    · obtain rfl := List.mem_singleton.mp hlast
      exact ⟨r, List.mem_append_right _ List.mem_cons_self, rfl, rfl⟩
  · intro r hr
    rcases List.mem_append.mp hr with hold | hlast
    · exact List.mem_cons_of_mem _ (List.mem_cons_of_mem _ (h.drawn r hold))
    · obtain rfl := List.mem_singleton.mp hlast
      exact hid ▸ List.mem_cons_self
  · rintro _ _ _ ⟨r, hr, rfl, rfl⟩ ⟨r', hr', heq, rfl⟩
    rcases List.mem_append.mp hr with hold | hlast
    · rcases List.mem_append.mp hr' with hold' | hlast'
      · exact h.unique r.id _ _ ⟨r, hold, rfl, rfl⟩ ⟨r', hold', heq, rfl⟩
      · obtain rfl := List.mem_singleton.mp hlast'
        exact absurd heq.symm (hnew r hold)
    · obtain rfl := List.mem_singleton.mp hlast
      rcases List.mem_append.mp hr' with hold' | hlast'
      · exact absurd heq (hnew r' hold')
      · rw [List.mem_singleton.mp hlast']

lemma Owned.step {a : Action} (h : s.Owned) (hs : Service.step config capabilities s a = some s') :
    s'.Owned := by
  cases step_effect hs with
  | clock now haction => exact ⟨h.rows, h.drawn, h.unique⟩
  | refused id volumeId =>
    exact ⟨h.rows, fun r hr => List.mem_cons_of_mem _ (List.mem_cons_of_mem _ (h.drawn r hr)), h.unique⟩
  | admitted hfresh hpersistence hadmitted hframe => exact (h.insertRow hfresh hadmitted).frame hframe
  | frame hframe => exact h.frame hframe
  | volumes hnow hrows hvolumes huuids hadmitted =>
    refine ⟨?_, ?_, ?_⟩
    · rw [hrows]
      exact fun r hr => (h.rows r hr).mono (hadmitted ▸ List.Subset.refl _)
    · rw [hadmitted, huuids]
      exact h.drawn
    · simp only [BelongsTo, hadmitted]
      exact h.unique
  | maintenance => exact ⟨fun r hr => h.rows r (Table.mem_deleteWhere.mp hr).1, h.drawn, h.unique⟩

lemma owned_initial : Owned .initial := by
  refine ⟨fun r hr => ?_, fun r hr => ?_, ?_⟩
  · cases hr
  · cases hr
  · rintro id wallet wallet' ⟨r, hr, -⟩
    cases hr

end Service

namespace DataPlane

section Accounts

variable {Contents Input : Type} {config : Config} {capabilities : Option WorkspaceDataCapabilities}
  {machine : WorkspaceMachine Contents Input} {s s' t : DataPlane Contents} {wallet : String}

/-- The calls name workspaces of their wallets. -/
structure Accounted (s : DataPlane Contents) : Prop where
  owned : s.service.Owned
  calls : ∀ call ∈ s.calls, call.rowWallet = toLowerCase call.wallet ∧
    s.service.BelongsTo call.rowId call.rowWallet

lemma Admits.belongsTo {service : Service} {id : String} (h : Admits service wallet id)
    (howned : service.Owned) : service.BelongsTo id (toLowerCase wallet) := by
  obtain ⟨r, hr, rfl, hwallet, -⟩ := h
  exact hwallet ▸ howned.rows r hr

lemma Accounted.withAudit (h : Accounted s) (events : List AuditEvent) (contents : String → Contents)
    (observed : List Observation) :
    Accounted ⟨s.service.withAudit events, contents, s.calls, observed⟩ :=
  ⟨⟨h.owned.rows, h.owned.drawn, h.owned.unique⟩, h.calls⟩

lemma Accounted.set {n : ℕ} {call : DataCall} (h : Accounted s) (hcall : s.calls[n]? = some call)
    (call' : DataCall) (hsame : call'.wallet = call.wallet ∧ call'.rowId = call.rowId ∧
      call'.rowWallet = call.rowWallet) :
    Accounted { s with calls := s.calls.set n call' } := by
  refine ⟨h.owned, fun c hc => ?_⟩
  rcases List.mem_or_eq_of_mem_set hc with hold | rfl
  · exact h.calls c hold
  · obtain ⟨hwallet, hid, hrow⟩ := hsame
    rw [hwallet, hid, hrow]
    exact h.calls call (List.mem_of_getElem? hcall)

lemma log_eq (service : Service) (call : DataCall)
    (entry : Option (String × List (String × DetailValue))) :
    ∃ events, ∀ events₀, log (service.withAudit events₀) call entry =
      service.withAudit (events₀ ++ events) := by
  cases entry with
  | none =>
    refine ⟨[], fun events₀ => ?_⟩
    rw [List.append_nil]
    rfl
  | some entry =>
    obtain ⟨kind, detail⟩ := entry
    exact ⟨[⟨service.now, kind, some call.rowWallet, some call.rowId, detail⟩], fun events₀ => rfl⟩

/-- What `settle` does, up to its audit entry. -/
lemma settle_eq (s : DataPlane Contents) (n : ℕ) (call : DataCall)
    (outcome : Except AgentError call.op.Reply) :
    ∃ events result settled outcome', ∀ (contents : String → Contents) calls events₀ observed,
      settle ⟨s.service.withAudit events₀, contents, calls, observed⟩ n call outcome =
        ⟨s.service.withAudit (events₀ ++ events), contents,
          calls.set n { call with result := result, settled := settled },
          observed ++ [⟨call.wallet, call.op, outcome'⟩]⟩ := by
  cases outcome with
  | ok reply =>
    obtain ⟨events, hlog⟩ := log_eq s.service call (call.op.audited reply)
    refine ⟨events, if call.op.isSingle then call.result else none, call.op.isSingle, .ok reply,
      fun contents calls events₀ observed => ?_⟩
    simp only [settle, hlog]
    rfl
  | error error =>
    obtain ⟨events, hlog⟩ := log_eq s.service call (call.op.failed error)
    refine ⟨events, call.result, true, .error (Service.agentWorkspaceError error),
      fun contents calls events₀ observed => ?_⟩
    simp only [settle, hlog]
    rfl

lemma Accounted.settle {n : ℕ} {call : DataCall} (h : Accounted s) (hcall : s.calls[n]? = some call)
    (outcome : Except AgentError call.op.Reply) : Accounted (s.settle n call outcome) := by
  obtain ⟨events, result, settled, outcome', heq⟩ := settle_eq s n call outcome
  have hsettle := heq s.contents s.calls s.service.db.auditEvents s.observed
  have hself : (⟨s.service.withAudit s.service.db.auditEvents, s.contents, s.calls, s.observed⟩ :
    DataPlane Contents) = s := rfl
  rw [hself] at hsettle
  rw [hsettle]
  have hset := h.set hcall { call with result := result, settled := settled } ⟨rfl, rfl, rfl⟩
  exact hset.withAudit _ _ _

lemma Accounted.onCall {n : ℕ} {f : DataCall → DataPlane Contents} (h : Accounted s)
    (hf : ∀ call, s.calls[n]? = some call → Accounted (f call)) : Accounted (s.onCall n f) := by
  rw [DataPlane.onCall]
  cases hcall : s.calls[n]? with
  | none => exact h
  | some call => exact hf call hcall

lemma Accounted.step {e : DataEvent Input} (h : Accounted s)
    (hs : DataPlane.step config capabilities machine s e = some s') : Accounted s' := by
  cases e with
  | service action =>
    obtain ⟨service, hservice, rfl⟩ := Option.map_eq_some_iff.mp hs
    refine ⟨h.owned.step hservice, fun call hcall => ?_⟩
    exact ⟨(h.calls call hcall).1,
      (h.calls call hcall).2.mono (Service.admitted_subset_step hservice)⟩
  | request wallet id op =>
    cases hs
    rcases request_cases s wallet id op with ⟨hadmits, hsend⟩ | ⟨events, error, hrefused⟩
    · rw [hsend]
      refine ⟨h.owned, fun call hcall => ?_⟩
      rcases List.mem_append.mp hcall with hold | hlast
      · exact h.calls call hold
      · obtain rfl := List.mem_singleton.mp hlast
        exact ⟨rfl, Admits.belongsTo hadmits h.owned⟩
    · rw [hrefused]
      exact h.withAudit _ _ _
  | run n input =>
    cases hs
    refine h.onCall fun call hcall => ?_
    split_ifs
    · exact h
    · have hset := h.set hcall { call with
        result := some (machine.run input call.op (s.contents call.rowId)).2 } ⟨rfl, rfl, rfl⟩
      exact ⟨hset.owned, hset.calls⟩
  | reply n =>
    cases hs
    refine h.onCall fun call hcall => ?_
    cases call.result with
    | none => exact h
    | some outcome =>
      simp only
      split_ifs
      · exact h
      · exact h.settle hcall outcome
  | lose n error =>
    cases hs
    refine h.onCall fun call hcall => ?_
    split_ifs
    · exact h
    · exact h.settle hcall _
  | work id input =>
    cases hs
    exact h.withAudit s.service.db.auditEvents _ _

end Accounts

/-! ### What a wallet can tell apart -/

/-- The calls are the same, but that a call of another wallet may have got something else. -/
structure SameCall (wallet : String) (call call' : DataCall) : Prop where
  wallet_eq : call'.wallet = call.wallet
  rowId_eq : call'.rowId = call.rowId
  rowWallet_eq : call'.rowWallet = call.rowWallet
  own : call.rowWallet = wallet → call' = call

namespace SameCall

variable {wallet : String} {call call' call'' : DataCall}

lemma refl (call : DataCall) : SameCall wallet call call := ⟨rfl, rfl, rfl, fun _ => rfl⟩

lemma symm (h : SameCall wallet call call') : SameCall wallet call' call :=
  ⟨h.wallet_eq.symm, h.rowId_eq.symm, h.rowWallet_eq.symm,
    fun hown => (h.own (h.rowWallet_eq ▸ hown)).symm⟩

lemma trans (h : SameCall wallet call call') (h' : SameCall wallet call' call'') :
    SameCall wallet call call'' where
  wallet_eq := h'.wallet_eq.trans h.wallet_eq
  rowId_eq := h'.rowId_eq.trans h.rowId_eq
  rowWallet_eq := h'.rowWallet_eq.trans h.rowWallet_eq
  own := fun hown => (h'.own (h.rowWallet_eq.trans hown)).trans (h.own hown)

end SameCall

/-- The wallet cannot tell the states apart: they differ in the audit log, in the machines that belong
to others and in what the calls of others have got. -/
structure Alike {Contents : Type} (wallet : String) (s t : DataPlane Contents) : Prop where
  service : ∃ events, t.service = s.service.withAudit events
  contents : ∀ id, (∀ wallet', s.service.BelongsTo id wallet' → wallet' = wallet) →
    t.contents id = s.contents id
  calls : List.Forall₂ (SameCall wallet) s.calls t.calls
  observed : observedBy wallet t = observedBy wallet s

namespace Alike

variable {Contents Input : Type} {config : Config} {capabilities : Option WorkspaceDataCapabilities}
  {machine : WorkspaceMachine Contents Input} {s s' t t' u : DataPlane Contents} {wallet : String}

lemma refl (s : DataPlane Contents) : Alike wallet s s :=
  ⟨⟨s.service.db.auditEvents, rfl⟩, fun _ _ => rfl, List.forall₂_same.mpr fun call _ => .refl call, rfl⟩

lemma symm (h : Alike wallet s t) : Alike wallet t s := by
  obtain ⟨events, hservice⟩ := h.service
  refine ⟨⟨s.service.db.auditEvents, ?_⟩, fun id hid => ?_, ?_, h.observed.symm⟩
  · rw [hservice]
    rfl
  · rw [hservice] at hid
    exact (h.contents id hid).symm
  · exact List.Forall₂.flip (h.calls.imp fun _ _ hsame => hsame.symm)

lemma trans (h : Alike wallet s t) (h' : Alike wallet t u) : Alike wallet s u := by
  obtain ⟨events, hservice⟩ := h.service
  obtain ⟨events', hservice'⟩ := h'.service
  refine ⟨⟨events', ?_⟩, fun id hid => ?_, ?_, h'.observed.trans h.observed⟩
  · rw [hservice', hservice]
    rfl
  · rw [h'.contents id (by rw [hservice]; exact hid), h.contents id hid]
  · have htrans : ∀ a b c, SameCall wallet a b → SameCall wallet b c → SameCall wallet a c :=
      fun _ _ _ hab hbc => hab.trans hbc
    exact Table.forall₂_trans htrans h.calls h'.calls

/-! The parts of a state. -/

lemma withService (h : Alike wallet s t) {service : Service}
    (hle : s.service.admitted ⊆ service.admitted) (events : List AuditEvent) :
    Alike wallet { s with service := service } { t with service := service.withAudit events } :=
  ⟨⟨events, rfl⟩, fun id hid => h.contents id fun wallet' howner => hid wallet' (howner.mono hle),
    h.calls, h.observed⟩

lemma observe (h : Alike wallet s t) (caller : String) (op : DataOperation)
    (outcome : Except ServiceError op.Reply) :
    Alike wallet (s.observe caller op outcome) (t.observe caller op outcome) := by
  refine ⟨h.service, h.contents, h.calls, ?_⟩
  have hobserved := h.observed
  simp only [observedBy, DataPlane.observe, List.filter_append] at hobserved ⊢
  rw [hobserved]

lemma send (h : Alike wallet s t) (caller rowId rowWallet : String) (op : DataOperation) :
    Alike wallet (s.send caller rowId rowWallet op) (t.send caller rowId rowWallet op) :=
  ⟨h.service, h.contents, List.rel_append h.calls (.cons (.refl _) .nil), h.observed⟩

/-! ### Requests -/

lemma ownedRunning_withAudit (service : Service) (caller id operation : String)
    (events : List AuditEvent) :
    (service.ownedRunning caller id operation).1.admitted = service.admitted ∧
    ∃ events', (service.withAudit events).ownedRunning caller id operation =
      ((service.ownedRunning caller id operation).1.withAudit events',
        (service.ownedRunning caller id operation).2) := by
  have hfound : (service.withAudit events).findOwned (toLowerCase caller) id =
    service.findOwned (toLowerCase caller) id := rfl
  have hnow : (service.withAudit events).now = service.now := rfl
  simp only [Service.ownedRunning, hfound, hnow]
  cases service.findOwned (toLowerCase caller) id with
  | none => exact ⟨rfl, _, rfl⟩
  | some row =>
    simp only
    split_ifs
    · exact ⟨rfl, _, rfl⟩
    · exact ⟨rfl, events, rfl⟩

lemma forward (h : Alike wallet s t) (operation : String) (op : DataOperation) (caller id : String) :
    Alike wallet (s.forward operation op caller id) (t.forward operation op caller id) := by
  obtain ⟨events, hservice⟩ := h.service
  obtain ⟨hadmitted, events', howned⟩ := ownedRunning_withAudit s.service caller id operation events
  have hle : s.service.admitted ⊆ (s.service.ownedRunning caller id operation).1.admitted :=
    fun r hr => hadmitted ▸ hr
  have hstate := h.withService hle events'
  rw [DataPlane.forward, DataPlane.forward, hservice, howned]
  revert hstate
  cases s.service.ownedRunning caller id operation with
  | mk service result =>
    cases result with
    | error error => exact fun hstate => hstate.observe ..
    | ok row => exact fun hstate => hstate.send ..

lemma terminal (h : Alike wallet s t) (caller id : String) :
    Alike wallet (s.terminal caller id) (t.terminal caller id) := by
  obtain ⟨events, hservice⟩ := h.service
  have howns : t.service.ownsRunning caller id = s.service.ownsRunning caller id := by
    rw [hservice]
    rfl
  rw [DataPlane.terminal, DataPlane.terminal, howns]
  split_ifs
  · exact h.send ..
  · exact h.observe ..

lemma request (h : Alike wallet s t) (caller id : String) (op : DataOperation) :
    Alike wallet (s.request caller id op) (t.request caller id op) := by
  cases op with
  | terminal => exact h.terminal caller id
  | _ => exact h.forward _ _ caller id

/-! ### Calls -/

lemma forall₂_set_self {n : ℕ} {call call' : DataCall} (hcall : s.calls[n]? = some call)
    (hsame : SameCall wallet call call') :
    List.Forall₂ (SameCall wallet) s.calls (s.calls.set n call') := by
  obtain ⟨hn, rfl⟩ := List.getElem?_eq_some_iff.mp hcall
  have hset := Table.forall₂_set (List.forall₂_same.mpr fun c (_ : c ∈ s.calls) => SameCall.refl c) n hsame
  rwa [List.set_getElem_self hn] at hset

/-- An answer to both sides alike. -/
lemma settle_own (h : Alike wallet s t) (n : ℕ) (call : DataCall)
    (outcome : Except AgentError call.op.Reply) :
    Alike wallet (s.settle n call outcome) (t.settle n call outcome) := by
  obtain ⟨events₀, hservice⟩ := h.service
  obtain ⟨events, result, settled, outcome', heq⟩ := settle_eq s n call outcome
  have hs := heq s.contents s.calls s.service.db.auditEvents s.observed
  have ht := heq t.contents t.calls events₀ t.observed
  have hself : (⟨s.service.withAudit s.service.db.auditEvents, s.contents, s.calls, s.observed⟩ :
    DataPlane Contents) = s := rfl
  have hother : (⟨s.service.withAudit events₀, t.contents, t.calls, t.observed⟩ :
      DataPlane Contents) = t := by
    rw [← hservice]
  rw [hself] at hs
  rw [hother] at ht
  rw [hs, ht]
  refine ⟨⟨_, rfl⟩, h.contents, Table.forall₂_set h.calls n (.refl _), ?_⟩
  have hobserved := h.observed
  simp only [observedBy, List.filter_append] at hobserved ⊢
  rw [hobserved]

/-- The wallet does not see the answers to others. -/
lemma settle_other {n : ℕ} {call : DataCall} (hs : Accounted s) (hcall : s.calls[n]? = some call)
    (hother : call.rowWallet ≠ wallet) (outcome : Except AgentError call.op.Reply) :
    Alike wallet s (s.settle n call outcome) := by
  obtain ⟨events, result, settled, outcome', heq⟩ := settle_eq s n call outcome
  have hsettle := heq s.contents s.calls s.service.db.auditEvents s.observed
  have hself : (⟨s.service.withAudit s.service.db.auditEvents, s.contents, s.calls, s.observed⟩ :
    DataPlane Contents) = s := rfl
  rw [hself] at hsettle
  rw [hsettle]
  refine ⟨⟨_, rfl⟩, fun _ _ => rfl, ?_, ?_⟩
  · exact forall₂_set_self hcall ⟨rfl, rfl, rfl, fun hown => absurd hown hother⟩
  · have hunseen : toLowerCase call.wallet ≠ wallet := by
      rw [← (hs.calls call (List.mem_of_getElem? hcall)).1]
      exact hother
    simp [observedBy, hunseen]

/-- Both machines of a workspace of the wallet are the same and do the same. -/
lemma run_own (h : Alike wallet s t) (hs : Accounted s) {n : ℕ} {call : DataCall}
    (hcall : s.calls[n]? = some call) (hown : call.rowWallet = wallet) (input : Input) :
    Alike wallet (run machine s n call input) (run machine t n call input) := by
  have howner := (hs.calls call (List.mem_of_getElem? hcall)).2
  have hmachine : t.contents call.rowId = s.contents call.rowId :=
    h.contents call.rowId fun wallet' howner' => hown ▸ hs.owned.unique _ _ _ howner' howner
  simp only [run, hmachine]
  refine ⟨h.service, fun id hid => ?_, Table.forall₂_set h.calls n (.refl _), h.observed⟩
  simp only [Function.update_apply]
  split_ifs
  · rfl
  · exact h.contents id hid

/-- A machine of another wallet is not among those that the wallet can tell apart. -/
lemma run_other {n : ℕ} {call : DataCall} (hs : Accounted s) (hcall : s.calls[n]? = some call)
    (hother : call.rowWallet ≠ wallet) (input : Input) : Alike wallet s (run machine s n call input) := by
  have howner := (hs.calls call (List.mem_of_getElem? hcall)).2
  refine ⟨⟨s.service.db.auditEvents, rfl⟩, fun id hid => ?_, ?_, rfl⟩
  · refine Function.update_of_ne ?_ _ _
    rintro rfl
    exact hother (hid _ howner)
  · exact forall₂_set_self hcall ⟨rfl, rfl, rfl, fun hown => absurd hown hother⟩

/-- Two states that a call of the wallet takes alike, and that calls of others leave alike. -/
lemma onCall {n : ℕ} {f g : DataCall → DataPlane Contents} (h : Alike wallet s t)
    (hown : ∀ call, s.calls[n]? = some call → t.calls[n]? = some call → call.rowWallet = wallet →
      Alike wallet (f call) (g call))
    (hleft : ∀ call, s.calls[n]? = some call → call.rowWallet ≠ wallet → Alike wallet s (f call))
    (hright : ∀ call, t.calls[n]? = some call → call.rowWallet ≠ wallet → Alike wallet t (g call)) :
    Alike wallet (s.onCall n f) (t.onCall n g) := by
  rw [DataPlane.onCall, DataPlane.onCall]
  rcases Table.getElem?_of_forall₂ h.calls n with ⟨hs, ht⟩ | ⟨call, call', hs, ht, hsame⟩
  · rw [hs, ht]
    exact h
  · rw [hs, ht]
    by_cases howns : call.rowWallet = wallet
    · obtain rfl := hsame.own howns
      exact hown call' hs ht howns
    · have howns' : call'.rowWallet ≠ wallet := hsame.rowWallet_eq ▸ howns
      exact (hleft call hs howns).symm.trans (h.trans (hright call' ht howns'))

/-- What Alike says of the calls makes the second state accounted for too. -/
lemma accounted (h : Alike wallet s t) (hs : Accounted s) : Accounted t := by
  obtain ⟨events, hservice⟩ := h.service
  constructor
  · rw [hservice]
    exact ⟨hs.owned.rows, hs.owned.drawn, hs.owned.unique⟩
  · intro call' hcall'
    obtain ⟨call, hcall, hsame⟩ := Table.exists_of_forall₂_right h.calls hcall'
    rw [hsame.rowWallet_eq, hsame.wallet_eq, hsame.rowId_eq, hservice]
    exact hs.calls call hcall

/-! ### Steps -/

lemma step (h : Alike wallet s t) (hs : Accounted s) {e : DataEvent Input}
    (hstep : DataPlane.step config capabilities machine s e = some s') :
    ∃ t', DataPlane.step config capabilities machine t e = some t' ∧ Alike wallet s' t' := by
  have ht := h.accounted hs
  cases e with
  | service action =>
    obtain ⟨service, hservice, rfl⟩ := Option.map_eq_some_iff.mp hstep
    obtain ⟨events, hevents⟩ := h.service
    obtain ⟨events', hsame⟩ := Service.step_withAudit config capabilities s.service action events
    refine ⟨{ t with service := service.withAudit events' }, ?_,
      h.withService (Service.admitted_subset_step hservice) events'⟩
    simp only [DataPlane.step, hevents, hsame, hservice, Option.map_some]
  | request caller id op =>
    cases hstep
    exact ⟨_, rfl, h.request caller id op⟩
  | run n input =>
    cases hstep
    refine ⟨_, rfl, h.onCall (fun call hcall hcall' hown => ?_) (fun call hcall hother => ?_)
      fun call hcall hother => ?_⟩
    · split_ifs
      · exact h
      · exact h.run_own hs hcall hown input
    · split_ifs
      · exact .refl s
      · exact run_other hs hcall hother input
    · split_ifs
      · exact .refl t
      · exact run_other ht hcall hother input
  | reply n =>
    cases hstep
    refine ⟨_, rfl, h.onCall (fun call hcall hcall' hown => ?_) (fun call hcall hother => ?_)
      fun call hcall hother => ?_⟩
    · cases call.result with
      | none => exact h
      | some outcome =>
        simp only
        split_ifs
        · exact h
        · exact h.settle_own n call outcome
    · cases call.result with
      | none => exact .refl s
      | some outcome =>
        simp only
        split_ifs
        · exact .refl s
        · exact settle_other hs hcall hother outcome
    · cases call.result with
      | none => exact .refl t
      | some outcome =>
        simp only
        split_ifs
        · exact .refl t
        · exact settle_other ht hcall hother outcome
  | lose n error =>
    cases hstep
    refine ⟨_, rfl, h.onCall (fun call hcall hcall' hown => ?_) (fun call hcall hother => ?_)
      fun call hcall hother => ?_⟩
    · split_ifs
      · exact h
      · exact h.settle_own n call _
    · split_ifs
      · exact .refl s
      · exact settle_other hs hcall hother _
    · split_ifs
      · exact .refl t
      · exact settle_other ht hcall hother _
  | work id input =>
    cases hstep
    refine ⟨_, rfl, h.service, fun id' hid' => ?_, h.calls, h.observed⟩
    simp only [Function.update_apply]
    split_ifs with hid
    · subst hid
      rw [h.contents id' hid']
    · exact h.contents id' hid'

/-- The second run follows the first. -/
lemma exec {events : List (DataEvent Input)} (h : Alike wallet s t) (hs : Accounted s)
    (hexec : Transition.exec (DataPlane.step config capabilities machine) s events = some s') :
    ∃ t', Transition.exec (DataPlane.step config capabilities machine) t events = some t' ∧
      Alike wallet s' t' := by
  induction events generalizing s t with
  | nil =>
    cases hexec
    exact ⟨t, rfl, h⟩
  | cons e events ih =>
    simp only [Transition.exec] at hexec
    split at hexec
    · rename_i s₁ hs₁
      obtain ⟨t₁, ht₁, h₁⟩ := h.step hs hs₁
      obtain ⟨t', ht', h'⟩ := ih h₁ (hs.step hs₁) hexec
      refine ⟨t', ?_, h'⟩
      simp only [Transition.exec, ht₁]
      exact ht'
    · cases hexec

end Alike

section Isolation

variable {Contents Input : Type}

def Reachable (config : Config) (capabilities : Option WorkspaceDataCapabilities)
    (machine : WorkspaceMachine Contents Input) (s : DataPlane Contents) : Prop :=
  ∃ contents, Transition.Leads (step config capabilities machine) Transition.anyStep (initial contents) s

variable {config : Config} {capabilities : Option WorkspaceDataCapabilities}
  {machine : WorkspaceMachine Contents Input} {s : DataPlane Contents}

lemma accounted_of_reachable (h : Reachable config capabilities machine s) : Accounted s := by
  obtain ⟨contents, hleads⟩ := h
  refine Transition.Leads.invariant Accounted hleads ⟨Service.owned_initial, fun call hcall => ?_⟩
    fun _ _ _ ht _ hs => ht.step hs
  cases hcall

/-- The machines of others are not among those that the wallet can tell apart. -/
lemma alike_of_othersOnly {wallet : String} {contents : String → Contents} (hs : Accounted s)
    (hothers : OthersOnly wallet s contents) : Alike wallet s { s with contents := contents } := by
  refine ⟨⟨s.service.db.auditEvents, rfl⟩, fun id hid => ?_,
    List.forall₂_same.mpr fun call _ => .refl call, rfl⟩
  by_contra hdiffers
  obtain ⟨r, hr, rfl, hwallet⟩ := hothers id hdiffers
  exact hwallet (hid _ (hs.owned.rows r hr))

/-- Every call is gated, and what a wallet observes does not depend on the machines of other wallets. -/
theorem isolates (config : Config) (capabilities : Option WorkspaceDataCapabilities)
    (machine : WorkspaceMachine Contents Input) :
    (∀ s e s', step config capabilities machine s e = some s' → Gated s s' e) ∧
    ∀ wallet s contents events s', Reachable config capabilities machine s →
      OthersOnly wallet s contents →
      Transition.exec (step config capabilities machine) s events = some s' →
      ∃ t', Transition.exec (step config capabilities machine) { s with contents := contents } events =
        some t' ∧ observedBy wallet t' = observedBy wallet s' := by
  refine ⟨fun s e s' hs => gated_step hs, fun wallet s contents events s' hreach hothers hexec => ?_⟩
  have hs := accounted_of_reachable hreach
  obtain ⟨t', ht', halike⟩ := (alike_of_othersOnly hs hothers).exec hs hexec
  exact ⟨t', ht', halike.observed⟩

end Isolation

/-! ### Two wallets -/

/-- A machine that holds one file. -/
def oneFileMachine : WorkspaceMachine (List UInt8) Unit where
  run _
    | .writeFile _ bytes, _ => (bytes, .ok ⟨bytes.length, bytes.length, 100⟩)
    | .readFile _, contents => (contents, .ok contents)
    | _, contents => (contents, .error ⟨"unsupported", some 501⟩)
  work _ contents := contents

/-- Two wallets get a workspace each. -/
def twoWorkspaces : List (DataEvent Unit) :=
  [.service (.create "0xa1" "net-1" none "w1" "v1"), .service (.createReply (.ok ())),
    .service .reconcileClear, .service (.create "0xa2" "net-2" none "w2" "v2"),
    .service (.statusReply (.ok .running)), .service (.createReply (.ok ()))]

/-- The first wallet writes and reads its file, the second one reads both. -/
def fileRequests : List (DataEvent Unit) :=
  [.request "0xa1" "w1" (.writeFile "f" [1, 2]), .request "0xa2" "w2" (.readFile "f"), .run 1 (), .run 0 (),
    .reply 0, .reply 1, .request "0xa1" "w1" (.readFile "f"), .run 2 (), .reply 2,
    .request "0xa2" "w1" (.readFile "f")]

/-- The bytes of a file that was read. -/
def Observation.bytes : Observation → Option (List UInt8)
  | ⟨_, .readFile _, .ok bytes⟩ => some bytes
  | _ => none

/-- Other bytes in the machine of the second wallet change what it reads, and nothing for the first. -/
theorem isolates_reads : ∃ s s' t',
    Transition.exec (step .default none oneFileMachine) (initial fun _ => []) twoWorkspaces = some s ∧
      Transition.exec (step .default none oneFileMachine) s fileRequests = some s' ∧
      Transition.exec (step .default none oneFileMachine)
        { s with contents := Function.update s.contents "w2" [7] } fileRequests = some t' ∧
      (observedBy "0xa2" s').map Observation.bytes = [some [], none] ∧
      (observedBy "0xa2" t').map Observation.bytes = [some [7], none] ∧
      (observedBy "0xa1" s').map Observation.bytes = [none, some [1, 2]] ∧
      observedBy "0xa1" t' = observedBy "0xa1" s' := by
  have hrun : ((Transition.exec (step .default none oneFileMachine) (initial fun _ => []) twoWorkspaces).bind
      fun s => (Transition.exec (step .default none oneFileMachine) s fileRequests).bind
        fun s' => (Transition.exec (step .default none oneFileMachine)
          { s with contents := Function.update s.contents "w2" [7] } fileRequests).map
            fun t' => ([observedBy "0xa2" s', observedBy "0xa2" t', observedBy "0xa1" s'].map
              fun observed => observed.map Observation.bytes,
              s.service.db.workspaces.map fun r => (r.id, r.wallet))) =
      some ([[some [], none], [some [7], none], [none, some [1, 2]]], [("w1", "0xa1"), ("w2", "0xa2")]) := by
    decide +kernel
  obtain ⟨s, hs, hnext⟩ := Option.bind_eq_some_iff.mp hrun
  obtain ⟨s', hs', hlast⟩ := Option.bind_eq_some_iff.mp hnext
  obtain ⟨t', ht', hend⟩ := Option.map_eq_some_iff.mp hlast
  simp only [Prod.mk.injEq, List.map_cons, List.map_nil, List.cons.injEq, and_true] at hend
  obtain ⟨⟨hother, hother', hown⟩, hrows⟩ := hend
  refine ⟨s, s', t', hs, hs', ht', hother, hother', hown, ?_⟩
  have hothers : OthersOnly "0xa1" s (Function.update s.contents "w2" [7]) := by
    intro id hid
    have hw : id = "w2" := by
      by_contra hne
      exact hid (Function.update_of_ne hne _ _)
    obtain ⟨r, hr, hfields⟩ := List.mem_map.mp (hrows ▸ List.mem_cons_of_mem _ (List.mem_singleton_self _) :
      ("w2", "0xa2") ∈ s.service.db.workspaces.map fun r => (r.id, r.wallet))
    obtain ⟨hrid, hwallet⟩ := Prod.mk.inj hfields
    refine ⟨r, hr, hrid.trans hw.symm, ?_⟩
    rw [hwallet]
    decide
  obtain ⟨t, ht, hsame⟩ := (isolates .default none oneFileMachine).2 "0xa1" s _ fileRequests s'
    ⟨_, Transition.leads_of_exec hs⟩ hothers hs'
  rw [ht'] at ht
  cases ht
  exact hsame

end DataPlane

end Bloom
