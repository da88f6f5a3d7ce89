import BloomWorkspaces.Agent.PtyRuntime
import BloomWorkspaces.Control.Workspaces.Step

/-!
# Control plane and node agent

The two processes share no lock. Requests travel from `Service.sent` to the node in any order, and an
answer is only taken from the replies of the node. A request may also fail at the client at any
time, for instance by its timeout, while the node goes on with it.
-/

namespace Bloom

/-- `hasty` is history: the requests about a workspace that the node executed while a `create` of the
same workspace was in flight or in preparation. -/
structure System where
  service : Service
  node : Node
  hasty : List ℕ

namespace System

def initial : System := ⟨.initial, .initial, []⟩

/-- A `create` of the workspace is in flight or in preparation. -/
def Outstanding (s : System) (id : String) : Prop :=
  ∃ call ∈ List.range s.service.sent.length,
    s.service.sent[call]?.bind AgentRequest.createId = some id ∧
      (call ∉ s.node.received ∨ call ∈ s.node.preparing.map (·.1))

instance (s : System) (id : String) : Decidable (s.Outstanding id) :=
  inferInstanceAs (Decidable (∃ call ∈ List.range _, _ ∧ _))

inductive Action
  | control (action : Service.Action)
  | receive (call : ℕ)
  | spawn (call : ℕ)
  | prepareFailed (call : ℕ) (message : String)
  | ready (call : ℕ)
  | setupFailed (call : ℕ) (message : String)
  | exit (process : ℕ) (success : Bool)
  | sweep (id : String)
  | forget (id : String)

/-- An answer of the node that the control plane acts on was given by the node. -/
def answered (s : System) : Service.Action → Bool
  | .stopReply operation (.ok ()) =>
    match s.service.operations[operation]? with
    | some op => (op.call, AgentReply.stopped) ∈ s.node.replies
    | none => false
  | .statusReply (.ok state) =>
    match s.service.reconciliation with
    | some (.checking _ _ call) => (call, AgentReply.status state) ∈ s.node.replies
    | _ => false
  | .createReply (.ok ()) =>
    match s.service.reconciliation with
    | some (.starting _ _ call) => ∃ state ∈ [RuntimeState.running, .stopped, .failed, .missing],
        (call, AgentReply.created state) ∈ s.node.replies
    | _ => false
  | _ => true

/-- The requests whose execution `receive` records as hasty. -/
def isHasty (s : System) : AgentRequest → Bool
  | .status id | .stop id => s.Outstanding id
  | .create _ | .destroyVolume _ => false

def step (config : Config) (capabilities : Option WorkspaceDataCapabilities) (s : System) :
    Action → Option System
  | .control action =>
    if s.answered action then
      match s.service.step config capabilities action with
      | some service => some { s with service := service }
      | none => none
    else none
  | .receive call =>
    match s.service.sent[call]? with
    | some request =>
      if call ∈ s.node.received then none
      else some { s with
        node := s.node.receive s.service.now call request
        hasty := if s.isHasty request then call :: s.hasty else s.hasty }
    | none => none
  | .spawn call =>
    match s.node.preparing.lookup call with
    | some spec => some { s with node := s.node.spawn call spec }
    | none => none
  | .prepareFailed call message =>
    match s.node.preparing.lookup call with
    | some _ => some { s with node := s.node.prepareFailed call message }
    | none => none
  | .ready call =>
    match s.node.starting.lookup call with
    | some spec => some { s with node := s.node.ready call spec }
    | none => none
  | .setupFailed call message =>
    match s.node.starting.lookup call with
    | some spec => some { s with node := s.node.setupFailed call spec message }
    | none => none
  | .exit process success =>
    match s.node.processes.lookup process with
    | some id => some { s with node := s.node.exit process id success }
    | none => none
  | .sweep id => some { s with node := s.node.sweep s.service.now id }
  | .forget id => some { s with node := s.node.forget id }

/-- No process of the workspace runs on the node. -/
def Quiet (s : System) (id : String) : Prop := ∀ p ∈ s.node.processes, p.2 ≠ id

/-- Whatever happens from `s` on, no process runs for a workspace that is `stopped` or `failed` in
`s`. -/
def Terminated (config : Config) (capabilities : Option WorkspaceDataCapabilities) (s : System) :
    Prop :=
  ∀ r ∈ s.service.db.workspaces, r.state.isActive = false →
    ∀ s', Transition.Leads (step config capabilities) Transition.anyStep s s' → s'.Quiet r.id

/-- The control plane settles a workspace only on the answer to a request that the node executed while
no `create` of the workspace was in flight or in preparation. -/
def settledInOrder (s : System) : Action → Bool
  | .control (.stopReply operation (.ok ())) =>
    match s.service.operations[operation]? with
    | some op => op.call ∉ s.hasty
    | none => true
  | .control (.statusReply (.ok state)) =>
    match s.service.reconciliation with
    | some (.checking _ _ call) => state = .running ∨ call ∉ s.hasty
    | _ => true
  | _ => true

end System

end Bloom
