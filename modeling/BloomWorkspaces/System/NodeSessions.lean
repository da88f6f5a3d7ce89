import BloomWorkspaces.Agent.SessionTable
import BloomWorkspaces.System.Lifecycle

/-!
# The sessions of the node

The table of the node that the control plane talks to. In a run of the two processes a workspace begins to
run only when its process is spawned, and a stop that arrives ends what the table has of it.
-/

namespace Bloom

/-! ### The node of the control plane -/

namespace Node

open SessionTable (TurnsInto)

variable {entered : String → Prop}

def sessions (node : Node) : SessionTable := fun id => (node.instances id).map Instance.state

lemma status_eq_running (node : Node) (id : String) :
    node.status id = .running ↔ node.sessions id = some .running := by
  rw [status, sessions]
  cases node.instances id with
  | none => simp
  | some inst => cases hstate : inst.state <;> simp [hstate, InstanceState.runtimeState]

@[simp] lemma sessions_reply (node : Node) (call : ℕ) (answer : AgentReply) :
    (node.reply call answer).sessions = node.sessions := rfl

@[simp] lemma sessions_setInstance (node : Node) (id : String) (instance? : Option Instance) :
    (node.setInstance id instance?).sessions =
      Function.update node.sessions id (instance?.map Instance.state) := by
  funext id'
  by_cases heq : id' = id
  · simp [sessions, setInstance, heq]
  · simp [sessions, setInstance, heq]

lemma sessions_stop (node : Node) (id : String) : (node.stop id).sessions = node.sessions.stop id := by
  unfold stop
  cases hinst : node.instances id with
  | none => exact (SessionTable.stop_of_ne_running (by simp [sessions, hinst])).symm
  | some inst =>
    dsimp only
    split_ifs with hrunning
    · rw [SessionTable.stop_of_running (by simp [sessions, hinst, hrunning])]
      exact sessions_setInstance node id _
    · exact (SessionTable.stop_of_ne_running (by simp [sessions, hinst, hrunning])).symm

lemma sessions_create (node : Node) (now call : ℕ) (spec : RuntimeSpec) :
    (node.create now call spec).sessions = node.sessions := by
  unfold create
  split_ifs <;> rfl

lemma follows_receive (node : Node) (now call : ℕ) (request : AgentRequest) :
    TurnsInto entered node.sessions (node.receive now call request).sessions := by
  cases request with
  | create spec =>
    have hcreate := sessions_create { node with received := call :: node.received } now call spec
    exact hcreate ▸ .refl _
  | status id => exact .refl _
  | stop id =>
    have hstop := sessions_stop { node with received := call :: node.received } id
    exact hstop ▸ .stop node.sessions id
  | destroyVolume volumeId => exact .refl _

lemma sessions_spawn (node : Node) (call : ℕ) (spec : RuntimeSpec) :
    (node.spawn call spec).sessions = node.sessions.enter spec.id :=
  sessions_setInstance node spec.id _

lemma follows_exit (node : Node) (process : ℕ) (id : String) (success : Bool) :
    TurnsInto entered node.sessions (node.exit process id success).sessions := by
  unfold exit
  cases hinst : node.instances id with
  | none => exact .refl _
  | some inst =>
    dsimp only
    by_cases hrunning : inst.process = process ∧ inst.state = .running
    · have hstate : node.sessions id = some .running := by simp [sessions, hinst, hrunning.2]
      rw [if_pos hrunning, sessions_setInstance]
      exact .exited hstate success
    · rw [if_neg hrunning]
      exact .refl _

lemma sessions_forget (node : Node) (id : String) : (node.forget id).sessions = node.sessions.forget id := by
  unfold forget SessionTable.forget
  cases hinst : node.instances id with
  | none =>
    have hnone : node.sessions id = none := by simp [sessions, hinst]
    rw [hnone, if_neg (by simp), ← hnone, Function.update_eq_self]
  | some inst =>
    have hstate : node.sessions id = some inst.state := by simp [sessions, hinst]
    by_cases hrunning : inst.state = .running
    · simp [hstate, hrunning]
    · simp [hstate, hrunning]

lemma follows_sweep (node : Node) (now : ℕ) (id : String) :
    TurnsInto entered node.sessions (node.sweep now id).sessions := by
  unfold sweep
  split
  · split_ifs
    · exact sessions_stop node id ▸ .stop _ id
    · exact .refl _
  · exact .refl _

end Node

namespace System

variable {config : Config} {capabilities : Option WorkspaceDataCapabilities} {s s' : System}

/-- The ids that an action enters in the table. -/
def enters (s : System) (action : Action) (id : String) : Prop :=
  ∃ call spec, action = .spawn call ∧ s.node.preparing.lookup call = some spec ∧ spec.id = id

/-- The table of the node follows, and only a spawn enters an id. -/
theorem follows_of_step {action : Action} (hs : step config capabilities s action = some s') :
    SessionTable.TurnsInto (s.enters action) s.node.sessions s'.node.sessions := by
  cases action with
  | control action =>
    simp only [step] at hs
    split_ifs at hs
    split at hs
    · cases hs
      exact .refl _
    · cases hs
  | receive call =>
    simp only [step] at hs
    split at hs
    · split_ifs at hs <;> cases hs <;> exact Node.follows_receive _ _ _ _
    · cases hs
  | spawn call =>
    simp only [step] at hs
    split at hs
    · rename_i spec hlookup
      cases hs
      exact Node.sessions_spawn s.node call spec ▸ .enter _ ⟨call, spec, rfl, hlookup, rfl⟩
    · cases hs
  | prepareFailed call message =>
    simp only [step] at hs
    split at hs
    · cases hs
      exact .refl _
    · cases hs
  | ready call =>
    simp only [step] at hs
    split at hs
    · cases hs
      exact .refl _
    · cases hs
  | setupFailed call message =>
    simp only [step] at hs
    split at hs
    · rename_i spec hlookup
      cases hs
      have hstop := Node.sessions_stop
        { s.node with starting := s.node.starting.filter (·.1 ≠ call) } spec.id
      exact hstop ▸ .stop s.node.sessions spec.id
    · cases hs
  | exit process success =>
    simp only [step] at hs
    split at hs
    · rename_i id hlookup
      cases hs
      exact Node.follows_exit s.node process id success
    · cases hs
  | sweep id =>
    cases hs
    exact Node.follows_sweep s.node s.service.now id
  | forget id =>
    cases hs
    exact Node.sessions_forget s.node id ▸ .forget _ id

/-- The node only begins to report a workspace as running when it spawns its process. -/
theorem enters_of_status {action : Action} {id : String}
    (hs : step config capabilities s action = some s') (hbefore : s.node.status id ≠ .running)
    (hafter : s'.node.status id = .running) : s.enters action id := by
  rw [Ne, Node.status_eq_running] at hbefore
  rw [Node.status_eq_running] at hafter
  exact (SessionTable.running_of_follows (follows_of_step hs) hafter).resolve_left hbefore

end System

end Bloom
