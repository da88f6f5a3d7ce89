import BloomWorkspaces.Control.Workspaces.Admission

/-!
# Steps of the workspace service

The remaining entry points of `WorkspaceService` and the step function over all of them. The service
is a `Transition` system: its labels are the calls that arrive, the replies of the node agent and the
settled promises that resume a suspended call.
-/

namespace Bloom

namespace Service

/-! ### Stopping the current workspace -/

/-- `WHERE wallet = ? AND state IN (ACTIVE) ORDER BY created_at DESC LIMIT 1`. -/
def currentActive (s : Service) (wallet : String) : Option WorkspaceRow :=
  (s.db.workspaces.filter fun r => r.wallet = wallet ∧ r.state.isActive).argmax
    WorkspaceRow.createdAt

/-- `WHERE id = ? AND state IN ('queued','provisioning','running')`. -/
def isStoppable (id : String) (r : WorkspaceRow) : Bool := r.id = id ∧ r.state.isStoppable

@[simp] lemma isStoppable_iff {id : String} {r : WorkspaceRow} :
    isStoppable id r = true ↔ r.id = id ∧ r.state.isStoppable = true := by
  simp [isStoppable]

/-- `stopCurrent` up to its `await`. -/
def stopCurrent (s : Service) (wallet : String) : Service :=
  match s.currentActive (toLowerCase wallet) with
  | none => s
  | some row =>
    let stopping := { s with
      db := s.db.updateWorkspaces (isStoppable row.id) fun r => { r with state := .stopping } }
    let stop := stopping.stopWorkspace row "owner"
    { stop.1 with stopCallers := stop.2 :: stop.1.stopCallers }

/-- A suspended `stopCurrent` continues: it reconciles, or rethrows what the stop threw. -/
def stopCurrentResume (config : Config) (s : Service) (operation : ℕ) : Option Service :=
  if operation ∈ s.stopCallers then
    let resumed := { s with stopCallers := s.stopCallers.erase operation }
    match s.operations[operation]? with
    | some ⟨_, _, _, some (.ok ())⟩ => some (reconcile config resumed)
    | some ⟨_, _, _, some (.error _)⟩ => some resumed
    | _ => none
  else none

/-! ### Destroying a volume -/

/-- The checks of `destroyPersistentVolume`. -/
def destroyGuard (s : Service) (wallet : String) : Except ServiceError PersistentVolumeRow :=
  match s.db.liveVolume wallet with
  | none => .error (.workspace "No persistent workspace volume exists" 404)
  | some volume =>
    if ∃ r ∈ s.db.workspaces, r.volumeId = some volume.id ∧ r.state.isActive then
      .error (.workspace "Stop the workspace before destroying its persistent volume" 409)
    else if wallet ∈ s.destroyingVolumes then
      .error (.workspace "The persistent workspace volume is already being destroyed" 409)
    else .ok volume

/-- `destroyPersistentVolume` up to its `await`. -/
def destroyPersistentVolume (s : Service) (wallet : String) : Except ServiceError Unit × Service :=
  match s.destroyGuard (toLowerCase wallet) with
  | .error error => (.error error, s)
  | .ok volume =>
    (.ok (), { s.send (.destroyVolume volume.id) with
      destroyingVolumes := toLowerCase wallet :: s.destroyingVolumes
      destroying := s.destroying ++ [⟨toLowerCase wallet, volume, s.sent.length⟩] })

/-- A suspended `destroyPersistentVolume` continues with the answer of the agent. -/
def destroyReply (s : Service) (index : ℕ) (reply : Except AgentError Unit) : Option Service :=
  match s.destroying[index]? with
  | none => none
  | some d =>
    let finished := { s with
      destroyingVolumes := s.destroyingVolumes.filter (· ≠ d.wallet)
      destroying := s.destroying.eraseIdx index }
    match reply with
    | .ok () =>
      some ({ finished with
        db := { s.db with
          persistentVolumes := Table.updateWhere
            (fun v => v.id = d.volume.id ∧ v.destroyedAt = none)
            (fun v => { v with destroyedAt := some s.now }) s.db.persistentVolumes }
      }.audit "workspace.volume_destroyed" d.wallet none
        [("quotaBytes", .number d.volume.quotaBytes)])
    | .error _ => some finished

/-! ### Maintenance -/

/-- 30 days. -/
def retentionMs : ℕ := 30 * 24 * 60 * 60000

/-- `state IN ('stopped','failed') AND stopped_at < ?`. -/
def isOutdated (retention : ℕ) (r : WorkspaceRow) : Bool :=
  !r.state.isActive ∧ ∃ t ∈ r.stoppedAt, t < retention

@[simp] lemma isOutdated_iff {retention : ℕ} {r : WorkspaceRow} :
    isOutdated retention r = true ↔
      r.state.isActive = false ∧ ∃ t, r.stoppedAt = some t ∧ t < retention := by
  simp [isOutdated]

/-- The part of `maintenance` that works on the tables of the service. -/
def maintenance (s : Service) : Service :=
  let retention := s.now - retentionMs
  { s with db := { s.db with
      workspaces := Table.deleteWhere (isOutdated retention) s.db.workspaces
      auditEvents := Table.deleteWhere (fun e => e.occurredAt < retention) s.db.auditEvents } }

/-! ### The step function -/

inductive Action
  | clock (now : ℕ)
  | create (wallet ipHash : String) (storage : Option StorageMode) (id volumeId : String)
  | stopCurrent (wallet : String)
  | stopReply (operation : ℕ) (reply : Except AgentError Unit)
  | stopClear (operation : ℕ)
  | stopCurrentResume (operation : ℕ)
  | reconcile
  | reconcileStopped
  | statusReply (reply : Except AgentError RuntimeState)
  | createReply (reply : Except AgentError Unit)
  | reconcileClear
  | destroyPersistentVolume (wallet : String)
  | destroyReply (index : ℕ) (reply : Except AgentError Unit)
  | maintenance

/-- `randomUUID` never repeats an identifier. -/
def fresh (s : Service) (id volumeId : String) : Prop :=
  id ∉ s.uuids ∧ volumeId ∉ s.uuids ∧ id ≠ volumeId

instance (s : Service) (id volumeId : String) : Decidable (s.fresh id volumeId) :=
  inferInstanceAs (Decidable (_ ∧ _ ∧ _))

def step (config : Config) (capabilities : Option WorkspaceDataCapabilities) (s : Service) :
    Action → Option Service
  | .clock now => some { s with now := now }
  | .create wallet ipHash storage id volumeId =>
    if s.fresh id volumeId then
      let drawn := { s with uuids := id :: volumeId :: s.uuids }
      some (create config capabilities drawn wallet ipHash storage id volumeId).2
    else none
  | .stopCurrent wallet => some (s.stopCurrent wallet)
  | .stopReply operation reply => s.stopReply operation reply
  | .stopClear operation => s.stopClear operation
  | .stopCurrentResume operation => stopCurrentResume config s operation
  | .reconcile => some (reconcile config s)
  | .reconcileStopped => reconcileStopped config s
  | .statusReply reply => statusReply config s reply
  | .createReply reply => s.createReply reply
  | .reconcileClear => s.reconcileClear
  | .destroyPersistentVolume wallet => some (s.destroyPersistentVolume wallet).2
  | .destroyReply index reply => s.destroyReply index reply
  | .maintenance => some s.maintenance

/-- The states of every run of the service whose steps meet a condition. -/
def Reachable (config : Config) (capabilities : Option WorkspaceDataCapabilities)
    (allowed : Service → Action → Prop) (s : Service) : Prop :=
  Transition.Leads (step config capabilities) allowed .initial s

/-- The clock does not go back. -/
def clockForward (s : Service) : Action → Prop
  | .clock now => s.now ≤ now
  | _ => True

end Service

end Bloom
