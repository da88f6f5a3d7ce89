import BloomWorkspaces.Agent.CreateFailure
import BloomWorkspaces.Agent.SessionTable

/-!
# The sessions of a call

The table of `Provisioning`, which a single call of `create` moves, whatever fails on the way.
-/

namespace Bloom

namespace Provisioning

open Action
open SessionTable (TurnsInto)

def Node.sessions (node : Node) : SessionTable := fun id => (node.instances id).map Instance.state

namespace Node

variable (node : Node) (id : String) (cleanup : Cleanup)

lemma sessions_enter (live : Bool) : (node.enter id live cleanup).sessions = node.sessions.enter id := by
  funext id'
  by_cases heq : id' = id
  · simp [sessions, enter, SessionTable.enter, heq]
  · simp [sessions, enter, SessionTable.enter, heq]

lemma sessions_leave (state : InstanceState) :
    (node.leave id state cleanup).sessions = Function.update node.sessions id (some state) := by
  funext id'
  by_cases heq : id' = id
  · simp [sessions, leave, heq]
  · simp [sessions, leave, heq]

lemma sessions_deleteEndpoint (kind : VmKind) : (deleteEndpoint kind id node).sessions = node.sessions := by
  cases kind <;> rfl

lemma sessions_returnUid (uid : Option ℕ) : (returnUid uid node).sessions = node.sessions := by
  cases uid <;> rfl

end Node

variable {α β : Type} {R : SessionTable → SessionTable → Prop} [IsPreorder SessionTable R]
  {config : VmConfig} {env : Environment} {spec : RuntimeSpec} {id : String} {cleanup : Cleanup}

/-! #### Operations that leave the table alone -/

lemma moves_reject (error : CreateError) : Moves Node.sessions R (reject error : Create α) := .throw _

lemma moves_check (c : Bool) (text : String) : Moves Node.sessions R (check c text) := by
  unfold check
  split_ifs
  · exact .pure _
  · exact moves_reject _

lemma moves_liftData (result : Except RuntimeDataError α) : Moves Node.sessions R (liftData result) := by
  cases result with
  | ok a => exact .pure a
  | error error => exact moves_reject _

lemma moves_silent {effect : Node → Node} (h : ∀ node, (effect node).sessions = node.sessions) :
    Moves Node.sessions R (modify effect : Create PUnit) := by
  refine .modify fun node => ?_
  rw [h]
  exact refl_of R _

lemma moves_perform (operation : Operation) : Moves Node.sessions R (perform env operation) := by
  unfold perform
  split_ifs
  · exact moves_reject _
  · exact .pure _

lemma moves_acquire {effect : Node → Node} (operation : Operation)
    (h : ∀ node, (effect node).sessions = node.sessions) :
    Moves Node.sessions R (acquire env operation effect) :=
  .bind (moves_perform operation) fun _ => moves_silent h

lemma moves_rescue {body : Create α} {handler : CreateError → Create α} (hbody : Moves Node.sessions R body)
    (hhandler : ∀ error, Moves Node.sessions R (handler error)) :
    Moves Node.sessions R (rescue body handler) := by
  refine hbody.tryCatch fun failure => ?_
  cases failure with
  | rejected error => exact hhandler error
  | unsettled => exact .throw _

lemma moves_detach {body : Create Unit} (hbody : Moves Node.sessions R body) :
    Moves Node.sessions R (detach body) :=
  hbody.tryCatch fun _ => .throw _

lemma moves_performAll {steps : List (Operation × (Node → Node))}
    (h : ∀ step ∈ steps, ∀ node, (step.2 node).sessions = node.sessions) :
    Moves Node.sessions R (performAll env steps) := by
  unfold performAll
  refine .bind (moves_silent fun node => ?_) fun _ => ?_
  · induction steps generalizing node with
    | nil => rfl
    | cons step steps ih =>
      rw [List.foldl_cons, ih fun step hstep => h step (List.mem_cons_of_mem _ hstep)]
      split_ifs
      · rfl
      · exact h step List.mem_cons_self node
  · split
    · exact moves_reject _
    · exact .pure _

lemma moves_attemptAll (operations : List Operation) : Moves Node.sessions R (attemptAll env operations) :=
  moves_performAll (by simp)

lemma moves_checkQuota (quotaBytes : ℕ) : Moves Node.sessions R (checkQuota env quotaBytes) := by
  unfold checkQuota
  split_ifs
  · exact moves_reject _
  · exact .bind (moves_perform _) fun _ => moves_reject _
  · exact .bind (moves_perform _) fun _ => .pure _

lemma moves_formatImage (volumeId : String) (quotaBytes : ℕ) :
    Moves Node.sessions R (formatImage env volumeId quotaBytes) := by
  refine .bind (moves_perform _) fun _ => .bind (moves_perform _) fun _ => .bind (moves_perform _) fun _ => ?_
  refine .bind (moves_acquire _ fun _ => rfl) fun _ => .bind (moves_perform _) fun _ => .look fun node => ?_
  exact .bind (moves_liftData _) fun _ => .pure _

lemma moves_ensureExt4Volume (volumeId : String) (quotaBytes : ℕ) :
    Moves Node.sessions R (ensureExt4Volume env volumeId quotaBytes) := by
  refine .bind (moves_checkQuota _) fun _ => .bind (moves_perform _) fun _ => .bind (moves_perform _) fun _ => ?_
  refine .look fun node => .bind (moves_liftData _) fun published => ?_
  split_ifs
  · exact moves_perform _
  · refine .bind (moves_rescue (moves_formatImage _ _) fun error => ?_) fun _ => moves_perform _
    exact .bind (moves_perform _) fun _ => moves_reject _

lemma moves_prepareVolume (storage : RuntimeStorage) : Moves Node.sessions R (prepareVolume env storage) := by
  unfold prepareVolume
  split
  · exact moves_ensureExt4Volume _ _
  · exact .pure _

lemma moves_closeEgress (egress : Bool) : Moves Node.sessions R (closeEgress env id egress) := by
  unfold closeEgress
  split_ifs
  · exact moves_acquire _ fun _ => rfl
  · exact .pure _

lemma moves_startEgress : Moves Node.sessions R (startEgress config env id) := by
  unfold startEgress
  split_ifs
  · refine .bind (moves_acquire _ fun _ => rfl) fun _ => ?_
    exact .bind (moves_closeEgress _) fun _ => moves_reject _
  · exact .bind (moves_acquire _ fun _ => rfl) fun _ => .pure _
  · exact .pure _

lemma moves_runCleanup : Moves Node.sessions R (runCleanup config env id cleanup) := by
  unfold runCleanup
  refine .bind (moves_silent fun node => node.sessions_deleteEndpoint id _) fun _ => ?_
  refine .bind (moves_closeEgress _) fun _ => ?_
  refine .bind (moves_silent fun node => node.sessions_returnUid _) fun _ => moves_performAll ?_
  simp only [List.forall_mem_cons]
  exact ⟨fun _ => rfl, fun _ => rfl, by simp⟩

lemma moves_allocateEndpoint : Moves Node.sessions R (allocateEndpoint config env id) := by
  unfold allocateEndpoint
  split_ifs
  · exact moves_acquire _ fun _ => rfl
  · exact .pure _

lemma moves_command : Moves Node.sessions R (command config env spec) := by
  unfold command
  refine .bind (moves_attemptAll _) fun _ => .bind (moves_acquire _ fun _ => rfl) fun _ => ?_
  refine .bind (moves_perform _) fun _ => .bind (moves_prepareVolume _) fun _ => ?_
  exact .bind moves_startEgress fun _ => .bind moves_allocateEndpoint fun _ => .pure _

lemma moves_closing {body : Create Unit} {egress : Bool} (hbody : Moves Node.sessions R body) :
    Moves Node.sessions R (rescue body fun error => do
      closeEgress env spec.id egress
      reject error) :=
  moves_rescue hbody fun _ => .bind (moves_closeEgress _) fun _ => moves_reject _

lemma moves_prepareDirect : Moves Node.sessions R (prepareDirect config env spec) := by
  unfold prepareDirect
  refine .bind (moves_performAll ?_) fun _ => .bind (moves_perform _) fun _ => ?_
  · simp only [List.forall_mem_cons]
    exact ⟨fun _ => rfl, fun _ => rfl, by simp⟩
  · refine .bind (moves_prepareVolume _) fun _ => .bind moves_startEgress fun _ => ?_
    exact .bind (moves_closing (moves_perform _)) fun _ => .pure _

lemma moves_prepareJail (uid : ℕ) : Moves Node.sessions R (prepareJail config env spec uid) := by
  unfold prepareJail
  refine .bind (moves_performAll ?_) fun _ => .bind (moves_attemptAll _) fun _ => ?_
  · simp only [List.forall_mem_cons]
    exact ⟨fun _ => rfl, fun _ => rfl, by simp⟩
  · refine .bind (moves_attemptAll _) fun _ => .bind moves_startEgress fun _ => ?_
    exact .bind (moves_closing (.bind (moves_perform _) fun _ => moves_perform _)) fun _ => .pure _

lemma moves_prepareJailed : Moves Node.sessions R (prepareJailed config env spec) := by
  unfold prepareJailed
  refine .bind (moves_check _ _) fun _ => .look fun node => ?_
  split
  · exact .throw _
  · exact .bind (moves_silent fun _ => rfl) fun _ => moves_prepareJail _

lemma moves_prepare (jailed : Bool) : Moves Node.sessions R (prepare config env spec jailed) := by
  unfold prepare accessPrograms
  refine .bind (moves_attemptAll _) fun _ => ?_
  split_ifs
  · exact moves_prepareJailed
  · exact moves_prepareDirect

/-! #### Sessions -/

variable {entered : String → Prop}

/-- `stop` does to the table what a stop is to do, also where its cleanup fails. -/
lemma sessions_stop :
    Moves Node.sessions (fun t t' => t' = t.stop id) (stop config env id) := by
  intro node
  unfold stop
  rw [outcome_bind_ok (outcome_get node)]
  cases hinst : node.instances id with
  | none => exact (SessionTable.stop_of_ne_running (by simp [Node.sessions, hinst])).symm
  | some inst =>
    obtain ⟨state, cleanup⟩ := inst
    have hstate : node.sessions id = some state := by simp [Node.sessions, hinst]
    cases state with
    | running =>
      dsimp only
      rw [outcome_bind_ok (outcome_modify _ _), SessionTable.stop_of_running hstate,
        ← node.sessions_leave id cleanup]
      have hcleanup : Moves Node.sessions Eq (runCleanup config env id cleanup) := moves_runCleanup
      exact (hcleanup _).mono (fun _ _ h => h.symm) fun _ _ h => h.symm
    | stopped => exact (SessionTable.stop_of_ne_running (by simp [hstate])).symm
    | failed => exact (SessionTable.stop_of_ne_running (by simp [hstate])).symm

lemma moves_stop : Moves Node.sessions (TurnsInto entered) (stop config env id) :=
  sessions_stop.mono fun t _ h => h ▸ .stop t id

/-- A session changes, and what follows moves the table. -/
lemma post_modify_bind {node : Node} {effect : Node → Node} {rest : Create α}
    (h : TurnsInto entered node.sessions (effect node).sessions)
    (hrest : Moves Node.sessions (TurnsInto entered) rest) :
    Post (fun _ node' => TurnsInto entered node.sessions node'.sessions)
      (fun _ node' => TurnsInto entered node.sessions node'.sessions)
      (outcome (modify effect >>= fun _ => rest) node) := by
  rw [outcome_bind_ok (outcome_modify _ _)]
  exact (hrest _).mono (fun _ _ h' => h.trans h') fun _ _ h' => h.trans h'

lemma moves_waitForGuestControl :
    Moves Node.sessions (TurnsInto entered) (waitForGuestControl config env id) := by
  unfold waitForGuestControl
  intro node
  rw [outcome_bind_ok (outcome_get node)]
  split
  · rename_i success cleanedUp cleanup hboot hinst
    have hstate : node.sessions id = some .running := by simp [Node.sessions, hinst]
    apply post_modify_bind
    · rw [Node.sessions_leave]
      exact .exited hstate success
    · split_ifs
      · exact .bind (moves_detach moves_runCleanup) fun _ => moves_reject _
      · exact moves_reject _
  · rename_i event cleanup hboot hinst
    have hstate : node.sessions id = some .running := by simp [Node.sessions, hinst]
    apply post_modify_bind
    · rw [Node.sessions_leave]
      exact .failed hstate
    · exact moves_reject _
  · exact moves_reject _ node
  · exact Moves.pure _ node

lemma moves_enter (hid : entered id) (live : Bool) :
    Moves Node.sessions (TurnsInto entered) (modify (Node.enter id live cleanup) : Create PUnit) := by
  refine .modify fun node => ?_
  rw [Node.sessions_enter]
  exact .enter _ hid

lemma moves_spawnTerminal (hid : entered id) :
    Moves Node.sessions (TurnsInto entered) (spawnTerminal config env id cleanup) := by
  unfold spawnTerminal
  split
  · exact .bind moves_runCleanup fun _ => moves_reject _
  · exact moves_enter hid true

lemma moves_spawnProcess (hid : entered id) :
    Moves Node.sessions (TurnsInto entered) (spawnProcess env id cleanup) := by
  unfold spawnProcess
  split
  · split_ifs
    · exact moves_enter hid false
    · exact moves_reject _
  · exact moves_enter hid true

lemma moves_createTerminal :
    Moves Node.sessions (TurnsInto (· = spec.id)) (createTerminal config env spec) := by
  unfold createTerminal
  refine .bind (moves_check _ _) fun _ => .bind (moves_check _ _) fun _ => .look fun node => ?_
  split_ifs
  · exact .pure _
  · refine .bind (moves_acquire _ fun _ => rfl) fun _ => ?_
    exact .bind moves_command fun _ => moves_spawnTerminal rfl

lemma moves_createQemu : Moves Node.sessions (TurnsInto (· = spec.id)) (createQemu config env spec) := by
  unfold createQemu catchQemu
  refine .bind (moves_liftData _) fun _ => .bind (moves_silent fun _ => rfl) fun _ => ?_
  refine moves_rescue (.bind moves_createTerminal fun _ => moves_waitForGuestControl) fun error => ?_
  refine .bind (moves_rescue moves_stop fun _ => .pure _) fun _ => ?_
  exact .bind (moves_silent fun _ => rfl) fun _ => moves_reject _

lemma moves_createMachine (jailed : Bool) :
    Moves Node.sessions (TurnsInto (· = spec.id)) (createMachine config env spec jailed) := by
  unfold createMachine catchFirecracker
  refine .bind (moves_silent fun _ => rfl) fun _ => ?_
  refine .bind (moves_rescue (moves_prepare jailed) fun error => ?_) fun _ => ?_
  · exact .bind (moves_silent fun _ => rfl) fun _ => moves_reject _
  · refine .bind (moves_spawnProcess rfl) fun _ => moves_rescue moves_waitForGuestControl fun error => ?_
    exact .bind moves_stop fun _ => .bind (moves_silent fun _ => rfl) fun _ => moves_reject _

lemma moves_createFirecracker (jailed : Bool) :
    Moves Node.sessions (TurnsInto (· = spec.id)) (createFirecracker config env spec jailed) := by
  unfold createFirecracker
  refine .bind (moves_check _ _) fun _ => .bind (moves_check _ _) fun _ => .look fun node => ?_
  split_ifs
  · exact .pure _
  · exact .bind (moves_liftData _) fun _ => moves_createMachine jailed

/-- The table of a single call follows, and the call enters no id but its own. -/
theorem follows_create : Moves Node.sessions (TurnsInto (· = spec.id)) (create config env spec) := by
  unfold create
  split
  · exact moves_createQemu
  · exact moves_createFirecracker _

/-- After the call a session runs only if it ran before or if it is that of the call. -/
theorem running_of_create (node : Node) (id : String) :
    Post (fun _ node' => node'.sessions id = some .running → node.sessions id = some .running ∨ id = spec.id)
      (fun _ node' => node'.sessions id = some .running → node.sessions id = some .running ∨ id = spec.id)
      (outcome (create config env spec) node) :=
  (follows_create node).mono (fun _ _ h => SessionTable.running_of_follows h) fun _ _ h =>
    SessionTable.running_of_follows h

end Provisioning

end Bloom
