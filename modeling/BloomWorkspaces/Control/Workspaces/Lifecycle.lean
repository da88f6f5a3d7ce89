import BloomWorkspaces.Control.Workspaces.Capacity

/-!
# The lifecycle of a row

The six `UPDATE workspaces SET state` of the service are issued from three flows with copies of the row
that an `await` may have made stale. One step nevertheless changes the state of a row at most once, by
an arrow of the lifecycle: what `runReconciliation` claims after another update was still queued then.
-/

namespace Bloom

/-! ### The diagram -/

/-- The arrows of the workspace lifecycle. -/
def WorkspaceState.next : WorkspaceState → List WorkspaceState
  | queued => [provisioning, stopping]
  | provisioning => [running, stopping, failed]
  | running => [stopping, failed]
  | stopping => [stopped]
  | stopped | failed => []

/-- `stopped_at` and `failure` are set where the state says so. -/
structure WorkspaceRow.Stamped (r : WorkspaceRow) : Prop where
  stoppedAt : r.stoppedAt.isSome = true ↔ r.state.isActive = false
  failure : r.failure.isSome = true ↔ r.state = .failed

namespace Move

variable {done : String → Prop} {now : ℕ} {r r' : WorkspaceRow}

lemma state_mem_next (h : Move done now r r') : r'.state ∈ r.state.next := by
  cases h with
  | stopping h => cases hs : r.state <;> simp_all [WorkspaceState.isStoppable, WorkspaceState.next]
  | provisioning h => simp [h, WorkspaceState.next]
  | running h => simp [h, WorkspaceState.next]
  | failed h => cases hs : r.state <;> simp_all [WorkspaceState.isStarted, WorkspaceState.next]
  | stopped h => simp [h, WorkspaceState.next]

lemma stamped (h : Move done now r r') (hr : r.Stamped) : r'.Stamped := by
  have hactive := h.isActive_of
  have hstopped : r.stoppedAt = none := by
    simpa using mt hr.stoppedAt.mp (by rw [hactive]; exact Bool.noConfusion)
  have hfailure : r.state ≠ .failed → r.failure = none := by
    intro hne
    simpa using mt hr.failure.mp hne
  cases h with
  | stopping h =>
    have hne : r.state ≠ .failed := fun heq => by simp [heq, WorkspaceState.isStoppable] at h
    exact ⟨by simp [hstopped, WorkspaceState.isActive], by simp [hfailure hne]⟩
  | provisioning h => exact ⟨by simp [hstopped, WorkspaceState.isActive], by simp [hfailure, h]⟩
  | running h => exact ⟨by simp [hstopped, WorkspaceState.isActive], by simp [hfailure, h]⟩
  | failed h hd message => exact ⟨by simp [WorkspaceState.isActive], by simp⟩
  | stopped h hd => exact ⟨by simp [WorkspaceState.isActive], by simp [hfailure, h]⟩

end Move

/-! ### One change of one row -/

/-- The row stays as it is, or one update changes it. -/
abbrev Changed (now : ℕ) : WorkspaceRow → WorkspaceRow → Prop :=
  Relation.ReflGen (Move (fun _ => True) now)

/-- The row stays as it is, or it is claimed. -/
def Claimed (r r' : WorkspaceRow) : Prop :=
  r' = r ∨ r.state = .queued ∧ r' = { r with state := .provisioning }

lemma Claimed.trans {r r' r'' : WorkspaceRow} (h : Claimed r r') (h' : Claimed r' r'') :
    Claimed r r'' := by
  rcases h with rfl | ⟨hqueued, rfl⟩
  · exact h'
  · rcases h' with rfl | ⟨hqueued', -⟩
    · exact .inr ⟨hqueued, rfl⟩
    · cases hqueued'

/-- A row that is not queued is not claimed. -/
lemma Claimed.eq_of_not_queued {r r' : WorkspaceRow} (h : Claimed r r') (hr : r.state ≠ .queued) :
    r' = r := by
  rcases h with rfl | ⟨hqueued, -⟩
  · rfl
  · exact absurd hqueued hr

namespace Changed

variable {now : ℕ} {r r' r'' : WorkspaceRow}

/-- A row that has changed is not queued, so a claim that follows is its first change. -/
lemma claimed (h : Changed now r r') (h' : Claimed r' r'') : Changed now r r'' := by
  cases h with
  | refl =>
    rcases h' with rfl | ⟨hqueued, rfl⟩
    · exact .refl
    · exact .single (.provisioning hqueued)
  | single hm =>
    rw [h'.eq_of_not_queued hm.not_queued]
    exact .single hm

lemma moves (h : Changed now r r') : Moves (fun _ => True) now r r' :=
  h.to_reflTransGen

lemma id_eq (h : Changed now r r') : r'.id = r.id := Moves.id_eq h.moves

lemma eq_or_state_mem_next (h : Changed now r r') : r' = r ∨ r'.state ∈ r.state.next := by
  cases h with
  | refl => exact .inl rfl
  | single hm => exact .inr hm.state_mem_next

lemma stamped (h : Changed now r r') (hr : r.Stamped) : r'.Stamped := by
  cases h with
  | refl => exact hr
  | single hm => exact hm.stamped hr

end Changed

/-- Row by row, the table kept the row or changed it once. -/
abbrev RowsChange (now : ℕ) : List WorkspaceRow → List WorkspaceRow → Prop :=
  List.Forall₂ (Changed now)

namespace RowsChange

variable {now : ℕ} {t t' t'' : List WorkspaceRow}

lemma refl (t : List WorkspaceRow) : RowsChange now t t :=
  List.forall₂_same.mpr fun _ _ => Relation.ReflGen.refl

/-- An update whose assignment is a move of every row it touches. -/
lemma updateWhere {p : WorkspaceRow → Bool} {f : WorkspaceRow → WorkspaceRow}
    (t : List WorkspaceRow) (hf : ∀ r, p r = true → Move (fun _ => True) now r (f r)) :
    RowsChange now t (Table.updateWhere p f t) := by
  rw [RowsChange, Table.updateWhere, List.forall₂_map_right_iff, List.forall₂_same]
  intro r _
  by_cases hp : p r
  · simpa [hp] using Relation.ReflGen.single (hf r hp)
  · simpa [hp] using Relation.ReflGen.refl

lemma claimed (h : RowsChange now t t') (h' : List.Forall₂ Claimed t' t'') :
    RowsChange now t t'' := by
  induction h generalizing t'' with
  | nil =>
    cases h'
    exact .nil
  | cons hab _ ih =>
    cases h' with
    | cons hbc hrest => exact .cons (hab.claimed hbc) (ih hrest)

end RowsChange

namespace Service

variable {config : Config} {capabilities : Option WorkspaceDataCapabilities} {s s' s'' : Service}

/-! ### Claims -/

/-- `s'` differs from `s` in the rows that were claimed and in the suspended calls; nothing was
audited. -/
structure ClaimsOnly (s s' : Service) : Prop where
  rows : List.Forall₂ Claimed s.db.workspaces s'.db.workspaces
  audits : s'.db.auditEvents = s.db.auditEvents

namespace ClaimsOnly

lemma keep (hdb : s'.db = s.db) : ClaimsOnly s s' := by
  refine ⟨?_, by rw [hdb]⟩
  rw [hdb]
  exact List.forall₂_same.mpr fun _ _ => .inl rfl

lemma trans (h : ClaimsOnly s s') (h' : ClaimsOnly s' s'') : ClaimsOnly s s'' := by
  have htrans : ∀ a b c, Claimed a b → Claimed b c → Claimed a c := fun _ _ _ => Claimed.trans
  exact ⟨Table.forall₂_trans htrans h.rows h'.rows, h'.audits.trans h.audits⟩

/-- The `UPDATE` that claims a row. -/
lemma claim (s : Service) (id : String) {s' : Service}
    (hdb : s'.db = s.db.updateWorkspaces (isQueued id) fun r => { r with state := .provisioning }) :
    ClaimsOnly s s' := by
  refine ⟨?_, by rw [hdb]; rfl⟩
  rw [hdb, Database.updateWorkspaces_workspaces, Table.updateWhere, List.forall₂_map_right_iff,
    List.forall₂_same]
  intro r _
  by_cases hq : isQueued id r
  · exact .inr ⟨(isQueued_iff.mp hq).2, by simp [hq]⟩
  · exact .inl (by simp [hq])

end ClaimsOnly

lemma claimsOnly_claimLoop (capacity : ℕ) (s : Service) : ClaimsOnly s (claimLoop capacity s) := by
  induction capacity generalizing s with
  | zero => exact .keep rfl
  | succ capacity ih =>
    simp only [claimLoop]
    split
    · exact .keep rfl
    · rename_i row _
      split
      · exact (ClaimsOnly.claim s row.id rfl).trans (ih _)
      · exact .claim s row.id rfl

lemma claimsOnly_checkLoop (config : Config) (rows : List WorkspaceRow) (s : Service) :
    ClaimsOnly s (checkLoop config rows s) := by
  cases rows with
  | nil => exact claimsOnly_claimLoop _ s
  | cons row rest => exact .keep rfl

lemma stopWorkspace_db (s : Service) (row : WorkspaceRow) (reason : String) :
    (s.stopWorkspace row reason).1.db = s.db := by
  unfold stopWorkspace
  split <;> rfl

lemma claimsOnly_stopLoop (config : Config) (rows : List WorkspaceRow) (s : Service) :
    ClaimsOnly s (stopLoop config rows s) := by
  cases rows with
  | nil => exact claimsOnly_checkLoop config _ s
  | cons row rest => exact .keep (stopWorkspace_db s row _)

/-! ### What one step does to the rows -/

/-- The rows after `UPDATE … SET state = 'stopping'` on the expired ones. -/
def expire (s : Service) : Service :=
  { s with db := s.db.updateWorkspaces (isExpired s.now) fun r => { r with state := .stopping } }

/-- A reconciliation expires rows and then only claims. -/
lemma reconcile_cases (config : Config) (s : Service) :
    reconcile config s = s ∨ ClaimsOnly s.expire (reconcile config s) := by
  unfold reconcile
  split
  · exact .inl rfl
  · exact .inr (claimsOnly_stopLoop config _ _)

lemma rowsChange_expire (s : Service) : RowsChange s.now s.db.workspaces s.expire.db.workspaces :=
  .updateWhere _ fun _ hr => .stopping (isExpired_iff.mp hr).1

lemma rowsChange_reconcile (config : Config) (s : Service) :
    RowsChange s.now s.db.workspaces (reconcile config s).db.workspaces := by
  rcases reconcile_cases config s with heq | hclaims
  · rw [heq]
    exact .refl _
  · exact (rowsChange_expire s).claimed hclaims.rows

lemma rowsChange_stopReply {operation : ℕ} {reply : Except AgentError Unit}
    (h : s.stopReply operation reply = some s') :
    RowsChange s.now s.db.workspaces s'.db.workspaces := by
  rw [stopReply] at h
  split at h
  · cases h
  · rename_i op _
    split at h
    · cases h
    · cases reply with
      | ok =>
        have hrows : RowsChange s.now s.db.workspaces
            (Table.updateWhere (isStopping op.row.id)
              (fun r => { r with state := .stopped, stoppedAt := some s.now }) s.db.workspaces) := by
          refine .updateWhere _ fun r hr => ?_
          exact .stopped (isStopping_iff.mp hr).2 trivial
        cases h
        split
        · exact hrows
        · exact hrows
      | error e =>
        cases h
        exact .refl _

lemma rowsChange_applyStatus (s : Service) (row : WorkspaceRow)
    (reply : Except AgentError RuntimeState) :
    RowsChange s.now s.db.workspaces (s.applyStatus row reply).db.workspaces := by
  unfold applyStatus
  split
  · exact .refl _
  · split
    · exact .updateWhere _ fun r hr => .running (isProvisioning_iff.mp hr).2
    · split
      · exact .updateWhere _ fun r hr => .failed (isStarted_iff.mp hr).2 trivial _
      · exact .refl _

lemma rowsChange_applyCreate (s : Service) (row : WorkspaceRow) (reply : Except AgentError Unit) :
    RowsChange s.now s.db.workspaces (s.applyCreate row reply).db.workspaces := by
  unfold applyCreate
  split
  · exact .updateWhere _ fun r hr => .running (isProvisioning_iff.mp hr).2
  · exact .refl _

lemma rowsChange_stopCurrent (s : Service) (wallet : String) :
    RowsChange s.now s.db.workspaces (s.stopCurrent wallet).db.workspaces := by
  unfold stopCurrent
  split
  · exact .refl _
  · simp only [stopWorkspace_db]
    exact .updateWhere _ fun r hr => .stopping (isStoppable_iff.mp hr).2

lemma rowsChange_stopCurrentResume {operation : ℕ}
    (h : stopCurrentResume config s operation = some s') :
    RowsChange s.now s.db.workspaces s'.db.workspaces := by
  simp only [stopCurrentResume] at h
  split at h
  · split at h
    · cases h
      exact rowsChange_reconcile config { s with stopCallers := s.stopCallers.erase operation }
    · cases h
      exact .refl _
    · cases h
  · cases h

lemma claimsOnly_reconcileStopped (h : reconcileStopped config s = some s') : ClaimsOnly s s' := by
  simp only [reconcileStopped] at h
  split at h
  · split at h
    · split at h
      · cases h
        exact claimsOnly_stopLoop config _ s
      · cases h
    · cases h
  · cases h

/-- What a step does to the table of the workspaces. -/
inductive RowEffect (s s' : Service) : Prop
  | changed (h : RowsChange s.now s.db.workspaces s'.db.workspaces)
  | inserted (row : WorkspaceRow) (hqueued : row.state = .queued) (hstopped : row.stoppedAt = none)
      (hfailure : row.failure = none) (hfresh : row.id ∉ s.uuids)
      (h : RowsChange s.now (s.db.workspaces ++ [row]) s'.db.workspaces)
  | deleted (p : WorkspaceRow → Bool) (h : s'.db.workspaces = Table.deleteWhere p s.db.workspaces)

lemma rowEffect_create {wallet ipHash id volumeId : String} {storage : Option StorageMode}
    (hfresh : s.fresh id volumeId) :
    RowEffect s (create config capabilities { s with uuids := id :: volumeId :: s.uuids } wallet
      ipHash storage id volumeId).2 := by
  rcases hcreate : create config capabilities { s with uuids := id :: volumeId :: s.uuids } wallet
    ipHash storage id volumeId with ⟨error | workspace, s'⟩
  · rw [create_error hcreate]
    exact .changed (.refl _)
  · obtain ⟨-, row, db, hadmitted, rfl⟩ := create_ok hcreate
    obtain ⟨volume, rfl, -⟩ := hadmitted.volume
    have hrow := rowsChange_reconcile config { s with
      db := db
      uuids := id :: volumeId :: s.uuids
      admitted := s.admitted ++ [newWorkspaceRow config s.now (toLowerCase wallet) ipHash
        (storage.getD .disposable) id volume] }
    rw [hadmitted.workspaces] at hrow
    exact .inserted _ rfl rfl rfl hfresh.1 hrow

theorem step_rowEffect {a : Action} (h : step config capabilities s a = some s') :
    RowEffect s s' := by
  cases a with
  | clock now =>
    cases h
    exact .changed (.refl _)
  | create wallet ipHash storage id volumeId =>
    simp only [step] at h
    split at h
    · rename_i hfresh
      cases h
      exact rowEffect_create hfresh
    · cases h
  | stopCurrent wallet =>
    cases h
    exact .changed (rowsChange_stopCurrent s wallet)
  | stopReply operation reply => exact .changed (rowsChange_stopReply h)
  | stopClear operation =>
    simp only [step, stopClear] at h
    split at h
    · cases h
    · split at h
      · cases h
        exact .changed (.refl _)
      · cases h
  | stopCurrentResume operation => exact .changed (rowsChange_stopCurrentResume h)
  | reconcile =>
    cases h
    exact .changed (rowsChange_reconcile config s)
  | reconcileStopped =>
    exact .changed ((RowsChange.refl _).claimed (claimsOnly_reconcileStopped h).rows)
  | statusReply reply =>
    simp only [step, statusReply] at h
    split at h
    · rename_i row rest _ _
      cases h
      exact .changed ((rowsChange_applyStatus s row reply).claimed
        (claimsOnly_checkLoop config rest _).rows)
    · cases h
  | createReply reply =>
    simp only [step, createReply] at h
    split at h
    · rename_i row capacity _ _
      cases h
      exact .changed ((rowsChange_applyCreate s row reply).claimed
        (claimsOnly_claimLoop capacity _).rows)
    · cases h
  | reconcileClear =>
    simp only [step, reconcileClear] at h
    split at h
    · cases h
      exact .changed (.refl _)
    · cases h
  | destroyPersistentVolume wallet =>
    cases h
    refine .changed ?_
    rw [destroyPersistentVolume]
    split
    · exact .refl _
    · exact .refl _
  | destroyReply index reply =>
    simp only [step, destroyReply] at h
    split at h
    · cases h
    · cases reply with
      | ok =>
        cases h
        exact .changed (.refl _)
      | error e =>
        cases h
        exact .changed (.refl _)
  | maintenance =>
    cases h
    exact .deleted _ rfl

/-- Every row comes from a row before the step or was inserted by it. -/
lemma RowEffect.origin (h : RowEffect s s') {r' : WorkspaceRow} (hr' : r' ∈ s'.db.workspaces) :
    (∃ r ∈ s.db.workspaces, Changed s.now r r') ∨
      ∃ row : WorkspaceRow, row.state = .queued ∧ row.Stamped ∧ row.id ∉ s.uuids ∧
        Changed s.now row r' := by
  cases h with
  | changed h => exact .inl (Table.exists_of_forall₂_right h hr')
  | inserted row hqueued hstopped hfailure hfresh h =>
    obtain ⟨r, hr, hc⟩ := Table.exists_of_forall₂_right h hr'
    rcases List.mem_append.mp hr with hold | hnew
    · exact .inl ⟨r, hold, hc⟩
    · obtain rfl := List.mem_singleton.mp hnew
      have hstamped : r.Stamped := by
        constructor
        · simp [hstopped, hqueued, WorkspaceState.isActive]
        · simp [hfailure, hqueued]
      exact .inr ⟨r, hqueued, hstamped, hfresh, hc⟩
  | deleted p h =>
    rw [h] at hr'
    exact .inl ⟨r', (Table.mem_deleteWhere.mp hr').1, .refl⟩

/-! ### Runs -/

theorem stamped_step {a : Action} (h : ∀ r ∈ s.db.workspaces, r.Stamped)
    (hs : step config capabilities s a = some s') : ∀ r ∈ s'.db.workspaces, r.Stamped := by
  intro r' hr'
  rcases (step_rowEffect hs).origin hr' with ⟨r, hr, hc⟩ | ⟨row, -, hstamped, -, hc⟩
  · exact hc.stamped (h r hr)
  · exact hc.stamped hstamped

theorem uuids_subset_step {a : Action} (hs : step config capabilities s a = some s') :
    s.uuids ⊆ s'.uuids := by
  cases step_effect hs with
  | clock now haction => exact List.Subset.refl _
  | refused id volumeId => exact fun x hx => List.mem_cons_of_mem _ (List.mem_cons_of_mem _ hx)
  | admitted hfresh hpersistence hadmitted hframe =>
    rw [hframe.uuids]
    exact fun x hx => List.mem_cons_of_mem _ (List.mem_cons_of_mem _ hx)
  | frame hframe => exact hframe.uuids ▸ List.Subset.refl _
  | volumes hnow hrows hvolumes huuids hadmitted => exact huuids ▸ List.Subset.refl _
  | maintenance => exact List.Subset.refl _

/-- A row whose id was drawn before a step was in the table before it. -/
lemma changed_step {start : Service} {a : Action} (h : Consistent config start s)
    (hs : step config capabilities s a = some s') {r r' : WorkspaceRow} (hr : r ∈ s.db.workspaces)
    (hr' : r' ∈ s'.db.workspaces) (hid : r'.id = r.id) : Changed s.now r r' := by
  rcases (step_rowEffect hs).origin hr' with ⟨r₀, hr₀, hc⟩ | ⟨row, -, -, hfresh, hc⟩
  · have hsame : r₀ = r := Table.eq_of_key_eq h.core.ids_nodup hr₀ hr (hc.id_eq.symm.trans hid)
    exact hsame ▸ hc
  · rw [← hc.id_eq, hid] at hfresh
    exact absurd (h.core.ids_drawn r hr) hfresh

/-- A row that a step inserts may already have left the queue. -/
lemma inserted_step {a : Action} (hs : step config capabilities s a = some s') {r' : WorkspaceRow}
    (hr' : r' ∈ s'.db.workspaces) (hnew : ∀ r ∈ s.db.workspaces, r.id ≠ r'.id) :
    r'.state = .queued ∨ r'.state ∈ WorkspaceState.queued.next := by
  rcases (step_rowEffect hs).origin hr' with ⟨r, hr, hc⟩ | ⟨row, hqueued, -, -, hc⟩
  · exact absurd hc.id_eq.symm (hnew r hr)
  · rcases hc.eq_or_state_mem_next with rfl | hnext
    · exact .inl hqueued
    · exact .inr (hqueued ▸ hnext)

/-- From `s` on the rows of `s` keep their columns, and those that have ended stay as they are. -/
structure Carried (s s' : Service) : Prop where
  uuids : s.uuids ⊆ s'.uuids
  rows : ∀ r ∈ s.db.workspaces, ∀ r' ∈ s'.db.workspaces, r'.id = r.id →
    r'.identity = r.identity ∧ (r.state.isActive = false → r' = r)

lemma Carried.effect (h : Carried s s') (hdrawn : ∀ r ∈ s.db.workspaces, r.id ∈ s.uuids)
    (huuids : s'.uuids ⊆ s''.uuids) (he : RowEffect s' s'') : Carried s s'' := by
  refine ⟨List.Subset.trans h.uuids huuids, fun r hr r'' hr'' hid => ?_⟩
  rcases he.origin hr'' with ⟨r', hr', hc⟩ | ⟨row, -, -, hfresh, hc⟩
  · obtain ⟨hidentity, hended⟩ := h.rows r hr r' hr' (hc.id_eq.symm.trans hid)
    refine ⟨(Moves.identity_eq hc.moves).trans hidentity, fun hinactive => ?_⟩
    obtain rfl := hended hinactive
    exact Moves.eq_of_inactive hc.moves hinactive
  · rw [← hc.id_eq, hid] at hfresh
    exact absurd (h.uuids (hdrawn r hr)) hfresh

lemma Carried.step {a : Action} (h : Carried s s') (hdrawn : ∀ r ∈ s.db.workspaces, r.id ∈ s.uuids)
    (hs : Service.step config capabilities s' a = some s'') : Carried s s'' :=
  h.effect hdrawn (uuids_subset_step hs) (step_rowEffect hs)

lemma Carried.refl (hnd : (s.db.workspaces.map (·.id)).Nodup) : Carried s s := by
  refine ⟨List.Subset.refl _, fun r hr r' hr' hid => ?_⟩
  obtain rfl := Table.eq_of_key_eq hnd hr' hr hid
  exact ⟨rfl, fun _ => rfl⟩

/-- What a run may do with the rows that are in the table at `s`: a step takes a row along at most one
arrow of the lifecycle and inserts a row as a queued one, and from `s` on the other columns and the rows
that have ended never change. -/
structure FollowsLifecycle (config : Config) (capabilities : Option WorkspaceDataCapabilities)
    (s : Service) : Prop where
  stamped : ∀ r ∈ s.db.workspaces, r.Stamped
  arrow : ∀ a s', step config capabilities s a = some s' →
    ∀ r ∈ s.db.workspaces, ∀ r' ∈ s'.db.workspaces, r'.id = r.id →
      r' = r ∨ r'.state ∈ r.state.next
  insert : ∀ a s', step config capabilities s a = some s' → ∀ r' ∈ s'.db.workspaces,
    (∀ r ∈ s.db.workspaces, r.id ≠ r'.id) → r'.state = .queued ∨ r'.state ∈ WorkspaceState.queued.next
  carried : ∀ s', Transition.Leads (step config capabilities) Transition.anyStep s s' →
    ∀ r ∈ s.db.workspaces, ∀ r' ∈ s'.db.workspaces, r'.id = r.id →
      r'.identity = r.identity ∧ (r.state.isActive = false → r' = r)

theorem followsLifecycle_of_reachable {allowed : Service → Action → Prop}
    (h : Reachable config capabilities allowed s) : FollowsLifecycle config capabilities s where
  stamped := by
    refine Transition.Leads.invariant (fun t => ∀ r ∈ t.db.workspaces, r.Stamped) h ?_
      fun _ _ _ ht _ hs => stamped_step ht hs
    intro r hr
    cases hr
  arrow := by
    intro a s' hs r hr r' hr' hid
    exact (changed_step (consistent_of_reachable h) hs hr hr' hid).eq_or_state_mem_next
  insert := fun a s' hs r' hr' hnew => inserted_step hs hr' hnew
  carried := by
    intro s' hrun
    have hcore := (consistent_of_reachable h).core
    have hcarried : Carried s s' :=
      Transition.Leads.invariant (Carried s) hrun (.refl hcore.ids_nodup)
        fun _ _ _ ht _ hs => ht.step hcore.ids_drawn hs
    exact hcarried.rows

theorem followsLifecycle_stopped :
    ∃ s, Transition.exec (step .default none) .initial
        [.create "0xAb" "network" none "w1" "v1", .stopCurrent "0xab", .stopReply 0 (.ok ())] = some s ∧
      s.db.workspaces.map (·.state) = [.stopped] ∧ FollowsLifecycle .default none s := by
  have hrun : ∃ s, Transition.exec (step .default none) .initial
      [.create "0xAb" "network" none "w1" "v1", .stopCurrent "0xab", .stopReply 0 (.ok ())] = some s ∧
      s.db.workspaces.map (·.state) = [.stopped] := ⟨_, rfl, by decide⟩
  obtain ⟨s, hs, hstate⟩ := hrun
  exact ⟨s, hs, hstate, followsLifecycle_of_reachable (Transition.leads_of_exec hs)⟩

end Service

end Bloom
