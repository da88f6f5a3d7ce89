import BloomWorkspaces.Control.Workspaces.Admitted

/-!
# The audit log is not read

No statement of the service reads `audit_events`: two services that differ in the log alone take the
same steps, and still differ in the log alone.
-/

namespace Bloom

/-- The database with another log. -/
def Database.withAudit (db : Database) (events : List AuditEvent) : Database :=
  { db with auditEvents := events }

def Service.withAudit (s : Service) (events : List AuditEvent) : Service :=
  { s with db := s.db.withAudit events }

/-! ### Transactions -/

namespace Transaction

variable {α β : Type} {db : Database} {events : List AuditEvent}

/-- The log decides neither what the body answers nor what it writes elsewhere. -/
structure Blind (body : Transaction α) : Prop where
  run : ∀ db events, ∃ events', body.run.run (db.withAudit events) =
    ((body.run.run db).1, (body.run.run db).2.withAudit events')

lemma Blind.pure (a : α) : Blind (pure a : Transaction α) := ⟨fun _ events => ⟨events, rfl⟩⟩

lemma Blind.throw (e : ServiceError) : Blind (throw e : Transaction α) :=
  ⟨fun _ events => ⟨events, rfl⟩⟩

lemma Blind.bind {body : Transaction α} {k : α → Transaction β} (h : Blind body) (hk : ∀ a, Blind (k a)) :
    Blind (body >>= k) := by
  refine ⟨fun db events => ?_⟩
  obtain ⟨events₁, h₁⟩ := h.run db events
  simp only [Bind.bind, ExceptT.bind, ExceptT.mk, ExceptT.bindCont, StateT.bind, ExceptT.run,
    StateT.run] at h₁ ⊢
  rw [h₁]
  cases hbody : body db with
  | mk result db₁ =>
    cases result with
    | error e => exact ⟨events₁, rfl⟩
    | ok a => exact (hk a).run db₁ events₁

/-- A body that begins by reading the tables. -/
lemma Blind.get {k : Database → Transaction α}
    (h : ∀ db events, ∃ events', (k (db.withAudit events)).run.run (db.withAudit events) =
      (((k db).run.run db).1, ((k db).run.run db).2.withAudit events')) :
    Blind (MonadState.get >>= k) := ⟨h⟩

lemma Blind.audit (now : ℕ) (kind : String) (actor workspaceId : Option String)
    (detail : List (String × DetailValue)) :
    Blind (modify fun db => db.audit now kind actor workspaceId detail) :=
  ⟨fun _ events => ⟨events ++ [⟨now, kind, actor, workspaceId, detail⟩], rfl⟩⟩

end Transaction

open Transaction

variable {config : Config} {now : ℕ} {wallet ipHash id volumeId : String} {storageMode : StorageMode}

lemma requireBelow_blind (count limit : ℕ) (message : String) (status : ℕ) :
    Blind (requireBelow count limit message status) := by
  rw [requireBelow]
  split_ifs
  · exact .throw _
  · exact .pure _

lemma insertVolume_blind (volume : PersistentVolumeRow) : Blind (insertVolume volume) := by
  refine .get fun db events => ⟨events, ?_⟩
  by_cases hc : (∃ v ∈ db.persistentVolumes, v.id = volume.id) ∨
      (db.liveVolume volume.wallet).isSome ∨ volume.quotaBytes = 0
  · have hc' : (∃ v ∈ (db.withAudit events).persistentVolumes, v.id = volume.id) ∨
      ((db.withAudit events).liveVolume volume.wallet).isSome ∨ volume.quotaBytes = 0 := hc
    rw [if_pos hc, if_pos hc']
    rfl
  · have hc' : ¬((∃ v ∈ (db.withAudit events).persistentVolumes, v.id = volume.id) ∨
      ((db.withAudit events).liveVolume volume.wallet).isSome ∨ volume.quotaBytes = 0) := hc
    rw [if_neg hc, if_neg hc']
    rfl

lemma insertWorkspace_blind (row : WorkspaceRow) : Blind (insertWorkspace row) := by
  refine .get fun db events => ⟨events, ?_⟩
  by_cases hc : (∃ r ∈ db.workspaces, r.id = row.id) ∨ row.storageQuotaBytes = 0 ∨
      (∃ v, row.volumeId = some v ∧ ¬∃ w ∈ db.persistentVolumes, w.id = v)
  · have hc' : (∃ r ∈ (db.withAudit events).workspaces, r.id = row.id) ∨ row.storageQuotaBytes = 0 ∨
      (∃ v, row.volumeId = some v ∧ ¬∃ w ∈ (db.withAudit events).persistentVolumes, w.id = v) := hc
    rw [if_pos hc, if_pos hc']
    rfl
  · have hc' : ¬((∃ r ∈ (db.withAudit events).workspaces, r.id = row.id) ∨ row.storageQuotaBytes = 0 ∨
      (∃ v, row.volumeId = some v ∧ ¬∃ w ∈ (db.withAudit events).persistentVolumes, w.id = v)) := hc
    rw [if_neg hc, if_neg hc']
    rfl

lemma getOrCreatePersistentVolume_blind (config : Config) (wallet : String) (now : ℕ) (volumeId : String) :
    Blind (getOrCreatePersistentVolume config wallet now volumeId) := by
  refine .get fun db events => ?_
  have hsame : (db.withAudit events).liveVolume wallet = db.liveVolume wallet := rfl
  rw [hsame]
  cases hlive : db.liveVolume wallet with
  | some existing => exact ⟨events, rfl⟩
  | none =>
    have hinsert : Blind (do
        insertVolume (newVolume config wallet now volumeId)
        modify fun db => db.audit now "workspace.volume_created" wallet none
          [("quotaBytes", .number (newVolume config wallet now volumeId).quotaBytes)]
        Pure.pure (newVolume config wallet now volumeId)) :=
      (insertVolume_blind _).bind fun _ => (Blind.audit ..).bind fun _ => .pure _
    exact hinsert.run db events

lemma chooseVolume_blind (config : Config) (wallet : String) (now : ℕ) (volumeId : String)
    (storageMode : StorageMode) : Blind (chooseVolume config wallet now volumeId storageMode) := by
  cases storageMode with
  | disposable => exact .pure _
  | persistent => exact (getOrCreatePersistentVolume_blind ..).bind fun _ => .pure _

lemma checkLimits_blind (config : Config) (now : ℕ) (wallet ipHash : String) :
    Blind (checkLimits config now wallet ipHash) := by
  refine .get fun db events => ?_
  have hlimits : ∀ a b c d e, Blind (do
      requireBelow a config.maxActivePerWallet "This wallet already has an active workspace" 409
      requireBelow b config.maxActivePerIp "This network has reached its active workspace limit" 429
      requireBelow c config.dailyPerWallet "This wallet has reached its 24-hour creation limit" 429
      requireBelow d config.dailyPerIp "This network has reached its 24-hour creation limit" 429
      requireBelow e config.maxQueue "All workspace capacity and queue slots are currently in use" 503) := by
    intro a b c d e
    refine (requireBelow_blind ..).bind fun _ => ?_
    refine (requireBelow_blind ..).bind fun _ => ?_
    refine (requireBelow_blind ..).bind fun _ => ?_
    exact (requireBelow_blind ..).bind fun _ => requireBelow_blind ..
  exact (hlimits _ _ _ _ _).run db events

lemma createBody_blind (config : Config) (now : ℕ) (wallet ipHash : String) (storageMode : StorageMode)
    (id volumeId : String) : Blind (createBody config now wallet ipHash storageMode id volumeId) := by
  refine (checkLimits_blind ..).bind fun _ => ?_
  refine (chooseVolume_blind ..).bind fun _ => ?_
  refine (insertWorkspace_blind _).bind fun _ => ?_
  exact (Blind.audit ..).bind fun _ => .pure _

/-- A transaction is committed or rolled back whatever the log. -/
lemma transaction_withAudit {α : Type} {body : Transaction α} (h : Blind body) (db : Database)
    (events : List AuditEvent) : ∃ events', transaction body (db.withAudit events) =
      ((transaction body db).1, (transaction body db).2.withAudit events') := by
  obtain ⟨events', hrun⟩ := h.run db events
  rw [transaction, transaction, hrun]
  cases hbody : body.run.run db with
  | mk result db' =>
    cases result with
    | error e => exact ⟨events, rfl⟩
    | ok a => exact ⟨events', rfl⟩

namespace Service

variable {s s' : Service} {events : List AuditEvent} {capabilities : Option WorkspaceDataCapabilities}

/-! ### Reconciliation -/

lemma stopWorkspace_withAudit (s : Service) (row : WorkspaceRow) (reason : String)
    (events : List AuditEvent) : (s.withAudit events).stopWorkspace row reason =
      ((s.stopWorkspace row reason).1.withAudit events, (s.stopWorkspace row reason).2) := by
  have hsame : (s.withAudit events).stopOperations = s.stopOperations := rfl
  rw [stopWorkspace, stopWorkspace, hsame]
  split
  · rfl
  · rfl

lemma claimLoop_withAudit (capacity : ℕ) (s : Service) (events : List AuditEvent) :
    claimLoop capacity (s.withAudit events) = (claimLoop capacity s).withAudit events := by
  induction capacity generalizing s with
  | zero => rfl
  | succ capacity ih =>
    have hnext : (s.withAudit events).nextQueued = s.nextQueued := rfl
    rw [claimLoop, claimLoop, hnext]
    cases s.nextQueued with
    | none => rfl
    | some row =>
      simp only
      have hcount : (s.withAudit events).db.count (isQueued row.id) = s.db.count (isQueued row.id) := rfl
      rw [hcount]
      split_ifs
      · exact ih { s with
          db := s.db.updateWorkspaces (isQueued row.id) fun r => { r with state := .provisioning }
          claims := s.claims ++ [row.id] }
      · rfl

lemma checkLoop_withAudit (config : Config) (rows : List WorkspaceRow) (s : Service)
    (events : List AuditEvent) :
    checkLoop config rows (s.withAudit events) = (checkLoop config rows s).withAudit events := by
  cases rows with
  | nil => exact claimLoop_withAudit _ s events
  | cons row rest => rfl

lemma stopLoop_withAudit (config : Config) (rows : List WorkspaceRow) (s : Service)
    (events : List AuditEvent) :
    stopLoop config rows (s.withAudit events) = (stopLoop config rows s).withAudit events := by
  cases rows with
  | nil => exact checkLoop_withAudit config _ s events
  | cons row rest =>
    have hnow : (s.withAudit events).now = s.now := rfl
    simp only [stopLoop, stopWorkspace_withAudit, hnow]
    rfl

lemma reconcile_withAudit (config : Config) (s : Service) (events : List AuditEvent) :
    reconcile config (s.withAudit events) = (reconcile config s).withAudit events := by
  have hsame : (s.withAudit events).reconciliation = s.reconciliation := rfl
  rw [reconcile, reconcile, hsame]
  split_ifs
  · rfl
  · exact stopLoop_withAudit config _ { s with
      db := s.db.updateWorkspaces (isExpired s.now) fun r => { r with state := .stopping } } events

/-! ### Entry points -/

lemma create_withAudit (config : Config) (capabilities : Option WorkspaceDataCapabilities) (s : Service)
    (wallet ipHash : String) (storage : Option StorageMode) (id volumeId : String)
    (events : List AuditEvent) : ∃ events',
      (create config capabilities (s.withAudit events) wallet ipHash storage id volumeId).2 =
        (create config capabilities s wallet ipHash storage id volumeId).2.withAudit events' := by
  have hguard : createGuard capabilities (s.withAudit events) (toLowerCase wallet)
      (storage.getD .disposable) =
        createGuard capabilities s (toLowerCase wallet) (storage.getD .disposable) := rfl
  simp only [create, hguard]
  cases createGuard capabilities s (toLowerCase wallet) (storage.getD .disposable) with
  | error e => exact ⟨events, rfl⟩
  | ok u =>
    obtain ⟨events', htransaction⟩ := transaction_withAudit (createBody_blind config s.now
      (toLowerCase wallet) ipHash (storage.getD .disposable) id volumeId) s.db events
    have hnow : (s.withAudit events).now = s.now := rfl
    have hdb : (s.withAudit events).db = s.db.withAudit events := rfl
    simp only [hnow, hdb, htransaction]
    cases transaction (createBody config s.now (toLowerCase wallet) ipHash
        (storage.getD .disposable) id volumeId) s.db with
    | mk result db =>
      cases result with
      | error e => exact ⟨events', rfl⟩
      | ok row =>
        exact ⟨events', reconcile_withAudit config { s with db := db, admitted := s.admitted ++ [row] }
          events'⟩

lemma stopCurrent_withAudit (s : Service) (wallet : String) (events : List AuditEvent) :
    (s.withAudit events).stopCurrent wallet = (s.stopCurrent wallet).withAudit events := by
  have hsame : (s.withAudit events).currentActive (toLowerCase wallet) =
    s.currentActive (toLowerCase wallet) := rfl
  rw [stopCurrent, stopCurrent, hsame]
  cases s.currentActive (toLowerCase wallet) with
  | none => rfl
  | some row =>
    have hstop := stopWorkspace_withAudit { s with
      db := s.db.updateWorkspaces (isStoppable row.id) fun r => { r with state := .stopping } }
      row "owner" events
    simp only [withAudit, Database.withAudit, Database.updateWorkspaces] at hstop ⊢
    rw [hstop]

lemma stopReply_withAudit (s : Service) (operation : ℕ) (reply : Except AgentError Unit)
    (events : List AuditEvent) : ∃ events', (s.withAudit events).stopReply operation reply =
      (s.stopReply operation reply).map (·.withAudit events') := by
  have hsame : (s.withAudit events).operations = s.operations := rfl
  rw [stopReply, stopReply, hsame]
  cases s.operations[operation]? with
  | none => exact ⟨events, rfl⟩
  | some op =>
    simp only
    by_cases hoperation : op.outcome.isSome = true
    · rw [if_pos hoperation, if_pos hoperation]
      exact ⟨events, rfl⟩
    · rw [if_neg hoperation, if_neg hoperation]
      cases reply with
      | ok u =>
        have hcount : (s.withAudit events).db.count (isStopping op.row.id) =
          s.db.count (isStopping op.row.id) := rfl
        simp only [hcount]
        by_cases hchanges : s.db.count (isStopping op.row.id) = 1
        · rw [if_pos hchanges, if_pos hchanges]
          exact ⟨_, rfl⟩
        · rw [if_neg hchanges, if_neg hchanges]
          exact ⟨events, rfl⟩
      | error e => exact ⟨_, rfl⟩

lemma stopCurrentResume_withAudit (config : Config) (s : Service) (operation : ℕ)
    (events : List AuditEvent) : stopCurrentResume config (s.withAudit events) operation =
      (stopCurrentResume config s operation).map (·.withAudit events) := by
  have hcallers : (s.withAudit events).stopCallers = s.stopCallers := rfl
  have hsame : (s.withAudit events).operations = s.operations := rfl
  rw [stopCurrentResume, stopCurrentResume, hcallers]
  split_ifs with hcaller
  · simp only [hsame]
    split
    · exact congrArg some (reconcile_withAudit config
        { s with stopCallers := s.stopCallers.erase operation } events)
    · rfl
    · rfl
  · rfl

lemma reconcileStopped_withAudit (config : Config) (s : Service) (events : List AuditEvent) :
    reconcileStopped config (s.withAudit events) =
      (reconcileStopped config s).map (·.withAudit events) := by
  have hreconciliation : (s.withAudit events).reconciliation = s.reconciliation := rfl
  have hsame : (s.withAudit events).operations = s.operations := rfl
  rw [reconcileStopped, reconcileStopped, hreconciliation]
  split
  · simp only [hsame]
    split
    · split_ifs
      · exact congrArg some (stopLoop_withAudit config _ s events)
      · rfl
    · rfl
  · rfl

lemma applyStatus_withAudit (s : Service) (row : WorkspaceRow) (reply : Except AgentError RuntimeState)
    (events : List AuditEvent) : ∃ events',
      (s.withAudit events).applyStatus row reply = (s.applyStatus row reply).withAudit events' := by
  cases reply with
  | error e => exact ⟨_, rfl⟩
  | ok state =>
    rw [applyStatus, applyStatus]
    split_ifs
    · exact ⟨_, rfl⟩
    · exact ⟨_, rfl⟩
    · exact ⟨events, rfl⟩

lemma applyCreate_withAudit (s : Service) (row : WorkspaceRow) (reply : Except AgentError Unit)
    (events : List AuditEvent) : ∃ events',
      (s.withAudit events).applyCreate row reply = (s.applyCreate row reply).withAudit events' := by
  cases reply with
  | error e => exact ⟨_, rfl⟩
  | ok u => exact ⟨_, rfl⟩

lemma destroyReply_withAudit (s : Service) (index : ℕ) (reply : Except AgentError Unit)
    (events : List AuditEvent) : ∃ events', (s.withAudit events).destroyReply index reply =
      (s.destroyReply index reply).map (·.withAudit events') := by
  have hsame : (s.withAudit events).destroying = s.destroying := rfl
  rw [destroyReply, destroyReply, hsame]
  cases s.destroying[index]? with
  | none => exact ⟨events, rfl⟩
  | some d =>
    cases reply with
    | ok u => exact ⟨_, rfl⟩
    | error e => exact ⟨events, rfl⟩

/-- Every step is blind to the log. -/
theorem step_withAudit (config : Config) (capabilities : Option WorkspaceDataCapabilities) (s : Service)
    (a : Action) (events : List AuditEvent) : ∃ events',
      step config capabilities (s.withAudit events) a =
        (step config capabilities s a).map (·.withAudit events') := by
  cases a with
  | clock now => exact ⟨events, rfl⟩
  | create wallet ipHash storage id volumeId =>
    by_cases hfresh : s.fresh id volumeId
    · have hfresh' : (s.withAudit events).fresh id volumeId := hfresh
      obtain ⟨events', hcreate⟩ := create_withAudit config capabilities
        { s with uuids := id :: volumeId :: s.uuids } wallet ipHash storage id volumeId events
      simp only [step, if_pos hfresh, if_pos hfresh']
      exact ⟨events', congrArg some hcreate⟩
    · have hfresh' : ¬(s.withAudit events).fresh id volumeId := hfresh
      simp only [step, if_neg hfresh, if_neg hfresh']
      exact ⟨events, rfl⟩
  | stopCurrent wallet => exact ⟨events, congrArg some (stopCurrent_withAudit s wallet events)⟩
  | stopReply operation reply => exact stopReply_withAudit s operation reply events
  | stopClear operation =>
    refine ⟨events, ?_⟩
    have hsame : (s.withAudit events).operations = s.operations := rfl
    simp only [step]
    rw [stopClear, stopClear, hsame]
    cases s.operations[operation]? with
    | none => rfl
    | some op =>
      simp only
      split_ifs
      · rfl
      · rfl
  | stopCurrentResume operation => exact ⟨events, stopCurrentResume_withAudit config s operation events⟩
  | reconcile => exact ⟨events, congrArg some (reconcile_withAudit config s events)⟩
  | reconcileStopped => exact ⟨events, reconcileStopped_withAudit config s events⟩
  | statusReply reply =>
    have hsame : (s.withAudit events).reconciliation = s.reconciliation := rfl
    simp only [step, statusReply, hsame]
    split
    · rename_i row rest call _
      obtain ⟨events', happly⟩ := applyStatus_withAudit s row reply events
      rw [happly, checkLoop_withAudit]
      exact ⟨events', rfl⟩
    · exact ⟨events, rfl⟩
  | createReply reply =>
    have hsame : (s.withAudit events).reconciliation = s.reconciliation := rfl
    simp only [step, createReply, hsame]
    split
    · rename_i row capacity call _
      obtain ⟨events', happly⟩ := applyCreate_withAudit s row reply events
      rw [happly, claimLoop_withAudit]
      exact ⟨events', rfl⟩
    · exact ⟨events, rfl⟩
  | reconcileClear =>
    refine ⟨events, ?_⟩
    have hsame : (s.withAudit events).reconciliation = s.reconciliation := rfl
    simp only [step, reconcileClear, hsame]
    split
    · rfl
    · rfl
  | destroyPersistentVolume wallet =>
    refine ⟨events, ?_⟩
    have hsame : (s.withAudit events).destroyGuard (toLowerCase wallet) =
      s.destroyGuard (toLowerCase wallet) := rfl
    simp only [step, destroyPersistentVolume, hsame]
    split
    · rfl
    · rfl
  | destroyReply index reply => exact destroyReply_withAudit s index reply events
  | maintenance => exact ⟨_, rfl⟩

end Service

end Bloom
