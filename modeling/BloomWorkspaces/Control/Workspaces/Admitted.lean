import BloomWorkspaces.Control.Workspaces.Rows

/-!
# What an admission does

`createBody` either throws, and then `transaction` restores the database, or it meets all five limits
and appends one queued row. `Admitted` says so once, and `Service.step_cases` gathers what any step of
the service can do to the rows, the volumes and the history.
-/

namespace Bloom

/-! ### Running a transaction -/

namespace Transaction

variable {α β : Type} {db db' : Database}

lemma run_bind_ok {body : Transaction α} {k : α → Transaction β} {b : β} :
    (body >>= k).run.run db = (.ok b, db') ↔
      ∃ a db₁, body.run.run db = (.ok a, db₁) ∧ (k a).run.run db₁ = (.ok b, db') := by
  simp only [bind, ExceptT.bind, ExceptT.mk, ExceptT.bindCont, StateT.bind, ExceptT.run,
    StateT.run]
  rcases body db with ⟨e | a, db₁⟩
  · constructor
    · intro h
      cases h
    · rintro ⟨a, d, h, -⟩
      cases h
  · constructor
    · intro h
      exact ⟨a, db₁, rfl, h⟩
    · rintro ⟨a', d, h, h'⟩
      cases h
      exact h'

lemma run_pure_ok {a b : α} :
    (pure a : Transaction α).run.run db = (.ok b, db') ↔ a = b ∧ db = db' := by
  constructor
  · intro h
    cases h
    exact ⟨rfl, rfl⟩
  · rintro ⟨rfl, rfl⟩
    rfl

lemma run_get_ok {d : Database} :
    (get : Transaction Database).run.run db = (.ok d, db') ↔ db = d ∧ db = db' := by
  constructor
  · intro h
    cases h
    exact ⟨rfl, rfl⟩
  · rintro ⟨rfl, rfl⟩
    rfl

lemma run_set_ok {d : Database} {u : PUnit} :
    (set d : Transaction PUnit).run.run db = (.ok u, db') ↔ d = db' := by
  constructor
  · intro h
    cases h
    rfl
  · rintro rfl
    rfl

lemma run_modify_ok {f : Database → Database} {u : PUnit} :
    (modify f : Transaction PUnit).run.run db = (.ok u, db') ↔ f db = db' := by
  constructor
  · intro h
    cases h
    rfl
  · rintro rfl
    rfl

lemma not_run_throw_ok {e : ServiceError} {a : α} :
    ¬(throw e : Transaction α).run.run db = (.ok a, db') := by
  intro h
  cases h

/-- A body that returns is committed. -/
lemma transaction_ok {body : Transaction α} {a : α} :
    transaction body db = (.ok a, db') ↔ body.run.run db = (.ok a, db') := by
  rw [transaction]
  rcases hb : body.run.run db with ⟨e | b, db₁⟩
  · constructor <;> intro h <;> cases h
  · rfl

/-- A body that throws is rolled back. -/
lemma transaction_error {body : Transaction α} {e : ServiceError}
    (h : transaction body db = (.error e, db')) : db' = db := by
  rw [transaction] at h
  rcases hb : body.run.run db with ⟨e' | b, db₁⟩
  · rw [hb] at h
    cases h
    rfl
  · rw [hb] at h
    cases h

end Transaction

open Transaction

variable {config : Config} {now : ℕ} {wallet ipHash id volumeId : String}
  {storageMode : StorageMode} {db db' : Database}

lemma requireBelow_ok {count limit status : ℕ} {message : String} {u : Unit} :
    (requireBelow count limit message status).run.run db = (.ok u, db') ↔
      count < limit ∧ db = db' := by
  unfold requireBelow
  split_ifs with h
  · exact ⟨fun hrun => absurd hrun not_run_throw_ok, fun hlt => absurd h (not_le.mpr hlt.1)⟩
  · simp only [run_pure_ok, true_and, not_le.mp h]

lemma insertVolume_ok {volume : PersistentVolumeRow} {u : Unit} :
    (insertVolume volume).run.run db = (.ok u, db') ↔
      (∀ v ∈ db.persistentVolumes, v.id ≠ volume.id) ∧ db.liveVolume volume.wallet = none ∧
        volume.quotaBytes ≠ 0 ∧
        { db with persistentVolumes := db.persistentVolumes ++ [volume] } = db' := by
  simp only [insertVolume, run_bind_ok, run_get_ok]
  constructor
  · rintro ⟨_, _, ⟨rfl, rfl⟩, h⟩
    split_ifs at h with hc
    · obtain ⟨_, _, hthrow, -⟩ := run_bind_ok.mp h
      exact absurd hthrow not_run_throw_ok
    · push Not at hc
      exact ⟨hc.1, by simpa using hc.2.1, hc.2.2, run_set_ok.mp h⟩
  · rintro ⟨hid, hlive, hquota, h⟩
    refine ⟨db, db, ⟨rfl, rfl⟩, ?_⟩
    rw [if_neg (by push Not; exact ⟨hid, by simp [hlive], hquota⟩)]
    exact run_set_ok.mpr h

lemma insertWorkspace_ok {row : WorkspaceRow} {u : Unit} :
    (insertWorkspace row).run.run db = (.ok u, db') ↔
      (∀ r ∈ db.workspaces, r.id ≠ row.id) ∧ row.storageQuotaBytes ≠ 0 ∧
        (∀ v, row.volumeId = some v → ∃ w ∈ db.persistentVolumes, w.id = v) ∧
        { db with workspaces := db.workspaces ++ [row] } = db' := by
  simp only [insertWorkspace, run_bind_ok, run_get_ok]
  constructor
  · rintro ⟨_, _, ⟨rfl, rfl⟩, h⟩
    split_ifs at h with hc
    · obtain ⟨_, _, hthrow, -⟩ := run_bind_ok.mp h
      exact absurd hthrow not_run_throw_ok
    · push Not at hc
      exact ⟨hc.1, hc.2.1, hc.2.2, run_set_ok.mp h⟩
  · rintro ⟨hid, hquota, hvolume, h⟩
    refine ⟨db, db, ⟨rfl, rfl⟩, ?_⟩
    rw [if_neg (by push Not; exact ⟨hid, hquota, hvolume⟩)]
    exact run_set_ok.mpr h

/-! ### Volumes -/

/-- How `create` obtains the volume of a new row. -/
inductive VolumeChoice (config : Config) (now : ℕ) (wallet volumeId : String) (db : Database) :
    StorageMode → Option PersistentVolumeRow → List PersistentVolumeRow → Prop
  | disposable : VolumeChoice config now wallet volumeId db .disposable none db.persistentVolumes
  | existing (v : PersistentVolumeRow) (h : db.liveVolume wallet = some v) :
      VolumeChoice config now wallet volumeId db .persistent (some { v with lastAttachedAt := now })
        (Table.updateWhere (fun w => w.id = v.id) (fun w => { w with lastAttachedAt := now })
          db.persistentVolumes)
  | created (hlive : db.liveVolume wallet = none) (hid : ∀ v ∈ db.persistentVolumes, v.id ≠ volumeId) :
      VolumeChoice config now wallet volumeId db .persistent
        (some (newVolume config wallet now volumeId))
        (db.persistentVolumes ++ [newVolume config wallet now volumeId])

lemma getOrCreatePersistentVolume_ok {volume : PersistentVolumeRow}
    (h : (getOrCreatePersistentVolume config wallet now volumeId).run.run db = (.ok volume, db')) :
    VolumeChoice config now wallet volumeId db .persistent (some volume) db'.persistentVolumes ∧
      db'.workspaces = db.workspaces := by
  simp only [getOrCreatePersistentVolume, run_bind_ok, run_get_ok] at h
  obtain ⟨_, _, ⟨rfl, rfl⟩, h⟩ := h
  cases hlive : db.liveVolume wallet with
  | some existing =>
    simp only [hlive, run_bind_ok, run_set_ok, run_pure_ok] at h
    obtain ⟨_, _, rfl, rfl, rfl⟩ := h
    exact ⟨.existing existing hlive, rfl⟩
  | none =>
    simp only [hlive, run_bind_ok, run_modify_ok, run_pure_ok] at h
    obtain ⟨_, _, hinsert, _, _, rfl, rfl, rfl⟩ := h
    obtain ⟨hid, -, -, rfl⟩ := insertVolume_ok.mp hinsert
    exact ⟨.created hlive hid, rfl⟩

/-! ### The admitted row -/

/-- The five limits leave room for one more row. -/
structure Limits (config : Config) (now : ℕ) (wallet ipHash : String) (db : Database) : Prop where
  activePerWallet :
    db.count (fun r => r.wallet = wallet ∧ r.state.isActive) < config.maxActivePerWallet
  activePerIp : db.count (fun r => r.ipHash = ipHash ∧ r.state.isActive) < config.maxActivePerIp
  dailyPerWallet :
    db.count (fun r => r.wallet = wallet ∧ now - dayMs ≤ r.createdAt) < config.dailyPerWallet
  dailyPerIp :
    db.count (fun r => r.ipHash = ipHash ∧ now - dayMs ≤ r.createdAt) < config.dailyPerIp
  queue : db.count (fun r => r.state = .queued) < config.maxQueue

/-- The transaction of `create` returned `row` and turned `db` into `db'`. -/
structure Admitted (config : Config) (now : ℕ) (wallet ipHash : String) (storageMode : StorageMode)
    (id volumeId : String) (db : Database) (row : WorkspaceRow) (db' : Database) : Prop where
  limits : Limits config now wallet ipHash db
  volume : ∃ volume, row = newWorkspaceRow config now wallet ipHash storageMode id volume ∧
    VolumeChoice config now wallet volumeId db storageMode volume db'.persistentVolumes
  newId : ∀ r ∈ db.workspaces, r.id ≠ id
  workspaces : db'.workspaces = db.workspaces ++ [row]

lemma checkLimits_ok {u : Unit} :
    (checkLimits config now wallet ipHash).run.run db = (.ok u, db') ↔
      Limits config now wallet ipHash db ∧ db = db' := by
  simp only [checkLimits, run_bind_ok, run_get_ok, requireBelow_ok]
  constructor
  · rintro ⟨_, _, ⟨rfl, rfl⟩, _, _, ⟨h₁, rfl⟩, _, _, ⟨h₂, rfl⟩, _, _, ⟨h₃, rfl⟩, _, _, ⟨h₄, rfl⟩,
      h₅, rfl⟩
    exact ⟨⟨h₁, h₂, h₃, h₄, h₅⟩, rfl⟩
  · rintro ⟨⟨h₁, h₂, h₃, h₄, h₅⟩, rfl⟩
    exact ⟨db, db, ⟨rfl, rfl⟩, (), db, ⟨h₁, rfl⟩, (), db, ⟨h₂, rfl⟩, (), db, ⟨h₃, rfl⟩, (), db,
      ⟨h₄, rfl⟩, h₅, rfl⟩

lemma chooseVolume_ok {volume : Option PersistentVolumeRow}
    (h : (chooseVolume config wallet now volumeId storageMode).run.run db = (.ok volume, db')) :
    VolumeChoice config now wallet volumeId db storageMode volume db'.persistentVolumes ∧
      db'.workspaces = db.workspaces := by
  cases storageMode with
  | disposable =>
    obtain ⟨rfl, rfl⟩ := run_pure_ok.mp h
    exact ⟨.disposable, rfl⟩
  | persistent =>
    obtain ⟨v, _, hv, hpure⟩ := run_bind_ok.mp h
    obtain ⟨rfl, rfl⟩ := run_pure_ok.mp hpure
    exact getOrCreatePersistentVolume_ok hv

theorem createBody_ok {row : WorkspaceRow}
    (h : (createBody config now wallet ipHash storageMode id volumeId).run.run db = (.ok row, db')) :
    Admitted config now wallet ipHash storageMode id volumeId db row db' := by
  simp only [createBody, run_bind_ok, run_modify_ok, run_pure_ok] at h
  obtain ⟨_, _, hlimits, volume, db₁, hvolume, _, db₂, hinsert, _, _, rfl, rfl, rfl⟩ := h
  obtain ⟨hroom, rfl⟩ := checkLimits_ok.mp hlimits
  obtain ⟨hid, -, -, rfl⟩ := insertWorkspace_ok.mp hinsert
  obtain ⟨hchoice, hrows⟩ := chooseVolume_ok hvolume
  rw [hrows] at hid
  exact ⟨hroom, ⟨volume, rfl, hchoice⟩, hid, by rw [← hrows]; rfl⟩

namespace Service

/-! ### What a step does -/

/-- Volumes keep their ids and owners. -/
def VolumesKept : List PersistentVolumeRow → List PersistentVolumeRow → Prop :=
  List.Forall₂ fun v v' => v'.id = v.id ∧ v'.wallet = v.wallet

lemma VolumesKept.refl (t : List PersistentVolumeRow) : VolumesKept t t :=
  List.forall₂_same.mpr fun _ _ => ⟨rfl, rfl⟩

lemma VolumesKept.updateWhere {p : PersistentVolumeRow → Bool}
    {f : PersistentVolumeRow → PersistentVolumeRow} (t : List PersistentVolumeRow)
    (hf : ∀ v, (f v).id = v.id ∧ (f v).wallet = v.wallet) :
    VolumesKept t (Table.updateWhere p f t) := by
  rw [VolumesKept, Table.updateWhere, List.forall₂_map_right_iff, List.forall₂_same]
  intro v _
  by_cases hp : p v
  · simpa [hp] using hf v
  · simp [hp]

/-- The rows that an action may turn into `stopped` or `failed` rows. -/
def settles (s : Service) (a : Action) (id : String) : Prop :=
  (∃ operation op, a = .stopReply operation (.ok ()) ∧ s.operations[operation]? = some op ∧
    op.row.id = id) ∨
  ∃ state row rest call, a = .statusReply (.ok state) ∧ state ≠ .running ∧
    s.reconciliation = some (.checking row rest call) ∧ row.id = id

/-- What a step does to the clock, the rows, the volumes and the history. -/
inductive Effect (config : Config) (capabilities : Option WorkspaceDataCapabilities) (s : Service)
    (a : Action) : Service → Prop
  | clock (now : ℕ) (ha : a = .clock now) : Effect config capabilities s a { s with now := now }
  | refused (id volumeId : String) :
      Effect config capabilities s a { s with uuids := id :: volumeId :: s.uuids }
  | admitted {wallet ipHash : String} {storageMode : StorageMode} {id volumeId : String}
      {row : WorkspaceRow} {db : Database} {s' : Service} (hfresh : s.fresh id volumeId)
      (hpersistence : storageMode = .persistent → ∀ c ∈ capabilities, c.persistence = true)
      (hadmitted : Admitted config s.now wallet ipHash storageMode id volumeId s.db row db)
      (hframe : Frame (settles s a) { s with
        db := db, uuids := id :: volumeId :: s.uuids, admitted := s.admitted ++ [row] } s') :
      Effect config capabilities s a s'
  | frame {s' : Service} (hframe : Frame (settles s a) s s') : Effect config capabilities s a s'
  | volumes {s' : Service} (hnow : s'.now = s.now) (hrows : s'.db.workspaces = s.db.workspaces)
      (hvolumes : VolumesKept s.db.persistentVolumes s'.db.persistentVolumes)
      (huuids : s'.uuids = s.uuids) (hadmitted : s'.admitted = s.admitted) :
      Effect config capabilities s a s'
  | maintenance : Effect config capabilities s a s.maintenance

lemma createGuard_ok {capabilities : Option WorkspaceDataCapabilities} {s : Service} {wallet : String}
    (h : createGuard capabilities s wallet .persistent = .ok ()) :
    ∀ c ∈ capabilities, c.persistence = true := by
  intro c hc
  obtain rfl : capabilities = some c := hc
  by_contra hp
  have hp' : c.persistence = false := by simpa using hp
  simp [createGuard, Option.filter, hp'] at h

/-- A `create` that throws leaves the state of the service as it was. -/
theorem create_error {config : Config} {capabilities : Option WorkspaceDataCapabilities}
    {s s' : Service} {wallet ipHash id volumeId : String} {storage : Option StorageMode}
    {error : ServiceError}
    (h : create config capabilities s wallet ipHash storage id volumeId = (.error error, s')) :
    s' = s := by
  simp only [create] at h
  split at h
  · cases h
    rfl
  · split at h
    · rename_i e db htransaction
      cases h
      rw [transaction_error htransaction]
    · cases h

/-- A `create` that returns has admitted one row and reconciled. -/
theorem create_ok {config : Config} {capabilities : Option WorkspaceDataCapabilities}
    {s s' : Service} {wallet ipHash id volumeId : String} {storage : Option StorageMode}
    {workspace : PublicWorkspace}
    (h : create config capabilities s wallet ipHash storage id volumeId = (.ok workspace, s')) :
    createGuard capabilities s (toLowerCase wallet) (storage.getD .disposable) = .ok () ∧
      ∃ row db, Admitted config s.now (toLowerCase wallet) ipHash (storage.getD .disposable) id
          volumeId s.db row db ∧
        s' = reconcile config { s with db := db, admitted := s.admitted ++ [row] } := by
  simp only [create] at h
  split at h
  · cases h
  · rename_i hguard
    split at h
    · cases h
    · rename_i row db htransaction
      cases h
      exact ⟨hguard, row, db, createBody_ok (transaction_ok.mp htransaction), rfl⟩

lemma effect_create {config : Config} {capabilities : Option WorkspaceDataCapabilities}
    {s : Service} {a : Action} {wallet ipHash id volumeId : String} {storage : Option StorageMode}
    (hfresh : s.fresh id volumeId) :
    Effect config capabilities s a (create config capabilities
      { s with uuids := id :: volumeId :: s.uuids } wallet ipHash storage id volumeId).2 := by
  rcases hcreate : create config capabilities { s with uuids := id :: volumeId :: s.uuids } wallet
    ipHash storage id volumeId with ⟨error | workspace, s'⟩
  · rw [create_error hcreate]
    exact .refused id volumeId
  · obtain ⟨hguard, row, db, hadmitted, rfl⟩ := create_ok hcreate
    refine .admitted hfresh (fun hmode => ?_) hadmitted (frame_reconcile config _)
    rw [hmode] at hguard
    exact createGuard_ok hguard

lemma effect_destroyPersistentVolume {config : Config}
    {capabilities : Option WorkspaceDataCapabilities} {s : Service} {a : Action} (wallet : String) :
    Effect config capabilities s a (s.destroyPersistentVolume wallet).2 := by
  rw [destroyPersistentVolume]
  split
  · exact .frame (.refl s)
  · exact .volumes rfl rfl (.refl _) rfl rfl

lemma effect_destroyReply {config : Config} {capabilities : Option WorkspaceDataCapabilities}
    {s s' : Service} {a : Action} {index : ℕ} {reply : Except AgentError Unit}
    (h : s.destroyReply index reply = some s') : Effect config capabilities s a s' := by
  simp only [destroyReply] at h
  split at h
  · cases h
  · cases reply with
    | ok =>
      cases h
      exact .volumes rfl rfl (.updateWhere _ fun v => ⟨rfl, rfl⟩) rfl rfl
    | error e =>
      cases h
      exact .volumes rfl rfl (.refl _) rfl rfl

lemma frame_stopCurrent {done : String → Prop} (s : Service) (wallet : String) :
    Frame done s (s.stopCurrent wallet) := by
  unfold stopCurrent
  split
  · exact .refl s
  · rename_i row _
    have hmove : ∀ r, isStoppable row.id r = true → Move done s.now r { r with state := .stopping } := by
      intro r hr
      exact .stopping (isStoppable_iff.mp hr).2
    refine ((Frame.updateWorkspaces s hmove).trans (frame_stopWorkspace _ row "owner")).trans ?_
    exact ⟨rfl, rfl, .refl _, rfl, rfl, rfl, rfl⟩

lemma frame_stopCurrentResume {done : String → Prop} {config : Config} {s s' : Service}
    {operation : ℕ} (h : stopCurrentResume config s operation = some s') : Frame done s s' := by
  have hresumed : Frame done s { s with stopCallers := s.stopCallers.erase operation } :=
    ⟨rfl, rfl, .refl _, rfl, rfl, rfl, rfl⟩
  simp only [stopCurrentResume] at h
  split at h
  · split at h
    · cases h
      exact hresumed.trans (frame_reconcile config _)
    · cases h
      exact hresumed
    · cases h
  · cases h

lemma frame_reconcileStopped {done : String → Prop} {config : Config} {s s' : Service}
    (h : reconcileStopped config s = some s') : Frame done s s' := by
  simp only [reconcileStopped] at h
  split at h
  · split at h
    · split at h
      · cases h
        exact frame_stopLoop config _ s
      · cases h
    · cases h
  · cases h

/-- The actions that insert and delete nothing and leave the clock and the volumes alone. -/
def Action.updatesOnly : Action → Bool
  | .clock _ | .create .. | .destroyPersistentVolume _ | .destroyReply .. | .maintenance => false
  | .stopCurrent _ | .stopReply .. | .stopClear _ | .stopCurrentResume _ | .reconcile
  | .reconcileStopped | .statusReply _ | .createReply _ | .reconcileClear => true

theorem step_frame {config : Config} {capabilities : Option WorkspaceDataCapabilities}
    {s s' : Service} {a : Action} (h : step config capabilities s a = some s')
    (ha : a.updatesOnly = true) : Frame (settles s a) s s' := by
  cases a with
  | clock _ => cases ha
  | create => cases ha
  | destroyPersistentVolume _ => cases ha
  | destroyReply => cases ha
  | maintenance => cases ha
  | stopCurrent wallet =>
    cases h
    exact frame_stopCurrent s wallet
  | stopReply operation reply =>
    refine (frame_stopReply h).mono ?_
    rintro id ⟨rfl, op, hop, hid⟩
    exact .inl ⟨operation, op, rfl, hop, hid⟩
  | stopClear operation =>
    simp only [step, stopClear] at h
    split at h
    · cases h
    · split at h
      · cases h
        exact ⟨rfl, rfl, .refl _, rfl, rfl, rfl, rfl⟩
      · cases h
  | stopCurrentResume operation => exact frame_stopCurrentResume h
  | reconcile =>
    cases h
    exact frame_reconcile config s
  | reconcileStopped => exact frame_reconcileStopped h
  | statusReply reply =>
    simp only [step, statusReply] at h
    split at h
    · rename_i row rest call hpc
      cases h
      refine (Frame.mono (frame_applyStatus s row reply) ?_).trans (frame_checkLoop config _ _)
      rintro id ⟨rfl, state, rfl, hstate⟩
      exact .inr ⟨state, row, rest, call, rfl, hstate, hpc, rfl⟩
    · cases h
  | createReply reply =>
    simp only [step, createReply] at h
    split at h
    · cases h
      exact (frame_applyCreate s _ reply).trans (frame_claimLoop _ _)
    · cases h
  | reconcileClear =>
    simp only [step, reconcileClear] at h
    split at h
    · cases h
      exact ⟨rfl, rfl, .refl _, rfl, rfl, rfl, rfl⟩
    · cases h

/-- Every step has one of the effects listed. -/
theorem step_effect {config : Config} {capabilities : Option WorkspaceDataCapabilities}
    {s s' : Service} {a : Action} (h : step config capabilities s a = some s') :
    Effect config capabilities s a s' := by
  cases a with
  | clock now =>
    cases h
    exact .clock now rfl
  | create wallet ipHash storage id volumeId =>
    simp only [step] at h
    split at h
    · rename_i hfresh
      cases h
      exact effect_create hfresh
    · cases h
  | destroyPersistentVolume wallet =>
    cases h
    exact effect_destroyPersistentVolume wallet
  | destroyReply index reply => exact effect_destroyReply h
  | maintenance =>
    cases h
    exact .maintenance
  | _ => exact .frame (step_frame h rfl)

/-- A row that is inactive after a step was inactive before it, or the step settles it. -/
theorem inactive_origin {config : Config} {capabilities : Option WorkspaceDataCapabilities}
    {s s' : Service} {a : Action} (hs : step config capabilities s a = some s')
    {r' : WorkspaceRow} (hr' : r' ∈ s'.db.workspaces) (hinactive : r'.state.isActive = false) :
    (∃ r ∈ s.db.workspaces, r.id = r'.id ∧ r.state.isActive = false) ∨ s.settles a r'.id := by
  cases step_effect hs with
  | clock now haction => exact .inl ⟨r', hr', rfl, hinactive⟩
  | refused id volumeId => exact .inl ⟨r', hr', rfl, hinactive⟩
  | admitted hfresh hpersistence hadmitted hframe =>
    obtain ⟨r, hr, hm⟩ := hframe.rows.exists_of_mem_right hr'
    rcases hm.done_of_inactive hinactive with rfl | hdone
    · rw [hadmitted.workspaces] at hr
      rcases List.mem_append.mp hr with hold | hnew
      · exact .inl ⟨r', hold, rfl, hinactive⟩
      · obtain ⟨volume, hrow, -⟩ := hadmitted.volume
        rw [List.mem_singleton.mp hnew, hrow] at hinactive
        cases hinactive
    · exact .inr (hm.id_eq ▸ hdone)
  | frame hframe =>
    obtain ⟨r, hr, hm⟩ := hframe.rows.exists_of_mem_right hr'
    rcases hm.done_of_inactive hinactive with rfl | hdone
    · exact .inl ⟨r', hr, rfl, hinactive⟩
    · exact .inr (hm.id_eq ▸ hdone)
  | volumes hnow hrows hvolumes huuids hadmitted =>
    exact .inl ⟨r', hrows ▸ hr', rfl, hinactive⟩
  | maintenance => exact .inl ⟨r', (Table.mem_deleteWhere.mp hr').1, rfl, hinactive⟩

end Service

end Bloom
