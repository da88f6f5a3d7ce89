import BloomWorkspaces.Control.Workspaces.Capacity
import BloomWorkspaces.Control.Workspaces.Quotas

/-!
# Persistent volumes

`create` reuses the live volume of a wallet without asking whether an active row is attached to it, as
`destroyPersistentVolume` does. Two active rows then share a volume unless the wallet quota keeps
them apart, so the exclusive use of a volume is a property of the configuration.
-/

namespace Bloom

namespace Service

variable {config : Config} {capabilities : Option WorkspaceDataCapabilities} {s s' : Service}

/-- No volume is attached to two active rows. -/
def VolumesExclusive (s : Service) : Prop :=
  ∀ r ∈ s.db.workspaces, ∀ r' ∈ s.db.workspaces, r.state.isActive = true →
    r'.state.isActive = true → r.volumeId ≠ none → r.volumeId = r'.volumeId → r = r'

/-- `this.runtimeDataCapabilities?.persistence === false`. -/
def persistenceOff (capabilities : Option WorkspaceDataCapabilities) : Prop :=
  ∃ c ∈ capabilities, c.persistence = false

/-- Every attached volume is in the table and belongs to the wallet of the row. -/
structure Attached (s : Service) : Prop where
  ids_nodup : (s.db.persistentVolumes.map (·.id)).Nodup
  owned : ∀ r ∈ s.db.workspaces, ∀ id, r.volumeId = some id →
    ∃ v ∈ s.db.persistentVolumes, v.id = id ∧ v.wallet = r.wallet

/-! ### Volumes keep their owners -/

namespace VolumesKept

variable {t t' : List PersistentVolumeRow}

lemma ids_eq (h : VolumesKept t t') : t'.map (·.id) = t.map (·.id) := by
  induction h with
  | nil => rfl
  | cons hab _ ih => rw [List.map_cons, List.map_cons, hab.1, ih]

lemma exists_of_mem (h : VolumesKept t t') {v : PersistentVolumeRow} (hv : v ∈ t) :
    ∃ v' ∈ t', v'.id = v.id ∧ v'.wallet = v.wallet := by
  induction h with
  | nil => cases hv
  | @cons a b l l' hab _ ih =>
    rcases List.mem_cons.mp hv with rfl | hmem
    · exact ⟨b, List.mem_cons_self, hab⟩
    · obtain ⟨v', hv', heq⟩ := ih hmem
      exact ⟨v', List.mem_cons_of_mem b hv', heq⟩

end VolumesKept

/-- What `create` does to the volumes: none is lost, and the attached one belongs to the wallet. -/
lemma volumes_of_choice {now : ℕ} {wallet volumeId : String} {db : Database}
    {storageMode : StorageMode} {volume : Option PersistentVolumeRow}
    {volumes : List PersistentVolumeRow}
    (h : VolumeChoice config now wallet volumeId db storageMode volume volumes)
    (hnd : (db.persistentVolumes.map (·.id)).Nodup) :
    (volumes.map (·.id)).Nodup ∧
      (∀ v ∈ db.persistentVolumes, ∃ v' ∈ volumes, v'.id = v.id ∧ v'.wallet = v.wallet) ∧
      ∀ w, volume = some w → ∃ v' ∈ volumes, v'.id = w.id ∧ v'.wallet = wallet := by
  cases h with
  | disposable =>
    refine ⟨hnd, fun v hv => ⟨v, hv, rfl, rfl⟩, fun w hw => ?_⟩
    cases hw
  | existing v hlive =>
    have hkept : VolumesKept db.persistentVolumes
        (Table.updateWhere (fun w => w.id = v.id) (fun w => { w with lastAttachedAt := now })
          db.persistentVolumes) := .updateWhere _ fun _ => ⟨rfl, rfl⟩
    refine ⟨hkept.ids_eq ▸ hnd, fun w hw => hkept.exists_of_mem hw, fun w hw => ?_⟩
    cases hw
    obtain ⟨hmem, hwallet, -⟩ := Database.liveVolume_some hlive
    obtain ⟨v', hv', hid, howner⟩ := hkept.exists_of_mem hmem
    exact ⟨v', hv', hid, howner.trans hwallet⟩
  | created hlive hid =>
    refine ⟨?_, fun v hv => ⟨v, List.mem_append_left _ hv, rfl, rfl⟩, fun w hw => ?_⟩
    · rw [List.map_append, List.map_singleton, List.nodup_append_comm, List.singleton_append,
        List.nodup_cons]
      refine ⟨fun hmem => ?_, hnd⟩
      obtain ⟨v, hv, hvid⟩ := List.mem_map.mp hmem
      exact hid v hv hvid
    · cases hw
      exact ⟨_, List.mem_append_right _ (List.mem_singleton.mpr rfl), rfl, rfl⟩

lemma volume_none_or_persistent {now : ℕ} {wallet volumeId : String} {db : Database}
    {storageMode : StorageMode} {volume : Option PersistentVolumeRow}
    {volumes : List PersistentVolumeRow}
    (h : VolumeChoice config now wallet volumeId db storageMode volume volumes) :
    volume = none ∨ storageMode = .persistent := by
  cases h with
  | disposable => exact .inl rfl
  | existing v hlive => exact .inr rfl
  | created hlive hid => exact .inr rfl

lemma Attached.frame {done : String → Prop} (h : Attached s) (hf : Frame done s s') :
    Attached s' where
  ids_nodup := hf.volumes ▸ h.ids_nodup
  owned := by
    intro r' hr' id hid
    obtain ⟨r, hr, hm⟩ := hf.rows.exists_of_mem_right hr'
    rw [hm.volumeId_eq] at hid
    obtain ⟨v, hv, hvid, hwallet⟩ := h.owned r hr id hid
    exact ⟨v, hf.volumes ▸ hv, hvid, hm.wallet_eq ▸ hwallet⟩

lemma Attached.insertRow {wallet ipHash id volumeId : String} {storageMode : StorageMode}
    {row : WorkspaceRow} {db : Database} {uuids : List String} {admitted : List WorkspaceRow}
    (h : Attached s)
    (ha : Admitted config s.now wallet ipHash storageMode id volumeId s.db row db) :
    Attached { s with db := db, uuids := uuids, admitted := admitted } := by
  obtain ⟨volume, hrow, hchoice⟩ := ha.volume
  obtain ⟨hnd, hkept, hattached⟩ := volumes_of_choice hchoice h.ids_nodup
  refine ⟨hnd, fun r hr id hid => ?_⟩
  rw [ha.workspaces] at hr
  rcases List.mem_append.mp hr with hold | hnew
  · obtain ⟨v, hv, hvid, hwallet⟩ := h.owned r hold id hid
    obtain ⟨v', hv', hid', hwallet'⟩ := hkept v hv
    exact ⟨v', hv', hid'.trans hvid, hwallet'.trans hwallet⟩
  · obtain rfl := List.mem_singleton.mp hnew
    subst hrow
    obtain ⟨w, hw, hwid⟩ := Option.map_eq_some_iff.mp hid
    obtain ⟨v', hv', hid', hwallet'⟩ := hattached w hw
    exact ⟨v', hv', hid'.trans hwid, hwallet'⟩

theorem Attached.step {a : Action} (h : Attached s)
    (hs : step config capabilities s a = some s') : Attached s' := by
  cases step_effect hs with
  | clock now haction => exact ⟨h.ids_nodup, h.owned⟩
  | refused id volumeId => exact ⟨h.ids_nodup, h.owned⟩
  | admitted hfresh hpersistence hadmitted hframe => exact (h.insertRow hadmitted).frame hframe
  | frame hframe => exact h.frame hframe
  | volumes hnow hrows hvolumes huuids hadmitted =>
    refine ⟨hvolumes.ids_eq ▸ h.ids_nodup, fun r hr id hid => ?_⟩
    rw [hrows] at hr
    obtain ⟨v, hv, hvid, hwallet⟩ := h.owned r hr id hid
    obtain ⟨v', hv', hid', hwallet'⟩ := hvolumes.exists_of_mem hv
    exact ⟨v', hv', hid'.trans hvid, hwallet'.trans hwallet⟩
  | maintenance => exact ⟨h.ids_nodup, fun r hr => h.owned r (Table.mem_deleteWhere.mp hr).1⟩

lemma attached_initial : Attached .initial := by
  refine ⟨List.nodup_nil, fun r hr => ?_⟩
  cases hr

/-! ### Where the volumes are exclusive -/

/-- With one active row for each wallet, rows that share a volume are the same row. -/
lemma Attached.volumesExclusive (h : Attached s) (hone : config.maxActivePerWallet = 1)
    (hlimits : ActiveLimits config s.db.workspaces) : VolumesExclusive s := by
  intro r hr r' hr' hactive hactive' hsome hshared
  obtain ⟨id, hid⟩ := Option.ne_none_iff_exists'.mp hsome
  obtain ⟨v, hv, hvid, hwallet⟩ := h.owned r hr id hid
  obtain ⟨v', hv', hvid', hwallet'⟩ := h.owned r' hr' id (hshared ▸ hid)
  have hsame : v = v' := Table.eq_of_key_eq h.ids_nodup hv hv' (hvid.trans hvid'.symm)
  have howner : r'.wallet = r.wallet := by rw [← hwallet, ← hwallet', hsame]
  have hcount := hlimits.perWallet r.wallet
  rw [hone] at hcount
  refine Table.eq_of_countP_le_one hcount hr hr' ?_ ?_
  · simpa [ofWallet] using hactive
  · simpa [ofWallet, howner] using hactive'

/-- Without persistence no row has a volume. -/
lemma volumeId_none_step {a : Action} (hoff : persistenceOff capabilities)
    (h : ∀ r ∈ s.db.workspaces, r.volumeId = none)
    (hs : step config capabilities s a = some s') : ∀ r ∈ s'.db.workspaces, r.volumeId = none := by
  have hframe : ∀ {done : String → Prop} {t t' : Service}, Frame done t t' →
      (∀ r ∈ t.db.workspaces, r.volumeId = none) → ∀ r ∈ t'.db.workspaces, r.volumeId = none := by
    intro done t t' hf ht r' hr'
    obtain ⟨r, hr, hm⟩ := hf.rows.exists_of_mem_right hr'
    rw [hm.volumeId_eq]
    exact ht r hr
  cases step_effect hs with
  | clock now haction => exact h
  | refused id volumeId => exact h
  | admitted hfresh hpersistence hadmitted hf =>
    refine hframe hf fun r hr => ?_
    rw [hadmitted.workspaces] at hr
    rcases List.mem_append.mp hr with hold | hnew
    · exact h r hold
    · obtain rfl := List.mem_singleton.mp hnew
      obtain ⟨volume, rfl, hchoice⟩ := hadmitted.volume
      rcases volume_none_or_persistent hchoice with hnone | hmode
      · rw [hnone]
        rfl
      · obtain ⟨c, hc, hoff⟩ := hoff
        rw [hpersistence hmode c hc] at hoff
        cases hoff
  | frame hf => exact hframe hf h
  | volumes hnow hrows hvolumes huuids hadmitted => exact hrows ▸ h
  | maintenance => exact fun r hr => h r (Table.mem_deleteWhere.mp hr).1

theorem volumesExclusive_of_reachable {allowed : Service → Action → Prop}
    (hcondition : config.maxActivePerWallet = 1 ∨ persistenceOff capabilities)
    (h : Reachable config capabilities allowed s) : VolumesExclusive s := by
  rcases hcondition with hone | hoff
  · have hattached : Attached s :=
      Transition.Leads.invariant Attached h attached_initial fun _ _ _ ht _ hs => ht.step hs
    have hlimits : ActiveLimits config s.db.workspaces :=
      Transition.Leads.invariant (fun t => ActiveLimits config t.db.workspaces) h
        limited_initial.active fun _ _ _ ht _ hs => ht.step hs
    exact hattached.volumesExclusive hone hlimits
  · have hnone : ∀ r ∈ s.db.workspaces, r.volumeId = none := by
      refine Transition.Leads.invariant (fun t => ∀ r ∈ t.db.workspaces, r.volumeId = none) h ?_
        fun _ _ _ ht _ hs => volumeId_none_step hoff ht hs
      intro r hr
      cases hr
    intro r hr r' hr' _ _ hsome
    exact absurd (hnone r hr) hsome

/-! ### Where they are not -/

section Twice

open Transaction

section Inserting

variable {wallet ipHash id volumeId : String} {storageMode : StorageMode} {now : ℕ}
  {volume : Option PersistentVolumeRow} {db : Database} {row : WorkspaceRow}

lemma chooseVolume_creates (hlive : db.liveVolume wallet = none)
    (hid : ∀ v ∈ db.persistentVolumes, v.id ≠ volumeId) :
    ∃ db', (chooseVolume config wallet now volumeId .persistent).run.run db =
        (.ok (some (newVolume config wallet now volumeId)), db') ∧
      db'.workspaces = db.workspaces ∧ db'.persistentVolumes =
        db.persistentVolumes ++ [newVolume config wallet now volumeId] := by
  have hcreated : (getOrCreatePersistentVolume config wallet now volumeId).run.run db =
      (.ok (newVolume config wallet now volumeId),
        { db with persistentVolumes :=
            db.persistentVolumes ++ [newVolume config wallet now volumeId] }.audit now
          "workspace.volume_created" wallet none
          [("quotaBytes", .number config.storageQuotaBytes)]) := by
    simp only [getOrCreatePersistentVolume, run_bind_ok, run_get_ok]
    refine ⟨db, db, ⟨rfl, rfl⟩, ?_⟩
    simp only [hlive, run_bind_ok, run_modify_ok, run_pure_ok]
    exact ⟨(), _, insertVolume_ok.mpr ⟨hid, hlive, config.storageQuotaBytes_pos.ne', rfl⟩, ⟨⟩, _,
      rfl, trivial, rfl⟩
  exact ⟨_, run_bind_ok.mpr ⟨_, _, hcreated, run_pure_ok.mpr ⟨rfl, rfl⟩⟩, rfl, rfl⟩

lemma chooseVolume_reuses {v : PersistentVolumeRow} (hlive : db.liveVolume wallet = some v) :
    ∃ db', (chooseVolume config wallet now volumeId .persistent).run.run db =
        (.ok (some { v with lastAttachedAt := now }), db') ∧ db'.workspaces = db.workspaces ∧
      VolumesKept db.persistentVolumes db'.persistentVolumes := by
  have hreused : (getOrCreatePersistentVolume config wallet now volumeId).run.run db =
      (.ok { v with lastAttachedAt := now }, { db with
        persistentVolumes := Table.updateWhere (fun w => w.id = v.id)
          (fun w => { w with lastAttachedAt := now }) db.persistentVolumes }) := by
    simp only [getOrCreatePersistentVolume, run_bind_ok, run_get_ok]
    refine ⟨db, db, ⟨rfl, rfl⟩, ?_⟩
    simp only [hlive, run_bind_ok, run_set_ok, run_pure_ok]
    exact ⟨⟨⟩, _, rfl, trivial, rfl⟩
  exact ⟨_, run_bind_ok.mpr ⟨_, _, hreused, run_pure_ok.mpr ⟨rfl, rfl⟩⟩, rfl,
    .updateWhere _ fun _ => ⟨rfl, rfl⟩⟩

/-- The transaction goes through once the limits leave room and the volume is there. -/
lemma createBody_inserts {db₁ : Database} (hlimits : Limits config now wallet ipHash db)
    (hchoose : (chooseVolume config wallet now volumeId storageMode).run.run db =
      (.ok volume, db₁)) (hnew : ∀ r ∈ db₁.workspaces, r.id ≠ id)
    (hquota : ∀ v ∈ volume, v.quotaBytes ≠ 0)
    (hvolume : ∀ v ∈ volume, ∃ w ∈ db₁.persistentVolumes, w.id = v.id) :
    ∃ db', (createBody config now wallet ipHash storageMode id volumeId).run.run db =
        (.ok (newWorkspaceRow config now wallet ipHash storageMode id volume), db') ∧
      db'.workspaces =
        db₁.workspaces ++ [newWorkspaceRow config now wallet ipHash storageMode id volume] ∧
      db'.persistentVolumes = db₁.persistentVolumes := by
  have hquota' : (newWorkspaceRow config now wallet ipHash storageMode id
      volume).storageQuotaBytes ≠ 0 := by
    cases volume with
    | none => exact config.storageQuotaBytes_pos.ne'
    | some v => exact hquota v rfl
  have hvolume' : ∀ x, volume.map (·.id) = some x → ∃ w ∈ db₁.persistentVolumes, w.id = x := by
    intro x hx
    obtain ⟨v, hv, rfl⟩ := Option.map_eq_some_iff.mp hx
    exact hvolume v hv
  simp only [createBody, run_bind_ok, run_modify_ok, run_pure_ok, checkLimits_ok, insertWorkspace_ok]
  exact ⟨_, ⟨(), db, ⟨hlimits, rfl⟩, volume, db₁, hchoose, (), _, ⟨hnew, hquota', hvolume', rfl⟩,
    ⟨⟩, _, rfl, rfl, rfl⟩, rfl, rfl⟩

/-- A `create` whose transaction goes through reconciles. -/
lemma step_create_inserts {owner : String} (hfresh : s.fresh id volumeId)
    (howner : toLowerCase wallet = owner)
    (hguard : createGuard capabilities s owner storageMode = .ok ())
    (hbody : (createBody config s.now owner ipHash storageMode id volumeId).run.run s.db =
      (.ok row, db)) :
    ∃ t, step config capabilities s (.create wallet ipHash (some storageMode) id volumeId) =
        some (reconcile config t) ∧ t.db = db ∧ t.now = s.now ∧ t.uuids = id :: volumeId :: s.uuids ∧
      t.reconciliation = s.reconciliation ∧ t.destroyingVolumes = s.destroyingVolumes := by
  subst howner
  refine ⟨{ s with db := db, uuids := id :: volumeId :: s.uuids, admitted := s.admitted ++ [row] },
    ?_, rfl, rfl, rfl, rfl, rfl⟩
  have htransaction := transaction_ok.mpr hbody
  have hguard' : createGuard capabilities { s with uuids := id :: volumeId :: s.uuids }
      (toLowerCase wallet) storageMode = .ok () := hguard
  simp only [step, hfresh, if_true, create, Option.getD_some, hguard', htransaction]

end Inserting

/-- Reconciling a service that holds one queued row claims it. -/
lemma reconcile_one {row : WorkspaceRow} (hrows : s.db.workspaces = [row])
    (hqueued : row.state = .queued) (hlease : s.now < row.leaseExpiresAt)
    (hpc : s.reconciliation = none) :
    (reconcile config s).db.workspaces = [{ row with state := .provisioning }] ∧
      (reconcile config s).reconciliation.isSome = true := by
  obtain ⟨rest, hrest⟩ := Nat.exists_eq_succ_of_ne_zero config.maxRunning_pos.ne'
  have hexpired : isExpired s.now row = false := by
    by_contra h
    have hle := (isExpired_iff.mp (by simpa using h)).2
    omega
  have hkept : s.db.updateWorkspaces (isExpired s.now) (fun r => { r with state := .stopping }) =
      s.db := by
    rw [Database.updateWorkspaces, Table.updateWhere, hrows, List.map_singleton, hexpired,
      if_neg Bool.false_ne_true, ← hrows]
  have hnext : s.nextQueued = some row := by
    simp [nextQueued, hrows, hqueued, hlease]
  have hcount : s.db.count (isQueued row.id) = 1 := by
    simp [Database.count, hrows, hqueued]
  have hclaims : reconcile config s = claimLoop rest.succ s := by
    rw [reconcile, if_neg (by simp [hpc]), runReconciliation, hkept]
    simp [hrows, hqueued, stopLoop, checkLoop, WorkspaceState.isStarted, startClaims,
      Database.count, WorkspaceState.takesCapacity, hrest]
  rw [hclaims]
  simp [claimLoop, hnext, hcount, send, Table.updateWhere, hrows, hqueued]

lemma createGuard_of_on (hon : ¬persistenceOff capabilities) {wallet : String}
    (hdestroying : s.destroyingVolumes = []) :
    createGuard capabilities s wallet .persistent = .ok () := by
  cases capabilities with
  | none => simp [createGuard, hdestroying]
  | some c =>
    have hc : c.persistence = true := by
      by_contra hoff
      exact hon ⟨c, rfl, by simpa using hoff⟩
    simp [createGuard, Option.filter, hc, hdestroying]

/-- The service after a first persistent workspace has been created and claimed. -/
lemma first_create (config : Config) (hon : ¬persistenceOff capabilities) :
    ∃ s, step config capabilities .initial
        (.create "wallet" "first" (some .persistent) "w1" "v1") = some s ∧ s.now = 0 ∧
      s.uuids = ["w1", "v1"] ∧ s.destroyingVolumes = [] ∧ s.reconciliation.isSome = true ∧
      s.db.persistentVolumes = [newVolume config "wallet" 0 "v1"] ∧
      s.db.workspaces = [{ newWorkspaceRow config 0 "wallet" "first" .persistent "w1"
        (some (newVolume config "wallet" 0 "v1")) with state := .provisioning }] := by
  have hlimits : Limits config 0 "wallet" "first" .empty :=
    ⟨config.maxActivePerWallet_pos, config.maxActivePerIp_pos, config.dailyPerWallet_pos,
      config.dailyPerIp_pos, config.maxQueue_pos⟩
  obtain ⟨db, hchoose, hrows, hvolumes⟩ : ∃ db', (chooseVolume config "wallet" 0 "v1"
      .persistent).run.run .empty = (.ok (some (newVolume config "wallet" 0 "v1")), db') ∧
      db'.workspaces = [] ∧ db'.persistentVolumes = [newVolume config "wallet" 0 "v1"] := by
    refine chooseVolume_creates rfl fun v hv => ?_
    cases hv
  have hquota : ∀ v ∈ some (newVolume config "wallet" 0 "v1"), v.quotaBytes ≠ 0 := by
    rintro v ⟨⟩
    exact config.storageQuotaBytes_pos.ne'
  have hattached : ∀ v ∈ some (newVolume config "wallet" 0 "v1"),
      ∃ w ∈ db.persistentVolumes, w.id = v.id := by
    rintro v ⟨⟩
    rw [hvolumes]
    exact ⟨_, List.mem_singleton_self _, rfl⟩
  have hnew : ∀ r ∈ db.workspaces, r.id ≠ "w1" := by
    rw [hrows]
    exact fun r hr => absurd hr List.not_mem_nil
  obtain ⟨db', hbody, hrows', hvolumes'⟩ := createBody_inserts hlimits hchoose hnew hquota hattached
  rw [hrows, List.nil_append] at hrows'
  have hfresh : Service.initial.fresh "w1" "v1" := by decide
  have howner : toLowerCase "wallet" = "wallet" := by decide
  obtain ⟨t, hstep, rfl, hnow, huuids, hpc, hdestroying⟩ :=
    step_create_inserts hfresh howner (createGuard_of_on hon rfl) hbody
  have hlease : t.now < 0 + config.leaseMs := by
    have hpos := config.leaseMs_pos
    rw [hnow]
    exact Nat.lt_add_left _ hpos
  have hframe : Frame (fun _ => False) t (reconcile config t) := frame_reconcile config t
  obtain ⟨hclaimed, hpc'⟩ := reconcile_one hrows' rfl hlease hpc
  exact ⟨_, hstep, hframe.now.trans hnow, hframe.uuids.trans huuids,
    hframe.destroyingVolumes.trans hdestroying, hpc',
    hframe.volumes.trans (hvolumes'.trans hvolumes), hclaimed⟩

/-- With room for two active rows, a wallet attaches its volume to both. -/
theorem shared_volume_reachable (htwo : 1 < config.maxActivePerWallet)
    (hon : ¬persistenceOff capabilities) :
    ∃ s, Reachable config capabilities clockForward s ∧ ¬VolumesExclusive s := by
  obtain ⟨s₁, hs₁, hnow, huuids, hdestroying, hpc, hvolumes, hrows⟩ :=
    first_create config hon
  -- a day later no window holds the first row, but its claim still holds the volume
  have hclock : step config capabilities s₁ (.clock (dayMs + 1)) =
      some { s₁ with now := dayMs + 1 } := rfl
  have hlimits : Limits config (dayMs + 1) "wallet" "second" s₁.db := by
    have hip := config.maxActivePerIp_pos
    have hdailyWallet := config.dailyPerWallet_pos
    have hdailyIp := config.dailyPerIp_pos
    have hqueue := config.maxQueue_pos
    constructor <;> simp [Database.count, newWorkspaceRow, WorkspaceState.isActive, *]
  have hlive : s₁.db.liveVolume "wallet" = some (newVolume config "wallet" 0 "v1") := by
    simp [Database.liveVolume, hvolumes, newVolume]
  obtain ⟨db, hchoose, hrows', hkept⟩ := chooseVolume_reuses hlive
  have hquota : ∀ v ∈ some { newVolume config "wallet" 0 "v1" with lastAttachedAt := dayMs + 1 },
      v.quotaBytes ≠ 0 := by
    rintro v ⟨⟩
    exact config.storageQuotaBytes_pos.ne'
  have hattached : ∀ v ∈ some { newVolume config "wallet" 0 "v1" with lastAttachedAt := dayMs + 1 },
      ∃ w ∈ db.persistentVolumes, w.id = v.id := by
    rintro v ⟨⟩
    rw [hvolumes] at hkept
    obtain ⟨w, hw, hid, -⟩ := hkept.exists_of_mem (List.mem_singleton_self _)
    exact ⟨w, hw, hid⟩
  have hnew : ∀ r ∈ db.workspaces, r.id ≠ "w2" := by
    rw [hrows', hrows]
    intro r hr
    rw [List.mem_singleton.mp hr]
    show "w1" ≠ "w2"
    decide
  obtain ⟨db', hbody, hrows₂, -⟩ := createBody_inserts hlimits hchoose hnew hquota hattached
  have hfresh : fresh { s₁ with now := dayMs + 1 } "w2" "v2" := by
    rw [fresh, huuids]
    decide
  have howner : toLowerCase "wallet" = "wallet" := by decide
  obtain ⟨t, hstep, rfl, -, -, hpc', -⟩ :=
    step_create_inserts hfresh howner (createGuard_of_on hon hdestroying) hbody
  rw [reconcile, if_pos (by rw [hpc']; exact hpc)] at hstep
  rw [hrows', hrows] at hrows₂
  have hfirst : ∃ r ∈ t.db.workspaces, r.id = "w1" ∧ r.state.isActive = true ∧
      r.volumeId = some "v1" := by
    rw [hrows₂]
    exact ⟨_, List.mem_cons_self, rfl, rfl, rfl⟩
  have hsecond : ∃ r ∈ t.db.workspaces, r.id = "w2" ∧ r.state.isActive = true ∧
      r.volumeId = some "v1" := by
    rw [hrows₂]
    exact ⟨_, List.mem_append_right _ (List.mem_singleton_self _), rfl, rfl, rfl⟩
  obtain ⟨r, hr, hid, hactive, hvolume⟩ := hfirst
  obtain ⟨r', hr', hid', hactive', hvolume'⟩ := hsecond
  refine ⟨t, ?_, fun hexclusive => ?_⟩
  · have hallowed : clockForward s₁ (.clock (dayMs + 1)) := by
      rw [clockForward, hnow]
      exact Nat.zero_le _
    have hfirstCreate : clockForward .initial
        (.create "wallet" "first" (some .persistent) "w1" "v1") := trivial
    have hsecondCreate : clockForward { s₁ with now := dayMs + 1 }
        (.create "wallet" "second" (some .persistent) "w2" "v2") := trivial
    exact ((Transition.Leads.single hfirstCreate hs₁).tail hallowed hclock).tail hsecondCreate hstep
  · have hsame := hexclusive r hr r' hr' hactive hactive' (by rw [hvolume]; exact Option.some_ne_none _)
      (hvolume.trans hvolume'.symm)
    rw [hsame, hid'] at hid
    exact absurd hid (by decide)

end Twice

/-- The volumes are exclusive in every reachable state exactly when a wallet may have one active
workspace only, or the runtime offers no persistence. -/
theorem volumesExclusive_iff (config : Config) (capabilities : Option WorkspaceDataCapabilities) :
    (∀ s, Reachable config capabilities Transition.anyStep s → VolumesExclusive s) ↔
      config.maxActivePerWallet = 1 ∨ persistenceOff capabilities := by
  constructor
  · intro h
    by_contra hcondition
    push Not at hcondition
    have htwo : 1 < config.maxActivePerWallet := by
      have hpos := config.maxActivePerWallet_pos
      omega
    obtain ⟨s, hs, hshared⟩ := shared_volume_reachable htwo hcondition.2
    exact hshared (h s (hs.mono fun _ _ _ => trivial))
  · intro hcondition s hs
    exact volumesExclusive_of_reachable hcondition hs

/-- A deployment that sets `BLOOM_MAX_ACTIVE_PER_WALLET=2` and nothing else. -/
def twoPerWallet : Config :=
  { Config.default with maxActivePerWallet := 2, maxActivePerWallet_pos := Nat.zero_lt_two }

theorem not_volumesExclusive_twoPerWallet :
    ¬∀ s, Reachable twoPerWallet none Transition.anyStep s → VolumesExclusive s := by
  intro h
  have htwo : 1 < twoPerWallet.maxActivePerWallet := by decide
  have hon : ¬persistenceOff none := by
    rintro ⟨c, hc, -⟩
    cases hc
  obtain ⟨s, hs, hshared⟩ := shared_volume_reachable htwo hon
  exact hshared (h s (hs.mono fun _ _ _ => trivial))

end Service

end Bloom
