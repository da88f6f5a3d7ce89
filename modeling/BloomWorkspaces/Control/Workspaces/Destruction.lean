import BloomWorkspaces.Control.Workspaces.Volumes

/-!
# Destroying a volume

`destroyPersistentVolume` checks the table of workspaces before its `await`, and `create` checks the set
of wallets whose volume is being destroyed. Together the two keep a volume that is being destroyed, or
has been, apart from every active row: `Guarded` is the invariant that joins them.
-/

namespace Bloom

namespace Service

variable {config : Config} {capabilities : Option WorkspaceDataCapabilities} {s s' : Service}

/-- No active row references the volume. -/
def Free (s : Service) (volumeId : String) : Prop :=
  ∀ r ∈ s.db.workspaces, r.state.isActive = true → r.volumeId ≠ some volumeId

/-- Two live volumes of one wallet are the same row. -/
def LiveUnique (volumes : List PersistentVolumeRow) : Prop :=
  ∀ v ∈ volumes, ∀ v' ∈ volumes, v.destroyedAt = none → v'.destroyedAt = none →
    v.wallet = v'.wallet → v = v'

/-- The exclusion between attaching and destroying, between any two awaits. -/
structure Guarded (s : Service) : Prop where
  attached : Attached s
  live_unique : LiveUnique s.db.persistentVolumes
  blocked : ∀ d ∈ s.destroying, d.wallet ∈ s.destroyingVolumes
  wallets_nodup : (s.destroying.map (·.wallet)).Nodup
  target : ∀ d ∈ s.destroying, ∃ v ∈ s.db.persistentVolumes, v.id = d.volume.id ∧ v.wallet = d.wallet
  free : ∀ d ∈ s.destroying, s.Free d.volume.id
  gone : ∀ v ∈ s.db.persistentVolumes, v.destroyedAt ≠ none → s.Free v.id

lemma guarded_initial : Guarded .initial := by
  refine ⟨attached_initial, ?_, ?_, List.nodup_nil, ?_, ?_, ?_⟩
  · intro v hv
    cases hv
  · intro d hd
    cases hd
  · intro d hd
    cases hd
  · intro d hd
    cases hd
  · intro v hv
    cases hv

/-! ### Updates of the rows -/

lemma Free.frame {done : String → Prop} {volumeId : String} (h : s.Free volumeId)
    (hf : Frame done s s') : s'.Free volumeId := by
  intro r' hr' hactive
  obtain ⟨r, hr, hm⟩ := hf.rows.exists_of_mem_right hr'
  rw [hm.volumeId_eq]
  exact h r hr (hm.isActive_of hactive)

lemma Guarded.frame {done : String → Prop} (h : Guarded s) (hf : Frame done s s') : Guarded s' where
  attached := h.attached.frame hf
  live_unique := hf.volumes ▸ h.live_unique
  blocked := by
    rw [hf.destroying, hf.destroyingVolumes]
    exact h.blocked
  wallets_nodup := hf.destroying ▸ h.wallets_nodup
  target := by
    rw [hf.destroying, hf.volumes]
    exact h.target
  free := by
    rw [hf.destroying]
    exact fun d hd => (h.free d hd).frame hf
  gone := by
    rw [hf.volumes]
    exact fun v hv hdestroyed => (h.gone v hv hdestroyed).frame hf

/-! ### Attaching a volume -/

section Attaching

variable {now : ℕ} {wallet volumeId : String} {db : Database} {storageMode : StorageMode}
  {volume : Option PersistentVolumeRow} {volumes : List PersistentVolumeRow}

/-- A volume after `create` is one from before it or the new one of a wallet that had none. -/
lemma volumes_origin (h : VolumeChoice config now wallet volumeId db storageMode volume volumes)
    {v' : PersistentVolumeRow} (hv' : v' ∈ volumes) :
    (∃ v ∈ db.persistentVolumes, v'.id = v.id ∧ v'.wallet = v.wallet ∧
      v'.destroyedAt = v.destroyedAt) ∨
      v' = newVolume config wallet now volumeId ∧ db.liveVolume wallet = none := by
  cases h with
  | disposable => exact .inl ⟨v', hv', rfl, rfl, rfl⟩
  | existing w hlive =>
    obtain ⟨v, hv, rfl⟩ := Table.mem_updateWhere.mp hv'
    refine .inl ⟨v, hv, ?_⟩
    split
    · exact ⟨rfl, rfl, rfl⟩
    · exact ⟨rfl, rfl, rfl⟩
  | created hlive hid =>
    rcases List.mem_append.mp hv' with hold | hnew
    · exact .inl ⟨v', hold, rfl, rfl, rfl⟩
    · exact .inr ⟨List.mem_singleton.mp hnew, hlive⟩

/-- The volume that `create` attaches is the live one of the wallet, or it was not in the table. -/
lemma attached_choice (h : VolumeChoice config now wallet volumeId db storageMode volume volumes)
    {w : PersistentVolumeRow} (hw : volume = some w) :
    (∃ v ∈ db.persistentVolumes, v.id = w.id ∧ v.wallet = wallet ∧ v.destroyedAt = none) ∨
      ∀ v ∈ db.persistentVolumes, v.id ≠ w.id := by
  cases h with
  | disposable => cases hw
  | existing v hlive =>
    cases hw
    obtain ⟨hmem, hwallet, hnone⟩ := Database.liveVolume_some hlive
    exact .inl ⟨v, hmem, rfl, hwallet, hnone⟩
  | created hlive hid =>
    cases hw
    exact .inr hid

lemma liveVolume_none {v : PersistentVolumeRow} (h : db.liveVolume wallet = none)
    (hv : v ∈ db.persistentVolumes) (hwallet : v.wallet = wallet) : v.destroyedAt ≠ none := by
  intro hlive
  have hfind := List.find?_eq_none.mp h v hv
  simp [hwallet, hlive] at hfind

lemma liveUnique_choice (hunique : LiveUnique db.persistentVolumes)
    (h : VolumeChoice config now wallet volumeId db storageMode volume volumes)
    (hnd : (volumes.map (·.id)).Nodup) : LiveUnique volumes := by
  intro v hv v' hv' hlive hlive' hsame
  rcases volumes_origin h hv with ⟨w, hw, hid, hwallet, hdestroyed⟩ | ⟨rfl, hnone⟩
  · rcases volumes_origin h hv' with ⟨w', hw', hid', hwallet', hdestroyed'⟩ | ⟨rfl, hnone⟩
    · have heq : w = w' := hunique w hw w' hw' (hdestroyed ▸ hlive) (hdestroyed' ▸ hlive')
        (hwallet ▸ hwallet' ▸ hsame)
      exact Table.eq_of_key_eq hnd hv hv' (by rw [hid, hid', heq])
    · exact absurd (hdestroyed ▸ hlive) (liveVolume_none hnone hw (hwallet ▸ hsame))
  · rcases volumes_origin h hv' with ⟨w', hw', hid', hwallet', hdestroyed'⟩ | ⟨rfl, -⟩
    · exact absurd (hdestroyed' ▸ hlive') (liveVolume_none hnone hw' (hwallet' ▸ hsame.symm))
    · rfl

end Attaching

lemma createGuard_not_destroying {wallet : String}
    (h : createGuard capabilities s wallet .persistent = .ok ()) : wallet ∉ s.destroyingVolumes := by
  intro hmem
  simp only [createGuard, hmem, if_true] at h
  split at h
  · cases h
  · cases h
  · rename_i heq
    cases heq

lemma Guarded.insertRow {wallet ipHash id volumeId : String} {storageMode : StorageMode}
    {row : WorkspaceRow} {db : Database} {uuids : List String} {admitted : List WorkspaceRow}
    (h : Guarded s) (hguard : createGuard capabilities s wallet storageMode = .ok ())
    (ha : Admitted config s.now wallet ipHash storageMode id volumeId s.db row db) :
    Guarded { s with db := db, uuids := uuids, admitted := admitted } := by
  obtain ⟨volume, hrow, hchoice⟩ := ha.volume
  obtain ⟨hnd, hkept, -⟩ := volumes_of_choice hchoice h.attached.ids_nodup
  -- The new row shares its volume with no row that an earlier check has to exclude.
  have hfree : ∀ x, s.Free x → row.volumeId ≠ some x →
      Free { s with db := db, uuids := uuids, admitted := admitted } x := by
    intro x hx hne r hr hactive
    rcases List.mem_append.mp (ha.workspaces ▸ hr) with hold | hnew
    · exact hx r hold hactive
    · rw [List.mem_singleton.mp hnew]
      exact hne
  have hattaches : ∀ x, row.volumeId = some x → ∃ w, volume = some w ∧ w.id = x := by
    intro x hx
    rw [hrow] at hx
    exact Option.map_eq_some_iff.mp hx
  refine ⟨h.attached.insertRow ha, liveUnique_choice h.live_unique hchoice hnd, h.blocked,
    h.wallets_nodup, fun d hd => ?_, fun d hd => hfree _ (h.free d hd) fun hx => ?_,
    fun v' hv' hdestroyed => ?_⟩
  · obtain ⟨v, hv, hid, hwallet⟩ := h.target d hd
    obtain ⟨v', hv', hid', hwallet'⟩ := hkept v hv
    exact ⟨v', hv', hid'.trans hid, hwallet'.trans hwallet⟩
  · obtain ⟨w, hw, hwid⟩ := hattaches _ hx
    obtain ⟨v₀, hv₀, hid₀, hwallet₀⟩ := h.target d hd
    rcases attached_choice hchoice hw with ⟨v, hv, hvid, hwallet, -⟩ | hnew
    · have hsame : v = v₀ := Table.eq_of_key_eq h.attached.ids_nodup hv hv₀
        (hvid.trans (hwid.trans hid₀.symm))
      have hmode : storageMode = .persistent := by
        rcases volume_none_or_persistent hchoice with hnone | hmode
        · rw [hnone] at hw
          cases hw
        · exact hmode
      rw [hmode] at hguard
      apply createGuard_not_destroying hguard
      rw [← hwallet, hsame, hwallet₀]
      exact h.blocked d hd
    · exact hnew v₀ hv₀ (hid₀.trans hwid.symm)
  · rcases volumes_origin hchoice hv' with ⟨v, hv, hid, -, hsame⟩ | ⟨rfl, -⟩
    · rw [hsame] at hdestroyed
      rw [hid]
      refine hfree _ (h.gone v hv hdestroyed) fun hx => ?_
      obtain ⟨w, hw, hwid⟩ := hattaches _ hx
      rcases attached_choice hchoice hw with ⟨v₁, hv₁, hid₁, -, hlive⟩ | hnew
      · have heq : v₁ = v :=
          Table.eq_of_key_eq h.attached.ids_nodup hv₁ hv (hid₁.trans hwid)
        exact hdestroyed (heq ▸ hlive)
      · exact hnew v hv hwid.symm
    · exact absurd rfl hdestroyed

lemma Guarded.create {wallet ipHash id volumeId : String} {storage : Option StorageMode}
    (h : Guarded s) :
    Guarded (create config capabilities s wallet ipHash storage id volumeId).2 := by
  rcases hcreate : Service.create config capabilities s wallet ipHash storage id volumeId with
    ⟨error | workspace, s'⟩
  · rw [create_error hcreate]
    exact h
  · obtain ⟨hguard, row, db, hadmitted, rfl⟩ := create_ok hcreate
    have hinserted : Guarded { s with db := db, admitted := s.admitted ++ [row] } :=
      h.insertRow hguard hadmitted
    have hframe : Frame (fun _ => True) { s with db := db, admitted := s.admitted ++ [row] }
        (reconcile config { s with db := db, admitted := s.admitted ++ [row] }) :=
      frame_reconcile config _
    exact hinserted.frame hframe

lemma Guarded.draw (h : Guarded s) (uuids : List String) : Guarded { s with uuids := uuids } :=
  ⟨⟨h.attached.ids_nodup, h.attached.owned⟩, h.live_unique, h.blocked, h.wallets_nodup, h.target,
    h.free, h.gone⟩

/-! ### Destroying -/

lemma destroyGuard_ok {wallet : String} {volume : PersistentVolumeRow}
    (h : s.destroyGuard wallet = .ok volume) :
    s.db.liveVolume wallet = some volume ∧ s.Free volume.id ∧ wallet ∉ s.destroyingVolumes := by
  rw [destroyGuard] at h
  split at h
  · cases h
  · rename_i v hlive
    split at h
    · cases h
    · rename_i hattached
      split at h
      · cases h
      · rename_i hblocked
        cases h
        refine ⟨hlive, fun r hr hactive hvolume => ?_, hblocked⟩
        exact hattached ⟨r, hr, hvolume, hactive⟩

lemma Guarded.destroyPersistentVolume (h : Guarded s) (wallet : String) :
    Guarded (s.destroyPersistentVolume wallet).2 := by
  rw [Service.destroyPersistentVolume]
  split
  · exact h
  · rename_i volume hguard
    obtain ⟨hlive, hfree, hblocked⟩ := destroyGuard_ok hguard
    obtain ⟨hmem, hwallet, -⟩ := Database.liveVolume_some hlive
    refine ⟨⟨h.attached.ids_nodup, h.attached.owned⟩, h.live_unique, fun d hd => ?_, ?_,
      fun d hd => ?_, fun d hd => ?_, h.gone⟩
    · rcases List.mem_append.mp hd with hold | hnew
      · exact List.mem_cons_of_mem _ (h.blocked d hold)
      · rw [List.mem_singleton.mp hnew]
        exact List.mem_cons_self
    · have hnew : toLowerCase wallet ∉ s.destroying.map (·.wallet) := by
        intro hold
        obtain ⟨d, hd, heq⟩ := List.mem_map.mp hold
        exact hblocked (heq ▸ h.blocked d hd)
      simp only [List.map_append, List.map_singleton]
      rw [List.nodup_append_comm, List.singleton_append, List.nodup_cons]
      exact ⟨hnew, h.wallets_nodup⟩
    · rcases List.mem_append.mp hd with hold | hnew
      · exact h.target d hold
      · rw [List.mem_singleton.mp hnew]
        exact ⟨volume, hmem, rfl, hwallet⟩
    · rcases List.mem_append.mp hd with hold | hnew
      · exact h.free d hold
      · rw [List.mem_singleton.mp hnew]
        exact hfree

/-- The calls that go on are about other wallets than the one that ends. -/
lemma Guarded.wallet_ne {index : ℕ} {d d' : Destroying} (h : Guarded s)
    (hd : s.destroying[index]? = some d) (hd' : d' ∈ s.destroying.eraseIdx index) :
    d'.wallet ≠ d.wallet := by
  obtain ⟨i, hne, hi⟩ := List.mem_eraseIdx_iff_getElem?.mp hd'
  intro heq
  have hlt : i < (s.destroying.map (·.wallet)).length := by
    simpa using (List.getElem?_eq_some_iff.mp hi).1
  have hsame : (s.destroying.map (·.wallet))[i]? = (s.destroying.map (·.wallet))[index]? := by
    simp [hi, hd, heq]
  exact hne ((List.getElem?_inj hlt h.wallets_nodup).mp hsame)

lemma Guarded.destroyReply {index : ℕ} {reply : Except AgentError Unit} (h : Guarded s)
    (hs : s.destroyReply index reply = some s') : Guarded s' := by
  rw [Service.destroyReply] at hs
  split at hs
  · cases hs
  · rename_i d hd
    have hmem : d ∈ s.destroying := List.mem_of_getElem? hd
    have hsublist : ∀ d' ∈ s.destroying.eraseIdx index, d' ∈ s.destroying := fun d' hd' =>
      (List.eraseIdx_sublist _ _).subset hd'
    have hblocked : ∀ d' ∈ s.destroying.eraseIdx index,
        d'.wallet ∈ s.destroyingVolumes.filter (· ≠ d.wallet) := by
      intro d' hd'
      simpa using ⟨h.blocked d' (hsublist d' hd'), h.wallet_ne hd hd'⟩
    have hnodup : ((s.destroying.eraseIdx index).map (·.wallet)).Nodup :=
      h.wallets_nodup.sublist ((List.eraseIdx_sublist _ _).map _)
    cases reply with
    | error e =>
      cases hs
      exact ⟨⟨h.attached.ids_nodup, h.attached.owned⟩, h.live_unique, hblocked, hnodup,
        fun d' hd' => h.target d' (hsublist d' hd'), fun d' hd' => h.free d' (hsublist d' hd'), h.gone⟩
    | ok =>
      cases hs
      have hkept : VolumesKept s.db.persistentVolumes (Table.updateWhere
          (fun v => v.id = d.volume.id ∧ v.destroyedAt = none)
          (fun v => { v with destroyedAt := some s.now }) s.db.persistentVolumes) :=
        .updateWhere _ fun v => ⟨rfl, rfl⟩
      -- A volume that is live afterwards was not touched, one that is not was destroyed now or before.
      have horigin : ∀ v' ∈ Table.updateWhere (fun v => v.id = d.volume.id ∧ v.destroyedAt = none)
          (fun v => { v with destroyedAt := some s.now }) s.db.persistentVolumes,
          v' ∈ s.db.persistentVolumes ∨ v'.destroyedAt ≠ none ∧ v'.id = d.volume.id := by
        intro v' hv'
        obtain ⟨v, hv, rfl⟩ := Table.mem_updateWhere.mp hv'
        split
        · rename_i hp
          rw [decide_eq_true_eq] at hp
          exact .inr ⟨Option.some_ne_none _, hp.1⟩
        · exact .inl hv
      refine ⟨⟨hkept.ids_eq ▸ h.attached.ids_nodup, fun r hr id hid => ?_⟩, ?_, hblocked, hnodup,
        fun d' hd' => ?_, fun d' hd' => h.free d' (hsublist d' hd'), fun v' hv' hdestroyed => ?_⟩
      · obtain ⟨v, hv, hvid, hwallet⟩ := h.attached.owned r hr id hid
        obtain ⟨v', hv', hid', hwallet'⟩ := hkept.exists_of_mem hv
        exact ⟨v', hv', hid'.trans hvid, hwallet'.trans hwallet⟩
      · intro v hv v' hv' hlive hlive' hsame
        rcases horigin v hv with hold | ⟨hne, -⟩
        · rcases horigin v' hv' with hold' | ⟨hne, -⟩
          · exact h.live_unique v hold v' hold' hlive hlive' hsame
          · exact absurd hlive' hne
        · exact absurd hlive hne
      · obtain ⟨v, hv, hvid, hwallet⟩ := h.target d' (hsublist d' hd')
        obtain ⟨v', hv', hid', hwallet'⟩ := hkept.exists_of_mem hv
        exact ⟨v', hv', hid'.trans hvid, hwallet'.trans hwallet⟩
      · rcases horigin v' hv' with hold | ⟨-, hid⟩
        · exact h.gone v' hold hdestroyed
        · rw [hid]
          exact h.free d hmem

/-! ### Runs -/

theorem Guarded.step {a : Action} (h : Guarded s) (hs : step config capabilities s a = some s') :
    Guarded s' := by
  cases a with
  | clock now =>
    cases hs
    exact ⟨⟨h.attached.ids_nodup, h.attached.owned⟩, h.live_unique, h.blocked, h.wallets_nodup,
      h.target, h.free, h.gone⟩
  | create wallet ipHash storage id volumeId =>
    simp only [Service.step] at hs
    split at hs
    · cases hs
      exact (h.draw _).create
    · cases hs
  | destroyPersistentVolume wallet =>
    cases hs
    exact h.destroyPersistentVolume wallet
  | destroyReply index reply => exact h.destroyReply hs
  | maintenance =>
    cases hs
    have hfree : ∀ x, s.Free x → s.maintenance.Free x := fun x hx r hr =>
      hx r (Table.mem_deleteWhere.mp hr).1
    exact ⟨⟨h.attached.ids_nodup, fun r hr => h.attached.owned r (Table.mem_deleteWhere.mp hr).1⟩,
      h.live_unique, h.blocked, h.wallets_nodup, h.target, fun d hd => hfree _ (h.free d hd),
      fun v hv hdestroyed => hfree _ (h.gone v hv hdestroyed)⟩
  | _ => exact h.frame (step_frame hs rfl)

theorem guarded_of_reachable {allowed : Service → Action → Prop}
    (h : Reachable config capabilities allowed s) : Guarded s :=
  Transition.Leads.invariant Guarded h guarded_initial fun _ _ _ ht _ hs => ht.step hs

/-- A volume that is recorded destroyed stays in the table as one that is. -/
lemma destroyed_choice {now : ℕ} {wallet volumeId : String} {db : Database} {storageMode : StorageMode}
    {volume : Option PersistentVolumeRow} {volumes : List PersistentVolumeRow}
    (h : VolumeChoice config now wallet volumeId db storageMode volume volumes)
    {v : PersistentVolumeRow} (hv : v ∈ db.persistentVolumes) :
    ∃ v' ∈ volumes, v'.id = v.id ∧ v'.destroyedAt = v.destroyedAt := by
  cases h with
  | disposable => exact ⟨v, hv, rfl, rfl⟩
  | existing w hlive =>
    refine ⟨_, Table.mem_updateWhere.mpr ⟨v, hv, rfl⟩, ?_⟩
    split
    · exact ⟨rfl, rfl⟩
    · exact ⟨rfl, rfl⟩
  | created hlive hid => exact ⟨v, List.mem_append_left _ hv, rfl, rfl⟩

lemma destroyed_step {a : Action} (hs : step config capabilities s a = some s')
    {v : PersistentVolumeRow} (hv : v ∈ s.db.persistentVolumes) (hdestroyed : v.destroyedAt ≠ none) :
    ∃ v' ∈ s'.db.persistentVolumes, v'.id = v.id ∧ v'.destroyedAt ≠ none := by
  cases a with
  | clock now =>
    cases hs
    exact ⟨v, hv, rfl, hdestroyed⟩
  | create wallet ipHash storage id volumeId =>
    simp only [step] at hs
    split at hs
    · rcases hcreate : create config capabilities { s with uuids := id :: volumeId :: s.uuids } wallet
        ipHash storage id volumeId with ⟨error | workspace, t⟩
      · rw [hcreate] at hs
        cases hs
        rw [create_error hcreate]
        exact ⟨v, hv, rfl, hdestroyed⟩
      · rw [hcreate] at hs
        cases hs
        obtain ⟨-, row, db, hadmitted, rfl⟩ := create_ok hcreate
        obtain ⟨volume, -, hchoice⟩ := hadmitted.volume
        obtain ⟨v', hv', hid, hsame⟩ := destroyed_choice hchoice hv
        have hframe : Frame (fun _ => True)
            { s with db := db, uuids := id :: volumeId :: s.uuids, admitted := s.admitted ++ [row] }
            (reconcile config { s with
              db := db, uuids := id :: volumeId :: s.uuids, admitted := s.admitted ++ [row] }) :=
          frame_reconcile config _
        refine ⟨v', ?_, hid, hsame ▸ hdestroyed⟩
        rw [hframe.volumes]
        exact hv'
    · cases hs
  | destroyPersistentVolume wallet =>
    cases hs
    rw [Service.destroyPersistentVolume]
    split
    · exact ⟨v, hv, rfl, hdestroyed⟩
    · exact ⟨v, hv, rfl, hdestroyed⟩
  | destroyReply index reply =>
    simp only [step, destroyReply] at hs
    split at hs
    · cases hs
    · cases reply with
      | error e =>
        cases hs
        exact ⟨v, hv, rfl, hdestroyed⟩
      | ok =>
        cases hs
        refine ⟨_, Table.mem_updateWhere.mpr ⟨v, hv, rfl⟩, ?_⟩
        split
        · exact ⟨rfl, Option.some_ne_none _⟩
        · exact ⟨rfl, hdestroyed⟩
  | maintenance =>
    cases hs
    exact ⟨v, hv, rfl, hdestroyed⟩
  | _ =>
    refine ⟨v, ?_, rfl, hdestroyed⟩
    rw [(step_frame hs rfl).volumes]
    exact hv

/-- At `s`: no active row references a volume whose destruction is in flight, nor from `s` on one that
is recorded destroyed; a wallet has at most one live volume, and rows reference volumes of their own
wallet. -/
structure VolumesSafe (config : Config) (capabilities : Option WorkspaceDataCapabilities)
    (s : Service) : Prop where
  inFlight : ∀ d ∈ s.destroying, s.Free d.volume.id
  destroyed : ∀ s', Transition.Leads (step config capabilities) Transition.anyStep s s' →
    ∀ v ∈ s.db.persistentVolumes, v.destroyedAt ≠ none → s'.Free v.id
  oneLive : ∀ wallet,
    s.db.persistentVolumes.countP (fun v => v.wallet = wallet ∧ v.destroyedAt = none) ≤ 1
  owned : ∀ r ∈ s.db.workspaces, ∀ id, r.volumeId = some id →
    ∃ v ∈ s.db.persistentVolumes, v.id = id ∧ v.wallet = r.wallet

lemma Guarded.countP_live (h : Guarded s) (wallet : String) :
    s.db.persistentVolumes.countP (fun v => v.wallet = wallet ∧ v.destroyedAt = none) ≤ 1 := by
  by_cases hlive : ∃ v ∈ s.db.persistentVolumes, v.wallet = wallet ∧ v.destroyedAt = none
  · obtain ⟨v, hv, hwallet, hnone⟩ := hlive
    apply Table.countP_key_le_one h.attached.ids_nodup v.id
    intro v' hv' hp
    rw [decide_eq_true_eq] at hp
    rw [h.live_unique v' hv' v hv hp.2 hnone (hp.1.trans hwallet.symm)]
  · have hzero : s.db.persistentVolumes.countP
        (fun v => v.wallet = wallet ∧ v.destroyedAt = none) = 0 := by
      apply List.countP_eq_zero.mpr
      intro v hv hp
      exact hlive ⟨v, hv, by simpa using hp⟩
    exact hzero ▸ Nat.zero_le 1

theorem volumesSafe_of_reachable {allowed : Service → Action → Prop}
    (h : Reachable config capabilities allowed s) : VolumesSafe config capabilities s := by
  have hguarded := guarded_of_reachable h
  refine ⟨hguarded.free, fun s' hrun v hv hdestroyed => ?_, hguarded.countP_live,
    hguarded.attached.owned⟩
  have hlater : Guarded s' ∧ ∃ v' ∈ s'.db.persistentVolumes, v'.id = v.id ∧ v'.destroyedAt ≠ none := by
    refine Transition.Leads.invariant (fun t => Guarded t ∧
      ∃ v' ∈ t.db.persistentVolumes, v'.id = v.id ∧ v'.destroyedAt ≠ none) hrun
      ⟨hguarded, v, hv, rfl, hdestroyed⟩ ?_
    rintro t a t' ⟨ht, v', hv', hid, hgone⟩ - hs
    obtain ⟨v'', hv'', hid', hgone'⟩ := destroyed_step hs hv' hgone
    exact ⟨ht.step hs, v'', hv'', hid'.trans hid, hgone'⟩
  obtain ⟨ht, v', hv', hid, hgone⟩ := hlater
  rw [← hid]
  exact ht.gone v' hv' hgone

theorem volumesSafe_destroyed :
    ∃ s, Transition.exec (step .default none) .initial
        [.create "0xAb" "network" (some .persistent) "w1" "v1", .stopCurrent "0xab",
          .stopReply 0 (.ok ()), .destroyPersistentVolume "0xab", .destroyReply 0 (.ok ())] = some s ∧
      s.db.persistentVolumes.map (·.destroyedAt) = [some 0] ∧ VolumesSafe .default none s := by
  have hrun : ∃ s, Transition.exec (step .default none) .initial
      [.create "0xAb" "network" (some .persistent) "w1" "v1", .stopCurrent "0xab",
        .stopReply 0 (.ok ()), .destroyPersistentVolume "0xab", .destroyReply 0 (.ok ())] = some s ∧
      s.db.persistentVolumes.map (·.destroyedAt) = [some 0] := ⟨_, rfl, by decide⟩
  obtain ⟨s, hs, hdestroyed⟩ := hrun
  exact ⟨s, hs, hdestroyed, volumesSafe_of_reachable (Transition.leads_of_exec hs)⟩

end Service

end Bloom
