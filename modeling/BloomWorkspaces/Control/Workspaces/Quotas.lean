import BloomWorkspaces.Control.Workspaces.Admitted

/-!
# Quotas

The five limits of `create` are counted over one table, which later steps update and prune. The
limits on active and queued rows survive because no update raises these counts. The rolling windows
quantify over every row ever created, so they are proved of the history `admitted`: the rows that
`maintenance` has deleted are too old to share a window with a new one.
-/

namespace Bloom

namespace Service

variable {config : Config} {capabilities : Option WorkspaceDataCapabilities} {s s' : Service}

def ofWallet (wallet : String) (r : WorkspaceRow) : Bool := r.wallet = wallet

def ofIp (ipHash : String) (r : WorkspaceRow) : Bool := r.ipHash = ipHash

/-- The row was created at most 24 hours after `start`. -/
def inWindow (start : ℕ) (r : WorkspaceRow) : Bool :=
  start ≤ r.createdAt ∧ r.createdAt ≤ start + dayMs

/-- The limits that are counted over the rows in the table. -/
structure ActiveLimits (config : Config) (rows : List WorkspaceRow) : Prop where
  perWallet : ∀ wallet, rows.countP (fun r => ofWallet wallet r ∧ r.state.isActive) ≤
    config.maxActivePerWallet
  perIp : ∀ ipHash, rows.countP (fun r => ofIp ipHash r ∧ r.state.isActive) ≤ config.maxActivePerIp
  queue : rows.countP (fun r => r.state = .queued) ≤ config.maxQueue

/-- The limits that are counted over all rows ever created. -/
structure DailyLimits (config : Config) (admitted : List WorkspaceRow) : Prop where
  perWallet : ∀ start wallet, admitted.countP (fun r => ofWallet wallet r ∧ inWindow start r) ≤
    config.dailyPerWallet
  perIp : ∀ start ipHash, admitted.countP (fun r => ofIp ipHash r ∧ inWindow start r) ≤
    config.dailyPerIp

/-- The identities of the rows created since `since`. -/
def createdSince (since : ℕ) (rows : List WorkspaceRow) : List WorkspaceRow :=
  (rows.map WorkspaceRow.identity).filter fun r => since ≤ r.createdAt

/-- The rows of the last 24 hours are all in the table, and no row ends before it is created. -/
structure Dated (s : Service) : Prop where
  createdAt_le : ∀ r ∈ s.db.workspaces, r.createdAt ≤ s.now
  stoppedAt_ge : ∀ r ∈ s.db.workspaces, ∀ t, r.stoppedAt = some t → r.createdAt ≤ t
  recent : ∀ since, s.now ≤ since + dayMs →
    createdSince since s.db.workspaces = createdSince since s.admitted

structure Limited (config : Config) (s : Service) : Prop where
  active : ActiveLimits config s.db.workspaces
  daily : DailyLimits config s.admitted
  dated : Dated s

/-! ### Active rows -/

/-- Room under a limit for one more row. -/
lemma countP_concat_le {p : WorkspaceRow → Bool} {rows : List WorkspaceRow} {row : WorkspaceRow}
    {limit : ℕ} (h : rows.countP p ≤ limit) (hlt : p row = true → rows.countP p < limit) :
    (rows ++ [row]).countP p ≤ limit := by
  rw [List.countP_append, List.countP_singleton]
  by_cases hp : p row = true
  · rw [if_pos hp]
    exact hlt hp
  · rw [if_neg hp]
    exact h

lemma ActiveLimits.rowsMove {done : String → Prop} {now : ℕ} {rows rows' : List WorkspaceRow}
    (h : ActiveLimits config rows) (hm : RowsMove done now rows rows') :
    ActiveLimits config rows' where
  perWallet := by
    intro wallet
    refine le_trans (hm.countP_le fun r r' hr hr' => ?_) (h.perWallet wallet)
    simp only [ofWallet, decide_eq_true_eq] at hr' ⊢
    exact ⟨hr.wallet_eq ▸ hr'.1, hr.isActive_of hr'.2⟩
  perIp := by
    intro ipHash
    refine le_trans (hm.countP_le fun r r' hr hr' => ?_) (h.perIp ipHash)
    simp only [ofIp, decide_eq_true_eq] at hr' ⊢
    exact ⟨hr.ipHash_eq ▸ hr'.1, hr.isActive_of hr'.2⟩
  queue := by
    refine le_trans (hm.countP_le fun r r' hr hr' => ?_) h.queue
    simp only [decide_eq_true_eq] at hr' ⊢
    rw [← hr.eq_of_queued hr']
    exact hr'

lemma ActiveLimits.deleteWhere {rows : List WorkspaceRow} (h : ActiveLimits config rows)
    (p : WorkspaceRow → Bool) : ActiveLimits config (Table.deleteWhere p rows) where
  perWallet := fun wallet => (Table.countP_deleteWhere_le _ _ _).trans (h.perWallet wallet)
  perIp := fun ipHash => (Table.countP_deleteWhere_le _ _ _).trans (h.perIp ipHash)
  queue := (Table.countP_deleteWhere_le _ _ _).trans h.queue

section Admission

variable {now : ℕ} {wallet ipHash id volumeId : String} {storageMode : StorageMode}
  {row : WorkspaceRow} {db db' : Database}

/-- The new row as `create` fills it in. -/
lemma admitted_row (ha : Admitted config now wallet ipHash storageMode id volumeId db row db') :
    row.wallet = wallet ∧ row.ipHash = ipHash ∧ row.createdAt = now ∧ row.stoppedAt = none := by
  obtain ⟨volume, rfl, -⟩ := ha.volume
  exact ⟨rfl, rfl, rfl, rfl⟩

lemma ActiveLimits.insertRow (h : ActiveLimits config db.workspaces)
    (ha : Admitted config now wallet ipHash storageMode id volumeId db row db') :
    ActiveLimits config db'.workspaces := by
  obtain ⟨hwallet, hip, -, -⟩ := admitted_row ha
  rw [ha.workspaces]
  refine ⟨fun w => ?_, fun i => ?_, ?_⟩
  · refine countP_concat_le (h.perWallet w) fun hrow => ?_
    simp only [ofWallet, decide_eq_true_eq, hwallet] at hrow
    rw [← hrow.1]
    simpa [ofWallet, Database.count] using ha.limits.activePerWallet
  · refine countP_concat_le (h.perIp i) fun hrow => ?_
    simp only [ofIp, decide_eq_true_eq, hip] at hrow
    rw [← hrow.1]
    simpa [ofIp, Database.count] using ha.limits.activePerIp
  · exact countP_concat_le h.queue fun _ => ha.limits.queue

end Admission

/-- The limits on active and queued rows do not depend on the clock. -/
theorem ActiveLimits.step {a : Action} (h : ActiveLimits config s.db.workspaces)
    (hs : step config capabilities s a = some s') : ActiveLimits config s'.db.workspaces := by
  cases step_effect hs with
  | clock now haction => exact h
  | refused id volumeId => exact h
  | admitted hfresh hpersistence hadmitted hframe =>
    exact (h.insertRow hadmitted).rowsMove hframe.rows
  | frame hframe => exact h.rowsMove hframe.rows
  | volumes hnow hrows hvolumes huuids hadmitted => exact hrows ▸ h
  | maintenance => exact h.deleteWhere _

/-! ### Rows of the last day -/

lemma createdSince_append (since : ℕ) (rows : List WorkspaceRow) (row : WorkspaceRow) :
    createdSince since (rows ++ [row]) = createdSince since rows ++ createdSince since [row] := by
  rw [createdSince, List.map_append, List.filter_append]
  rfl

/-- A count over columns that no update assigns is a count over the identities. -/
lemma countP_createdSince {q : WorkspaceRow → Bool} (hq : ∀ r, q r.identity = q r) (since : ℕ)
    (rows : List WorkspaceRow) :
    (createdSince since rows).countP q = rows.countP fun r => q r ∧ since ≤ r.createdAt := by
  rw [createdSince, List.countP_filter, List.countP_map]
  refine List.countP_congr fun r _ => ?_
  have hcreated : r.identity.createdAt = r.createdAt := rfl
  simp only [Function.comp_apply, hq, hcreated, Bool.and_eq_true, decide_eq_true_eq]

/-- The count that `create` makes bounds the rows ever created in a window that is still open. -/
lemma Dated.countP_le (h : Dated s) {q : WorkspaceRow → Bool} (hq : ∀ r, q r.identity = q r)
    {start : ℕ} (hstart : s.now ≤ start + dayMs) :
    s.admitted.countP (fun r => q r ∧ inWindow start r) ≤
      s.db.count (fun r => q r ∧ s.now - dayMs ≤ r.createdAt) := by
  calc s.admitted.countP (fun r => q r ∧ inWindow start r)
      ≤ s.admitted.countP (fun r => q r ∧ start ≤ r.createdAt) := by
        refine List.countP_mono_left fun r _ hr => ?_
        simp only [inWindow, decide_eq_true_eq] at hr ⊢
        exact ⟨hr.1, hr.2.1⟩
    _ = s.db.count (fun r => q r ∧ start ≤ r.createdAt) := by
        rw [← countP_createdSince hq, ← h.recent start hstart, countP_createdSince hq]
        rfl
    _ ≤ s.db.count (fun r => q r ∧ s.now - dayMs ≤ r.createdAt) := by
        refine List.countP_mono_left fun r _ hr => ?_
        simp only [decide_eq_true_eq] at hr ⊢
        exact ⟨hr.1, by omega⟩

lemma DailyLimits.insertRow {wallet ipHash id volumeId : String} {storageMode : StorageMode}
    {row : WorkspaceRow} {db' : Database} (h : DailyLimits config s.admitted) (hd : Dated s)
    (ha : Admitted config s.now wallet ipHash storageMode id volumeId s.db row db') :
    DailyLimits config (s.admitted ++ [row]) := by
  obtain ⟨hwallet, hip, hcreated, -⟩ := admitted_row ha
  have hw : ∀ r : WorkspaceRow, ofWallet wallet r.identity = ofWallet wallet r := fun _ => rfl
  have hi : ∀ r : WorkspaceRow, ofIp ipHash r.identity = ofIp ipHash r := fun _ => rfl
  refine ⟨fun start w => ?_, fun start i => ?_⟩
  · refine countP_concat_le (h.perWallet start w) fun hrow => ?_
    simp only [ofWallet, inWindow, decide_eq_true_eq, hwallet, hcreated] at hrow
    obtain ⟨rfl, -, hstart⟩ := hrow
    refine lt_of_le_of_lt (hd.countP_le hw hstart) ?_
    simpa [ofWallet] using ha.limits.dailyPerWallet
  · refine countP_concat_le (h.perIp start i) fun hrow => ?_
    simp only [ofIp, inWindow, decide_eq_true_eq, hip, hcreated] at hrow
    obtain ⟨rfl, -, hstart⟩ := hrow
    refine lt_of_le_of_lt (hd.countP_le hi hstart) ?_
    simpa [ofIp] using ha.limits.dailyPerIp

lemma Dated.frame {done : String → Prop} (h : Dated s) (hf : Frame done s s') : Dated s' where
  createdAt_le := by
    intro r' hr'
    obtain ⟨r, hr, hm⟩ := hf.rows.exists_of_mem_right hr'
    rw [hf.now, hm.createdAt_eq]
    exact h.createdAt_le r hr
  stoppedAt_ge := by
    intro r' hr'
    obtain ⟨r, hr, hm⟩ := hf.rows.exists_of_mem_right hr'
    exact hm.stoppedAt_ge (h.createdAt_le r hr) (h.stoppedAt_ge r hr)
  recent := by
    intro since hsince
    rw [hf.now] at hsince
    have hidentity : s'.db.workspaces.map WorkspaceRow.identity =
        s.db.workspaces.map WorkspaceRow.identity := hf.rows.map_eq fun _ _ he => he
    rw [createdSince, hidentity, hf.admitted]
    exact h.recent since hsince

/-- A deleted row is older than any window that is still open. -/
lemma Dated.maintenance (h : Dated s) : Dated s.maintenance where
  createdAt_le := fun r hr => h.createdAt_le r (Table.mem_deleteWhere.mp hr).1
  stoppedAt_ge := fun r hr => h.stoppedAt_ge r (Table.mem_deleteWhere.mp hr).1
  recent := by
    intro since hsince
    have hkeep : createdSince since s.maintenance.db.workspaces =
        createdSince since s.db.workspaces := by
      simp only [createdSince, List.filter_map]
      rw [Service.maintenance, Table.deleteWhere, List.filter_filter]
      congr 1
      refine List.filter_congr fun r hr => ?_
      by_cases hsinceR : since ≤ r.createdAt
      · have hfresh : isOutdated (s.now - retentionMs) r = false := by
          by_contra hout
          obtain ⟨-, t, ht, hlt⟩ := isOutdated_iff.mp (by simpa using hout)
          have hcreated := h.stoppedAt_ge r hr t ht
          have hnow : s.now ≤ since + dayMs := hsince
          simp only [retentionMs, dayMs] at hlt hnow
          omega
        simp [hfresh]
      · simp [WorkspaceRow.identity, hsinceR]
    rw [hkeep]
    exact h.recent since hsince

lemma Dated.insertRow {wallet ipHash id volumeId : String} {storageMode : StorageMode}
    {row : WorkspaceRow} {db : Database} {uuids : List String} (h : Dated s)
    (ha : Admitted config s.now wallet ipHash storageMode id volumeId s.db row db) :
    Dated { s with db := db, uuids := uuids, admitted := s.admitted ++ [row] } := by
  obtain ⟨-, -, hcreated, hstopped⟩ := admitted_row ha
  refine ⟨fun r hr => ?_, fun r hr t ht => ?_, fun since hsince => ?_⟩
  · rw [ha.workspaces] at hr
    rcases List.mem_append.mp hr with hold | hnew
    · exact h.createdAt_le r hold
    · obtain rfl := List.mem_singleton.mp hnew
      exact hcreated.le
  · rw [ha.workspaces] at hr
    rcases List.mem_append.mp hr with hold | hnew
    · exact h.stoppedAt_ge r hold t ht
    · obtain rfl := List.mem_singleton.mp hnew
      rw [hstopped] at ht
      cases ht
  · rw [ha.workspaces, createdSince_append, createdSince_append, h.recent since hsince]

/-- Time passes: fewer windows are still open. -/
lemma Dated.clock (h : Dated s) {now : ℕ} (hnow : s.now ≤ now) : Dated { s with now := now } where
  createdAt_le := fun r hr => (h.createdAt_le r hr).trans hnow
  stoppedAt_ge := h.stoppedAt_ge
  recent := fun since hsince => h.recent since (hnow.trans hsince)

/-! ### Runs -/

lemma Limited.frame {done : String → Prop} (h : Limited config s) (hf : Frame done s s') :
    Limited config s' where
  active := h.active.rowsMove hf.rows
  daily := hf.admitted ▸ h.daily
  dated := h.dated.frame hf

theorem Limited.step {a : Action} (h : Limited config s) (ha : clockForward s a)
    (hs : step config capabilities s a = some s') : Limited config s' := by
  have hactive := h.active.step hs
  cases step_effect hs with
  | clock now haction =>
    subst haction
    exact ⟨hactive, h.daily, h.dated.clock ha⟩
  | refused id volumeId =>
    exact ⟨hactive, h.daily, ⟨h.dated.createdAt_le, h.dated.stoppedAt_ge, h.dated.recent⟩⟩
  | admitted hfresh hpersistence hadmitted hframe =>
    refine Limited.frame ⟨h.active.insertRow hadmitted, ?_, ?_⟩ hframe
    · exact h.daily.insertRow h.dated hadmitted
    · exact h.dated.insertRow hadmitted
  | frame hframe => exact h.frame hframe
  | volumes hnow hrows hvolumes huuids hadmitted =>
    refine ⟨hactive, hadmitted ▸ h.daily, ⟨?_, ?_, ?_⟩⟩
    · rw [hrows, hnow]
      exact h.dated.createdAt_le
    · rw [hrows]
      exact h.dated.stoppedAt_ge
    · rw [hrows, hnow, hadmitted]
      exact h.dated.recent
  | maintenance => exact ⟨hactive, h.daily, h.dated.maintenance⟩

lemma limited_initial : Limited config .initial where
  active := ⟨fun _ => Nat.zero_le _, fun _ => Nat.zero_le _, Nat.zero_le _⟩
  daily := ⟨fun _ _ => Nat.zero_le _, fun _ _ => Nat.zero_le _⟩
  dated := by
    refine ⟨fun r hr => ?_, fun r hr => ?_, fun _ _ => rfl⟩
    · cases hr
    · cases hr

theorem limited_of_reachable (h : Reachable config capabilities clockForward s) :
    Limited config s :=
  Transition.Leads.invariant (Limited config) h limited_initial fun _ _ _ ht ha hs => ht.step ha hs

/-- With a clock that does not go back, every limit of the configuration holds at every point of
every run, and a `create` that throws leaves the tables as they were. -/
theorem limits_hold (h : Reachable config capabilities clockForward s) :
    ActiveLimits config s.db.workspaces ∧ DailyLimits config s.admitted ∧
      ∀ wallet ipHash storage id volumeId error s',
        create config capabilities s wallet ipHash storage id volumeId = (.error error, s') →
          s'.db = s.db := by
  have hs := limited_of_reachable h
  refine ⟨hs.active, hs.daily, fun wallet ipHash storage id volumeId error s' hcreate => ?_⟩
  rw [create_error hcreate]

theorem limits_hold_second_create :
    ∃ s, Reachable .default none clockForward s ∧ ActiveLimits .default s.db.workspaces ∧
      DailyLimits .default s.admitted ∧ s.admitted.length = 1 ∧
      (create .default none s "0xab" "other" none "w2" "v2").2.db = s.db := by
  have hrun : ∃ s, step .default none .initial (.create "0xAb" "network" none "w1" "v1") = some s ∧
      s.admitted.length = 1 ∧
      (create .default none s "0xab" "other" none "w2" "v2").1 =
        .error (.workspace "This wallet already has an active workspace" 409) := ⟨_, rfl, rfl, rfl⟩
  obtain ⟨s, hs, hlength, herror⟩ := hrun
  have hallowed : clockForward .initial (.create "0xAb" "network" none "w1" "v1") := trivial
  have hreach : Reachable .default none clockForward s := Transition.Leads.single hallowed hs
  obtain ⟨hactive, hdaily, hthrows⟩ := limits_hold hreach
  exact ⟨s, hreach, hactive, hdaily, hlength, hthrows _ _ _ _ _ _ _ (Prod.ext herror rfl)⟩

end Service

end Bloom
