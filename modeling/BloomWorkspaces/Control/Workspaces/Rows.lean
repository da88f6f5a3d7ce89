import BloomWorkspaces.Control.Workspaces.Step

/-!
# What a step does to the workspace rows

Every `UPDATE workspaces` of the service is guarded by the state of the row. `Move` lists the
transitions these guards let through, `RowsMove` is any number of them in a table, and `Frame` says
that a step changes the rows by moves only and leaves the volumes and the history alone. All three
name the workspaces that may reach `stopped` or `failed`.
-/

namespace Bloom

/-! ### Moves of one row -/

/-- The columns that no update assigns. -/
def WorkspaceRow.identity (r : WorkspaceRow) : WorkspaceRow :=
  { r with state := .queued, stoppedAt := none, failure := none }

lemma WorkspaceRow.identity_eq_iff {r r' : WorkspaceRow} :
    r'.identity = r.identity ↔ r'.id = r.id ∧ r'.wallet = r.wallet ∧ r'.ipHash = r.ipHash ∧
      r'.runtime = r.runtime ∧ r'.createdAt = r.createdAt ∧
      r'.leaseExpiresAt = r.leaseExpiresAt ∧ r'.storageMode = r.storageMode ∧
      r'.volumeId = r.volumeId ∧ r'.storageQuotaBytes = r.storageQuotaBytes := by
  simp [identity]

/-- One assignment to one row at time `now`. -/
inductive Move (done : String → Prop) (now : ℕ) (r : WorkspaceRow) : WorkspaceRow → Prop
  | stopping (h : r.state.isStoppable = true) : Move done now r { r with state := .stopping }
  | provisioning (h : r.state = .queued) : Move done now r { r with state := .provisioning }
  | running (h : r.state = .provisioning) : Move done now r { r with state := .running }
  | failed (h : r.state.isStarted = true) (hd : done r.id) (message : String) :
      Move done now r { r with state := .failed, stoppedAt := some now, failure := some message }
  | stopped (h : r.state = .stopping) (hd : done r.id) :
      Move done now r { r with state := .stopped, stoppedAt := some now }

/-- Any number of assignments to one row. -/
abbrev Moves (done : String → Prop) (now : ℕ) : WorkspaceRow → WorkspaceRow → Prop :=
  Relation.ReflTransGen (Move done now)

namespace Move

variable {done done' : String → Prop} {now : ℕ} {r r' : WorkspaceRow}

lemma mono (h : Move done now r r') (hle : ∀ id, done id → done' id) : Move done' now r r' := by
  cases h with
  | stopping h => exact .stopping h
  | provisioning h => exact .provisioning h
  | running h => exact .running h
  | failed h hd message => exact .failed h (hle _ hd) message
  | stopped h hd => exact .stopped h (hle _ hd)

lemma identity_eq (h : Move done now r r') : r'.identity = r.identity := by
  cases h <;> rfl

lemma isActive_of (h : Move done now r r') : r.state.isActive = true := by
  cases h with
  | stopping h => cases hs : r.state <;> simp_all [WorkspaceState.isStoppable, WorkspaceState.isActive]
  | provisioning h => simp [h, WorkspaceState.isActive]
  | running h => simp [h, WorkspaceState.isActive]
  | failed h => cases hs : r.state <;> simp_all [WorkspaceState.isStarted, WorkspaceState.isActive]
  | stopped h => simp [h, WorkspaceState.isActive]

lemma not_queued (h : Move done now r r') : r'.state ≠ .queued := by
  cases h <;> simp

lemma stoppedAt_ge (hm : Move done now r r') (hcreated : r.createdAt ≤ now)
    (h : ∀ t, r.stoppedAt = some t → r.createdAt ≤ t) :
    ∀ t, r'.stoppedAt = some t → r'.createdAt ≤ t := by
  intro t ht
  cases hm with
  | stopping hs => exact h t ht
  | provisioning hs => exact h t ht
  | running hs => exact h t ht
  | failed hs hd message =>
    cases ht
    exact hcreated
  | stopped hs hd =>
    cases ht
    exact hcreated

lemma done_of_inactive (h : Move done now r r') (hr' : r'.state.isActive = false) : done r.id := by
  cases h with
  | stopping h => cases hr'
  | provisioning h => cases hr'
  | running h => cases hr'
  | failed h hd message => exact hd
  | stopped h hd => exact hd

end Move

namespace Moves

variable {done done' : String → Prop} {now : ℕ} {r r' : WorkspaceRow}

lemma mono (h : Moves done now r r') (hle : ∀ id, done id → done' id) : Moves done' now r r' :=
  Relation.ReflTransGen.mono (fun _ _ hm => hm.mono hle) _ _ h

lemma identity_eq (h : Moves done now r r') : r'.identity = r.identity := by
  induction h with
  | refl => rfl
  | tail _ hm ih => rw [hm.identity_eq, ih]

lemma id_eq (h : Moves done now r r') : r'.id = r.id :=
  (WorkspaceRow.identity_eq_iff.mp h.identity_eq).1

lemma wallet_eq (h : Moves done now r r') : r'.wallet = r.wallet :=
  (WorkspaceRow.identity_eq_iff.mp h.identity_eq).2.1

lemma ipHash_eq (h : Moves done now r r') : r'.ipHash = r.ipHash :=
  (WorkspaceRow.identity_eq_iff.mp h.identity_eq).2.2.1

lemma createdAt_eq (h : Moves done now r r') : r'.createdAt = r.createdAt :=
  (WorkspaceRow.identity_eq_iff.mp h.identity_eq).2.2.2.2.1

/-- A clock past the creation of a row stamps it past its creation. -/
lemma stoppedAt_ge (hm : Moves done now r r') (hcreated : r.createdAt ≤ now)
    (h : ∀ t, r.stoppedAt = some t → r.createdAt ≤ t) :
    ∀ t, r'.stoppedAt = some t → r'.createdAt ≤ t := by
  induction hm with
  | refl => exact h
  | tail hms hm ih =>
    have hcreated' := (createdAt_eq hms).trans_le hcreated
    exact hm.stoppedAt_ge hcreated' ih

lemma volumeId_eq (h : Moves done now r r') : r'.volumeId = r.volumeId :=
  (WorkspaceRow.identity_eq_iff.mp h.identity_eq).2.2.2.2.2.2.2.1

/-- A row that no longer is active stays as it is. -/
lemma eq_of_inactive (h : Moves done now r r') (hr : r.state.isActive = false) : r' = r := by
  induction h with
  | refl => rfl
  | tail _ hm ih =>
    subst ih
    rw [hm.isActive_of] at hr
    cases hr

lemma isActive_of (h : Moves done now r r') (hr' : r'.state.isActive = true) :
    r.state.isActive = true := by
  by_contra hr
  rw [h.eq_of_inactive (by simpa using hr)] at hr'
  exact hr hr'

/-- A row that has become inactive is one of the workspaces that may. -/
lemma done_of_inactive (h : Moves done now r r') (hr' : r'.state.isActive = false) :
    r' = r ∨ done r.id := by
  cases h with
  | refl => exact .inl rfl
  | tail hms hm =>
    have hid := Moves.id_eq hms
    exact .inr (hid ▸ hm.done_of_inactive hr')

/-- A queued row has not moved. -/
lemma eq_of_queued (h : Moves done now r r') (hr' : r'.state = .queued) : r' = r := by
  cases h with
  | refl => rfl
  | tail _ hm => exact absurd hr' hm.not_queued

end Moves

/-! ### Moves of the table -/

/-- Row by row, the table kept the row or moved it. -/
def RowsMove (done : String → Prop) (now : ℕ) : List WorkspaceRow → List WorkspaceRow → Prop :=
  List.Forall₂ (Moves done now)

namespace RowsMove

variable {done done' : String → Prop} {now : ℕ} {t t' t'' : List WorkspaceRow}

lemma mono (h : RowsMove done now t t') (hle : ∀ id, done id → done' id) :
    RowsMove done' now t t' :=
  List.Forall₂.imp (fun _ _ hm => hm.mono hle) h

lemma refl (t : List WorkspaceRow) : RowsMove done now t t :=
  List.forall₂_same.mpr fun _ _ => Relation.ReflTransGen.refl

lemma trans (h : RowsMove done now t t') (h' : RowsMove done now t' t'') :
    RowsMove done now t t'' :=
  Table.forall₂_trans (fun _ _ _ => Relation.ReflTransGen.trans) h h'

/-- An update whose assignment is a move of every row it touches. -/
lemma updateWhere {p : WorkspaceRow → Bool} {f : WorkspaceRow → WorkspaceRow}
    (t : List WorkspaceRow) (hf : ∀ r, p r = true → Move done now r (f r)) :
    RowsMove done now t (Table.updateWhere p f t) := by
  rw [RowsMove, Table.updateWhere, List.forall₂_map_right_iff, List.forall₂_same]
  intro r _
  by_cases hp : p r
  · simpa [hp] using Relation.ReflTransGen.single (hf r hp)
  · simpa [hp] using Relation.ReflTransGen.refl

lemma exists_of_mem_right (h : RowsMove done now t t') {r' : WorkspaceRow} (hr' : r' ∈ t') :
    ∃ r ∈ t, Moves done now r r' := Table.exists_of_forall₂_right h hr'

/-- Columns that no update assigns are the same after any moves. -/
lemma map_eq {κ : Type*} {key : WorkspaceRow → κ} (h : RowsMove done now t t')
    (hkey : ∀ r r', r'.identity = r.identity → key r' = key r) : t'.map key = t.map key := by
  induction h with
  | nil => rfl
  | cons hab _ ih => rw [List.map_cons, List.map_cons, hkey _ _ hab.identity_eq, ih]

lemma ids_eq (h : RowsMove done now t t') : t'.map (·.id) = t.map (·.id) :=
  h.map_eq fun _ _ he => (WorkspaceRow.identity_eq_iff.mp he).1

/-- A count that no move can raise does not grow. -/
lemma countP_le {q : WorkspaceRow → Bool} (h : RowsMove done now t t')
    (hq : ∀ r r', Moves done now r r' → q r' = true → q r = true) : t'.countP q ≤ t.countP q := by
  induction h with
  | nil => exact le_rfl
  | @cons a b l l' hab _ ih =>
    rw [List.countP_cons, List.countP_cons]
    have hle : (if q b = true then 1 else 0) ≤ (if q a = true then 1 else 0) := by
      by_cases hb : q b = true
      · simp [hb, hq a b hab hb]
      · simp [hb]
    exact Nat.add_le_add ih hle

end RowsMove

namespace Service

/-! ### Frames -/

/-- `s'` differs from `s` by moves of the rows, audit entries and the bookkeeping of the suspended
calls only. -/
structure Frame (done : String → Prop) (s s' : Service) : Prop where
  now : s'.now = s.now
  volumes : s'.db.persistentVolumes = s.db.persistentVolumes
  rows : RowsMove done s.now s.db.workspaces s'.db.workspaces
  destroyingVolumes : s'.destroyingVolumes = s.destroyingVolumes
  destroying : s'.destroying = s.destroying
  uuids : s'.uuids = s.uuids
  admitted : s'.admitted = s.admitted

namespace Frame

variable {done done' : String → Prop} {s s' s'' : Service}

lemma mono (h : Frame done s s') (hle : ∀ id, done id → done' id) : Frame done' s s' :=
  { h with rows := h.rows.mono hle }

lemma refl (s : Service) : Frame done s s := ⟨rfl, rfl, .refl _, rfl, rfl, rfl, rfl⟩

lemma trans (h : Frame done s s') (h' : Frame done s' s'') : Frame done s s'' where
  now := h'.now.trans h.now
  volumes := h'.volumes.trans h.volumes
  rows := h.rows.trans (h.now ▸ h'.rows)
  destroyingVolumes := h'.destroyingVolumes.trans h.destroyingVolumes
  destroying := h'.destroying.trans h.destroying
  uuids := h'.uuids.trans h.uuids
  admitted := h'.admitted.trans h.admitted

/-- Updating rows by moves is a frame. -/
lemma updateWorkspaces (s : Service) {p : WorkspaceRow → Bool} {f : WorkspaceRow → WorkspaceRow}
    (hf : ∀ r, p r = true → Move done s.now r (f r)) :
    Frame done s { s with db := s.db.updateWorkspaces p f } :=
  ⟨rfl, rfl, .updateWhere _ hf, rfl, rfl, rfl, rfl⟩

lemma audit (s : Service) (kind : String) (actor workspaceId : Option String)
    (detail : List (String × DetailValue)) :
    Frame done s (s.audit kind actor workspaceId detail) :=
  ⟨rfl, rfl, .refl _, rfl, rfl, rfl, rfl⟩

end Frame

variable {done : String → Prop}

lemma frame_stopWorkspace (s : Service) (row : WorkspaceRow) (reason : String) :
    Frame done s (s.stopWorkspace row reason).1 := by
  unfold stopWorkspace
  split
  · exact .refl s
  · exact ⟨rfl, rfl, .refl _, rfl, rfl, rfl, rfl⟩

lemma frame_stopReply {s s' : Service} {operation : ℕ} {reply : Except AgentError Unit}
    (h : s.stopReply operation reply = some s') :
    Frame (fun id => reply = .ok () ∧ ∃ op, s.operations[operation]? = some op ∧ op.row.id = id)
      s s' := by
  rw [stopReply] at h
  cases hop : s.operations[operation]? with
  | none =>
    rw [hop] at h
    cases h
  | some op =>
    simp only [hop] at h
    split at h
    · cases h
    · cases reply with
      | ok =>
        have hrows : RowsMove (fun id => id = op.row.id) s.now s.db.workspaces
            (Table.updateWhere (isStopping op.row.id)
              (fun r => { r with state := .stopped, stoppedAt := some s.now }) s.db.workspaces) := by
          refine .updateWhere _ fun r hr => ?_
          obtain ⟨hid, hstopping⟩ := isStopping_iff.mp hr
          exact .stopped hstopping hid
        have hle : ∀ id, id = op.row.id → (.ok () : Except AgentError Unit) = .ok () ∧
            ∃ op', some op = some op' ∧ op'.row.id = id := by
          rintro id rfl
          exact ⟨rfl, op, rfl, rfl⟩
        cases h
        split
        · exact ⟨rfl, rfl, hrows.mono hle, rfl, rfl, rfl, rfl⟩
        · exact ⟨rfl, rfl, hrows.mono hle, rfl, rfl, rfl, rfl⟩
      | error e =>
        cases h
        exact ⟨rfl, rfl, .refl _, rfl, rfl, rfl, rfl⟩

lemma frame_claimLoop (capacity : ℕ) (s : Service) : Frame done s (claimLoop capacity s) := by
  induction capacity generalizing s with
  | zero => exact ⟨rfl, rfl, .refl _, rfl, rfl, rfl, rfl⟩
  | succ capacity ih =>
    simp only [claimLoop]
    split
    · exact ⟨rfl, rfl, .refl _, rfl, rfl, rfl, rfl⟩
    · rename_i row _
      have hmove : ∀ r, isQueued row.id r = true →
          Move done s.now r { r with state := .provisioning } := by
        intro r hr
        exact .provisioning (isQueued_iff.mp hr).2
      have hclaim : Frame done s { s with
          db := s.db.updateWorkspaces (isQueued row.id) fun r => { r with state := .provisioning }
          claims := s.claims ++ [row.id] } :=
        ⟨rfl, rfl, .updateWhere _ hmove, rfl, rfl, rfl, rfl⟩
      split
      · exact hclaim.trans (ih _)
      · exact hclaim.trans ⟨rfl, rfl, .refl _, rfl, rfl, rfl, rfl⟩

lemma frame_checkLoop (config : Config) (rows : List WorkspaceRow) (s : Service) :
    Frame done s (checkLoop config rows s) := by
  cases rows with
  | nil => exact frame_claimLoop _ s
  | cons row rest => exact ⟨rfl, rfl, .refl _, rfl, rfl, rfl, rfl⟩

lemma frame_stopLoop (config : Config) (rows : List WorkspaceRow) (s : Service) :
    Frame done s (stopLoop config rows s) := by
  cases rows with
  | nil => exact frame_checkLoop config _ s
  | cons row rest =>
    exact (frame_stopWorkspace s row _).trans ⟨rfl, rfl, .refl _, rfl, rfl, rfl, rfl⟩

lemma frame_reconcile (config : Config) (s : Service) : Frame done s (reconcile config s) := by
  unfold reconcile
  split
  · exact .refl s
  · have hmove : ∀ r, isExpired s.now r = true →
        Move done s.now r { r with state := .stopping } := by
      intro r hr
      exact .stopping (isExpired_iff.mp hr).1
    exact (Frame.updateWorkspaces s hmove).trans (frame_stopLoop config _ _)

lemma frame_applyStatus (s : Service) (row : WorkspaceRow)
    (reply : Except AgentError RuntimeState) :
    Frame (fun id => id = row.id ∧ ∃ state, reply = .ok state ∧ state ≠ .running) s
      (s.applyStatus row reply) := by
  unfold applyStatus
  split
  · exact .audit ..
  · split
    · refine (Frame.updateWorkspaces s fun r hr => ?_).trans (.audit ..)
      exact .running (isProvisioning_iff.mp hr).2
    · split
      · rename_i state _ hstate
        refine (Frame.updateWorkspaces s fun r hr => ?_).trans (.audit ..)
        obtain ⟨hid, hstarted⟩ := isStarted_iff.mp hr
        exact .failed hstarted ⟨hid, state, rfl, hstate⟩ _
      · exact .refl s

lemma frame_applyCreate (s : Service) (row : WorkspaceRow) (reply : Except AgentError Unit) :
    Frame done s (s.applyCreate row reply) := by
  unfold applyCreate
  split
  · refine (Frame.updateWorkspaces s fun r hr => ?_).trans (.audit ..)
    exact .running (isProvisioning_iff.mp hr).2
  · exact .audit ..

end Service

end Bloom
