import BloomWorkspaces.Control.Workspaces.Admitted

/-!
# Capacity

`runReconciliation` reads the free capacity once and then claims queued rows across several awaits.
The bound on the claimed rows rests on one invariant, `Consistent`: the run that is suspended in
`agent.create` still has room for every claim it may make, and a request about a workspace is only
sent once its row has left the queue.
-/

namespace Bloom

namespace Service

variable {config : Config} {capabilities : Option WorkspaceDataCapabilities} {start s s' : Service}
  {id : String} {done : String → Prop}

/-- The workspaces whose start has been requested, in order. -/
def createIds (s : Service) : List String := s.sent.filterMap AgentRequest.createId

/-- A workspace is claimed from its claim until its row is `stopped` or `failed`. -/
def isClaimed (s : Service) (r : WorkspaceRow) : Bool := r.state.isActive ∧ r.id ∈ s.claims

def claimedCount (s : Service) : ℕ := s.db.count s.isClaimed

/-- The row of the workspace was inserted and is no longer queued. -/
def Begun (s : Service) (id : String) : Prop :=
  id ∈ s.uuids ∧ ∀ r ∈ s.db.workspaces, r.id = id → r.state ≠ .queued

/-- What can be said of `s'` given that it is later than `s`: requests are never taken back, no
workspace returns to the queue, and one that has left it is not claimed any more. -/
structure Advance (s s' : Service) : Prop where
  begun : ∀ id, s.Begun id → s'.Begun id
  claims : ∀ id, s.Begun id → id ∈ s'.claims → id ∈ s.claims
  sent : s.sent <+: s'.sent

lemma Advance.refl (s : Service) : Advance s s := ⟨fun _ h => h, fun _ _ h => h, List.prefix_rfl⟩

/-- What holds of the tables, the requests and the stop promises between any two awaits, in a run that
has passed through `start`. -/
structure Core (start s : Service) : Prop where
  advance : Advance start s
  ids_nodup : (s.db.workspaces.map (·.id)).Nodup
  ids_drawn : ∀ r ∈ s.db.workspaces, r.id ∈ s.uuids
  claims_eq : s.createIds = s.claims
  claims_nodup : s.claims.Nodup
  sent_begun : ∀ q ∈ s.sent, ∀ id, q.workspaceId = some id → s.Begun id
  operations : ∀ op ∈ s.operations, s.sent[op.call]? = some (.stop op.row.id)

/-- What the suspended reconciliation relies on when it resumes. -/
def Suspended (config : Config) (s : Service) : Prop :=
  match s.reconciliation with
  | none | some .finished => True
  | some (.stopping _ rest) => ∀ row ∈ rest, s.Begun row.id
  | some (.checking row rest call) =>
    s.sent[call]? = some (.status row.id) ∧ ∀ row ∈ rest, s.Begun row.id
  | some (.starting row capacity call) =>
    s.sent[call]? = some (.create (runtimeSpec row)) ∧
      s.claimedCount + capacity ≤ config.maxRunning

structure Consistent (config : Config) (start s : Service) : Prop where
  core : Core start s
  suspended : Suspended config s
  capacity : s.claimedCount ≤ config.maxRunning

lemma Core.claims_begun (h : Core start s) (hid : id ∈ s.claims) : s.Begun id := by
  rw [← h.claims_eq, createIds, List.mem_filterMap] at hid
  obtain ⟨q, hq, hcreate⟩ := hid
  exact h.sent_begun q hq id (AgentRequest.workspaceId_of_createId hcreate)

/-- A row that is active and claimed counts against the capacity. -/
lemma Core.claimedCount_le (h : Core start s) : s.claimedCount ≤ s.db.count (·.state.takesCapacity) := by
  refine List.countP_mono_left fun r hr hclaimed => ?_
  simp only [isClaimed, decide_eq_true_eq] at hclaimed
  have hqueued : r.state ≠ .queued := (h.claims_begun hclaimed.2).2 r hr rfl
  cases hstate : r.state <;> simp_all [WorkspaceState.isActive, WorkspaceState.takesCapacity]

/-! ### Changes that claim nothing -/

/-- From `s` to `s'` no workspace returned to the queue and none was claimed. -/
structure Calm (s s' : Service) : Prop where
  begun : ∀ id, s.Begun id → s'.Begun id
  claims : s'.claims = s.claims
  claimed : s'.claimedCount ≤ s.claimedCount

/-- What is later than a calm change is later than what came before it. -/
lemma Advance.calm (h : Advance start s) (hc : Calm s s') (hsent : s.sent <+: s'.sent) :
    Advance start s' where
  begun := fun id hid => hc.begun id (h.begun id hid)
  claims := fun id hid hclaimed => h.claims id hid (hc.claims ▸ hclaimed)
  sent := h.sent.trans hsent

lemma Begun.frame (h : s.Begun id) (hf : Frame done s s') : s'.Begun id := by
  refine ⟨hf.uuids ▸ h.1, fun r' hr' hid hqueued => ?_⟩
  obtain ⟨r, hr, hm⟩ := hf.rows.exists_of_mem_right hr'
  have heq := hm.eq_of_queued hqueued
  subst heq
  exact h.2 _ hr hid hqueued

lemma Frame.calm (hf : Frame done s s') (hclaims : s'.claims = s.claims) : Calm s s' := by
  have hsame : s'.isClaimed = s.isClaimed := by
    funext r
    rw [isClaimed, isClaimed, hclaims]
  refine ⟨fun id h => h.frame hf, hclaims, ?_⟩
  rw [claimedCount, hsame]
  refine hf.rows.countP_le fun r r' hm hclaimed => ?_
  simp only [isClaimed, decide_eq_true_eq] at hclaimed ⊢
  exact ⟨hm.isActive_of hclaimed.1, hm.id_eq ▸ hclaimed.2⟩

lemma Suspended.calm (h : Suspended config s) (hc : Calm s s') (hsent : s.sent <+: s'.sent)
    (hpc : s'.reconciliation = s.reconciliation) : Suspended config s' := by
  have hcall : ∀ {call : ℕ} {q : AgentRequest}, s.sent[call]? = some q → s'.sent[call]? = some q := by
    intro call q hq
    obtain ⟨rest, hrest⟩ := hsent
    rw [← hrest]
    exact List.getElem?_append_left (List.getElem?_eq_some_iff.mp hq).1 ▸ hq
  simp only [Suspended, hpc] at h ⊢
  split
  · trivial
  · trivial
  · rename_i rest heq
    rw [heq] at h
    exact fun row hrow => hc.begun _ (h row hrow)
  · rename_i row rest call heq
    rw [heq] at h
    exact ⟨hcall h.1, fun row hrow => hc.begun _ (h.2 row hrow)⟩
  · rename_i row capacity call heq
    rw [heq] at h
    exact ⟨hcall h.1, le_trans (Nat.add_le_add_right hc.claimed _) h.2⟩

/-- A frame that sends nothing and starts no promise keeps the core. -/
lemma Core.frame (h : Core start s) (hf : Frame done s s') (hclaims : s'.claims = s.claims)
    (hsent : s'.sent = s.sent)
    (hoperations : ∀ op ∈ s'.operations, ∃ op₀ ∈ s.operations, op.call = op₀.call ∧ op.row = op₀.row) :
    Core start s' where
  advance := h.advance.calm (hf.calm hclaims) (hsent ▸ List.prefix_rfl)
  ids_nodup := by
    rw [hf.rows.ids_eq]
    exact h.ids_nodup
  ids_drawn := by
    intro r' hr'
    obtain ⟨r, hr, hm⟩ := hf.rows.exists_of_mem_right hr'
    rw [hf.uuids, hm.id_eq]
    exact h.ids_drawn r hr
  claims_eq := by
    rw [createIds, hsent, hclaims]
    exact h.claims_eq
  claims_nodup := hclaims ▸ h.claims_nodup
  sent_begun := by
    intro q hq id hid
    exact (h.sent_begun q (hsent ▸ hq) id hid).frame hf
  operations := by
    intro op hop
    obtain ⟨op₀, hop₀, hcall, hrow⟩ := hoperations op hop
    rw [hsent, hcall, hrow]
    exact h.operations op₀ hop₀

lemma getElem?_sent_append {call : ℕ} {q q' : AgentRequest} (h : s.sent[call]? = some q) :
    (s.sent ++ [q'])[call]? = some q := by
  rw [List.getElem?_append_left (List.getElem?_eq_some_iff.mp h).1, h]

/-- Sending a request that starts nothing, about a workspace that has begun. -/
lemma Core.send (h : Core start s) {q : AgentRequest} (hcreate : q.createId = none)
    (hbegun : ∀ id, q.workspaceId = some id → s.Begun id) : Core start (s.send q) where
  advance := h.advance.calm ⟨fun _ hid => hid, rfl, le_rfl⟩ (List.prefix_append _ _)
  ids_nodup := h.ids_nodup
  ids_drawn := h.ids_drawn
  claims_eq := by
    rw [createIds, Service.send, List.filterMap_append]
    simpa [hcreate, createIds] using h.claims_eq
  claims_nodup := h.claims_nodup
  sent_begun := by
    intro q' hq' id hid
    rcases List.mem_append.mp hq' with hold | hnew
    · exact h.sent_begun q' hold id hid
    · obtain rfl := List.mem_singleton.mp hnew
      exact hbegun id hid
  operations := fun op hop => getElem?_sent_append (h.operations op hop)

lemma Core.stopWorkspace (h : Core start s) {row : WorkspaceRow} (reason : String)
    (hbegun : s.Begun row.id) : Core start (s.stopWorkspace row reason).1 := by
  unfold Service.stopWorkspace
  split
  · exact h
  · have hsend : Core start (s.send (.stop row.id)) := by
      refine h.send rfl fun id hid => ?_
      cases hid
      exact hbegun
    refine ⟨⟨hsend.advance.begun, hsend.advance.claims, hsend.advance.sent⟩, hsend.ids_nodup,
      hsend.ids_drawn, hsend.claims_eq, hsend.claims_nodup, hsend.sent_begun, fun op hop => ?_⟩
    rcases List.mem_append.mp hop with hold | hnew
    · exact hsend.operations op hold
    · obtain rfl := List.mem_singleton.mp hnew
      exact List.getElem?_concat_length

lemma calm_stopWorkspace (s : Service) (row : WorkspaceRow) (reason : String) :
    Calm s (s.stopWorkspace row reason).1 := by
  have hframe : Frame (fun _ => False) s (s.stopWorkspace row reason).1 :=
    frame_stopWorkspace s row reason
  refine hframe.calm ?_
  unfold Service.stopWorkspace
  split <;> rfl

/-! ### Claiming -/

lemma nextQueued_some {row : WorkspaceRow} (h : s.nextQueued = some row) :
    row ∈ s.db.workspaces ∧ row.state = .queued := by
  have hmem := List.argmin_mem h
  simp only [List.mem_filter, decide_eq_true_eq] at hmem
  exact ⟨hmem.1, hmem.2.1⟩

/-- The service right after the claim of `row` and its `agent.create`. -/
def claim (s : Service) (row : WorkspaceRow) : Service :=
  { s with
    db := s.db.updateWorkspaces (isQueued row.id) fun r => { r with state := .provisioning }
    claims := s.claims ++ [row.id]
    sent := s.sent ++ [.create (runtimeSpec row)] }

/-- One claim changes exactly one row. -/
lemma Core.count_isQueued (h : Core start s) {row : WorkspaceRow} (hrow : row ∈ s.db.workspaces)
    (hqueued : row.state = .queued) : s.db.count (isQueued row.id) = 1 := by
  have hle : s.db.count (isQueued row.id) ≤ 1 :=
    Table.countP_key_le_one h.ids_nodup row.id fun r _ hr => (isQueued_iff.mp hr).1
  have hpos : 0 < s.db.count (isQueued row.id) :=
    List.countP_pos_iff.mpr ⟨row, hrow, isQueued_iff.mpr ⟨rfl, hqueued⟩⟩
  exact le_antisymm hle hpos

/-- The loop ends, or it claims one row and sends its `create`. -/
lemma Core.claimLoop_cases (h : Core start s) (capacity : ℕ) :
    claimLoop capacity s = { s with reconciliation := some .finished } ∨
      ∃ row rest, row ∈ s.db.workspaces ∧ row.state = .queued ∧ rest + 1 = capacity ∧
        claimLoop capacity s = { s.claim row with
          reconciliation := some (.starting row rest s.sent.length) } := by
  cases capacity with
  | zero => exact .inl rfl
  | succ rest =>
    cases hnext : s.nextQueued with
    | none =>
      refine .inl ?_
      simp only [claimLoop, hnext]
    | some row =>
      obtain ⟨hrow, hqueued⟩ := nextQueued_some hnext
      refine .inr ⟨row, rest, hrow, hqueued, rfl, ?_⟩
      have hcount := h.count_isQueued hrow hqueued
      simp only [claimLoop, hnext, hcount, ne_eq, not_true_eq_false, if_false]
      rfl

lemma claim_frame (done : String → Prop) (s : Service) (row : WorkspaceRow) :
    Frame done s (s.claim row) :=
  ⟨rfl, rfl, .updateWhere _ fun _ hr => .provisioning (isQueued_iff.mp hr).2, rfl, rfl, rfl, rfl⟩

/-- The claimed workspace has begun. -/
lemma Core.begun_claim (h : Core start s) {row : WorkspaceRow} (hrow : row ∈ s.db.workspaces) :
    (s.claim row).Begun row.id := by
  refine ⟨h.ids_drawn row hrow, fun r' hr' hid hqueued => ?_⟩
  obtain ⟨r, hr, heq⟩ := Table.mem_updateWhere.mp hr'
  by_cases hq : isQueued row.id r
  · rw [heq, if_pos hq] at hqueued
    cases hqueued
  · rw [if_neg hq] at heq
    subst heq
    exact hq (isQueued_iff.mpr ⟨hid, hqueued⟩)

lemma Core.claim (h : Core start s) {row : WorkspaceRow} (hrow : row ∈ s.db.workspaces)
    (hqueued : row.state = .queued) : Core start (s.claim row) where
  advance := by
    have hframe := claim_frame (fun _ => False) s row
    refine ⟨fun id hid => (h.advance.begun id hid).frame hframe, fun id hid hclaimed => ?_,
      h.advance.sent.trans (List.prefix_append _ _)⟩
    rcases List.mem_append.mp hclaimed with hold | hnew
    · exact h.advance.claims id hid hold
    · rw [List.mem_singleton.mp hnew] at hid
      exact absurd hqueued ((h.advance.begun _ hid).2 row hrow rfl)
  ids_nodup := by
    rw [(claim_frame (fun _ => False) s row).rows.ids_eq]
    exact h.ids_nodup
  ids_drawn := by
    intro r' hr'
    obtain ⟨r, hr, hm⟩ := (claim_frame (fun _ => False) s row).rows.exists_of_mem_right hr'
    rw [hm.id_eq]
    exact h.ids_drawn r hr
  claims_eq := by
    rw [createIds, Service.claim, List.filterMap_append]
    simpa [createIds, AgentRequest.createId, runtimeSpec] using h.claims_eq
  claims_nodup := by
    rw [Service.claim, List.nodup_append_comm, List.singleton_append, List.nodup_cons]
    exact ⟨fun hclaimed => (h.claims_begun hclaimed).2 row hrow rfl hqueued, h.claims_nodup⟩
  sent_begun := by
    intro q hq id hid
    rcases List.mem_append.mp hq with hold | hnew
    · exact (h.sent_begun q hold id hid).frame (claim_frame (fun _ => False) s row)
    · obtain rfl := List.mem_singleton.mp hnew
      cases hid
      exact h.begun_claim hrow
  operations := fun op hop => getElem?_sent_append (h.operations op hop)

/-- A claim raises the number of claimed rows by at most one. -/
lemma Core.claimedCount_claim (h : Core start s) (row : WorkspaceRow) :
    (s.claim row).claimedCount ≤ s.claimedCount + 1 := by
  have hone : s.db.workspaces.countP (fun r => r.id = row.id) ≤ 1 :=
    Table.countP_key_le_one h.ids_nodup row.id fun r _ hr => by simpa using hr
  have hsplit : (s.claim row).claimedCount ≤
      s.claimedCount + s.db.workspaces.countP (fun r => r.id = row.id) := by
    rw [claimedCount, Database.count, Service.claim, Database.updateWorkspaces_workspaces,
      Table.updateWhere, List.countP_map]
    refine Table.countP_le_add fun r _ hr => ?_
    by_cases hq : isQueued row.id r
    · exact .inr (by simpa using (isQueued_iff.mp hq).1)
    · simp only [Function.comp_apply, hq, isClaimed, decide_eq_true_eq, List.mem_append,
        List.mem_singleton] at hr ⊢
      rcases hr.2 with hold | hnew
      · exact .inl ⟨hr.1, hold⟩
      · exact .inr hnew
  exact hsplit.trans (Nat.add_le_add_left hone _)

/-! ### One reconciliation -/

/-- A row that has left the queue has begun. -/
lemma Core.begun_of_mem (h : Core start s) {row : WorkspaceRow} (hrow : row ∈ s.db.workspaces)
    (hstate : row.state ≠ .queued) : s.Begun row.id := by
  refine ⟨h.ids_drawn row hrow, fun r hr hid => ?_⟩
  rw [Table.eq_of_key_eq h.ids_nodup hr hrow hid]
  exact hstate

/-- The core does not speak about the suspended reconciliation. -/
lemma Core.setReconciliation (h : Core start s) (pc : Option Reconciliation) :
    Core start { s with reconciliation := pc } :=
  ⟨⟨h.advance.begun, h.advance.claims, h.advance.sent⟩, h.ids_nodup, h.ids_drawn, h.claims_eq,
    h.claims_nodup, h.sent_begun, h.operations⟩

lemma consistent_claimLoop (h : Core start s) {capacity : ℕ}
    (hcapacity : s.claimedCount + capacity ≤ config.maxRunning) :
    Consistent config start (claimLoop capacity s) := by
  rcases h.claimLoop_cases capacity with heq | ⟨row, rest, hrow, hqueued, hrest, heq⟩
  · rw [heq]
    refine ⟨h.setReconciliation _, trivial, ?_⟩
    exact le_trans (Nat.le_add_right _ _) hcapacity
  · rw [heq]
    have hclaimed := h.claimedCount_claim row
    have hroom : (s.claim row).claimedCount + rest ≤ config.maxRunning := by omega
    refine ⟨(h.claim hrow hqueued).setReconciliation _, ⟨?_, hroom⟩, ?_⟩
    · exact List.getElem?_concat_length
    · exact le_trans (Nat.le_add_right _ _) hroom

lemma consistent_startClaims (h : Core start s) (hcapacity : s.claimedCount ≤ config.maxRunning) :
    Consistent config start (startClaims config s) := by
  have hle := h.claimedCount_le
  refine consistent_claimLoop h ?_
  omega

lemma consistent_checkLoop (h : Core start s) (hcapacity : s.claimedCount ≤ config.maxRunning)
    {rows : List WorkspaceRow} (hrows : ∀ row ∈ rows, s.Begun row.id) :
    Consistent config start (checkLoop config rows s) := by
  cases rows with
  | nil => exact consistent_startClaims h hcapacity
  | cons row rest =>
    have hsend : Core start (s.send (.status row.id)) := by
      refine h.send rfl fun id hid => ?_
      cases hid
      exact hrows row List.mem_cons_self
    refine ⟨hsend.setReconciliation _, ⟨?_, ?_⟩, hcapacity⟩
    · exact List.getElem?_concat_length
    · intro row' hrow'
      exact hrows row' (List.mem_cons_of_mem row hrow')

lemma consistent_stopLoop (h : Core start s) (hcapacity : s.claimedCount ≤ config.maxRunning)
    {rows : List WorkspaceRow} (hrows : ∀ row ∈ rows, s.Begun row.id) :
    Consistent config start (stopLoop config rows s) := by
  cases rows with
  | nil =>
    refine consistent_checkLoop h hcapacity fun row hrow => ?_
    obtain ⟨hmem, hstarted⟩ := List.mem_filter.mp hrow
    refine h.begun_of_mem hmem fun hqueued => ?_
    rw [hqueued] at hstarted
    cases hstarted
  | cons row rest =>
    have hcalm := calm_stopWorkspace s row (if row.leaseExpiresAt ≤ s.now then "lease_expired" else "retry")
    have hstop := h.stopWorkspace (if row.leaseExpiresAt ≤ s.now then "lease_expired" else "retry")
      (hrows row List.mem_cons_self)
    refine ⟨hstop.setReconciliation _, ?_, hcalm.claimed.trans hcapacity⟩
    intro row' hrow'
    exact hcalm.begun _ (hrows row' (List.mem_cons_of_mem row hrow'))

/-- A frame that leaves the requests and the promises alone keeps the invariant. -/
lemma Consistent.frame (h : Consistent config start s) (hf : Frame done s s')
    (hclaims : s'.claims = s.claims) (hsent : s'.sent = s.sent)
    (hoperations : ∀ op ∈ s'.operations, ∃ op₀ ∈ s.operations, op.call = op₀.call ∧ op.row = op₀.row)
    (hpc : s'.reconciliation = s.reconciliation) : Consistent config start s' where
  core := h.core.frame hf hclaims hsent hoperations
  suspended := h.suspended.calm (hf.calm hclaims) (hsent ▸ List.prefix_rfl) hpc
  capacity := (hf.calm hclaims).claimed.trans h.capacity

/-- The invariant does not speak about the clock, the volumes and the callers. -/
lemma Consistent.keep (h : Consistent config start s) (hrows : s'.db.workspaces = s.db.workspaces)
    (huuids : s'.uuids = s.uuids) (hclaims : s'.claims = s.claims) (hsent : s'.sent = s.sent)
    (hoperations : s'.operations = s.operations) (hpc : s'.reconciliation = s.reconciliation) :
    Consistent config start s' := by
  have hcalm : Calm s s' := by
    refine ⟨fun id hid => ?_, hclaims, ?_⟩
    · rw [Begun, huuids, hrows]
      exact hid
    · have hsame : s'.isClaimed = s.isClaimed := by
        funext r
        rw [isClaimed, isClaimed, hclaims]
      rw [claimedCount, claimedCount, Database.count, Database.count, hrows, hsame]
  refine ⟨⟨h.core.advance.calm hcalm (hsent ▸ List.prefix_rfl), ?_, ?_, ?_, ?_, ?_, ?_⟩,
    h.suspended.calm hcalm (hsent ▸ List.prefix_rfl) hpc, hcalm.claimed.trans h.capacity⟩
  · rw [hrows]
    exact h.core.ids_nodup
  · rw [hrows, huuids]
    exact h.core.ids_drawn
  · rw [createIds, hsent, hclaims]
    exact h.core.claims_eq
  · rw [hclaims]
    exact h.core.claims_nodup
  · rw [hsent]
    intro q hq id hid
    exact hcalm.begun id (h.core.sent_begun q hq id hid)
  · rw [hsent, hoperations]
    exact h.core.operations

/-- Joining or sending a stop keeps the invariant. -/
lemma Consistent.stopWorkspace (h : Consistent config start s) {row : WorkspaceRow} (reason : String)
    (hbegun : s.Begun row.id) : Consistent config start (s.stopWorkspace row reason).1 := by
  have hcalm := calm_stopWorkspace s row reason
  refine ⟨h.core.stopWorkspace reason hbegun, h.suspended.calm hcalm ?_ ?_,
    hcalm.claimed.trans h.capacity⟩
  · unfold Service.stopWorkspace
    split
    · exact List.prefix_rfl
    · exact List.prefix_append _ _
  · unfold Service.stopWorkspace
    split <;> rfl

lemma sameOperations (s : Service) :
    ∀ op ∈ s.operations, ∃ op₀ ∈ s.operations, op.call = op₀.call ∧ op.row = op₀.row :=
  fun op hop => ⟨op, hop, rfl, rfl⟩

/-- Settling a promise keeps its row and its call. -/
lemma settledOperations {operation : ℕ} {op : StopOperation} {outcome : Option (Except ServiceError Unit)}
    (hop : s.operations[operation]? = some op) :
    ∀ op' ∈ s.operations.set operation { op with outcome := outcome },
      ∃ op₀ ∈ s.operations, op'.call = op₀.call ∧ op'.row = op₀.row := by
  intro op' hop'
  rcases List.mem_or_eq_of_mem_set hop' with hold | rfl
  · exact ⟨op', hold, rfl, rfl⟩
  · exact ⟨op, List.mem_of_getElem? hop, rfl, rfl⟩

lemma consistent_reconcile (h : Consistent config start s) : Consistent config start (reconcile config s) := by
  rw [reconcile]
  split
  · exact h
  · have hexpire : Frame (fun _ => False) s { s with
        db := s.db.updateWorkspaces (isExpired s.now) fun r => { r with state := .stopping } } :=
      .updateWorkspaces s fun r hr => .stopping (isExpired_iff.mp hr).1
    have hcore := h.core.frame hexpire rfl rfl (sameOperations s)
    refine consistent_stopLoop hcore ((hexpire.calm rfl).claimed.trans h.capacity) fun row hrow => ?_
    obtain ⟨hmem, hstopping⟩ := List.mem_filter.mp hrow
    refine hcore.begun_of_mem hmem fun hqueued => ?_
    rw [hqueued] at hstopping
    cases hstopping

/-! ### Steps -/

lemma consistent_applyStatus (h : Consistent config start s) (row : WorkspaceRow)
    (reply : Except AgentError RuntimeState) : Consistent config start (s.applyStatus row reply) := by
  have hframe := frame_applyStatus s row reply
  have hrest : (s.applyStatus row reply).claims = s.claims ∧ (s.applyStatus row reply).sent = s.sent ∧
      (s.applyStatus row reply).operations = s.operations ∧
      (s.applyStatus row reply).reconciliation = s.reconciliation := by
    unfold applyStatus
    split
    · exact ⟨rfl, rfl, rfl, rfl⟩
    · split_ifs <;> exact ⟨rfl, rfl, rfl, rfl⟩
  refine h.frame hframe hrest.1 hrest.2.1 ?_ hrest.2.2.2
  rw [hrest.2.2.1]
  exact sameOperations s

lemma consistent_applyCreate (h : Consistent config start s) (row : WorkspaceRow)
    (reply : Except AgentError Unit) : Consistent config start (s.applyCreate row reply) := by
  have hframe : Frame (fun _ => False) s (s.applyCreate row reply) := frame_applyCreate s row reply
  cases reply with
  | ok => exact h.frame hframe rfl rfl (sameOperations s) rfl
  | error e => exact h.frame hframe rfl rfl (sameOperations s) rfl

lemma consistent_stopReply (h : Consistent config start s) {operation : ℕ} {reply : Except AgentError Unit}
    (hs : s.stopReply operation reply = some s') : Consistent config start s' := by
  have hframe := frame_stopReply hs
  rw [stopReply] at hs
  cases hop : s.operations[operation]? with
  | none =>
    rw [hop] at hs
    cases hs
  | some op =>
    simp only [hop] at hs
    split at hs
    · cases hs
    · cases reply with
      | ok =>
        cases hs
        split_ifs at hframe ⊢
        · exact h.frame hframe rfl rfl (settledOperations hop) rfl
        · exact h.frame hframe rfl rfl (settledOperations hop) rfl
      | error e =>
        cases hs
        exact h.frame hframe rfl rfl (settledOperations hop) rfl

/-- Identifiers that were drawn for nothing do no harm. -/
lemma Consistent.draw (h : Consistent config start s) (id volumeId : String) :
    Consistent config start { s with uuids := id :: volumeId :: s.uuids } := by
  have hdrawn : ∀ {x : String}, x ∈ s.uuids → x ∈ id :: volumeId :: s.uuids := fun hx =>
    List.mem_cons_of_mem _ (List.mem_cons_of_mem _ hx)
  have hcalm : Calm s { s with uuids := id :: volumeId :: s.uuids } :=
    ⟨fun x hx => ⟨hdrawn hx.1, hx.2⟩, rfl, le_rfl⟩
  refine ⟨?_, h.suspended.calm hcalm List.prefix_rfl rfl, h.capacity⟩
  exact ⟨h.core.advance.calm hcalm List.prefix_rfl, h.core.ids_nodup,
    fun r hr => hdrawn (h.core.ids_drawn r hr), h.core.claims_eq,
    h.core.claims_nodup, fun q hq x hx => hcalm.begun x (h.core.sent_begun q hq x hx),
    h.core.operations⟩

/-- The admitted row is queued under a fresh id, so it is not claimed. -/
lemma Consistent.insertRow (h : Consistent config start s) {wallet ipHash id volumeId : String}
    {storageMode : StorageMode} {row : WorkspaceRow} {db : Database} (hfresh : s.fresh id volumeId)
    (ha : Admitted config s.now wallet ipHash storageMode id volumeId s.db row db) :
    Consistent config start { s with
      db := db, uuids := id :: volumeId :: s.uuids, admitted := s.admitted ++ [row] } := by
  obtain ⟨volume, hrow, -⟩ := ha.volume
  have hid : row.id = id := by rw [hrow]; rfl
  have hdrawn : ∀ {x : String}, x ∈ s.uuids → x ∈ id :: volumeId :: s.uuids := fun hx =>
    List.mem_cons_of_mem _ (List.mem_cons_of_mem _ hx)
  have hcalm : Calm s { s with
      db := db, uuids := id :: volumeId :: s.uuids, admitted := s.admitted ++ [row] } := by
    refine ⟨fun x hx => ⟨hdrawn hx.1, fun r hr hrx => ?_⟩, rfl, ?_⟩
    · rw [ha.workspaces] at hr
      rcases List.mem_append.mp hr with hold | hnew
      · exact hx.2 r hold hrx
      · obtain rfl := List.mem_singleton.mp hnew
        rw [← hrx, hid] at hx
        exact absurd hx.1 hfresh.1
    · have hunclaimed : s.isClaimed row = false := by
        by_contra hclaimed
        simp only [isClaimed, Bool.not_eq_false, decide_eq_true_eq, hid] at hclaimed
        exact hfresh.1 (h.core.claims_begun hclaimed.2).1
      have hcount : db.workspaces.countP s.isClaimed = s.db.workspaces.countP s.isClaimed := by
        rw [ha.workspaces, List.countP_append, List.countP_singleton, hunclaimed]
        rfl
      exact hcount.le
  refine ⟨?_, h.suspended.calm hcalm List.prefix_rfl rfl, hcalm.claimed.trans h.capacity⟩
  refine ⟨h.core.advance.calm hcalm List.prefix_rfl, ?_, ?_, h.core.claims_eq, h.core.claims_nodup,
    fun q hq x hx => hcalm.begun x (h.core.sent_begun q hq x hx), h.core.operations⟩
  · simp only [ha.workspaces, List.map_append, List.map_cons, List.map_nil]
    rw [List.nodup_append_comm, List.singleton_append, List.nodup_cons, hid]
    refine ⟨fun hmem => ?_, h.core.ids_nodup⟩
    obtain ⟨r, hr, hrid⟩ := List.mem_map.mp hmem
    exact ha.newId r hr hrid
  · intro r hr
    rw [ha.workspaces] at hr
    rcases List.mem_append.mp hr with hold | hnew
    · exact hdrawn (h.core.ids_drawn r hold)
    · obtain rfl := List.mem_singleton.mp hnew
      exact hid ▸ List.mem_cons_self

lemma consistent_create (h : Consistent config start s) {wallet ipHash id volumeId : String}
    {storage : Option StorageMode} (hfresh : s.fresh id volumeId) :
    Consistent config start (create config capabilities
      { s with uuids := id :: volumeId :: s.uuids } wallet ipHash storage id volumeId).2 := by
  rcases hcreate : create config capabilities { s with uuids := id :: volumeId :: s.uuids } wallet
    ipHash storage id volumeId with ⟨error | workspace, s'⟩
  · rw [create_error hcreate]
    exact h.draw id volumeId
  · obtain ⟨-, row, db, hadmitted, rfl⟩ := create_ok hcreate
    exact consistent_reconcile (h.insertRow hfresh hadmitted)

lemma consistent_stopCurrent (h : Consistent config start s) (wallet : String) :
    Consistent config start (s.stopCurrent wallet) := by
  unfold Service.stopCurrent
  split
  · exact h
  · rename_i row hcurrent
    have hmem : row ∈ s.db.workspaces := List.mem_of_mem_filter (List.argmax_mem hcurrent)
    have hframe : Frame (fun _ => False) s { s with
        db := s.db.updateWorkspaces (isStoppable row.id) fun r => { r with state := .stopping } } :=
      .updateWorkspaces s fun r hr => .stopping (isStoppable_iff.mp hr).2
    have hstopping := h.frame hframe rfl rfl (sameOperations s) rfl
    refine Consistent.keep (hstopping.stopWorkspace "owner" ?_) rfl rfl rfl rfl rfl rfl
    refine ⟨h.core.ids_drawn row hmem, fun r' hr' hid hqueued => ?_⟩
    obtain ⟨r, hr, heq⟩ := Table.mem_updateWhere.mp hr'
    by_cases hs : isStoppable row.id r
    · rw [heq, if_pos hs] at hqueued
      cases hqueued
    · rw [if_neg hs] at heq
      subst heq
      refine hs (isStoppable_iff.mpr ⟨hid, ?_⟩)
      rw [hqueued]
      rfl

lemma Consistent.maintenance (h : Consistent config start s) : Consistent config start s.maintenance := by
  have hcalm : Calm s s.maintenance := by
    refine ⟨fun id hid => ⟨hid.1, fun r hr => ?_⟩, rfl, Table.countP_deleteWhere_le _ _ _⟩
    exact hid.2 r (Table.mem_deleteWhere.mp hr).1
  refine ⟨?_, h.suspended.calm hcalm List.prefix_rfl rfl, hcalm.claimed.trans h.capacity⟩
  refine ⟨h.core.advance.calm hcalm List.prefix_rfl,
    (Table.map_deleteWhere_sublist _ _ _).nodup h.core.ids_nodup, ?_, h.core.claims_eq,
    h.core.claims_nodup, fun q hq id hid => hcalm.begun id (h.core.sent_begun q hq id hid),
    h.core.operations⟩
  intro r hr
  exact h.core.ids_drawn r (Table.mem_deleteWhere.mp hr).1

lemma Consistent.destroyPersistentVolume (h : Consistent config start s) (wallet : String) :
    Consistent config start (s.destroyPersistentVolume wallet).2 := by
  rw [Service.destroyPersistentVolume]
  split
  · exact h
  · rename_i volume _
    have hsend : Consistent config start (s.send (.destroyVolume volume.id)) := by
      refine ⟨h.core.send rfl fun id hid => (by cases hid), ?_, h.capacity⟩
      exact h.suspended.calm ⟨fun _ hx => hx, rfl, le_rfl⟩ (List.prefix_append _ _) rfl
    exact hsend.keep rfl rfl rfl rfl rfl rfl

lemma Consistent.destroyReply (h : Consistent config start s) {index : ℕ} {reply : Except AgentError Unit}
    (hs : s.destroyReply index reply = some s') : Consistent config start s' := by
  simp only [Service.destroyReply] at hs
  split at hs
  · cases hs
  · cases reply with
    | ok =>
      cases hs
      exact h.keep rfl rfl rfl rfl rfl rfl
    | error e =>
      cases hs
      exact h.keep rfl rfl rfl rfl rfl rfl

lemma Consistent.reconcileStopped (h : Consistent config start s)
    (hs : reconcileStopped config s = some s') : Consistent config start s' := by
  simp only [Service.reconcileStopped] at hs
  split at hs
  · rename_i operation rest hpc
    split at hs
    · split at hs
      · cases hs
        have hsuspended := h.suspended
        simp only [Suspended, hpc] at hsuspended
        exact consistent_stopLoop h.core h.capacity hsuspended
      · cases hs
    · cases hs
  · cases hs

lemma Consistent.statusReply (h : Consistent config start s) {reply : Except AgentError RuntimeState}
    (hs : statusReply config s reply = some s') : Consistent config start s' := by
  simp only [Service.statusReply] at hs
  split at hs
  · rename_i row rest call hpc
    cases hs
    have happlied := consistent_applyStatus h row reply
    have hsuspended := h.suspended
    simp only [Suspended, hpc] at hsuspended
    refine consistent_checkLoop happlied.core happlied.capacity fun row' hrow' => ?_
    exact (hsuspended.2 row' hrow').frame (frame_applyStatus s row reply)
  · cases hs

lemma Consistent.createReply (h : Consistent config start s) {reply : Except AgentError Unit}
    (hs : s.createReply reply = some s') : Consistent config start s' := by
  simp only [Service.createReply] at hs
  split at hs
  · rename_i row capacity call hpc
    cases hs
    have happlied := consistent_applyCreate h row reply
    have hpc' : (s.applyCreate row reply).reconciliation = some (.starting row capacity call) := by
      rw [← hpc]
      cases reply <;> rfl
    have hsuspended := happlied.suspended
    simp only [Suspended, hpc'] at hsuspended
    exact consistent_claimLoop happlied.core hsuspended.2
  · cases hs

theorem Consistent.step {a : Action} (h : Consistent config start s)
    (hs : step config capabilities s a = some s') : Consistent config start s' := by
  cases a with
  | clock now =>
    cases hs
    exact h.keep rfl rfl rfl rfl rfl rfl
  | create wallet ipHash storage id volumeId =>
    simp only [Service.step] at hs
    split at hs
    · rename_i hfresh
      cases hs
      exact consistent_create h hfresh
    · cases hs
  | stopCurrent wallet =>
    cases hs
    exact consistent_stopCurrent h wallet
  | stopReply operation reply => exact consistent_stopReply h hs
  | stopClear operation =>
    simp only [Service.step, stopClear] at hs
    split at hs
    · cases hs
    · split at hs
      · cases hs
        exact h.keep rfl rfl rfl rfl rfl rfl
      · cases hs
  | stopCurrentResume operation =>
    have hresumed : Consistent config start { s with stopCallers := s.stopCallers.erase operation } :=
      h.keep rfl rfl rfl rfl rfl rfl
    simp only [Service.step, stopCurrentResume] at hs
    split at hs
    · split at hs
      · cases hs
        exact consistent_reconcile hresumed
      · cases hs
        exact hresumed
      · cases hs
    · cases hs
  | reconcile =>
    cases hs
    exact consistent_reconcile h
  | reconcileStopped => exact h.reconcileStopped hs
  | statusReply reply => exact h.statusReply hs
  | createReply reply => exact h.createReply hs
  | reconcileClear =>
    simp only [Service.step, reconcileClear] at hs
    split at hs
    · cases hs
      exact ⟨h.core.setReconciliation _, trivial, h.capacity⟩
    · cases hs
  | destroyPersistentVolume wallet =>
    cases hs
    exact h.destroyPersistentVolume wallet
  | destroyReply index reply => exact h.destroyReply hs
  | maintenance =>
    cases hs
    exact h.maintenance

/-- The invariant relative to the present state. -/
lemma Consistent.rebase (h : Consistent config start s) : Consistent config s s :=
  ⟨⟨.refl s, h.core.ids_nodup, h.core.ids_drawn, h.core.claims_eq, h.core.claims_nodup,
    h.core.sent_begun, h.core.operations⟩, h.suspended, h.capacity⟩

lemma Consistent.advance_step {a : Action} (h : Consistent config start s)
    (hs : Service.step config capabilities s a = some s') : Advance s s' :=
  (h.rebase.step hs).core.advance

lemma consistent_initial : Consistent config .initial .initial := by
  refine ⟨⟨.refl _, List.nodup_nil, ?_, rfl, List.nodup_nil, ?_, ?_⟩, trivial, Nat.zero_le _⟩
  · intro r hr
    cases hr
  · intro q hq
    cases hq
  · intro op hop
    cases hop

theorem consistent_of_reachable {allowed : Service → Action → Prop}
    (h : Reachable config capabilities allowed s) : Consistent config .initial s :=
  Transition.Leads.invariant (Consistent config .initial) h consistent_initial
    fun _ _ _ ht _ hs => ht.step hs

/-! ### The bound -/

/-- At every point of every run at most `maxRunning` workspaces are claimed, and `agent.create` is
sent at most once for each workspace. -/
theorem claimed_le_maxRunning {allowed : Service → Action → Prop}
    (h : Reachable config capabilities allowed s) :
    s.claimedCount ≤ config.maxRunning ∧ s.createIds.Nodup := by
  have hs := consistent_of_reachable h
  refine ⟨hs.capacity, ?_⟩
  rw [hs.core.claims_eq]
  exact hs.core.claims_nodup

theorem claimed_le_maxRunning_first_create :
    ∃ s, Transition.exec (step .default none) .initial
        [.create "0xAb" "network" none "w1" "v1"] = some s ∧ s.claimedCount = 1 ∧
      s.claimedCount ≤ Config.default.maxRunning ∧ s.createIds.Nodup := by
  have hrun : ∃ s, Transition.exec (step .default none) .initial
      [.create "0xAb" "network" none "w1" "v1"] = some s ∧ s.claimedCount = 1 :=
    ⟨_, rfl, by decide⟩
  obtain ⟨s, hs, hcount⟩ := hrun
  exact ⟨s, hs, hcount, claimed_le_maxRunning (Transition.leads_of_exec hs)⟩

end Service

end Bloom
