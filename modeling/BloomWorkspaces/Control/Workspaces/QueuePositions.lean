import BloomWorkspaces.Control.Workspaces.Capacity
import BloomWorkspaces.Library.LeastFirst

/-!
# Positions in the queue

`publicWorkspace` counts the queued rows that are older, and the claim loop takes the queued rows whose
lease has not expired, the oldest first. The two agree as long as no two rows were created in the same
millisecond and no row that has expired waits in front of one that has not.
-/

namespace Bloom

namespace Service

open LeastFirst

variable {config : Config} {capabilities : Option WorkspaceDataCapabilities} {s s' : Service}
  {row row' : WorkspaceRow}

/-- The rows that wait to be claimed. -/
def queue (s : Service) : List WorkspaceRow := s.db.workspaces.filter (·.state = .queued)

/-- The queued rows that the loop does not pass over. -/
def claimable (s : Service) : List WorkspaceRow := s.queue.filter (s.now < ·.leaseExpiresAt)

@[simp] lemma mem_queue : row ∈ s.queue ↔ row ∈ s.db.workspaces ∧ row.state = .queued := by
  simp [queue]

@[simp] lemma mem_claimable : row ∈ s.claimable ↔ row ∈ s.queue ∧ s.now < row.leaseExpiresAt := by
  simp [claimable]

lemma nextQueued_eq (s : Service) : s.nextQueued = s.claimable.argmin WorkspaceRow.createdAt := by
  rw [nextQueued, claimable, queue, List.filter_filter]
  congr 2
  funext r
  rw [Bool.decide_and, Bool.and_comm]

lemma nodup_claimable (hids : (s.db.workspaces.map (·.id)).Nodup) : s.claimable.Nodup :=
  ((List.Nodup.of_map _ hids).filter _).filter _

lemma length_claimable_le (s : Service) : s.claimable.length ≤ s.queue.length := List.length_filter_le _ _

/-! ### The order of the claim loop -/

/-- The rows that the claim loop takes when it has room for `capacity` of them. -/
def claimOrder : ℕ → Service → List WorkspaceRow
  | 0, _ => []
  | capacity + 1, s =>
    match s.nextQueued with
    | none => []
    | some row => row :: claimOrder capacity (s.claim row)

/-- How many rows the loop takes before `row`, when it has room for all. -/
def takenBefore (s : Service) (row : WorkspaceRow) : ℕ := (claimOrder s.queue.length s).idxOf row

lemma queue_claim (s : Service) (row : WorkspaceRow) :
    (s.claim row).queue = s.queue.filter (·.id ≠ row.id) := by
  have hleave : (s.claim row).queue = s.queue.filter fun r => !isQueued row.id r :=
    Table.filter_updateWhere_leave _ fun r _ => rfl
  rw [hleave]
  refine List.filter_congr fun r hr => ?_
  simp [isQueued, (mem_queue.mp hr).2]

lemma ids_claim (s : Service) (row : WorkspaceRow) :
    (s.claim row).db.workspaces.map (·.id) = s.db.workspaces.map (·.id) :=
  (claim_frame (fun _ => False) s row).rows.ids_eq

/-- The rows that are left to the loop. -/
lemma claimable_claim (hids : (s.db.workspaces.map (·.id)).Nodup) (hrow : row ∈ s.claimable) :
    (s.claim row).claimable = s.claimable.erase row := by
  rw [(nodup_claimable hids).erase_eq_filter, claimable, claimable, queue_claim, List.filter_filter,
    List.filter_filter]
  refine List.filter_congr fun r hr => ?_
  have hsame : r.id = row.id ↔ r = row := by
    refine ⟨fun hid => ?_, fun h => h ▸ rfl⟩
    exact Table.eq_of_key_eq hids (mem_queue.mp hr).1 (mem_queue.mp (mem_claimable.mp hrow).1).1 hid
  rw [Bool.and_comm]
  simp only [ne_eq, hsame, decide_not, bne, beq_eq_decide]
  rfl

lemma claimOrder_eq (capacity : ℕ) (hids : (s.db.workspaces.map (·.id)).Nodup) :
    claimOrder capacity s = leastFirst WorkspaceRow.createdAt capacity s.claimable := by
  induction capacity generalizing s with
  | zero => rfl
  | succ capacity ih =>
    rw [claimOrder, leastFirst, nextQueued_eq]
    cases hnext : s.claimable.argmin WorkspaceRow.createdAt with
    | none => rfl
    | some row =>
      have hrest : (s.claim row).claimable = s.claimable.erase row :=
        claimable_claim hids (List.argmin_mem hnext)
      simp only [ih ((ids_claim s row).symm ▸ hids), hrest]

/-! ### The loop and its order -/

/-- A reply to `agent.create`, which nobody waits for once the loop has ended. -/
def answered (s : Service) (reply : Except AgentError Unit) : Service := (s.createReply reply).getD s

lemma claimLoop_none (capacity : ℕ) (hnext : s.nextQueued = none) :
    claimLoop capacity s = { s with reconciliation := some .finished } := by
  cases capacity with
  | zero => rfl
  | succ capacity => simp only [claimLoop, hnext]

/-- The loop has claimed `row` and waits for its `agent.create`. -/
def starting (s : Service) (row : WorkspaceRow) (capacity : ℕ) : Service :=
  { s.claim row with reconciliation := some (.starting row capacity s.sent.length) }

lemma claimLoop_some {capacity : ℕ} (hids : (s.db.workspaces.map (·.id)).Nodup)
    (hnext : s.nextQueued = some row) : claimLoop (capacity + 1) s = s.starting row capacity := by
  obtain ⟨hrow, hqueued⟩ := nextQueued_some hnext
  have hle : s.db.count (isQueued row.id) ≤ 1 :=
    Table.countP_key_le_one hids row.id fun r _ hr => (isQueued_iff.mp hr).1
  have hpos : 0 < s.db.count (isQueued row.id) :=
    List.countP_pos_iff.mpr ⟨row, hrow, isQueued_iff.mpr ⟨rfl, hqueued⟩⟩
  have hone : s.db.count (isQueued row.id) = 1 := le_antisymm hle hpos
  simp only [claimLoop, hnext, hone, ne_eq, not_true_eq_false, if_false]
  rfl

lemma foldl_answered_finished (replies : List (Except AgentError Unit)) :
    replies.foldl answered { s with reconciliation := some .finished } =
      { s with reconciliation := some .finished } := by
  induction replies with
  | nil => rfl
  | cons reply replies ih => exact ih

lemma queue_applyCreate (s : Service) (row : WorkspaceRow) (reply : Except AgentError Unit) :
    (s.applyCreate row reply).queue = s.queue := by
  cases reply with
  | error error => rfl
  | ok =>
    have hleave : (s.applyCreate row (.ok ())).queue = s.queue.filter fun r => !isProvisioning row.id r :=
      Table.filter_updateWhere_leave _ fun r _ => rfl
    rw [hleave]
    refine List.filter_eq_self.mpr fun r hr => ?_
    simp [isProvisioning, (mem_queue.mp hr).2]

lemma claimOrder_congr (capacity : ℕ) (hids : (s.db.workspaces.map (·.id)).Nodup)
    (hids' : (s'.db.workspaces.map (·.id)).Nodup) (h : s'.claimable = s.claimable) :
    claimOrder capacity s' = claimOrder capacity s := by
  rw [claimOrder_eq capacity hids', claimOrder_eq capacity hids, h]

/-- The answer to one `agent.create` does not change which rows the loop takes next. -/
lemma claimOrder_applyCreate (capacity : ℕ) (hids : (s.db.workspaces.map (·.id)).Nodup)
    (row : WorkspaceRow) (reply : Except AgentError Unit) :
    claimOrder capacity (s.applyCreate row reply) = claimOrder capacity s := by
  have hframe : Frame (fun _ => False) s (s.applyCreate row reply) := frame_applyCreate s row reply
  refine claimOrder_congr capacity hids (hframe.rows.ids_eq.symm ▸ hids) ?_
  rw [claimable, claimable, queue_applyCreate, hframe.now]

/-- Whatever the node agent answers, the loop claims the rows in the order stated. -/
theorem claims_foldl_answered {capacity : ℕ} {replies : List (Except AgentError Unit)}
    (hids : (s.db.workspaces.map (·.id)).Nodup) (hreplies : capacity ≤ replies.length) :
    (replies.foldl answered (claimLoop capacity s)).claims =
      s.claims ++ (claimOrder capacity s).map (·.id) := by
  induction capacity generalizing s replies with
  | zero =>
    rw [claimLoop, foldl_answered_finished]
    exact (List.append_nil _).symm
  | succ capacity ih =>
    cases hnext : s.nextQueued with
    | none =>
      rw [claimLoop_none _ hnext, foldl_answered_finished, claimOrder, hnext]
      exact (List.append_nil _).symm
    | some row =>
      cases replies with
      | nil => cases hreplies
      | cons reply replies =>
        have hstarting : ((s.starting row capacity).db.workspaces.map (·.id)).Nodup :=
          (ids_claim s row).symm ▸ hids
        have hframe : Frame (fun _ => False) (s.starting row capacity)
            ((s.starting row capacity).applyCreate row reply) := frame_applyCreate _ row reply
        have hanswered : (s.starting row capacity).answered reply =
            claimLoop capacity ((s.starting row capacity).applyCreate row reply) := rfl
        have hclaims : ((s.starting row capacity).applyCreate row reply).claims = s.claims ++ [row.id] := by
          cases reply <;> rfl
        have horder : claimOrder capacity (s.starting row capacity) = claimOrder capacity (s.claim row) :=
          claimOrder_congr capacity hstarting hstarting rfl
        rw [claimLoop_some hids hnext, List.foldl_cons, hanswered,
          ih (hframe.rows.ids_eq.symm ▸ hstarting) (Nat.le_of_succ_le_succ hreplies), hclaims,
          claimOrder_applyCreate capacity hstarting, horder, claimOrder, hnext, List.append_assoc]
        rfl

/-! ### Reports -/

/-- How many queued rows are older than `row`. -/
def older (s : Service) (row : WorkspaceRow) : ℕ := countBefore WorkspaceRow.createdAt row s.queue

lemma queuePosition_eq (hrow : row ∈ s.queue) :
    (s.publicWorkspace row).queuePosition = some (1 + s.older row) := by
  have hcount : s.older row =
      s.db.count fun r => r.state = .queued ∧ r.createdAt < row.createdAt := by
    rw [older, countBefore, queue, List.countP_filter]
    refine List.countP_congr fun r _ => ?_
    simp [and_comm]
  rw [publicWorkspace, if_pos (mem_queue.mp hrow).2, hcount]

/-- The report of the position is the place in the order of the claim loop, and no two queued
workspaces have the same. -/
structure ReportsOrder (s : Service) : Prop where
  position : ∀ row ∈ s.queue, s.now < row.leaseExpiresAt →
    (s.publicWorkspace row).queuePosition = some (1 + s.takenBefore row)
  apart : ∀ row ∈ s.queue, ∀ row' ∈ s.queue,
    (s.publicWorkspace row).queuePosition = (s.publicWorkspace row').queuePosition → row = row'

/-- No two queued rows were created in the same millisecond, and the older of two expires first only
together with the younger. -/
structure InOrder (s : Service) : Prop where
  apart : ∀ row ∈ s.queue, ∀ row' ∈ s.queue, row.createdAt = row'.createdAt → row = row'
  live : ∀ row ∈ s.queue, ∀ row' ∈ s.queue, row.createdAt < row'.createdAt →
    s.now < row'.leaseExpiresAt → s.now < row.leaseExpiresAt

lemma takenBefore_eq (hids : (s.db.workspaces.map (·.id)).Nodup)
    (hapart : ∀ row ∈ s.queue, ∀ row' ∈ s.queue, row.createdAt = row'.createdAt → row = row')
    (hrow : row ∈ s.claimable) :
    s.takenBefore row = countBefore WorkspaceRow.createdAt row s.claimable := by
  rw [takenBefore, claimOrder_eq _ hids]
  refine idxOf_leastFirst (fun r hr r' hr' heq => ?_) (length_claimable_le s) hrow
  exact hapart r (mem_claimable.mp hr).1 r' (mem_claimable.mp hr').1 heq

/-- An older row is nearer to its turn. -/
lemma older_lt_older (hrow : row ∈ s.queue) (h : row.createdAt < row'.createdAt) :
    s.older row < s.older row' := by
  refine Table.countP_lt_countP (fun r _ hr => ?_) hrow ?_ ?_
  · simp only [decide_eq_true_eq] at hr ⊢
    exact hr.trans h
  · simp
  · simpa using h

/-- The report counts the rows that the loop takes first, or one that the loop passes over. -/
lemma older_eq_iff : s.older row = countBefore WorkspaceRow.createdAt row s.claimable ↔
    ∀ r ∈ s.queue, r.createdAt < row.createdAt → s.now < r.leaseExpiresAt := by
  have hclaimable : countBefore WorkspaceRow.createdAt row s.claimable =
      s.queue.countP fun r => decide (r.createdAt < row.createdAt) && decide (s.now < r.leaseExpiresAt) :=
    List.countP_filter
  rw [hclaimable]
  constructor
  · intro heq r hr hlt
    by_contra hexpired
    refine Nat.ne_of_gt (Table.countP_lt_countP (fun x _ hx => ?_) hr ?_ ?_) heq
    · exact (Bool.and_eq_true_iff.mp hx).1
    · simp [hexpired]
    · simpa using hlt
  · intro h
    refine List.countP_congr fun r hr => ?_
    simp only [decide_eq_true_eq, Bool.and_eq_true]
    exact ⟨fun hlt => ⟨hlt, h r hr hlt⟩, And.left⟩

theorem reportsOrder_iff (hids : (s.db.workspaces.map (·.id)).Nodup) : s.ReportsOrder ↔ s.InOrder := by
  constructor
  · intro h
    have hapart : ∀ row ∈ s.queue, ∀ row' ∈ s.queue, row.createdAt = row'.createdAt → row = row' := by
      intro row hrow row' hrow' heq
      refine h.apart row hrow row' hrow' ?_
      rw [queuePosition_eq hrow, queuePosition_eq hrow', older, older, countBefore, countBefore, heq]
    refine ⟨hapart, fun row hrow row' hrow' hlt hlive => ?_⟩
    have hposition := h.position row' hrow' hlive
    rw [queuePosition_eq hrow', takenBefore_eq hids hapart (mem_claimable.mpr ⟨hrow', hlive⟩)] at hposition
    exact older_eq_iff.mp (Nat.add_left_cancel (Option.some_inj.mp hposition)) row hrow hlt
  · intro h
    refine ⟨fun row hrow hlive => ?_, fun row hrow row' hrow' heq => ?_⟩
    · rw [queuePosition_eq hrow, takenBefore_eq hids h.apart (mem_claimable.mpr ⟨hrow, hlive⟩),
        older_eq_iff.mpr fun r hr hlt => h.live r hr row hrow hlt hlive]
    · rw [queuePosition_eq hrow, queuePosition_eq hrow'] at heq
      have hsame : s.older row = s.older row' := Nat.add_left_cancel (Option.some_inj.mp heq)
      refine h.apart row hrow row' hrow' ?_
      rcases Nat.lt_trichotomy row.createdAt row'.createdAt with hlt | heq | hgt
      · exact absurd hsame (Nat.ne_of_lt (older_lt_older hrow hlt))
      · exact heq
      · exact absurd hsame (Nat.ne_of_gt (older_lt_older hrow' hgt))

/-! ### Steps -/

/-- What a step does to the queue: it may move the clock, take rows out of the queue, or put one new row
at its end. -/
inductive QueueStep (config : Config) (s : Service) : Action → Service → Prop
  | clock (now : ℕ) : QueueStep config s (.clock now) { s with now := now }
  | keep {a : Action} {s' : Service} (hnow : s'.now = s.now) (hqueue : s'.queue.Sublist s.queue) :
      QueueStep config s a s'
  | create {wallet ipHash id volumeId : String} {storage : Option StorageMode} {row : WorkspaceRow}
      {s' : Service} (hnow : s'.now = s.now) (hcreated : row.createdAt = s.now)
      (hlease : row.leaseExpiresAt = s.now + config.leaseMs)
      (hqueue : s'.queue.Sublist (s.queue ++ [row]))
      (hlive : s.reconciliation = none → ∀ r ∈ s'.queue, s.now < r.leaseExpiresAt) :
      QueueStep config s (.create wallet ipHash storage id volumeId) s'

lemma RowsMove.queue_sublist {done : String → Prop} {now : ℕ} {t t' : List WorkspaceRow}
    (h : RowsMove done now t t') :
    (t'.filter (·.state = .queued)).Sublist (t.filter (·.state = .queued)) := by
  induction h with
  | nil => exact List.Sublist.refl _
  | @cons r r' t t' hm _ ih =>
    by_cases hr' : r'.state = .queued
    · have hsame : r' = r := Moves.eq_of_queued hm hr'
      subst hsame
      rw [List.filter_cons_of_pos (by simpa using hr'), List.filter_cons_of_pos (by simpa using hr')]
      exact ih.cons_cons r'
    · rw [List.filter_cons_of_neg (by simpa using hr')]
      exact ih.trans (List.Sublist.filter _ (List.sublist_cons_self r t))

lemma Frame.queue_sublist {done : String → Prop} (h : Frame done s s') : s'.queue.Sublist s.queue :=
  RowsMove.queue_sublist h.rows

/-- A reconciliation that begins takes the expired rows out of the queue. -/
lemma live_reconcile (hidle : s.reconciliation = none) (hrow : row ∈ (reconcile config s).queue) :
    s.now < row.leaseExpiresAt := by
  rw [reconcile, hidle, if_neg (by simp), runReconciliation] at hrow
  have hframe : ∀ rows t, Frame (fun _ => False) t (stopLoop config rows t) := frame_stopLoop config
  have hmem := (hframe _ _).queue_sublist.subset hrow
  have hleave : ∀ t : List WorkspaceRow, (Table.updateWhere (isExpired s.now)
      (fun r => { r with state := .stopping }) t).filter (·.state = .queued) =
        (t.filter (·.state = .queued)).filter fun r => !isExpired s.now r := fun t =>
    Table.filter_updateWhere_leave t fun r _ => rfl
  rw [queue, Database.updateWorkspaces_workspaces, hleave, List.mem_filter] at hmem
  obtain ⟨hqueue, hlive⟩ := hmem
  have hqueued : row.state = .queued := (mem_queue.mp hqueue).2
  simpa [isExpired, hqueued, WorkspaceState.isStoppable] using hlive

lemma queue_create {wallet ipHash id volumeId : String} {storage : Option StorageMode}
    {uuids : List String} {result : Except ServiceError PublicWorkspace}
    (h : create config capabilities { s with uuids := uuids } wallet ipHash storage id volumeId =
      (result, s')) :
    QueueStep config s (.create wallet ipHash storage id volumeId) s' := by
  cases result with
  | error error =>
    rw [create_error h]
    exact .keep rfl (List.Sublist.refl _)
  | ok workspace =>
    obtain ⟨-, row, db, hadmitted, rfl⟩ := create_ok h
    obtain ⟨⟨volume, hrow, -⟩, hworkspaces⟩ := hadmitted.volume, hadmitted.workspaces
    generalize hinserted : ({ s with
      uuids := uuids, db := db, admitted := s.admitted ++ [row] } : Service) = inserted
    have hframe : Frame (fun _ => False) inserted (reconcile config inserted) :=
      frame_reconcile config inserted
    have hnow : inserted.now = s.now := hinserted ▸ rfl
    have hidle : inserted.reconciliation = s.reconciliation := hinserted ▸ rfl
    have hqueued : [row].filter (·.state = .queued) = [row] := by
      rw [hrow]
      rfl
    have hadded : inserted.queue = s.queue ++ [row] := by
      rw [← hinserted, queue, hworkspaces, List.filter_append, hqueued, queue]
    refine .create (hframe.now.trans hnow) (hrow ▸ rfl) (hrow ▸ rfl) (hadded ▸ hframe.queue_sublist)
      fun hnone r hr => ?_
    rw [← hnow]
    exact live_reconcile (hidle.trans hnone) hr

theorem queue_step {a : Action} (h : step config capabilities s a = some s') : QueueStep config s a s' := by
  cases a with
  | clock now =>
    cases h
    exact .clock now
  | create wallet ipHash storage id volumeId =>
    simp only [step] at h
    split at h
    · cases h
      exact queue_create (Prod.eta _).symm
    · cases h
  | destroyPersistentVolume wallet =>
    cases h
    rw [destroyPersistentVolume]
    split
    · exact .keep rfl (List.Sublist.refl _)
    · exact .keep rfl (List.Sublist.refl _)
  | destroyReply index reply =>
    simp only [step, destroyReply] at h
    split at h
    · cases h
    · cases reply with
      | ok =>
        cases h
        exact .keep rfl (List.Sublist.refl _)
      | error error =>
        cases h
        exact .keep rfl (List.Sublist.refl _)
  | maintenance =>
    cases h
    exact .keep rfl (List.Sublist.filter _ List.filter_sublist)
  | _ => exact .keep (step_frame h rfl).now (step_frame h rfl).queue_sublist

/-! ### Runs -/

/-- A workspace is created later than all that are queued, none of which has expired unless the same call
reconciles, and the clock does not pass the lease of a queued row while a younger one waits. -/
def keepsOrder (s : Service) : Action → Prop
  | .clock now => ∀ row ∈ s.queue, ∀ row' ∈ s.queue, row.createdAt < row'.createdAt →
    now < row'.leaseExpiresAt → now < row.leaseExpiresAt
  | .create .. => ∀ row ∈ s.queue, row.createdAt < s.now ∧
    (s.reconciliation = none ∨ s.now < row.leaseExpiresAt)
  | _ => True

lemma InOrder.sublist (h : s.InOrder) (hnow : s'.now = s.now) (hqueue : s'.queue.Sublist s.queue) :
    s'.InOrder := by
  refine ⟨fun row hrow row' hrow' => h.apart row (hqueue.subset hrow) row' (hqueue.subset hrow'),
    fun row hrow row' hrow' => ?_⟩
  rw [hnow]
  exact h.live row (hqueue.subset hrow) row' (hqueue.subset hrow')

theorem InOrder.step {a : Action} (h : s.InOrder) (hallowed : s.keepsOrder a)
    (hstep : Service.step config capabilities s a = some s') : s'.InOrder := by
  cases queue_step hstep with
  | clock now => exact ⟨h.apart, hallowed⟩
  | keep hnow hqueue => exact h.sublist hnow hqueue
  | @create wallet ipHash id volumeId storage new _ hnow hcreated hlease hqueue hlive =>
    have horigin : ∀ row ∈ s'.queue, row ∈ s.queue ∨ row = new := fun row hrow => by
      simpa using hqueue.subset hrow
    refine ⟨fun row hrow row' hrow' heq => ?_, fun row hrow row' hrow' hlt hlive' => ?_⟩
    · rcases horigin row hrow, horigin row' hrow' with ⟨hold | rfl, hold' | rfl⟩
      · exact h.apart row hold row' hold' heq
      · have := (hallowed row hold).1
        omega
      · have := (hallowed row' hold').1
        omega
      · rfl
    · rw [hnow]
      rcases horigin row hrow, horigin row' hrow' with ⟨hold | rfl, hold' | rfl⟩
      · rw [hnow] at hlive'
        exact h.live row hold row' hold' hlt hlive'
      · rcases (hallowed row hold).2 with hnone | hunexpired
        · exact hlive hnone row hrow
        · exact hunexpired
      · have := (hallowed row' hold').1
        omega
      · omega

lemma inOrder_initial : Service.initial.InOrder := by
  refine ⟨fun row hrow => ?_, fun row hrow => ?_⟩
  · cases hrow
  · cases hrow

theorem inOrder_of_reachable (h : Reachable config capabilities keepsOrder s) : s.InOrder :=
  Transition.Leads.invariant InOrder h inOrder_initial fun _ _ _ ht ha hs => ht.step ha hs

/-- A row that is older than every row that is created after it does not fall back. -/
lemma older_step {a : Action} (hrow : row ∈ s.queue) (hallowed : s.keepsOrder a)
    (hstep : Service.step config capabilities s a = some s') : s'.older row ≤ s.older row := by
  cases queue_step hstep with
  | clock now => exact Nat.le_refl _
  | keep hnow hqueue => exact hqueue.countP_le
  | create hnow hcreated hlease hqueue hlive =>
    have hyoung := (hallowed row hrow).1
    refine hqueue.countP_le.trans ?_
    rw [List.countP_append, List.countP_singleton, if_neg (by simp; omega)]
    exact Nat.le_refl _

/-- While a row stays queued its position does not grow. -/
def PositionsFall (config : Config) (capabilities : Option WorkspaceDataCapabilities)
    (allowed : Service → Action → Prop) (s : Service) : Prop :=
  ∀ row ∈ s.queue, ∀ t,
    Transition.Leads (step config capabilities) (fun u a => allowed u a ∧ row ∈ u.queue) s t →
    row ∈ t.queue → ∃ before after, (s.publicWorkspace row).queuePosition = some before ∧
      (t.publicWorkspace row).queuePosition = some after ∧ after ≤ before

lemma positionsFall (s : Service) : PositionsFall config capabilities keepsOrder s := by
  intro row hrow t hrun hwaits
  have holder : t.older row ≤ s.older row :=
    Transition.Leads.invariant (fun u => u.older row ≤ s.older row) hrun (Nat.le_refl _)
      fun _ _ _ hu ha hs => (older_step ha.2 ha.1 hs).trans hu
  exact ⟨1 + s.older row, 1 + t.older row, queuePosition_eq hrow, queuePosition_eq hwaits,
    Nat.add_le_add_left holder 1⟩

/-- A reachable table reports the order of the claim loop exactly when its queue is in order, which it is
throughout every run that keeps it so. -/
theorem reportsOrder_of_keepsOrder (config : Config) (capabilities : Option WorkspaceDataCapabilities)
    (s : Service) :
    (Reachable config capabilities Transition.anyStep s → (s.ReportsOrder ↔ s.InOrder)) ∧
      (Reachable config capabilities keepsOrder s →
        s.ReportsOrder ∧ PositionsFall config capabilities keepsOrder s) := by
  refine ⟨fun h => reportsOrder_iff (consistent_of_reachable h).core.ids_nodup, fun h => ?_⟩
  exact ⟨(reportsOrder_iff (consistent_of_reachable h).core.ids_nodup).mpr (inOrder_of_reachable h),
    positionsFall s⟩

instance (s : Service) (a : Action) : Decidable (s.keepsOrder a) :=
  match a with
  | .clock now => inferInstanceAs (Decidable (∀ row ∈ s.queue, ∀ row' ∈ s.queue,
      row.createdAt < row'.createdAt → now < row'.leaseExpiresAt → now < row.leaseExpiresAt))
  | .create .. => inferInstanceAs (Decidable (∀ row ∈ s.queue, row.createdAt < s.now ∧
      (s.reconciliation = none ∨ s.now < row.leaseExpiresAt)))
  | .stopCurrent _ | .stopReply .. | .stopClear _ | .stopCurrentResume _ | .reconcile
  | .reconcileStopped | .statusReply _ | .createReply _ | .reconcileClear
  | .destroyPersistentVolume _ | .destroyReply .. | .maintenance => inferInstanceAs (Decidable True)

/-- Three workspaces are requested, one in each millisecond, while the first is being started. -/
def threeRequests : List Action :=
  [.create "0xa1" "net-1" none "w1" "v1", .clock 1, .create "0xa2" "net-2" none "w2" "v2", .clock 2,
    .create "0xa3" "net-3" none "w3" "v3"]

theorem reportsOrder_of_keepsOrder_three :
    ∃ s, Transition.exec (step .default none) .initial threeRequests = some s ∧
      s.queue.map (fun row => (s.publicWorkspace row).queuePosition) = [some 1, some 2] ∧
      s.ReportsOrder ∧ PositionsFall .default none keepsOrder s := by
  have hrun : ∃ s, Transition.exec
      (Transition.guard (step .default none) fun s a => decide (s.keepsOrder a)) .initial
      threeRequests = some s ∧
      Transition.exec (step .default none) .initial threeRequests = some s ∧
      s.queue.map (fun row => (s.publicWorkspace row).queuePosition) = [some 1, some 2] :=
    ⟨_, rfl, rfl, by decide⟩
  obtain ⟨s, hguarded, hs, hpositions⟩ := hrun
  have hreachable : Reachable .default none keepsOrder s :=
    (Transition.leads_of_exec_guard hguarded).mono fun _ _ => of_decide_eq_true
  exact ⟨s, hs, hpositions, (reportsOrder_of_keepsOrder .default none s).2 hreachable⟩

/-- When the lease of the older of two queued workspaces ends, the younger one is next and is reported as
the second. -/
theorem not_reportsOrder :
    ¬∀ (config : Config) (capabilities : Option WorkspaceDataCapabilities) (s : Service),
      Reachable config capabilities Transition.anyStep s →
      s.ReportsOrder ∧ PositionsFall config capabilities Transition.anyStep s := by
  intro h
  have hrun : ∃ s, Transition.exec (step .default none) .initial
      (threeRequests ++ [.clock 1800001]) = some s ∧ ∃ row ∈ s.queue, s.now < row.leaseExpiresAt ∧
      (s.publicWorkspace row).queuePosition = some 2 ∧ s.takenBefore row = 0 := ⟨_, rfl, by decide⟩
  obtain ⟨s, hs, row, hrow, hlive, hreported, htaken⟩ := hrun
  have hposition := (h .default none s (Transition.leads_of_exec hs)).1.position row hrow hlive
  rw [hreported, htaken] at hposition
  exact absurd hposition (by decide)

end Service

end Bloom
