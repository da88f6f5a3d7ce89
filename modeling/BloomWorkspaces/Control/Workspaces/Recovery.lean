import BloomWorkspaces.Control.Workspaces.Restart

/-!
# Recovery

`startControlPlane` awaits `recover` before it listens, so nothing but the answers of the node agent
comes between its steps. Each answer is used once: `recover` ends after boundedly many of them, and then
every row that may be running is one that the agent accounts for.
-/

namespace Bloom

namespace Service

variable {config : Config} {capabilities : Option WorkspaceDataCapabilities} {s s' : Service}

/-- What the node agent answers while one `recover` is awaited: it is asked at most once to stop a
workspace, for its status and to create it. -/
structure AgentAnswers where
  stop : String → Except AgentError Unit
  status : String → Except AgentError RuntimeState
  create : String → Except AgentError Unit

variable {answers : AgentAnswers}

/-- The steps that are possible before `startControlPlane` listens. -/
def Recovers (answers : AgentAnswers) (s : Service) : Action → Prop
  | .clock now => s.now ≤ now
  | .stopReply operation reply =>
    ∃ op, s.operations[operation]? = some op ∧ reply = answers.stop op.row.id
  | .statusReply reply => ∃ row rest call,
    s.reconciliation = some (.checking row rest call) ∧ reply = answers.status row.id
  | .createReply reply => ∃ row capacity call,
    s.reconciliation = some (.starting row capacity call) ∧ reply = answers.create row.id
  | .stopClear _ | .reconcileStopped | .reconcileClear => True
  | .create .. | .stopCurrent _ | .stopCurrentResume _ | .reconcile | .destroyPersistentVolume _
  | .destroyReply .. | .maintenance => False

/-- The steps that `recover` waits for. -/
def isAwaited : Action → Bool
  | .clock _ | .stopClear _ => false
  | _ => true

/-- What the answers have to be for a row to be as it is. -/
def Accounted (answers : AgentAnswers) (r : WorkspaceRow) : Prop :=
  match r.state with
  | .stopping => ∃ e, answers.stop r.id = .error e
  | .provisioning => (∃ e, answers.status r.id = .error e) ∨ ∃ e, answers.create r.id = .error e
  | .running => answers.status r.id = .ok .running ∨ (∃ e, answers.status r.id = .error e) ∨
    answers.create r.id = .ok ()
  | .queued | .stopped | .failed => True

/-- The row is about to be asked for. -/
def Pending (s : Service) (r : WorkspaceRow) : Prop :=
  match s.reconciliation with
  | none | some .finished => False
  | some (.starting row _ _) => r.id = row.id
  | some (.checking row rest _) => r.id ∈ (row :: rest).map (·.id)
  | some (.stopping operation rest) =>
    (∃ op, s.operations[operation]? = some op ∧ op.outcome = none ∧ op.row.id = r.id) ∨
      r.id ∈ rest.map (·.id) ∨ r.state.isStarted = true

/-- Nothing is left to claim, or no capacity. -/
def Full (config : Config) (s : Service) : Prop :=
  s.nextQueued = none ∨ config.maxRunning ≤ s.db.count (·.state.takesCapacity)

/-- The copies that the suspended reconciliation holds are those of the table. -/
def Snapshots (config : Config) (s : Service) : Prop :=
  match s.reconciliation with
  | none | some .finished => Full config s
  | some (.starting row capacity _) =>
    (∃ r ∈ s.db.workspaces, r.id = row.id ∧ r.state = .provisioning) ∧
      config.maxRunning ≤ s.db.count (·.state.takesCapacity) + capacity
  | some (.checking row rest _) =>
    (∀ x ∈ row :: rest, x ∈ s.db.workspaces ∧ x.state.isStarted = true) ∧
      ((row :: rest).map (·.id)).Nodup
  | some (.stopping operation rest) =>
    (s.operations[operation]?).isSome = true ∧ (rest.map (·.id)).Nodup ∧
      ∀ x ∈ s.stopOperations, x.1 ∉ rest.map (·.id)

/-- The invariant of one `recover`. -/
structure Recovering (config : Config) (answers : AgentAnswers) (s : Service) : Prop where
  accounted : ∀ r ∈ s.db.workspaces, s.Pending r ∨ Accounted answers r
  snapshots : Snapshots config s
  unsettled : ∀ (i : ℕ) (op : StopOperation), s.operations[i]? = some op → op.outcome = none →
    ∃ rest, s.reconciliation = some (.stopping i rest)

/-- A bound on the awaited steps that are left. -/
def work (config : Config) (s : Service) : ℕ :=
  match s.reconciliation with
  | none => 0
  | some .finished => 1
  | some (.starting _ capacity _) => capacity + 2
  | some (.checking _ rest _) => rest.length + config.maxRunning + 3
  | some (.stopping operation rest) =>
    2 * rest.length + s.db.workspaces.length + config.maxRunning + 3 +
      if ∃ op, s.operations[operation]? = some op ∧ op.outcome.isNone then 2 else 1

/-! ### The loops -/

lemma Core.claimLoop_finished {start : Service} (h : Core start s) {capacity : ℕ}
    (heq : claimLoop capacity s = { s with reconciliation := some .finished }) :
    capacity = 0 ∨ s.nextQueued = none := by
  cases capacity with
  | zero => exact .inl rfl
  | succ capacity =>
    cases hnext : s.nextQueued with
    | none => exact .inr rfl
    | some row =>
      obtain ⟨hrow, hqueued⟩ := nextQueued_some hnext
      have hcount := h.count_isQueued hrow hqueued
      simp only [claimLoop, hnext, hcount, ne_eq, not_true_eq_false, if_false] at heq
      have hpc := congrArg Service.reconciliation heq
      cases hpc

/-- A claim takes capacity. -/
lemma count_claim {row : WorkspaceRow} (hrow : row ∈ s.db.workspaces) (hqueued : row.state = .queued) :
    s.db.count (·.state.takesCapacity) < (s.claim row).db.count (·.state.takesCapacity) := by
  rw [claim, Database.count, Database.count, Database.updateWorkspaces_workspaces, Table.updateWhere,
    List.countP_map]
  refine Table.countP_lt_countP (fun r _ hr => ?_) hrow (by simp [hqueued, WorkspaceState.takesCapacity]) ?_
  · by_cases hq : isQueued row.id r = true
    · rw [Function.comp_apply, if_pos hq]
      rfl
    · rw [Function.comp_apply, if_neg hq]
      exact hr
  · rw [Function.comp_apply, if_pos (isQueued_iff.mpr ⟨rfl, hqueued⟩)]
    rfl

section Loops

variable {start : Service}

lemma recovering_claimLoop (config : Config) (answers : AgentAnswers) (h : Core start s) {capacity : ℕ}
    (hroom : config.maxRunning ≤ s.db.count (·.state.takesCapacity) + capacity)
    (haccounted : ∀ r ∈ s.db.workspaces, Accounted answers r)
    (hsettled : ∀ op ∈ s.operations, op.outcome ≠ none) :
    Recovering config answers (claimLoop capacity s) ∧ (claimLoop capacity s).work config ≤ capacity + 1 := by
  have hunsettled : ∀ pc, ∀ (i : ℕ) (op : StopOperation), s.operations[i]? = some op → op.outcome = none →
      ∃ rest, pc = some (Reconciliation.stopping i rest) := fun pc i op hop hnone =>
    absurd hnone (hsettled op (List.mem_of_getElem? hop))
  rcases h.claimLoop_cases capacity with heq | ⟨row, rest, hrow, hqueued, hrest, heq⟩
  · have hfull := h.claimLoop_finished heq
    rw [heq]
    refine ⟨⟨fun r hr => .inr (haccounted r hr), ?_, hunsettled _⟩, Nat.le_add_left 1 capacity⟩
    rcases hfull with rfl | hnone
    · exact .inr hroom
    · exact .inl hnone
  · have hclaimed := count_claim hrow hqueued
    rw [heq]
    refine ⟨⟨fun r' hr' => ?_, ⟨?_, ?_⟩, hunsettled _⟩, ?_⟩
    · obtain ⟨r, hr, rfl⟩ := Table.mem_updateWhere.mp hr'
      by_cases hq : isQueued row.id r = true
      · rw [if_pos hq]
        exact .inl (isQueued_iff.mp hq).1
      · rw [if_neg hq]
        exact .inr (haccounted r hr)
    · have hq : isQueued row.id row = true := isQueued_iff.mpr ⟨rfl, hqueued⟩
      exact ⟨_, Table.mem_updateWhere.mpr ⟨row, hrow, (if_pos hq).symm⟩, rfl, rfl⟩
    · show config.maxRunning ≤ (s.claim row).db.count (·.state.takesCapacity) + rest
      omega
    · show rest + 2 ≤ capacity + 1
      omega

lemma recovering_checkLoop (config : Config) (answers : AgentAnswers) (h : Core start s)
    (rows : List WorkspaceRow)
    (hrows : ∀ x ∈ rows, x ∈ s.db.workspaces ∧ x.state.isStarted = true) (hnd : (rows.map (·.id)).Nodup)
    (haccounted : ∀ r ∈ s.db.workspaces, r.id ∈ rows.map (·.id) ∨ Accounted answers r)
    (hsettled : ∀ op ∈ s.operations, op.outcome ≠ none) :
    Recovering config answers (checkLoop config rows s) ∧
      (checkLoop config rows s).work config ≤ rows.length + config.maxRunning + 2 := by
  cases rows with
  | nil =>
    have hroom : config.maxRunning ≤ s.db.count (·.state.takesCapacity) +
        (config.maxRunning - s.db.count (·.state.takesCapacity)) := by omega
    obtain ⟨hrecovering, hwork⟩ := recovering_claimLoop config answers h hroom
      (fun r hr => (haccounted r hr).resolve_left (by simp)) hsettled
    refine ⟨hrecovering, hwork.trans ?_⟩
    simp only [List.length_nil]
    omega
  | cons row rest =>
    refine ⟨⟨haccounted, ⟨hrows, hnd⟩, fun i op hop hnone => ?_⟩, ?_⟩
    · exact absurd hnone (hsettled op (List.mem_of_getElem? hop))
    · simp only [checkLoop, work, List.length_cons]
      omega

lemma lookup_eq_none {row : WorkspaceRow} (h : ∀ x ∈ s.stopOperations, x.1 ≠ row.id) :
    s.stopOperations.lookup row.id = none := by
  rw [List.lookup_eq_none_iff]
  intro x hx
  simpa using (h x hx).symm

lemma recovering_stopLoop (config : Config) (answers : AgentAnswers) (h : Core start s) {rows : List WorkspaceRow} (hnd : (rows.map (·.id)).Nodup)
    (hjoin : ∀ x ∈ s.stopOperations, x.1 ∉ rows.map (·.id))
    (haccounted : ∀ r ∈ s.db.workspaces, r.id ∈ rows.map (·.id) ∨ r.state.isStarted = true ∨
      Accounted answers r)
    (hsettled : ∀ op ∈ s.operations, op.outcome ≠ none) :
    Recovering config answers (stopLoop config rows s) ∧
      (stopLoop config rows s).work config ≤
        2 * rows.length + s.db.workspaces.length + config.maxRunning + 3 := by
  cases rows with
  | nil =>
    have hstarted : ∀ x ∈ s.db.workspaces.filter (·.state.isStarted),
        x ∈ s.db.workspaces ∧ x.state.isStarted = true := fun x hx => List.mem_filter.mp hx
    have hnd' : ((s.db.workspaces.filter (·.state.isStarted)).map (·.id)).Nodup :=
      h.ids_nodup.sublist (List.filter_sublist.map _)
    obtain ⟨hrecovering, hwork⟩ := recovering_checkLoop config answers h _ hstarted
      hnd' (fun r hr => by
        rcases haccounted r hr with hnil | hstate | hacc
        · cases hnil
        · exact .inl (List.mem_map_of_mem (List.mem_filter.mpr ⟨hr, hstate⟩))
        · exact .inr hacc) hsettled
    have hlength := List.length_filter_le (fun r : WorkspaceRow => r.state.isStarted) s.db.workspaces
    refine ⟨hrecovering, hwork.trans ?_⟩
    omega
  | cons row rest =>
    rw [List.map_cons, List.nodup_cons] at hnd
    have hlookup : s.stopOperations.lookup row.id = none :=
      lookup_eq_none fun x hx heq => hjoin x hx (heq ▸ List.mem_cons_self)
    have hlast : (s.operations ++ [(⟨row, if row.leaseExpiresAt ≤ s.now then "lease_expired" else "retry",
        s.sent.length, none⟩ : StopOperation)])[s.operations.length]? = some ⟨row,
          if row.leaseExpiresAt ≤ s.now then "lease_expired" else "retry", s.sent.length, none⟩ :=
      List.getElem?_concat_length
    have hstop : stopLoop config (row :: rest) s = { s.send (.stop row.id) with
        operations := s.operations ++ [⟨row, if row.leaseExpiresAt ≤ s.now then "lease_expired" else "retry",
          s.sent.length, none⟩]
        stopOperations := (row.id, s.operations.length) :: s.stopOperations
        reconciliation := some (.stopping s.operations.length rest) } := by
      simp only [stopLoop, stopWorkspace, hlookup]
    rw [hstop]
    refine ⟨⟨fun r hr => ?_, ⟨?_, hnd.2, fun x hx => ?_⟩, fun i op hop hnone => ?_⟩, ?_⟩
    · rcases haccounted r hr with hmem | hstate | hacc
      · rcases List.mem_cons.mp hmem with heq | hlater
        · exact .inl (.inl ⟨_, hlast, rfl, heq.symm⟩)
        · exact .inl (.inr (.inl hlater))
      · exact .inl (.inr (.inr hstate))
      · exact .inr hacc
    · exact Option.isSome_iff_exists.mpr ⟨_, hlast⟩
    · rcases List.mem_cons.mp hx with rfl | hold
      · exact hnd.1
      · exact fun hmem => hjoin x hold (List.mem_cons_of_mem _ hmem)
    · rcases Table.getElem?_concat_cases hop with hold | ⟨rfl, -⟩
      · exact absurd hnone (hsettled op (List.mem_of_getElem? hold))
      · exact ⟨rest, rfl⟩
    · simp only [work, send, List.length_cons]
      split_ifs <;> omega

end Loops

/-! ### Steps -/

lemma nextQueued_eq_none : s.nextQueued = none ↔
    ∀ r ∈ s.db.workspaces, r.state = .queued → r.leaseExpiresAt ≤ s.now := by
  rw [nextQueued, List.argmin_eq_none, List.filter_eq_nil_iff]
  simp

lemma Full.clock (h : Full config s) {now : ℕ} (hnow : s.now ≤ now) :
    Full config { s with now := now } := by
  rcases h with hnone | hroom
  · refine .inl (nextQueued_eq_none.mpr fun r hr hqueued => ?_)
    exact (nextQueued_eq_none.mp hnone r hr hqueued).trans hnow
  · exact .inr hroom

/-- The clock does not matter to the recovery but for the rows that may still be claimed. -/
lemma Recovering.clock (h : Recovering config answers s) {now : ℕ} (hnow : s.now ≤ now) :
    Recovering config answers { s with now := now } := by
  refine ⟨h.accounted, ?_, h.unsettled⟩
  have hsnapshots := h.snapshots
  unfold Snapshots at hsnapshots ⊢
  split at hsnapshots
  · rename_i hpc
    simp only [hpc]
    exact hsnapshots.clock hnow
  · rename_i hpc
    simp only [hpc]
    exact hsnapshots.clock hnow
  · rename_i hpc
    simp only [hpc]
    exact hsnapshots
  · rename_i hpc
    simp only [hpc]
    exact hsnapshots
  · rename_i hpc
    simp only [hpc]
    exact hsnapshots

/-- What the answer to a stop changes. -/
lemma stopReply_cases {i : ℕ} {reply : Except AgentError Unit} (h : s.stopReply i reply = some s') :
    ∃ op outcome, s.operations[i]? = some op ∧ op.outcome = none ∧
      s'.operations = s.operations.set i { op with outcome := some outcome } ∧
      s'.stopOperations = s.stopOperations ∧ s'.reconciliation = s.reconciliation ∧
      ((∃ e, reply = .error e) ∧ s'.db.workspaces = s.db.workspaces ∨
        s'.db.workspaces = Table.updateWhere (isStopping op.row.id)
          (fun r => { r with state := .stopped, stoppedAt := some s.now }) s.db.workspaces) := by
  rw [stopReply] at h
  cases hop : s.operations[i]? with
  | none =>
    rw [hop] at h
    cases h
  | some op =>
    simp only [hop] at h
    split at h
    · cases h
    · rename_i hunsettled
      have hnone : op.outcome = none := by simpa using hunsettled
      cases reply with
      | ok =>
        cases h
        refine ⟨op, .ok (), rfl, hnone, ?_⟩
        split
        · exact ⟨rfl, rfl, rfl, .inr rfl⟩
        · exact ⟨rfl, rfl, rfl, .inr rfl⟩
      | error e =>
        cases h
        exact ⟨op, _, rfl, hnone, rfl, rfl, rfl, .inl ⟨⟨e, rfl⟩, rfl⟩⟩

lemma Recovering.stopReply (h : Recovering config answers s) {i : ℕ} {reply : Except AgentError Unit}
    (hanswer : ∃ op, s.operations[i]? = some op ∧ reply = answers.stop op.row.id)
    (hs : s.stopReply i reply = some s') :
    Recovering config answers s' ∧ s'.work config + 1 ≤ s.work config := by
  obtain ⟨op, outcome, hop, hnone, hoperations, hjoin, hpc, hrows⟩ := stopReply_cases hs
  obtain ⟨rest, hstopping⟩ := h.unsettled i op hop hnone
  obtain ⟨op₀, hop₀, hreply⟩ := hanswer
  obtain rfl : op = op₀ := Option.some_inj.mp (hop.symm.trans hop₀)
  have hset : (s.operations.set i { op with outcome := some outcome })[i]? =
      some { op with outcome := some outcome } := by
    rw [List.getElem?_set_self (List.getElem?_eq_some_iff.mp hop).1]
  have hsnapshots := h.snapshots
  simp only [Snapshots, hstopping] at hsnapshots
  have hlength : s'.db.workspaces.length = s.db.workspaces.length := by
    rcases hrows with ⟨-, heq⟩ | heq
    · rw [heq]
    · rw [heq, Table.updateWhere, List.length_map]
  refine ⟨⟨fun r' hr' => ?_, ?_, fun j op' hop' hnone' => ?_⟩, ?_⟩
  · -- A row that still is `stopping` under the id of the stop is one the agent refused to stop.
    have hrow : ∀ r ∈ s.db.workspaces, (r.id = op.row.id → r.state = .stopping → ∃ e, reply = .error e) →
        s'.Pending r ∨ Accounted answers r := by
      intro r hr hrefused
      simp only [Pending, hpc, hstopping, hoperations]
      have hpending := h.accounted r hr
      simp only [Pending, hstopping] at hpending
      rcases hpending with (⟨op₁, hop₁, -, hid⟩ | hlater) | haccounted
      · obtain rfl : op = op₁ := Option.some_inj.mp (hop.symm.trans hop₁)
        cases hstate : r.state with
        | stopping =>
          obtain ⟨e, he⟩ := hrefused hid.symm hstate
          refine .inr ?_
          simp only [Accounted, hstate]
          exact ⟨e, by rw [← hid, ← hreply, he]⟩
        | provisioning => exact .inl (.inr (.inr rfl))
        | running => exact .inl (.inr (.inr rfl))
        | queued => exact .inr (by simp only [Accounted, hstate])
        | stopped => exact .inr (by simp only [Accounted, hstate])
        | failed => exact .inr (by simp only [Accounted, hstate])
      · exact .inl (.inr hlater)
      · exact .inr haccounted
    rcases hrows with ⟨herror, heq⟩ | heq
    · rw [heq] at hr'
      exact hrow r' hr' fun _ _ => herror
    · rw [heq] at hr'
      obtain ⟨r, hr, rfl⟩ := Table.mem_updateWhere.mp hr'
      by_cases hp : isStopping op.row.id r = true
      · rw [if_pos hp]
        exact .inr trivial
      · rw [if_neg hp]
        refine hrow r hr fun hid hstate => ?_
        exact absurd (isStopping_iff.mpr ⟨hid, hstate⟩) hp
  · simp only [Snapshots, hpc, hstopping, hoperations, hjoin]
    exact ⟨by rw [hset]; rfl, hsnapshots.2⟩
  · rw [hoperations] at hop'
    by_cases hij : i = j
    · subst hij
      obtain rfl := Option.some_inj.mp (hset.symm.trans hop')
      cases hnone'
    · rw [List.getElem?_set_ne hij] at hop'
      rw [hpc]
      exact h.unsettled j op' hop' hnone'
  · have hbefore : ∃ op, s.operations[i]? = some op ∧ op.outcome.isNone := ⟨op, hop, by rw [hnone]; rfl⟩
    have hafter : ¬∃ op', s'.operations[i]? = some op' ∧ op'.outcome.isNone := by
      rintro ⟨op', hop', hnone'⟩
      rw [hoperations, hset] at hop'
      cases hop'
      cases hnone'
    simp only [work, hpc, hstopping, hlength, if_pos hbefore, if_neg hafter]
    omega

lemma Recovering.stopClear (h : Recovering config answers s) {i : ℕ} (hs : s.stopClear i = some s') :
    Recovering config answers s' ∧ s'.work config ≤ s.work config := by
  rw [Service.stopClear] at hs
  split at hs
  · cases hs
  · split at hs
    · cases hs
      refine ⟨⟨h.accounted, ?_, h.unsettled⟩, le_rfl⟩
      have hsnapshots := h.snapshots
      unfold Snapshots at hsnapshots ⊢
      split at hsnapshots
      · rename_i hpc
        simp only [hpc]
        exact hsnapshots
      · rename_i hpc
        simp only [hpc]
        exact hsnapshots
      · rename_i hpc
        simp only [hpc]
        exact hsnapshots
      · rename_i hpc
        simp only [hpc]
        exact hsnapshots
      · rename_i hpc
        simp only [hpc]
        refine ⟨hsnapshots.1, hsnapshots.2.1, fun x hx => ?_⟩
        exact hsnapshots.2.2 x (List.mem_filter.mp hx).1
    · cases hs

/-- Where no stop is under way, every operation has settled. -/
lemma Recovering.settled (h : Recovering config answers s)
    (hpc : ∀ i rest, s.reconciliation = some (.stopping i rest) →
      ∀ op, s.operations[i]? = some op → op.outcome ≠ none) : ∀ op ∈ s.operations, op.outcome ≠ none := by
  intro op hop hnone
  obtain ⟨i, hi⟩ := List.getElem?_of_mem hop
  obtain ⟨rest, hstopping⟩ := h.unsettled i op hi hnone
  exact hpc i rest hstopping op hi hnone

lemma Recovering.reconcileStopped {start : Service} (h : Recovering config answers s) (hcore : Core start s)
    (hs : reconcileStopped config s = some s') :
    Recovering config answers s' ∧ s'.work config + 1 ≤ s.work config := by
  simp only [Service.reconcileStopped] at hs
  split at hs
  · rename_i i rest hpc
    split at hs
    · rename_i op hop
      split at hs
      · rename_i hoperation
        cases hs
        have hsnapshots := h.snapshots
        simp only [Snapshots, hpc] at hsnapshots
        have hsettled := h.settled fun j rest' hstopping op' hop' hnone => by
          rw [hpc] at hstopping
          cases hstopping
          rw [hop] at hop'
          cases hop'
          rw [hnone] at hoperation
          cases hoperation
        have hcurrent : ¬∃ op, s.operations[i]? = some op ∧ op.outcome.isNone := by
          rintro ⟨op', hop', hnone⟩
          exact hsettled op' (List.mem_of_getElem? hop') (by simpa using hnone)
        obtain ⟨hrecovering, hwork⟩ := recovering_stopLoop config answers hcore
          hsnapshots.2.1 hsnapshots.2.2 (fun r hr => by
            have hpending := h.accounted r hr
            simp only [Pending, hpc] at hpending
            rcases hpending with (⟨op', hop', hnone, -⟩ | hlater | hstate) | hacc
            · exact absurd hnone (hsettled op' (List.mem_of_getElem? hop'))
            · exact .inl hlater
            · exact .inr (.inl hstate)
            · exact .inr (.inr hacc)) hsettled
        refine ⟨hrecovering, ?_⟩
        simp only [work, hpc, if_neg hcurrent] at hwork ⊢
        omega
      · cases hs
    · cases hs
  · cases hs

/-- The updates that a status leads to account for its row and leave the others alone. -/
lemma applyStatus_rows {start : Service} (h : Core start s) {row : WorkspaceRow} (hrow : row ∈ s.db.workspaces)
    (hstarted : row.state.isStarted = true) {r' : WorkspaceRow}
    (hr' : r' ∈ (s.applyStatus row (answers.status row.id)).db.workspaces) :
    r' ∈ s.db.workspaces ∧ r'.id ≠ row.id ∨ r'.id = row.id ∧ Accounted answers r' := by
  have hsame : ∀ r ∈ s.db.workspaces, r.id = row.id → r = row := fun r hr hid =>
    Table.eq_of_key_eq h.ids_nodup hr hrow hid
  have hkept : ∀ r ∈ s.db.workspaces, Accounted answers row →
      r ∈ s.db.workspaces ∧ r.id ≠ row.id ∨ r.id = row.id ∧ Accounted answers r := by
    intro r hr hacc
    by_cases hid : r.id = row.id
    · obtain rfl := hsame r hr hid
      exact .inr ⟨rfl, hacc⟩
    · exact .inl ⟨hr, hid⟩
  unfold applyStatus at hr'
  split at hr'
  · rename_i e hstatus
    refine hkept r' hr' ?_
    cases hstate : row.state with
    | provisioning => simp only [Accounted, hstate]; exact .inl ⟨e, hstatus⟩
    | running => simp only [Accounted, hstate]; exact .inr (.inl ⟨e, hstatus⟩)
    | queued => simp [hstate, WorkspaceState.isStarted] at hstarted
    | stopping => simp [hstate, WorkspaceState.isStarted] at hstarted
    | stopped => simp [hstate, WorkspaceState.isStarted] at hstarted
    | failed => simp [hstate, WorkspaceState.isStarted] at hstarted
  · rename_i state hstatus
    split at hr'
    · rename_i hrunning
      obtain ⟨r, hr, rfl⟩ := Table.mem_updateWhere.mp hr'
      by_cases hid : r.id = row.id
      · obtain rfl := hsame r hr hid
        rw [if_pos (isProvisioning_iff.mpr ⟨rfl, hrunning.2⟩)]
        exact .inr ⟨rfl, .inl (by rw [hstatus, hrunning.1])⟩
      · rw [if_neg fun hp => hid (isProvisioning_iff.mp hp).1]
        exact .inl ⟨hr, hid⟩
    · rename_i hnot
      split at hr'
      · obtain ⟨r, hr, rfl⟩ := Table.mem_updateWhere.mp hr'
        by_cases hid : r.id = row.id
        · obtain rfl := hsame r hr hid
          rw [if_pos (isStarted_iff.mpr ⟨rfl, hstarted⟩)]
          exact .inr ⟨rfl, trivial⟩
        · rw [if_neg fun hp => hid (isStarted_iff.mp hp).1]
          exact .inl ⟨hr, hid⟩
      · rename_i hrunning
        have hstate : state = .running := by simpa using hrunning
        refine hkept r' hr' ?_
        cases hrow : row.state with
        | provisioning => exact absurd ⟨hstate, hrow⟩ hnot
        | running => simp only [Accounted, hrow]; exact .inl (by rw [hstatus, hstate])
        | queued => simp [hrow, WorkspaceState.isStarted] at hstarted
        | stopping => simp [hrow, WorkspaceState.isStarted] at hstarted
        | stopped => simp [hrow, WorkspaceState.isStarted] at hstarted
        | failed => simp [hrow, WorkspaceState.isStarted] at hstarted

/-- A row with another id is still in the table after the updates of a status. -/
lemma mem_applyStatus {row r : WorkspaceRow} {reply : Except AgentError RuntimeState}
    (hr : r ∈ s.db.workspaces) (hid : r.id ≠ row.id) : r ∈ (s.applyStatus row reply).db.workspaces := by
  unfold applyStatus
  split
  · exact hr
  · split
    · refine Table.mem_updateWhere.mpr ⟨r, hr, ?_⟩
      rw [if_neg fun hp => hid (isProvisioning_iff.mp hp).1]
    · split
      · refine Table.mem_updateWhere.mpr ⟨r, hr, ?_⟩
        rw [if_neg fun hp => hid (isStarted_iff.mp hp).1]
      · exact hr

lemma applyStatus_operations (s : Service) (row : WorkspaceRow) (reply : Except AgentError RuntimeState) :
    (s.applyStatus row reply).operations = s.operations := by
  unfold applyStatus
  split
  · rfl
  · split_ifs <;> rfl

lemma Recovering.statusReply {reply : Except AgentError RuntimeState} (h : Recovering config answers s)
    (hconsistent : Consistent config .initial s)
    (hanswer : ∃ row rest call, s.reconciliation = some (.checking row rest call) ∧
      reply = answers.status row.id)
    (hs : statusReply config s reply = some s') :
    Recovering config answers s' ∧ s'.work config + 1 ≤ s.work config := by
  obtain ⟨row, rest, call, hpc, rfl⟩ := hanswer
  simp only [Service.statusReply, hpc, Option.some.injEq] at hs
  subst hs
  have hsnapshots := h.snapshots
  simp only [Snapshots, hpc] at hsnapshots
  obtain ⟨hrows, hnd⟩ := hsnapshots
  obtain ⟨hrow, hstarted⟩ := hrows row List.mem_cons_self
  rw [List.map_cons, List.nodup_cons] at hnd
  have hcore := (consistent_applyStatus hconsistent row (answers.status row.id)).core
  have hsettled := h.settled fun i rest' hstopping => by
    rw [hpc] at hstopping
    cases hstopping
  rw [← applyStatus_operations s row (answers.status row.id)] at hsettled
  obtain ⟨hrecovering, hwork⟩ := recovering_checkLoop config answers hcore
    rest (fun x hx => by
      obtain ⟨hx', hxstarted⟩ := hrows x (List.mem_cons_of_mem _ hx)
      refine ⟨mem_applyStatus hx' fun heq => hnd.1 ?_, hxstarted⟩
      exact heq ▸ List.mem_map_of_mem hx) hnd.2 (fun r hr => by
      rcases applyStatus_rows hconsistent.core hrow hstarted hr with ⟨hmem, hid⟩ | ⟨-, hacc⟩
      · have hpending := h.accounted r hmem
        simp only [Pending, hpc, List.map_cons] at hpending
        rcases hpending with hpending | hacc
        · exact .inl ((List.mem_cons.mp hpending).resolve_left hid)
        · exact .inr hacc
      · exact .inr hacc) hsettled
  refine ⟨hrecovering, ?_⟩
  simp only [work, hpc] at hwork ⊢
  omega

lemma Recovering.createReply {reply : Except AgentError Unit} (h : Recovering config answers s)
    (hconsistent : Consistent config .initial s)
    (hanswer : ∃ row capacity call, s.reconciliation = some (.starting row capacity call) ∧
      reply = answers.create row.id)
    (hs : s.createReply reply = some s') :
    Recovering config answers s' ∧ s'.work config + 1 ≤ s.work config := by
  obtain ⟨row, capacity, call, hpc, hreply⟩ := hanswer
  simp only [Service.createReply, hpc, Option.some.injEq] at hs
  subst hs
  have hsnapshots := h.snapshots
  simp only [Snapshots, hpc] at hsnapshots
  obtain ⟨⟨claimed, hclaimed, hid, hstate⟩, hroom⟩ := hsnapshots
  have hsettled := h.settled fun i rest' hstopping => by
    rw [hpc] at hstopping
    cases hstopping
  have hcore := (consistent_applyCreate hconsistent row reply).core
  have hpending : ∀ r ∈ s.db.workspaces, r = claimed ∨ Accounted answers r := by
    intro r hr
    have hr' := h.accounted r hr
    simp only [Pending, hpc] at hr'
    rcases hr' with heq | hacc
    · exact .inl (Table.eq_of_key_eq hconsistent.core.ids_nodup hr hclaimed (heq.trans hid.symm))
    · exact .inr hacc
  have hdone : Recovering config answers (claimLoop capacity (s.applyCreate row reply)) ∧
      (claimLoop capacity (s.applyCreate row reply)).work config ≤ capacity + 1 := by
    cases reply with
    | error e =>
      refine recovering_claimLoop config answers hcore hroom (fun r hr => ?_) hsettled
      rcases hpending r hr with rfl | hacc
      · simp only [Accounted, hstate]
        exact .inr ⟨e, by rw [hid, ← hreply]⟩
      · exact hacc
    | ok u =>
      refine recovering_claimLoop config answers hcore (hroom.trans (Nat.add_le_add_right ?_ _))
        (fun r' hr' => ?_) hsettled
      · simp only [applyCreate, audit, Database.count, Database.audit_workspaces,
          Database.updateWorkspaces_workspaces, Table.updateWhere, List.countP_map]
        refine List.countP_mono_left fun r _ hr => ?_
        by_cases hp : isProvisioning row.id r = true
        · rw [Function.comp_apply, if_pos hp]
          rfl
        · rw [Function.comp_apply, if_neg hp]
          exact hr
      · obtain ⟨r, hr, rfl⟩ := Table.mem_updateWhere.mp hr'
        by_cases hp : isProvisioning row.id r = true
        · rw [if_pos hp]
          exact .inr (.inr (by rw [(isProvisioning_iff.mp hp).1, ← hreply]))
        · rw [if_neg hp]
          refine (hpending r hr).resolve_left fun heq => hp ?_
          exact isProvisioning_iff.mpr (heq ▸ ⟨hid, hstate⟩)
  refine ⟨hdone.1, ?_⟩
  have hwork := hdone.2
  simp only [work, hpc] at hwork ⊢
  omega

lemma Recovering.reconcileClear (h : Recovering config answers s) (hs : s.reconcileClear = some s') :
    Recovering config answers s' ∧ s'.work config + 1 ≤ s.work config := by
  simp only [Service.reconcileClear] at hs
  split at hs
  · rename_i hpc
    cases hs
    have hsnapshots := h.snapshots
    simp only [Snapshots, hpc] at hsnapshots
    refine ⟨⟨fun r hr => ?_, hsnapshots, fun i op hop hnone => ?_⟩, by simp only [work, hpc]; omega⟩
    · have hpending := h.accounted r hr
      simp only [Pending, hpc] at hpending
      exact hpending.imp_left id
    · obtain ⟨rest, hstopping⟩ := h.unsettled i op hop hnone
      rw [hpc] at hstopping
      cases hstopping
  · cases hs

/-- A step of the recovery keeps the invariant, and an awaited one takes from the work. -/
theorem Recovering.step {a : Action} (h : Recovering config answers s)
    (hconsistent : Consistent config .initial s) (ha : Recovers answers s a)
    (hs : step config capabilities s a = some s') :
    Recovering config answers s' ∧ s'.work config + (if isAwaited a then 1 else 0) ≤ s.work config := by
  cases a with
  | clock now =>
    cases hs
    exact ⟨h.clock ha, le_rfl⟩
  | stopReply i reply => exact h.stopReply ha hs
  | stopClear i => exact h.stopClear hs
  | reconcileStopped => exact h.reconcileStopped hconsistent.core hs
  | statusReply reply => exact h.statusReply hconsistent ha hs
  | createReply reply => exact h.createReply hconsistent ha hs
  | reconcileClear => exact h.reconcileClear hs
  | create wallet ipHash storage id volumeId => exact ha.elim
  | stopCurrent wallet => exact ha.elim
  | stopCurrentResume i => exact ha.elim
  | reconcile => exact ha.elim
  | destroyPersistentVolume wallet => exact ha.elim
  | destroyReply index reply => exact ha.elim
  | maintenance => exact ha.elim

/-- A recovery that has not ended waits for a step that the answers allow. -/
lemma Recovering.progress (h : Recovering config answers s) (hpc : s.reconciliation ≠ none) :
    ∃ a, isAwaited a = true ∧ Recovers answers s a ∧ (Service.step config capabilities s a).isSome = true := by
  have hsnapshots := h.snapshots
  cases hcase : s.reconciliation with
  | none => exact absurd hcase hpc
  | some pc =>
    cases pc with
    | finished =>
      refine ⟨.reconcileClear, rfl, trivial, ?_⟩
      simp only [Service.step, Service.reconcileClear, hcase]
      rfl
    | starting row capacity call =>
      refine ⟨.createReply (answers.create row.id), rfl, ⟨row, capacity, call, hcase, rfl⟩, ?_⟩
      simp only [Service.step, Service.createReply, hcase]
      rfl
    | checking row rest call =>
      refine ⟨.statusReply (answers.status row.id), rfl, ⟨row, rest, call, hcase, rfl⟩, ?_⟩
      simp only [Service.step, Service.statusReply, hcase]
      rfl
    | stopping i rest =>
      simp only [Snapshots, hcase] at hsnapshots
      obtain ⟨op, hop⟩ := Option.isSome_iff_exists.mp hsnapshots.1
      cases houtcome : op.outcome with
      | none =>
        refine ⟨.stopReply i (answers.stop op.row.id), rfl, ⟨op, hop, rfl⟩, ?_⟩
        simp only [Service.step, Service.stopReply, hop, houtcome]
        cases answers.stop op.row.id <;> rfl
      | some outcome =>
        refine ⟨.reconcileStopped, rfl, trivial, ?_⟩
        simp only [Service.step, Service.reconcileStopped, hcase, hop, houtcome]
        rfl

/-! ### Runs -/

lemma length_expire (s : Service) : s.expire.db.workspaces.length = s.db.workspaces.length :=
  List.length_map _

/-- A new process has no promises, so its first reconciliation starts every stop itself. -/
lemma recovering_reconcile (config : Config) (answers : AgentAnswers) {start : Service} (hcore : Core start s.expire) (hoperations : s.operations = [])
    (hjoin : s.stopOperations = []) (hpc : s.reconciliation = none) :
    Recovering config answers (reconcile config s) ∧
      (reconcile config s).work config ≤ 3 * s.db.workspaces.length + config.maxRunning + 3 := by
  have hrun : reconcile config s =
      stopLoop config (s.expire.db.workspaces.filter (·.state = .stopping)) s.expire := by
    rw [reconcile, hpc]
    rfl
  have hlength : (s.expire.db.workspaces.filter (·.state = .stopping)).length ≤ s.db.workspaces.length :=
    length_expire s ▸ List.length_filter_le _ _
  have hnd := hcore.ids_nodup.sublist
    ((List.filter_sublist (p := fun r : WorkspaceRow => r.state = .stopping)).map (·.id))
  have hjoin' : ∀ x ∈ s.expire.stopOperations,
      x.1 ∉ (s.expire.db.workspaces.filter (·.state = .stopping)).map (·.id) := by
    intro x hx
    have hnil : s.expire.stopOperations = [] := hjoin
    rw [hnil] at hx
    cases hx
  have hsettled : ∀ op ∈ s.expire.operations, op.outcome ≠ none := by
    intro op hop
    have hnil : s.expire.operations = [] := hoperations
    rw [hnil] at hop
    cases hop
  obtain ⟨hrecovering, hwork⟩ := recovering_stopLoop config answers hcore hnd hjoin'
    (fun r hr => by
      cases hstate : r.state with
      | stopping => exact .inl (List.mem_map_of_mem (List.mem_filter.mpr ⟨hr, by simpa using hstate⟩))
      | provisioning => exact .inr (.inl rfl)
      | running => exact .inr (.inl rfl)
      | queued => exact .inr (.inr (by simp only [Accounted, hstate]))
      | stopped => exact .inr (.inr (by simp only [Accounted, hstate]))
      | failed => exact .inr (.inr (by simp only [Accounted, hstate]))) hsettled
  rw [hrun]
  refine ⟨hrecovering, hwork.trans ?_⟩
  rw [length_expire]
  omega

/-- The agent said that the workspace has ended. -/
def ReportedEnded (answers : AgentAnswers) (id : String) : Prop :=
  answers.stop id = .ok () ∨ ∃ state, state ≠ .running ∧ answers.status id = .ok state

/-- A step of the recovery ends a row on the word of the agent only. -/
lemma ended_step {a : Action} (ha : Recovers answers s a) (hs : step config capabilities s a = some s')
    {r' : WorkspaceRow} (hr' : r' ∈ s'.db.workspaces) (hinactive : r'.state.isActive = false) :
    (∃ r ∈ s.db.workspaces, r.id = r'.id ∧ r.state.isActive = false) ∨ ReportedEnded answers r'.id := by
  rcases inactive_origin hs hr' hinactive with hold | hsettles
  · exact .inl hold
  · rcases hsettles with ⟨i, op, rfl, hop, hid⟩ | ⟨state, row, rest, call, rfl, hstate, hpc, hid⟩
    · obtain ⟨op', hop', hreply⟩ := ha
      obtain rfl : op = op' := Option.some_inj.mp (hop.symm.trans hop')
      exact .inr (.inl (by rw [← hid, ← hreply]))
    · obtain ⟨row', rest', call', hpc', hreply⟩ := ha
      obtain ⟨rfl, -, -⟩ : row = row' ∧ rest = rest' ∧ call = call' := by
        have heq := hpc.symm.trans hpc'
        simpa using heq
      exact .inr (.inr ⟨state, hstate, by rw [← hid, ← hreply]⟩)

/-- `t` is a state of the recovery of `s` after `n` of the steps that it awaits. -/
def RecoveryRun (config : Config) (capabilities : Option WorkspaceDataCapabilities)
    (answers : AgentAnswers) (s t : Service) (n : ℕ) : Prop :=
  Transition.Leads (Transition.counted (step config capabilities) isAwaited)
    (fun u => Recovers answers u.1) (reconcile config s, 0) (t, n)

/-- The recovery of `s` cannot wait for ever, and what it leaves behind agrees with the answers: a row
that is `stopping`, `provisioning` or `running` afterwards is accounted for, a row is ended only where
the agent reported so, and capacity is left free only where nothing waits for it. -/
structure RecoverySettles (config : Config) (capabilities : Option WorkspaceDataCapabilities)
    (answers : AgentAnswers) (s : Service) : Prop where
  bounded : ∀ t n, RecoveryRun config capabilities answers s t n →
    n ≤ 3 * s.db.workspaces.length + config.maxRunning + 3
  progress : ∀ t n, RecoveryRun config capabilities answers s t n → t.reconciliation ≠ none →
    ∃ a, isAwaited a = true ∧ Recovers answers t a ∧ (step config capabilities t a).isSome = true
  accounted : ∀ t n, RecoveryRun config capabilities answers s t n → t.reconciliation = none →
    (∀ r ∈ t.db.workspaces, Accounted answers r) ∧ Full config t
  ended : ∀ t n, RecoveryRun config capabilities answers s t n → ∀ r' ∈ t.db.workspaces,
    r'.state.isActive = false →
      (∃ r ∈ s.db.workspaces, r.id = r'.id ∧ r.state.isActive = false) ∨ ReportedEnded answers r'.id

lemma Safe.recoverySettles (h : Safe config s) (hoperations : s.operations = [])
    (hjoin : s.stopOperations = []) (hpc : s.reconciliation = none) :
    RecoverySettles config capabilities answers s := by
  obtain ⟨hrecovering, hwork⟩ := recovering_reconcile config answers
    h.expire.consistent.core hoperations hjoin hpc
  have hconsistent := consistent_reconcile h.consistent
  have hrun : ∀ t n, RecoveryRun config capabilities answers s t n →
      (Consistent config .initial t ∧ Recovering config answers t) ∧
        n + t.work config ≤ 0 + (reconcile config s).work config := by
    intro t n ht
    refine Transition.Leads.add_work_le
      (fun u => Consistent config .initial u ∧ Recovering config answers u) (work config) ht
      ⟨hconsistent, hrecovering⟩ ?_
    rintro u a u' ⟨hu, hu'⟩ ha hs
    obtain ⟨hnext, hle⟩ := hu'.step hu ha hs
    exact ⟨⟨hu.step hs, hnext⟩, hle⟩
  refine ⟨fun t n ht => ?_, fun t n ht hne => ?_, fun t n ht hdone => ?_, fun t n ht => ?_⟩
  · obtain ⟨-, hle⟩ := hrun t n ht
    omega
  · exact (hrun t n ht).1.2.progress hne
  · obtain ⟨⟨-, ht'⟩, -⟩ := hrun t n ht
    have hsnapshots := ht'.snapshots
    simp only [Snapshots, hdone] at hsnapshots
    refine ⟨fun r hr => ?_, hsnapshots⟩
    have hpending := ht'.accounted r hr
    simp only [Pending, hdone] at hpending
    exact hpending.resolve_left id
  · refine Transition.Leads.invariant (fun u => ∀ r' ∈ u.1.db.workspaces, r'.state.isActive = false →
      (∃ r ∈ s.db.workspaces, r.id = r'.id ∧ r.state.isActive = false) ∨ ReportedEnded answers r'.id)
      ht ?_ ?_
    · intro r' hr' hinactive
      obtain ⟨r, hr, hm⟩ := (frame_reconcile config s : Frame (fun _ => False) s (reconcile config s)).rows.exists_of_mem_right hr'
      rcases hm.done_of_inactive hinactive with rfl | hfalse
      · exact .inl ⟨r', hr, rfl, hinactive⟩
      · exact hfalse.elim
    · rintro ⟨u, m⟩ a ⟨u', m'⟩ hu ha hs r' hr' hinactive
      obtain ⟨v, hv, heq⟩ := Option.map_eq_some_iff.mp hs
      cases heq
      rcases ended_step ha hv hr' hinactive with ⟨r, hr, hid, hr'⟩ | hended
      · exact hid ▸ hu r hr hr'
      · exact .inr hended

end Service

namespace Process

open Service

variable {config : Config} {p q : Process} {answers : AgentAnswers}

/-- Wherever the last process ended, the `recover` of the next one settles. -/
theorem recoverySettles_of_restart {capabilities capabilities' : Option WorkspaceDataCapabilities}
    {a : Action} {stage : ℕ}
    (h : Transition.Leads (step config) clockForward ⟨capabilities, .initial⟩ p)
    (hforward : p.clockForward (.restart a stage capabilities'))
    (hs : p.step config (.restart a stage capabilities') = some q) :
    RecoverySettles config capabilities' answers q.service := by
  have hsafe : Safe config q.service :=
    Transition.Leads.invariant (fun u => Safe config u.service) (h.tail hforward hs) safe_initial
      fun _ _ _ ht hforward hs => safe_step ht hforward hs
  obtain ⟨s', -, hcut⟩ := Option.bind_eq_some_iff.mp hs
  obtain ⟨t, -, heq⟩ := Option.bind_eq_some_iff.mp hcut
  cases heq
  exact hsafe.recoverySettles rfl rfl rfl

/-- The machine was restarted with the control plane: the workspace it ran is gone. -/
theorem recoverySettles_lost :
    ∃ (q : Process) (answers : AgentAnswers) (t : Service),
      Transition.exec (Transition.counted (Service.step .default none) isAwaited)
        (reconcile .default q.service, 0) [.statusReply (.ok .missing), .reconcileClear] = some (t, 2) ∧
      t.db.workspaces.map (·.state) = [.failed] ∧
      RecoverySettles .default none answers q.service := by
  let created : ControlEvent := .run (.create "0xAb" "network" none "w1" "v1")
  let answers : AgentAnswers := ⟨fun _ => .ok (), fun _ => .ok .missing, fun _ => .ok ()⟩
  have hrun : ∃ (p q : Process) (t : Service), step .default ⟨none, .initial⟩ created = some p ∧
      p.step .default (.restart (.clock 5) 1 none) = some q ∧
      Transition.exec (Transition.counted (Service.step .default none) isAwaited)
        (reconcile .default q.service, 0) [.statusReply (.ok .missing), .reconcileClear] = some (t, 2) ∧
      t.db.workspaces.map (·.state) = [.failed] := ⟨_, _, _, rfl, rfl, rfl, rfl⟩
  obtain ⟨p, q, t, hp, hq, ht, hstate⟩ := hrun
  have hforward : p.clockForward (.restart (.clock 5) 1 none) := by
    cases hp
    exact Nat.zero_le _
  have hleads : Transition.Leads (step .default) clockForward ⟨none, .initial⟩ p :=
    Transition.Leads.single (a := created) trivial hp
  exact ⟨q, answers, t, ht, hstate, recoverySettles_of_restart hleads hforward hq⟩

end Process

end Bloom
