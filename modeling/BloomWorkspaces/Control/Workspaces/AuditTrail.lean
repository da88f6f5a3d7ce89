import BloomWorkspaces.Control.Workspaces.Lifecycle

/-!
# The audit log and the row history

`workspace.running`, `workspace.lost` and `workspace.stopped` report transitions of a row. Only
`stopWorkspace` looks at the number of changed rows before it writes its entry, so the log agrees with
the history of the rows as long as no answer of the agent comes too late for its row.
-/

namespace Bloom

/-! ### Reports -/

namespace WorkspaceState

/-- The kind of the audit entry that reports a transition into the state. -/
def auditKind : WorkspaceState → Option String
  | running => some "workspace.running"
  | failed => some "workspace.lost"
  | stopped => some "workspace.stopped"
  | queued | provisioning | stopping => none

/-- How far along the lifecycle a state is. -/
def rank : WorkspaceState → ℕ
  | queued => 0
  | provisioning => 1
  | running => 2
  | stopping => 3
  | stopped | failed => 4

lemma rank_lt_of_mem_next {state state' : WorkspaceState} (h : state' ∈ state.next) :
    state.rank < state'.rank := by
  cases state <;> cases state' <;> simp_all [next, rank]

end WorkspaceState

/-- The state that an entry of this kind reports. -/
def reportedState (kind : String) : Option WorkspaceState :=
  if kind = "workspace.running" then some .running
  else if kind = "workspace.lost" then some .failed
  else if kind = "workspace.stopped" then some .stopped
  else none

lemma reportedState_eq_some {kind : String} {state : WorkspaceState} :
    reportedState kind = some state ↔ state.auditKind = some kind := by
  unfold reportedState
  constructor
  · intro h
    split_ifs at h with hrunning hlost hstopped
    · cases h
      rw [hrunning]
      rfl
    · cases h
      rw [hlost]
      rfl
    · cases h
      rw [hstopped]
      rfl
  · intro h
    cases state <;> cases h <;> rfl

/-- The transition that an entry reports: the workspace and the state it went to. -/
def AuditEvent.report (e : AuditEvent) : Option (String × WorkspaceState) :=
  e.workspaceId.bind fun id => (reportedState e.kind).map (id, ·)

lemma AuditEvent.report_eq_some {e : AuditEvent} {id : String} {state : WorkspaceState} :
    e.report = some (id, state) ↔ e.workspaceId = some id ∧ state.auditKind = some e.kind := by
  simp [report, Option.bind_eq_some_iff, reportedState_eq_some]

/-- The transitions that the audit log reports, in order. -/
def Database.reports (db : Database) : List (String × WorkspaceState) :=
  db.auditEvents.filterMap AuditEvent.report

lemma Database.reports_audit (db : Database) (now : ℕ) (kind : String)
    (actor workspaceId : Option String) (detail : List (String × DetailValue)) :
    (db.audit now kind actor workspaceId detail).reports =
      db.reports ++ (AuditEvent.report ⟨now, kind, actor, workspaceId, detail⟩).toList := by
  rw [reports, audit, List.filterMap_append]
  congr 1

/-- An entry of another kind reports nothing. -/
lemma Database.reports_audit_other {kind : String} (hkind : reportedState kind = none) (db : Database)
    (now : ℕ) (actor workspaceId : Option String) (detail : List (String × DetailValue)) :
    (db.audit now kind actor workspaceId detail).reports = db.reports := by
  have hnone : AuditEvent.report ⟨now, kind, actor, workspaceId, detail⟩ = none := by
    simp [AuditEvent.report, hkind]
  rw [reports_audit, hnone, Option.toList_none, List.append_nil]

lemma Database.reports_audit_id {kind : String} {state : WorkspaceState}
    (hkind : reportedState kind = some state) (db : Database) (now : ℕ) (actor : Option String)
    (id : String) (detail : List (String × DetailValue)) :
    (db.audit now kind actor (some id) detail).reports = db.reports ++ [(id, state)] := by
  have hsome : AuditEvent.report ⟨now, kind, actor, some id, detail⟩ = some (id, state) := by
    simp [AuditEvent.report, hkind]
  rw [reports_audit, hsome, Option.toList_some]

namespace Service

variable {config : Config} {capabilities : Option WorkspaceDataCapabilities} {s s' s'' : Service}

/-! ### The history of the rows -/

/-- A row of the table has the id and the state. -/
def HasRow (s : Service) (id : String) (state : WorkspaceState) : Prop :=
  ∃ r ∈ s.db.workspaces, r.id = id ∧ r.state = state

instance (s : Service) (id : String) (state : WorkspaceState) : Decidable (s.HasRow id state) :=
  inferInstanceAs (Decidable (∃ r ∈ s.db.workspaces, _))

/-- The transitions of one step: the rows that are in a state they were not in before. -/
def entered (s s' : Service) : List (String × WorkspaceState) :=
  (s'.db.workspaces.map fun r => (r.id, r.state)).filter fun x => ¬s.HasRow x.1 x.2

lemma mem_entered {x : String × WorkspaceState} :
    x ∈ entered s s' ↔ s'.HasRow x.1 x.2 ∧ ¬s.HasRow x.1 x.2 := by
  obtain ⟨id, state⟩ := x
  simp [entered, HasRow]

/-- `audit_events` rows of one kind about one workspace. -/
def auditCount (s : Service) (kind id : String) : ℕ :=
  s.db.auditEvents.countP fun e => e.kind = kind ∧ e.workspaceId = some id

/-- The log has one entry for each transition that it is to report, and no transition happened twice. -/
structure AuditAgrees (s : Service) (history : List (String × WorkspaceState)) : Prop where
  counts : ∀ id state kind, state.auditKind = some kind →
    s.auditCount kind id = history.count (id, state)
  once : ∀ id state, history.count (id, state) ≤ 1

/-- The transitions of the history that the log is to report. -/
def reported (history : List (String × WorkspaceState)) : List (String × WorkspaceState) :=
  history.filter fun x => x.2.auditKind.isSome

lemma auditCount_eq_count {id kind : String} {state : WorkspaceState}
    (hkind : state.auditKind = some kind) : s.auditCount kind id = s.db.reports.count (id, state) := by
  rw [Database.reports, List.count, List.countP_filterMap, auditCount]
  refine List.countP_congr fun e _ => ?_
  have hstate : ∀ kind', state.auditKind = some kind' ↔ kind' = kind := by
    intro kind'
    rw [hkind, Option.some_inj]
    exact eq_comm
  simp only [decide_eq_true_eq]
  cases hreport : e.report with
  | none =>
    have hne : ¬(e.workspaceId = some id ∧ state.auditKind = some e.kind) := by
      rw [← AuditEvent.report_eq_some, hreport]
      exact Option.some_ne_none _ ∘ Eq.symm
    simp only [hstate] at hne
    simpa [and_comm] using hne
  | some x =>
    have hiff := @AuditEvent.report_eq_some e id state
    rw [hreport, Option.some_inj, hstate] at hiff
    simp [hiff, and_comm]

lemma auditAgrees_of_reports {history : List (String × WorkspaceState)} (hnd : history.Nodup)
    (hreports : s.db.reports = reported history) : AuditAgrees s history where
  counts := by
    intro id state kind hkind
    rw [auditCount_eq_count hkind, hreports, reported, List.count_filter]
    simp [hkind]
  once := fun id state => List.nodup_iff_count_le_one.mp hnd (id, state)

/-! ### Each transition once -/

/-- The history of a run so far: no transition twice, and no row is behind one that it made. -/
structure Recorded (s : Service) (history : List (String × WorkspaceState)) : Prop where
  nodup : history.Nodup
  drawn : ∀ x ∈ history, x.1 ∈ s.uuids
  behind : ∀ x ∈ history, ∀ r ∈ s.db.workspaces, r.id = x.1 → x.2.rank ≤ r.state.rank

lemma Recorded.step {history : List (String × WorkspaceState)} {a : Action} {start : Service}
    (h : Recorded s history) (hs : step config capabilities s a = some s')
    (hconsistent : Consistent config start s) : Recorded s' (history ++ entered s s') := by
  have hcore' := (hconsistent.step hs).core
  have heffect := step_rowEffect hs
  have hrow : ∀ x ∈ entered s s', ∃ r ∈ s'.db.workspaces, r.id = x.1 ∧ r.state = x.2 :=
    fun x hx => (mem_entered.mp hx).1
  -- A transition of this step leads past every one that the row made before.
  have hnew : ∀ x ∈ entered s s', x ∉ history := by
    intro x hx hold
    obtain ⟨r', hr', hid, hstate⟩ := hrow x hx
    rcases heffect.origin hr' with ⟨r, hr, hc⟩ | ⟨row, -, -, hfresh, hc⟩
    · have hrid : r.id = x.1 := hc.id_eq.symm.trans hid
      rcases hc.eq_or_state_mem_next with rfl | hnext
      · exact (mem_entered.mp hx).2 ⟨r', hr, hrid, hstate⟩
      · have hlt := WorkspaceState.rank_lt_of_mem_next hnext
        rw [hstate] at hlt
        exact absurd (h.behind x hold r hr hrid) (not_le.mpr hlt)
    · rw [← hc.id_eq, hid] at hfresh
      exact hfresh (h.drawn x hold)
  have hnodup : (entered s s').Nodup := by
    refine List.Nodup.filter _ (List.Nodup.of_map Prod.fst ?_)
    rw [List.map_map]
    exact hcore'.ids_nodup
  refine ⟨List.nodup_append.mpr ⟨h.nodup, hnodup, fun x hx y hy heq => ?_⟩, fun x hx => ?_,
    fun x hx r' hr' hid => ?_⟩
  · exact hnew y hy (heq ▸ hx)
  · rcases List.mem_append.mp hx with hold | hentered
    · exact uuids_subset_step hs (h.drawn x hold)
    · obtain ⟨r, hr, hid, -⟩ := hrow x hentered
      exact hid ▸ hcore'.ids_drawn r hr
  · rcases List.mem_append.mp hx with hold | hentered
    · rcases heffect.origin hr' with ⟨r, hr, hc⟩ | ⟨row, -, -, hfresh, hc⟩
      · have hle := h.behind x hold r hr (hc.id_eq.symm.trans hid)
        rcases hc.eq_or_state_mem_next with rfl | hnext
        · exact hle
        · exact hle.trans (WorkspaceState.rank_lt_of_mem_next hnext).le
      · rw [← hc.id_eq, hid] at hfresh
        exact absurd (h.drawn x hold) hfresh
    · obtain ⟨r, hr, hrid, hstate⟩ := hrow x hentered
      obtain rfl := Table.eq_of_key_eq hcore'.ids_nodup hr' hr (hid.trans hrid.symm)
      exact hstate ▸ le_rfl

/-! ### Steps that report nothing -/

/-- The log reports nothing new and no row made a transition that it should report. -/
structure Quiet (s s' : Service) : Prop where
  reports : s'.db.reports = s.db.reports
  rows : ∀ r' ∈ s'.db.workspaces, r'.state.auditKind.isSome = true → s.HasRow r'.id r'.state

namespace Quiet

lemma keep (hrows : s'.db.workspaces = s.db.workspaces) (hreports : s'.db.reports = s.db.reports) :
    Quiet s s' :=
  ⟨hreports, fun r' hr' _ => ⟨r', hrows ▸ hr', rfl, rfl⟩⟩

lemma refl (s : Service) : Quiet s s := .keep rfl rfl

lemma trans (h : Quiet s s') (h' : Quiet s' s'') : Quiet s s'' := by
  refine ⟨h'.reports.trans h.reports, fun r'' hr'' hkind => ?_⟩
  obtain ⟨r', hr', hid, hstate⟩ := h'.rows r'' hr'' hkind
  rw [← hid, ← hstate]
  exact h.rows r' hr' (hstate ▸ hkind)

/-- An update into a state that no entry reports. -/
lemma updateWorkspaces {p : WorkspaceRow → Bool} {f : WorkspaceRow → WorkspaceRow}
    (hdb : s'.db = s.db.updateWorkspaces p f) (hf : ∀ r, (f r).state.auditKind = none) :
    Quiet s s' := by
  refine ⟨by rw [hdb]; rfl, fun r' hr' hkind => ?_⟩
  rw [hdb] at hr'
  obtain ⟨r, hr, rfl⟩ := Table.mem_updateWhere.mp hr'
  split at hkind
  · rw [hf] at hkind
    cases hkind
  · rename_i hp
    rw [if_neg hp]
    exact ⟨r, hr, rfl, rfl⟩

lemma entered_eq (h : Quiet s s') : reported (entered s s') = [] := by
  apply List.filter_eq_nil_iff.mpr
  intro x hx hkind
  obtain ⟨⟨r, hr, hid, hstate⟩, hnone⟩ := mem_entered.mp hx
  rw [← hstate] at hkind
  have hbefore := h.rows r hr hkind
  rw [hid, hstate] at hbefore
  exact hnone hbefore

end Quiet

lemma ClaimsOnly.quiet (h : ClaimsOnly s s') : Quiet s s' := by
  refine ⟨by rw [Database.reports, Database.reports, h.audits], fun r' hr' hkind => ?_⟩
  obtain ⟨r, hr, hc⟩ := Table.exists_of_forall₂_right h.rows hr'
  rcases hc with rfl | ⟨-, rfl⟩
  · exact ⟨r', hr, rfl, rfl⟩
  · cases hkind

lemma quiet_reconcile (config : Config) (s : Service) : Quiet s (reconcile config s) := by
  rcases reconcile_cases config s with heq | hclaims
  · rw [heq]
    exact .refl s
  · have hexpire : Quiet s s.expire := .updateWorkspaces rfl fun _ => rfl
    exact hexpire.trans hclaims.quiet

lemma quiet_stopCurrent (s : Service) (wallet : String) : Quiet s (s.stopCurrent wallet) := by
  unfold stopCurrent
  split
  · exact .refl s
  · exact .updateWorkspaces (stopWorkspace_db _ _ _) fun _ => rfl

lemma quiet_stopCurrentResume {operation : ℕ} (h : stopCurrentResume config s operation = some s') :
    Quiet s s' := by
  have hresumed : Quiet s { s with stopCallers := s.stopCallers.erase operation } := .keep rfl rfl
  simp only [stopCurrentResume] at h
  split at h
  · split at h
    · cases h
      exact hresumed.trans (quiet_reconcile config _)
    · cases h
      exact hresumed
    · cases h
  · cases h

section Admission

open Transaction

variable {now : ℕ} {wallet ipHash id volumeId : String} {storageMode : StorageMode}
  {db db' : Database}

/-- `create` audits its volume and its request, which report no transition. -/
lemma createBody_reports {row : WorkspaceRow}
    (h : (createBody config now wallet ipHash storageMode id volumeId).run.run db = (.ok row, db')) :
    db'.reports = db.reports := by
  have hchoose : ∀ {volume : Option PersistentVolumeRow} {db₁ : Database},
      (chooseVolume config wallet now volumeId storageMode).run.run db = (.ok volume, db₁) →
        db₁.reports = db.reports := by
    intro volume db₁ hrun
    cases storageMode with
    | disposable =>
      obtain ⟨rfl, rfl⟩ := run_pure_ok.mp hrun
      rfl
    | persistent =>
      obtain ⟨v, _, hv, hpure⟩ := run_bind_ok.mp hrun
      obtain ⟨rfl, rfl⟩ := run_pure_ok.mp hpure
      simp only [getOrCreatePersistentVolume, run_bind_ok, run_get_ok] at hv
      obtain ⟨_, _, ⟨rfl, rfl⟩, hv⟩ := hv
      cases hlive : db.liveVolume wallet with
      | some existing =>
        simp only [hlive, run_bind_ok, run_set_ok, run_pure_ok] at hv
        obtain ⟨_, _, rfl, rfl, rfl⟩ := hv
        rfl
      | none =>
        simp only [hlive, run_bind_ok, run_modify_ok, run_pure_ok] at hv
        obtain ⟨_, _, hinsert, _, _, rfl, rfl, rfl⟩ := hv
        obtain ⟨-, -, -, rfl⟩ := insertVolume_ok.mp hinsert
        exact Database.reports_audit_other (by decide) ..
  simp only [createBody, run_bind_ok, run_modify_ok, run_pure_ok] at h
  obtain ⟨_, _, hlimits, volume, db₁, hvolume, _, db₂, hinsert, _, _, rfl, rfl, rfl⟩ := h
  obtain ⟨-, rfl⟩ := checkLimits_ok.mp hlimits
  obtain ⟨-, -, -, rfl⟩ := insertWorkspace_ok.mp hinsert
  have hsame : db₁.reports = db.reports := hchoose hvolume
  rw [Database.reports_audit_other (by decide)]
  exact hsame

end Admission

lemma quiet_create {wallet ipHash id volumeId : String} {storage : Option StorageMode} :
    Quiet s (create config capabilities s wallet ipHash storage id volumeId).2 := by
  simp only [create]
  split
  · exact .refl s
  · split
    · rename_i error db htransaction
      rw [Transaction.transaction_error htransaction]
      exact .refl s
    · rename_i row db htransaction
      have hbody := Transaction.transaction_ok.mp htransaction
      have hadmitted := createBody_ok hbody
      obtain ⟨volume, hrow, -⟩ := hadmitted.volume
      have hinserted : Quiet s { s with db := db, admitted := s.admitted ++ [row] } := by
        refine ⟨createBody_reports hbody, fun r hr hkind => ?_⟩
        rcases List.mem_append.mp (hadmitted.workspaces ▸ hr) with hold | hnew
        · exact ⟨r, hold, rfl, rfl⟩
        · rw [List.mem_singleton.mp hnew, hrow] at hkind
          cases hkind
      exact hinserted.trans (quiet_reconcile config _)

lemma quiet_destroyReply {index : ℕ} {reply : Except AgentError Unit}
    (h : s.destroyReply index reply = some s') : Quiet s s' := by
  rw [destroyReply] at h
  split at h
  · cases h
  · cases reply with
    | error e =>
      cases h
      exact .keep rfl rfl
    | ok =>
      cases h
      exact .keep rfl (Database.reports_audit_other (by decide) ..)

/-! ### Steps that report a transition -/

/-- The row of one workspace went to a state, and the log reports just that. -/
structure Reporting (s s' : Service) (id : String) (state : WorkspaceState) : Prop where
  reports : s'.db.reports = s.db.reports ++ [(id, state)]
  kind : state.auditKind.isSome = true
  before : ¬s.HasRow id state
  after : s'.HasRow id state
  others : ∀ r' ∈ s'.db.workspaces, r'.state.auditKind.isSome = true →
    (r'.id, r'.state) = (id, state) ∨ s.HasRow r'.id r'.state

namespace Reporting

variable {id : String} {state : WorkspaceState}

lemma entered_eq (h : Reporting s s' id state) (hnd : (s'.db.workspaces.map (·.id)).Nodup) :
    reported (entered s s') = [(id, state)] := by
  have hnodup : (reported (entered s s')).Nodup := by
    refine List.Nodup.filter _ (List.Nodup.filter _ (List.Nodup.of_map Prod.fst ?_))
    rw [List.map_map]
    exact hnd
  apply List.perm_singleton.mp
  apply (List.perm_ext_iff_of_nodup hnodup (List.nodup_singleton _)).mpr
  intro x
  rw [reported, List.mem_filter, mem_entered, List.mem_singleton]
  constructor
  · rintro ⟨⟨⟨r, hr, hid, hstate⟩, hnone⟩, hkind⟩
    rcases h.others r hr (hstate ▸ hkind) with heq | hbefore
    · rw [← heq, hid, hstate]
    · rw [hid, hstate] at hbefore
      exact absurd hbefore hnone
  · rintro rfl
    exact ⟨⟨h.after, h.before⟩, h.kind⟩

/-- Claims that follow change nothing about it. -/
lemma claims (h : Reporting s s' id state) (hc : ClaimsOnly s' s'') : Reporting s s'' id state where
  reports := by rw [← h.reports, Database.reports, Database.reports, hc.audits]
  kind := h.kind
  before := h.before
  after := by
    obtain ⟨r, hr, hid, hstate⟩ := h.after
    obtain ⟨r', hr', hclaimed⟩ := Table.exists_of_forall₂_right hc.rows.flip hr
    have hqueued : r.state ≠ .queued := by
      intro heq
      have hkind := h.kind
      rw [← hstate, heq] at hkind
      cases hkind
    rw [Claimed.eq_of_not_queued hclaimed hqueued] at hr'
    exact ⟨r, hr', hid, hstate⟩
  others := by
    intro r'' hr'' hkind
    obtain ⟨r', hr', hid, hstate⟩ := hc.quiet.rows r'' hr'' hkind
    rw [← hid, ← hstate]
    exact h.others r' hr' (hstate ▸ hkind)

/-- An update of the one row with an id, with its entry. -/
lemma updateWorkspaces {p : WorkspaceRow → Bool} {f : WorkspaceRow → WorkspaceRow} {r₀ : WorkspaceRow}
    (hnd : (s.db.workspaces.map (·.id)).Nodup) (hr₀ : r₀ ∈ s.db.workspaces) (hp₀ : p r₀ = true)
    (hp : ∀ r, p r = true → r.id = r₀.id) (hid : (f r₀).id = r₀.id) (hne : r₀.state ≠ (f r₀).state)
    (hkind : (f r₀).state.auditKind.isSome = true)
    (hrows : s'.db.workspaces = Table.updateWhere p f s.db.workspaces)
    (hreports : s'.db.reports = s.db.reports ++ [(r₀.id, (f r₀).state)]) :
    Reporting s s' r₀.id (f r₀).state := by
  have honly : ∀ r ∈ s.db.workspaces, r.id = r₀.id → r = r₀ := fun r hr heq =>
    Table.eq_of_key_eq hnd hr hr₀ heq
  refine ⟨hreports, hkind, ?_, ?_, fun r' hr' _ => ?_⟩
  · rintro ⟨r, hr, heq, hstate⟩
    rw [honly r hr heq] at hstate
    exact hne hstate
  · refine ⟨f r₀, hrows ▸ Table.mem_updateWhere.mpr ⟨r₀, hr₀, ?_⟩, hid, rfl⟩
    rw [if_pos hp₀]
  · rw [hrows] at hr'
    obtain ⟨r, hr, rfl⟩ := Table.mem_updateWhere.mp hr'
    split
    · rename_i hpr
      rw [honly r hr (hp r hpr), hid]
      exact .inl rfl
    · exact .inr ⟨r, hr, rfl, rfl⟩

end Reporting

/-! ### Answers that come in time -/

/-- The answer finds its row in the state that the update asks for, and `maintenance` has nothing to
delete from the log. -/
def inTime (s : Service) : Action → Prop
  | .createReply (.ok ()) => ∀ row capacity call,
      s.reconciliation = some (.starting row capacity call) →
        ∃ r ∈ s.db.workspaces, isProvisioning row.id r = true
  | .statusReply (.ok state) => ∀ row rest call,
      s.reconciliation = some (.checking row rest call) →
        (state = .running → row.state = .provisioning →
          ∃ r ∈ s.db.workspaces, isProvisioning row.id r = true) ∧
        (state ≠ .running → ∃ r ∈ s.db.workspaces, isStarted row.id r = true)
  | .maintenance => ∀ e ∈ s.db.auditEvents, s.now - retentionMs ≤ e.occurredAt
  | _ => True

/-- A step is quiet, or it reports one transition. -/
def Audited (s s' : Service) : Prop := Quiet s s' ∨ ∃ id state, Reporting s s' id state

lemma Audited.claims (h : Audited s s') (hc : ClaimsOnly s' s'') : Audited s s'' := by
  rcases h with hquiet | ⟨id, state, hreporting⟩
  · exact .inl (hquiet.trans hc.quiet)
  · exact .inr ⟨id, state, hreporting.claims hc⟩

section Steps

variable (hnd : (s.db.workspaces.map (·.id)).Nodup)

include hnd

lemma audited_stopReply {operation : ℕ} {reply : Except AgentError Unit}
    (h : s.stopReply operation reply = some s') : Audited s s' := by
  rw [stopReply] at h
  split at h
  · cases h
  · rename_i op _
    split at h
    · cases h
    · cases reply with
      | error e =>
        cases h
        exact .inl (.keep rfl (Database.reports_audit_other (by decide) ..))
      | ok =>
        cases h
        split
        · rename_i hchanges
          have hpos : 0 < s.db.count (isStopping op.row.id) := hchanges ▸ Nat.one_pos
          obtain ⟨r, hr, hp⟩ := List.countP_pos_iff.mp hpos
          obtain ⟨hid, hstopping⟩ := isStopping_iff.mp hp
          refine .inr ⟨r.id, .stopped, ?_⟩
          refine Reporting.updateWorkspaces (f := fun r => { r with
            state := .stopped, stoppedAt := some s.now }) hnd hr hp ?_ rfl ?_ rfl rfl ?_
          · exact fun r' hp' => (isStopping_iff.mp hp').1.trans hid.symm
          · rw [hstopping]
            exact WorkspaceState.noConfusion
          · rw [hid]
            exact Database.reports_audit_id rfl ..
        · rename_i hchanges
          have hle : s.db.count (isStopping op.row.id) ≤ 1 :=
            Table.countP_key_le_one hnd op.row.id fun r _ hr => (isStopping_iff.mp hr).1
          have hzero : s.db.count (isStopping op.row.id) = 0 :=
            Nat.lt_one_iff.mp (lt_of_le_of_ne hle hchanges)
          refine .inl ⟨rfl, fun r' hr' _ => ?_⟩
          obtain ⟨r, hr, rfl⟩ := Table.mem_updateWhere.mp hr'
          rw [if_neg (List.countP_eq_zero.mp hzero r hr)]
          exact ⟨r, hr, rfl, rfl⟩

lemma audited_running {row : WorkspaceRow} {detail : List (String × DetailValue)}
    (hin : ∃ r ∈ s.db.workspaces, isProvisioning row.id r = true) :
    Audited s ({ s with
      db := s.db.updateWorkspaces (isProvisioning row.id) fun r => { r with state := .running }
    }.audit "workspace.running" row.wallet row.id detail) := by
  obtain ⟨r, hr, hp⟩ := hin
  obtain ⟨hid, hprovisioning⟩ := isProvisioning_iff.mp hp
  refine .inr ⟨r.id, .running, ?_⟩
  refine Reporting.updateWorkspaces (f := fun r => { r with state := .running }) hnd hr hp ?_ rfl ?_ rfl
    rfl ?_
  · exact fun r' hp' => (isProvisioning_iff.mp hp').1.trans hid.symm
  · rw [hprovisioning]
    exact WorkspaceState.noConfusion
  · rw [hid]
    exact Database.reports_audit_id rfl ..

lemma audited_applyCreate {row : WorkspaceRow} {reply : Except AgentError Unit}
    (hin : reply = .ok () → ∃ r ∈ s.db.workspaces, isProvisioning row.id r = true) :
    Audited s (s.applyCreate row reply) := by
  cases reply with
  | error e => exact .inl (.keep rfl (Database.reports_audit_other (by decide) ..))
  | ok => exact audited_running hnd (hin rfl)

lemma audited_applyStatus {row : WorkspaceRow} {reply : Except AgentError RuntimeState}
    (hin : ∀ state, reply = .ok state →
      (state = .running → row.state = .provisioning →
        ∃ r ∈ s.db.workspaces, isProvisioning row.id r = true) ∧
      (state ≠ .running → ∃ r ∈ s.db.workspaces, isStarted row.id r = true)) :
    Audited s (s.applyStatus row reply) := by
  cases reply with
  | error e => exact .inl (.keep rfl (Database.reports_audit_other (by decide) ..))
  | ok state =>
    obtain ⟨hrunning, hlost⟩ := hin state rfl
    simp only [applyStatus]
    split
    · rename_i hboth
      exact audited_running hnd (hrunning hboth.1 hboth.2)
    · split
      · rename_i hne
        obtain ⟨r, hr, hp⟩ := hlost hne
        obtain ⟨hid, hstarted⟩ := isStarted_iff.mp hp
        refine .inr ⟨r.id, .failed, ?_⟩
        refine Reporting.updateWorkspaces (f := fun r => { r with
          state := .failed
          stoppedAt := some s.now
          failure := some "The workspace process ended unexpectedly; please retry" })
          hnd hr hp ?_ rfl ?_ rfl rfl ?_
        · exact fun r' hp' => (isStarted_iff.mp hp').1.trans hid.symm
        · intro hfailed
          rw [hfailed] at hstarted
          cases hstarted
        · rw [hid]
          exact Database.reports_audit_id rfl ..
      · exact .inl (.refl s)

theorem audited_step {a : Action} (ha : s.inTime a) (hs : step config capabilities s a = some s') :
    Audited s s' := by
  cases a with
  | clock now =>
    cases hs
    exact .inl (.keep rfl rfl)
  | create wallet ipHash storage id volumeId =>
    simp only [step] at hs
    split at hs
    · cases hs
      have hdrawn : Quiet s { s with uuids := id :: volumeId :: s.uuids } := .keep rfl rfl
      exact .inl (hdrawn.trans quiet_create)
    · cases hs
  | stopCurrent wallet =>
    cases hs
    exact .inl (quiet_stopCurrent s wallet)
  | stopReply operation reply => exact audited_stopReply hnd hs
  | stopClear operation =>
    simp only [step, stopClear] at hs
    split at hs
    · cases hs
    · split at hs
      · cases hs
        exact .inl (.keep rfl rfl)
      · cases hs
  | stopCurrentResume operation => exact .inl (quiet_stopCurrentResume hs)
  | reconcile =>
    cases hs
    exact .inl (quiet_reconcile config s)
  | reconcileStopped => exact .inl (claimsOnly_reconcileStopped hs).quiet
  | statusReply reply =>
    simp only [step, statusReply] at hs
    split at hs
    · rename_i row rest call hpc
      cases hs
      refine Audited.claims (audited_applyStatus hnd fun state hreply => ?_)
        (claimsOnly_checkLoop config rest _)
      subst hreply
      exact ha row rest call hpc
    · cases hs
  | createReply reply =>
    simp only [step, createReply] at hs
    split at hs
    · rename_i row capacity call hpc
      cases hs
      refine Audited.claims (audited_applyCreate hnd fun hreply => ?_)
        (claimsOnly_claimLoop capacity _)
      subst hreply
      exact ha row capacity call hpc
    · cases hs
  | reconcileClear =>
    simp only [step, reconcileClear] at hs
    split at hs
    · cases hs
      exact .inl (.keep rfl rfl)
    · cases hs
  | destroyPersistentVolume wallet =>
    cases hs
    rw [destroyPersistentVolume]
    split
    · exact .inl (.refl s)
    · exact .inl (.keep rfl rfl)
  | destroyReply index reply => exact .inl (quiet_destroyReply hs)
  | maintenance =>
    cases hs
    have hkept : Table.deleteWhere (fun e => e.occurredAt < s.now - retentionMs) s.db.auditEvents =
        s.db.auditEvents := by
      refine List.filter_eq_self.mpr fun e he => ?_
      simpa using ha e he
    refine .inl ⟨?_, fun r hr _ => ⟨r, (Table.mem_deleteWhere.mp hr).1, rfl, rfl⟩⟩
    simp only [Database.reports, maintenance, hkept]

end Steps

/-! ### Runs -/

/-- The service with the history of the transitions of its rows. -/
abbrev recordedStep (config : Config) (capabilities : Option WorkspaceDataCapabilities) :=
  Transition.record (step config capabilities) entered

/-- The log reports the transitions in the order in which they happened. -/
structure Logged (config : Config) (s : Service) (history : List (String × WorkspaceState)) :
    Prop where
  consistent : Consistent config .initial s
  recorded : Recorded s history
  reports : s.db.reports = reported history

lemma Logged.step {history : List (String × WorkspaceState)} {a : Action}
    (h : Logged config s history) (ha : s.inTime a) (hs : step config capabilities s a = some s') :
    Logged config s' (history ++ entered s s') := by
  have hconsistent' := h.consistent.step hs
  refine ⟨hconsistent', h.recorded.step hs h.consistent, ?_⟩
  rw [reported, List.filter_append, ← reported, ← reported]
  rcases audited_step h.consistent.core.ids_nodup ha hs with hquiet | ⟨id, state, hreporting⟩
  · rw [hquiet.reports, hquiet.entered_eq, h.reports, List.append_nil]
  · rw [hreporting.reports, hreporting.entered_eq hconsistent'.core.ids_nodup, h.reports]

lemma logged_initial : Logged config .initial [] := by
  refine ⟨consistent_initial, ⟨List.nodup_nil, ?_, ?_⟩, rfl⟩
  · intro x hx
    cases hx
  · intro x hx
    cases hx

/-- In a run in which every answer of the agent comes in time, the log agrees with the history. -/
theorem auditAgrees_of_inTime {history : List (String × WorkspaceState)}
    (h : Transition.Leads (recordedStep config capabilities) (fun t a => t.1.inTime a) (.initial, [])
      (s, history)) : AuditAgrees s history := by
  have hlogged : Logged config s history := by
    refine Transition.Leads.invariant (fun t => Logged config t.1 t.2) h logged_initial ?_
    intro t a t' ht ha hs
    obtain ⟨hstep, hhistory⟩ := Transition.record_eq_some.mp hs
    rw [hhistory]
    exact ht.step ha hstep
  exact auditAgrees_of_reports hlogged.recorded.nodup hlogged.reports

theorem auditAgrees_running :
    ∃ s, Transition.exec (recordedStep .default none) (.initial, [])
        [.create "0xAb" "network" none "w1" "v1", .createReply (.ok ())] =
          some (s, [("w1", .provisioning), ("w1", .running)]) ∧
      AuditAgrees s [("w1", .provisioning), ("w1", .running)] := by
  have hrun : ∃ t s, recordedStep .default none (.initial, [])
        (.create "0xAb" "network" none "w1" "v1") = some (t, [("w1", .provisioning)]) ∧
      t.inTime (.createReply (.ok ())) ∧
      recordedStep .default none (t, [("w1", .provisioning)]) (.createReply (.ok ())) =
        some (s, [("w1", .provisioning), ("w1", .running)]) := by
    refine ⟨_, _, rfl, ?_, rfl⟩
    intro row capacity call hpc
    cases hpc
    exact ⟨_, List.mem_cons_self, rfl⟩
  obtain ⟨t, s, hfirst, hin, hsecond⟩ := hrun
  have hallowed : Service.initial.inTime (.create "0xAb" "network" none "w1" "v1") := trivial
  have hleads : Transition.Leads (recordedStep .default none) (fun t a => t.1.inTime a) (.initial, [])
      (s, [("w1", .provisioning), ("w1", .running)]) :=
    .tail (.single hallowed hfirst) hin hsecond
  refine ⟨s, ?_, auditAgrees_of_inTime hleads⟩
  simp only [Transition.exec, hfirst, hsecond]

/-- The owner stops a workspace while `agent.create` is in flight: the answer finds its row stopping, and
the log reports a workspace running that never was. -/
theorem not_auditAgrees_stop_during_create :
    ¬∀ s history, Transition.Leads (recordedStep .default none) (fun _ a => a ≠ .maintenance)
      (.initial, []) (s, history) → AuditAgrees s history := by
  intro hclaim
  have hrun : ∃ t u s, recordedStep .default none (.initial, [])
        (.create "0xAb" "network" none "w1" "v1") = some (t, [("w1", .provisioning)]) ∧
      recordedStep .default none (t, [("w1", .provisioning)]) (.stopCurrent "0xab") =
        some (u, [("w1", .provisioning), ("w1", .stopping)]) ∧
      recordedStep .default none (u, [("w1", .provisioning), ("w1", .stopping)])
        (.createReply (.ok ())) = some (s, [("w1", .provisioning), ("w1", .stopping)]) ∧
      s.auditCount "workspace.running" "w1" = 1 := ⟨_, _, _, rfl, rfl, rfl, by decide⟩
  obtain ⟨t, u, s, hfirst, hsecond, hthird, hcount⟩ := hrun
  have hleads : Transition.Leads (recordedStep .default none) (fun _ a => a ≠ .maintenance)
      (.initial, []) (s, [("w1", .provisioning), ("w1", .stopping)]) :=
    .tail (.tail (.single Action.noConfusion hfirst) Action.noConfusion hsecond) Action.noConfusion
      hthird
  have hcounts := (hclaim _ _ hleads).counts "w1" .running "workspace.running" rfl
  rw [hcount] at hcounts
  exact absurd hcounts (by decide)

end Service

end Bloom
