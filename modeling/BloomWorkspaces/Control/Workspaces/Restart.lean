import BloomWorkspaces.Control.Workspaces.Destruction
import BloomWorkspaces.Control.Workspaces.Lifecycle
import BloomWorkspaces.Control.Workspaces.Quotas
import BloomWorkspaces.Control.Workspaces.Unread

/-!
# Ends and restarts of the process

The control plane keeps its promises, maps and sets in memory and its rows in SQLite. The process may end
at any point, also between two statements of one step, and the next one starts on the tables it finds:
what a run guarantees must be kept by every point at which a step can be cut.
-/

namespace Bloom

namespace Service

variable {config : Config} {capabilities : Option WorkspaceDataCapabilities} {s s' t : Service}

/-- What the next process finds: the tables, and none of the calls of the last one. -/
def reopened (s : Service) : Service :=
  { s with
    operations := []
    stopOperations := []
    stopCallers := []
    reconciliation := none
    destroyingVolumes := []
    destroying := [] }

/-! ### The points inside a step -/

/-- Every reconciliation begins with the `UPDATE` that expires rows. -/
def reconcileStages (s : Service) : List Service :=
  if s.reconciliation.isSome then [] else [s.expire]

/-- The transaction of `create` is committed as a whole, then `scheduleReconciliation` runs. -/
def createStages (config : Config) (capabilities : Option WorkspaceDataCapabilities) (s : Service)
    (wallet ipHash : String) (storage : Option StorageMode) (id volumeId : String) : List Service :=
  match createGuard capabilities s wallet (storage.getD .disposable) with
  | .error _ => []
  | .ok () =>
    match transaction (createBody config s.now wallet ipHash (storage.getD .disposable) id volumeId)
        s.db with
    | (.error _, _) => []
    | (.ok row, db) =>
      let committed := { s with db := db, admitted := s.admitted ++ [row] }
      committed :: reconcileStages committed

/-- The service after each statement of a step but the last. Where a row is updated and the update is
audited, the two are statements of their own. An `UPDATE` that is followed by a request is the last
statement of its step: a process that ends between the two has sent what the agent never receives. -/
def stages (config : Config) (capabilities : Option WorkspaceDataCapabilities) (s : Service) :
    Action → List Service
  | .create wallet ipHash storage id volumeId =>
    createStages config capabilities { s with uuids := id :: volumeId :: s.uuids } (toLowerCase wallet)
      ipHash storage id volumeId
  | .stopReply operation reply =>
    (s.stopReply operation reply).toList.map (·.withAudit s.db.auditEvents)
  | .stopCurrentResume operation =>
    match s.operations[operation]? with
    | some ⟨_, _, _, some (.ok ())⟩ =>
      reconcileStages { s with stopCallers := s.stopCallers.erase operation }
    | _ => []
  | .reconcile => s.reconcileStages
  | .statusReply reply =>
    match s.reconciliation with
    | some (.checking row _ _) =>
      [(s.applyStatus row reply).withAudit s.db.auditEvents, s.applyStatus row reply]
    | _ => []
  | .createReply reply =>
    match s.reconciliation with
    | some (.starting row _ _) =>
      [(s.applyCreate row reply).withAudit s.db.auditEvents, s.applyCreate row reply]
    | _ => []
  | .destroyReply index reply =>
    (s.destroyReply index reply).toList.map (·.withAudit s.db.auditEvents)
  | .maintenance => [s.withAudit s.maintenance.db.auditEvents]
  | .clock _ | .stopCurrent _ | .stopClear _ | .reconcileStopped | .reconcileClear
  | .destroyPersistentVolume _ => []

end Service

/-! ### Processes -/

/-- A running control plane: the service and what `agent.health` told it at its start. -/
structure Process where
  capabilities : Option WorkspaceDataCapabilities
  service : Service

inductive ControlEvent
  | run (a : Service.Action)
  | restart (a : Service.Action) (stage : ℕ) (capabilities : Option WorkspaceDataCapabilities)

namespace Process

/-- A step of the service, or a step that is cut at one of its points and a new process. The first thing
a new process does is `recover`, one of the steps of its run. -/
def step (config : Config) (p : Process) : ControlEvent → Option Process
  | .run a => do
    let s ← Service.step config p.capabilities p.service a
    pure { p with service := s }
  | .restart a stage capabilities => do
    let s ← Service.step config p.capabilities p.service a
    let cut ← (p.service :: Service.stages config p.capabilities p.service a ++ [s])[stage]?
    pure ⟨capabilities, cut.reopened⟩

/-- The clock does not go back, across restarts either. -/
def clockForward (p : Process) : ControlEvent → Prop
  | .run a | .restart a _ _ => Service.clockForward p.service a

end Process

/-! ### What a cut step leaves -/

namespace Service

variable {config : Config} {capabilities : Option WorkspaceDataCapabilities} {s s' t : Service}

lemma frame_withAudit {done : String → Prop} (s : Service) (events : List AuditEvent) :
    Frame done s (s.withAudit events) :=
  ⟨rfl, rfl, .refl _, rfl, rfl, rfl, rfl⟩

lemma frame_expire {done : String → Prop} (s : Service) : Frame done s s.expire :=
  .updateWorkspaces s fun _ hr => .stopping (isExpired_iff.mp hr).1

/-- At a point inside a step the service has changed some rows, or it has inserted one, or it has done
everything but the audit. -/
inductive Cut (config : Config) (capabilities : Option WorkspaceDataCapabilities) (s s' : Service) :
    Service → Prop
  | frame {t : Service} (hframe : Frame (fun _ => True) s t)
      (hconsistent : Consistent config .initial s → Consistent config .initial t)
      (hrows : RowsChange s.now s.db.workspaces t.db.workspaces) : Cut config capabilities s s' t
  | inserted {wallet ipHash id volumeId : String} {storageMode : StorageMode} {row : WorkspaceRow}
      {db : Database} {t : Service} (hfresh : s.fresh id volumeId)
      (hguard : createGuard capabilities s wallet storageMode = .ok ())
      (hadmitted : Admitted config s.now wallet ipHash storageMode id volumeId s.db row db)
      (hcut : t = { s with
          db := db, uuids := id :: volumeId :: s.uuids, admitted := s.admitted ++ [row] } ∨
        t = expire { s with
          db := db, uuids := id :: volumeId :: s.uuids, admitted := s.admitted ++ [row] }) :
      Cut config capabilities s s' t
  | unaudited (events : List AuditEvent) : Cut config capabilities s s' (s'.withAudit events)

lemma mem_reconcileStages (h : t ∈ s.reconcileStages) : t = s.expire := by
  rw [reconcileStages] at h
  split at h
  · cases h
  · exact List.mem_singleton.mp h

lemma cut_expire (h : t = s.expire) : Cut config capabilities s s' t := by
  subst h
  refine .frame (frame_expire s) (fun hs => ?_) (rowsChange_expire s)
  exact hs.frame (frame_expire s : Frame (fun _ => True) s s.expire) rfl rfl (sameOperations s) rfl

lemma cut_create {wallet ipHash id volumeId : String} {storage : Option StorageMode}
    (hfresh : s.fresh id volumeId)
    (h : t ∈ createStages config capabilities { s with uuids := id :: volumeId :: s.uuids } wallet ipHash
      storage id volumeId) : Cut config capabilities s s' t := by
  simp only [createStages] at h
  split at h
  · cases h
  · rename_i hguard
    split at h
    · cases h
    · rename_i row db htransaction
      have hadmitted := createBody_ok (Transaction.transaction_ok.mp htransaction)
      refine .inserted hfresh hguard hadmitted ?_
      rcases List.mem_cons.mp h with rfl | hlater
      · exact .inl rfl
      · exact .inr (mem_reconcileStages hlater)

/-- The row is updated, and the update may already be audited. -/
lemma cut_applied {applied : Service} (hframe : Frame (fun _ => True) s applied)
    (hconsistent : Consistent config .initial s → Consistent config .initial applied)
    (hrows : RowsChange s.now s.db.workspaces applied.db.workspaces)
    (h : t ∈ [applied.withAudit s.db.auditEvents, applied]) : Cut config capabilities s s' t := by
  rcases List.mem_cons.mp h with rfl | hlater
  · refine .frame (hframe.trans (frame_withAudit applied _)) (fun hs => ?_) hrows
    exact (hconsistent hs).keep rfl rfl rfl rfl rfl rfl
  · obtain rfl := List.mem_singleton.mp hlater
    exact .frame hframe hconsistent hrows

/-- Every point inside a step. -/
theorem cut_of_mem_stages {a : Action} (hs : step config capabilities s a = some s')
    (h : t ∈ stages config capabilities s a) : Cut config capabilities s s' t := by
  cases a with
  | create wallet ipHash storage id volumeId =>
    simp only [step] at hs
    split at hs
    · rename_i hfresh
      exact cut_create hfresh h
    · cases hs
  | stopReply operation reply =>
    have hs' : s.stopReply operation reply = some s' := hs
    simp only [stages, hs', Option.toList_some, List.map_cons, List.map_nil, List.mem_singleton] at h
    exact h ▸ .unaudited _
  | stopCurrentResume operation =>
    simp only [stages] at h
    split at h
    · have heq := mem_reconcileStages h
      refine .frame (t := t) ?_ (fun hc => ?_) ?_
      · rw [heq]
        exact ⟨rfl, rfl, (frame_expire s).rows, rfl, rfl, rfl, rfl⟩
      · have hexpire := hc.frame (frame_expire s : Frame (fun _ => True) s s.expire) rfl rfl (sameOperations s) rfl
        rw [heq]
        exact hexpire.keep rfl rfl rfl rfl rfl rfl
      · rw [heq]
        exact rowsChange_expire s
    · cases h
  | reconcile => exact cut_expire (mem_reconcileStages h)
  | statusReply reply =>
    simp only [stages] at h
    split at h
    · rename_i row rest call _
      exact cut_applied ((frame_applyStatus s row reply).mono fun _ _ => trivial)
        (fun hc => consistent_applyStatus hc row reply) (rowsChange_applyStatus s row reply) h
    · cases h
  | createReply reply =>
    simp only [stages] at h
    split at h
    · rename_i row capacity call _
      exact cut_applied (frame_applyCreate s row reply)
        (fun hc => consistent_applyCreate hc row reply) (rowsChange_applyCreate s row reply) h
    · cases h
  | destroyReply index reply =>
    have hs' : s.destroyReply index reply = some s' := hs
    simp only [stages, hs', Option.toList_some, List.map_cons, List.map_nil, List.mem_singleton] at h
    exact h ▸ .unaudited _
  | maintenance =>
    obtain rfl := List.mem_singleton.mp h
    exact .frame (frame_withAudit s _) (fun hc => hc.keep rfl rfl rfl rfl rfl rfl) (.refl _)
  | clock now => cases h
  | stopCurrent wallet => cases h
  | stopClear operation => cases h
  | reconcileStopped => cases h
  | reconcileClear => cases h
  | destroyPersistentVolume wallet => cases h

/-! ### The invariant -/

/-- What holds at every point of every step, and so of what a new process finds. -/
structure Safe (config : Config) (s : Service) : Prop where
  consistent : Consistent config .initial s
  limited : Limited config s
  guarded : Guarded s
  stamped : ∀ r ∈ s.db.workspaces, r.Stamped

lemma stamped_of_moves {done : String → Prop} {now : ℕ} {r r' : WorkspaceRow} (h : Moves done now r r')
    (hr : r.Stamped) : r'.Stamped := by
  induction h with
  | refl => exact hr
  | tail _ hm ih => exact hm.stamped ih

lemma Safe.frame (h : Safe config s) (hf : Frame (fun _ => True) s s')
    (hconsistent : Consistent config .initial s') : Safe config s' where
  consistent := hconsistent
  limited := h.limited.frame hf
  guarded := h.guarded.frame hf
  stamped := by
    intro r' hr'
    obtain ⟨r, hr, hm⟩ := hf.rows.exists_of_mem_right hr'
    exact stamped_of_moves hm (h.stamped r hr)

lemma Safe.step {a : Action} (h : Safe config s) (ha : clockForward s a)
    (hs : step config capabilities s a = some s') : Safe config s' :=
  ⟨h.consistent.step hs, h.limited.step ha hs, h.guarded.step hs, stamped_step h.stamped hs⟩

lemma Safe.insertRow {wallet ipHash id volumeId : String} {storageMode : StorageMode}
    {row : WorkspaceRow} {db : Database} (h : Safe config s) (hfresh : s.fresh id volumeId)
    (hguard : createGuard capabilities s wallet storageMode = .ok ())
    (ha : Admitted config s.now wallet ipHash storageMode id volumeId s.db row db) :
    Safe config { s with
      db := db, uuids := id :: volumeId :: s.uuids, admitted := s.admitted ++ [row] } where
  consistent := h.consistent.insertRow hfresh ha
  limited := ⟨h.limited.active.insertRow ha, h.limited.daily.insertRow h.limited.dated ha,
    h.limited.dated.insertRow ha⟩
  guarded := h.guarded.insertRow hguard ha
  stamped := by
    intro r hr
    rw [ha.workspaces] at hr
    rcases List.mem_append.mp hr with hold | hnew
    · exact h.stamped r hold
    · obtain ⟨volume, hrow, -⟩ := ha.volume
      rw [List.mem_singleton.mp hnew, hrow]
      exact ⟨by simp [newWorkspaceRow, WorkspaceState.isActive], by simp [newWorkspaceRow]⟩

lemma Safe.expire (h : Safe config s) : Safe config s.expire :=
  h.frame (frame_expire s)
    (h.consistent.frame (frame_expire s : Frame (fun _ => True) s s.expire) rfl rfl (sameOperations s) rfl)

/-- The invariant holds wherever a step is cut. -/
lemma Safe.cut (h : Safe config s) (hs' : Safe config s') (hcut : Cut config capabilities s s' t) :
    Safe config t := by
  cases hcut with
  | frame hframe hconsistent hrows => exact h.frame hframe (hconsistent h.consistent)
  | inserted hfresh hguard hadmitted hcut =>
    have hinserted := h.insertRow hfresh hguard hadmitted
    rcases hcut with rfl | rfl
    · exact hinserted
    · exact hinserted.expire
  | unaudited events =>
    exact hs'.frame (frame_withAudit s' events) (hs'.consistent.keep rfl rfl rfl rfl rfl rfl)

/-- A new process has no calls that the invariant would have to speak about. -/
lemma Safe.reopened (h : Safe config s) : Safe config s.reopened where
  consistent := by
    refine ⟨⟨?_, h.consistent.core.ids_nodup, h.consistent.core.ids_drawn, h.consistent.core.claims_eq,
      h.consistent.core.claims_nodup, h.consistent.core.sent_begun, ?_⟩, trivial, h.consistent.capacity⟩
    · exact ⟨h.consistent.core.advance.begun, h.consistent.core.advance.claims,
        h.consistent.core.advance.sent⟩
    · intro op hop
      cases hop
  limited := ⟨h.limited.active, h.limited.daily, h.limited.dated.createdAt_le,
    h.limited.dated.stoppedAt_ge, h.limited.dated.recent⟩
  guarded := by
    refine ⟨⟨h.guarded.attached.ids_nodup, h.guarded.attached.owned⟩, h.guarded.live_unique, ?_,
      List.nodup_nil, ?_, ?_, h.guarded.gone⟩
    · intro d hd
      cases hd
    · intro d hd
      cases hd
    · intro d hd
      cases hd
  stamped := h.stamped

lemma safe_initial : Safe config .initial where
  consistent := consistent_initial
  limited := limited_initial
  guarded := guarded_initial
  stamped := by
    intro r hr
    cases hr

/-! ### What a cut step keeps -/

lemma RowEffect.congr (h : RowEffect s s') (hrows : t.db.workspaces = s'.db.workspaces) :
    RowEffect s t := by
  cases h with
  | changed h => exact .changed (hrows ▸ h)
  | inserted row hqueued hstopped hfailure hfresh h =>
    exact .inserted row hqueued hstopped hfailure hfresh (hrows ▸ h)
  | deleted p h => exact .deleted p (hrows.trans h)

lemma Cut.rowEffect {a : Action} (h : Cut config capabilities s s' t)
    (hs : Service.step config capabilities s a = some s') : RowEffect s t ∧ s.uuids ⊆ t.uuids := by
  cases h with
  | frame hframe hconsistent hrows => exact ⟨.changed hrows, hframe.uuids ▸ List.Subset.refl _⟩
  | @inserted wallet ipHash id volumeId storageMode row db t hfresh hguard hadmitted hcut =>
    obtain ⟨volume, hrow, -⟩ := hadmitted.volume
    have hdrawn : s.uuids ⊆ id :: volumeId :: s.uuids := fun x hx =>
      List.mem_cons_of_mem _ (List.mem_cons_of_mem _ hx)
    have heffect : ∀ {rows}, RowsChange s.now db.workspaces rows → t.db.workspaces = rows →
        RowEffect s t := by
      rintro rows hchange rfl
      rw [hadmitted.workspaces] at hchange
      refine .inserted row ?_ ?_ ?_ ?_ hchange
      · rw [hrow]
        rfl
      · rw [hrow]
        rfl
      · rw [hrow]
        rfl
      · rw [hrow]
        exact hfresh.1
    rcases hcut with rfl | rfl
    · exact ⟨heffect (.refl _) rfl, hdrawn⟩
    · have hexpire := rowsChange_expire { s with
        db := db, uuids := id :: volumeId :: s.uuids, admitted := s.admitted ++ [row] }
      exact ⟨heffect hexpire rfl, hdrawn⟩
  | unaudited events =>
    have huuids : s.uuids ⊆ s'.uuids := uuids_subset_step hs
    exact ⟨(step_rowEffect hs).congr rfl, huuids⟩

/-- A volume that is recorded destroyed is so at every point of a step. -/
lemma Cut.destroyed {a : Action} (h : Cut config capabilities s s' t)
    (hs : Service.step config capabilities s a = some s') {v : PersistentVolumeRow}
    (hv : v ∈ s.db.persistentVolumes) (hdestroyed : v.destroyedAt ≠ none) :
    ∃ v' ∈ t.db.persistentVolumes, v'.id = v.id ∧ v'.destroyedAt ≠ none := by
  cases h with
  | frame hframe hconsistent hrows => exact ⟨v, hframe.volumes ▸ hv, rfl, hdestroyed⟩
  | inserted hfresh hguard hadmitted hcut =>
    obtain ⟨volume, -, hchoice⟩ := hadmitted.volume
    obtain ⟨v', hv', hid, hsame⟩ := destroyed_choice hchoice hv
    rcases hcut with rfl | rfl
    · exact ⟨v', hv', hid, hsame ▸ hdestroyed⟩
    · exact ⟨v', hv', hid, hsame ▸ hdestroyed⟩
  | unaudited events => exact destroyed_step hs hv hdestroyed

end Service

/-! ### Runs with restarts -/

namespace Process

open Service

variable {config : Config} {p p' p'' : Process}

/-- An event is a step, or it ends at a point of one. -/
lemma step_cases {e : ControlEvent} (h : p.step config e = some p') (hforward : p.clockForward e) :
    ∃ a s', Service.clockForward p.service a ∧
      Service.step config p.capabilities p.service a = some s' ∧
      (p'.service = s' ∨ ∃ t, p'.service = t.reopened ∧
        (t = p.service ∨ Cut config p.capabilities p.service s' t ∨ t = s')) := by
  cases e with
  | run a =>
    obtain ⟨s', hs, heq⟩ := Option.bind_eq_some_iff.mp h
    cases heq
    exact ⟨a, s', hforward, hs, .inl rfl⟩
  | restart a stage capabilities =>
    obtain ⟨s', hs, hcut⟩ := Option.bind_eq_some_iff.mp h
    obtain ⟨t, ht, heq⟩ := Option.bind_eq_some_iff.mp hcut
    cases heq
    refine ⟨a, s', hforward, hs, .inr ⟨t, rfl, ?_⟩⟩
    have hmem := List.mem_of_getElem? ht
    rcases List.mem_append.mp hmem with hbefore | hlast
    · rcases List.mem_cons.mp hbefore with rfl | hstage
      · exact .inl rfl
      · exact .inr (.inl (cut_of_mem_stages hs hstage))
    · exact .inr (.inr (List.mem_singleton.mp hlast))

lemma safe_step {e : ControlEvent} (h : Safe config p.service) (hforward : p.clockForward e)
    (hs : p.step config e = some p') : Safe config p'.service := by
  obtain ⟨a, s', ha, hstep, hcases⟩ := step_cases hs hforward
  have hs' := h.step ha hstep
  rcases hcases with heq | ⟨t, heq, rfl | hcut | rfl⟩
  · exact heq ▸ hs'
  · exact heq ▸ h.reopened
  · exact heq ▸ (h.cut hs' hcut).reopened
  · exact heq ▸ hs'.reopened

/-- The rows of `s` and its destroyed volumes, seen from a later state. -/
structure Kept (s s' : Service) : Prop where
  carried : Carried s s'
  destroyed : ∀ v ∈ s.db.persistentVolumes, v.destroyedAt ≠ none →
    ∃ v' ∈ s'.db.persistentVolumes, v'.id = v.id ∧ v'.destroyedAt ≠ none

lemma kept_step {s : Service} {e : ControlEvent} (h : Kept s p.service)
    (hdrawn : ∀ r ∈ s.db.workspaces, r.id ∈ s.uuids) (hforward : p.clockForward e)
    (hs : p.step config e = some p') : Kept s p'.service := by
  obtain ⟨a, s', -, hstep, hcases⟩ := step_cases hs hforward
  have hreopened : ∀ {t : Service}, Kept s t → Kept s t.reopened := fun ht =>
    ⟨⟨ht.carried.uuids, ht.carried.rows⟩, ht.destroyed⟩
  have hs' : Kept s s' := by
    refine ⟨h.carried.step hdrawn hstep, fun v hv hgone => ?_⟩
    obtain ⟨v', hv', hid, hgone'⟩ := h.destroyed v hv hgone
    obtain ⟨v'', hv'', hid', hgone''⟩ := destroyed_step hstep hv' hgone'
    exact ⟨v'', hv'', hid'.trans hid, hgone''⟩
  rcases hcases with heq | ⟨t, heq, rfl | hcut | rfl⟩
  · exact heq ▸ hs'
  · exact heq ▸ hreopened h
  · have ht : Kept s t := by
      obtain ⟨heffect, huuids⟩ := hcut.rowEffect hstep
      refine ⟨h.carried.effect hdrawn huuids heffect, fun v hv hgone => ?_⟩
      obtain ⟨v', hv', hid, hgone'⟩ := h.destroyed v hv hgone
      obtain ⟨v'', hv'', hid', hgone''⟩ := hcut.destroyed hstep hv' hgone'
      exact ⟨v'', hv'', hid'.trans hid, hgone''⟩
    exact heq ▸ hreopened ht
  · exact heq ▸ hreopened hs'

/-- What the restarts leave true at `p`, and from `p` on. -/
structure SurvivesRestarts (config : Config) (p : Process) : Prop where
  active : ActiveLimits config p.service.db.workspaces
  daily : DailyLimits config p.service.admitted
  capacity : p.service.claimedCount ≤ config.maxRunning
  startedOnce : p.service.createIds.Nodup
  stamped : ∀ r ∈ p.service.db.workspaces, r.Stamped
  oneLive : ∀ wallet, p.service.db.persistentVolumes.countP
    (fun v => v.wallet = wallet ∧ v.destroyedAt = none) ≤ 1
  owned : ∀ r ∈ p.service.db.workspaces, ∀ id, r.volumeId = some id →
    ∃ v ∈ p.service.db.persistentVolumes, v.id = id ∧ v.wallet = r.wallet
  later : ∀ p', Transition.Leads (step config) clockForward p p' →
    (∀ v ∈ p.service.db.persistentVolumes, v.destroyedAt ≠ none → p'.service.Free v.id) ∧
      ∀ r ∈ p.service.db.workspaces, ∀ r' ∈ p'.service.db.workspaces, r'.id = r.id →
        r'.identity = r.identity ∧ (r.state.isActive = false → r' = r)

/-- Wherever the processes end and as often as they do, the limits and the capacity hold, `agent.create`
is sent at most once for each workspace, and neither a row that has ended nor a volume that is recorded
destroyed comes back. -/
theorem survivesRestarts_of_reachable {capabilities : Option WorkspaceDataCapabilities}
    (h : Transition.Leads (step config) clockForward ⟨capabilities, .initial⟩ p) :
    SurvivesRestarts config p := by
  have hsafe : Safe config p.service :=
    Transition.Leads.invariant (fun q => Safe config q.service) h safe_initial
      fun _ _ _ ht hforward hs => safe_step ht hforward hs
  refine ⟨hsafe.limited.active, hsafe.limited.daily, hsafe.consistent.capacity, ?_, hsafe.stamped,
    hsafe.guarded.countP_live, hsafe.guarded.attached.owned, fun p' hrun => ?_⟩
  · rw [hsafe.consistent.core.claims_eq]
    exact hsafe.consistent.core.claims_nodup
  · have hlater : Safe config p'.service ∧ Kept p.service p'.service := by
      refine Transition.Leads.invariant (fun q => Safe config q.service ∧ Kept p.service q.service) hrun
        ⟨hsafe, .refl hsafe.consistent.core.ids_nodup, fun v hv hgone => ⟨v, hv, rfl, hgone⟩⟩ ?_
      rintro q e q' ⟨hq, hkept⟩ hforward hs
      exact ⟨safe_step hq hforward hs,
        kept_step hkept hsafe.consistent.core.ids_drawn hforward hs⟩
    obtain ⟨hsafe', hkept⟩ := hlater
    refine ⟨fun v hv hgone => ?_, hkept.carried.rows⟩
    obtain ⟨v', hv', hid, hgone'⟩ := hkept.destroyed v hv hgone
    exact hid ▸ hsafe'.guarded.gone v' hv' hgone'

/-- The process ends after the `UPDATE` to `running` and before its audit, and the next one recovers. -/
theorem survivesRestarts_unaudited_running :
    ∃ p : Process, p.service.db.workspaces.map (·.state) = [.running] ∧
      p.service.sent = [.create ⟨"w1", 1800000, "0xab", ⟨.persistent, some "v1", 536870912⟩⟩,
        .status "w1"] ∧
      SurvivesRestarts .default p := by
  let created : ControlEvent := .run (.create "0xAb" "network" (some .persistent) "w1" "v1")
  let cut : ControlEvent := .restart (.createReply (.ok ())) 1 none
  have hrun : ∃ p₁ p₂ p₃ : Process, step .default ⟨none, .initial⟩ created = some p₁ ∧
      p₁.step .default cut = some p₂ ∧ p₂.step .default (.run .reconcile) = some p₃ ∧
      p₃.service.db.workspaces.map (·.state) = [.running] ∧
      p₃.service.sent = [.create ⟨"w1", 1800000, "0xab", ⟨.persistent, some "v1", 536870912⟩⟩,
        .status "w1"] := ⟨_, _, _, rfl, rfl, rfl, rfl, rfl⟩
  obtain ⟨p₁, p₂, p₃, h₁, h₂, h₃, hstate, hsent⟩ := hrun
  have hforward₂ : p₁.clockForward cut := trivial
  have hforward₃ : p₂.clockForward (.run .reconcile) := trivial
  have hrun : Transition.Leads (step .default) clockForward ⟨none, .initial⟩ p₃ :=
    ((Transition.Leads.single (a := created) trivial h₁).tail hforward₂ h₂).tail hforward₃ h₃
  exact ⟨p₃, hstate, hsent, survivesRestarts_of_reachable hrun⟩

end Process

end Bloom
