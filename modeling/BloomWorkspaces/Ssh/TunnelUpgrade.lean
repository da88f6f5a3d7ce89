import BloomWorkspaces.Control.TerminalAdmission
import BloomWorkspaces.Ssh.Leases

/-!
# Upgrades of SSH tunnels

The upgrade handler of the agent over its `SshLeaseManager`. A stream goes from `openTunnel` to the callback
of `handleUpgrade`, which connects it with a WebSocket. The library does not call back for an upgrade that
it refuses, and the handler has no hold of the stream there: the stream stays in the set of its lease.
-/

namespace Bloom

def TunnelStream.flowsFor (leaseId : String) (t : TunnelStream) : Bool :=
  t.state = .flowing && t.leaseId = leaseId

lemma TunnelStream.flowsFor_iff {leaseId : String} {t : TunnelStream} :
    t.flowsFor leaseId = true ↔ t.state = .flowing ∧ t.leaseId = leaseId := by
  simp [flowsFor]

lemma TunnelStream.flowsFor_of_ne {leaseId : String} {t : TunnelStream} (h : t.state ≠ .flowing) :
    t.flowsFor leaseId = false := by
  simp [flowsFor, h]

namespace LeaseManager

/-- The stream is there and has neither ended nor been destroyed. -/
def flows (s : LeaseManager) (stream : ℕ) : Bool :=
  s.streams.any fun t => t.id = stream && t.state = .flowing

def flowingIds (s : LeaseManager) (leaseId : String) : List ℕ :=
  (s.streams.filter (·.flowsFor leaseId)).map (·.id)

/-- The set of each lease holds the streams of this lease that flow. -/
structure Linked (s : LeaseManager) : Prop where
  ids : (s.streams.map (·.id)).Nodup
  leased : ∀ t ∈ s.streams, t.leaseId ∈ s.records.map (·.leaseId)
  active : ∀ r ∈ s.records, r.active = s.flowingIds r.leaseId

/-- No stream is added and none flows again. -/
structure Settles (s s' : LeaseManager) : Prop where
  ids : s'.streams.map (·.id) = s.streams.map (·.id)
  flowing : ∀ t ∈ s'.streams, t.state = .flowing → t ∈ s.streams

variable {settings : LeaseSettings} {s s' s'' : LeaseManager}

lemma Settles.refl (s : LeaseManager) : Settles s s := ⟨rfl, fun _ ht _ => ht⟩

lemma Settles.trans (h : Settles s s') (h' : Settles s' s'') : Settles s s'' where
  ids := h'.ids.trans h.ids
  flowing t ht hflowing := h.flowing t (h'.flowing t ht hflowing) hflowing

lemma linked_initial : initial.Linked where
  ids := List.nodup_nil
  leased := by simp [initial]
  active := by simp [initial]

/-- Ending streams takes them out of the flowing ones. -/
lemma filter_setStreams {streams : List TunnelStream} (p : TunnelStream → Bool) {state : StreamState}
    (hstate : state ≠ .flowing) (leaseId : String) :
    ((Table.updateWhere p (fun t => { t with state := state }) streams).filter
        (·.flowsFor leaseId)).map (·.id) =
      (streams.filter fun t => t.flowsFor leaseId && !p t).map (·.id) := by
  induction streams with
  | nil => rfl
  | cons t rest ih =>
    simp only [Table.updateWhere, List.map_cons] at ih ⊢
    by_cases hp : p t = true
    · have hended : ({ t with state := state } : TunnelStream).flowsFor leaseId = false :=
        TunnelStream.flowsFor_of_ne hstate
      rw [if_pos hp, List.filter_cons_of_neg (by simp [hended]), List.filter_cons_of_neg (by simp [hp])]
      exact ih
    · rw [if_neg hp]
      by_cases hflowing : t.flowsFor leaseId = true
      · rw [List.filter_cons_of_pos hflowing, List.filter_cons_of_pos (by simp [hflowing, hp]),
          List.map_cons, List.map_cons, ih]
      · rw [List.filter_cons_of_neg hflowing, List.filter_cons_of_neg (by simp [hflowing])]
        exact ih

lemma settles_setStreams (p : TunnelStream → Bool) {state : StreamState} (hstate : state ≠ .flowing) :
    Settles s (s.setStreams p state) where
  ids := Table.map_updateWhere s.streams fun _ => rfl
  flowing t' ht' hflowing := by
    obtain ⟨t, ht, rfl⟩ := Table.mem_updateWhere.mp ht'
    by_cases hp : p t = true
    · rw [if_pos hp] at hflowing
      exact absurd hflowing hstate
    · rw [if_neg hp]
      exact ht

/-! ### Revoking -/

lemma settles_revokeTrusted (s : LeaseManager) (leaseId : String) :
    Settles s (s.revokeTrusted leaseId) := by
  rcases revokeTrusted_cases s leaseId with ⟨-, heq⟩ | ⟨lease, -, heq⟩
  · rw [heq]
    exact Settles.refl s
  · rw [heq]
    have hset := settles_setStreams (s := s) (fun t => t.id ∈ lease.active)
      (show StreamState.destroyed ≠ .flowing by simp)
    exact ⟨hset.ids, hset.flowing⟩

lemma settles_revokeEach (p : LeaseRecord → Bool) (s : LeaseManager) :
    Settles s (s.revokeEach p) := by
  rw [revokeEach]
  generalize s.records.filter (fun r => r.live && p r) = leases
  induction leases generalizing s with
  | nil => exact Settles.refl s
  | cons lease rest ih =>
    exact (settles_revokeTrusted s lease.leaseId).trans (ih (s.revokeTrusted lease.leaseId))

/-- Streams keep the leases that they have been opened for. -/
lemma leased_of_setStreams {p : TunnelStream → Bool} {state : StreamState}
    (h : s.Linked) {t' : TunnelStream} (ht' : t' ∈ (s.setStreams p state).streams) :
    t'.leaseId ∈ s.records.map (·.leaseId) := by
  obtain ⟨t, ht, rfl⟩ := Table.mem_updateWhere.mp ht'
  split_ifs
  · exact h.leased t ht
  · exact h.leased t ht

lemma Linked.revokeTrusted (h : s.Linked) (leaseId : String) : (s.revokeTrusted leaseId).Linked := by
  have hids := (revokeTrusted_calls s leaseId).2.2
  have hsettles := settles_revokeTrusted s leaseId
  rcases revokeTrusted_cases s leaseId with ⟨-, heq⟩ | ⟨lease, hget, heq⟩
  · rw [heq]
    exact h
  obtain ⟨hmem, -, hid⟩ := get_eq_some hget
  have hlease : lease.active = s.flowingIds leaseId := by
    rw [← hid]
    exact h.active lease hmem
  refine ⟨?_, fun t' ht' => ?_, fun r' hr' => ?_⟩
  · rw [hsettles.ids]
    exact h.ids
  · rw [hids]
    rw [heq] at ht'
    exact leased_of_setStreams h ht'
  · rw [heq] at hr' ⊢
    obtain ⟨r, hr, rfl⟩ := Table.mem_updateWhere.mp hr'
    rw [flowingIds, filter_setStreams _ (by simp)]
    by_cases hthis : r.leaseId = leaseId
    · rw [if_pos (by simpa using hthis)]
      symm
      rw [List.map_eq_nil_iff, List.filter_eq_nil_iff]
      intro t ht hkept
      simp only [Bool.and_eq_true, Bool.not_eq_true', decide_eq_false_iff_not, hlease, hthis] at hkept
      exact hkept.2 (List.mem_map_of_mem (List.mem_filter.mpr ⟨ht, hkept.1⟩))
    · rw [if_neg (by simpa using hthis), h.active r hr, flowingIds]
      congr 1
      refine List.filter_congr fun t ht => ?_
      by_cases hflowing : t.flowsFor r.leaseId = true
      · have hout : t.id ∉ lease.active := by
          rw [hlease]
          intro hin
          obtain ⟨t', ht', hsame⟩ := List.mem_map.mp hin
          obtain ⟨hstream, hstate⟩ := List.mem_filter.mp ht'
          obtain rfl := Table.eq_of_key_eq h.ids hstream ht hsame
          rw [TunnelStream.flowsFor_iff] at hflowing hstate
          exact hthis (hflowing.2.symm.trans hstate.2)
        simp [hflowing, hout]
      · simp [hflowing]

lemma Linked.revokeEach (h : s.Linked) (p : LeaseRecord → Bool) : (s.revokeEach p).Linked := by
  rw [LeaseManager.revokeEach]
  generalize s.records.filter (fun r => r.live && p r) = leases
  induction leases generalizing s with
  | nil => exact h
  | cons lease rest ih => exact ih (h.revokeTrusted lease.leaseId)

/-! ### Issuing -/

lemma settles_register (settings : LeaseSettings) (s : LeaseManager) (order : CertificateOrder)
    (signed : Option SignedWorkspaceCertificate) (leaseId accessToken : String) :
    Settles s (register settings s order signed leaseId accessToken) := by
  cases signed with
  | none => exact Settles.refl s
  | some certificate =>
    rw [register]
    split_ifs
    · have hsettles := settles_revokeEach
        (fun r => r.workspaceId = order.workspaceId && r.mode = order.mode) s
      exact ⟨hsettles.ids, hsettles.flowing⟩
    · exact Settles.refl s

lemma Linked.register {order : CertificateOrder} (h : s.Linked)
    (signed : Option SignedWorkspaceCertificate) {leaseId accessToken : String}
    (hfresh : leaseId ∉ s.records.map (·.leaseId)) :
    (register settings s order signed leaseId accessToken).Linked := by
  cases signed with
  | none => exact h
  | some certificate =>
    rw [LeaseManager.register]
    split_ifs
    · have hrevoked := h.revokeEach fun r => r.workspaceId = order.workspaceId && r.mode = order.mode
      rw [← (revokeEach_calls (fun r => r.workspaceId = order.workspaceId && r.mode = order.mode) s).2.2]
        at hfresh
      refine ⟨hrevoked.ids, fun t ht => ?_, fun r hr => ?_⟩
      · rw [List.map_append]
        exact List.mem_append_left _ (hrevoked.leased t ht)
      · rcases List.mem_append.mp hr with hold | hnew
        · exact hrevoked.active r hold
        · rw [List.mem_singleton.mp hnew]
          symm
          refine List.map_eq_nil_iff.mpr (List.filter_eq_nil_iff.mpr fun t ht hflowing => ?_)
          have hleased := hrevoked.leased t ht
          rw [(TunnelStream.flowsFor_iff.mp hflowing).2] at hleased
          exact hfresh hleased
    · exact h

/-! ### Tunnels -/

/-- An update that keeps the ids and the sets of the records. -/
lemma Linked.updateRecord (h : s.Linked) (leaseId : String) (f : LeaseRecord → ℕ) :
    (s.updateRecord leaseId fun r => { r with pending := f r }).Linked := by
  refine ⟨h.ids, fun t ht => ?_, fun r' hr' => ?_⟩
  · rw [LeaseManager.updateRecord, (keepsScope_pending _).map_leaseId]
    exact h.leased t ht
  · obtain ⟨r, hr, rfl⟩ := Table.mem_updateWhere.mp hr'
    have hactive := h.active r hr
    split_ifs
    · exact hactive
    · exact hactive

/-- A new stream that is not to flow. -/
lemma Linked.addStream (h : s.Linked) {t : TunnelStream} (ht : t.state ≠ .flowing)
    (hfresh : t.id ∉ s.streams.map (·.id)) (hscope : t.leaseId ∈ s.records.map (·.leaseId)) :
    Linked { s with streams := s.streams ++ [t] } := by
  refine ⟨?_, fun t' ht' => ?_, fun r hr => ?_⟩
  · rw [List.map_append]
    exact List.nodup_append'.mpr ⟨h.ids, List.nodup_singleton _, List.disjoint_singleton.mpr hfresh⟩
  · rcases List.mem_append.mp ht' with hold | hnew
    · exact h.leased t' hold
    · rw [List.mem_singleton.mp hnew]
      exact hscope
  · rw [h.active r hr, flowingIds, flowingIds, List.filter_append,
      List.filter_cons_of_neg (by simp [TunnelStream.flowsFor, ht]), List.filter_nil, List.append_nil]

/-- What `attachTunnel` does with the stream that it is given. -/
lemma attachTunnel_cases (s : LeaseManager) (leaseId : String) (id : ℕ) (now : ℤ) :
    s.attachTunnel leaseId (some id) now =
        { s.updateRecord leaseId (fun r => { r with pending := r.pending - 1 }) with
          streams := s.streams ++ [⟨id, leaseId, .destroyed⟩] } ∨
      ∃ lease ∈ s.records, lease.leaseId = leaseId ∧ s.attachTunnel leaseId (some id) now =
        { (s.updateRecord leaseId fun r => { r with pending := r.pending - 1 }).updateRecord leaseId
            fun r => { r with active := r.active ++ [id] } with
          streams := s.streams ++ [⟨id, leaseId, .flowing⟩] } := by
  rw [attachTunnel]
  split
  · exact .inl rfl
  · rename_i lease hget
    split_ifs
    · exact .inl rfl
    · obtain ⟨hmem, -, hid⟩ := get_eq_some hget
      obtain ⟨r, hr, hlease⟩ := Table.mem_updateWhere.mp hmem
      refine .inr ⟨r, hr, ?_, rfl⟩
      rw [← hid, hlease]
      split_ifs <;> rfl

lemma Linked.attachTunnel (h : s.Linked) {leaseId : String}
    (hscope : leaseId ∈ s.records.map (·.leaseId)) {stream : Option ℕ}
    (hfresh : ∀ id, stream = some id → id ∉ s.streams.map (·.id)) (now : ℤ) :
    (s.attachTunnel leaseId stream now).Linked := by
  have hreturned := h.updateRecord leaseId fun r => r.pending - 1
  have hids : (s.updateRecord leaseId fun r => { r with pending := r.pending - 1 }).records.map
      (·.leaseId) = s.records.map (·.leaseId) := (keepsScope_pending _).map_leaseId _ _
  cases stream with
  | none => exact hreturned
  | some id =>
    have hnew := hfresh id rfl
    rcases attachTunnel_cases s leaseId id now with heq | ⟨lease, hlease, hid, heq⟩
    · rw [heq]
      refine hreturned.addStream (by simp) hnew ?_
      rw [hids]
      exact hscope
    · rw [heq]
      refine ⟨?_, fun t ht => ?_, fun r' hr' => ?_⟩
      · rw [List.map_append]
        exact List.nodup_append'.mpr ⟨h.ids, List.nodup_singleton _, List.disjoint_singleton.mpr hnew⟩
      · rw [LeaseManager.updateRecord, (keepsScope_active _).map_leaseId, hids]
        rcases List.mem_append.mp ht with hold | hlast
        · exact h.leased t hold
        · rw [List.mem_singleton.mp hlast]
          exact hscope
      · obtain ⟨r, hr, rfl⟩ := Table.mem_updateWhere.mp hr'
        have hactive := hreturned.active r hr
        by_cases hthis : r.leaseId = leaseId
        · rw [if_pos (by simpa using hthis)]
          show r.active ++ [id] = flowingIds _ r.leaseId
          rw [hactive, flowingIds, flowingIds, List.filter_append,
            List.filter_cons_of_pos (by simp [TunnelStream.flowsFor, hthis]), List.filter_nil,
            List.map_append]
          rfl
        · rw [if_neg (by simpa using hthis), hactive, flowingIds, flowingIds, List.filter_append,
            List.filter_cons_of_neg (by simpa [TunnelStream.flowsFor] using Ne.symm hthis),
            List.filter_nil, List.append_nil]
          rfl

/-! ### The ends of streams -/

lemma settles_release (s : LeaseManager) (stream : ℕ) {state : StreamState}
    (hstate : state ≠ .flowing) : Settles s (s.release stream state) := by
  have hset := settles_setStreams (s := s) (fun t => t.id = stream && t.state ≠ .destroyed) hstate
  exact ⟨hset.ids, hset.flowing⟩

lemma Linked.release (h : s.Linked) (stream : ℕ) {state : StreamState} (hstate : state ≠ .flowing) :
    (s.release stream state).Linked := by
  refine ⟨?_, fun t' ht' => ?_, fun r' hr' => ?_⟩
  · rw [(settles_release s stream hstate).ids]
    exact h.ids
  · have hleased := leased_of_setStreams h ht'
    obtain ⟨r, hr, hid⟩ := List.mem_map.mp hleased
    rw [← hid]
    show r.leaseId ∈ (s.records.map _).map _
    rw [List.map_map]
    exact List.mem_map_of_mem hr
  · obtain ⟨r, hr, rfl⟩ := List.mem_map.mp hr'
    show r.active.filter (· ≠ stream) = _
    rw [h.active r hr, flowingIds, flowingIds, LeaseManager.release, setStreams,
      filter_setStreams _ hstate, List.filter_map, List.filter_filter]
    congr 1
    refine List.filter_congr fun t _ => ?_
    by_cases hflowing : t.state = .flowing
    · by_cases hid : t.id = stream
      · simp [hflowing, hid]
      · simp [hid]
    · simp [TunnelStream.flowsFor_of_ne hflowing]

/-! ### Steps -/

/-- The events of the calls and the timers that have no part in an upgrade. -/
def Event.isOutsideUpgrade : Event → Bool
  | .openTunnel .. => false
  | .connected .. => false
  | _ => true

lemma Linked.setCalls (h : s.Linked) (issued : ℕ) (issuing : List CertificateOrder)
    (opening : List (ℕ × String)) (stopped : Bool) :
    Linked { s with issued := issued, issuing := issuing, opening := opening, stopped := stopped } :=
  ⟨h.ids, h.leased, h.active⟩

lemma settles_setCalls (s : LeaseManager) (issued : ℕ) (issuing : List CertificateOrder)
    (opening : List (ℕ × String)) (stopped : Bool) :
    Settles s { s with issued := issued, issuing := issuing, opening := opening, stopped := stopped } :=
  ⟨rfl, fun _ ht _ => ht⟩

lemma Linked.step_outside {event : Event} (h : s.Linked) (hevent : event.isOutsideUpgrade = true)
    (hstep : step settings s event = some s') : s'.Linked ∧ Settles s s' := by
  cases event with
  | issue request now =>
    simp only [step] at hstep
    split at hstep
    · cases hstep
      exact ⟨h.setCalls _ _ _ _, settles_setCalls s _ _ _ _⟩
    · cases hstep
      exact ⟨h.setCalls _ _ _ _, settles_setCalls s _ _ _ _⟩
  | signed call certificate leaseId accessToken =>
    simp only [step] at hstep
    split at hstep
    · cases hstep
    · rename_i order hfound
      split at hstep
      · cases hstep
      · rename_i hguard
        cases hstep
        simp only [Bool.or_eq_true, not_or, List.contains_eq_mem, decide_eq_true_eq] at hguard
        have hcalls := h.setCalls s.issued
          (Table.deleteWhere (fun order => order.call = call) s.issuing) s.opening s.stopped
        exact ⟨hcalls.register certificate hguard.1, (settles_setCalls s _ _ _ _).trans
          (settles_register settings _ order certificate leaseId accessToken)⟩
  | openTunnel => cases hevent
  | connected => cases hevent
  | revoke leaseId workspaceId wallet =>
    simp only [step, Option.some.injEq] at hstep
    rw [← hstep, revoke]
    have hrevoked := And.intro (h.revokeTrusted leaseId) (settles_revokeTrusted s leaseId)
    have hkept := And.intro h (Settles.refl s)
    repeat' split
    all_goals first | exact hkept | exact hrevoked
  | revokeWorkspace workspaceId =>
    simp only [step, Option.some.injEq] at hstep
    rw [← hstep, revokeWorkspace]
    split
    · exact ⟨h, Settles.refl s⟩
    · exact ⟨h.revokeEach _, settles_revokeEach _ s⟩
  | sweepExpired now =>
    cases hstep
    exact ⟨h.revokeEach _, settles_revokeEach _ s⟩
  | expiryTimer leaseId =>
    cases hstep
    exact ⟨h.revokeTrusted leaseId, settles_revokeTrusted s leaseId⟩
  | stop =>
    cases hstep
    have hsettles := settles_revokeEach (fun _ => true) s
    exact ⟨(h.revokeEach fun _ => true).setCalls _ _ _ _, hsettles.ids, hsettles.flowing⟩
  | streamEnds stream =>
    cases hstep
    exact ⟨h.release stream (by simp), settles_release s stream (by simp)⟩
  | streamCloses stream =>
    cases hstep
    exact ⟨h.release stream (by simp), settles_release s stream (by simp)⟩

lemma Linked.step_openTunnel {call : ℕ} {request : SshTunnelRequest} {now : ℤ} (h : s.Linked)
    (hstep : step settings s (.openTunnel call request now) = some s') : s'.Linked ∧ Settles s s' := by
  simp only [step] at hstep
  split at hstep
  · cases hstep
  · split at hstep
    · rename_i herror
      cases hstep
      rcases requestTunnel_error herror with rfl | ⟨leaseId, rfl⟩
      · exact ⟨h, Settles.refl _⟩
      · exact ⟨h.revokeTrusted leaseId, settles_revokeTrusted s leaseId⟩
    · rename_i lease hok
      cases hstep
      obtain ⟨-, -, rfl⟩ := requestTunnel_ok hok
      exact ⟨(h.updateRecord _ _).setCalls _ _ _ _, rfl, fun _ ht _ => ht⟩

/-- The connector's stream comes last, and no other one flows again. -/
lemma Linked.step_connected {call : ℕ} {stream : Option ℕ} {now : ℤ} (hinv : Inv settings s)
    (h : s.Linked) (hstep : step settings s (.connected call stream now) = some s') :
    s'.Linked ∧ (∀ id, stream = some id → id ∉ s.streams.map (·.id)) ∧
      s'.streams.map (·.id) = s.streams.map (·.id) ++ stream.toList ∧
      ∀ t ∈ s'.streams, t.state = .flowing → t ∈ s.streams ∨ stream = some t.id := by
  simp only [step] at hstep
  split at hstep
  · cases hstep
  · rename_i found leaseId hfound
    split at hstep
    · cases hstep
    · rename_i hguard
      cases hstep
      have hfresh : ∀ id, stream = some id → id ∉ s.streams.map (·.id) := by
        rintro id rfl hin
        obtain ⟨t, ht, hid⟩ := List.mem_map.mp hin
        have hnot : ∀ t ∈ s.streams, t.id ≠ id := by simpa using hguard
        exact hnot t ht hid
      have hcalls := h.setCalls s.issued s.issuing
        (Table.deleteWhere (fun waiting => waiting.1 = call) s.opening) s.stopped
      have hleased := hinv.opening _ (List.mem_of_find?_eq_some hfound)
      refine ⟨hcalls.attachTunnel hleased hfresh now, hfresh, ?_, ?_⟩
      · cases stream with
        | none => exact (List.append_nil _).symm
        | some id =>
          rcases attachTunnel_cases _ leaseId id now with heq | ⟨-, -, -, heq⟩
          · rw [heq]
            exact List.map_append
          · rw [heq]
            exact List.map_append
      · intro t ht hflowing
        cases stream with
        | none => exact .inl ht
        | some id =>
          rcases attachTunnel_cases _ leaseId id now with heq | ⟨-, -, -, heq⟩
          · rw [heq] at ht
            rcases List.mem_append.mp ht with hold | hnew
            · exact .inl hold
            · rw [List.mem_singleton.mp hnew] at hflowing
              cases hflowing
          · rw [heq] at ht
            rcases List.mem_append.mp ht with hold | hnew
            · exact .inl hold
            · rw [List.mem_singleton.mp hnew]
              exact .inr rfl

end LeaseManager

/-! ### The handler -/

/-- What the handler reads of a request. -/
structure TunnelUpgrade where
  authorized : Bool
  workspaceId : Option String
  leaseId : String
  mode : Option String
  accessToken : String
  protocols : List String
  deriving DecidableEq, Repr

/-- A stream that `attachSshTunnel` has connected with a WebSocket, `opened` until this is closed. -/
structure SshBridge where
  stream : ℕ
  opened : Bool
  deriving DecidableEq, Repr

/-- The agent with SSH. `calls` are the upgrades so far, `gone` those whose client has closed its socket
and `attaching` those whose stream `openTunnel` has returned and whose callback has still to run. -/
structure TunnelServer where
  manager : LeaseManager
  connections : List (String × String)
  calls : List ℕ
  gone : List ℕ
  attaching : List (ℕ × ℕ)
  bridges : List SshBridge
  rejected : List ℕ
  deriving DecidableEq

namespace TunnelServer

def initial : TunnelServer := ⟨.initial, [], [], [], [], [], []⟩

inductive Event
  | connection (workspaceId wallet : String)
  | disconnection (workspaceId : String)
  | manager (event : LeaseManager.Event)
  | upgrade (call : ℕ) (upgrade : TunnelUpgrade) (now : ℤ)
  | clientCloses (call : ℕ)
  | connected (call : ℕ) (stream : Option ℕ) (now : ℤ)
  | handleUpgrade (call : ℕ) (outcome : UpgradeOutcome)
  | webSocketCloses (stream : ℕ)
  | tunnelFails (stream : ℕ)
  deriving DecidableEq

def rejectUpgrade (s : TunnelServer) (call : ℕ) : TunnelServer :=
  { s with rejected := s.rejected ++ [call] }

/-- The request that the handler makes to `openTunnel`, unless it rejects the upgrade. -/
def tunnelRequest (s : TunnelServer) (upgrade : TunnelUpgrade) : Option SshTunnelRequest :=
  if upgrade.authorized then
    match upgrade.workspaceId with
    | none => none
    | some id =>
      match s.connections.lookup id, upgrade.mode with
      | some wallet, some mode =>
        if (mode = "shell" ∨ mode = "nfs") ∧ "bloom-ssh-v1" ∈ upgrade.protocols then
          some ⟨upgrade.leaseId, id, wallet, mode, upgrade.accessToken⟩
        else none
      | _, _ => none
  else none

/-- The stream that waits for the callback of the upgrade. -/
def attached (s : TunnelServer) (call : ℕ) : Option ℕ :=
  (s.attaching.find? fun waiting => waiting.1 = call).map (·.2)

def closeBridge (s : TunnelServer) (stream : ℕ) : TunnelServer :=
  { s with
    bridges := Table.updateWhere (fun bridge => bridge.stream = stream)
      (fun bridge => { bridge with opened := false }) s.bridges }

/-- The callback of `openTunnel`. A socket that its client has closed does not become a WebSocket. -/
def handleUpgrade (s : TunnelServer) (call stream : ℕ) : UpgradeOutcome → Option TunnelServer
  | .completed =>
    if call ∈ s.gone then none
    else
      some
        { s with
          attaching := s.attaching.erase (call, stream)
          bridges := s.bridges ++ [⟨stream, true⟩] }
  | .refused => some { s with attaching := s.attaching.erase (call, stream) }
  | .threw => some (rejectUpgrade { s with attaching := s.attaching.erase (call, stream) } call)

def step (settings : LeaseSettings) (s : TunnelServer) : Event → Option TunnelServer
  | .connection workspaceId wallet =>
    some { s with connections := (workspaceId, wallet) :: s.connections.filter (·.1 ≠ workspaceId) }
  | .disconnection workspaceId =>
    some { s with connections := s.connections.filter (·.1 ≠ workspaceId) }
  | .manager event =>
    if event.isOutsideUpgrade then
      (s.manager.step settings event).map fun manager => { s with manager := manager }
    else none
  | .upgrade call upgrade now =>
    if call ∈ s.calls then none
    else
      match s.tunnelRequest upgrade with
      | none => some (rejectUpgrade { s with calls := s.calls ++ [call] } call)
      | some request =>
        match s.manager.step settings (.openTunnel call request now) with
        | none => none
        | some manager =>
          if call ∈ manager.opening.map (·.1) then
            some { s with manager := manager, calls := s.calls ++ [call] }
          else some (rejectUpgrade { s with manager := manager, calls := s.calls ++ [call] } call)
  | .clientCloses call => some { s with gone := s.gone ++ [call] }
  | .connected call stream now =>
    match s.manager.step settings (.connected call stream now) with
    | none => none
    | some manager =>
      match stream.filter manager.flows with
      | none => some (rejectUpgrade { s with manager := manager } call)
      | some id => some { s with manager := manager, attaching := s.attaching ++ [(call, id)] }
  | .handleUpgrade call outcome =>
    match s.attached call with
    | none => none
    | some stream => s.handleUpgrade call stream outcome
  | .webSocketCloses stream =>
    if stream ∈ s.bridges.map (·.stream) then some (s.closeBridge stream) else none
  | .tunnelFails stream =>
    if stream ∈ s.bridges.map (·.stream) then
      some { s.closeBridge stream with manager := s.manager.release stream .destroyed }
    else none

/-! ### Live tunnels -/

/-- The open WebSockets over streams of the lease. -/
def liveTunnels (s : TunnelServer) (leaseId : String) : ℕ :=
  s.bridges.countP fun bridge =>
    bridge.opened && s.manager.streams.any fun t => t.id = bridge.stream && t.leaseId = leaseId

/-- Every stream has a live WebSocket or is destroyed, and every lease counts its live tunnels and the
calls that wait for its connector. -/
structure Accounted (s : TunnelServer) : Prop where
  bridged : ∀ t ∈ s.manager.streams,
    t.state = .destroyed ∨ ∃ bridge ∈ s.bridges, bridge.stream = t.id ∧ bridge.opened = true
  active : ∀ r ∈ s.manager.records, r.active.length = s.liveTunnels r.leaseId
  pending : ∀ r ∈ s.manager.records,
    r.pending = s.manager.opening.countP fun waiting => waiting.2 = r.leaseId

/-- No callback is due, and where a WebSocket or its stream has come to its end the other one has
followed. -/
structure Quiescent (s : TunnelServer) : Prop where
  attaching : s.attaching = []
  ended : ∀ t ∈ s.manager.streams, t.state ≠ .ended
  bridges : ∀ bridge ∈ s.bridges, ∀ t ∈ s.manager.streams, t.id = bridge.stream →
    (bridge.opened = true ↔ t.state = .flowing)

/-- The library completes the upgrade if its stream still flows. -/
def completes (s : TunnelServer) : Event → Bool
  | .handleUpgrade call outcome =>
    match s.attached call with
    | none => true
    | some stream => !s.manager.flows stream || outcome = .completed
  | _ => true

/-! ### The streams that the handler has been given -/

def handed (s : TunnelServer) : List ℕ := s.attaching.map (·.2) ++ s.bridges.map (·.stream)

structure Tracks (settings : LeaseSettings) (s : TunnelServer) : Prop where
  inv : s.manager.Inv settings
  linked : s.manager.Linked
  distinct : s.handed.Nodup
  known : ∀ stream ∈ s.handed, stream ∈ s.manager.streams.map (·.id)

/-- No stream that flows has been forgotten. -/
def Holds (s : TunnelServer) : Prop :=
  ∀ t ∈ s.manager.streams, t.state = .flowing → t.id ∈ s.handed

variable {settings : LeaseSettings} {s s' : TunnelServer}

lemma tracks_initial : Tracks settings initial where
  inv := LeaseManager.inv_initial
  linked := LeaseManager.linked_initial
  distinct := List.nodup_nil
  known := by simp [handed, initial]

lemma holds_initial : initial.Holds := by
  intro t ht
  cases ht

/-- Changes of the manager that settle its streams. -/
lemma Tracks.settle (h : s.Tracks settings) {manager : LeaseManager} (hinv : manager.Inv settings)
    (hlinked : manager.Linked) (hsettles : s.manager.Settles manager)
    (hmanager : s'.manager = manager) (hhanded : s'.handed = s.handed) :
    s'.Tracks settings ∧ (s.Holds → s'.Holds) := by
  subst hmanager
  refine ⟨⟨hinv, hlinked, ?_, ?_⟩, fun hholds t ht hflowing => ?_⟩
  · rw [hhanded]
    exact h.distinct
  · rw [hhanded, hsettles.ids]
    exact h.known
  · rw [hhanded]
    exact hholds t (hsettles.flowing t ht hflowing) hflowing

lemma attached_mem {call stream : ℕ} (h : s.attached call = some stream) :
    (call, stream) ∈ s.attaching := by
  obtain ⟨⟨found, stream'⟩, hfound, rfl⟩ := Option.map_eq_some_iff.mp h
  have hcall : found = call := by simpa using List.find?_some hfound
  rw [← hcall]
  exact List.mem_of_find?_eq_some hfound

lemma handed_erase {call stream : ℕ} (h : (call, stream) ∈ s.attaching) :
    s.handed.Perm
      (stream :: ((s.attaching.erase (call, stream)).map (·.2) ++ s.bridges.map (·.stream))) :=
  ((List.perm_cons_erase h).map (·.2)).append_right _

lemma handed_closeBridge (s : TunnelServer) (stream : ℕ) : (s.closeBridge stream).handed = s.handed := by
  have hstreams : (s.closeBridge stream).bridges.map (·.stream) = s.bridges.map (·.stream) :=
    Table.map_updateWhere s.bridges fun _ => rfl
  rw [handed, hstreams]
  rfl

lemma not_mem_of_flows_eq_false {manager : LeaseManager} {stream : ℕ}
    (h : manager.flows stream = false) {t : TunnelStream} (ht : t ∈ manager.streams)
    (hflowing : t.state = .flowing) : t.id ≠ stream := by
  intro hid
  rw [LeaseManager.flows, List.any_eq_false] at h
  exact h t ht (by simp [hid, hflowing])

lemma Tracks.handleUpgrade {call stream : ℕ} {outcome : UpgradeOutcome} (h : s.Tracks settings)
    (hattached : s.attached call = some stream) (hs : s.handleUpgrade call stream outcome = some s') :
    s'.Tracks settings ∧
      ((s.manager.flows stream = true → outcome = .completed) → s.Holds → s'.Holds) := by
  have hperm := handed_erase (attached_mem hattached)
  have hrest := (List.nodup_cons.mp (hperm.nodup_iff.mp h.distinct))
  have hknown : ∀ id ∈ (s.attaching.erase (call, stream)).map (·.2) ++ s.bridges.map (·.stream),
      id ∈ s.manager.streams.map (·.id) := fun id hid =>
    h.known id (hperm.mem_iff.mpr (List.mem_cons_of_mem stream hid))
  -- An upgrade that is not completed leaves the other streams where they are.
  have hleft : (s.manager.flows stream = true → False) → s.Holds → ∀ t ∈ s.manager.streams,
      t.state = .flowing →
        t.id ∈ (s.attaching.erase (call, stream)).map (·.2) ++ s.bridges.map (·.stream) := by
    intro hstopped hholds t ht hflowing
    have hne := not_mem_of_flows_eq_false (Bool.eq_false_iff.mpr hstopped) ht hflowing
    exact (List.mem_cons.mp (hperm.mem_iff.mp (hholds t ht hflowing))).resolve_left hne
  cases outcome with
  | completed =>
    rw [TunnelServer.handleUpgrade] at hs
    split_ifs at hs with hgone
    cases hs
    have hhanded : ({ s with
        attaching := s.attaching.erase (call, stream)
        bridges := s.bridges ++ [⟨stream, true⟩] } : TunnelServer).handed.Perm s.handed := by
      rw [handed, List.map_append, ← List.append_assoc]
      exact (List.perm_append_singleton _ _).trans hperm.symm
    refine ⟨⟨h.inv, h.linked, hhanded.nodup_iff.mpr h.distinct, fun id hid => ?_⟩,
      fun _ hholds t ht hflowing => ?_⟩
    · exact h.known id (hhanded.mem_iff.mp hid)
    · exact hhanded.mem_iff.mpr (hholds t ht hflowing)
  | refused =>
    cases hs
    refine ⟨⟨h.inv, h.linked, hrest.2, hknown⟩, fun hcondition => hleft fun hflows => ?_⟩
    cases hcondition hflows
  | threw =>
    cases hs
    refine ⟨⟨h.inv, h.linked, hrest.2, hknown⟩, fun hcondition => hleft fun hflows => ?_⟩
    cases hcondition hflows

lemma Tracks.connected {call : ℕ} {stream : Option ℕ} {now : ℤ} {manager : LeaseManager}
    (h : s.Tracks settings)
    (hstep : s.manager.step settings (.connected call stream now) = some manager)
    (hmanager : s'.manager = manager) (hbridges : s'.bridges = s.bridges)
    (hattaching : s'.attaching.map (·.2) =
      s.attaching.map (·.2) ++ (stream.filter manager.flows).toList) :
    s'.Tracks settings ∧ (s.Holds → s'.Holds) := by
  subst hmanager
  obtain ⟨hlinked, hfresh, hids, hflowing⟩ := h.linked.step_connected h.inv hstep
  have hperm : s'.handed.Perm (s.handed ++ (stream.filter s'.manager.flows).toList) := by
    rw [handed, handed, hattaching, hbridges, List.append_assoc, List.append_assoc]
    exact List.perm_append_comm.append_left _
  have hnew : ∀ id ∈ (stream.filter s'.manager.flows).toList, stream = some id := by
    intro id hid
    exact (Option.filter_eq_some_iff.mp (Option.mem_toList.mp hid)).1
  refine ⟨⟨h.inv.step hstep, hlinked, ?_, fun id hid => ?_⟩, fun hholds t ht hstate => ?_⟩
  · refine hperm.nodup_iff.mpr (List.nodup_append'.mpr ⟨h.distinct, ?_, fun id hid hid' => ?_⟩)
    · cases stream.filter s'.manager.flows with
      | none => exact List.nodup_nil
      | some id => exact List.nodup_singleton id
    · exact hfresh id (hnew id hid') (h.known id hid)
  · rw [hids]
    rcases List.mem_append.mp (hperm.mem_iff.mp hid) with hold | hlast
    · exact List.mem_append_left _ (h.known id hold)
    · refine List.mem_append_right _ ?_
      rw [hnew id hlast]
      exact List.mem_singleton_self id
  · refine hperm.mem_iff.mpr ?_
    rcases hflowing t ht hstate with hold | rfl
    · exact List.mem_append_left _ (hholds t hold hstate)
    · refine List.mem_append_right _ (Option.mem_toList.mpr ?_)
      have hflows : s'.manager.flows t.id = true :=
        List.any_eq_true.mpr ⟨t, ht, by simp [hstate]⟩
      rw [Option.filter_some, if_pos hflows]

lemma Tracks.step {e : Event} (h : s.Tracks settings) (hs : s.step settings e = some s') :
    s'.Tracks settings ∧ (s.completes e = true → s.Holds → s'.Holds) := by
  have hmoved : s'.manager.Inv settings → s'.manager.Linked → s.manager.Settles s'.manager →
      s'.handed = s.handed → s'.Tracks settings ∧ (s.completes e = true → s.Holds → s'.Holds) :=
    fun hinv hlinked hsettles hhanded =>
      (h.settle hinv hlinked hsettles rfl hhanded).imp_right fun hholds _ => hholds
  have hkept : s'.manager = s.manager → s'.handed = s.handed →
      s'.Tracks settings ∧ (s.completes e = true → s.Holds → s'.Holds) := by
    intro hmanager
    rw [hmanager] at hmoved
    exact hmoved h.inv h.linked (LeaseManager.Settles.refl _)
  cases e with
  | connection workspaceId wallet =>
    cases hs
    exact hkept rfl rfl
  | disconnection workspaceId =>
    cases hs
    exact hkept rfl rfl
  | manager event =>
    simp only [TunnelServer.step] at hs
    split_ifs at hs with hevent
    obtain ⟨manager, hstep, rfl⟩ := Option.map_eq_some_iff.mp hs
    obtain ⟨hlinked, hsettles⟩ := h.linked.step_outside hevent hstep
    exact hmoved (h.inv.step hstep) hlinked hsettles rfl
  | upgrade call upgrade now =>
    simp only [TunnelServer.step] at hs
    split_ifs at hs with hcall
    split at hs
    · cases hs
      exact hkept rfl rfl
    · split at hs
      · cases hs
      · rename_i manager hstep
        obtain ⟨hlinked, hsettles⟩ := h.linked.step_openTunnel hstep
        split_ifs at hs
        · cases hs
          exact hmoved (h.inv.step hstep) hlinked hsettles rfl
        · cases hs
          exact hmoved (h.inv.step hstep) hlinked hsettles rfl
  | clientCloses call =>
    cases hs
    exact hkept rfl rfl
  | connected call stream now =>
    simp only [TunnelServer.step] at hs
    split at hs
    · cases hs
    · rename_i manager hstep
      have hconnected : s'.manager = manager → s'.bridges = s.bridges →
          s'.attaching.map (·.2) = s.attaching.map (·.2) ++ (stream.filter manager.flows).toList →
            s'.Tracks settings ∧
              (s.completes (.connected call stream now) = true → s.Holds → s'.Holds) :=
        fun hmanager hbridges hattaching =>
          (h.connected hstep hmanager hbridges hattaching).imp_right fun hholds _ => hholds
      split at hs
      · rename_i hnone
        cases hs
        rw [hnone] at hconnected
        exact hconnected rfl rfl (List.append_nil _).symm
      · rename_i id hsome
        cases hs
        rw [hsome] at hconnected
        exact hconnected rfl rfl List.map_append
  | handleUpgrade call outcome =>
    simp only [TunnelServer.step] at hs
    split at hs
    · cases hs
    · rename_i stream hattached
      refine (h.handleUpgrade hattached hs).imp_right fun hholds hcompletes => hholds fun hflows => ?_
      simpa [completes, hattached, hflows] using hcompletes
  | webSocketCloses stream =>
    simp only [TunnelServer.step] at hs
    split_ifs at hs
    cases hs
    exact hkept rfl (handed_closeBridge s stream)
  | tunnelFails stream =>
    simp only [TunnelServer.step] at hs
    split_ifs at hs
    cases hs
    exact hmoved (h.inv.release stream (by simp)) (h.linked.release stream (by simp))
      (LeaseManager.settles_release _ stream (by simp)) (handed_closeBridge s stream)

lemma tracks_of_leads {allowed : TunnelServer → Event → Prop}
    (h : Transition.Leads (step settings) allowed initial s) : s.Tracks settings :=
  h.invariant (Tracks settings) tracks_initial fun _ _ _ htracks _ hs => (htracks.step hs).1

lemma holds_of_leads
    (h : Transition.Leads (step settings) (fun s e => s.completes e = true) initial s) : s.Holds := by
  have hboth : s.Tracks settings ∧ s.Holds := by
    refine h.invariant (fun s => s.Tracks settings ∧ s.Holds) ⟨tracks_initial, holds_initial⟩ ?_
    intro t e t' hinv hcompletes hs
    obtain ⟨htracks, hholds⟩ := hinv.1.step hs
    exact ⟨htracks, hholds hcompletes hinv.2⟩
  exact hboth.2

/-! ### Quiescent points -/

/-- The flowing streams of a lease are those of its live tunnels. -/
lemma Tracks.active_eq (h : s.Tracks settings) (hholds : s.Holds) (hquiet : s.Quiescent)
    {r : LeaseRecord} (hr : r ∈ s.manager.records) : r.active.length = s.liveTunnels r.leaseId := by
  have hhanded : s.handed = s.bridges.map (·.stream) := by
    rw [handed, hquiet.attaching, List.map_nil, List.nil_append]
  have hdistinct := h.distinct
  rw [hhanded] at hdistinct
  have hperm : r.active.Perm ((s.bridges.filter fun bridge => bridge.opened &&
      s.manager.streams.any fun t => t.id = bridge.stream && t.leaseId = r.leaseId).map (·.stream)) := by
    refine (List.perm_ext_iff_of_nodup ?_ ?_).mpr fun id => ?_
    · rw [h.linked.active r hr]
      exact (List.filter_sublist.map _).nodup h.linked.ids
    · exact (List.filter_sublist.map _).nodup hdistinct
    · rw [h.linked.active r hr]
      constructor
      · intro hid
        obtain ⟨t, ht, rfl⟩ := List.mem_map.mp hid
        obtain ⟨hstream, hflows⟩ := List.mem_filter.mp ht
        obtain ⟨hflowing, hlease⟩ := TunnelStream.flowsFor_iff.mp hflows
        have hheld := hholds t hstream hflowing
        rw [hhanded] at hheld
        obtain ⟨bridge, hbridge, hsame⟩ := List.mem_map.mp hheld
        refine List.mem_map.mpr ⟨bridge, List.mem_filter.mpr ⟨hbridge, ?_⟩, hsame⟩
        rw [Bool.and_eq_true, List.any_eq_true]
        exact ⟨(hquiet.bridges bridge hbridge t hstream hsame.symm).mpr hflowing, t, hstream,
          by simp [hsame, hlease]⟩
      · intro hid
        obtain ⟨bridge, hbridge, rfl⟩ := List.mem_map.mp hid
        obtain ⟨hmem, hlive⟩ := List.mem_filter.mp hbridge
        rw [Bool.and_eq_true, List.any_eq_true] at hlive
        obtain ⟨hopened, t, hstream, hmatch⟩ := hlive
        simp only [Bool.and_eq_true, decide_eq_true_eq] at hmatch
        obtain ⟨hsame, hlease⟩ := hmatch
        have hflowing := (hquiet.bridges bridge hmem t hstream hsame).mp hopened
        rw [← hsame]
        exact List.mem_map_of_mem (List.mem_filter.mpr
          ⟨hstream, TunnelStream.flowsFor_iff.mpr ⟨hflowing, hlease⟩⟩)
  rw [hperm.length_eq, List.length_map, liveTunnels, List.countP_eq_length_filter]

lemma Tracks.accounted (h : s.Tracks settings) (hholds : s.Holds) (hquiet : s.Quiescent) :
    s.Accounted where
  bridged t ht := by
    cases hstate : t.state with
    | destroyed => exact .inl rfl
    | ended => exact absurd hstate (hquiet.ended t ht)
    | flowing =>
      have hheld := hholds t ht hstate
      rw [handed, hquiet.attaching, List.map_nil, List.nil_append] at hheld
      obtain ⟨bridge, hbridge, hsame⟩ := List.mem_map.mp hheld
      exact .inr ⟨bridge, hbridge, hsame,
        (hquiet.bridges bridge hbridge t ht hsame.symm).mpr hstate⟩
  active r hr := h.active_eq hholds hquiet hr
  pending := h.inv.pending

/-- The stream of an upgrade that is not completed has no WebSocket. -/
lemma Tracks.not_accounted (h : s.Tracks settings) {e : Event} (hnot : s.completes e = false)
    (hs : s.step settings e = some s') : ¬s'.Accounted := by
  intro haccounted
  cases e with
  | handleUpgrade call outcome =>
    obtain ⟨stream, hattached, hflows, houtcome⟩ : ∃ stream, s.attached call = some stream ∧
        s.manager.flows stream = true ∧ outcome ≠ .completed := by
      cases hattached : s.attached call with
      | none => simp [completes, hattached] at hnot
      | some stream => exact ⟨stream, rfl, by simpa [completes, hattached] using hnot⟩
    have hperm := handed_erase (attached_mem hattached)
    have hout := (List.nodup_cons.mp (hperm.nodup_iff.mp h.distinct)).1
    have hkept : s'.manager = s.manager ∧ s'.bridges = s.bridges := by
      simp only [TunnelServer.step, hattached] at hs
      cases outcome with
      | completed => exact absurd rfl houtcome
      | refused =>
        cases hs
        exact ⟨rfl, rfl⟩
      | threw =>
        cases hs
        exact ⟨rfl, rfl⟩
    rw [LeaseManager.flows, List.any_eq_true] at hflows
    obtain ⟨t, ht, hmatch⟩ := hflows
    simp only [Bool.and_eq_true, decide_eq_true_eq] at hmatch
    obtain ⟨hid, hflowing⟩ := hmatch
    rw [← hkept.1] at ht
    rcases haccounted.bridged t ht with hdestroyed | ⟨bridge, hbridge, hsame, -⟩
    · rw [hflowing] at hdestroyed
      cases hdestroyed
    · rw [hkept.2] at hbridge
      refine hout (List.mem_append_right _ ?_)
      rw [← hid, ← hsame]
      exact List.mem_map_of_mem hbridge
  | _ => cases hnot

/-- At every quiescent point of a run in which the library completes the upgrades whose streams flow, each
stream has its WebSocket and each lease counts its live tunnels. An upgrade that it does not complete leaves
a stream that has none. -/
theorem accounted_unless_abandoned (settings : LeaseSettings) :
    (∀ s, Transition.Leads (step settings) (fun s e => s.completes e = true) initial s →
      s.Quiescent → s.Accounted) ∧
      ∀ s e s', Transition.Leads (step settings) Transition.anyStep initial s →
        s.completes e = false → s.step settings e = some s' → ¬s'.Accounted := by
  constructor
  · intro s h hquiet
    exact (tracks_of_leads h).accounted (holds_of_leads h) hquiet
  · intro s e s' h hnot hs
    exact (tracks_of_leads h).not_accounted hnot hs

/-! ### Upgrades of a lease -/

def demoUpgrade : TunnelUpgrade where
  authorized := true
  workspaceId := some LeaseManager.demoWorkspace
  leaseId := "lease"
  mode := some "shell"
  accessToken := LeaseManager.demoToken
  protocols := ["bloom-ssh-v1"]

/-- A lease is issued for a workspace with a connection. -/
def demoLease : List Event := [
  .connection LeaseManager.demoWorkspace LeaseManager.demoWallet,
  .manager (.issue LeaseManager.demoRequest 0),
  .manager (.signed 0 (some LeaseManager.demoCertificate) "lease" LeaseManager.demoToken)]

theorem accounted_unless_abandoned_completed :
    ∃ s, Transition.exec (Transition.guard (step LeaseManager.demoSettings) completes) initial
        (demoLease ++ [.upgrade 0 demoUpgrade 1000, .connected 0 (some 7) 1001,
          .handleUpgrade 0 .completed]) = some s ∧
      s.liveTunnels "lease" = 1 ∧ s.Accounted := by
  have hrun : (Transition.exec (Transition.guard (step LeaseManager.demoSettings) completes) initial
      (demoLease ++ [.upgrade 0 demoUpgrade 1000, .connected 0 (some 7) 1001,
        .handleUpgrade 0 .completed])).map
        (fun s => (s.attaching, s.manager.streams, s.bridges)) =
      some ([], [⟨7, "lease", .flowing⟩], [⟨7, true⟩]) := by
    decide +kernel
  obtain ⟨s, hs, hstate⟩ := Option.map_eq_some_iff.mp hrun
  simp only [Prod.mk.injEq] at hstate
  obtain ⟨hattaching, hstreams, hbridges⟩ := hstate
  refine ⟨s, hs, by simp [liveTunnels, hstreams, hbridges], ?_⟩
  refine (accounted_unless_abandoned LeaseManager.demoSettings).1 s
    (Transition.leads_of_exec_guard hs) ⟨hattaching, ?_, ?_⟩
  · rw [hstreams]
    simp
  · rw [hstreams, hbridges]
    simp

/-- Two clients that have closed their sockets before the connector answers use up the two tunnels of the
lease, and the third client is rejected. -/
theorem not_bridged :
    ¬∀ (settings : LeaseSettings) (s : TunnelServer),
      Transition.Leads (step settings) Transition.anyStep initial s → s.Quiescent → s.Accounted := by
  intro hall
  have hrun : (Transition.exec (step LeaseManager.demoSettings) initial
      (demoLease ++ [.upgrade 0 demoUpgrade 1000, .clientCloses 0, .connected 0 (some 7) 1001,
        .handleUpgrade 0 .refused, .upgrade 1 demoUpgrade 1002, .clientCloses 1,
        .connected 1 (some 8) 1003, .handleUpgrade 1 .refused, .upgrade 2 demoUpgrade 1004])).map
        (fun s => (s.attaching, s.manager.streams, s.bridges, s.rejected)) =
      some ([], [⟨7, "lease", .flowing⟩, ⟨8, "lease", .flowing⟩], [], [2]) := by
    decide +kernel
  obtain ⟨s, hs, hstate⟩ := Option.map_eq_some_iff.mp hrun
  simp only [Prod.mk.injEq] at hstate
  obtain ⟨hattaching, hstreams, hbridges, -⟩ := hstate
  have hquiet : s.Quiescent := by
    refine ⟨hattaching, ?_, ?_⟩
    · rw [hstreams]
      simp
    · rw [hbridges]
      simp
  have hbridged := (hall _ s (Transition.leads_of_exec hs) hquiet).bridged ⟨7, "lease", .flowing⟩
    (by rw [hstreams]; exact List.mem_cons_self)
  rw [hbridges] at hbridged
  simp at hbridged

end TunnelServer

end Bloom
