import BloomWorkspaces.Library.Checked
import BloomWorkspaces.Ssh.LeaseManager

/-!
# Leases are exclusive and bounded

What holds of the records, the calls and the streams of a manager in every state that it reaches.
-/

namespace Bloom

/-- The certificate ends with the workspace lease at the latest, and after the longest SSH lease. -/
def CertificateOrder.WithinLimits (settings : LeaseSettings) (order : CertificateOrder) : Prop :=
  (∃ expiresAt, order.request.workspaceLeaseExpiresAt = some expiresAt ∧
    order.validBefore ≤ expiresAt) ∧
  order.validBefore ≤ order.issuedAt + settings.maxLeaseMs

namespace LeaseRecord

/-- The record has the scope and the bounds of its order, and the hash of the token it was issued. -/
structure Valid (settings : LeaseSettings) (r : LeaseRecord) : Prop where
  withinLimits : r.order.WithinLimits settings
  validBefore_eq : r.validBefore = r.order.validBefore
  workspaceId_eq : r.workspaceId = r.order.workspaceId
  mode_eq : r.mode = r.order.mode
  isAccessToken : LeaseManager.isAccessToken r.accessToken = true
  tokenHash_eq : r.tokenHash = LeaseManager.digestToken settings r.accessToken

end LeaseRecord

namespace LeaseManager

variable {settings : LeaseSettings} {s : LeaseManager}

/-! ### Records -/

structure RecordsOk (settings : LeaseSettings) (records : List LeaseRecord) : Prop where
  ids : (records.map (·.leaseId)).Nodup
  valid : ∀ r ∈ records, r.Valid settings
  sessions : ∀ r ∈ records, r.active.length + r.pending ≤ settings.maxConnections
  unique : ∀ r ∈ records, ∀ r' ∈ records, r.live = true → r'.live = true →
    r.workspaceId = r'.workspaceId → r.mode = r'.mode → r = r'

/-- The parts of a record that no update changes. -/
def KeepsScope (f : LeaseRecord → LeaseRecord) : Prop :=
  ∀ r, (f r).toSignedWorkspaceCertificate = r.toSignedWorkspaceCertificate ∧
    (f r).leaseId = r.leaseId ∧ (f r).workspaceId = r.workspaceId ∧
    (f r).tokenHash = r.tokenHash ∧ (f r).accessToken = r.accessToken ∧ (f r).order = r.order

lemma KeepsScope.valid {f : LeaseRecord → LeaseRecord} (hf : KeepsScope f) {r : LeaseRecord}
    (h : r.Valid settings) : (f r).Valid settings := by
  obtain ⟨hsigned, -, hworkspace, hhash, htoken, horder⟩ := hf r
  exact {
    withinLimits := by rw [horder]; exact h.withinLimits
    validBefore_eq := by rw [hsigned, horder]; exact h.validBefore_eq
    workspaceId_eq := by rw [hworkspace, horder]; exact h.workspaceId_eq
    mode_eq := by rw [hsigned, horder]; exact h.mode_eq
    isAccessToken := by rw [htoken]; exact h.isAccessToken
    tokenHash_eq := by rw [hhash, htoken]; exact h.tokenHash_eq }

lemma KeepsScope.map_leaseId {f : LeaseRecord → LeaseRecord} (hf : KeepsScope f)
    (p : LeaseRecord → Bool) (records : List LeaseRecord) :
    (Table.updateWhere p f records).map (·.leaseId) = records.map (·.leaseId) :=
  Table.map_updateWhere records fun r => (hf r).2.1

/-- An update that keeps the scope and revives no record keeps the records in order, as long as it
stays within the number of sessions. -/
lemma RecordsOk.update {records : List LeaseRecord} {p : LeaseRecord → Bool}
    {f : LeaseRecord → LeaseRecord} (h : RecordsOk settings records) (hf : KeepsScope f)
    (hlive : ∀ r, (f r).live = true → r.live = true)
    (hsessions : ∀ r ∈ records, p r = true →
      (f r).active.length + (f r).pending ≤ settings.maxConnections) :
    RecordsOk settings (Table.updateWhere p f records) := by
  refine ⟨?_, fun r' hr' => ?_, fun r' hr' => ?_, fun r₁ hr₁ r₂ hr₂ => ?_⟩
  · rw [hf.map_leaseId]
    exact h.ids
  · obtain ⟨r, hr, rfl⟩ := Table.mem_updateWhere.mp hr'
    by_cases hp : p r = true
    · rw [if_pos hp]
      exact hf.valid (h.valid r hr)
    · rw [if_neg hp]
      exact h.valid r hr
  · obtain ⟨r, hr, rfl⟩ := Table.mem_updateWhere.mp hr'
    by_cases hp : p r = true
    · rw [if_pos hp]
      exact hsessions r hr hp
    · rw [if_neg hp]
      exact h.sessions r hr
  · obtain ⟨r, hr, rfl⟩ := Table.mem_updateWhere.mp hr₁
    obtain ⟨r', hr', rfl⟩ := Table.mem_updateWhere.mp hr₂
    obtain ⟨hsigned, -, hworkspace, -⟩ := hf r
    obtain ⟨hsigned', -, hworkspace', -⟩ := hf r'
    intro hl hl' hw hm
    have heq : r = r' := by
      refine h.unique r hr r' hr' ?_ ?_ ?_ ?_
      · split_ifs at hl
        · exact hlive r hl
        · exact hl
      · split_ifs at hl'
        · exact hlive r' hl'
        · exact hl'
      · split_ifs at hw <;> simpa only [hworkspace, hworkspace'] using hw
      · split_ifs at hm <;> simpa only [hsigned, hsigned'] using hm
    rw [heq]

/-! ### The invariant -/

structure Inv (settings : LeaseSettings) (s : LeaseManager) : Prop where
  records : RecordsOk settings s.records
  issuing : ∀ order ∈ s.issuing, order.WithinLimits settings
  calls : (s.opening.map (·.1)).Nodup
  opening : ∀ waiting ∈ s.opening, waiting.2 ∈ s.records.map (·.leaseId)
  pending : ∀ r ∈ s.records, r.pending = s.opening.countP fun waiting => waiting.2 = r.leaseId
  flowing : ∀ t ∈ s.streams, t.state = .flowing →
    ∃ r ∈ s.records, r.live = true ∧ r.leaseId = t.leaseId ∧ t.id ∈ r.active

lemma inv_initial : Inv settings initial where
  records := ⟨List.nodup_nil, by simp [initial], by simp [initial], by simp [initial]⟩
  issuing := by simp [initial]
  calls := List.nodup_nil
  opening := by simp [initial]
  pending := by simp [initial]
  flowing := by simp [initial]

lemma get_eq_some {leaseId : String} {lease : LeaseRecord} (h : s.get leaseId = some lease) :
    lease ∈ s.records ∧ lease.live = true ∧ lease.leaseId = leaseId := by
  have hfound := List.find?_some h
  simp only [Bool.and_eq_true, decide_eq_true_eq] at hfound
  exact ⟨List.mem_of_find?_eq_some h, hfound⟩

lemma get_eq_none {leaseId : String} (h : s.get leaseId = none) {r : LeaseRecord}
    (hr : r ∈ s.records) (hlive : r.live = true) : r.leaseId ≠ leaseId := by
  have hnot := List.find?_eq_none.mp h r hr
  simpa [hlive] using hnot

/-! ### Revoking -/

lemma revokeTrusted_cases (s : LeaseManager) (leaseId : String) :
    (s.get leaseId = none ∧ s.revokeTrusted leaseId = s) ∨
      ∃ lease, s.get leaseId = some lease ∧ s.revokeTrusted leaseId =
        { s with
          records := Table.updateWhere (fun r => r.leaseId = leaseId)
            (fun r => { r with live := false, active := [] }) s.records
          streams := Table.updateWhere (fun stream => stream.id ∈ lease.active)
            (fun stream => { stream with state := .destroyed }) s.streams } := by
  cases hget : s.get leaseId with
  | none => exact .inl ⟨rfl, by rw [revokeTrusted, hget]⟩
  | some lease => exact .inr ⟨lease, rfl, by rw [revokeTrusted, hget]; rfl⟩

lemma keepsScope_kill : KeepsScope fun r => { r with live := false, active := [] } :=
  fun _ => ⟨rfl, rfl, rfl, rfl, rfl, rfl⟩

lemma revokeTrusted_calls (s : LeaseManager) (leaseId : String) :
    (s.revokeTrusted leaseId).issuing = s.issuing ∧
      (s.revokeTrusted leaseId).opening = s.opening ∧
      (s.revokeTrusted leaseId).records.map (·.leaseId) = s.records.map (·.leaseId) := by
  rcases revokeTrusted_cases s leaseId with ⟨-, heq⟩ | ⟨lease, -, heq⟩
  · rw [heq]
    exact ⟨rfl, rfl, rfl⟩
  · rw [heq]
    exact ⟨rfl, rfl, keepsScope_kill.map_leaseId _ _⟩

lemma Inv.revokeTrusted (h : Inv settings s) (leaseId : String) :
    Inv settings (s.revokeTrusted leaseId) := by
  obtain ⟨hissuing, hopening, hids⟩ := revokeTrusted_calls s leaseId
  rcases revokeTrusted_cases s leaseId with ⟨-, heq⟩ | ⟨lease, hget, heq⟩
  · rw [heq]
    exact h
  obtain ⟨hmem, hlive, hid⟩ := get_eq_some hget
  refine ⟨?_, ?_, ?_, ?_, ?_, ?_⟩
  · rw [heq]
    refine h.records.update keepsScope_kill (fun r hr => by cases hr) fun r hr _ => ?_
    have hle := h.records.sessions r hr
    simp only [List.length_nil]
    omega
  · rw [hissuing]
    exact h.issuing
  · rw [hopening]
    exact h.calls
  · rw [hopening, hids]
    exact h.opening
  · rw [hopening, heq]
    intro r' hr'
    obtain ⟨r, hr, rfl⟩ := Table.mem_updateWhere.mp hr'
    have hpending := h.pending r hr
    split_ifs <;> exact hpending
  · rw [heq]
    intro t' ht' hflowing
    obtain ⟨t, ht, rfl⟩ := Table.mem_updateWhere.mp ht'
    by_cases hin : t.id ∈ lease.active
    · rw [if_pos (by simpa using hin)] at hflowing
      cases hflowing
    · rw [if_neg (by simpa using hin)] at hflowing ⊢
      obtain ⟨r, hr, hrlive, hrid, hactive⟩ := h.flowing t ht hflowing
      have hne : r.leaseId ≠ leaseId := by
        intro heqId
        have hsame := Table.eq_of_key_eq h.records.ids hr hmem (heqId.trans hid.symm)
        rw [hsame] at hactive
        exact hin hactive
      exact ⟨r, Table.mem_updateWhere.mpr ⟨r, hr, by rw [if_neg (by simpa using hne)]⟩, hrlive,
        hrid, hactive⟩

/-- A record that is live after a revocation was there before, under another id. -/
lemma live_of_revokeTrusted {leaseId : String} {r : LeaseRecord}
    (hr : r ∈ (s.revokeTrusted leaseId).records) (hlive : r.live = true) :
    r ∈ s.records ∧ r.leaseId ≠ leaseId := by
  rcases revokeTrusted_cases s leaseId with ⟨hget, heq⟩ | ⟨lease, hget, heq⟩
  · rw [heq] at hr
    exact ⟨hr, get_eq_none hget hr hlive⟩
  · rw [heq] at hr
    obtain ⟨r₀, hr₀, rfl⟩ := Table.mem_updateWhere.mp hr
    by_cases hid : r₀.leaseId = leaseId
    · rw [if_pos (by simpa using hid)] at hlive
      cases hlive
    · rw [if_neg (by simpa using hid)]
      exact ⟨hr₀, hid⟩

section RevokeEach

variable (p : LeaseRecord → Bool)

lemma Inv.foldl_revokeTrusted (leases : List LeaseRecord) (h : Inv settings s) :
    Inv settings (leases.foldl (fun s r => s.revokeTrusted r.leaseId) s) := by
  induction leases generalizing s with
  | nil => exact h
  | cons lease rest ih => exact ih (h.revokeTrusted lease.leaseId)

lemma Inv.revokeEach (h : Inv settings s) : Inv settings (s.revokeEach p) :=
  h.foldl_revokeTrusted _

lemma foldl_revokeTrusted_calls (leases : List LeaseRecord) (s : LeaseManager) :
    (leases.foldl (fun s r => s.revokeTrusted r.leaseId) s).issuing = s.issuing ∧
      (leases.foldl (fun s r => s.revokeTrusted r.leaseId) s).opening = s.opening ∧
      (leases.foldl (fun s r => s.revokeTrusted r.leaseId) s).records.map (·.leaseId) =
        s.records.map (·.leaseId) := by
  induction leases generalizing s with
  | nil => exact ⟨rfl, rfl, rfl⟩
  | cons lease rest ih =>
    obtain ⟨hissuing, hopening, hids⟩ := revokeTrusted_calls s lease.leaseId
    obtain ⟨hissuing', hopening', hids'⟩ := ih (s.revokeTrusted lease.leaseId)
    exact ⟨hissuing'.trans hissuing, hopening'.trans hopening, hids'.trans hids⟩

lemma revokeEach_calls (s : LeaseManager) :
    (s.revokeEach p).issuing = s.issuing ∧ (s.revokeEach p).opening = s.opening ∧
      (s.revokeEach p).records.map (·.leaseId) = s.records.map (·.leaseId) :=
  foldl_revokeTrusted_calls _ s

lemma live_of_foldl_revokeTrusted {leases : List LeaseRecord} {r : LeaseRecord}
    (hr : r ∈ (leases.foldl (fun s r => s.revokeTrusted r.leaseId) s).records)
    (hlive : r.live = true) : r ∈ s.records ∧ ∀ lease ∈ leases, r.leaseId ≠ lease.leaseId := by
  induction leases generalizing s with
  | nil => exact ⟨hr, fun lease hlease => by cases hlease⟩
  | cons lease rest ih =>
    obtain ⟨hmem, hrest⟩ := ih hr
    obtain ⟨hmem', hne⟩ := live_of_revokeTrusted hmem hlive
    refine ⟨hmem', fun lease' hlease' => ?_⟩
    rcases List.mem_cons.mp hlease' with rfl | htail
    · exact hne
    · exact hrest lease' htail

/-- No lease with `p` is live after the loop. -/
lemma live_of_revokeEach {r : LeaseRecord} (hr : r ∈ (s.revokeEach p).records)
    (hlive : r.live = true) : r ∈ s.records ∧ p r = false := by
  obtain ⟨hmem, hnot⟩ := live_of_foldl_revokeTrusted hr hlive
  refine ⟨hmem, ?_⟩
  by_contra hp
  refine hnot r (List.mem_filter.mpr ⟨hmem, ?_⟩) rfl
  simpa [hlive] using hp

end RevokeEach

/-! ### Issuing -/

lemma orderCertificate_ok {call : ℕ} {request : SshLeaseRequest} {now : ℤ}
    {order : CertificateOrder} (h : orderCertificate settings call request now = .ok order) :
    order.WithinLimits settings ∧ order.call = call := by
  rw [orderCertificate] at h
  obtain ⟨workspaceId, -, h⟩ := Checked.of_bind_ok h
  obtain ⟨wallet, -, h⟩ := Checked.of_bind_ok h
  obtain ⟨mode, -, h⟩ := Checked.of_bind_ok h
  obtain ⟨endpoint, -, h⟩ := Checked.of_bind_ok h
  split at h
  · cases h
  · rename_i expiresAt hexpires
    split_ifs at h with hexpired
    split at h
    · cases h
    · rename_i requested _
      split_ifs at h with hrange hclose
      cases h
      refine ⟨⟨⟨expiresAt, JsNumber.eq_of_safeInteger hexpires, min_le_left _ _⟩, ?_⟩, rfl⟩
      have hle : min expiresAt (now + requested) ≤ now + requested := min_le_right _ _
      show min expiresAt (now + requested) ≤ now + settings.maxLeaseMs
      omega

lemma hasScope_eq {order : CertificateOrder} {signed : SignedWorkspaceCertificate}
    (h : hasScope settings order signed = true) :
    signed.mode = order.mode ∧ signed.validBefore = order.validBefore := by
  simp only [hasScope, Bool.and_eq_true, decide_eq_true_eq] at h
  exact ⟨h.1.1.2, h.2⟩

/-- A record that is alone with its scope and its id may be added. -/
lemma Inv.addRecord {order : CertificateOrder} {signed : SignedWorkspaceCertificate}
    {leaseId accessToken : String} (h : Inv settings s) (horder : order.WithinLimits settings)
    (hscope : hasScope settings order signed = true) (htoken : isAccessToken accessToken = true)
    (hfresh : leaseId ∉ s.records.map (·.leaseId))
    (halone : ∀ r ∈ s.records, r.live = true →
      ¬(r.workspaceId = order.workspaceId ∧ r.mode = order.mode)) :
    Inv settings
      { s with records := s.records ++ [newRecord settings order signed leaseId accessToken] } := by
  obtain ⟨hmode, hvalidBefore⟩ := hasScope_eq hscope
  refine ⟨⟨?_, fun r hr => ?_, fun r hr => ?_, fun r hr r' hr' hl hl' hw hm => ?_⟩, h.issuing,
    h.calls, fun waiting hwaiting => ?_, fun r hr => ?_, fun t ht hflowing => ?_⟩
  · rw [List.map_append]
    exact List.nodup_append'.mpr ⟨h.records.ids, List.nodup_singleton _,
      List.disjoint_singleton.mpr hfresh⟩
  · rcases List.mem_append.mp hr with hold | hnew
    · exact h.records.valid r hold
    · rw [List.mem_singleton.mp hnew]
      exact ⟨horder, hvalidBefore, rfl, hmode, htoken, rfl⟩
  · rcases List.mem_append.mp hr with hold | hnew
    · exact h.records.sessions r hold
    · rw [List.mem_singleton.mp hnew]
      exact Nat.zero_le _
  · rcases List.mem_append.mp hr with hold | hnew
    · rcases List.mem_append.mp hr' with hold' | hnew'
      · exact h.records.unique r hold r' hold' hl hl' hw hm
      · rw [List.mem_singleton.mp hnew'] at hw hm
        exact absurd ⟨hw, hm.trans hmode⟩ (halone r hold hl)
    · rcases List.mem_append.mp hr' with hold' | hnew'
      · rw [List.mem_singleton.mp hnew] at hw hm
        exact absurd ⟨hw.symm, hm.symm.trans hmode⟩ (halone r' hold' hl')
      · rw [List.mem_singleton.mp hnew, List.mem_singleton.mp hnew']
  · rw [List.map_append]
    exact List.mem_append_left _ (h.opening waiting hwaiting)
  · rcases List.mem_append.mp hr with hold | hnew
    · exact h.pending r hold
    · rw [List.mem_singleton.mp hnew]
      symm
      rw [newRecord, List.countP_eq_zero]
      intro waiting hwaiting heq
      have hid : waiting.2 = leaseId := of_decide_eq_true heq
      rw [← hid] at hfresh
      exact hfresh (h.opening waiting hwaiting)
  · obtain ⟨r, hr, hrest⟩ := h.flowing t ht hflowing
    exact ⟨r, List.mem_append_left _ hr, hrest⟩

lemma Inv.register {order : CertificateOrder} (h : Inv settings s)
    (horder : order.WithinLimits settings) (signed : Option SignedWorkspaceCertificate)
    {leaseId accessToken : String} (hfresh : leaseId ∉ s.records.map (·.leaseId))
    (htoken : isAccessToken accessToken = true) :
    Inv settings (register settings s order signed leaseId accessToken) := by
  cases signed with
  | none => exact h
  | some certificate =>
    by_cases hscope : hasScope settings order certificate = true
    · rw [LeaseManager.register, if_pos hscope]
      refine (h.revokeEach _).addRecord horder hscope htoken ?_ fun r hr hlive => ?_
      · rw [(revokeEach_calls _ s).2.2]
        exact hfresh
      · have hother := (live_of_revokeEach _ hr hlive).2
        simpa using hother
    · rw [LeaseManager.register, if_neg hscope]
      exact h

/-! ### Tunnels -/

lemma authorize_ok {request : SshTunnelRequest} {now : ℤ} {s' : LeaseManager} {lease : LeaseRecord}
    (h : authorize settings s request now = (s', .ok lease)) :
    s' = s ∧ s.get request.leaseId = some lease ∧ now < lease.validBefore ∧
      normalizeWorkspaceId request.workspaceId = .ok lease.workspaceId ∧
      normalizeWallet request.wallet = .ok lease.wallet ∧ lease.mode.text = request.mode ∧
      digestToken settings request.accessToken = lease.tokenHash := by
  rw [authorize] at h
  split at h
  · cases h
  · rename_i found hget
    split at h
    · cases h
    · rename_i hexpired
      split at h
      · cases h
      · rename_i id hid
        split at h
        · cases h
        · rename_i hworkspace
          split at h
          · cases h
          · rename_i owner howner
            split at h
            · cases h
            · rename_i hscope
              split at h
              · cases h
              · rename_i htoken
                cases h
                rw [not_or, not_not, not_not] at hscope
                rw [not_not] at hworkspace htoken
                rw [← hworkspace] at hid
                rw [← hscope.1] at howner
                exact ⟨rfl, hget, not_le.mp hexpired, hid, howner, hscope.2, htoken⟩

/-- A refused tunnel leaves the manager as it is, or without the expired lease. -/
lemma authorize_error {request : SshTunnelRequest} {now : ℤ} {s' : LeaseManager} {message : String}
    (h : authorize settings s request now = (s', .error message)) :
    s' = s ∨ ∃ leaseId, s' = s.revokeTrusted leaseId := by
  rw [authorize] at h
  split at h
  · cases h
    exact .inl rfl
  · split at h
    · cases h
      exact .inr ⟨_, rfl⟩
    · left
      split at h
      · cases h
        rfl
      · split at h
        · cases h
          rfl
        · split at h
          · cases h
            rfl
          · split at h
            · cases h
              rfl
            · split at h
              · cases h
                rfl
              · cases h

lemma requestTunnel_error {request : SshTunnelRequest} {now : ℤ} {s' : LeaseManager}
    {message : String} (h : requestTunnel settings s request now = (s', .error message)) :
    s' = s ∨ ∃ leaseId, s' = s.revokeTrusted leaseId := by
  rw [requestTunnel] at h
  split at h
  · rename_i hauthorize
    cases h
    exact authorize_error hauthorize
  · rename_i hauthorize
    split at h
    · cases h
      exact .inl (authorize_ok hauthorize).1
    · cases h

lemma requestTunnel_ok {request : SshTunnelRequest} {now : ℤ} {s' : LeaseManager}
    {lease : LeaseRecord} (h : requestTunnel settings s request now = (s', .ok lease)) :
    authorize settings s request now = (s, .ok lease) ∧
      lease.active.length + lease.pending < settings.maxConnections ∧
      s' = s.updateRecord lease.leaseId fun r => { r with pending := r.pending + 1 } := by
  rw [requestTunnel] at h
  split at h
  · cases h
  · rename_i hauthorize
    split at h
    · cases h
    · rename_i hlimit
      simp only [Prod.mk.injEq, Except.ok.injEq] at h
      obtain ⟨rfl, rfl⟩ := h
      obtain ⟨rfl, -⟩ := authorize_ok hauthorize
      exact ⟨hauthorize, Nat.lt_of_not_le hlimit, rfl⟩

lemma keepsScope_pending (f : LeaseRecord → ℕ) :
    KeepsScope fun r => { r with pending := f r } := fun _ => ⟨rfl, rfl, rfl, rfl, rfl, rfl⟩

lemma keepsScope_active (f : LeaseRecord → List ℕ) :
    KeepsScope fun r => { r with active := f r } := fun _ => ⟨rfl, rfl, rfl, rfl, rfl, rfl⟩

lemma Inv.requestTunnel {request : SshTunnelRequest} {now : ℤ} {s' : LeaseManager}
    {lease : LeaseRecord} {call : ℕ} (h : Inv settings s) (hcall : call ∉ s.opening.map (·.1))
    (hok : requestTunnel settings s request now = (s', .ok lease)) :
    Inv settings { s' with opening := s'.opening ++ [(call, lease.leaseId)] } := by
  obtain ⟨hauthorize, hlimit, rfl⟩ := requestTunnel_ok hok
  obtain ⟨hmem, hlive, -⟩ := get_eq_some (authorize_ok hauthorize).2.1
  refine ⟨?_, h.issuing, ?_, fun waiting hwaiting => ?_, fun r' hr' => ?_, fun t ht hflowing => ?_⟩
  · refine h.records.update (keepsScope_pending _) (fun r hr => hr) fun r hr hid => ?_
    have hsame := Table.eq_of_key_eq h.records.ids hr hmem (of_decide_eq_true hid)
    rw [hsame]
    exact hlimit
  · rw [List.map_append]
    exact List.nodup_append'.mpr ⟨h.calls, List.nodup_singleton _,
      List.disjoint_singleton.mpr hcall⟩
  · rw [updateRecord, (keepsScope_pending _).map_leaseId]
    rcases List.mem_append.mp hwaiting with hold | hnew
    · exact h.opening waiting hold
    · rw [List.mem_singleton.mp hnew]
      exact List.mem_map_of_mem hmem
  · obtain ⟨r, hr, rfl⟩ := Table.mem_updateWhere.mp hr'
    have hpending := h.pending r hr
    rw [List.countP_append, List.countP_singleton]
    by_cases hid : r.leaseId = lease.leaseId
    · simp [hid, hpending, updateRecord]
    · simp [hid, hpending, updateRecord, Ne.symm hid]
  · obtain ⟨r, hr, hrlive, hrid, hactive⟩ := h.flowing t ht hflowing
    refine ⟨_, Table.mem_updateWhere.mpr ⟨r, hr, rfl⟩, ?_⟩
    split_ifs <;> exact ⟨hrlive, hrid, hactive⟩

/-- The call of `openTunnel` gives its place back; its lease has room for one more stream. -/
lemma Inv.returned {call : ℕ} {leaseId : String} (h : Inv settings s)
    (hmem : (call, leaseId) ∈ s.opening) :
    Inv settings (({ s with
        opening := Table.deleteWhere (fun waiting => waiting.1 = call) s.opening } :
        LeaseManager).updateRecord leaseId fun r => { r with pending := r.pending - 1 }) ∧
      ∀ r ∈ s.records, r.leaseId = leaseId →
        r.active.length + 1 + (r.pending - 1) ≤ settings.maxConnections := by
  have hcount : ∀ r ∈ s.records, r.pending =
      (Table.deleteWhere (fun waiting => waiting.1 = call) s.opening).countP
        (fun waiting => waiting.2 = r.leaseId) + if leaseId = r.leaseId then 1 else 0 := by
    intro r hr
    have hdelete := Table.countP_deleteWhere_key h.calls hmem fun waiting => waiting.2 = r.leaseId
    rw [h.pending r hr, hdelete]
    simp
  refine ⟨⟨?_, h.issuing, ?_, fun waiting hwaiting => ?_, fun r' hr' => ?_,
    fun t ht hflowing => ?_⟩, fun r hr hid => ?_⟩
  · refine h.records.update (keepsScope_pending _) (fun r hr => hr) fun r hr _ => ?_
    have hle := h.records.sessions r hr
    show r.active.length + (r.pending - 1) ≤ settings.maxConnections
    omega
  · exact (Table.map_deleteWhere_sublist _ _ _).nodup h.calls
  · rw [updateRecord, (keepsScope_pending _).map_leaseId]
    exact h.opening waiting (Table.mem_deleteWhere.mp hwaiting).1
  · obtain ⟨r, hr, rfl⟩ := Table.mem_updateWhere.mp hr'
    have hpending := hcount r hr
    by_cases hid : r.leaseId = leaseId
    · rw [if_pos hid.symm] at hpending
      rw [if_pos (by simpa using hid)]
      show r.pending - 1 = _
      rw [hpending]
      rfl
    · rw [if_neg (Ne.symm hid)] at hpending
      rw [if_neg (by simpa using hid)]
      exact hpending
  · obtain ⟨r, hr, hrlive, hrid, hactive⟩ := h.flowing t ht hflowing
    refine ⟨_, Table.mem_updateWhere.mpr ⟨r, hr, rfl⟩, ?_⟩
    split_ifs <;> exact ⟨hrlive, hrid, hactive⟩
  · have hpending := hcount r hr
    rw [if_pos hid.symm] at hpending
    have hle := h.records.sessions r hr
    omega

/-- A stream that does not flow may be added. -/
lemma Inv.addStream {t : TunnelStream} (h : Inv settings s) (ht : t.state ≠ .flowing) :
    Inv settings { s with streams := s.streams ++ [t] } :=
  { h with
    flowing := fun t' ht' hflowing => by
      rcases List.mem_append.mp ht' with hold | hnew
      · exact h.flowing t' hold hflowing
      · rw [List.mem_singleton.mp hnew] at hflowing
        exact absurd hflowing ht }

lemma Inv.attachTunnel {call : ℕ} {leaseId : String} (h : Inv settings s)
    (hmem : (call, leaseId) ∈ s.opening) (stream : Option ℕ) (now : ℤ) :
    Inv settings (attachTunnel
      { s with opening := Table.deleteWhere (fun waiting => waiting.1 = call) s.opening } leaseId
      stream now) := by
  obtain ⟨hreturned, hroom⟩ := h.returned hmem
  cases stream with
  | none => exact hreturned
  | some id =>
    rw [LeaseManager.attachTunnel]
    split
    · exact hreturned.addStream (by simp)
    · rename_i lease hget
      split
      · exact hreturned.addStream (by simp)
      · obtain ⟨hlease, hlive, hid⟩ := get_eq_some hget
        refine ⟨?_, hreturned.issuing, hreturned.calls, fun waiting hwaiting => ?_,
          fun r' hr' => ?_, fun t ht hflowing => ?_⟩
        · refine hreturned.records.update (keepsScope_active _) (fun r hr => hr)
            fun r' hr' hid' => ?_
          obtain ⟨r, hr, rfl⟩ := Table.mem_updateWhere.mp hr'
          by_cases hr₁ : r.leaseId = leaseId
          · have hle := hroom r hr hr₁
            rw [if_pos (by simpa using hr₁), List.length_append, List.length_singleton]
            exact hle
          · rw [if_neg (by simpa using hr₁)] at hid'
            exact absurd (of_decide_eq_true hid') hr₁
        · rw [updateRecord, (keepsScope_active _).map_leaseId]
          exact hreturned.opening waiting hwaiting
        · obtain ⟨r, hr, rfl⟩ := Table.mem_updateWhere.mp hr'
          have hpending := hreturned.pending r hr
          split_ifs <;> exact hpending
        · rcases List.mem_append.mp ht with hold | hnew
          · obtain ⟨r, hr, hrlive, hrid, hactive⟩ := hreturned.flowing t hold hflowing
            refine ⟨_, Table.mem_updateWhere.mpr ⟨r, hr, rfl⟩, ?_⟩
            split_ifs
            · exact ⟨hrlive, hrid, List.mem_append_left _ hactive⟩
            · exact ⟨hrlive, hrid, hactive⟩
          · rw [List.mem_singleton.mp hnew]
            refine ⟨_, Table.mem_updateWhere.mpr ⟨lease, hlease, rfl⟩, ?_⟩
            rw [if_pos (by simpa using hid)]
            exact ⟨hlive, hid, List.mem_append_right _ (List.mem_singleton_self id)⟩

/-! ### The ends of streams -/

lemma Inv.release (h : Inv settings s) (stream : ℕ) {state : StreamState}
    (hstate : state ≠ .flowing) : Inv settings (s.release stream state) := by
  have heq : (s.release stream state).records =
      Table.updateWhere (fun _ => true) (fun r => { r with active := r.active.filter (· ≠ stream) })
        s.records := by
    rw [Table.updateWhere]
    simp [LeaseManager.release, setStreams]
  have hids : (s.release stream state).records.map (·.leaseId) = s.records.map (·.leaseId) := by
    rw [heq]
    exact (keepsScope_active _).map_leaseId _ _
  refine ⟨?_, h.issuing, h.calls, ?_, fun r' hr' => ?_, fun t' ht' hflowing => ?_⟩
  · rw [heq]
    refine h.records.update (keepsScope_active _) (fun r hr => hr) fun r hr _ => ?_
    have hle := h.records.sessions r hr
    have hshort := List.length_filter_le (fun id => decide (id ≠ stream)) r.active
    show (r.active.filter _).length + r.pending ≤ settings.maxConnections
    omega
  · rw [hids]
    exact h.opening
  · rw [heq] at hr'
    obtain ⟨r, hr, rfl⟩ := Table.mem_updateWhere.mp hr'
    exact h.pending r hr
  · obtain ⟨t, ht, rfl⟩ := Table.mem_updateWhere.mp ht'
    by_cases hthis : t.id = stream && t.state ≠ .destroyed
    · rw [if_pos hthis] at hflowing
      exact absurd hflowing hstate
    · rw [if_neg hthis] at hflowing ⊢
      have hother : t.id ≠ stream := by
        intro hid
        rw [hflowing] at hthis
        exact hthis (by simp [hid])
      obtain ⟨r, hr, hrlive, hrid, hactive⟩ := h.flowing t ht hflowing
      rw [heq]
      refine ⟨_, Table.mem_updateWhere.mpr ⟨r, hr, rfl⟩, hrlive, hrid, ?_⟩
      exact List.mem_filter.mpr ⟨hactive, by simpa using hother⟩

/-! ### Runs -/

def Reachable (settings : LeaseSettings) (allowed : LeaseManager → Event → Prop) :
    LeaseManager → Prop :=
  Transition.Leads (step settings) allowed initial

lemma Inv.step {event : Event} {s' : LeaseManager} (h : Inv settings s)
    (hstep : step settings s event = some s') : Inv settings s' := by
  cases event with
  | issue request now =>
    simp only [LeaseManager.step] at hstep
    split at hstep
    · cases hstep
      exact { h with }
    · rename_i order hordered
      cases hstep
      refine { h with issuing := fun order' horder' => ?_ }
      rcases List.mem_append.mp horder' with hold | hnew
      · exact h.issuing order' hold
      · rw [List.mem_singleton.mp hnew]
        exact (orderCertificate_ok hordered).1
  | signed call certificate leaseId accessToken =>
    simp only [LeaseManager.step] at hstep
    split at hstep
    · cases hstep
    · rename_i order hfound
      split at hstep
      · cases hstep
      · rename_i hguard
        cases hstep
        simp only [Bool.or_eq_true, Bool.not_eq_true', not_or, Bool.not_eq_false,
          List.contains_eq_mem, decide_eq_true_eq] at hguard
        have horder := h.issuing _ (List.mem_of_find?_eq_some hfound)
        have hremoved : Inv settings { s with
            issuing := Table.deleteWhere (fun order => order.call = call) s.issuing } :=
          { h with
            issuing := fun order horder => h.issuing order (Table.mem_deleteWhere.mp horder).1 }
        exact hremoved.register horder certificate hguard.1 hguard.2
  | openTunnel call request now =>
    simp only [LeaseManager.step] at hstep
    split at hstep
    · cases hstep
    · rename_i hcall
      split at hstep
      · rename_i herror
        cases hstep
        rcases requestTunnel_error herror with rfl | ⟨leaseId, rfl⟩
        · exact h
        · exact h.revokeTrusted leaseId
      · rename_i hok
        cases hstep
        exact h.requestTunnel (by simpa using hcall) hok
  | connected call stream now =>
    simp only [LeaseManager.step] at hstep
    split at hstep
    · cases hstep
    · rename_i found leaseId hfound
      split at hstep
      · cases hstep
      · cases hstep
        have hcall : found = call := by simpa using List.find?_some hfound
        rw [hcall] at hfound
        exact h.attachTunnel (List.mem_of_find?_eq_some hfound) stream now
  | revoke leaseId workspaceId wallet =>
    simp only [LeaseManager.step, Option.some.injEq] at hstep
    rw [← hstep, LeaseManager.revoke]
    repeat' split
    all_goals first | exact h | exact h.revokeTrusted leaseId
  | revokeWorkspace workspaceId =>
    simp only [LeaseManager.step, Option.some.injEq] at hstep
    rw [← hstep, LeaseManager.revokeWorkspace]
    split
    · exact h
    · exact h.revokeEach _
  | sweepExpired now =>
    cases hstep
    exact h.revokeEach _
  | expiryTimer leaseId =>
    cases hstep
    exact h.revokeTrusted leaseId
  | stop =>
    cases hstep
    exact { h.revokeEach _ with }
  | streamEnds stream =>
    cases hstep
    exact h.release stream (by simp)
  | streamCloses stream =>
    cases hstep
    exact h.release stream (by simp)

lemma Reachable.inv {allowed : LeaseManager → Event → Prop} (h : Reachable settings allowed s) :
    Inv settings s :=
  Transition.Leads.invariant (Inv settings) h inv_initial fun _ _ _ hinv _ hstep => hinv.step hstep

/-! ### Safety -/

/-- No two tokens have one hash, and none has the value that malformed tokens get. -/
structure CollisionFree (settings : LeaseSettings) : Prop where
  injective : ∀ token token', settings.sha256 token = settings.sha256 token' → token = token'
  nonzero : ∀ token, settings.sha256 token ≠ List.replicate 32 0

lemma digestToken_of_isAccessToken {token : String} (h : isAccessToken token = true) :
    digestToken settings token = settings.sha256 token := by
  simp only [isAccessToken, Bool.and_eq_true, decide_eq_true_eq] at h
  obtain ⟨hlength, hchars⟩ := h
  rw [digestToken, if_neg (by rw [hlength, hchars]; decide)]

/-- Only the token of a lease has its hash. -/
lemma CollisionFree.eq_of_digestToken (hhash : CollisionFree settings) {token token' : String}
    (htoken' : isAccessToken token' = true)
    (h : digestToken settings token = digestToken settings token') : token = token' := by
  rw [digestToken_of_isAccessToken htoken', digestToken] at h
  split at h
  · exact absurd h.symm (hhash.nonzero token')
  · exact hhash.injective token token' h

structure Safe (settings : LeaseSettings) (s : LeaseManager) : Prop where
  exclusive : ∀ r ∈ s.records, ∀ r' ∈ s.records, r.live = true → r'.live = true →
    r.workspaceId = r'.workspaceId → r.mode = r'.mode → r = r'
  bounded : ∀ r ∈ s.records,
    (∃ expiresAt, r.order.request.workspaceLeaseExpiresAt = some expiresAt ∧
      r.validBefore ≤ expiresAt) ∧ r.validBefore ≤ r.order.issuedAt + settings.maxLeaseMs
  sessions : ∀ r ∈ s.records,
    r.active.length + s.opening.countP (fun waiting => waiting.2 = r.leaseId) ≤
      settings.maxConnections
  connector : ∀ request now s' lease, requestTunnel settings s request now = (s', .ok lease) →
    lease ∈ s.records ∧ lease.live = true ∧ lease.leaseId = request.leaseId ∧
      now < lease.validBefore ∧ normalizeWorkspaceId request.workspaceId = .ok lease.workspaceId ∧
      normalizeWallet request.wallet = .ok lease.wallet ∧ lease.mode.text = request.mode ∧
      request.accessToken = lease.accessToken
  streams : ∀ t ∈ s.streams, t.state = .flowing →
    ∃ r ∈ s.records, r.live = true ∧ r.leaseId = t.leaseId ∧ t.id ∈ r.active

/-- A manager is safe whatever order its calls, their answers and its timers come in. -/
theorem leases_safe (hhash : CollisionFree settings)
    (h : Reachable settings Transition.anyStep s) : Safe settings s := by
  have hinv := h.inv
  refine ⟨hinv.records.unique, fun r hr => ?_, fun r hr => ?_, fun request now s' lease hok => ?_,
    hinv.flowing⟩
  · have hvalid := hinv.records.valid r hr
    rw [hvalid.validBefore_eq]
    exact hvalid.withinLimits
  · rw [← hinv.pending r hr]
    exact hinv.records.sessions r hr
  · obtain ⟨hauthorize, -⟩ := requestTunnel_ok hok
    obtain ⟨-, hget, hunexpired, hworkspace, hwallet, hmode, htoken⟩ := authorize_ok hauthorize
    obtain ⟨hmem, hlive, hid⟩ := get_eq_some hget
    have hvalid := hinv.records.valid lease hmem
    rw [hvalid.tokenHash_eq] at htoken
    exact ⟨hmem, hlive, hid, hunexpired, hworkspace, hwallet, hmode,
      hhash.eq_of_digestToken hvalid.isAccessToken htoken⟩

/-! ### A lease with a tunnel -/

def demoSettings : LeaseSettings where
  socketRoot := "/run/bloom"
  maxLeaseMs := defaultSshLeaseMs
  maxConnections := 2
  sha256 := fun token => 1 :: token.toByteArray.data.toList
  walletDigest := fun _ => "digest"
  maxLeaseMs_ge := by decide
  maxLeaseMs_le := by decide
  maxConnections_pos := by decide
  maxConnections_le := by decide

lemma demoSettings_collisionFree : CollisionFree demoSettings where
  injective token token' h := by
    have htail := (List.cons.inj h).2
    exact String.toByteArray_inj.mp (ByteArray.ext (Array.toList_inj.mp htail))
  nonzero token h := by
    have hhead := (List.cons.inj h).1
    revert hhead
    decide

def demoWorkspace : String := "00000000-0000-4000-8000-000000000001"

def demoWallet : String := "0x0000000000000000000000000000000000000001"

def demoToken : String := "AAAAAAAAAAAAAAAAAAAAAAAAAAAAAAAAAAAAAAAAAAA"

def demoRequest : SshLeaseRequest where
  workspaceId := demoWorkspace
  wallet := demoWallet
  publicKey := "ssh-ed25519 AAAA"
  mode := "shell"
  workspaceLeaseExpiresAt := some 3600000
  requestedTtlMs := none
  endpoint := .tcp "127.0.0.1" (some 22)

def demoCertificate : SignedWorkspaceCertificate where
  certificate := "ssh-ed25519-cert-v01@openssh.com AAAA"
  fingerprint := "SHA256:demo"
  principal := "bloom-shell-" ++ demoWorkspace ++ "-w-digest"
  serial := "1"
  validAfter := -5000
  validBefore := 900000
  mode := .shell

/-- A lease is issued and a tunnel is opened with it. -/
def demoTunnel : List Event := [
  .issue demoRequest 0,
  .signed 0 (some demoCertificate) "lease" demoToken,
  .openTunnel 0 ⟨"lease", demoWorkspace, demoWallet, "shell", demoToken⟩ 1000,
  .connected 0 (some 0) 1001]

theorem leases_safe_tunnel :
    ∃ s, Transition.exec (step demoSettings) initial demoTunnel = some s ∧
      s.streams = [⟨0, "lease", .flowing⟩] ∧ Safe demoSettings s := by
  have hrun : (Transition.exec (step demoSettings) initial demoTunnel).map (·.streams) =
      some [⟨0, "lease", .flowing⟩] := by
    decide +kernel
  obtain ⟨s, hs, hstreams⟩ := Option.map_eq_some_iff.mp hrun
  exact ⟨s, hs, hstreams, leases_safe demoSettings_collisionFree (Transition.leads_of_exec hs)⟩

/-- A stream that has ended by itself outlives its lease until it closes. -/
theorem not_destroyed_with_lease :
    ¬∀ (settings : LeaseSettings) (s : LeaseManager), CollisionFree settings →
      Reachable settings Transition.anyStep s → ∀ t ∈ s.streams, t.state ≠ .destroyed →
        ∃ r ∈ s.records, r.live = true ∧ r.leaseId = t.leaseId := by
  intro hall
  have hrun : (Transition.exec (step demoSettings) initial
      (demoTunnel ++ [.streamEnds 0, .revoke "lease" demoWorkspace demoWallet])).map
        (fun s => (s.streams, s.records.all fun r => !r.live)) =
      some ([⟨0, "lease", .ended⟩], true) := by
    decide +kernel
  obtain ⟨s, hs, hstate⟩ := Option.map_eq_some_iff.mp hrun
  simp only [Prod.mk.injEq, List.all_eq_true, Bool.not_eq_true'] at hstate
  obtain ⟨hstreams, hdead⟩ := hstate
  obtain ⟨r, hr, hlive, -⟩ := hall demoSettings s demoSettings_collisionFree
    (Transition.leads_of_exec hs) ⟨0, "lease", .ended⟩ (by rw [hstreams]; exact List.mem_singleton_self _)
    (by simp)
  rw [hdead r hr] at hlive
  cases hlive

end LeaseManager

end Bloom
