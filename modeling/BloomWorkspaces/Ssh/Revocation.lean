import BloomWorkspaces.Ssh.Leases

/-!
# What a revocation outlives

`revokeWorkspace` and `stop` revoke the leases in the map, and a call of `issue` that waits for its
signer has none there yet.
-/

namespace Bloom

namespace LeaseManager

variable {settings : LeaseSettings} {s s' : LeaseManager}

/-- Once `revokeWorkspace` has returned, a live lease of the workspace is from a later call of
`issue`, and once `stop` has returned no lease is live. -/
structure RevocationHolds (settings : LeaseSettings) (allowed : LeaseManager → Event → Prop) :
    Prop where
  workspace : ∀ s₀ s₁ s₂ workspaceId id, Reachable settings allowed s₀ →
    normalizeWorkspaceId workspaceId = .ok id → allowed s₀ (.revokeWorkspace workspaceId) →
    step settings s₀ (.revokeWorkspace workspaceId) = some s₁ →
    Transition.Leads (step settings) allowed s₁ s₂ →
    ∀ r ∈ s₂.records, r.live = true → r.workspaceId = id → s₁.issued ≤ r.order.call
  stop : ∀ s₀ s₁ s₂, Reachable settings allowed s₀ → allowed s₀ .stop →
    step settings s₀ .stop = some s₁ → Transition.Leads (step settings) allowed s₁ s₂ →
    ∀ r ∈ s₂.records, r.live = false

/-- A revocation finds no call of `issue` for what it revokes waiting, and none is made after `stop`. -/
def Quiet (s : LeaseManager) : Event → Prop
  | .issue _ _ => s.stopped = false
  | .revokeWorkspace workspaceId =>
    ∀ order ∈ s.issuing, normalizeWorkspaceId workspaceId ≠ .ok order.workspaceId
  | .stop => s.issuing = []
  | _ => True

/-! ### The leases and orders from before -/

/-- The live records of `s'` are records of `s`, with other streams and calls at most. -/
def LiveFrom (s s' : LeaseManager) : Prop :=
  ∀ r' ∈ s'.records, r'.live = true → ∃ r ∈ s.records, r.live = true ∧ r.order = r'.order

lemma LiveFrom.refl (s : LeaseManager) : LiveFrom s s := fun r hr hlive => ⟨r, hr, hlive, rfl⟩

lemma LiveFrom.trans {s'' : LeaseManager} (h : LiveFrom s s') (h' : LiveFrom s' s'') :
    LiveFrom s s'' := by
  intro r'' hr'' hlive''
  obtain ⟨r', hr', hlive', horder'⟩ := h' r'' hr'' hlive''
  obtain ⟨r, hr, hlive, horder⟩ := h r' hr' hlive'
  exact ⟨r, hr, hlive, horder.trans horder'⟩

lemma liveFrom_revokeTrusted (s : LeaseManager) (leaseId : String) :
    LiveFrom s (s.revokeTrusted leaseId) := fun r hr hlive =>
  ⟨r, (live_of_revokeTrusted hr hlive).1, hlive, rfl⟩

lemma liveFrom_revokeEach (p : LeaseRecord → Bool) (s : LeaseManager) :
    LiveFrom s (s.revokeEach p) := fun r hr hlive =>
  ⟨r, (live_of_revokeEach p hr hlive).1, hlive, rfl⟩

lemma liveFrom_update {records : List LeaseRecord} {p : LeaseRecord → Bool}
    {f : LeaseRecord → LeaseRecord} (hf : KeepsScope f)
    (hlive : ∀ r, (f r).live = true → r.live = true) (hs : s.records = records)
    (hs' : s'.records = Table.updateWhere p f records) : LiveFrom s s' := by
  intro r' hr' hlive'
  rw [hs'] at hr'
  obtain ⟨r, hr, rfl⟩ := Table.mem_updateWhere.mp hr'
  rw [← hs] at hr
  refine ⟨r, hr, ?_, ?_⟩
  · split_ifs at hlive'
    · exact hlive r hlive'
    · exact hlive'
  · split_ifs
    · exact (hf r).2.2.2.2.2.symm
    · rfl

lemma liveFrom_attachTunnel (s : LeaseManager) (leaseId : String) (stream : Option ℕ) (now : ℤ) :
    LiveFrom s (s.attachTunnel leaseId stream now) := by
  have hreturned : LiveFrom s (s.updateRecord leaseId fun r => { r with pending := r.pending - 1 }) :=
    liveFrom_update (keepsScope_pending fun r => r.pending - 1) (fun r hr => hr) rfl rfl
  cases stream with
  | none => exact hreturned
  | some id =>
    rw [attachTunnel]
    split
    · exact hreturned
    · split
      · exact hreturned
      · exact hreturned.trans
          (liveFrom_update (keepsScope_active fun r => r.active ++ [id]) (fun r hr => hr) rfl rfl)

lemma liveFrom_release (s : LeaseManager) (stream : ℕ) (state : StreamState) :
    LiveFrom s (s.release stream state) := by
  intro r' hr' hlive'
  obtain ⟨r, hr, rfl⟩ := List.mem_map.mp hr'
  exact ⟨r, hr, hlive', rfl⟩

lemma liveFrom_requestTunnel {request : SshTunnelRequest} {now : ℤ}
    {answer : Except String LeaseRecord}
    (h : requestTunnel settings s request now = (s', answer)) : LiveFrom s s' := by
  cases answer with
  | error message =>
    rcases requestTunnel_error h with rfl | ⟨leaseId, rfl⟩
    · exact LiveFrom.refl s'
    · exact liveFrom_revokeTrusted s leaseId
  | ok lease =>
    rw [(requestTunnel_ok h).2.2]
    exact liveFrom_update (keepsScope_pending fun r => r.pending + 1) (fun r hr => hr) rfl rfl

/-- A registered lease is the only one that was not live before. -/
lemma live_of_register {order : CertificateOrder} {signed : Option SignedWorkspaceCertificate}
    {leaseId accessToken : String} {r' : LeaseRecord}
    (hr' : r' ∈ (register settings s order signed leaseId accessToken).records)
    (hlive' : r'.live = true) :
    (∃ r ∈ s.records, r.live = true ∧ r.order = r'.order) ∨ r'.order = order := by
  cases signed with
  | none => exact .inl ⟨r', hr', hlive', rfl⟩
  | some certificate =>
    rw [register] at hr'
    split at hr'
    · rcases List.mem_append.mp hr' with hold | hnew
      · exact .inl (liveFrom_revokeEach _ s r' hold hlive')
      · rw [List.mem_singleton.mp hnew]
        exact .inr rfl
    · exact .inl ⟨r', hr', hlive', rfl⟩

/-! ### One step -/

/-- Where the live leases and the waiting calls after an event come from. -/
structure Follows (s s' : LeaseManager) (event : Event) : Prop where
  live : ∀ r' ∈ s'.records, r'.live = true →
    (∃ r ∈ s.records, r.live = true ∧ r.order = r'.order) ∨ r'.order ∈ s.issuing
  issuing : ∀ order ∈ s'.issuing, order ∈ s.issuing ∨
    order.call = s.issued ∧ ∃ request now, event = .issue request now
  issued_le : s.issued ≤ s'.issued
  stopped : s.stopped = true → s'.stopped = true

/-- The fields that only `issue`, its answer and `stop` change. -/
def SameCalls (s s' : LeaseManager) : Prop :=
  s'.issuing = s.issuing ∧ s'.issued = s.issued ∧ s'.stopped = s.stopped

lemma sameCalls_revokeTrusted (s : LeaseManager) (leaseId : String) :
    SameCalls s (s.revokeTrusted leaseId) := by
  rcases revokeTrusted_cases s leaseId with ⟨-, heq⟩ | ⟨lease, -, heq⟩
  · rw [heq]
    exact ⟨rfl, rfl, rfl⟩
  · rw [heq]
    exact ⟨rfl, rfl, rfl⟩

lemma sameCalls_revokeEach (p : LeaseRecord → Bool) (s : LeaseManager) :
    SameCalls s (s.revokeEach p) := by
  rw [revokeEach]
  induction s.records.filter fun r => r.live && p r generalizing s with
  | nil => exact ⟨rfl, rfl, rfl⟩
  | cons lease rest ih =>
    obtain ⟨hissuing, hissued, hstopped⟩ := sameCalls_revokeTrusted s lease.leaseId
    obtain ⟨hissuing', hissued', hstopped'⟩ := ih (s.revokeTrusted lease.leaseId)
    exact ⟨hissuing'.trans hissuing, hissued'.trans hissued, hstopped'.trans hstopped⟩

lemma sameCalls_register (settings : LeaseSettings) (s : LeaseManager)
    (order : CertificateOrder) (signed : Option SignedWorkspaceCertificate) (leaseId accessToken : String) :
    SameCalls s (register settings s order signed leaseId accessToken) := by
  cases signed with
  | none => exact ⟨rfl, rfl, rfl⟩
  | some certificate =>
    rw [register]
    split
    · exact sameCalls_revokeEach _ s
    · exact ⟨rfl, rfl, rfl⟩

lemma sameCalls_attachTunnel (s : LeaseManager) (leaseId : String) (stream : Option ℕ) (now : ℤ) :
    SameCalls s (s.attachTunnel leaseId stream now) := by
  cases stream with
  | none => exact ⟨rfl, rfl, rfl⟩
  | some id =>
    rw [attachTunnel]
    split
    · exact ⟨rfl, rfl, rfl⟩
    · split <;> exact ⟨rfl, rfl, rfl⟩

lemma sameCalls_requestTunnel {request : SshTunnelRequest} {now : ℤ}
    {answer : Except String LeaseRecord}
    (h : requestTunnel settings s request now = (s', answer)) : SameCalls s s' := by
  cases answer with
  | error message =>
    rcases requestTunnel_error h with rfl | ⟨leaseId, rfl⟩
    · exact ⟨rfl, rfl, rfl⟩
    · exact sameCalls_revokeTrusted s leaseId
  | ok lease =>
    rw [(requestTunnel_ok h).2.2]
    exact ⟨rfl, rfl, rfl⟩

lemma LiveFrom.follows {event : Event} (h : LiveFrom s s') (hcalls : SameCalls s s') :
    Follows s s' event where
  live r' hr' hlive' := .inl (h r' hr' hlive')
  issuing _ horder := .inl (hcalls.1 ▸ horder)
  issued_le := Nat.le_of_eq hcalls.2.1.symm
  stopped hstopped := hcalls.2.2.trans hstopped

lemma follows_of_step {event : Event} (hstep : step settings s event = some s') :
    Follows s s' event := by
  cases event with
  | issue request now =>
    simp only [step] at hstep
    split at hstep
    · cases hstep
      exact ⟨fun r' hr' hlive' => .inl ⟨r', hr', hlive', rfl⟩, fun order horder => .inl horder, Nat.le_succ _, id⟩
    · rename_i order hordered
      cases hstep
      refine ⟨fun r' hr' hlive' => .inl ⟨r', hr', hlive', rfl⟩, fun order' horder' => ?_, Nat.le_succ _, id⟩
      rcases List.mem_append.mp horder' with hold | hnew
      · exact .inl hold
      · rw [List.mem_singleton.mp hnew]
        exact .inr ⟨(orderCertificate_ok hordered).2, request, now, rfl⟩
  | signed call certificate leaseId accessToken =>
    simp only [step] at hstep
    split at hstep
    · cases hstep
    · rename_i order hfound
      split at hstep
      · cases hstep
      · cases hstep
        obtain ⟨hissuing, hissued, hstopped⟩ := sameCalls_register settings
          { s with issuing := Table.deleteWhere (fun order => order.call = call) s.issuing }
          order certificate leaseId accessToken
        refine ⟨fun r' hr' hlive' => ?_, fun order' horder' => ?_, Nat.le_of_eq hissued.symm,
          fun h => hstopped.trans h⟩
        · rcases live_of_register hr' hlive' with hold | heq
          · exact .inl hold
          · rw [heq]
            exact .inr (List.mem_of_find?_eq_some hfound)
        · rw [hissuing] at horder'
          exact .inl (Table.mem_deleteWhere.mp horder').1
  | openTunnel call request now =>
    simp only [step] at hstep
    split at hstep
    · cases hstep
    · split at hstep
      · rename_i hanswer
        cases hstep
        exact (liveFrom_requestTunnel hanswer).follows (sameCalls_requestTunnel hanswer)
      · rename_i hanswer
        cases hstep
        exact { (liveFrom_requestTunnel hanswer).follows (sameCalls_requestTunnel hanswer) with }
  | connected call stream now =>
    simp only [step] at hstep
    split at hstep
    · cases hstep
    · split at hstep
      · cases hstep
      · cases hstep
        exact { (liveFrom_attachTunnel _ _ _ _).follows (sameCalls_attachTunnel _ _ _ _) with }
  | revoke leaseId workspaceId wallet =>
    simp only [step, Option.some.injEq] at hstep
    have hsame : LiveFrom s s' ∧ SameCalls s s' := by
      rw [← hstep, revoke]
      repeat' split
      all_goals first
        | exact ⟨LiveFrom.refl s, rfl, rfl, rfl⟩
        | exact ⟨liveFrom_revokeTrusted s leaseId, sameCalls_revokeTrusted s leaseId⟩
    exact hsame.1.follows hsame.2
  | revokeWorkspace workspaceId =>
    simp only [step, Option.some.injEq] at hstep
    rw [← hstep, revokeWorkspace]
    split
    · exact (LiveFrom.refl s).follows ⟨rfl, rfl, rfl⟩
    · exact (liveFrom_revokeEach _ s).follows (sameCalls_revokeEach _ s)
  | sweepExpired now =>
    cases hstep
    exact (liveFrom_revokeEach _ s).follows (sameCalls_revokeEach _ s)
  | expiryTimer leaseId =>
    cases hstep
    exact (liveFrom_revokeTrusted s leaseId).follows (sameCalls_revokeTrusted s leaseId)
  | stop =>
    cases hstep
    obtain ⟨hissuing, hissued, -⟩ := sameCalls_revokeEach (fun _ => true) s
    exact ⟨fun r' hr' hlive' => .inl (liveFrom_revokeEach _ s r' hr' hlive'), fun order horder => .inl (hissuing ▸ horder),
      Nat.le_of_eq hissued.symm, fun _ => rfl⟩
  | streamEnds stream =>
    cases hstep
    exact (liveFrom_release s stream _).follows ⟨rfl, rfl, rfl⟩
  | streamCloses stream =>
    cases hstep
    exact (liveFrom_release s stream _).follows ⟨rfl, rfl, rfl⟩

/-! ### Runs -/

/-- The waiting calls for a workspace and its live leases are from call `n` on. -/
structure CallsFrom (n : ℕ) (workspaceId : String) (s : LeaseManager) : Prop where
  issued : n ≤ s.issued
  issuing : ∀ order ∈ s.issuing, order.workspaceId = workspaceId → n ≤ order.call
  live : ∀ r ∈ s.records, r.live = true → r.order.workspaceId = workspaceId → n ≤ r.order.call

lemma CallsFrom.step {n : ℕ} {workspaceId : String} {event : Event}
    (h : CallsFrom n workspaceId s) (hstep : step settings s event = some s') :
    CallsFrom n workspaceId s' := by
  have hfollows := follows_of_step hstep
  refine ⟨h.issued.trans hfollows.issued_le, fun order horder hid => ?_, fun r' hr' hlive' hid => ?_⟩
  · rcases hfollows.issuing order horder with hold | ⟨hnew, -⟩
    · exact h.issuing order hold hid
    · rw [hnew]
      exact h.issued
  · rcases hfollows.live r' hr' hlive' with ⟨r, hr, hlive, horder⟩ | horder
    · rw [← horder] at hid ⊢
      exact h.live r hr hlive hid
    · exact h.issuing _ horder hid

/-- No lease is live, and none can become live. -/
structure Drained (s : LeaseManager) : Prop where
  stopped : s.stopped = true
  issuing : s.issuing = []
  live : ∀ r ∈ s.records, r.live = false

lemma Drained.step {event : Event} (h : Drained s) (hquiet : Quiet s event)
    (hstep : step settings s event = some s') : Drained s' := by
  have hfollows := follows_of_step hstep
  refine ⟨hfollows.stopped h.stopped, List.eq_nil_iff_forall_not_mem.mpr fun order horder => ?_,
    fun r' hr' => ?_⟩
  · rcases hfollows.issuing order horder with hold | ⟨-, request, now, rfl⟩
    · rw [h.issuing] at hold
      cases hold
    · have hrunning : s.stopped = false := hquiet
      rw [h.stopped] at hrunning
      cases hrunning
  · by_contra hlive'
    rw [Bool.not_eq_false] at hlive'
    rcases hfollows.live r' hr' hlive' with ⟨r, hr, hlive, -⟩ | horder
    · rw [h.live r hr] at hlive
      cases hlive
    · rw [h.issuing] at horder
      cases horder

/-- Revocations hold as long as no call of `issue` waits while they run. -/
theorem revocationHolds_of_quiet (settings : LeaseSettings) : RevocationHolds settings Quiet where
  workspace s₀ s₁ s₂ workspaceId id hreach hid hquiet hstep hleads r hr hlive hworkspace := by
    have hrevoked : s₁ = s₀.revokeEach fun r => r.workspaceId = id := by
      simp only [step, Option.some.injEq, revokeWorkspace, hid] at hstep
      exact hstep.symm
    obtain ⟨hissuing, hissued, -⟩ := sameCalls_revokeEach (fun r => r.workspaceId = id) s₀
    have hstart : CallsFrom s₁.issued id s₁ := by
      rw [hrevoked]
      refine ⟨le_rfl, fun order horder heq => ?_, fun r hr hlive heq => ?_⟩
      · rw [hissuing] at horder
        rw [← heq] at hid
        exact absurd hid (hquiet order horder)
      · obtain ⟨hmem, hother⟩ := live_of_revokeEach _ hr hlive
        have hvalid := hreach.inv.records.valid r hmem
        rw [hvalid.workspaceId_eq] at hother
        exact absurd heq (of_decide_eq_false hother)
    have hend : CallsFrom s₁.issued id s₂ := by
      refine hleads.invariant _ hstart fun t event t' hcalls _ hnext => ?_
      exact hcalls.step hnext
    have hreach₂ : Reachable settings Quiet s₂ := (hreach.tail hquiet hstep).trans hleads
    have hvalid := hreach₂.inv.records.valid r hr
    rw [hvalid.workspaceId_eq] at hworkspace
    exact hend.live r hr hlive hworkspace
  stop s₀ s₁ s₂ _ hquiet hstep hleads := by
    have hstopped : s₁ = { s₀.revokeEach (fun _ => true) with stopped := true } := by
      simp only [step, Option.some.injEq] at hstep
      exact hstep.symm
    have hstart : Drained s₁ := by
      rw [hstopped]
      refine ⟨rfl, ?_, fun r hr => ?_⟩
      · exact (sameCalls_revokeEach _ s₀).1.trans hquiet
      · by_contra hlive
        rw [Bool.not_eq_false] at hlive
        have hnone := (live_of_revokeEach _ hr hlive).2
        cases hnone
    have hend : Drained s₂ := by
      refine hleads.invariant _ hstart fun t event t' hdrained hallowed hnext => ?_
      exact hdrained.step hallowed hnext
    exact hend.live

/-- A lease is issued and the workspace revoked, and then another lease is issued, which is live. -/
theorem revocationHolds_of_quiet_reissued : ∃ s₀ s₁ s₂ : LeaseManager,
    s₀.records.map (·.live) = [true] ∧
      step demoSettings s₀ (.revokeWorkspace demoWorkspace) = some s₁ ∧
      s₁.records.map (·.live) = [false] ∧
      s₂.records.map (fun r => (r.live, r.order.call)) = [(false, 0), (true, 1)] ∧
      ∀ r ∈ s₂.records, r.live = true → r.workspaceId = demoWorkspace → s₁.issued ≤ r.order.call := by
  have hrun : ∃ s s₀ s₁ s' s₂, step demoSettings initial (.issue demoRequest 0) = some s ∧
      step demoSettings s (.signed 0 (some demoCertificate) "lease" demoToken) = some s₀ ∧
      step demoSettings s₀ (.revokeWorkspace demoWorkspace) = some s₁ ∧
      step demoSettings s₁ (.issue demoRequest 0) = some s' ∧
      step demoSettings s' (.signed 1 (some demoCertificate) "later" demoToken) = some s₂ ∧
      s₀.records.map (·.live) = [true] ∧ s₁.records.map (·.live) = [false] ∧
      s₂.records.map (fun r => (r.live, r.order.call)) = [(false, 0), (true, 1)] ∧
      s₀.issuing = [] ∧ s₁.stopped = false :=
    ⟨_, _, _, _, _, rfl, rfl, rfl, rfl, rfl, by decide +kernel⟩
  obtain ⟨s, s₀, s₁, s', s₂, hissue, hsigned, hrevoke, hissue', hsigned', hlive₀, hlive₁, hlive₂, hwaiting,
    hrunning⟩ := hrun
  have hfirst : Quiet initial (.issue demoRequest 0) := rfl
  have hreach : Reachable demoSettings Quiet s₀ :=
    (Transition.Leads.single hfirst hissue).tail (by trivial) hsigned
  have hnext : Quiet s₁ (.issue demoRequest 0) := hrunning
  have hquiet : Quiet s₀ (.revokeWorkspace demoWorkspace) := by
    intro order horder
    rw [hwaiting] at horder
    cases horder
  refine ⟨s₀, s₁, s₂, hlive₀, hrevoke, hlive₁, hlive₂, ?_⟩
  exact (revocationHolds_of_quiet demoSettings).workspace s₀ s₁ s₂ demoWorkspace demoWorkspace hreach
    (by decide +kernel) hquiet hrevoke ((Transition.Leads.single hnext hissue').tail (by trivial) hsigned')

/-- A manager whose signer is still at work on one lease. -/
def demoWaiting : LeaseManager :=
  { initial with
    issued := 1
    issuing := [{
      call := 0
      request := demoRequest
      issuedAt := 0
      workspaceId := demoWorkspace
      wallet := demoWallet
      mode := .shell
      endpoint := demoRequest.endpoint
      validAfter := -5000
      validBefore := 900000 }] }

/-- The workspace is revoked while the signer is at work, and the lease becomes live all the same. -/
theorem not_revocationHolds : ¬RevocationHolds demoSettings Transition.anyStep := by
  intro hholds
  have hissue : step demoSettings initial (.issue demoRequest 0) = some demoWaiting := by
    decide +kernel
  have hrevoke : step demoSettings demoWaiting (.revokeWorkspace demoWorkspace) =
      some demoWaiting := by
    decide +kernel
  have hsigned : (step demoSettings demoWaiting
      (.signed 0 (some demoCertificate) "lease" demoToken)).map
        (fun s => s.records.map fun r => (r.live, r.workspaceId, r.order.call)) =
      some [(true, demoWorkspace, 0)] := by
    decide +kernel
  obtain ⟨s, hs, hrecords⟩ := Option.map_eq_some_iff.mp hsigned
  obtain ⟨r, hr, hfields⟩ := List.mem_map.mp (hrecords ▸ List.mem_singleton_self _)
  simp only [Prod.mk.injEq] at hfields
  obtain ⟨hlive, hworkspace, hcall⟩ := hfields
  have hlater : demoWaiting.issued ≤ r.order.call :=
    hholds.workspace demoWaiting demoWaiting s demoWorkspace demoWorkspace
      (Transition.Leads.single trivial hissue) (by decide +kernel) trivial hrevoke
      (Transition.Leads.single trivial hs) r hr hlive hworkspace
  rw [hcall] at hlater
  cases hlater

end LeaseManager

end Bloom
