import BloomWorkspaces.Ssh.Revocation
import BloomWorkspaces.Ssh.TunnelUpgrade

/-!
# The connections of the agent

The routes of the agent that create and delete workspaces and that issue and revoke leases, its sweep, and its
upgrade handler, over the lease manager and a runtime. A workspace has an entry in `connections` once its
guest has been configured, until it is deleted or a sweep finds that it does not run.
-/

namespace Bloom

/-! ### The leases of a manager -/

/-- The lease has a tunnel, or a call that waits for one. -/
def LeaseRecord.Engaged (r : LeaseRecord) : Prop := r.active ≠ [] ∨ 0 < r.pending

/-- `r'` is the lease `r` at a later time. -/
structure LeaseRecord.SameScope (r r' : LeaseRecord) : Prop where
  order : r'.order = r.order
  workspaceId : r'.workspaceId = r.workspaceId
  wallet : r'.wallet = r.wallet

namespace LeaseManager

variable {settings : LeaseSettings} {s s' s'' : LeaseManager}

/-- The live leases of `s'` are leases of `s`, engaged there if they are engaged now. -/
def Descends (s s' : LeaseManager) : Prop :=
  ∀ r' ∈ s'.records, r'.live = true →
    ∃ r ∈ s.records, r.live = true ∧ r.SameScope r' ∧ (r'.Engaged → r.Engaged)

lemma descends_of_subset (h : ∀ r' ∈ s'.records, r'.live = true → r' ∈ s.records) : Descends s s' :=
  fun r' hr' hlive => ⟨r', h r' hr' hlive, hlive, ⟨rfl, rfl, rfl⟩, id⟩

lemma Descends.trans (h : Descends s s') (h' : Descends s' s'') : Descends s s'' := by
  intro r'' hr'' hlive''
  obtain ⟨r', hr', hlive', hscope', hengaged'⟩ := h' r'' hr'' hlive''
  obtain ⟨r, hr, hlive, hscope, hengaged⟩ := h r' hr' hlive'
  exact ⟨r, hr, hlive, ⟨hscope'.order.trans hscope.order, hscope'.workspaceId.trans hscope.workspaceId,
    hscope'.wallet.trans hscope.wallet⟩, fun h => hengaged (hengaged' h)⟩

lemma descends_update {p : LeaseRecord → Bool} {f : LeaseRecord → LeaseRecord}
    (hf : ∀ r, (f r).live = true → r.live = true ∧ r.SameScope (f r) ∧ ((f r).Engaged → r.Engaged))
    (hs' : s'.records = Table.updateWhere p f s.records) : Descends s s' := by
  intro r' hr' hlive'
  rw [hs'] at hr'
  obtain ⟨r, hr, rfl⟩ := Table.mem_updateWhere.mp hr'
  by_cases hp : p r = true
  · rw [if_pos hp] at hlive' ⊢
    obtain ⟨hlive, hscope, hengaged⟩ := hf r hlive'
    exact ⟨r, hr, hlive, hscope, hengaged⟩
  · rw [if_neg hp] at hlive' ⊢
    exact ⟨r, hr, hlive', ⟨rfl, rfl, rfl⟩, id⟩

lemma descends_revokeTrusted (s : LeaseManager) (leaseId : String) : Descends s (s.revokeTrusted leaseId) :=
  descends_of_subset fun _ hr' hlive => (live_of_revokeTrusted hr' hlive).1

lemma descends_revokeEach (p : LeaseRecord → Bool) (s : LeaseManager) : Descends s (s.revokeEach p) :=
  descends_of_subset fun _ hr' hlive => (live_of_revokeEach p hr' hlive).1

lemma descends_release (s : LeaseManager) (stream : ℕ) (state : StreamState) :
    Descends s (s.release stream state) := by
  intro r' hr' hlive'
  obtain ⟨r, hr, rfl⟩ := List.mem_map.mp hr'
  refine ⟨r, hr, hlive', ⟨rfl, rfl, rfl⟩, fun hengaged => ?_⟩
  refine hengaged.imp_left fun hactive hnone => hactive ?_
  show r.active.filter _ = []
  rw [hnone]
  rfl

/-- A call that gives its place back had it. -/
lemma descends_attachTunnel {call : ℕ} {leaseId : String} (h : Inv settings s)
    (hmem : (call, leaseId) ∈ s.opening) (stream : Option ℕ) (now : ℤ) :
    Descends s (attachTunnel { s with
      opening := Table.deleteWhere (fun waiting => waiting.1 = call) s.opening } leaseId stream now) := by
  have hreturned : Descends s (({ s with
      opening := Table.deleteWhere (fun waiting => waiting.1 = call) s.opening } :
      LeaseManager).updateRecord leaseId fun r => { r with pending := r.pending - 1 }) :=
    descends_update (f := fun r => { r with pending := r.pending - 1 })
      (fun r hlive => ⟨hlive, ⟨rfl, rfl, rfl⟩, fun hengaged => hengaged.imp_right fun hpending => by
        have hpos : 0 < r.pending - 1 := hpending
        omega⟩) rfl
  cases stream with
  | none => exact hreturned
  | some id =>
    rw [attachTunnel]
    split
    · exact hreturned
    · split
      · exact hreturned
      · intro r' hr' hlive'
        obtain ⟨r₁, hr₁, rfl⟩ := Table.mem_updateWhere.mp hr'
        obtain ⟨r, hr, heq⟩ := Table.mem_updateWhere.mp hr₁
        by_cases hid : r.leaseId = leaseId
        · rw [if_pos (by simpa using hid)] at heq
          subst heq
          rw [if_pos (by simpa using hid)] at hlive' ⊢
          have hpending : 0 < r.pending := by
            rw [h.pending r hr]
            exact List.countP_pos_iff.mpr ⟨(call, leaseId), hmem, by simpa using hid.symm⟩
          exact ⟨r, hr, hlive', ⟨rfl, rfl, rfl⟩, fun _ => .inr hpending⟩
        · rw [if_neg (by simpa using hid)] at heq
          subst heq
          rw [if_neg (by simpa using hid)] at hlive' ⊢
          exact ⟨r₁, hr, hlive', ⟨rfl, rfl, rfl⟩, fun hengaged => hengaged⟩

lemma descends_of_eq (h : s'.records = s.records) : Descends s s' :=
  descends_of_subset fun _ hr' _ => h ▸ hr'

lemma descends_revoke (s : LeaseManager) (leaseId workspaceId wallet : String) :
    Descends s (s.revoke leaseId workspaceId wallet).1 := by
  rw [revoke]
  repeat' split
  all_goals first
    | exact descends_of_eq rfl
    | exact descends_revokeTrusted s leaseId

lemma descends_revokeWorkspace (s : LeaseManager) (workspaceId : String) :
    Descends s (s.revokeWorkspace workspaceId).1 := by
  rw [revokeWorkspace]
  split
  · exact descends_of_eq rfl
  · exact descends_revokeEach _ s

/-- The event asks for a tunnel into the workspace of the lease. -/
def Event.Opens (event : Event) (r : LeaseRecord) : Prop :=
  ∃ call request now, event = .openTunnel call request now ∧
    normalizeWorkspaceId request.workspaceId = .ok r.workspaceId

/-- Where a live lease comes from. -/
inductive Origin (s : LeaseManager) (event : Event) (r' : LeaseRecord) : Prop
  | kept (r : LeaseRecord) (hr : r ∈ s.records) (hlive : r.live = true) (hscope : r.SameScope r')
    (hengaged : r'.Engaged → r.Engaged ∨ event.Opens r)
  | signed (horder : r'.order ∈ s.issuing) (hwallet : r'.wallet = r'.order.wallet) (hidle : ¬r'.Engaged)

lemma Descends.origin {event : Event} (h : Descends s s') {r' : LeaseRecord} (hr' : r' ∈ s'.records)
    (hlive' : r'.live = true) : Origin s event r' := by
  obtain ⟨r, hr, hlive, hscope, hengaged⟩ := h r' hr' hlive'
  exact .kept r hr hlive hscope fun h => .inl (hengaged h)

lemma origin_of_register {event : Event} {order : CertificateOrder}
    (horder : order ∈ s.issuing) {signed : Option SignedWorkspaceCertificate} {leaseId accessToken : String}
    {issuing : List CertificateOrder} {r' : LeaseRecord}
    (hr' : r' ∈ (register settings { s with issuing := issuing } order signed leaseId accessToken).records)
    (hlive' : r'.live = true) : Origin s event r' := by
  have hkept : ∀ {m : LeaseManager}, r' ∈ m.records → Descends s m → Origin s event r' :=
    fun hmem hdescends => hdescends.origin hmem hlive'
  cases signed with
  | none => exact hkept hr' (descends_of_eq rfl)
  | some certificate =>
    rw [register] at hr'
    split at hr'
    · rcases List.mem_append.mp hr' with hold | hnew
      · exact hkept hold (Descends.trans (descends_of_eq rfl) (descends_revokeEach _ _))
      · rw [List.mem_singleton.mp hnew]
        refine .signed horder rfl fun hengaged => ?_
        rcases hengaged with hactive | hpending
        · exact hactive rfl
        · cases hpending
    · exact hkept hr' (descends_of_eq rfl)

lemma origin_of_openTunnel {call : ℕ} {request : SshTunnelRequest} {now : ℤ}
    {answer : Except String LeaseRecord} (h : requestTunnel settings s request now = (s', answer))
    (hids : (s.records.map (·.leaseId)).Nodup) {r' : LeaseRecord} (hr' : r' ∈ s'.records)
    (hlive' : r'.live = true) : Origin s (.openTunnel call request now) r' := by
  cases answer with
  | error message =>
    rcases requestTunnel_error h with rfl | ⟨leaseId, rfl⟩
    · exact (descends_of_eq rfl).origin hr' hlive'
    · exact (descends_revokeTrusted s leaseId).origin hr' hlive'
  | ok lease =>
    obtain ⟨hauthorize, -, rfl⟩ := requestTunnel_ok h
    obtain ⟨-, hget, -, hworkspace, -⟩ := authorize_ok hauthorize
    obtain ⟨r, hr, rfl⟩ := Table.mem_updateWhere.mp hr'
    by_cases hid : r.leaseId = lease.leaseId
    · have hsame := Table.eq_of_key_eq hids hr (get_eq_some hget).1 hid
      rw [if_pos (by simpa using hid)] at hlive' ⊢
      exact .kept r hr hlive' ⟨rfl, rfl, rfl⟩ fun _ => .inr ⟨call, request, now, rfl, hsame ▸ hworkspace⟩
    · rw [if_neg (by simpa using hid)] at hlive' ⊢
      exact .kept r hr hlive' ⟨rfl, rfl, rfl⟩ .inl

lemma origin_of_step {event : Event} (h : Inv settings s) (hstep : step settings s event = some s')
    {r' : LeaseRecord} (hr' : r' ∈ s'.records) (hlive' : r'.live = true) : Origin s event r' := by
  cases event with
  | issue request now =>
    simp only [step] at hstep
    split at hstep
    · cases hstep
      exact (descends_of_eq rfl).origin hr' hlive'
    · cases hstep
      exact (descends_of_eq rfl).origin hr' hlive'
  | signed call certificate leaseId accessToken =>
    simp only [step] at hstep
    split at hstep
    · cases hstep
    · rename_i order hfound
      split at hstep
      · cases hstep
      · cases hstep
        exact origin_of_register (List.mem_of_find?_eq_some hfound) hr' hlive'
  | openTunnel call request now =>
    simp only [step] at hstep
    split at hstep
    · cases hstep
    · split at hstep
      · rename_i hanswer
        cases hstep
        exact origin_of_openTunnel hanswer h.records.ids hr' hlive'
      · rename_i hanswer
        cases hstep
        exact origin_of_openTunnel hanswer h.records.ids hr' hlive'
  | connected call stream now =>
    simp only [step] at hstep
    split at hstep
    · cases hstep
    · rename_i found leaseId hfound
      split at hstep
      · cases hstep
      · cases hstep
        have hcall : found = call := by simpa using List.find?_some hfound
        rw [hcall] at hfound
        exact (descends_attachTunnel h (List.mem_of_find?_eq_some hfound) stream now).origin hr' hlive'
  | revoke leaseId workspaceId wallet =>
    cases hstep
    exact (descends_revoke s leaseId workspaceId wallet).origin hr' hlive'
  | revokeWorkspace workspaceId =>
    cases hstep
    exact (descends_revokeWorkspace s workspaceId).origin hr' hlive'
  | sweepExpired now =>
    cases hstep
    exact (descends_revokeEach _ s).origin hr' hlive'
  | expiryTimer leaseId =>
    cases hstep
    exact (descends_revokeTrusted s leaseId).origin hr' hlive'
  | stop =>
    cases hstep
    exact (descends_revokeEach (fun _ => true) s).origin hr' hlive'
  | streamEnds stream =>
    cases hstep
    exact (descends_release s stream _).origin hr' hlive'
  | streamCloses stream =>
    cases hstep
    exact (descends_release s stream _).origin hr' hlive'

end LeaseManager

/-! ### The agent -/

/-- The body that creates a workspace, after its schema. -/
structure CreateWorkspaceBody where
  id : String
  leaseExpiresAt : ℤ
  storage : RuntimeStorage
  identity : Option String

/-- What the guest answers once it is configured, after its schema; SSH is always available there. -/
structure GuestConnectionStatus where
  workspaceId : String
  hostKey : String
  nfsAvailable : Bool

/-- The body of a request for a lease, after its schema. -/
structure AgentLeaseBody where
  publicKey : String
  mode : SshAccessMode
  requestedTtlMs : Option ℤ

/-- An entry of `connections` without its wallet, which the upgrade handler reads. -/
structure ConnectionDetails where
  leaseExpiresAt : ℤ
  storageMode : StorageMode
  guest : GuestConnectionStatus

/-- A workspace with the wallet and the lease that it was created with. -/
structure SetUp where
  workspaceId : String
  wallet : String
  leaseExpiresAt : ℤ

/-- What the routes see of the runtime. -/
structure RuntimeView where
  running : List String
  endpoints : List (String × PrivateSshEndpoint)

/-- `sshEndpoint` of the runtimes that have one; `none` is a call that throws. -/
def RuntimeView.sshEndpoint (runtime : RuntimeView) (id : String) : Option PrivateSshEndpoint :=
  if id ∈ runtime.running then runtime.endpoints.lookup id else none

structure SshAgentConfig where
  maxLeaseMs : ℤ
  persistenceEnabled : Bool

/-- The agent with SSH. Calls that create a workspace wait for the runtime in `creating`, then for the guest in
`configuring`; `setUp` notes the entries that there have been. -/
structure SshAgent where
  server : TunnelServer
  details : List (String × ConnectionDetails)
  runtime : RuntimeView
  creating : List (ℕ × CreateWorkspaceBody)
  configuring : List (ℕ × CreateWorkspaceBody)
  setUp : List SetUp

/-- The events of the map and of the manager that only the routes and the sweep bring about. -/
def TunnelServer.Event.isRoute : TunnelServer.Event → Bool
  | .connection .. => true
  | .disconnection .. => true
  | .manager (.issue ..) => true
  | .manager (.revoke ..) => true
  | .manager (.revokeWorkspace ..) => true
  | _ => false

namespace SshAgent

def initial : SshAgent := ⟨.initial, [], ⟨[], []⟩, [], [], []⟩

inductive Event
  | create (call : ℕ) (body : CreateWorkspaceBody) (now : ℤ)
  | created (call : ℕ) (succeeds : Bool)
  | configured (call : ℕ) (guest : Option GuestConnectionStatus)
  | delete (id : String)
  | issue (id : String) (body : AgentLeaseBody) (now : ℤ)
  | revoke (id leaseId : String)
  | sweep
  | runtime (runtime : RuntimeView)
  | server (event : TunnelServer.Event)

def keys (s : SshAgent) : List String := s.server.connections.map (·.1)

/-- `connections.get` -/
def connection (s : SshAgent) (id : String) : Option (String × ConnectionDetails) :=
  (s.server.connections.lookup id).bind fun wallet => (s.details.lookup id).map fun details => (wallet, details)

/-- `connections.set` -/
def setConnection (s : SshAgent) (id wallet : String) (details : ConnectionDetails) : SshAgent :=
  { s with
    server := { s.server with connections := (id, wallet) :: s.server.connections.filter (·.1 ≠ id) }
    details := (id, details) :: s.details.filter (·.1 ≠ id)
    setUp := s.setUp ++ [⟨id, wallet, details.leaseExpiresAt⟩] }

/-- `ssh.revokeWorkspace` and `connections.delete` -/
def forget (s : SshAgent) (id : String) : SshAgent :=
  { s with
    server := { s.server with
      manager := (s.server.manager.revokeWorkspace id).1
      connections := s.server.connections.filter (·.1 ≠ id) }
    details := s.details.filter (·.1 ≠ id) }

/-- The loop of the sweep over the keys; it ends at a key that `revokeWorkspace` throws for. -/
def sweepKeys : List String → SshAgent → SshAgent
  | [], s => s
  | id :: ids, s =>
    if id ∈ s.runtime.running then sweepKeys ids s
    else
      match normalizeWorkspaceId id with
      | .error _ => s
      | .ok _ => sweepKeys ids (s.forget id)

def leaseRequest (id wallet : String) (details : ConnectionDetails) (body : AgentLeaseBody)
    (endpoint : PrivateSshEndpoint) : SshLeaseRequest where
  workspaceId := id
  wallet := wallet
  publicKey := body.publicKey
  mode := body.mode.text
  workspaceLeaseExpiresAt := some details.leaseExpiresAt
  requestedTtlMs := body.requestedTtlMs.map some
  endpoint := endpoint

def onServer (settings : LeaseSettings) (s : SshAgent) (event : TunnelServer.Event) : Option SshAgent :=
  (s.server.step settings event).map fun server => { s with server := server }

def step (settings : LeaseSettings) (config : SshAgentConfig) (s : SshAgent) : Event → Option SshAgent
  | .create call body now =>
    if call ∈ (s.creating ++ s.configuring).map (·.1) then none
    else if body.storage.mode = .persistent ∧ ¬config.persistenceEnabled then some s
    else if now + config.maxLeaseMs + 60000 < body.leaseExpiresAt then some s
    else some { s with creating := s.creating ++ [(call, body)] }
  | .created call succeeds =>
    match s.creating.lookup call with
    | none => none
    | some body =>
      let answered := { s with creating := s.creating.filter (·.1 ≠ call) }
      if ¬succeeds then some answered
      else if ¬isWorkspaceId body.id then none
      else if body.identity = none then some answered
      else some { answered with configuring := s.configuring ++ [(call, body)] }
  | .configured call guest =>
    match s.configuring.lookup call with
    | none => none
    | some body =>
      let answered := { s with configuring := s.configuring.filter (·.1 ≠ call) }
      match body.identity, guest, s.runtime.sshEndpoint body.id with
      | some wallet, some guest, some _ =>
        some (answered.setConnection body.id wallet ⟨body.leaseExpiresAt, body.storage.mode, guest⟩)
      | _, _, _ => some answered
  | .delete id =>
    match normalizeWorkspaceId id with
    | .error _ => some s
    | .ok _ => some (s.forget id)
  | .issue id body now =>
    if id ∉ s.runtime.running then some s
    else
      match s.connection id with
      | none => some s
      | some (wallet, details) =>
        if body.mode = .nfs ∧ ¬details.guest.nfsAvailable then some s
        else
          match s.runtime.sshEndpoint id with
          | none => some s
          | some endpoint =>
            s.onServer settings (.manager (.issue (leaseRequest id wallet details body endpoint) now))
  | .revoke id leaseId =>
    match s.connection id with
    | none => some s
    | some (wallet, _) => s.onServer settings (.manager (.revoke leaseId id wallet))
  | .sweep => some (sweepKeys s.keys s)
  | .runtime runtime => some { s with runtime := runtime }
  | .server event => if event.isRoute then none else s.onServer settings event

end SshAgent

/-! ### What the map guards -/

/-- The order is for the workspace and the wallet of the entry, and knows its lease. -/
structure SetUp.Covers (c : SetUp) (order : CertificateOrder) : Prop where
  workspaceId : normalizeWorkspaceId c.workspaceId = .ok order.workspaceId
  wallet : normalizeWallet c.wallet = .ok order.wallet
  expires : order.request.workspaceLeaseExpiresAt = some c.leaseExpiresAt

namespace LeaseManager

variable {settings : LeaseSettings} {s s' : LeaseManager} {keys : List String} {setUp : List SetUp}

/-- A lease that is engaged is of a workspace among `keys`, and every lease and every order is for a workspace that
has been set up. -/
structure Guarded (settings : LeaseSettings) (keys : List String) (setUp : List SetUp) (s : LeaseManager) :
    Prop where
  inv : s.Inv settings
  engaged : ∀ r ∈ s.records, r.live = true → r.Engaged → ∃ id ∈ keys, normalizeWorkspaceId id = .ok r.workspaceId
  covered : ∀ r ∈ s.records, r.live = true → r.wallet = r.order.wallet ∧ ∃ c ∈ setUp, c.Covers r.order
  ordered : ∀ order ∈ s.issuing, ∃ c ∈ setUp, c.Covers order

lemma guarded_initial : Guarded settings [] [] initial where
  inv := inv_initial
  engaged := by simp [initial]
  covered := by simp [initial]
  ordered := by simp [initial]

lemma orderCertificate_request {call : ℕ} {request : SshLeaseRequest} {now : ℤ} {order : CertificateOrder}
    (h : orderCertificate settings call request now = .ok order) :
    order.request = request ∧ normalizeWorkspaceId request.workspaceId = .ok order.workspaceId ∧
      normalizeWallet request.wallet = .ok order.wallet := by
  rw [orderCertificate] at h
  obtain ⟨workspaceId, hworkspace, h⟩ := Checked.of_bind_ok h
  obtain ⟨wallet, hwallet, h⟩ := Checked.of_bind_ok h
  obtain ⟨mode, -, h⟩ := Checked.of_bind_ok h
  obtain ⟨endpoint, -, h⟩ := Checked.of_bind_ok h
  split at h
  · cases h
  · split_ifs at h
    split at h
    · cases h
    · split_ifs at h
      cases h
      exact ⟨rfl, hworkspace, hwallet⟩

/-- The event asks for tunnels into workspaces among `keys`, and for leases of workspaces that are set up. -/
def Event.Admitted (keys : List String) (setUp : List SetUp) : Event → Prop
  | .issue request _ => ∃ c ∈ setUp, request.workspaceId = c.workspaceId ∧ request.wallet = c.wallet ∧
      request.workspaceLeaseExpiresAt = some c.leaseExpiresAt
  | .openTunnel _ request _ => request.workspaceId ∈ keys
  | _ => True

lemma Guarded.issuing_step {event : Event} (h : Guarded settings keys setUp s)
    (hadmitted : event.Admitted keys setUp) (hstep : step settings s event = some s') :
    ∀ order ∈ s'.issuing, ∃ c ∈ setUp, c.Covers order := by
  intro order horder
  rcases (follows_of_step hstep).issuing order horder with hold | ⟨-, request, now, rfl⟩
  · exact h.ordered order hold
  · simp only [step] at hstep
    split at hstep
    · cases hstep
      exact h.ordered order horder
    · rename_i order' hordered
      cases hstep
      rcases List.mem_append.mp horder with hold | hnew
      · exact h.ordered order hold
      · rw [List.mem_singleton.mp hnew]
        obtain ⟨hrequest, hworkspace, hwallet⟩ := orderCertificate_request hordered
        obtain ⟨c, hc, hid, howner, hexpires⟩ := hadmitted
        exact ⟨c, hc, hid ▸ hworkspace, howner ▸ hwallet, hrequest ▸ hexpires⟩

lemma Guarded.step {event : Event} (h : Guarded settings keys setUp s)
    (hadmitted : event.Admitted keys setUp) (hstep : step settings s event = some s') :
    Guarded settings keys setUp s' where
  inv := h.inv.step hstep
  engaged r' hr' hlive' hengaged' := by
    cases origin_of_step h.inv hstep hr' hlive' with
    | kept r hr hlive hscope hengaged =>
      rw [hscope.workspaceId]
      rcases hengaged hengaged' with hbefore | ⟨call, request, now, rfl, hworkspace⟩
      · exact h.engaged r hr hlive hbefore
      · exact ⟨request.workspaceId, hadmitted, hworkspace⟩
    | signed horder hwallet hidle => exact absurd hengaged' hidle
  covered r' hr' hlive' := by
    cases origin_of_step h.inv hstep hr' hlive' with
    | kept r hr hlive hscope hengaged =>
      rw [hscope.wallet, hscope.order]
      exact h.covered r hr hlive
    | signed horder hwallet hidle => exact ⟨hwallet, h.ordered r'.order horder⟩
  ordered := h.issuing_step hadmitted hstep

/-- With its leases revoked a workspace may leave the keys. -/
lemma Guarded.revokeWorkspace {id workspaceId : String} (h : Guarded settings keys setUp s)
    (hid : normalizeWorkspaceId id = .ok workspaceId) :
    Guarded settings (keys.filter (· ≠ id)) setUp (s.revokeWorkspace id).1 := by
  have hrevoked : (s.revokeWorkspace id).1 = s.revokeEach fun r => r.workspaceId = workspaceId := by
    rw [LeaseManager.revokeWorkspace, hid]
  have hkept := @Guarded.step _ _ _ _ _ (.revokeWorkspace id) h trivial rfl
  refine ⟨hkept.inv, fun r hr hlive hengaged => ?_, hkept.covered, hkept.ordered⟩
  obtain ⟨key, hkey, hworkspace⟩ := hkept.engaged r hr hlive hengaged
  refine ⟨key, List.mem_filter.mpr ⟨hkey, decide_eq_true ?_⟩, hworkspace⟩
  rintro rfl
  rw [hrevoked] at hr
  have hother := (live_of_revokeEach _ hr hlive).2
  rw [hid] at hworkspace
  exact of_decide_eq_false hother (Except.ok.inj hworkspace).symm

lemma Guarded.mono {keys' : List String} {setUp' : List SetUp} (h : Guarded settings keys setUp s)
    (hkeys : ∀ id ∈ keys, id ∈ keys') (hsetUp : ∀ c ∈ setUp, c ∈ setUp') : Guarded settings keys' setUp' s where
  inv := h.inv
  engaged r hr hlive hengaged := (h.engaged r hr hlive hengaged).imp fun id hid => ⟨hkeys id hid.1, hid.2⟩
  covered r hr hlive := (h.covered r hr hlive).imp_right fun hc => hc.imp fun c hc => ⟨hsetUp c hc.1, hc.2⟩
  ordered order horder := (h.ordered order horder).imp fun c hc => ⟨hsetUp c hc.1, hc.2⟩

end LeaseManager

/-! ### The upgrade handler -/

lemma mem_keys_of_lookup {β : Type} {l : List (String × β)} {id : String} {b : β} (h : l.lookup id = some b) :
    id ∈ l.map (·.1) := by
  obtain ⟨l₁, l₂, rfl, -⟩ := List.lookup_eq_some_iff.mp h
  simp

lemma lookup_of_filter {β : Type} {l : List (String × β)} {gone id : String} {b : β}
    (h : (l.filter (·.1 ≠ gone)).lookup id = some b) : l.lookup id = some b := by
  induction l with
  | nil => cases h
  | cons p l ih =>
    by_cases hp : p.1 = gone
    · rw [List.filter_cons_of_neg (by simpa using hp)] at h
      have hne : id ≠ p.1 := by
        rintro rfl
        obtain ⟨q, hq, heq⟩ := List.mem_map.mp (mem_keys_of_lookup h)
        have hkept := (List.mem_filter.mp hq).2
        rw [heq, hp] at hkept
        simp at hkept
      rw [List.lookup_cons, beq_eq_false_iff_ne.mpr hne]
      exact ih h
    · rw [List.filter_cons_of_pos (by simpa using hp), List.lookup_cons] at h
      rw [List.lookup_cons]
      cases hid : id == p.1 with
      | true =>
        rw [hid] at h
        exact h
      | false =>
        rw [hid] at h
        exact ih h

namespace TunnelServer

variable {settings : LeaseSettings} {s s' : TunnelServer}

lemma tunnelRequest_key {upgrade : TunnelUpgrade} {request : SshTunnelRequest}
    (h : s.tunnelRequest upgrade = some request) : request.workspaceId ∈ s.connections.map (·.1) := by
  rw [tunnelRequest] at h
  split_ifs at h
  split at h
  · cases h
  · split at h
    · rename_i hlookup _
      split_ifs at h
      cases h
      exact mem_keys_of_lookup hlookup
    · cases h

/-- What the events outside the routes do to the manager. -/
lemma manager_of_step {event : Event} (hroute : event.isRoute = false)
    (h : s.step settings event = some s') :
    s'.connections = s.connections ∧ (s'.manager = s.manager ∨ ∃ event' : LeaseManager.Event,
      (∀ setUp, event'.Admitted (s.connections.map (·.1)) setUp) ∧
        s.manager.step settings event' = some s'.manager) := by
  cases event with
  | connection => cases hroute
  | disconnection => cases hroute
  | manager event =>
    simp only [step] at h
    split_ifs at h with houtside
    obtain ⟨manager, hmanager, rfl⟩ := Option.map_eq_some_iff.mp h
    refine ⟨rfl, .inr ⟨event, fun setUp => ?_, hmanager⟩⟩
    cases event with
    | issue => cases hroute
    | openTunnel => cases houtside
    | _ => trivial
  | upgrade call upgrade now =>
    simp only [step] at h
    split at h
    · cases h
    · split at h
      · cases h
        exact ⟨rfl, .inl rfl⟩
      · rename_i request hrequest
        split at h
        · cases h
        · rename_i manager hmanager
          split at h
          · cases h
            exact ⟨rfl, .inr ⟨.openTunnel call request now, fun _ => tunnelRequest_key hrequest, hmanager⟩⟩
          · cases h
            exact ⟨rfl, .inr ⟨.openTunnel call request now, fun _ => tunnelRequest_key hrequest, hmanager⟩⟩
  | clientCloses call =>
    cases h
    exact ⟨rfl, .inl rfl⟩
  | connected call stream now =>
    simp only [step] at h
    split at h
    · cases h
    · rename_i manager hmanager
      split at h
      · cases h
        exact ⟨rfl, .inr ⟨.connected call stream now, fun _ => trivial, hmanager⟩⟩
      · cases h
        exact ⟨rfl, .inr ⟨.connected call stream now, fun _ => trivial, hmanager⟩⟩
  | handleUpgrade call outcome =>
    simp only [step] at h
    split at h
    · cases h
    · cases outcome with
      | completed =>
        rw [handleUpgrade] at h
        split_ifs at h
        cases h
        exact ⟨rfl, .inl rfl⟩
      | refused =>
        cases h
        exact ⟨rfl, .inl rfl⟩
      | threw =>
        cases h
        exact ⟨rfl, .inl rfl⟩
  | webSocketCloses stream =>
    simp only [step] at h
    split_ifs at h
    cases h
    exact ⟨rfl, .inl rfl⟩
  | tunnelFails stream =>
    simp only [step] at h
    split_ifs at h
    cases h
    exact ⟨rfl, .inr ⟨.streamCloses stream, fun _ => trivial, rfl⟩⟩

end TunnelServer

/-! ### Runs of the agent -/

namespace SshAgent

variable {settings : LeaseSettings} {config : SshAgentConfig} {s s' : SshAgent}

structure Inv (settings : LeaseSettings) (s : SshAgent) : Prop where
  guarded : s.server.manager.Guarded settings s.keys s.setUp
  ids : ∀ id ∈ s.keys, isWorkspaceId id = true
  configuring : ∀ p ∈ s.configuring, isWorkspaceId p.2.id = true
  known : ∀ id wallet details, s.connection id = some (wallet, details) →
    (⟨id, wallet, details.leaseExpiresAt⟩ : SetUp) ∈ s.setUp

lemma inv_initial : initial.Inv settings where
  guarded := LeaseManager.guarded_initial
  ids := by simp [initial, keys, TunnelServer.initial]
  configuring := by simp [initial]
  known := by simp [initial, connection, TunnelServer.initial]

lemma connection_eq_some {id wallet : String} {details : ConnectionDetails}
    (h : s.connection id = some (wallet, details)) :
    s.server.connections.lookup id = some wallet ∧ s.details.lookup id = some details := by
  obtain ⟨owner, howner, h⟩ := Option.bind_eq_some_iff.mp h
  obtain ⟨found, hfound, heq⟩ := Option.map_eq_some_iff.mp h
  cases heq
  exact ⟨howner, hfound⟩

lemma keys_filter (s : SshAgent) (id : String) :
    (s.server.connections.filter (·.1 ≠ id)).map (·.1) = s.keys.filter (· ≠ id) := by
  rw [keys, List.filter_map]
  rfl

lemma Inv.forget {id workspaceId : String} (h : s.Inv settings)
    (hid : normalizeWorkspaceId id = .ok workspaceId) : (s.forget id).Inv settings where
  guarded := by
    rw [keys, SshAgent.forget, keys_filter]
    exact h.guarded.revokeWorkspace hid
  ids key hkey := by
    rw [keys, SshAgent.forget, keys_filter] at hkey
    exact h.ids key (List.mem_filter.mp hkey).1
  configuring := h.configuring
  known key wallet details hkey := by
    obtain ⟨hwallet, hdetails⟩ := connection_eq_some hkey
    refine h.known key wallet details ?_
    rw [connection, lookup_of_filter hwallet, Option.bind_some, lookup_of_filter hdetails]
    rfl

lemma Inv.setConnection {id wallet : String} {details : ConnectionDetails} (h : s.Inv settings)
    (hid : isWorkspaceId id = true) : (s.setConnection id wallet details).Inv settings where
  guarded := by
    refine h.guarded.mono (fun key hkey => ?_) fun c hc => List.mem_append_left _ hc
    rw [keys, SshAgent.setConnection, List.map_cons, keys_filter, List.mem_cons]
    by_cases hsame : key = id
    · exact .inl hsame
    · exact .inr (List.mem_filter.mpr ⟨hkey, decide_eq_true hsame⟩)
  ids key hkey := by
    rw [keys, SshAgent.setConnection, List.map_cons, keys_filter, List.mem_cons] at hkey
    rcases hkey with rfl | hkey
    · exact hid
    · exact h.ids key (List.mem_filter.mp hkey).1
  configuring := h.configuring
  known key owner found hkey := by
    obtain ⟨howner, hfound⟩ := connection_eq_some hkey
    by_cases hsame : key = id
    · subst hsame
      rw [SshAgent.setConnection, List.lookup_cons_self] at howner hfound
      obtain rfl := Option.some.inj howner
      obtain rfl := Option.some.inj hfound
      exact List.mem_append_right _ (List.mem_singleton_self _)
    · rw [SshAgent.setConnection, List.lookup_cons, beq_eq_false_iff_ne.mpr hsame] at howner hfound
      refine List.mem_append_left _ (h.known key owner found ?_)
      rw [connection, lookup_of_filter howner, Option.bind_some, lookup_of_filter hfound]
      rfl

lemma normalizeWorkspaceId_of_isWorkspaceId {id : String} (h : isWorkspaceId id = true) :
    normalizeWorkspaceId id = .ok (lowerCase id) := by
  rw [normalizeWorkspaceId, if_pos h]

/-- The sweep forgets the keys whose workspace does not run. -/
lemma Inv.sweepKeys {ids : List String} (h : s.Inv settings) (hids : ∀ id ∈ ids, isWorkspaceId id = true) :
    (SshAgent.sweepKeys ids s).Inv settings ∧ (SshAgent.sweepKeys ids s).runtime = s.runtime ∧
      ∀ key ∈ (SshAgent.sweepKeys ids s).keys, key ∈ s.keys ∧ (key ∈ ids → key ∈ s.runtime.running) := by
  induction ids generalizing s with
  | nil => exact ⟨h, rfl, fun key hkey => ⟨hkey, fun hmem => absurd hmem List.not_mem_nil⟩⟩
  | cons id ids ih =>
    have hrest := fun key hkey => hids key (List.mem_cons_of_mem id hkey)
    rw [SshAgent.sweepKeys]
    split_ifs with hrunning
    · obtain ⟨hinv, hruntime, hkeys⟩ := ih h hrest
      refine ⟨hinv, hruntime, fun key hkey => ⟨(hkeys key hkey).1, fun hmem => ?_⟩⟩
      rcases List.mem_cons.mp hmem with rfl | hmem
      · exact hrunning
      · exact (hkeys key hkey).2 hmem
    · have hid := normalizeWorkspaceId_of_isWorkspaceId (hids id List.mem_cons_self)
      rw [hid]
      obtain ⟨hinv, hruntime, hkeys⟩ := ih (h.forget hid) hrest
      refine ⟨hinv, hruntime, fun key hkey => ?_⟩
      obtain ⟨hkept, hruns⟩ := hkeys key hkey
      rw [keys, SshAgent.forget, keys_filter] at hkept
      obtain ⟨hkey', hne⟩ := List.mem_filter.mp hkept
      refine ⟨hkey', fun hmem => ?_⟩
      rcases List.mem_cons.mp hmem with rfl | hmem
      · simp at hne
      · exact hruns hmem

lemma Inv.onManager {event : LeaseManager.Event} (h : s.Inv settings)
    (hadmitted : event.Admitted s.keys s.setUp) (hs : s.onServer settings (.manager event) = some s') :
    s'.Inv settings := by
  obtain ⟨server, hserver, rfl⟩ := Option.map_eq_some_iff.mp hs
  simp only [TunnelServer.step] at hserver
  split_ifs at hserver
  obtain ⟨manager, hmanager, rfl⟩ := Option.map_eq_some_iff.mp hserver
  exact ⟨h.guarded.step hadmitted hmanager, h.ids, h.configuring, h.known⟩

lemma Inv.onServer {event : TunnelServer.Event} (h : s.Inv settings) (hroute : event.isRoute = false)
    (hs : s.onServer settings event = some s') : s'.Inv settings := by
  obtain ⟨server, hserver, rfl⟩ := Option.map_eq_some_iff.mp hs
  obtain ⟨hconnections, hmanager⟩ := TunnelServer.manager_of_step hroute hserver
  have hkeys : ({ s with server := server } : SshAgent).keys = s.keys := by
    rw [keys, keys, hconnections]
  have hknown : ∀ id, ({ s with server := server } : SshAgent).connection id = s.connection id := by
    intro id
    rw [connection, connection, hconnections]
  refine ⟨?_, hkeys ▸ h.ids, h.configuring, fun id wallet details hid => h.known id wallet details (hknown id ▸ hid)⟩
  rw [hkeys]
  rcases hmanager with hsame | ⟨event', hadmitted, hstep⟩
  · exact hsame ▸ h.guarded
  · exact h.guarded.step (hadmitted s.setUp) hstep

lemma Inv.answered {configuring : List (ℕ × CreateWorkspaceBody)} (h : s.Inv settings)
    (creating : List (ℕ × CreateWorkspaceBody)) (hconfiguring : ∀ p ∈ configuring, isWorkspaceId p.2.id = true) :
    Inv settings { s with creating := creating, configuring := configuring } :=
  ⟨h.guarded, h.ids, hconfiguring, h.known⟩

lemma Inv.configured {call : ℕ} {guest : Option GuestConnectionStatus} (h : s.Inv settings)
    (hs : s.step settings config (.configured call guest) = some s') : s'.Inv settings := by
  simp only [SshAgent.step] at hs
  split at hs
  · cases hs
  · rename_i body hlookup
    obtain ⟨before, after, hsplit, -⟩ := List.lookup_eq_some_iff.mp hlookup
    have hid := h.configuring (call, body) (by rw [hsplit]; simp)
    have hanswered : Inv settings { s with configuring := s.configuring.filter (·.1 ≠ call) } :=
      h.answered s.creating fun p hp => h.configuring p (List.mem_filter.mp hp).1
    split at hs
    · cases hs
      exact hanswered.setConnection hid
    · cases hs
      exact hanswered

lemma Inv.step {event : Event} (h : s.Inv settings) (hs : s.step settings config event = some s') :
    s'.Inv settings := by
  cases event with
  | create call body now =>
    simp only [SshAgent.step] at hs
    split_ifs at hs
    · cases hs
      exact h
    · cases hs
      exact h
    · cases hs
      exact h.answered _ h.configuring
  | created call succeeds =>
    simp only [SshAgent.step] at hs
    split at hs
    · cases hs
    · rename_i body _
      split at hs
      · cases hs
        exact h.answered _ h.configuring
      · split at hs
        · cases hs
        · rename_i hid
          split at hs
          · cases hs
            exact h.answered _ h.configuring
          · cases hs
            refine h.answered _ fun p hp => ?_
            rcases List.mem_append.mp hp with hold | hnew
            · exact h.configuring p hold
            · rw [List.mem_singleton.mp hnew]
              exact not_not.mp hid
  | configured call guest => exact h.configured hs
  | delete id =>
    simp only [SshAgent.step] at hs
    split at hs
    · cases hs
      exact h
    · rename_i hid
      cases hs
      exact h.forget hid
  | issue id body now =>
    simp only [SshAgent.step] at hs
    split at hs
    · cases hs
      exact h
    · split at hs
      · cases hs
        exact h
      · rename_i wallet details hconnection
        split at hs
        · cases hs
          exact h
        · split at hs
          · cases hs
            exact h
          · rename_i endpoint _
            have hadmitted : (LeaseManager.Event.issue (leaseRequest id wallet details body endpoint) now).Admitted
                s.keys s.setUp := ⟨_, h.known id wallet details hconnection, rfl, rfl, rfl⟩
            exact h.onManager hadmitted hs
  | revoke id leaseId =>
    simp only [SshAgent.step] at hs
    split at hs
    · cases hs
      exact h
    · rename_i wallet _ _
      have hadmitted : (LeaseManager.Event.revoke leaseId id wallet).Admitted s.keys s.setUp := trivial
      exact h.onManager hadmitted hs
  | sweep =>
    cases hs
    exact (h.sweepKeys h.ids).1
  | runtime runtime =>
    cases hs
    exact ⟨h.guarded, h.ids, h.configuring, h.known⟩
  | server event =>
    simp only [SshAgent.step] at hs
    split_ifs at hs with hroute
    exact h.onServer (Bool.eq_false_iff.mpr hroute) hs

lemma inv_of_leads (h : Transition.Leads (step settings config) Transition.anyStep initial s) : s.Inv settings :=
  h.invariant (Inv settings) inv_initial fun _ _ _ hinv _ hs => hinv.step hs

/-! ### Tunnels -/

/-- A tunnel flows under a live lease of the workspace. -/
def FlowsInto (s : SshAgent) (workspaceId : String) : Prop :=
  ∃ t ∈ s.server.manager.streams, t.state = .flowing ∧
    ∃ r ∈ s.server.manager.records, r.live = true ∧ r.leaseId = t.leaseId ∧ r.workspaceId = workspaceId

/-- Tunnels flow into workspaces with an entry only: none into one that has been deleted, and none into one that a sweep
finds not to run. Each live lease belongs to the wallet that its workspace was created with, and ends with the lease of
the workspace at the latest. -/
structure Served (settings : LeaseSettings) (config : SshAgentConfig) (s : SshAgent) : Prop where
  leased : ∀ t ∈ s.server.manager.streams, t.state = .flowing →
    ∃ r ∈ s.server.manager.records, r.live = true ∧ r.leaseId = t.leaseId
  owned : ∀ r ∈ s.server.manager.records, r.live = true → ∃ c ∈ s.setUp,
    normalizeWorkspaceId c.workspaceId = .ok r.workspaceId ∧ normalizeWallet c.wallet = .ok r.wallet ∧
      r.validBefore ≤ c.leaseExpiresAt
  connected : ∀ workspaceId, s.FlowsInto workspaceId →
    ∃ id ∈ s.keys, normalizeWorkspaceId id = .ok workspaceId
  swept : ∀ s', s.step settings config .sweep = some s' → ∀ workspaceId, s'.FlowsInto workspaceId →
    ∃ id ∈ s.runtime.running, normalizeWorkspaceId id = .ok workspaceId
  deleted : ∀ id workspaceId s', normalizeWorkspaceId id = .ok workspaceId →
    s.step settings config (.delete id) = some s' → ¬s'.FlowsInto workspaceId

lemma Inv.connected (h : s.Inv settings) {workspaceId : String} (hflows : s.FlowsInto workspaceId) :
    ∃ id ∈ s.keys, normalizeWorkspaceId id = .ok workspaceId := by
  obtain ⟨t, ht, hflowing, r, hr, -, hid, rfl⟩ := hflows
  obtain ⟨r', hr', hlive, hid', hactive⟩ := h.guarded.inv.flowing t ht hflowing
  have hsame := Table.eq_of_key_eq h.guarded.inv.records.ids hr' hr (hid'.trans hid.symm)
  rw [← hsame]
  exact h.guarded.engaged r' hr' hlive (.inl (List.ne_nil_of_mem hactive))

lemma Inv.owned (h : s.Inv settings) {r : LeaseRecord} (hr : r ∈ s.server.manager.records)
    (hlive : r.live = true) : ∃ c ∈ s.setUp, normalizeWorkspaceId c.workspaceId = .ok r.workspaceId ∧
      normalizeWallet c.wallet = .ok r.wallet ∧ r.validBefore ≤ c.leaseExpiresAt := by
  have hvalid := h.guarded.inv.records.valid r hr
  obtain ⟨hwallet, c, hc, hcovers⟩ := h.guarded.covered r hr hlive
  obtain ⟨expiresAt, hexpires, hle⟩ := hvalid.withinLimits.1
  rw [hcovers.expires] at hexpires
  obtain rfl := Option.some.inj hexpires
  refine ⟨c, hc, ?_, ?_, hvalid.validBefore_eq ▸ hle⟩
  · rw [hvalid.workspaceId_eq]
    exact hcovers.workspaceId
  · rw [hwallet]
    exact hcovers.wallet

/-- In every run of the routes, the sweep, the upgrade handler and the runtime. -/
theorem served_of_leads (settings : LeaseSettings) (config : SshAgentConfig) {s : SshAgent}
    (h : Transition.Leads (step settings config) Transition.anyStep initial s) : s.Served settings config := by
  have hinv := inv_of_leads h
  refine ⟨fun t ht hflowing => ?_, fun r hr hlive => hinv.owned hr hlive, fun w hflows => hinv.connected hflows, ?_, ?_⟩
  · obtain ⟨r, hr, hlive, hid, -⟩ := hinv.guarded.inv.flowing t ht hflowing
    exact ⟨r, hr, hlive, hid⟩
  · rintro s' hs workspaceId hflows
    cases hs
    obtain ⟨hinv', -, hkeys⟩ := hinv.sweepKeys hinv.ids
    obtain ⟨id, hid, hworkspace⟩ := hinv'.connected hflows
    exact ⟨id, (hkeys id hid).2 (hkeys id hid).1, hworkspace⟩
  · rintro id workspaceId s' hid hs ⟨t, ht, hflowing, r, hr, hlive, hlease, rfl⟩
    simp only [SshAgent.step, hid] at hs
    cases hs
    simp only [SshAgent.forget, LeaseManager.revokeWorkspace, hid] at hr
    have hother := (LeaseManager.live_of_revokeEach _ hr hlive).2
    exact of_decide_eq_false hother rfl

/-- A workspace is created and configured, and a lease of it is issued and used. -/
def demoRun : List Event := [
  .create 0 ⟨LeaseManager.demoWorkspace, 3600000, ⟨.disposable, none, 1⟩, some LeaseManager.demoWallet⟩ 0,
  .created 0 true,
  .runtime ⟨[LeaseManager.demoWorkspace], [(LeaseManager.demoWorkspace, .tcp "127.0.0.1" (some 22))]⟩,
  .configured 0 (some ⟨LeaseManager.demoWorkspace, "ssh-ed25519 AAAA", false⟩),
  .issue LeaseManager.demoWorkspace ⟨"ssh-ed25519 AAAA", .shell, none⟩ 0,
  .server (.manager (.signed 0 (some LeaseManager.demoCertificate) "lease" LeaseManager.demoToken)),
  .server (.upgrade 0 TunnelServer.demoUpgrade 1000),
  .server (.connected 0 (some 7) 1001)]

theorem served_of_leads_tunnel :
    ∃ s, Transition.exec (step LeaseManager.demoSettings ⟨3600000, false⟩) initial demoRun = some s ∧
      s.server.manager.streams = [⟨7, "lease", .flowing⟩] ∧
      s.Served LeaseManager.demoSettings ⟨3600000, false⟩ := by
  have hrun : (Transition.exec (step LeaseManager.demoSettings ⟨3600000, false⟩) initial demoRun).map
      (·.server.manager.streams) = some [⟨7, "lease", .flowing⟩] := by
    decide +kernel
  obtain ⟨s, hs, hstreams⟩ := Option.map_eq_some_iff.mp hrun
  exact ⟨s, hs, hstreams, served_of_leads LeaseManager.demoSettings ⟨3600000, false⟩ (Transition.leads_of_exec hs)⟩

end SshAgent

end Bloom
