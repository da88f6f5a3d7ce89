import BloomWorkspaces.Library.Table
import BloomWorkspaces.Library.Transition
import BloomWorkspaces.Ssh.Contracts

/-!
# The SSH lease manager

`SshLeaseManager`. A call of `issue` waits for its signer and a call of `openTunnel` for its
connector, so each is two steps with the data of the call in between. Records and streams are objects
that outlive their place in the map and the set, so the state keeps all of them.
-/

namespace Bloom

structure SshLeaseRequest where
  workspaceId : String
  wallet : String
  publicKey : String
  mode : String
  workspaceLeaseExpiresAt : JsNumber
  requestedTtlMs : Option JsNumber
  endpoint : PrivateSshEndpoint
  deriving DecidableEq

structure SshTunnelRequest where
  leaseId : String
  workspaceId : String
  wallet : String
  mode : String
  accessToken : String
  deriving DecidableEq

structure SignedWorkspaceCertificate where
  certificate : String
  fingerprint : String
  principal : String
  serial : String
  validAfter : ℤ
  validBefore : ℤ
  mode : SshAccessMode
  deriving DecidableEq

/-- What `issue` has worked out when it calls the signer, with the number of the call, its request and
its time. -/
structure CertificateOrder where
  call : ℕ
  request : SshLeaseRequest
  issuedAt : ℤ
  workspaceId : String
  wallet : String
  mode : SshAccessMode
  endpoint : PrivateSshEndpoint
  validAfter : ℤ
  validBefore : ℤ
  deriving DecidableEq

/-- A `LeaseRecord`. `live` says that the map holds it; the token is kept by the client only. -/
structure LeaseRecord extends SignedWorkspaceCertificate where
  leaseId : String
  workspaceId : String
  wallet : String
  endpoint : PrivateSshEndpoint
  tokenHash : List UInt8
  active : List ℕ
  pending : ℕ
  live : Bool
  accessToken : String
  order : CertificateOrder
  deriving DecidableEq

/-- A stream from the connector is `ended` once it has emitted `end`, which does not destroy it. -/
inductive StreamState
  | flowing
  | ended
  | destroyed
  deriving DecidableEq, Repr

structure TunnelStream where
  id : ℕ
  leaseId : String
  state : StreamState
  deriving DecidableEq, Repr

/-- The options of the constructor after its checks, and the functions of `node:crypto`. -/
structure LeaseSettings where
  socketRoot : String
  maxLeaseMs : ℤ
  maxConnections : ℕ
  sha256 : String → List UInt8
  walletDigest : String → String
  maxLeaseMs_ge : 5000 ≤ maxLeaseMs
  maxLeaseMs_le : maxLeaseMs ≤ maxSshLeaseMs
  maxConnections_pos : 1 ≤ maxConnections
  maxConnections_le : maxConnections ≤ 8

/-- A manager: its records, the streams it has been given, the calls of `issue` that wait for their
signer and the calls of `openTunnel` that wait for their connector. Calls of `issue` are numbered, and
`stopped` notes a call of `stop`. -/
structure LeaseManager where
  records : List LeaseRecord
  streams : List TunnelStream
  issued : ℕ
  issuing : List CertificateOrder
  opening : List (ℕ × String)
  stopped : Bool
  deriving DecidableEq

namespace LeaseManager

def initial : LeaseManager := ⟨[], [], 0, [], [], false⟩

def isTokenChar (c : Char) : Bool := c.isAlphanum || c = '_' || c = '-'

def digestToken (settings : LeaseSettings) (token : String) : List UInt8 :=
  if token.toList.length < 32 ∨ 256 < token.toList.length ∨ token.toList.all isTokenChar = false then
    List.replicate 32 0
  else settings.sha256 token

/-- What `randomBytes(32).toString("base64url")` can return. -/
def isAccessToken (token : String) : Bool :=
  token.toList.length = 43 && token.toList.all isTokenChar

/-- `this.leases.get` -/
def get (s : LeaseManager) (leaseId : String) : Option LeaseRecord :=
  s.records.find? fun r => r.live && r.leaseId = leaseId

def updateRecord (s : LeaseManager) (leaseId : String) (f : LeaseRecord → LeaseRecord) :
    LeaseManager :=
  { s with records := Table.updateWhere (fun r => r.leaseId = leaseId) f s.records }

def setStreams (s : LeaseManager) (p : TunnelStream → Bool) (state : StreamState) : LeaseManager :=
  { s with streams := Table.updateWhere p (fun stream => { stream with state := state }) s.streams }

/-! ### Revoking -/

def revokeTrusted (s : LeaseManager) (leaseId : String) : LeaseManager :=
  match s.get leaseId with
  | none => s
  | some lease =>
    (s.setStreams (fun stream => stream.id ∈ lease.active) .destroyed).updateRecord leaseId
      fun r => { r with live := false, active := [] }

/-- A loop over the leases in the map that revokes those with `p`. -/
def revokeEach (s : LeaseManager) (p : LeaseRecord → Bool) : LeaseManager :=
  (s.records.filter fun r => r.live && p r).foldl (fun s r => s.revokeTrusted r.leaseId) s

def revoke (s : LeaseManager) (leaseId workspaceId wallet : String) : LeaseManager × Option String :=
  match s.get leaseId with
  | none => (s, some "SSH lease not found")
  | some lease =>
    match normalizeWorkspaceId workspaceId with
    | .error message => (s, some message)
    | .ok id =>
      if lease.workspaceId ≠ id then (s, some "SSH lease not found")
      else
        match normalizeWallet wallet with
        | .error message => (s, some message)
        | .ok owner =>
          if lease.wallet ≠ owner then (s, some "SSH lease not found")
          else (s.revokeTrusted leaseId, none)

def revokeWorkspace (s : LeaseManager) (workspaceId : String) : LeaseManager × Option String :=
  match normalizeWorkspaceId workspaceId with
  | .error message => (s, some message)
  | .ok id => (s.revokeEach fun r => r.workspaceId = id, none)

def sweepExpired (s : LeaseManager) (now : ℤ) : LeaseManager :=
  s.revokeEach fun r => r.validBefore ≤ now

def stop (s : LeaseManager) : LeaseManager := s.revokeEach fun _ => true

/-! ### Issuing -/

/-- `issue` up to the call of its signer. -/
def orderCertificate (settings : LeaseSettings) (call : ℕ) (request : SshLeaseRequest) (now : ℤ) :
    Except String CertificateOrder := do
  let workspaceId ← normalizeWorkspaceId request.workspaceId
  let wallet ← normalizeWallet request.wallet
  let mode ← normalizeAccessMode request.mode
  let endpoint ← validateEndpoint settings.socketRoot request.endpoint
  match request.workspaceLeaseExpiresAt.safeInteger with
  | none => .error "Workspace lease is expired"
  | some expiresAt =>
    if expiresAt ≤ now + 1000 then .error "Workspace lease is expired"
    else
      match (request.requestedTtlMs.getD (some settings.maxLeaseMs)).safeInteger with
      | none => .error "Invalid requested SSH lease"
      | some requested =>
        if requested < 5000 ∨ settings.maxLeaseMs < requested then
          .error "Invalid requested SSH lease"
        else if min expiresAt (now + requested) ≤ now + 1000 then
          .error "SSH lease is too close to expiry"
        else
          .ok ⟨call, request, now, workspaceId, wallet, mode, endpoint, now - 5000,
            min expiresAt (now + requested)⟩

/-- The certificate has the scope that was ordered. -/
def hasScope (settings : LeaseSettings) (order : CertificateOrder)
    (signed : SignedWorkspaceCertificate) : Bool :=
  workspacePrincipal settings.walletDigest order.workspaceId order.wallet order.mode =
      .ok signed.principal &&
    signed.mode = order.mode && signed.validAfter = order.validAfter &&
    signed.validBefore = order.validBefore

def newRecord (settings : LeaseSettings) (order : CertificateOrder)
    (signed : SignedWorkspaceCertificate) (leaseId accessToken : String) : LeaseRecord where
  toSignedWorkspaceCertificate := signed
  leaseId := leaseId
  workspaceId := order.workspaceId
  wallet := order.wallet
  endpoint := order.endpoint
  tokenHash := digestToken settings accessToken
  active := []
  pending := 0
  live := true
  accessToken := accessToken
  order := order

/-- `issue` from the answer of its signer on; `none` is a signer that has thrown. -/
def register (settings : LeaseSettings) (s : LeaseManager) (order : CertificateOrder)
    (signed : Option SignedWorkspaceCertificate) (leaseId accessToken : String) : LeaseManager :=
  match signed with
  | none => s
  | some certificate =>
    if hasScope settings order certificate then
      let replaced := s.revokeEach fun r =>
        r.workspaceId = order.workspaceId && r.mode = order.mode
      { replaced with
        records := replaced.records ++ [newRecord settings order certificate leaseId accessToken] }
    else s

/-! ### Tunnels -/

def authorize (settings : LeaseSettings) (s : LeaseManager) (request : SshTunnelRequest) (now : ℤ) :
    LeaseManager × Except String LeaseRecord :=
  match s.get request.leaseId with
  | none => (s, .error "SSH lease expired or revoked")
  | some lease =>
    if lease.validBefore ≤ now then
      (s.revokeTrusted lease.leaseId, .error "SSH lease expired or revoked")
    else
      match normalizeWorkspaceId request.workspaceId with
      | .error message => (s, .error message)
      | .ok id =>
        if lease.workspaceId ≠ id then (s, .error "SSH lease scope mismatch")
        else
          match normalizeWallet request.wallet with
          | .error message => (s, .error message)
          | .ok owner =>
            if lease.wallet ≠ owner ∨ lease.mode.text ≠ request.mode then
              (s, .error "SSH lease scope mismatch")
            else if digestToken settings request.accessToken ≠ lease.tokenHash then
              (s, .error "Invalid SSH lease token")
            else (s, .ok lease)

/-- `openTunnel` up to the call of its connector, which is made for the lease that it returns. -/
def requestTunnel (settings : LeaseSettings) (s : LeaseManager) (request : SshTunnelRequest)
    (now : ℤ) : LeaseManager × Except String LeaseRecord :=
  match authorize settings s request now with
  | (s', .error message) => (s', .error message)
  | (s', .ok lease) =>
    if settings.maxConnections ≤ lease.active.length + lease.pending then
      (s', .error "SSH lease connection limit reached")
    else (s'.updateRecord lease.leaseId fun r => { r with pending := r.pending + 1 }, .ok lease)

/-- `openTunnel` from the answer of its connector on; `none` is a connector that has thrown. -/
def attachTunnel (s : LeaseManager) (leaseId : String) (stream : Option ℕ) (now : ℤ) : LeaseManager :=
  let returned := s.updateRecord leaseId fun r => { r with pending := r.pending - 1 }
  match stream with
  | none => returned
  | some id =>
    match returned.get leaseId with
    | none => { returned with streams := returned.streams ++ [⟨id, leaseId, .destroyed⟩] }
    | some lease =>
      if lease.validBefore ≤ now then
        { returned with streams := returned.streams ++ [⟨id, leaseId, .destroyed⟩] }
      else
        { returned.updateRecord leaseId fun r => { r with active := r.active ++ [id] } with
          streams := returned.streams ++ [⟨id, leaseId, .flowing⟩] }

/-- `release`, which every stream in a set calls when it ends or closes. -/
def release (s : LeaseManager) (stream : ℕ) (state : StreamState) : LeaseManager :=
  let noted := s.setStreams (fun t => t.id = stream && t.state ≠ .destroyed) state
  { noted with
    records := noted.records.map fun r => { r with active := r.active.filter (· ≠ stream) } }

/-! ### Steps -/

/-- One synchronous section of the manager. `randomUUID` and the connector return what they have not
returned before. -/
inductive Event
  | issue (request : SshLeaseRequest) (now : ℤ)
  | signed (call : ℕ) (certificate : Option SignedWorkspaceCertificate) (leaseId accessToken : String)
  | openTunnel (call : ℕ) (request : SshTunnelRequest) (now : ℤ)
  | connected (call : ℕ) (stream : Option ℕ) (now : ℤ)
  | revoke (leaseId workspaceId wallet : String)
  | revokeWorkspace (workspaceId : String)
  | sweepExpired (now : ℤ)
  | expiryTimer (leaseId : String)
  | stop
  | streamEnds (stream : ℕ)
  | streamCloses (stream : ℕ)
  deriving DecidableEq

def step (settings : LeaseSettings) (s : LeaseManager) : Event → Option LeaseManager
  | .issue request now =>
    match orderCertificate settings s.issued request now with
    | .error _ => some { s with issued := s.issued + 1 }
    | .ok order => some { s with issued := s.issued + 1, issuing := s.issuing ++ [order] }
  | .signed call certificate leaseId accessToken =>
    match s.issuing.find? fun order => order.call = call with
    | none => none
    | some order =>
      if (s.records.map (·.leaseId)).contains leaseId || !isAccessToken accessToken then none
      else
        some (register settings
          { s with issuing := Table.deleteWhere (fun order => order.call = call) s.issuing }
          order certificate leaseId accessToken)
  | .openTunnel call request now =>
    if (s.opening.map (·.1)).contains call then none
    else
      match requestTunnel settings s request now with
      | (s', .error _) => some s'
      | (s', .ok lease) => some { s' with opening := s'.opening ++ [(call, lease.leaseId)] }
  | .connected call stream now =>
    match s.opening.find? fun waiting => waiting.1 = call with
    | none => none
    | some (_, leaseId) =>
      if stream.any fun id => (s.streams.map (·.id)).contains id then none
      else
        some (attachTunnel
          { s with opening := Table.deleteWhere (fun waiting => waiting.1 = call) s.opening }
          leaseId stream now)
  | .revoke leaseId workspaceId wallet => some (s.revoke leaseId workspaceId wallet).1
  | .revokeWorkspace workspaceId => some (s.revokeWorkspace workspaceId).1
  | .sweepExpired now => some (s.sweepExpired now)
  | .expiryTimer leaseId => some (s.revokeTrusted leaseId)
  | .stop => some { s.stop with stopped := true }
  | .streamEnds stream => some (s.release stream .ended)
  | .streamCloses stream => some (s.release stream .destroyed)

end LeaseManager

end Bloom
