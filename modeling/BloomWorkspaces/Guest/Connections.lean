import BloomWorkspaces.Jobs.StartRequest
import BloomWorkspaces.Library.Action
import Mathlib.Data.Finset.Basic

/-!
# SSH and NFS connections of the guest

`configure_connections` holds the mutex of the connection state while it starts the daemons, and
`start_nfs` takes the same mutex again on every path. So no request that gets as far as NFS is ever
answered, and every other one is.
-/

namespace Bloom

namespace Connections

open Action

/-! ### The guest -/

inductive Tool
  | sshd
  | sshKeygen
  | exportfs
  | mountd
  | nfsd
  deriving DecidableEq, Repr

/-- The commands whose status is looked at. -/
inductive Command
  | sshKeygen
  | mount
  | exportfs
  | nfsd
  deriving DecidableEq, Repr

inductive Daemon
  | sshd
  | mountd
  deriving DecidableEq, Repr

/-- What the guest makes of the calls of one request. `has` is `which`, `isAlive` the outcome of signal
zero, and `hostKey` the text of the public host key. -/
structure Circumstances where
  isRoot : Bool
  has : Tool → Bool
  makesSshDir : Bool
  hasHostKey : Bool
  succeeds : Command → Bool
  hasShell : Bool
  nfsdMounted : Bool
  spawns : Daemon → Option ℕ
  isAlive : ℕ → Bool
  hostKey : Option String

structure ConnectionScope where
  workspaceId : String
  wallet : String
  nfsEnabled : Bool
  deriving DecidableEq, Repr

structure ConnectionState where
  sshd : Option ℕ
  mountd : Option ℕ
  scope : Option ConnectionScope
  deriving DecidableEq, Repr

/-- The controller with its mutex, and the daemons that run. -/
structure Controller where
  conn : ConnectionState
  held : Bool
  processes : Finset ℕ

/-- A thread that locks a mutex it holds is blocked. -/
abbrev Control (α : Type) := ExceptT Halt (StateM Controller) α

variable {α : Type}

namespace Controller

def setConn (f : ConnectionState → ConnectionState) (c : Controller) : Controller :=
  { c with conn := f c.conn }

def setHeld (held : Bool) (c : Controller) : Controller := { c with held := held }

def start (pid : ℕ) (c : Controller) : Controller := { c with processes := insert pid c.processes }

/-- `SIGTERM`, and `SIGKILL` after a while. -/
def kill (pid : ℕ) (c : Controller) : Controller := { c with processes := c.processes.erase pid }

end Controller

def fail (error : ControlError) : Control α := throw (.error error)

def liftResult (result : Except ControlError α) : Control α :=
  match result with
  | .ok a => pure a
  | .error error => fail error

/-- What follows an error; a blocked thread goes nowhere. -/
def onError (body : Control α) (handler : ControlError → Control α) : Control α :=
  tryCatch body fun
    | .error error => handler error
    | .blocked => throw .blocked

def lock : Control Unit := do
  let c ← get
  if c.held then throw .blocked else modify (Controller.setHeld true)

/-- A section with the guard of `conn.lock()`, which is dropped at its end. -/
def withConn (body : Control α) : Control α := do
  lock
  let a ← onError body fun error => do
    modify (Controller.setHeld false)
    fail error
  modify (Controller.setHeld false)
  pure a

/-! ### Status -/

/-- `char::is_whitespace` -/
def isWhitespace (c : Char) : Bool :=
  (0x9 ≤ c.toNat && c.toNat ≤ 0xd) || (0x2000 ≤ c.toNat && c.toNat ≤ 0x200a) ||
    c.toNat ∈ [0x20, 0x85, 0xa0, 0x1680, 0x2028, 0x2029, 0x202f, 0x205f, 0x3000]

/-- The first two words of the public host key. -/
def hostKeyText (text : String) : Option String :=
  if "ssh-ed25519 ".toList.isPrefixOf text.toList then
    some (" ".intercalate (((text.toList.splitOnP isWhitespace).filter (· ≠ [])).take 2 |>.map
      String.ofList))
  else none

/-- `connection_status`; without a host key it puts an error into its answer. -/
def connectionStatus (g : Circumstances) (conn : ConnectionState) (workspaceId : String)
    (nfsEnabled : Bool) : Json :=
  match g.hostKey.bind hostKeyText with
  | none => .object [("error", .object [("code", .string "unavailable"),
      ("message", .string "guest SSH host key is unavailable")])]
  | some hostKey =>
    let sshAvailable := conn.sshd.any g.isAlive
    let nfsAvailable := nfsEnabled && conn.mountd.any fun pid => 0 < pid && g.isAlive pid
    .object [
      ("nfs", .object [("available", .bool nfsAvailable),
        ("port", if nfsEnabled then .number (some 2049) else .null)]),
      ("ssh", .object [("available", .bool sshAvailable), ("hostKey", .string hostKey),
        ("port", .number (some 22))]),
      ("workspaceId", .string workspaceId)]

/-! ### NFS -/

def Tool.name : Tool → String
  | sshd => "sshd"
  | sshKeygen => "ssh-keygen"
  | exportfs => "exportfs"
  | mountd => "rpc.mountd"
  | nfsd => "rpc.nfsd"

def unavailable (message : String) : ControlError := ⟨.unavailable, message⟩

/-- `stop_partial_nfs`; it does not look at the status of its commands. -/
def stopPartialNfs (g : Circumstances) : Control Unit := do
  let c ← get
  match c.conn.mountd with
  | some pid => if 0 < pid && g.isAlive pid then modify (Controller.kill pid) else pure ()
  | none => pure ()
  modify (Controller.setConn fun conn => { conn with mountd := none })

/-- An error of `start_nfs`. -/
def failNfs (g : Circumstances) (message : String) : Control Unit := do
  withConn (stopPartialNfs g)
  fail (unavailable message)

def requireTools (g : Circumstances) : List Tool → Control Unit
  | [] => pure ()
  | tool :: tools =>
    if g.has tool then requireTools g tools
    else failNfs g ("NFS server tool is unavailable: " ++ tool.name)

def mountNfsd (g : Circumstances) : Control Unit :=
  if g.nfsdMounted || g.succeeds .mount then pure () else failNfs g "failed to mount nfsd filesystem"

def exportWorkspace (g : Circumstances) : Control Unit :=
  if g.succeeds .exportfs then pure () else failNfs g "exportfs failed"

def startMountd (g : Circumstances) : Control Unit :=
  match g.spawns .mountd with
  | some pid => do
    modify (Controller.start pid)
    if g.isAlive pid then
      withConn (modify (Controller.setConn fun conn => { conn with mountd := some pid }))
    else failNfs g "NFS mount daemon failed to start"
  | none => failNfs g "rpc.mountd failed to start"

def startNfsd (g : Circumstances) : Control Unit :=
  if g.succeeds .nfsd then pure () else failNfs g "rpc.nfsd failed to start"

def startNfs (g : Circumstances) : Control Unit := do
  requireTools g [.exportfs, .mountd, .nfsd]
  mountNfsd g
  exportWorkspace g
  startMountd g
  startNfsd g

/-! ### Requests -/

/-- `WORKSPACE_ID` -/
def isGuestWorkspaceId (s : String) : Bool := isUuidText s.toList && s.toList.all fun c => !c.isUpper

/-- `EVM_ADDRESS` -/
def isEvmAddress (s : String) : Bool :=
  match s.toList with
  | '0' :: 'x' :: digits =>
    digits.length = 40 && digits.all fun c => c.isDigit || ('a' ≤ c && c ≤ 'f')
  | _ => false

def keyPrefix : List Char := "ssh-ed25519 ".toList

/-- `SSH_CA_PUBLIC_KEY_RE`: digits of base64, of which there is at least one, and up to two signs of
padding. -/
def isCaPublicKey (s : String) : Bool :=
  let body := s.toList.drop keyPrefix.length
  let digits := body.takeWhile Base64.isDigit
  let padding := body.dropWhile Base64.isDigit
  keyPrefix.isPrefixOf s.toList && digits ≠ [] && padding.length ≤ 2 && padding.all (· = '=')

structure ConfigureFields where
  workspaceId : String
  wallet : String
  caPublicKey : String
  nfsEnabled : Bool
  deriving DecidableEq, Repr

def ConfigureFields.scope (fields : ConfigureFields) : ConnectionScope :=
  ⟨fields.workspaceId, fields.wallet, fields.nfsEnabled⟩

/-- A string field that has to match an expression. -/
def stringField (request : Json) (key : String) (accepts : String → Bool) (message : String) :
    Except ControlError String :=
  match (request.index key).asStr with
  | none => .error (.invalidRequest message)
  | some s => if accepts s then .ok s else .error (.invalidRequest message)

def boolField (request : Json) (key : String) (message : String) : Except ControlError Bool :=
  match (request.index key).asBool with
  | none => .error (.invalidRequest message)
  | some b => .ok b

def configureFields (request : Json) : Except ControlError ConfigureFields := do
  let workspaceId ← stringField request "workspaceId" isGuestWorkspaceId "invalid workspace id"
  let wallet ← stringField request "wallet" isEvmAddress "invalid workspace wallet"
  let caPublicKey ← stringField request "caPublicKey" isCaPublicKey "invalid SSH CA public key"
  let nfsEnabled ← boolField request "nfs" "invalid NFS capability"
  return ⟨workspaceId, wallet, caPublicKey, nfsEnabled⟩

/-- The payload of the key; the decoder takes canonical texts only. -/
def checkPayload (caPublicKey : String) : Except ControlError Unit :=
  let text := caPublicKey.toList.drop keyPrefix.length
  if Base64.isBase64 text = false ∨ Base64.encode (Base64.decode text) ≠ text then
    .error (.invalidRequest "invalid SSH CA public key")
  else if (Base64.decode text).length < 32 ∨ 128 < (Base64.decode text).length then
    .error (.invalidRequest "invalid SSH CA public key payload")
  else .ok ()

/-- The checks and the preparation of sshd, up to its spawn. -/
def prepareSshd (g : Circumstances) (fields : ConfigureFields) : Except ControlError Unit :=
  if g.isRoot = false then
    .error (unavailable "workspace connections require the root guest controller")
  else if g.has .sshd = false ∨ g.has .sshKeygen = false then
    .error (unavailable "OpenSSH server tooling is unavailable")
  else
    match checkPayload fields.caPublicKey with
    | .error error => .error error
    | .ok () =>
      if g.makesSshDir = false then .error (.internal "cannot create ssh dir")
      else if g.hasHostKey = false ∧ g.succeeds .sshKeygen = false then
        .error (unavailable "ssh-keygen failed")
      else if g.hasShell = false then .error (unavailable "workspace SSH shell helper is unavailable")
      else .ok ()

/-- From the spawn of sshd on. -/
def startDaemons (g : Circumstances) (fields : ConfigureFields) : Control Json :=
  match g.spawns .sshd with
  | none => fail (unavailable "workspace sshd failed to start")
  | some pid => do
    modify (Controller.start pid)
    if fields.nfsEnabled then do
      onError (startNfs g) fun error => do
        modify (Controller.kill pid)
        fail error
      modify (Controller.setConn fun conn => { conn with mountd := some 0 })
    else pure ()
    modify (Controller.setConn fun conn => { conn with sshd := some pid, scope := some fields.scope })
    let c ← get
    pure (connectionStatus g c.conn fields.workspaceId fields.nfsEnabled)

def configureConnectionsLocked (g : Circumstances) (request : Json) : Control Json := do
  let fields ← liftResult (configureFields request)
  let c ← get
  match c.conn.scope with
  | some existing =>
    if existing = fields.scope then
      pure (connectionStatus g c.conn fields.workspaceId fields.nfsEnabled)
    else fail (.conflict "workspace connection scope is already configured")
  | none => do
    liftResult (prepareSshd g fields)
    startDaemons g fields

def configureConnections (g : Circumstances) (request : Json) : Control Json :=
  withConn (configureConnectionsLocked g request)

/-! ### The law -/

/-- The request asks for NFS, and nothing refuses it before sshd runs. -/
structure ReachesNfs (g : Circumstances) (request : Json) (conn : ConnectionState) : Prop where
  nfs : (request.index "nfs").asBool = some true
  workspaceId : ∃ s, (request.index "workspaceId").asStr = some s ∧ isGuestWorkspaceId s = true
  wallet : ∃ s, (request.index "wallet").asStr = some s ∧ isEvmAddress s = true
  caPublicKey : ∃ s, (request.index "caPublicKey").asStr = some s ∧ isCaPublicKey s = true ∧
    checkPayload s = .ok ()
  unconfigured : conn.scope = none
  isRoot : g.isRoot = true
  tools : g.has .sshd = true ∧ g.has .sshKeygen = true
  sshDir : g.makesSshDir = true
  hostKey : g.hasHostKey = true ∨ g.succeeds .sshKeygen = true
  shell : g.hasShell = true
  sshd : ∃ pid, g.spawns .sshd = some pid

/-- The request is answered with the mutex free again, and an error leaves no daemon of it behind. -/
def Responds (g : Circumstances) (request : Json) (c : Controller) : Prop :=
  ∃ r c', outcome (configureConnections g request) c = (r, c') ∧ r ≠ .error .blocked ∧
    c'.held = false ∧ ∀ error, r = .error (.error error) → c'.processes = c.processes

section Rules

variable {β : Type} {Q : α → Controller → Prop} {E : Halt → Controller → Prop}
variable {g : Circumstances} {c : Controller} {body : Control α} {message : String}

@[simp] lemma post_fail {error : ControlError} :
    Post Q E (outcome (fail error : Control α) c) ↔ E (.error error) c := Iff.rfl

lemma post_liftResult {result : Except ControlError α} :
    Post Q E (outcome (liftResult result) c) ↔
      (∀ a, result = .ok a → Q a c) ∧ ∀ error, result = .error error → E (.error error) c := by
  cases result with
  | ok a => simp [liftResult]
  | error error => simp [liftResult]

lemma post_onError {handler : ControlError → Control α} :
    Post Q E (outcome (onError body handler) c) ↔
      Post Q (fun e c => match e with
        | .error error => Post Q E (outcome (handler error) c)
        | .blocked => E .blocked c) (outcome body c) := by
  unfold onError
  rw [post_tryCatch]
  refine iff_of_eq (congrArg (fun E' => Post Q E' (outcome body c)) ?_)
  funext e c
  cases e with
  | error error => rfl
  | blocked => rfl

/-- The mutex is free: the section runs and frees it again. -/
lemma post_withConn (hfree : c.held = false)
    (h : Post (fun a c' => Q a (c'.setHeld false)) (fun e c' => match e with
      | .error error => E (.error error) (c'.setHeld false)
      | .blocked => E .blocked c') (outcome body (c.setHeld true))) :
    Post Q E (outcome (withConn body) c) := by
  unfold withConn lock
  simp only [post_bind, outcome_get, post_ok, hfree, Bool.false_eq_true, if_false, outcome_modify]
  rw [post_onError]
  exact h

/-- The mutex is held: the section is never entered. -/
lemma post_withConn_held (hheld : c.held = true) :
    Post Q E (outcome (withConn body) c) ↔ E .blocked c := by
  unfold withConn lock
  simp only [post_bind, outcome_get, post_ok, hheld, if_true]
  rfl

/-! ### NFS never starts -/

variable {R : Unit → Controller → Prop}

lemma post_failNfs (hheld : c.held = true) (hE : E .blocked c) :
    Post R E (outcome (failNfs g message) c) := by
  unfold failNfs
  rw [post_bind, post_withConn_held hheld]
  exact hE

lemma post_requireTools {tools : List Tool} (hheld : c.held = true) (hE : E .blocked c) (hR : R () c) :
    Post R E (outcome (requireTools g tools) c) := by
  induction tools with
  | nil => exact hR
  | cons tool tools ih =>
    unfold requireTools
    split
    · exact ih
    · exact post_failNfs hheld hE

lemma post_mountNfsd (hheld : c.held = true) (hE : E .blocked c) (hR : R () c) :
    Post R E (outcome (mountNfsd g) c) := by
  unfold mountNfsd
  split
  · exact hR
  · exact post_failNfs hheld hE

lemma post_exportWorkspace (hheld : c.held = true) (hE : E .blocked c) (hR : R () c) :
    Post R E (outcome (exportWorkspace g) c) := by
  unfold exportWorkspace
  split
  · exact hR
  · exact post_failNfs hheld hE

/-- Also where the mount daemon runs, its pid cannot be written down. -/
lemma post_startMountd (hheld : c.held = true) (hE : ∀ c', E .blocked c') :
    Post R E (outcome (startMountd g) c) := by
  unfold startMountd
  split
  · rename_i pid _
    have hheld' : (c.start pid).held = true := hheld
    simp only [post_bind, outcome_modify, post_ok]
    split
    · rw [post_withConn_held hheld']
      exact hE _
    · exact post_failNfs hheld' (hE _)
  · exact post_failNfs hheld (hE _)

/-- Every path of `start_nfs` takes the mutex that its caller holds. -/
lemma post_startNfs (hheld : c.held = true) (hE : ∀ c', E .blocked c') :
    Post R E (outcome (startNfs g) c) := by
  unfold startNfs
  rw [post_bind]
  apply post_requireTools hheld (hE _)
  rw [post_bind]
  apply post_mountNfsd hheld (hE _)
  rw [post_bind]
  apply post_exportWorkspace hheld (hE _)
  rw [post_bind]
  exact post_startMountd hheld hE

end Rules

/-! ### Every other request -/

section Answers

variable {g : Circumstances} {request : Json} {conn : ConnectionState} {fields : ConfigureFields}
variable {c : Controller}

lemma stringField_ok_iff {key message s : String} {accepts : String → Bool} :
    stringField request key accepts message = .ok s ↔
      (request.index key).asStr = some s ∧ accepts s = true := by
  unfold stringField
  split
  · rename_i hnone
    simp [hnone]
  · rename_i text htext
    rw [htext]
    split
    · rename_i haccepts
      simp only [Except.ok.injEq, Option.some.injEq]
      exact ⟨fun h => ⟨h, h ▸ haccepts⟩, fun h => h.1⟩
    · rename_i hrefuses
      simp only [reduceCtorEq, Option.some.injEq, false_iff, not_and]
      rintro rfl
      exact hrefuses

lemma boolField_ok_iff {key message : String} {b : Bool} :
    boolField request key message = .ok b ↔ (request.index key).asBool = some b := by
  unfold boolField
  split
  · rename_i hnone
    simp [hnone]
  · rename_i b' hb
    simp [hb]

lemma configureFields_ok (h : configureFields request = .ok fields) :
    ((request.index "workspaceId").asStr = some fields.workspaceId ∧
        isGuestWorkspaceId fields.workspaceId = true) ∧
      ((request.index "wallet").asStr = some fields.wallet ∧ isEvmAddress fields.wallet = true) ∧
      ((request.index "caPublicKey").asStr = some fields.caPublicKey ∧
        isCaPublicKey fields.caPublicKey = true) ∧
      (request.index "nfs").asBool = some fields.nfsEnabled := by
  unfold configureFields at h
  obtain ⟨workspaceId, hworkspaceId, h⟩ := Checked.of_bind_ok h
  obtain ⟨wallet, hwallet, h⟩ := Checked.of_bind_ok h
  obtain ⟨caPublicKey, hcaPublicKey, h⟩ := Checked.of_bind_ok h
  obtain ⟨nfsEnabled, hnfs, h⟩ := Checked.of_bind_ok h
  cases h
  exact ⟨stringField_ok_iff.mp hworkspaceId, stringField_ok_iff.mp hwallet,
    stringField_ok_iff.mp hcaPublicKey, boolField_ok_iff.mp hnfs⟩

lemma configureFields_of_reachesNfs (h : ReachesNfs g request conn) :
    ∃ fields, configureFields request = .ok fields := by
  obtain ⟨workspaceId, hworkspaceId⟩ := h.workspaceId
  obtain ⟨wallet, hwallet⟩ := h.wallet
  obtain ⟨caPublicKey, hstring, hkey, -⟩ := h.caPublicKey
  refine ⟨⟨workspaceId, wallet, caPublicKey, true⟩, ?_⟩
  unfold configureFields
  rw [stringField_ok_iff.mpr hworkspaceId, stringField_ok_iff.mpr hwallet,
    stringField_ok_iff.mpr ⟨hstring, hkey⟩, boolField_ok_iff.mpr h.nfs]
  rfl

lemma prepareSshd_ok_iff : prepareSshd g fields = .ok () ↔
    g.isRoot = true ∧ (g.has .sshd = true ∧ g.has .sshKeygen = true) ∧
      checkPayload fields.caPublicKey = .ok () ∧ g.makesSshDir = true ∧
      (g.hasHostKey = true ∨ g.succeeds .sshKeygen = true) ∧ g.hasShell = true := by
  unfold prepareSshd
  split
  · rename_i hroot
    simp [hroot]
  · rename_i hroot
    rw [Bool.not_eq_false] at hroot
    split
    · rename_i htools
      rcases htools with htool | htool
      · simp [htool]
      · simp [htool]
    · rename_i htools
      simp only [not_or, Bool.not_eq_false] at htools
      cases hpayload : checkPayload fields.caPublicKey with
      | error error => simp
      | ok _ =>
        dsimp only
        split
        · rename_i hdir
          simp [hdir]
        · rename_i hdir
          rw [Bool.not_eq_false] at hdir
          split
          · rename_i hkey
            simp [hkey]
          · rename_i hkey
            rw [not_and_or, Bool.not_eq_false, Bool.not_eq_false] at hkey
            split
            · rename_i hshell
              simp [hshell]
            · rename_i hshell
              rw [Bool.not_eq_false] at hshell
              simp [hroot, htools, hdir, hkey, hshell]

/-- What is left to ask once the fields are read. -/
lemma reachesNfs_iff (h : configureFields request = .ok fields) : ReachesNfs g request conn ↔
    fields.nfsEnabled = true ∧ conn.scope = none ∧ prepareSshd g fields = .ok () ∧
      ∃ pid, g.spawns .sshd = some pid := by
  obtain ⟨⟨hid, hid'⟩, ⟨hwallet, hwallet'⟩, ⟨hkey, hkey'⟩, hnfs⟩ := configureFields_ok h
  rw [prepareSshd_ok_iff]
  constructor
  · intro hr
    obtain ⟨key, hstring, -, hpayload⟩ := hr.caPublicKey
    have hsame : key = fields.caPublicKey := Option.some.inj (hstring.symm.trans hkey)
    have hnfs' : fields.nfsEnabled = true := Option.some.inj (hnfs.symm.trans hr.nfs)
    exact ⟨hnfs', hr.unconfigured, ⟨hr.isRoot, hr.tools, hsame ▸ hpayload, hr.sshDir, hr.hostKey,
      hr.shell⟩, hr.sshd⟩
  · rintro ⟨hnfs', hscope, ⟨hroot, htools, hpayload, hdir, hhostKey, hshell⟩, hsshd⟩
    rw [hnfs'] at hnfs
    exact ⟨hnfs, ⟨_, hid, hid'⟩, ⟨_, hwallet, hwallet'⟩, ⟨_, hkey, hkey', hpayload⟩, hscope, hroot,
      htools, hdir, hhostKey, hshell, hsshd⟩

/-- How a request ends, with the mutex still held. -/
def EndsLocked (g : Circumstances) (request : Json) (c : Controller) : Halt → Controller → Prop
  | .error _, c' => ¬ReachesNfs g request c.conn ∧ c'.processes = c.processes
  | .blocked, _ => ReachesNfs g request c.conn

lemma post_startDaemons {R : Json → Controller → Prop} {E : Halt → Controller → Prop}
    (hheld : c.held = true) (hok : fields.nfsEnabled = false → ∀ r c', R r c')
    (hnone : g.spawns .sshd = none → ∀ error, E (.error error) c)
    (hnfs : fields.nfsEnabled = true → (∃ pid, g.spawns .sshd = some pid) → ∀ c', E .blocked c') :
    Post R E (outcome (startDaemons g fields) c) := by
  unfold startDaemons
  split
  · rename_i hspawn
    exact hnone hspawn _
  · rename_i pid hspawn
    simp only [post_bind, outcome_modify, post_ok]
    cases henabled : fields.nfsEnabled with
    | false => exact hok henabled _ _
    | true =>
      simp only [if_true, post_bind]
      rw [post_onError]
      exact post_startNfs hheld fun c' => hnfs henabled ⟨pid, hspawn⟩ c'

lemma post_configureConnectionsLocked (hheld : c.held = true) :
    Post (fun _ _ => ¬ReachesNfs g request c.conn) (EndsLocked g request c)
      (outcome (configureConnectionsLocked g request) c) := by
  unfold configureConnectionsLocked
  rw [post_bind, post_liftResult]
  refine ⟨fun fields hfields => ?_, fun error herror => ⟨fun hr => ?_, rfl⟩⟩
  · have hreaches : ReachesNfs g request c.conn ↔ _ := reachesNfs_iff hfields
    simp only [post_bind, outcome_get, post_ok]
    split
    · rename_i existing hscope
      have hnot : ¬ReachesNfs g request c.conn := by
        intro hr
        rw [hr.unconfigured] at hscope
        cases hscope
      split
      · exact hnot
      · exact ⟨hnot, rfl⟩
    · rename_i hscope
      rw [post_bind, post_liftResult]
      refine ⟨fun _ hprepared => ?_, fun error herror => ⟨fun hr => ?_, rfl⟩⟩
      · apply post_startDaemons hheld
        · intro hnfs _ _ hr
          rw [(hreaches.mp hr).1] at hnfs
          cases hnfs
        · intro hspawn error
          refine ⟨fun hr => ?_, rfl⟩
          obtain ⟨pid, hpid⟩ := hr.sshd
          rw [hspawn] at hpid
          cases hpid
        · exact fun hnfs hspawn _ => hreaches.mpr ⟨hnfs, hscope, hprepared, hspawn⟩
      · rw [(hreaches.mp hr).2.2.1] at herror
        cases herror
  · obtain ⟨fields, hfields⟩ := configureFields_of_reachesNfs hr
    rw [hfields] at herror
    cases herror

end Answers

/-- How a request ends. -/
lemma post_configureConnections {g : Circumstances} {request : Json} {c : Controller}
    (hfree : c.held = false) :
    Post (fun _ c' => ¬ReachesNfs g request c.conn ∧ c'.held = false)
      (fun e c' => match e with
        | .error _ => ¬ReachesNfs g request c.conn ∧ c'.held = false ∧ c'.processes = c.processes
        | .blocked => ReachesNfs g request c.conn) (outcome (configureConnections g request) c) := by
  apply post_withConn hfree
  refine (post_configureConnectionsLocked (show (c.setHeld true).held = true from rfl)).mono ?_ ?_
  · exact fun _ _ hnot => ⟨hnot, rfl⟩
  · intro e c' he
    cases e with
    | error error => exact ⟨he.1, rfl, he.2⟩
    | blocked => exact he

/-- A request is answered if and only if it does not get as far as NFS. -/
theorem responds_iff {g : Circumstances} {request : Json} {c : Controller} (hfree : c.held = false) :
    Responds g request c ↔ ¬ReachesNfs g request c.conn := by
  have hpost : Post _ _ (outcome (configureConnections g request) c) :=
    post_configureConnections hfree
  unfold Responds
  constructor
  · rintro ⟨r, c', hrun, hblocked, -⟩
    rw [hrun] at hpost
    cases r with
    | ok result => exact hpost.1
    | error e =>
      cases e with
      | error error => exact hpost.1
      | blocked => exact absurd rfl hblocked
  · intro hnot
    rcases hrun : outcome (configureConnections g request) c with ⟨r, c'⟩
    rw [hrun] at hpost
    refine ⟨r, c', rfl, ?_⟩
    cases r with
    | ok result => exact ⟨nofun, hpost.2, nofun⟩
    | error e =>
      cases e with
      | error error => exact ⟨nofun, hpost.2.1, fun _ _ => hpost.2.2⟩
      | blocked => exact absurd hpost hnot

/-! ### Runs -/

/-- A guest with all its tools. -/
def equippedGuest : Circumstances where
  isRoot := true
  has _ := true
  makesSshDir := true
  hasHostKey := true
  succeeds _ := true
  hasShell := true
  nfsdMounted := true
  spawns
    | .sshd => some 200
    | .mountd => some 201
  isAlive _ := true
  hostKey := some "ssh-ed25519 AAAA"

def configureRequest (nfs : Bool) : Json := .object [
  ("caPublicKey", .string ("ssh-ed25519 " ++ String.ofList (List.replicate 68 'A'))),
  ("id", .string "1"),
  ("nfs", .bool nfs),
  ("operation", .string "connections.configure"),
  ("version", .number (some 1)),
  ("wallet", .string ("0x" ++ String.ofList (List.replicate 40 'a'))),
  ("workspaceId", .string "00000000-0000-4000-8000-000000000001")]

def idleController : Controller := ⟨⟨none, none, none⟩, false, ∅⟩

/-- SSH alone is configured. -/
theorem responds_ssh : Responds equippedGuest (configureRequest false) idleController := by
  refine (responds_iff rfl).mpr fun h => ?_
  have hnfs := h.nfs
  simp [configureRequest, Json.index, Json.asBool, List.lookup_cons] at hnfs

/-- A request for NFS is never answered, whatever the tools do. -/
theorem not_responds_nfs :
    ¬∀ (g : Circumstances) (request : Json) (c : Controller), c.held = false →
      Responds g request c := by
  intro h
  obtain ⟨r, c', hrun, hblocked, -⟩ := h equippedGuest (configureRequest true) idleController rfl
  have hstuck : (outcome (configureConnections equippedGuest (configureRequest true))
      idleController).1 = .error .blocked := by rfl
  rw [hrun] at hstuck
  exact hblocked hstuck

end Connections

end Bloom
