import BloomWorkspaces.Agent.VmRuntime
import BloomWorkspaces.Library.Action

/-!
# What a failed create leaves behind

`create` acquires one thing after another: directories, the image of the volume, the listener of the
egress proxy, an SSH endpoint or a uid, and a process. This is one call of it on `QemuRuntime` or
`FirecrackerRuntime`, with a verdict for each operation of the system that it awaits, and the condition
under which a call that fails gives everything back.
-/

namespace Bloom

namespace Provisioning

open Action

variable {α : Type}

/-! ### The node -/

inductive Directory
  | workspace (id : String)
  | socket (id : String)
  | jail (id : String)
  deriving DecidableEq, Repr

/-- What is at the path of an image. -/
inductive VolumeImage
  | symbolicLink
  | special
  | file (size : ℕ) (bytes : ℕ → UInt8)

/-- The arguments that the cleanup of a machine has captured. -/
structure Cleanup where
  egress : Bool
  uid : Option ℕ
  deriving DecidableEq, Repr

structure Instance where
  state : InstanceState
  cleanup : Cleanup
  deriving DecidableEq, Repr

/-- `egress` lists the workspaces whose proxy listens, `processes` those with a live process. -/
structure Node where
  directories : Finset Directory
  images : String → Option VolumeImage
  egress : Finset String
  sshEndpoints : String → Option ℕ
  allocatedUids : Finset ℕ
  processes : Finset String
  instances : String → Option Instance
  storage : String → Option RuntimeStorage

/-- The operations of the system that `create` awaits. -/
inductive Operation
  | accessFirecracker
  | accessJailer
  | accessKernel
  | accessRootfs
  | mkdirWorkspace
  | mkdirSocket
  | mkdirRun
  | copyRootfs
  | copyKernel
  | chownRoot
  | chownRun
  | chownRootfs
  | chownKernel
  | statfs
  | mkdirVolume
  | openImage
  | readImage
  | openTemporary
  | truncate
  | mkfs
  | link
  | reopenImage
  | removeTemporary
  | listen
  | address
  | allocatePort
  | writeConfig
  | chownConfig
  | spawn
  | closeEgress
  | rmWorkspace
  | rmSocket
  | rmJail
  deriving DecidableEq, Repr

/-- What becomes of the machine. The process can fail to start with an exception or, as a child process,
with an error event. Nobody awaits the cleanup of a process that exits; `cleanedUp` says that it has
ended by the time the wait for the guest gives up. -/
inductive Boot
  | notStarted (event : Bool)
  | ready
  | silent (lastError : String)
  | exits (success : Bool) (cleanedUp : Bool)
  deriving DecidableEq, Repr

/-- The circumstances of one call: `formatted` is what `mkfs.ext4` writes. -/
structure Environment where
  now : ℕ
  fails : Operation → Bool
  available : ℕ
  formatted : ℕ → UInt8
  port : ℕ
  privileged : Bool
  boot : Boot

/-- The part of the configuration that `create` reads. -/
structure VmConfig where
  kind : VmKind
  dataDir : String
  controlledEgress : Bool
  sshEnabled : Bool
  deriving DecidableEq, Repr

inductive CreateError
  | system (operation : Operation)
  | message (text : String)
  | data (error : RuntimeDataError)
  deriving DecidableEq, Repr

/-- The call rejects or it never settles: the loop for a free uid does not end, or a rejection that
nobody handles has ended the agent. -/
inductive Failure
  | rejected (error : CreateError)
  | unsettled
  deriving DecidableEq, Repr

abbrev Create (α : Type) := ExceptT Failure (StateM Node) α

namespace Node

def makeDirectory (directory : Directory) (node : Node) : Node :=
  { node with directories := insert directory node.directories }

def removeDirectory (directory : Directory) (node : Node) : Node :=
  { node with directories := node.directories.erase directory }

def setImage (volumeId : String) (image : VolumeImage) (node : Node) : Node :=
  { node with images := Function.update node.images volumeId (some image) }

def openEgress (id : String) (node : Node) : Node := { node with egress := insert id node.egress }

def closeEgress (id : String) (node : Node) : Node := { node with egress := node.egress.erase id }

def setEndpoint (id : String) (port : Option ℕ) (node : Node) : Node :=
  { node with sshEndpoints := Function.update node.sshEndpoints id port }

def allocateUid (uid : ℕ) (node : Node) : Node :=
  { node with allocatedUids := insert uid node.allocatedUids }

def deleteUid (uid : ℕ) (node : Node) : Node :=
  { node with allocatedUids := node.allocatedUids.erase uid }

def setStorage (id : String) (storage : Option RuntimeStorage) (node : Node) : Node :=
  { node with storage := Function.update node.storage id storage }

/-- The process is spawned and its session enters the table. -/
def enter (id : String) (live : Bool) (cleanup : Cleanup) (node : Node) : Node :=
  { node with
    processes := if live then insert id node.processes else node.processes
    instances := Function.update node.instances id (some ⟨.running, cleanup⟩) }

/-- The process is gone and its session ends in a state. -/
def leave (id : String) (state : InstanceState) (cleanup : Cleanup) (node : Node) : Node :=
  { node with
    processes := node.processes.erase id
    instances := Function.update node.instances id (some ⟨state, cleanup⟩) }

end Node

/-! ### Operations -/

def reject (error : CreateError) : Create α := throw (.rejected error)

def check (c : Bool) (text : String) : Create Unit := if c then pure () else reject (.message text)

def liftData (result : Except RuntimeDataError α) : Create α :=
  match result with
  | .ok a => pure a
  | .error error => reject (.data error)

/-- A `catch` block; a call that never settles does not come to it. -/
def rescue (body : Create α) (handler : CreateError → Create α) : Create α :=
  tryCatch body fun
    | .rejected error => handler error
    | .unsettled => throw .unsettled

/-- A promise that nobody awaits or handles. -/
def detach (body : Create Unit) : Create Unit := tryCatch body fun _ => throw .unsettled

def perform (env : Environment) (operation : Operation) : Create Unit :=
  if env.fails operation then reject (.system operation) else pure ()

def acquire (env : Environment) (operation : Operation) (effect : Node → Node) : Create Unit := do
  perform env operation
  modify effect

/-- `Promise.all`: the operations all run to their end, also after one has failed. -/
def performAll (env : Environment) (steps : List (Operation × (Node → Node))) : Create Unit := do
  modify fun node => steps.foldl (fun node step => if env.fails step.1 then node else step.2 node) node
  match steps.find? fun step => env.fails step.1 with
  | some step => reject (.system step.1)
  | none => pure ()

/-- `Promise.all` of operations that acquire nothing: files within the directories of the machine go with
them. -/
def attemptAll (env : Environment) (operations : List Operation) : Create Unit :=
  performAll env (operations.map fun operation => (operation, id))

/-! ### The volume -/

/-- `validatePublishedImage` on what is at the path; `false` is an `ENOENT`. The two bytes of the magic
number lie within an image that has the size of a quota. -/
def publishedImage (image : Option VolumeImage) (quotaBytes : ℕ) : Except RuntimeDataError Bool :=
  match image with
  | none => .ok false
  | some .symbolicLink => .error ⟨"Persistent volume image cannot be a symbolic link", 409⟩
  | some .special => .error ⟨"Persistent volume image has an invalid size", 409⟩
  | some (.file size bytes) =>
    if size ≠ quotaBytes then .error ⟨"Persistent volume image has an invalid size", 409⟩
    else if bytes 1080 ≠ 0x53 ∨ bytes 1081 ≠ 0xef then
      .error ⟨"Persistent volume image is not a formatted ext4 filesystem", 409⟩
    else .ok true

def checkQuota (env : Environment) (quotaBytes : ℕ) : Create Unit := do
  if quotaBytes < 16 * 1024 * 1024 ∨ 5 * 1024 * 1024 * 1024 < quotaBytes then
    reject (.data ⟨"Invalid volume quota", 400⟩)
  else do
    perform env .statfs
    if env.available < quotaBytes then
      reject (.data ⟨s!"Insufficient disk space: need {quotaBytes} bytes, {env.available} available", 507⟩)
    else pure ()

/-- The `try` block that formats a new image and publishes it. -/
def formatImage (env : Environment) (volumeId : String) (quotaBytes : ℕ) : Create Unit := do
  perform env .openTemporary
  perform env .truncate
  perform env .mkfs
  acquire env .link (Node.setImage volumeId (.file quotaBytes env.formatted))
  perform env .reopenImage
  let node ← get
  let _ ← liftData (publishedImage (node.images volumeId) quotaBytes)

def ensureExt4Volume (env : Environment) (volumeId : String) (quotaBytes : ℕ) : Create Unit := do
  checkQuota env quotaBytes
  perform env .mkdirVolume
  perform env .openImage
  let node ← get
  let published ← liftData (publishedImage (node.images volumeId) quotaBytes)
  if published then perform env .readImage
  else do
    -- the temporary image is removed in a `finally` block
    rescue (formatImage env volumeId quotaBytes) fun error => do
      perform env .removeTemporary
      reject error
    perform env .removeTemporary

def prepareVolume (env : Environment) (storage : RuntimeStorage) : Create Unit :=
  match storage.mode with
  | .persistent => ensureExt4Volume env (storage.volumeId.getD "") storage.quotaBytes
  | .disposable => pure ()

/-! ### Egress and cleanup -/

def closeEgress (env : Environment) (id : String) (egress : Bool) : Create Unit :=
  if egress then acquire env .closeEgress (Node.closeEgress id) else pure ()

/-- `startQemuWorkspaceEgress` and `startFirecrackerWorkspaceEgress`; `false` stands for `undefined`. -/
def startEgress (config : VmConfig) (env : Environment) (id : String) : Create Bool :=
  if config.controlledEgress then do
    acquire env .listen (Node.openEgress id)
    if config.kind = .qemu ∧ env.fails .address then do
      closeEgress env id true
      reject (.message "Controlled egress proxy did not bind a TCP port")
    else pure true
  else pure false

/-- The directory of a machine beside its workspace directory. -/
def socketDirectory (kind : VmKind) (id : String) : Directory :=
  match kind with
  | .firecracker true => .jail id
  | .qemu | .firecracker false => .socket id

def socketRemoval (kind : VmKind) : Operation :=
  match kind with
  | .firecracker true => .rmJail
  | .qemu | .firecracker false => .rmSocket

def deleteEndpoint (kind : VmKind) (id : String) (node : Node) : Node :=
  match kind with
  | .qemu => node.setEndpoint id none
  | .firecracker _ => node

def returnUid (uid : Option ℕ) (node : Node) : Node :=
  match uid with
  | some uid => node.deleteUid uid
  | none => node

/-- The `cleanup` of a prepared machine. -/
def runCleanup (config : VmConfig) (env : Environment) (id : String) (cleanup : Cleanup) :
    Create Unit := do
  modify (deleteEndpoint config.kind id)
  closeEgress env id cleanup.egress
  modify (returnUid cleanup.uid)
  performAll env [(socketRemoval config.kind, Node.removeDirectory (socketDirectory config.kind id)),
    (.rmWorkspace, Node.removeDirectory (.workspace id))]

/-- `stop`; the exit event of the process, which comes later, runs the cleanup once more. -/
def stop (config : VmConfig) (env : Environment) (id : String) : Create Unit := do
  let node ← get
  match node.instances id with
  | some ⟨.running, cleanup⟩ => do
    modify (Node.leave id .stopped cleanup)
    runCleanup config env id cleanup
  | _ => pure ()

/-- `waitForGuestControl`, which tries again until its deadline whatever goes wrong. -/
def waitForGuestControl (config : VmConfig) (env : Environment) (id : String) : Create Unit := do
  let node ← get
  match env.boot, node.instances id with
  | .exits success cleanedUp, some ⟨.running, cleanup⟩ => do
    modify (Node.leave id (if success then .stopped else .failed) cleanup)
    if cleanedUp then detach (runCleanup config env id cleanup) else pure ()
    reject (.message "Guest control did not become ready: Workspace is not running")
  | .notStarted _, some ⟨.running, cleanup⟩ => do
    modify (Node.leave id .failed cleanup)
    reject (.message "Guest control did not become ready: Workspace is not running")
  | .silent lastError, _ => reject (.message ("Guest control did not become ready: " ++ lastError))
  | _, _ => pure ()

/-! ### `QemuRuntime` -/

def allocateEndpoint (config : VmConfig) (env : Environment) (id : String) : Create Unit :=
  if config.sshEnabled then acquire env .allocatePort (Node.setEndpoint id (some env.port))
  else pure ()

/-- `QemuRuntime.command`. -/
def command (config : VmConfig) (env : Environment) (spec : RuntimeSpec) : Create Cleanup := do
  attemptAll env [.accessKernel, .accessRootfs]
  acquire env .mkdirSocket (Node.makeDirectory (.socket spec.id))
  perform env .copyRootfs
  prepareVolume env spec.storage
  let egress ← startEgress config env spec.id
  allocateEndpoint config env spec.id
  pure ⟨egress, none⟩

/-- The `try` block around `pty.spawn`. -/
def spawnTerminal (config : VmConfig) (env : Environment) (id : String) (cleanup : Cleanup) :
    Create Unit :=
  match env.boot with
  | .notStarted _ => do
    runCleanup config env id cleanup
    reject (.system .spawn)
  | _ => modify (Node.enter id true cleanup)

/-- `PtyRuntime.create`. -/
def createTerminal (config : VmConfig) (env : Environment) (spec : RuntimeSpec) : Create Unit := do
  check (isWorkspaceId spec.id) "Invalid workspace id"
  check (env.now < spec.leaseExpiresAt) "Lease is already expired"
  let node ← get
  if (node.instances spec.id).isSome then pure ()
  else do
    acquire env .mkdirWorkspace (Node.makeDirectory (.workspace spec.id))
    let cleanup ← command config env spec
    spawnTerminal config env spec.id cleanup

/-- The `catch` block of `QemuRuntime.create`. -/
def catchQemu (config : VmConfig) (env : Environment) (id : String) (error : CreateError) :
    Create Unit := do
  rescue (stop config env id) fun _ => pure ()
  modify (Node.setStorage id none)
  reject error

/-- `QemuRuntime.create`. -/
def createQemu (config : VmConfig) (env : Environment) (spec : RuntimeSpec) : Create Unit := do
  liftData (validateStorage config.kind config.dataDir spec.storage)
  modify (Node.setStorage spec.id (some spec.storage))
  rescue (do
      createTerminal config env spec
      waitForGuestControl config env spec.id) (catchQemu config env spec.id)

/-! ### `FirecrackerRuntime` -/

def prepareDirect (config : VmConfig) (env : Environment) (spec : RuntimeSpec) : Create Cleanup := do
  performAll env [(.mkdirWorkspace, Node.makeDirectory (.workspace spec.id)),
    (.mkdirSocket, Node.makeDirectory (.socket spec.id))]
  perform env .copyRootfs
  prepareVolume env spec.storage
  let egress ← startEgress config env spec.id
  rescue (perform env .writeConfig) fun error => do
    closeEgress env spec.id egress
    reject error
  pure ⟨egress, none⟩

/-- `prepareJailed` from the directories on. -/
def prepareJail (config : VmConfig) (env : Environment) (spec : RuntimeSpec) (uid : ℕ) :
    Create Cleanup := do
  performAll env [(.mkdirWorkspace, Node.makeDirectory (.workspace spec.id)),
    (.mkdirRun, Node.makeDirectory (.jail spec.id))]
  attemptAll env [.copyRootfs, .copyKernel]
  attemptAll env [.chownRoot, .chownRun, .chownRootfs, .chownKernel]
  let egress ← startEgress config env spec.id
  rescue (do
      perform env .writeConfig
      perform env .chownConfig) fun error => do
    closeEgress env spec.id egress
    reject error
  pure ⟨egress, some uid⟩

def prepareJailed (config : VmConfig) (env : Environment) (spec : RuntimeSpec) : Create Cleanup := do
  check env.privileged "The Firecracker jailer requires the node agent to run as root"
  let node ← get
  match takeUid node.allocatedUids spec.id with
  | none => throw .unsettled
  | some uid => do
    modify (Node.allocateUid uid)
    prepareJail config env spec uid

def accessPrograms (env : Environment) (jailed : Bool) : Create Unit :=
  attemptAll env ([.accessFirecracker, .accessKernel, .accessRootfs] ++
    if jailed then [.accessJailer] else [])

def prepare (config : VmConfig) (env : Environment) (spec : RuntimeSpec) (jailed : Bool) :
    Create Cleanup := do
  accessPrograms env jailed
  if jailed then prepareJailed config env spec else prepareDirect config env spec

/-- `spawn` of `node:child_process`. -/
def spawnProcess (env : Environment) (id : String) (cleanup : Cleanup) : Create Unit :=
  match env.boot with
  | .notStarted event =>
    if event then modify (Node.enter id false cleanup) else reject (.system .spawn)
  | _ => modify (Node.enter id true cleanup)

/-- The second `catch` block of `FirecrackerRuntime.create`. -/
def catchFirecracker (config : VmConfig) (env : Environment) (id : String) (error : CreateError) :
    Create Unit := do
  stop config env id
  modify (Node.setStorage id none)
  reject error

/-- `FirecrackerRuntime.create` after the checks of the call. -/
def createMachine (config : VmConfig) (env : Environment) (spec : RuntimeSpec) (jailed : Bool) :
    Create Unit := do
  modify (Node.setStorage spec.id (some spec.storage))
  let cleanup ← rescue (prepare config env spec jailed) fun error => do
    modify (Node.setStorage spec.id none)
    reject error
  spawnProcess env spec.id cleanup
  rescue (waitForGuestControl config env spec.id) (catchFirecracker config env spec.id)

def createFirecracker (config : VmConfig) (env : Environment) (spec : RuntimeSpec) (jailed : Bool) :
    Create Unit := do
  check (isWorkspaceId spec.id) "Invalid workspace id"
  check (env.now < spec.leaseExpiresAt) "Lease is already expired"
  let node ← get
  if (node.instances spec.id).isSome then pure ()
  else do
    liftData (validateStorage config.kind config.dataDir spec.storage)
    createMachine config env spec jailed

def create (config : VmConfig) (env : Environment) (spec : RuntimeSpec) : Create Unit :=
  match config.kind with
  | .qemu => createQemu config env spec
  | .firecracker jailed => createFirecracker config env spec jailed

end Provisioning

end Bloom
