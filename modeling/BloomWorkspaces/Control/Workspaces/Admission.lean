import BloomWorkspaces.Control.Workspaces.Basic

/-!
# Admission

`WorkspaceService.create` runs between `BEGIN IMMEDIATE` and `COMMIT`. Inside the transaction an
exception keeps the writes made so far; it is `ROLLBACK` that takes them back.
-/

namespace Bloom

/-- Code that runs inside a transaction. -/
abbrev Transaction (α : Type) := ExceptT ServiceError (StateM Database) α

/-- `BEGIN IMMEDIATE`, then `COMMIT` where the body returns and `ROLLBACK` where it throws. -/
def transaction {α : Type} (body : Transaction α) (db : Database) :
    Except ServiceError α × Database :=
  match body.run.run db with
  | (.ok a, db') => (.ok a, db')
  | (.error e, _) => (.error e, db)

/-- `if (count >= limit) throw new WorkspaceError(message, status)`. -/
def requireBelow (count limit : ℕ) (message : String) (status : ℕ) : Transaction Unit :=
  if limit ≤ count then throw (.workspace message status) else pure ()

/-- 24 hours. -/
def dayMs : ℕ := 24 * 60 * 60000

/-- `INSERT INTO persistent_volumes`, with the constraints of the table. -/
def insertVolume (volume : PersistentVolumeRow) : Transaction Unit := do
  let db ← get
  if (∃ v ∈ db.persistentVolumes, v.id = volume.id) ∨ (db.liveVolume volume.wallet).isSome
      ∨ volume.quotaBytes = 0 then
    throw (.constraint "persistent_volumes")
  set { db with persistentVolumes := db.persistentVolumes ++ [volume] }

/-- `INSERT INTO workspaces`, with the constraints of the table. -/
def insertWorkspace (row : WorkspaceRow) : Transaction Unit := do
  let db ← get
  if (∃ r ∈ db.workspaces, r.id = row.id) ∨ row.storageQuotaBytes = 0
      ∨ (∃ v, row.volumeId = some v ∧ ¬∃ w ∈ db.persistentVolumes, w.id = v) then
    throw (.constraint "workspaces")
  set { db with workspaces := db.workspaces ++ [row] }

/-- The row that `getOrCreatePersistentVolume` inserts. -/
def newVolume (config : Config) (wallet : String) (now : ℕ) (volumeId : String) :
    PersistentVolumeRow where
  id := volumeId
  wallet := wallet
  quotaBytes := config.storageQuotaBytes
  createdAt := now
  lastAttachedAt := now
  destroyedAt := none

def getOrCreatePersistentVolume (config : Config) (wallet : String) (now : ℕ) (volumeId : String) :
    Transaction PersistentVolumeRow := do
  let db ← get
  match db.liveVolume wallet with
  | some existing =>
    set { db with
      persistentVolumes := Table.updateWhere (fun v => v.id = existing.id)
        (fun v => { v with lastAttachedAt := now }) db.persistentVolumes }
    pure { existing with lastAttachedAt := now }
  | none =>
    let volume := newVolume config wallet now volumeId
    insertVolume volume
    modify fun db => db.audit now "workspace.volume_created" wallet none
      [("quotaBytes", .number volume.quotaBytes)]
    pure volume

/-- The volume of a new row: `null` for a disposable workspace. -/
def chooseVolume (config : Config) (wallet : String) (now : ℕ) (volumeId : String) :
    StorageMode → Transaction (Option PersistentVolumeRow)
  | .persistent => do
    let volume ← getOrCreatePersistentVolume config wallet now volumeId
    pure (some volume)
  | .disposable => pure none

/-- The row that `create` inserts. -/
def newWorkspaceRow (config : Config) (now : ℕ) (wallet ipHash : String) (storageMode : StorageMode)
    (id : String) (volume : Option PersistentVolumeRow) : WorkspaceRow where
  id := id
  wallet := wallet
  ipHash := ipHash
  state := .queued
  runtime := config.runtime
  createdAt := now
  leaseExpiresAt := now + config.leaseMs
  stoppedAt := none
  failure := none
  storageMode := storageMode
  volumeId := volume.map (·.id)
  storageQuotaBytes := (volume.map (·.quotaBytes)).getD config.storageQuotaBytes

def storageName : StorageMode → String
  | .disposable => "disposable"
  | .persistent => "persistent"

/-- The five limits that `create` checks, in its order. -/
def checkLimits (config : Config) (now : ℕ) (wallet ipHash : String) : Transaction Unit := do
  let db ← get
  let since := now - dayMs
  requireBelow (db.count fun r => r.wallet = wallet ∧ r.state.isActive)
    config.maxActivePerWallet "This wallet already has an active workspace" 409
  requireBelow (db.count fun r => r.ipHash = ipHash ∧ r.state.isActive)
    config.maxActivePerIp "This network has reached its active workspace limit" 429
  requireBelow (db.count fun r => r.wallet = wallet ∧ since ≤ r.createdAt)
    config.dailyPerWallet "This wallet has reached its 24-hour creation limit" 429
  requireBelow (db.count fun r => r.ipHash = ipHash ∧ since ≤ r.createdAt)
    config.dailyPerIp "This network has reached its 24-hour creation limit" 429
  requireBelow (db.count fun r => r.state = .queued)
    config.maxQueue "All workspace capacity and queue slots are currently in use" 503

/-- The body of the transaction in `create`. -/
def createBody (config : Config) (now : ℕ) (wallet ipHash : String) (storageMode : StorageMode)
    (id volumeId : String) : Transaction WorkspaceRow := do
  checkLimits config now wallet ipHash
  let volume ← chooseVolume config wallet now volumeId storageMode
  let row := newWorkspaceRow config now wallet ipHash storageMode id volume
  insertWorkspace row
  modify fun db => db.audit now "workspace.requested" wallet row.id
    [("runtime", .text row.runtime), ("storage", .text (storageName row.storageMode)),
      ("quotaBytes", .number row.storageQuotaBytes)]
  pure row

namespace Service

def publicWorkspace (s : Service) (row : WorkspaceRow) : PublicWorkspace where
  id := row.id
  state := row.state
  createdAt := row.createdAt
  leaseExpiresAt := row.leaseExpiresAt
  storageMode := row.storageMode
  storageQuotaBytes := row.storageQuotaBytes
  retainedAfterStop := row.storageMode = .persistent
  queuePosition :=
    if row.state = .queued then
      some (1 + s.db.count fun r => r.state = .queued ∧ r.createdAt < row.createdAt)
    else none
  failure := row.failure

/-- The refusals of `create` before its transaction. -/
def createGuard (capabilities : Option WorkspaceDataCapabilities) (s : Service) (wallet : String)
    (storageMode : StorageMode) : Except ServiceError Unit :=
  let unavailable := capabilities.filter fun c => !c.persistence
  match storageMode, unavailable with
  | .persistent, some c =>
    .error (.workspace
      (c.persistenceReason.getD "Persistent storage is unavailable for this runtime") 501)
  | .persistent, none =>
    if wallet ∈ s.destroyingVolumes then
      .error (.workspace "The persistent workspace volume is being destroyed" 409)
    else .ok ()
  | .disposable, _ => .ok ()

/-- `create`; `id` and `volumeId` are what `randomUUID` answers. -/
def create (config : Config) (capabilities : Option WorkspaceDataCapabilities) (s : Service)
    (wallet ipHash : String) (storage : Option StorageMode) (id volumeId : String) :
    Except ServiceError PublicWorkspace × Service :=
  let normalizedWallet := toLowerCase wallet
  let storageMode := storage.getD .disposable
  match createGuard capabilities s normalizedWallet storageMode with
  | .error error => (.error error, s)
  | .ok () =>
    match transaction (createBody config s.now normalizedWallet ipHash storageMode id volumeId)
        s.db with
    | (.error error, db) => (.error error, { s with db := db })
    | (.ok row, db) =>
      let created := reconcile config { s with db := db, admitted := s.admitted ++ [row] }
      (.ok (created.publicWorkspace row), created)

end Service

end Bloom
