import BloomWorkspaces.Library.Table
import Mathlib.Data.List.MinMax

/-!
# Control-plane database

The three tables `WorkspaceService` works on, with the statements it runs against them. A timestamp
is a number of milliseconds. Wallets are ASCII strings, so `toLowerCase` acts on single characters.
-/

namespace Bloom

/-! ### Rows -/

inductive WorkspaceState
  | queued
  | provisioning
  | running
  | stopping
  | stopped
  | failed
  deriving DecidableEq, Repr

namespace WorkspaceState

/-- The states listed in the SQL fragment `ACTIVE`. -/
def isActive : WorkspaceState → Bool
  | queued | provisioning | running | stopping => true
  | stopped | failed => false

/-- `state IN ('queued','provisioning','running')`. -/
def isStoppable : WorkspaceState → Bool
  | queued | provisioning | running => true
  | stopping | stopped | failed => false

/-- `state IN ('running','provisioning','stopping')`, the rows counted against the capacity. -/
def takesCapacity : WorkspaceState → Bool
  | provisioning | running | stopping => true
  | queued | stopped | failed => false

/-- `state IN ('running','provisioning')`. -/
def isStarted : WorkspaceState → Bool
  | provisioning | running => true
  | queued | stopping | stopped | failed => false

end WorkspaceState

inductive StorageMode
  | disposable
  | persistent
  deriving DecidableEq, Repr

structure WorkspaceRow where
  id : String
  wallet : String
  ipHash : String
  state : WorkspaceState
  runtime : String
  createdAt : ℕ
  leaseExpiresAt : ℕ
  stoppedAt : Option ℕ
  failure : Option String
  storageMode : StorageMode
  volumeId : Option String
  storageQuotaBytes : ℕ
  deriving DecidableEq, Repr

structure PersistentVolumeRow where
  id : String
  wallet : String
  quotaBytes : ℕ
  createdAt : ℕ
  lastAttachedAt : ℕ
  destroyedAt : Option ℕ
  deriving DecidableEq, Repr

/-- A value in the JSON detail of an audit entry. -/
inductive DetailValue
  | text (s : String)
  | number (n : ℕ)
  | flag (b : Bool)
  deriving DecidableEq, Repr

structure AuditEvent where
  occurredAt : ℕ
  kind : String
  actor : Option String
  workspaceId : Option String
  detail : List (String × DetailValue)
  deriving DecidableEq, Repr

structure Database where
  workspaces : List WorkspaceRow
  persistentVolumes : List PersistentVolumeRow
  auditEvents : List AuditEvent
  deriving DecidableEq, Repr

def Database.empty : Database := ⟨[], [], []⟩

def toLowerCase (s : String) : String := String.ofList (s.toList.map Char.toLower)

/-! ### Statements -/

namespace Database

/-- `SELECT COUNT(*) FROM workspaces WHERE p`. -/
def count (db : Database) (p : WorkspaceRow → Bool) : ℕ := db.workspaces.countP p

def audit (db : Database) (now : ℕ) (kind : String) (actor workspaceId : Option String)
    (detail : List (String × DetailValue)) : Database :=
  { db with auditEvents := db.auditEvents ++ [⟨now, kind, actor, workspaceId, detail⟩] }

def updateWorkspaces (db : Database) (p : WorkspaceRow → Bool) (f : WorkspaceRow → WorkspaceRow) :
    Database :=
  { db with workspaces := Table.updateWhere p f db.workspaces }

/-- The live volume of a wallet: `wallet = ? AND destroyed_at IS NULL`. -/
def liveVolume (db : Database) (wallet : String) : Option PersistentVolumeRow :=
  db.persistentVolumes.find? fun v => v.wallet = wallet ∧ v.destroyedAt = none

@[simp] lemma audit_workspaces (db : Database) (now : ℕ) (kind : String)
    (actor workspaceId : Option String) (detail : List (String × DetailValue)) :
    (db.audit now kind actor workspaceId detail).workspaces = db.workspaces := rfl

@[simp] lemma audit_persistentVolumes (db : Database) (now : ℕ) (kind : String)
    (actor workspaceId : Option String) (detail : List (String × DetailValue)) :
    (db.audit now kind actor workspaceId detail).persistentVolumes = db.persistentVolumes := rfl

@[simp] lemma updateWorkspaces_workspaces (db : Database) (p : WorkspaceRow → Bool)
    (f : WorkspaceRow → WorkspaceRow) :
    (db.updateWorkspaces p f).workspaces = Table.updateWhere p f db.workspaces := rfl

@[simp] lemma updateWorkspaces_persistentVolumes (db : Database) (p : WorkspaceRow → Bool)
    (f : WorkspaceRow → WorkspaceRow) :
    (db.updateWorkspaces p f).persistentVolumes = db.persistentVolumes := rfl

lemma liveVolume_some {db : Database} {wallet : String} {v : PersistentVolumeRow}
    (h : db.liveVolume wallet = some v) :
    v ∈ db.persistentVolumes ∧ v.wallet = wallet ∧ v.destroyedAt = none := by
  refine ⟨List.mem_of_find?_eq_some h, ?_⟩
  simpa using List.find?_some h

end Database

end Bloom
