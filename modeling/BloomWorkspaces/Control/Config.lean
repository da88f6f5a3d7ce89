import Mathlib.Algebra.Group.Nat.Defs

/-!
# Configuration

The part of `Config` that the modelled code reads. The fields that `loadConfig` checks carry the
bound that the `Env` schema guarantees, so a configuration that it would reject cannot be built.
-/

namespace Bloom

structure Config where
  runtime : String
  leaseMinutes : ℕ
  maxRunning : ℕ
  maxQueue : ℕ
  maxActivePerWallet : ℕ
  maxActivePerIp : ℕ
  dailyPerWallet : ℕ
  dailyPerIp : ℕ
  storageQuotaMib : ℕ
  leaseMinutes_pos : 0 < leaseMinutes
  maxRunning_pos : 0 < maxRunning
  maxQueue_pos : 0 < maxQueue
  maxActivePerWallet_pos : 0 < maxActivePerWallet
  maxActivePerIp_pos : 0 < maxActivePerIp
  dailyPerWallet_pos : 0 < dailyPerWallet
  dailyPerIp_pos : 0 < dailyPerIp
  storageQuotaMib_ge : 16 ≤ storageQuotaMib
  storageQuotaMib_le : storageQuotaMib ≤ 5120

namespace Config

def leaseMs (config : Config) : ℕ := config.leaseMinutes * 60000

def storageQuotaBytes (config : Config) : ℕ := config.storageQuotaMib * 1024 * 1024

/-- `loadConfig` on an empty environment. -/
def default : Config where
  runtime := "process"
  leaseMinutes := 30
  maxRunning := 10
  maxQueue := 100
  maxActivePerWallet := 1
  maxActivePerIp := 2
  dailyPerWallet := 3
  dailyPerIp := 5
  storageQuotaMib := 512
  leaseMinutes_pos := by decide
  maxRunning_pos := by decide
  maxQueue_pos := by decide
  maxActivePerWallet_pos := by decide
  maxActivePerIp_pos := by decide
  dailyPerWallet_pos := by decide
  dailyPerIp_pos := by decide
  storageQuotaMib_ge := by decide
  storageQuotaMib_le := by decide

lemma leaseMs_pos (config : Config) : 0 < config.leaseMs :=
  Nat.mul_pos config.leaseMinutes_pos (by decide)

lemma storageQuotaBytes_pos (config : Config) : 0 < config.storageQuotaBytes := by
  have := config.storageQuotaMib_ge
  unfold storageQuotaBytes
  omega

end Config

end Bloom
