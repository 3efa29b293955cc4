import HttpSmtpRele.StatusMemory

/-!
# `lib.rs`: shared application state

The config in force, the status store and the rate limiter.  The SMTP transport
is reached through its outcomes only.  The limiter is any deterministic one:
`ρ` is its state and `Limiter` its three checks.
-/

namespace HttpSmtpRele

/-- `std::time::Instant`, in nanoseconds from some origin. -/
abbrev Instant := Nat

/-- A check returns `Err(retry_after_secs)` and always updates the state. -/
structure Limiter (ρ : Type) where
  checkGlobal : Instant → ρ → Except Nat Unit × ρ
  checkIp : IpAddr → Instant → ρ → Except Nat Unit × ρ
  checkKey : (keyId : String) → (perMinOverride : Option Nat) → (burstOverride : Nat) → Instant →
    ρ → Except Nat Unit × ρ

structure AppState (ρ : Type) where
  config : AppConfig
  statusStore : StatusStore
  rateLimiter : ρ

namespace AppState

variable {ρ : Type}

/-- `AppState::new` in the default build, where every enabled store is in memory. -/
def new (config : AppConfig) (rateLimiter : ρ) : AppState ρ where
  config := config
  statusStore := if config.status.enabled then .memory (.new config.status) else .noop
  rateLimiter := rateLimiter

/-- Only the reloadable fields of the new config take effect. -/
def reloadConfig (s : AppState ρ) (newConfig : AppConfig) : AppState ρ :=
  let merged := mergeReloadable s.config newConfig
  { s with
    config := merged
    statusStore := s.statusStore.update fun m => m.reloadConfig merged.status }

end AppState

end HttpSmtpRele
