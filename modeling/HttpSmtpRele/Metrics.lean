/-!
# `metrics.rs`: the status-store metrics

The gauge and the counters that the status stores write.
-/

namespace HttpSmtpRele

/-- The gauge and the counter are floats in `prometheus`, and count exactly up to 2^53. -/
structure Metrics where
  /-- gauge `rele_status_store_records_current` -/
  statusRecordsCurrent : Int := 0
  /-- counter `rele_status_store_expired_total` -/
  statusExpiredTotal : Nat := 0
  /-- increments of `rele_status_store_transitions_total`, by `(status, code)`, newest first -/
  statusTransitions : List (String × String) := []
  deriving DecidableEq

namespace Metrics

def statusTransitioned (m : Metrics) (status code : String) : Metrics :=
  { m with statusTransitions := (status, code) :: m.statusTransitions }

def statusRecordCreated (m : Metrics) : Metrics :=
  { m with statusRecordsCurrent := m.statusRecordsCurrent + 1 }.statusTransitioned "received" "none"

def statusRecordsExpired (m : Metrics) (count : Nat) : Metrics :=
  if count > 0 then
    { m with
      statusRecordsCurrent := m.statusRecordsCurrent - count
      statusExpiredTotal := m.statusExpiredTotal + count }
  else m

def statusRecordExpiredOne (m : Metrics) : Metrics :=
  { m with
    statusRecordsCurrent := m.statusRecordsCurrent - 1
    statusExpiredTotal := m.statusExpiredTotal + 1 }

def statusSetCurrent (m : Metrics) (count : Nat) : Metrics :=
  { m with statusRecordsCurrent := count }

end Metrics

end HttpSmtpRele
