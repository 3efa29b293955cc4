import Mathlib.Tactic.Linarith
import Mathlib.Tactic.Positivity
import HttpSmtpRele.ConfigValidate
import HttpSmtpRele.Status

/-!
# When a new record expires

`new_received` adds `status.ttl_seconds` to the clock: a cast, a `Duration` and a
calendar, each with a range of its own.  The configuration is not checked against
any of them; the calendar is the one that decides.
-/

namespace HttpSmtpRele

namespace Chrono

/-- A TOML integer survives the cast. -/
theorem asI64_of_le {secs : Nat} (h : secs ≤ tomlMax) : asI64 secs = secs := by
  have hlt : 2 * secs < 2 ^ 64 := by
    unfold tomlMax at h
    omega
  have hmod : secs % 2 ^ 64 = secs := Nat.mod_eq_of_lt (by omega)
  unfold asI64
  rw [BitVec.toInt_eq_toNat_cond, BitVec.toNat_ofNat, hmod, if_pos hlt]

/-- A sum that the calendar holds is also one of a `Duration`. -/
theorem addSeconds_iff {time sum : DateTime} {secs : Nat} (hsecs : secs ≤ tomlMax)
    (htime : minUtc ≤ time) :
    addSeconds time secs = some sum ↔ sum = time + secs * 1000000000 ∧ sum ≤ maxUtc := by
  have hcast := asI64_of_le hsecs
  have hadd : addSeconds time secs =
      if -maxSeconds ≤ (secs : Int) ∧ (secs : Int) ≤ maxSeconds ∧
          minUtc ≤ time + secs * 1000000000 ∧ time + secs * 1000000000 ≤ maxUtc then
        some (time + secs * 1000000000) else none := by
    rw [← hcast]
    rfl
  have hpos : (0 : Int) ≤ secs := Int.natCast_nonneg secs
  rw [hadd]
  constructor
  · intro h
    split at h
    · rename_i hrange
      have hsum := Option.some.inj h
      exact ⟨hsum.symm, hsum ▸ hrange.2.2.2⟩
    · cases h
  · rintro ⟨rfl, hmax⟩
    apply if_pos
    unfold minUtc at htime
    unfold maxUtc at hmax
    unfold maxSeconds minUtc maxUtc
    refine ⟨?_, ?_, ?_, ?_⟩ <;> linarith

end Chrono

open Chrono

/-- The record expires `ttlSeconds` after its creation at `now`, and not before. -/
structure ExpiresAfter (ttlSeconds : Nat) (now : DateTime) (r : SubmissionStatusRecord) :
    Prop where
  created : r.createdAt = now
  expires : r.expiresAt = r.createdAt + ttlSeconds * 1000000000
  alive : 0 < ttlSeconds → r.isExpired r.createdAt = false

/-- `new_received` returns the record it should exactly if its expiry is a date. -/
theorem newReceived_expires_iff (config : AppConfig) (requestId : RequestId) (keyId : String)
    {now : DateTime} (hfile : config.status.ttlSeconds ≤ tomlMax) (hnow : minUtc ≤ now) :
    (∃ r, SubmissionStatusRecord.newReceived requestId keyId config.status.ttlSeconds now = some r ∧
        ExpiresAfter config.status.ttlSeconds now r) ↔
      now + config.status.ttlSeconds * 1000000000 ≤ maxUtc := by
  unfold SubmissionStatusRecord.newReceived
  constructor
  · rintro ⟨r, hr, -⟩
    obtain ⟨expiresAt, hadd, -⟩ := Option.map_eq_some_iff.mp hr
    obtain ⟨rfl, hmax⟩ := (addSeconds_iff hfile hnow).mp hadd
    exact hmax
  · intro hmax
    rw [(addSeconds_iff hfile hnow).mpr ⟨rfl, hmax⟩]
    refine ⟨_, rfl, rfl, rfl, ?_⟩
    intro hpos
    rw [SubmissionStatusRecord.isExpired_eq_false]
    show now ≤ now + config.status.ttlSeconds * 1000000000
    exact Int.le_add_of_nonneg_right (by positivity)

/-! ## Records that live too long -/

namespace ExpiryDate

def lastingKey : ApiKeyConfig := .default "svc" ⟨"0123456789abcdef0123456789abcdef"⟩

/-- The file that sets `status.ttl_seconds` besides what it must. -/
def lastingConfig (ttlSeconds : Nat) : AppConfig :=
  { AppConfig.default "127.0.0.1:8080" "relay@example.com" [lastingKey] with
    status := { StatusConfig.default with ttlSeconds := ttlSeconds } }

theorem lastingConfig_accepted (ttlSeconds : Nat) :
    ConfigValidate.Accepted {} .plain (lastingConfig ttlSeconds) := by
  have hkept : ConfigValidate.validateConfig {} .plain (lastingConfig ttlSeconds) =
      ConfigValidate.validateConfig {} .plain (lastingConfig 0) := rfl
  unfold ConfigValidate.Accepted
  rw [hkept]
  decide

end ExpiryDate

open ExpiryDate

/-- An hour is a date; 300 000 years from the epoch are none, and `i64::MAX` seconds
are not even a `Duration`. -/
theorem newReceived_panics :
    (ConfigValidate.Accepted {} .plain (lastingConfig 9467280000000) ∧
      SubmissionStatusRecord.newReceived ⟨"req_A"⟩ "svc" (lastingConfig 9467280000000).status.ttlSeconds
        0 = none) ∧
      ConfigValidate.Accepted {} .plain (lastingConfig tomlMax) ∧
        SubmissionStatusRecord.newReceived ⟨"req_A"⟩ "svc"
          (lastingConfig tomlMax).status.ttlSeconds 0 = none :=
  ⟨⟨lastingConfig_accepted _, by decide⟩, lastingConfig_accepted _, by decide⟩

theorem newReceived_expires_default :
    ∃ r, SubmissionStatusRecord.newReceived ⟨"req_A"⟩ "svc" (lastingConfig 3600).status.ttlSeconds
        0 = some r ∧ ExpiresAfter (lastingConfig 3600).status.ttlSeconds 0 r :=
  (newReceived_expires_iff (lastingConfig 3600) ⟨"req_A"⟩ "svc" (by decide) (by decide)).mpr
    (by decide)

end HttpSmtpRele
