import Mathlib.Algebra.Group.Nat.Defs
import HttpSmtpRele.Lib.CheckThenAct
import HttpSmtpRele.Metrics
import HttpSmtpRele.Status

/-!
# `status_redis.rs`: the Redis status store

Each write method sends two commands: `EXISTS` or `GET`, then `SET EX`.  A
function here is what a method does with the answer to the first: the value and
the TTL that it sets, or `none` if it returns.  An answer is `none` where the
command failed.  A call that gets no connection sends nothing.  `get` sends a
`GET`, and a `DEL` for a record that has expired.
-/

namespace HttpSmtpRele

structure RedisDeps where
  /-- `serde_json::to_string` of a record -/
  toJson : SubmissionStatusRecord → Option String
  fromJson : String → Option SubmissionStatusRecord

/-- `serde_json` reads back what it has written. -/
def RedisDeps.RoundTrip (S : RedisDeps) : Prop :=
  ∀ r raw, S.toJson r = some raw → S.fromJson raw = some r

/-- `SET EX`: a value and its TTL in seconds. -/
structure SetEx where
  json : String
  ttl : Nat
  deriving DecidableEq

/-- The texts are those of the driver and of `serde_json`. -/
inductive StatusStoreError
  | backendUnavailable (text : String)
  | corrupted (text : String)
  deriving DecidableEq

namespace RedisStatusStore

/-- `signed_duration_since(now).num_seconds().max(1) as u64`. -/
def remaining (expiresAt now : DateTime) : Nat :=
  (max (Int.tdiv (expiresAt - now) 1000000000) 1).toNat

variable (S : RedisDeps)

def putReceived (ttlSeconds : Nat) (record : SubmissionStatusRecord) (found : Option Bool) :
    Option SetEx :=
  -- `unwrap_or(false)`: a failed `EXISTS` reads as absent
  if found.getD false then none
  else (S.toJson record).map fun json => ⟨json, ttlSeconds⟩

def setRecipientMetadata (keyId : String) (recipientDomains : List Domain) (recipientCount : Nat)
    (checkedAt now remainingAt : DateTime) (raw : Option (Option String)) : Option SetEx :=
  match raw.getD none with
  | none => none
  | some raw =>
    match S.fromJson raw with
    | none => none
    | some record =>
      if record.keyId = keyId ∧ record.isExpired checkedAt = false then
        (S.toJson
          { record with
            recipientDomains := recipientDomains
            recipientCount := recipientCount
            updatedAt := now }).map fun json => ⟨json, remaining record.expiresAt remainingAt⟩
      else none

def updateStatus (keyId : String) (update : StatusUpdate) (checkedAt now remainingAt : DateTime)
    (raw : Option (Option String)) : Option SetEx :=
  match raw with
  | none => none
  | some none => none
  | some (some raw) =>
    match S.fromJson raw with
    | none => none
    | some record =>
      if record.keyId ≠ keyId ∨ record.isExpired checkedAt = true ∨
          record.status.isTerminal = true then none
      else
        (S.toJson
          { record with
            status := update.status
            code := update.code
            message := update.message.or record.message
            updatedAt := now }).map fun json => ⟨json, remaining record.expiresAt remainingAt⟩

/-- What `get` returns. -/
structure GetOutcome where
  result : Except StatusStoreError (Option SubmissionStatusRecord)
  /-- whether `DEL` was sent; that it may fail is not looked at -/
  deletes : Bool
  metrics : Metrics

/-- `raw` is the answer to `GET`, or the error of the driver (`no connection`);
`serdeError` the error of reading a text that is no record. -/
def get (keyId : String) (checkedAt : DateTime) (serdeError : String)
    (raw : Except String (Option String)) (metrics : Metrics) : GetOutcome :=
  match raw with
  | .error text => ⟨.error (.backendUnavailable text), false, metrics⟩
  | .ok none => ⟨.ok none, false, metrics⟩
  | .ok (some raw) =>
    match S.fromJson raw with
    | none => ⟨.error (.corrupted serdeError), false, metrics⟩
    | some record =>
      if record.keyId ≠ keyId then ⟨.ok none, false, metrics⟩
      else if record.isExpired checkedAt then ⟨.ok none, true, metrics.statusRecordExpiredOne⟩
      else ⟨.ok (some record), false, metrics⟩

/-! ## What a call may write -/

/-- The status and code in a value. -/
def outcome (v : SetEx) : Option (SubmissionStatus × Option ErrorCode) :=
  (S.fromJson v.json).map fun r => (r.status, r.code)

/-- The value is a record with a terminal status. -/
def Terminal (v : SetEx) : Prop := ∃ r, S.fromJson v.json = some r ∧ r.status.isTerminal = true

variable {S}

theorem outcome_of_toJson (hS : S.RoundTrip) {r : SubmissionStatusRecord} {json : String}
    {ttl : Nat} (h : S.toJson r = some json) : outcome S ⟨json, ttl⟩ = some (r.status, r.code) := by
  rw [outcome, hS r json h]
  rfl

theorem putReceived_eq_some {ttlSeconds : Nat} {record : SubmissionStatusRecord}
    {found : Option Bool} {v : SetEx} (h : putReceived S ttlSeconds record found = some v) :
    found ≠ some true := by
  rintro rfl
  cases h

/-- The metadata goes into the record that was read; its outcome stays. -/
theorem outcome_setRecipientMetadata (hS : S.RoundTrip) {keyId : String} {domains : List Domain}
    {count : Nat} {t₁ t₂ t₃ : DateTime} {cell : Option SetEx} {v : SetEx}
    (h : setRecipientMetadata S keyId domains count t₁ t₂ t₃ (some (cell.map SetEx.json)) =
      some v) : ∃ v₀, cell = some v₀ ∧ outcome S v = outcome S v₀ := by
  cases cell with
  | none => cases h
  | some v₀ =>
    refine ⟨v₀, rfl, ?_⟩
    simp only [setRecipientMetadata, Option.map_some, Option.getD_some] at h
    split at h
    · cases h
    · rename_i record hread
      split at h
      · obtain ⟨json, hjson, rfl⟩ := Option.map_eq_some_iff.mp h
        rw [outcome_of_toJson hS hjson, outcome, hread]
        rfl
      · cases h

/-- A status is written only over a record that is not terminal. -/
theorem not_terminal_of_updateStatus {keyId : String} {update : StatusUpdate}
    {t₁ t₂ t₃ : DateTime} {cell : Option SetEx} {v : SetEx}
    (h : updateStatus S keyId update t₁ t₂ t₃ (some (cell.map SetEx.json)) = some v) :
    ∃ v₀, cell = some v₀ ∧ ¬Terminal S v₀ := by
  cases cell with
  | none => cases h
  | some v₀ =>
    refine ⟨v₀, rfl, ?_⟩
    rintro ⟨r, hr, hterm⟩
    simp only [updateStatus, Option.map_some, hr] at h
    rw [if_pos (Or.inr (Or.inr hterm))] at h
    cases h

end RedisStatusStore

end HttpSmtpRele
