import Mathlib.Algebra.Group.Int.Defs
import HttpSmtpRele.Lib.Oldest
import HttpSmtpRele.Metrics
import HttpSmtpRele.Status

/-!
# `status_sqlite.rs`: the SQLite status store

The table `submission_statuses`, one function per SQL statement with its
standard meaning, and the operations that run them under the connection lock.
Columns hold text, as in the schema; the conversions are those of other crates
and are collected in `SqliteDeps`.  Statements do not fail here.
-/

namespace HttpSmtpRele

/-- A row of `submission_statuses`; the primary key is `request_id`. -/
structure StatusRow where
  requestId : String
  keyId : String
  status : String
  code : Option String
  message : Option String
  recipientDomains : String
  recipientCount : Int
  createdAt : String
  updatedAt : String
  expiresAt : String
  deriving DecidableEq

structure SqliteDeps where
  /-- `DateTime::to_rfc3339` -/
  toRfc3339 : DateTime → String
  /-- `DateTime::parse_from_rfc3339(..).with_timezone(&Utc)` -/
  parseRfc3339 : String → Option DateTime
  /-- `serde_json::to_string` of the domains -/
  domainsToJson : List Domain → String
  domainsFromJson : String → Option (List Domain)
  /-- `Ulid::from_string` accepts -/
  isUlid : String → Bool

/-- An order of the rows that compare equal under `ORDER BY`. -/
abbrev RowOrder := Table.IterOrder String StatusRow

structure SqliteStatusStore where
  table : Table String StatusRow
  config : StatusConfig
  metrics : Metrics

namespace SqliteStatusStore

/-! ## Statements -/

abbrev StatusTable := Table String StatusRow

/-- `status IN ('rejected','smtp_accepted','smtp_failed')`. -/
def terminalNames : List String := ["rejected", "smtp_accepted", "smtp_failed"]

/-- `INSERT OR IGNORE`; the `CHECK` constraints hold of every row built here. -/
def insertOrIgnore (row : StatusRow) (t : StatusTable) : StatusTable :=
  if t.contains row.requestId then t else t.insert row.requestId row

/-- `UPDATE .. SET recipient_domains, recipient_count WHERE request_id AND key_id`. -/
def updateMetadata (requestId keyId domains : String) (count : Int) (t : StatusTable) :
    StatusTable :=
  t.modify requestId fun r =>
    if r.keyId = keyId then { r with recipientDomains := domains, recipientCount := count } else r

/-- The `WHERE` clause of the status update, on the row with that id. -/
def StatusRow.Updatable (keyId now : String) (r : StatusRow) : Prop :=
  r.keyId = keyId ∧ r.expiresAt > now ∧ r.status ∉ terminalNames

instance (keyId now : String) (r : StatusRow) : Decidable (StatusRow.Updatable keyId now r) :=
  inferInstanceAs (Decidable (_ ∧ _))

/-- `UPDATE .. SET status, code, message, updated_at WHERE ..`. -/
def updateStatusRow (requestId keyId now status : String) (code message : Option String)
    (t : StatusTable) : StatusTable :=
  t.modify requestId fun r =>
    if StatusRow.Updatable keyId now r then
      { r with status := status, code := code, message := message, updatedAt := now }
    else r

/-- `SELECT .. WHERE request_id AND key_id AND expires_at > now`. -/
def select (requestId keyId now : String) (t : StatusTable) : Option StatusRow :=
  (t.get requestId).filter fun r => decide (r.keyId = keyId ∧ r.expiresAt > now)

/-- `DELETE .. WHERE request_id AND expires_at <= now`. -/
def deleteExpiredOne (requestId now : String) (t : StatusTable) : StatusTable :=
  t.retain fun k r => !decide (k = requestId ∧ r.expiresAt ≤ now)

/-- `DELETE .. WHERE expires_at <= now`. -/
def deleteExpired (now : String) (t : StatusTable) : StatusTable :=
  t.retain fun _ r => !decide (r.expiresAt ≤ now)

/-- `SELECT request_id .. ORDER BY created_at ASC LIMIT excess`. -/
def oldestIds (order : RowOrder) (excess : Nat) (t : StatusTable) : List String :=
  (((order.arrange t.entries).insertionSort fun a b => a.2.createdAt ≤ b.2.createdAt).take
    excess).map Sigma.fst

def evictIfNeeded (order : RowOrder) (maxRecords : Nat) (t : StatusTable) : StatusTable :=
  if t.size ≥ maxRecords then
    t.eraseAll (oldestIds order (max (t.size - maxRecords) 1) t)
  else t

/-! ## Conversions -/

/-- `serde_json` on an `ErrorCode`, and back. -/
def parseCode (s : String) : Option ErrorCode :=
  [.badRequest, .validationFailed, .unauthorized, .forbidden, .payloadTooLarge,
    .unsupportedMediaType, .rateLimited, .smtpUnavailable, .smtpRejected, .submissionNotFound,
    .statusStoreUnavailable, .featureDisabled, .internalError].find? fun c => c.asStr = s

def parseStatus (s : String) : SubmissionStatus :=
  (([.received, .rejected, .smtpSubmissionStarted, .smtpAccepted, .smtpFailed] :
    List SubmissionStatus).find? fun x => x.asStr = s).getD .received

variable (S : SqliteDeps)

def recordToRow (r : SubmissionStatusRecord) : StatusRow where
  requestId := r.requestId.asStr
  keyId := r.keyId
  status := r.status.asStr
  code := r.code.map ErrorCode.asStr
  message := r.message
  recipientDomains := S.domainsToJson r.recipientDomains
  recipientCount := r.recipientCount
  createdAt := S.toRfc3339 r.createdAt
  updatedAt := S.toRfc3339 r.updatedAt
  expiresAt := S.toRfc3339 r.expiresAt

/-- `RequestId::from_str`. -/
def parseRequestId (s : String) : Option RequestId :=
  (RustStr.stripPrefix s "req_").bind fun ulid => if S.isUlid ulid then some ⟨s⟩ else none

/-- `fresh` and `now` are what the fallbacks `RequestId::new()` and `Utc::now()` give. -/
def rowToRecord (fresh : RequestId) (now : DateTime) (row : StatusRow) :
    SubmissionStatusRecord where
  requestId := (parseRequestId S row.requestId).getD fresh
  keyId := row.keyId
  status := parseStatus row.status
  code := row.code.bind parseCode
  message := row.message
  recipientDomains := (S.domainsFromJson row.recipientDomains).getD []
  -- `i64 as u32`
  recipientCount := (row.recipientCount % 2 ^ 32).toNat
  createdAt := (S.parseRfc3339 row.createdAt).getD now
  updatedAt := (S.parseRfc3339 row.updatedAt).getD now
  expiresAt := (S.parseRfc3339 row.expiresAt).getD now

/-! ## Operations -/

def putReceived (order : RowOrder) (s : SqliteStatusStore) (record : SubmissionStatusRecord) :
    SqliteStatusStore :=
  let table := evictIfNeeded order s.config.maxRecords s.table
  let row := recordToRow S record
  { s with
    table := insertOrIgnore row table
    metrics :=
      if table.contains row.requestId then s.metrics else s.metrics.statusRecordCreated }

def setRecipientMetadata (s : SqliteStatusStore) (requestId : RequestId) (keyId : String)
    (recipientDomains : List Domain) (recipientCount : Nat) : SqliteStatusStore :=
  { s with
    table := updateMetadata requestId.asStr keyId (S.domainsToJson recipientDomains)
      recipientCount s.table }

def updateStatus (s : SqliteStatusStore) (requestId : RequestId) (keyId : String)
    (update : StatusUpdate) (now : DateTime) : SqliteStatusStore :=
  let code := update.code.map ErrorCode.asStr
  { s with
    table := updateStatusRow requestId.asStr keyId (S.toRfc3339 now) update.status.asStr code
      update.message s.table
    metrics :=
      match s.table.get requestId.asStr with
      | some r =>
        if StatusRow.Updatable keyId (S.toRfc3339 now) r then
          s.metrics.statusTransitioned update.status.asStr (code.getD "none")
        else s.metrics
      | none => s.metrics }

def get (s : SqliteStatusStore) (requestId : RequestId) (keyId : String) (now : DateTime)
    (fresh : RequestId) : Option SubmissionStatusRecord × SqliteStatusStore :=
  match select requestId.asStr keyId (S.toRfc3339 now) s.table with
  | some row => (some (rowToRecord S fresh now row), s)
  | none =>
    let table := deleteExpiredOne requestId.asStr (S.toRfc3339 now) s.table
    (none,
      { s with
        table := table
        metrics :=
          if s.table.size - table.size > 0 then s.metrics.statusRecordExpiredOne
          else s.metrics })

def expireOldRecords (order : RowOrder) (s : SqliteStatusStore) (now : DateTime) :
    SqliteStatusStore :=
  let table := deleteExpired (S.toRfc3339 now) s.table
  let deleted := s.table.size - table.size
  { s with
    table := evictIfNeeded order s.config.maxRecords table
    metrics := if deleted > 0 then s.metrics.statusRecordsExpired deleted else s.metrics }

def recordCount (s : SqliteStatusStore) : Nat × SqliteStatusStore :=
  (s.table.size, { s with metrics := s.metrics.statusSetCurrent s.table.size })

def reloadConfig (s : SqliteStatusStore) (config : StatusConfig) : SqliteStatusStore :=
  { s with config := config }

/-! ## Effect on one id -/

/-- `DELETE`s keep a row as it is, or remove it. -/
theorem get_evictIfNeeded (order : RowOrder) (maxRecords : Nat) (t : StatusTable) (k : String) :
    (evictIfNeeded order maxRecords t).get k = none ∨
      (evictIfNeeded order maxRecords t).get k = t.get k := by
  unfold evictIfNeeded
  split
  · rw [Table.get_eraseAll]
    split
    · exact Or.inl rfl
    · exact Or.inr rfl
  · exact Or.inr rfl

theorem get_retain_cases (p : String → StatusRow → Bool) (t : StatusTable) (k : String) :
    (t.retain p).get k = none ∨ (t.retain p).get k = t.get k := by
  rw [Table.get_retain]
  cases t.get k with
  | none => exact Or.inl rfl
  | some r => cases hp : p k r <;> simp [Option.filter_some, hp]

theorem get_insertOrIgnore_of_mem {row r : StatusRow} {t : StatusTable} {k : String}
    (h : t.get k = some r) : (insertOrIgnore row t).get k = some r := by
  unfold insertOrIgnore Table.contains
  by_cases hk : k = row.requestId
  · subst hk
    simp [h]
  · split
    · exact h
    · rw [Table.get_insert, if_neg hk, h]

theorem select_eq_some {requestId keyId now : String} {t : StatusTable} {r : StatusRow} :
    select requestId keyId now t = some r ↔
      t.get requestId = some r ∧ r.keyId = keyId ∧ r.expiresAt > now := by
  simp [select, Option.filter_eq_some_iff]

theorem asStr_mem_terminalNames (x : SubmissionStatus) :
    x.asStr ∈ terminalNames ↔ x.isTerminal = true := by
  cases x <;> decide

/-! ## Number of rows -/

instance createdAt_total : Std.Total fun a b : StatusRow => a.createdAt ≤ b.createdAt :=
  ⟨fun _ _ => String.le_total _ _⟩

instance createdAt_trans : IsTrans StatusRow fun a b => a.createdAt ≤ b.createdAt :=
  ⟨fun _ _ _ => String.le_trans⟩

theorem evictIfNeeded_of_room {maxRecords : Nat} {t : StatusTable} (h : t.size < maxRecords)
    (order : RowOrder) : evictIfNeeded order maxRecords t = t :=
  if_neg (Nat.not_le.mpr h)

theorem evictIfNeeded_of_full {maxRecords : Nat} {t : StatusTable} (h : maxRecords ≤ t.size)
    (order : RowOrder) :
    evictIfNeeded order maxRecords t =
      t.eraseAll (t.oldest (fun a b => a.createdAt ≤ b.createdAt) order
        (max (t.size - maxRecords) 1)) :=
  if_pos h

/-- At the limit one row goes, above it as many as there are too many. -/
theorem size_evictIfNeeded (order : RowOrder) (maxRecords : Nat) (t : StatusTable) :
    (evictIfNeeded order maxRecords t).size =
      if t.size ≥ maxRecords then t.size - max (t.size - maxRecords) 1 else t.size := by
  by_cases h : t.size ≥ maxRecords
  · rw [evictIfNeeded_of_full h, Table.size_eraseAll_oldest, if_pos h]
  · rw [evictIfNeeded_of_room (by omega), if_neg h]

/-- A row that goes was created no later than a row that stays. -/
theorem evictIfNeeded_oldest {order : RowOrder} {maxRecords : Nat} {t : StatusTable}
    {k k' : String} {r r' : StatusRow} (hr : t.get k = some r)
    (hgone : (evictIfNeeded order maxRecords t).get k = none)
    (hkept : (evictIfNeeded order maxRecords t).get k' = some r') : r.createdAt ≤ r'.createdAt := by
  by_cases h : maxRecords ≤ t.size
  · rw [evictIfNeeded_of_full h] at hgone hkept
    exact Table.eraseAll_oldest_le (r := fun a b => a.createdAt ≤ b.createdAt) hr hgone hkept
  · rw [evictIfNeeded_of_room (Nat.not_le.mp h), hr] at hgone
    cases hgone

/-- At most one row has the id. -/
theorem size_deleteExpiredOne (requestId now : String) (t : StatusTable) :
    (deleteExpiredOne requestId now t).size ≤ t.size ∧
      t.size ≤ (deleteExpiredOne requestId now t).size + 1 := by
  have hsize := Table.size_retain (fun k r => !decide (k = requestId ∧ r.expiresAt ≤ now)) t
  have hsum := Table.count_add_count_not
    (fun k (r : StatusRow) => decide (k = requestId ∧ r.expiresAt ≤ now)) t
  have hone := Table.count_key_le_one requestId
    (fun r : StatusRow => decide (r.expiresAt ≤ now)) t
  have hsame : t.count (fun k r => decide (k = requestId ∧ r.expiresAt ≤ now)) =
      t.count fun k r => decide (k = requestId) && decide (r.expiresAt ≤ now) :=
    Table.count_congr fun _ _ _ => Bool.decide_and _ _
  unfold deleteExpiredOne
  omega

/-- The number of rows that a sweep at `now` does not find expired. -/
def liveRows (now : String) (t : StatusTable) : Nat :=
  t.count fun _ r => !decide (r.expiresAt ≤ now)

theorem size_deleteExpired (now : String) (t : StatusTable) :
    (deleteExpired now t).size = liveRows now t :=
  Table.size_retain _ _

/-- What a sweep leaves of the live rows: where they are as many as the limit, one fewer. -/
theorem size_expireOldRecords (order : RowOrder) (s : SqliteStatusStore) (now : DateTime) :
    (s.expireOldRecords S order now).table.size =
      if liveRows (S.toRfc3339 now) s.table ≥ s.config.maxRecords then
        liveRows (S.toRfc3339 now) s.table -
          max (liveRows (S.toRfc3339 now) s.table - s.config.maxRecords) 1
      else liveRows (S.toRfc3339 now) s.table := by
  have hsize := size_evictIfNeeded order s.config.maxRecords
    (deleteExpired (S.toRfc3339 now) s.table)
  rw [size_deleteExpired] at hsize
  exact hsize

theorem insertOrIgnore_of_new {row : StatusRow} {t : StatusTable}
    (h : t.get row.requestId = none) : insertOrIgnore row t = AList.insert row.requestId row t := by
  simp [insertOrIgnore, Table.contains, h]

theorem size_insertOrIgnore_of_new {row : StatusRow} {t : StatusTable}
    (h : t.get row.requestId = none) : (insertOrIgnore row t).size = t.size + 1 := by
  rw [insertOrIgnore_of_new h]
  exact Table.size_insert_of_not_mem (Table.not_mem_keys_of_get h) row

theorem insertOrIgnore_of_mem {row : StatusRow} {t : StatusTable}
    (h : (t.get row.requestId).isSome = true) : insertOrIgnore row t = t :=
  if_pos h

end SqliteStatusStore

end HttpSmtpRele
