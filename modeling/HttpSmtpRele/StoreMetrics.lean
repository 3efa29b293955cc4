import HttpSmtpRele.Lib.Drift
import HttpSmtpRele.StoreCapacity

/-!
# What the metrics of the stores report

The gauge `rele_status_store_records_current` is moved next to each insertion
and each expiry, but not where `max_records` evicts; `record_count` sets it
right.  The counters of expired records are moved under the lock under which
the records go.
-/

namespace HttpSmtpRele

/-! ## The gauge, in memory -/

namespace InMemoryStatusStore

/-- How far the gauge is ahead of the number of records. -/
def drift (s : InMemoryStatusStore) : Int := s.metrics.statusRecordsCurrent - s.records.size

theorem drift_putReceived_of_new {order : RecordOrder} {s : InMemoryStatusStore}
    {record : SubmissionStatusRecord} (h : s.find record.requestId = none) :
    (s.putReceived order record).drift =
      s.drift + (s.records.size + 1 - (s.putReceived order record).records.size) := by
  have hgauge : (s.putReceived order record).metrics.statusRecordsCurrent =
      s.metrics.statusRecordsCurrent + 1 := by
    unfold find at h
    simp [putReceived, Table.contains, h, Metrics.statusRecordCreated,
      Metrics.statusTransitioned]
  unfold drift
  rw [hgauge]
  omega

theorem drift_setRecipientMetadata (s : InMemoryStatusStore) (id : RequestId) (keyId : String)
    (domains : List Domain) (count : Nat) (t₁ t₂ : DateTime) :
    (s.setRecipientMetadata id keyId domains count t₁ t₂).drift = s.drift := by
  unfold drift
  rw [size_setRecipientMetadata]
  rfl

theorem drift_updateStatus (s : InMemoryStatusStore) (id : RequestId) (keyId : String)
    (update : StatusUpdate) (t₁ t₂ : DateTime) :
    (s.updateStatus id keyId update t₁ t₂).drift = s.drift := by
  have hgauge : (s.updateStatus id keyId update t₁ t₂).metrics.statusRecordsCurrent =
      s.metrics.statusRecordsCurrent := by
    unfold updateStatus
    dsimp only
    split
    · split <;> rfl
    · rfl
  unfold drift
  rw [hgauge, size_updateStatus]

theorem drift_getExpire (s : InMemoryStatusStore) (id : RequestId) (now : DateTime) :
    (s.getExpire id now).drift = s.drift := by
  rcases getExpire_cases s id now with he | ⟨r, hr, -, he⟩
  · rw [he]
  · have hsize := Table.size_erase (Table.mem_keys_of_get hr)
    rw [he]
    simp only [drift, Metrics.statusRecordExpiredOne]
    omega

theorem drift_expireOldRecords (order : RecordOrder) (s : InMemoryStatusStore) (now : DateTime) :
    (s.expireOldRecords order now).drift =
      s.drift + (liveCount now s.records -
        (s.expireOldRecords order now).records.size) := by
  have hsum := liveCount_add_deadCount now s.records
  unfold drift
  rw [(expiredTotal_expireOldRecords order s now).2]
  unfold Metrics.statusRecordsExpired
  split
  · dsimp only
    omega
  · omega

end InMemoryStatusStore

open InMemoryStatusStore

/-- The section evicts a record to keep to `max_records`. -/
def MemorySection.Evicts (s : InMemoryStatusStore) : MemorySection → Prop
  | .putReceived _ record =>
    s.find record.requestId = none ∧ 0 < s.records.size ∧ s.config.maxRecords ≤ s.records.size
  | .expireOldRecords _ now => s.config.maxRecords < liveCount now s.records
  | _ => False

def memoryGauge : Drift InMemoryStatusStore MemorySection where
  step := MemorySection.exec
  drift := InMemoryStatusStore.drift
  resets op := op = .recordCount
  Forgets := MemorySection.Evicts

namespace MemorySection

theorem drift_putReceived_of_evicts {s : InMemoryStatusStore} {order : RecordOrder}
    {record : SubmissionStatusRecord} (h : (putReceived order record).Evicts s) :
    s.drift < (s.putReceived order record).drift := by
  obtain ⟨hnew, hpos, hfull⟩ := h
  rw [drift_putReceived_of_new hnew, size_putReceived hnew, if_pos hfull]
  omega

theorem drift_putReceived_of_not_evicts {s : InMemoryStatusStore} {order : RecordOrder}
    {record : SubmissionStatusRecord} (h : ¬(putReceived order record).Evicts s) :
    (s.putReceived order record).drift = s.drift := by
  cases hnew : s.find record.requestId with
  | some r => rw [putReceived_of_mem hnew]
  | none =>
    rw [drift_putReceived_of_new hnew, size_putReceived hnew]
    split
    · have hempty : ¬0 < s.records.size := fun hpos => h ⟨hnew, hpos, ‹_›⟩
      omega
    · omega

theorem drift_sweep_of_evicts {s : InMemoryStatusStore} {order : RecordOrder} {now : DateTime}
    (h : (expireOldRecords order now).Evicts s) : s.drift < (s.expireOldRecords order now).drift := by
  have hlt : s.config.maxRecords < liveCount now s.records := h
  rw [drift_expireOldRecords, size_expireOldRecords]
  omega

theorem drift_sweep_of_not_evicts {s : InMemoryStatusStore} {order : RecordOrder}
    {now : DateTime} (h : ¬(expireOldRecords order now).Evicts s) :
    (s.expireOldRecords order now).drift = s.drift := by
  have hle : ¬s.config.maxRecords < liveCount now s.records := h
  rw [drift_expireOldRecords, size_expireOldRecords]
  omega

end MemorySection

theorem memoryGauge_lawful : memoryGauge.Lawful where
  reset := by
    rintro s op rfl
    show (s.records.size : Int) - s.records.size = 0
    omega
  keep := by
    intro s op hreset hkeep
    cases op with
    | putReceived order record => exact MemorySection.drift_putReceived_of_not_evicts hkeep
    | setRecipientMetadata id keyId domains count t₁ t₂ =>
      exact drift_setRecipientMetadata s id keyId domains count t₁ t₂
    | updateStatus id keyId update t₁ t₂ => exact drift_updateStatus s id keyId update t₁ t₂
    | getRead id keyId now => rfl
    | getExpire id keyId now => exact drift_getExpire s id now
    | expireOldRecords order now => exact MemorySection.drift_sweep_of_not_evicts hkeep
    | recordCount => exact absurd rfl hreset
    | reloadConfig config => rfl
  forget := by
    intro s op _ hforget
    cases op with
    | putReceived order record => exact MemorySection.drift_putReceived_of_evicts hforget
    | expireOldRecords order now => exact MemorySection.drift_sweep_of_evicts hforget
    | _ => cases hforget

/-! ## The gauge, in SQLite -/

namespace SqliteStatusStore

variable (S : SqliteDeps)

def drift (s : SqliteStatusStore) : Int := s.metrics.statusRecordsCurrent - s.table.size

theorem drift_putReceived (order : RowOrder) (s : SqliteStatusStore)
    (record : SubmissionStatusRecord) :
    (s.putReceived S order record).drift =
      s.drift + (s.table.size - (evictIfNeeded order s.config.maxRecords s.table).size) := by
  cases h : (evictIfNeeded order s.config.maxRecords s.table).get record.requestId.asStr with
  | none =>
    have hsize : (s.putReceived S order record).table.size =
        (evictIfNeeded order s.config.maxRecords s.table).size + 1 :=
      @size_insertOrIgnore_of_new (recordToRow S record) _ h
    have hgauge : (s.putReceived S order record).metrics.statusRecordsCurrent =
        s.metrics.statusRecordsCurrent + 1 := by
      have hnot : (evictIfNeeded order s.config.maxRecords s.table).contains
          (recordToRow S record).requestId = false := by
        unfold Table.contains
        exact (congrArg Option.isSome h).trans rfl
      simp [putReceived, hnot, Metrics.statusRecordCreated, Metrics.statusTransitioned]
    unfold drift
    rw [hsize, hgauge]
    omega
  | some r =>
    have hheld : ((evictIfNeeded order s.config.maxRecords s.table).get
        (recordToRow S record).requestId).isSome = true :=
      (congrArg Option.isSome h).trans rfl
    have htable : (s.putReceived S order record).table =
        evictIfNeeded order s.config.maxRecords s.table :=
      insertOrIgnore_of_mem hheld
    have hgauge : (s.putReceived S order record).metrics = s.metrics := if_pos hheld
    unfold drift
    rw [htable, hgauge]
    omega

theorem drift_setRecipientMetadata (s : SqliteStatusStore) (id : RequestId) (keyId : String)
    (domains : List Domain) (count : Nat) :
    (s.setRecipientMetadata S id keyId domains count).drift = s.drift := by
  show s.metrics.statusRecordsCurrent - ((Table.modify _ _ s.table).size : Int) = _
  rw [Table.size_modify]
  rfl

theorem drift_updateStatus (s : SqliteStatusStore) (id : RequestId) (keyId : String)
    (update : StatusUpdate) (now : DateTime) :
    (s.updateStatus S id keyId update now).drift = s.drift := by
  have hgauge : (s.updateStatus S id keyId update now).metrics.statusRecordsCurrent =
      s.metrics.statusRecordsCurrent := by
    unfold updateStatus
    dsimp only
    split
    · split <;> rfl
    · rfl
  have hsize : (s.updateStatus S id keyId update now).table.size = s.table.size :=
    Table.size_modify _ _ _
  unfold drift
  rw [hgauge, hsize]

theorem drift_get (s : SqliteStatusStore) (id : RequestId) (keyId : String) (now : DateTime)
    (fresh : RequestId) : (s.get S id keyId now fresh).2.drift = s.drift := by
  have hone := size_deleteExpiredOne id.asStr (S.toRfc3339 now) s.table
  unfold get
  split
  · rfl
  · unfold drift
    dsimp only
    split
    · simp only [Metrics.statusRecordExpiredOne]
      omega
    · omega

theorem drift_expireOldRecords (order : RowOrder) (s : SqliteStatusStore) (now : DateTime) :
    (s.expireOldRecords S order now).drift =
      s.drift + (liveRows (S.toRfc3339 now) s.table -
        (s.expireOldRecords S order now).table.size) := by
  have hlive := size_deleteExpired (S.toRfc3339 now) s.table
  have hle : (deleteExpired (S.toRfc3339 now) s.table).size ≤ s.table.size :=
    Table.size_retain_le _ _
  have hgauge : (s.expireOldRecords S order now).metrics.statusRecordsCurrent =
      s.metrics.statusRecordsCurrent -
        (s.table.size - (deleteExpired (S.toRfc3339 now) s.table).size : Nat) := by
    unfold expireOldRecords
    dsimp only
    split
    · unfold Metrics.statusRecordsExpired
      rw [if_pos ‹_›]
    · omega
  unfold drift
  rw [hgauge]
  omega

end SqliteStatusStore

open SqliteStatusStore

/-- The operation evicts a row to keep to `max_records`. -/
def SqliteOp.Evicts (S : SqliteDeps) (s : SqliteStatusStore) : SqliteOp → Prop
  | .putReceived _ _ => 0 < s.table.size ∧ s.config.maxRecords ≤ s.table.size
  | .expireOldRecords _ now =>
    0 < liveRows (S.toRfc3339 now) s.table ∧
      s.config.maxRecords ≤ liveRows (S.toRfc3339 now) s.table
  | _ => False

def sqliteGauge (S : SqliteDeps) : Drift SqliteStatusStore SqliteOp where
  step := SqliteOp.exec S
  drift := SqliteStatusStore.drift
  resets op := op = .recordCount
  Forgets := SqliteOp.Evicts S

theorem sqliteGauge_lawful (S : SqliteDeps) : (sqliteGauge S).Lawful where
  reset := by
    rintro s op rfl
    show (s.table.size : Int) - s.table.size = 0
    omega
  keep := by
    intro s op hreset hkeep
    cases op with
    | putReceived order record =>
      have hnot : ¬(0 < s.table.size ∧ s.config.maxRecords ≤ s.table.size) := hkeep
      show (s.putReceived S order record).drift = s.drift
      rw [drift_putReceived, size_evictIfNeeded]
      split <;> omega
    | setRecipientMetadata id keyId domains count =>
      exact SqliteStatusStore.drift_setRecipientMetadata S s id keyId domains count
    | updateStatus id keyId update now =>
      exact SqliteStatusStore.drift_updateStatus S s id keyId update now
    | get id keyId now fresh => exact drift_get S s id keyId now fresh
    | expireOldRecords order now =>
      have hnot : ¬(0 < liveRows (S.toRfc3339 now) s.table ∧
        s.config.maxRecords ≤ liveRows (S.toRfc3339 now) s.table) := hkeep
      show (s.expireOldRecords S order now).drift = s.drift
      rw [SqliteStatusStore.drift_expireOldRecords, SqliteStatusStore.size_expireOldRecords]
      split <;> omega
    | recordCount => exact absurd rfl hreset
    | reloadConfig config => rfl
  forget := by
    intro s op _ hforget
    cases op with
    | putReceived order record =>
      have hevicts : 0 < s.table.size ∧ s.config.maxRecords ≤ s.table.size := hforget
      show s.drift < (s.putReceived S order record).drift
      rw [drift_putReceived, size_evictIfNeeded, if_pos hevicts.2]
      omega
    | expireOldRecords order now =>
      have hevicts : 0 < liveRows (S.toRfc3339 now) s.table ∧
        s.config.maxRecords ≤ liveRows (S.toRfc3339 now) s.table := hforget
      show s.drift < (s.expireOldRecords S order now).drift
      rw [SqliteStatusStore.drift_expireOldRecords, SqliteStatusStore.size_expireOldRecords,
        if_pos hevicts.2]
      omega
    | _ => cases hforget

/-- The gauge is right in a state exactly when nothing was evicted since the last count. -/
theorem gauge_eq_size_iff (S : SqliteDeps) (config : StatusConfig) :
    (∀ ops,
      (memoryRecords.run (.new config) ops).metrics.statusRecordsCurrent =
          (memoryRecords.run (.new config) ops).records.size ↔
        memoryGauge.Follows (.new config) ops) ∧
      ∀ ops,
        ((sqliteRows S).run (.created config) ops).metrics.statusRecordsCurrent =
            ((sqliteRows S).run (.created config) ops).table.size ↔
          (sqliteGauge S).Follows (.created config) ops := by
  refine ⟨fun ops => ?_, fun ops => ?_⟩
  · rw [← memoryGauge_lawful.drift_eq_zero_iff rfl ops]
    exact Int.sub_eq_zero.symm
  · rw [← (sqliteGauge_lawful S).drift_eq_zero_iff rfl ops]
    exact Int.sub_eq_zero.symm

namespace StoreMetrics

open BackendAgreement

def roomForOne : StatusConfig := { StatusConfig.default with maxRecords := 1 }

def secondRecord : SubmissionStatusRecord := { sampleRecord with requestId := ⟨"req_second"⟩ }

end StoreMetrics

open StoreMetrics BackendAgreement

theorem evictions_not_subtracted :
    (memoryRecords.run (.new roomForOne)
        [.putReceived (.id _ _) sampleRecord,
          .putReceived (.id _ _) secondRecord]).metrics.statusRecordsCurrent = 2 ∧
      (memoryRecords.run (.new roomForOne)
        [.putReceived (.id _ _) sampleRecord,
          .putReceived (.id _ _) secondRecord]).records.size = 1 ∧
      ((sqliteRows sampleDeps).run (.created roomForOne)
        [.putReceived (.id _ _) sampleRecord,
          .putReceived (.id _ _) secondRecord]).metrics.statusRecordsCurrent = 2 ∧
      ((sqliteRows sampleDeps).run (.created roomForOne)
        [.putReceived (.id _ _) sampleRecord,
          .putReceived (.id _ _) secondRecord]).table.size = 1 := by
  decide

/-! ## Expired records -/

namespace MemorySection

/-- The clock reading by which a section removes what has expired. -/
def expiryClock : MemorySection → Option DateTime
  | getExpire _ _ now => some now
  | expireOldRecords _ now => some now
  | _ => none

/-- The number of records that the section removes because their TTL has passed: those that
are expired at its clock reading and that it does not leave. -/
def removedExpired (s : InMemoryStatusStore) (op : MemorySection) : Nat :=
  match op.expiryClock with
  | some now =>
    s.records.count fun k r => decide (r.expiresAt ≤ now) && !(op.exec s).records.contains k
  | none => 0

def removedExpiredIn (s : InMemoryStatusStore) : List MemorySection → Nat
  | [] => 0
  | op :: ops => op.removedExpired s + removedExpiredIn (op.exec s) ops

theorem removedExpired_of_unchanged {s : InMemoryStatusStore} {now : DateTime} :
    s.records.count (fun k r => decide (r.expiresAt ≤ now) && !s.records.contains k) = 0 := by
  apply Table.count_eq_zero
  intro k r hr
  simp [Table.contains, hr]

/-- Under the write lock `get` removes and counts one expired record, or nothing. -/
theorem counted_getExpire (s : InMemoryStatusStore) (id : RequestId) (keyId : String)
    (now : DateTime) :
    (s.getExpire id now).expiredTotal =
        s.expiredTotal + (getExpire id keyId now).removedExpired s ∧
      (s.getExpire id now).metrics.statusExpiredTotal =
        s.metrics.statusExpiredTotal + (getExpire id keyId now).removedExpired s := by
  have hremoved : (getExpire id keyId now).removedExpired s = s.records.count fun k r =>
    decide (r.expiresAt ≤ now) && !(s.getExpire id now).records.contains k := rfl
  rcases getExpire_cases s id now with he | ⟨r, hr, hlt, he⟩
  · rw [hremoved, he, removedExpired_of_unchanged]
    exact ⟨rfl, rfl⟩
  · have hsame : ∀ k r', s.records.get k = some r' →
        (decide (r'.expiresAt ≤ now) && !(s.getExpire id now).records.contains k) =
          (decide (k = id.asStr) && decide (r'.expiresAt ≤ now)) := by
      intro k r' hr'
      rw [he, Table.contains, Table.get_erase]
      by_cases hk : k = id.asStr
      · simp [hk]
      · simp [hk, hr']
    have hone := Table.count_key_eq_one (p := fun r' => decide (r'.expiresAt ≤ now)) hr
      (decide_eq_true (Int.le_of_lt hlt))
    rw [hremoved, Table.count_congr hsame, hone, he]
    exact ⟨rfl, rfl⟩

/-- A sweep removes and counts all that has expired. -/
theorem counted_expireOldRecords (s : InMemoryStatusStore) (order : RecordOrder)
    (now : DateTime) :
    (s.expireOldRecords order now).expiredTotal =
        s.expiredTotal + (expireOldRecords order now).removedExpired s ∧
      (s.expireOldRecords order now).metrics.statusExpiredTotal =
        s.metrics.statusExpiredTotal + (expireOldRecords order now).removedExpired s := by
  have hremoved : (expireOldRecords order now).removedExpired s = deadCount now s.records := by
    have hsame : ∀ k r, s.records.get k = some r →
        (decide (r.expiresAt ≤ now) && !(s.expireOldRecords order now).records.contains k) =
          decide (r.expiresAt ≤ now) := by
      intro k r hr
      by_cases hdead : r.expiresAt ≤ now
      · have hgone := (expireOldRecords_swept order s now).gone k r hr hdead
        simp [hdead, Table.contains, hgone]
      · simp [hdead]
    exact Table.count_congr hsame
  obtain ⟨htotal, hmetrics⟩ := expiredTotal_expireOldRecords order s now
  rw [hremoved]
  refine ⟨htotal, ?_⟩
  rw [hmetrics]
  unfold Metrics.statusRecordsExpired
  split
  · rfl
  · omega

theorem counted_exec (s : InMemoryStatusStore) (op : MemorySection) :
    (op.exec s).expiredTotal = s.expiredTotal + op.removedExpired s ∧
      (op.exec s).metrics.statusExpiredTotal =
        s.metrics.statusExpiredTotal + op.removedExpired s := by
  cases op with
  | putReceived order record =>
    show (s.putReceived order record).expiredTotal = s.expiredTotal ∧
      (s.putReceived order record).metrics.statusExpiredTotal = s.metrics.statusExpiredTotal
    unfold InMemoryStatusStore.putReceived
    dsimp only
    split <;> exact ⟨rfl, rfl⟩
  | updateStatus id keyId update t₁ t₂ =>
    refine ⟨rfl, ?_⟩
    show (s.updateStatus id keyId update t₁ t₂).metrics.statusExpiredTotal =
      s.metrics.statusExpiredTotal
    unfold InMemoryStatusStore.updateStatus
    dsimp only
    split
    · split <;> rfl
    · rfl
  | getExpire id keyId now => exact counted_getExpire s id keyId now
  | expireOldRecords order now => exact counted_expireOldRecords s order now
  | setRecipientMetadata id keyId domains count t₁ t₂ => exact ⟨rfl, rfl⟩
  | getRead id keyId now => exact ⟨rfl, rfl⟩
  | recordCount => exact ⟨rfl, rfl⟩
  | reloadConfig config => exact ⟨rfl, rfl⟩

theorem counted_run (s : InMemoryStatusStore) (ops : List MemorySection) :
    (memoryRecords.run s ops).expiredTotal = s.expiredTotal + removedExpiredIn s ops ∧
      (memoryRecords.run s ops).metrics.statusExpiredTotal =
        s.metrics.statusExpiredTotal + removedExpiredIn s ops := by
  induction ops generalizing s with
  | nil => exact ⟨rfl, rfl⟩
  | cons op ops ih =>
    obtain ⟨htotal, hmetric⟩ := counted_exec s op
    obtain ⟨htotal', hmetric'⟩ := ih (op.exec s)
    constructor
    · show (memoryRecords.run (op.exec s) ops).expiredTotal =
        s.expiredTotal + (op.removedExpired s + removedExpiredIn (op.exec s) ops)
      omega
    · show (memoryRecords.run (op.exec s) ops).metrics.statusExpiredTotal =
        s.metrics.statusExpiredTotal + (op.removedExpired s + removedExpiredIn (op.exec s) ops)
      omega

end MemorySection

/-- A record that `get` removes is expired when the write lock is held. -/
theorem expired_of_getExpire {s : InMemoryStatusStore} {id id' : RequestId} {now : DateTime}
    {r : SubmissionStatusRecord} (hr : s.find id' = some r)
    (hgone : (s.getExpire id now).find id' = none) : r.isExpired now = true := by
  rw [find_getExpire] at hgone
  split at hgone
  · rw [hr] at hgone
    simpa [Option.filter_some] using hgone
  · rw [hr] at hgone
    cases hgone

/-- Over every interleaving of sections, from an empty store. -/
structure ExpiryCounted (config : StatusConfig) (ops : List MemorySection) : Prop where
  total : (memoryRecords.run (.new config) ops).expiredTotal =
    MemorySection.removedExpiredIn (.new config) ops
  metric : (memoryRecords.run (.new config) ops).metrics.statusExpiredTotal =
    MemorySection.removedExpiredIn (.new config) ops
  expired : ∀ id id' now r, (memoryRecords.run (.new config) ops).find id' = some r →
    ((memoryRecords.run (.new config) ops).getExpire id now).find id' = none →
      r.isExpired now = true

theorem expiry_counted_once (config : StatusConfig) (ops : List MemorySection) :
    ExpiryCounted config ops := by
  obtain ⟨htotal, hmetric⟩ := MemorySection.counted_run (.new config) ops
  constructor
  · rw [htotal]
    exact Nat.zero_add _
  · rw [hmetric]
    exact Nat.zero_add _
  · intro id id' now r hr hgone
    exact expired_of_getExpire hr hgone

end HttpSmtpRele
