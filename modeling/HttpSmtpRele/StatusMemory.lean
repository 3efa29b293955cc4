import Mathlib.Data.List.MinMax
import HttpSmtpRele.Lib.Oldest
import HttpSmtpRele.Metrics
import HttpSmtpRele.Status

/-!
# `status_memory.rs`: the in-memory status store

One function per critical section.  Each `Utc::now()` is an argument, in the
order of the readings, and so is the iteration order of the hash map where the
outcome may depend on it.  After the definitions, what each operation does to
the record held under one id: this is all that the later modules use.
-/

namespace HttpSmtpRele

/-- `order` is an iteration order of `records`. -/
abbrev RecordOrder := Table.IterOrder String SubmissionStatusRecord

structure InMemoryStatusStore where
  /-- keyed by `request_id.as_str()` -/
  records : Table String SubmissionStatusRecord
  config : StatusConfig
  /-- an `AtomicU64`, which would wrap around at 2^64 expired records -/
  expiredTotal : Nat
  metrics : Metrics

namespace SubmissionStatusRecord

/-- `set_recipient_metadata` on the record found. -/
def withRecipientMetadata (keyId : String) (recipientDomains : List Domain)
    (recipientCount : Nat) (checkedAt now : DateTime) (r : SubmissionStatusRecord) :
    SubmissionStatusRecord :=
  if r.keyId = keyId ∧ r.isExpired checkedAt = false then
    { r with
      recipientDomains := recipientDomains
      recipientCount := recipientCount
      updatedAt := now }
  else r

/-- The guard of `update_status`. -/
def Updatable (keyId : String) (checkedAt : DateTime) (r : SubmissionStatusRecord) : Prop :=
  ¬(r.keyId ≠ keyId ∨ r.isExpired checkedAt = true ∨ r.status.isTerminal = true)

instance (keyId : String) (checkedAt : DateTime) (r : SubmissionStatusRecord) :
    Decidable (r.Updatable keyId checkedAt) :=
  inferInstanceAs (Decidable (¬_))

/-- `update_status` on the record found. -/
def withStatus (keyId : String) (update : StatusUpdate) (checkedAt now : DateTime)
    (r : SubmissionStatusRecord) : SubmissionStatusRecord :=
  if r.Updatable keyId checkedAt then
    { r with
      status := update.status
      code := update.code
      message := update.message.or r.message
      updatedAt := now }
  else r

theorem keyId_withRecipientMetadata (keyId : String) (domains : List Domain) (count : Nat)
    (t₁ t₂ : DateTime) (r : SubmissionStatusRecord) :
    (r.withRecipientMetadata keyId domains count t₁ t₂).keyId = r.keyId := by
  unfold withRecipientMetadata
  split <;> rfl

theorem keyId_withStatus (keyId : String) (update : StatusUpdate) (t₁ t₂ : DateTime)
    (r : SubmissionStatusRecord) : (r.withStatus keyId update t₁ t₂).keyId = r.keyId := by
  unfold withStatus
  split <;> rfl

theorem expiresAt_withRecipientMetadata (keyId : String) (domains : List Domain) (count : Nat)
    (t₁ t₂ : DateTime) (r : SubmissionStatusRecord) :
    (r.withRecipientMetadata keyId domains count t₁ t₂).expiresAt = r.expiresAt := by
  unfold withRecipientMetadata
  split <;> rfl

theorem expiresAt_withStatus (keyId : String) (update : StatusUpdate) (t₁ t₂ : DateTime)
    (r : SubmissionStatusRecord) : (r.withStatus keyId update t₁ t₂).expiresAt = r.expiresAt := by
  unfold withStatus
  split <;> rfl

theorem updatable_iff {keyId : String} {checkedAt : DateTime} {r : SubmissionStatusRecord} :
    r.Updatable keyId checkedAt ↔
      r.keyId = keyId ∧ checkedAt ≤ r.expiresAt ∧ r.status.isTerminal = false := by
  unfold Updatable
  rw [← isExpired_eq_false]
  simp

end SubmissionStatusRecord

namespace InMemoryStatusStore

def new (config : StatusConfig) : InMemoryStatusStore where
  records := ∅
  config := config
  expiredTotal := 0
  metrics := {}

/-! ## Operations -/

/-- Instants compare as integers do, and computably. -/
local instance : Preorder DateTime := Int.instLinearOrder.toPreorder

/-- Remove the record `min_by_key(created_at)` finds. -/
def evictOldest (order : RecordOrder) (records : Table String SubmissionStatusRecord) :
    Table String SubmissionStatusRecord :=
  match (order.arrange records.entries).argmin fun e => e.2.createdAt with
  | some e => records.erase e.1
  | none => records

def putReceived (order : RecordOrder) (s : InMemoryStatusStore)
    (record : SubmissionStatusRecord) : InMemoryStatusStore :=
  let key := record.requestId.asStr
  if s.records.contains key then s
  else
    let records :=
      if s.records.size ≥ s.config.maxRecords then evictOldest order s.records else s.records
    { s with
      records := records.insert key record
      metrics := s.metrics.statusRecordCreated }

def setRecipientMetadata (s : InMemoryStatusStore) (requestId : RequestId) (keyId : String)
    (recipientDomains : List Domain) (recipientCount : Nat) (checkedAt now : DateTime) :
    InMemoryStatusStore :=
  { s with
    records := s.records.modify requestId.asStr
      (SubmissionStatusRecord.withRecipientMetadata keyId recipientDomains recipientCount
        checkedAt now) }

def updateStatus (s : InMemoryStatusStore) (requestId : RequestId) (keyId : String)
    (update : StatusUpdate) (checkedAt now : DateTime) : InMemoryStatusStore :=
  { s with
    records := s.records.modify requestId.asStr
      (SubmissionStatusRecord.withStatus keyId update checkedAt now)
    metrics :=
      match s.records.get requestId.asStr with
      | some r =>
        if r.Updatable keyId checkedAt then
          s.metrics.statusTransitioned update.status.asStr
            ((update.code.map ErrorCode.asStr).getD "none")
        else s.metrics
      | none => s.metrics }

/-- What the section of `get` under the read lock finds. -/
inductive Found
  | absent
  | live (r : SubmissionStatusRecord)
  | expired
  deriving DecidableEq

/-- `get`, under the read lock. -/
def getRead (s : InMemoryStatusStore) (requestId : RequestId) (keyId : String) (now : DateTime) :
    Found :=
  match s.records.get requestId.asStr with
  | none => .absent
  | some r =>
    if r.keyId ≠ keyId then .absent else if !r.isExpired now then .live r else .expired

/-- `get`, under the write lock: entered after `expired` was found. -/
def getExpire (s : InMemoryStatusStore) (requestId : RequestId) (now : DateTime) :
    InMemoryStatusStore :=
  match s.records.get requestId.asStr with
  | none => s
  | some r =>
    if r.isExpired now then
      { s with
        records := s.records.erase requestId.asStr
        expiredTotal := s.expiredTotal + 1
        metrics := s.metrics.statusRecordExpiredOne }
    else s

/-- `get` with nothing in between its two sections. -/
def get (s : InMemoryStatusStore) (requestId : RequestId) (keyId : String)
    (readAt expireAt : DateTime) : Option SubmissionStatusRecord × InMemoryStatusStore :=
  match s.getRead requestId keyId readAt with
  | .absent => (none, s)
  | .live r => (some r, s)
  | .expired => (none, s.getExpire requestId expireAt)

/-- The keys of the `excess` oldest records (`sort_by_key` is stable). -/
def oldestKeys (order : RecordOrder) (records : Table String SubmissionStatusRecord)
    (excess : Nat) : List String :=
  (((order.arrange records.entries).insertionSort fun a b => a.2.createdAt ≤ b.2.createdAt).take
    excess).map Sigma.fst

def expireOldRecords (order : RecordOrder) (s : InMemoryStatusStore) (now : DateTime) :
    InMemoryStatusStore :=
  let kept := s.records.retain fun _ r => decide (r.expiresAt > now)
  let removed := s.records.size - kept.size
  { s with
    records :=
      if kept.size > s.config.maxRecords then
        kept.eraseAll (oldestKeys order kept (kept.size - s.config.maxRecords))
      else kept
    expiredTotal := if removed > 0 then s.expiredTotal + removed else s.expiredTotal
    metrics := if removed > 0 then s.metrics.statusRecordsExpired removed else s.metrics }

def recordCount (s : InMemoryStatusStore) : Nat × InMemoryStatusStore :=
  (s.records.size, { s with metrics := s.metrics.statusSetCurrent s.records.size })

def reloadConfig (s : InMemoryStatusStore) (config : StatusConfig) : InMemoryStatusStore :=
  { s with config := config }

/-! ## Eviction -/

/-- A record with the smallest `created_at` goes. -/
theorem evictOldest_spec (order : RecordOrder) {records : Table String SubmissionStatusRecord}
    (h : 0 < records.size) :
    ∃ k r, records.get k = some r ∧
      (∀ k' r', records.get k' = some r' → r.createdAt ≤ r'.createdAt) ∧
      evictOldest order records = AList.erase k records := by
  have hlen : 0 < (order.arrange records.entries).length := by
    rw [(order.perm _).length_eq]
    exact h
  unfold evictOldest
  cases hmin : (order.arrange records.entries).argmin fun e => e.2.createdAt with
  | none =>
    rw [List.argmin_eq_none.mp hmin] at hlen
    exact absurd hlen (Nat.lt_irrefl 0)
  | some e =>
    have hmem := (order.perm _).mem_iff.mp (List.argmin_mem hmin)
    refine ⟨e.1, e.2, Table.get_eq_some_iff.mpr hmem, fun k' r' hr' => ?_, rfl⟩
    have hmem' := (order.perm _).mem_iff.mpr (Table.get_eq_some_iff.mp hr')
    have hle : ¬r'.createdAt < e.2.createdAt :=
      List.not_lt_of_mem_argmin (f := fun e => e.2.createdAt) hmem' hmin
    exact Int.not_lt.mp hle

/-- Any record with the smallest `created_at` goes, in some order. -/
theorem evictOldest_first {records : Table String SubmissionStatusRecord} {k : String}
    {r : SubmissionStatusRecord} (hr : records.get k = some r)
    (hmin : ∀ k' r', records.get k' = some r' → r.createdAt ≤ r'.createdAt) :
    evictOldest (.first ⟨k, r⟩) records = AList.erase k records := by
  have hmem : (⟨k, r⟩ : Σ _ : String, SubmissionStatusRecord) ∈ records.entries :=
    Table.get_eq_some_iff.mp hr
  have hargmin : ((Table.IterOrder.first ⟨k, r⟩).arrange records.entries).argmin
      (fun e => e.2.createdAt) = some ⟨k, r⟩ := by
    simp only [Table.IterOrder.first, if_pos hmem]
    rw [List.argmin_cons]
    cases hrest : (records.entries.erase ⟨k, r⟩).argmin fun e => e.2.createdAt with
    | none => rfl
    | some e =>
      have he := List.mem_of_mem_erase (List.argmin_mem hrest)
      have hle := hmin e.1 e.2 (Table.get_eq_some_iff.mpr he)
      exact if_neg (Int.not_lt.mpr hle)
  unfold evictOldest
  rw [hargmin]

theorem evictOldest_of_empty (order : RecordOrder) {records : Table String SubmissionStatusRecord}
    (h : records.size = 0) : evictOldest order records = records := by
  have hnil : order.arrange records.entries = [] := by
    rw [← List.length_eq_zero_iff, (order.perm _).length_eq]
    exact h
  simp [evictOldest, hnil]

theorem size_evictOldest (order : RecordOrder) (records : Table String SubmissionStatusRecord) :
    (evictOldest order records).size = records.size - 1 := by
  rcases Nat.eq_zero_or_pos records.size with h | h
  · rw [evictOldest_of_empty order h, h]
  · obtain ⟨k, r, hr, -, he⟩ := evictOldest_spec order h
    have hsize := Table.size_erase (Table.mem_keys_of_get hr)
    rw [he]
    omega

instance createdAt_total :
    Std.Total fun a b : SubmissionStatusRecord => a.createdAt ≤ b.createdAt :=
  ⟨fun _ _ => Int.le_total _ _⟩

instance createdAt_trans : IsTrans SubmissionStatusRecord fun a b => a.createdAt ≤ b.createdAt :=
  ⟨fun _ _ _ => Int.le_trans⟩

/-! ## Effect on one id -/

/-- The record held under an id. -/
def find (s : InMemoryStatusStore) (id : RequestId) : Option SubmissionStatusRecord :=
  s.records.get id.asStr

theorem asStr_ne {id id' : RequestId} (h : id ≠ id') : id.asStr ≠ id'.asStr :=
  RequestId.asStr_injective.ne h

@[simp] theorem find_new (config : StatusConfig) (id : RequestId) : (new config).find id = none :=
  rfl

@[simp] theorem find_reloadConfig (s : InMemoryStatusStore) (config : StatusConfig)
    (id : RequestId) : (s.reloadConfig config).find id = s.find id := rfl

theorem get_evictOldest {order : RecordOrder} {records : Table String SubmissionStatusRecord}
    (k : String) : (evictOldest order records).get k = none ∨
      (evictOldest order records).get k = records.get k := by
  unfold evictOldest
  split
  · rw [Table.get_erase]
    split
    · exact Or.inl rfl
    · exact Or.inr rfl
  · exact Or.inr rfl

@[simp] theorem config_putReceived (order : RecordOrder) (s : InMemoryStatusStore)
    (record : SubmissionStatusRecord) : (s.putReceived order record).config = s.config := by
  unfold putReceived
  dsimp only
  split <;> rfl

/-- A second put of an id changes nothing. -/
theorem putReceived_of_mem {order : RecordOrder} {s : InMemoryStatusStore}
    {record r : SubmissionStatusRecord} (h : s.find record.requestId = some r) :
    s.putReceived order record = s := by
  unfold find at h
  simp [putReceived, Table.contains, h]

theorem find_putReceived_self {order : RecordOrder} {s : InMemoryStatusStore}
    {record : SubmissionStatusRecord} (h : s.find record.requestId = none) :
    (s.putReceived order record).find record.requestId = some record := by
  unfold find at h ⊢
  simp [putReceived, Table.contains, h, Table.get_insert]

/-- Another id keeps its record, or is evicted. -/
theorem find_putReceived_ne (order : RecordOrder) (s : InMemoryStatusStore)
    {record : SubmissionStatusRecord} {id : RequestId} (hid : id ≠ record.requestId) :
    (s.putReceived order record).find id = none ∨
      (s.putReceived order record).find id = s.find id := by
  unfold putReceived
  dsimp only
  split
  · exact Or.inr rfl
  · simp only [find, Table.get_insert, if_neg (asStr_ne hid)]
    split
    · exact get_evictOldest _
    · exact Or.inr rfl

/-- Below the limit nothing is evicted. -/
theorem find_putReceived_of_room {order : RecordOrder} {s : InMemoryStatusStore}
    {record : SubmissionStatusRecord} (hroom : s.records.size < s.config.maxRecords)
    (id : RequestId) :
    (s.putReceived order record).find id =
      if id = record.requestId then (s.find id).or (some record) else s.find id := by
  by_cases hid : id = record.requestId
  · subst hid
    cases h : s.find record.requestId with
    | none => simp [find_putReceived_self h]
    | some r => simp [putReceived_of_mem h, h]
  · have hle : ¬s.records.size ≥ s.config.maxRecords := by omega
    unfold putReceived
    dsimp only
    rw [if_neg hid, if_neg hle]
    split
    · rfl
    · simp [find, Table.get_insert, asStr_ne hid]

theorem find_setRecipientMetadata (s : InMemoryStatusStore) (id : RequestId) (keyId : String)
    (domains : List Domain) (count : Nat) (t₁ t₂ : DateTime) (id' : RequestId) :
    (s.setRecipientMetadata id keyId domains count t₁ t₂).find id' =
      if id' = id then
        (s.find id').map (SubmissionStatusRecord.withRecipientMetadata keyId domains count t₁ t₂)
      else s.find id' := by
  unfold setRecipientMetadata find
  rw [Table.get_modify]
  by_cases hid : id' = id
  · simp [hid]
  · simp [hid, asStr_ne hid]

theorem find_updateStatus (s : InMemoryStatusStore) (id : RequestId) (keyId : String)
    (update : StatusUpdate) (t₁ t₂ : DateTime) (id' : RequestId) :
    (s.updateStatus id keyId update t₁ t₂).find id' =
      if id' = id then (s.find id').map (SubmissionStatusRecord.withStatus keyId update t₁ t₂)
      else s.find id' := by
  unfold updateStatus find
  rw [Table.get_modify]
  by_cases hid : id' = id
  · simp [hid]
  · simp [hid, asStr_ne hid]

theorem getRead_eq_live {s : InMemoryStatusStore} {id : RequestId} {keyId : String}
    {now : DateTime} {r : SubmissionStatusRecord} :
    s.getRead id keyId now = .live r ↔
      s.find id = some r ∧ r.keyId = keyId ∧ now ≤ r.expiresAt := by
  unfold getRead find
  cases h : s.records.get id.asStr with
  | none => simp
  | some r' =>
    simp only [Option.some.injEq, ← SubmissionStatusRecord.isExpired_eq_false]
    grind

theorem find_getExpire (s : InMemoryStatusStore) (id : RequestId) (now : DateTime)
    (id' : RequestId) :
    (s.getExpire id now).find id' =
      if id' = id then (s.find id').filter fun r => !r.isExpired now else s.find id' := by
  unfold getExpire find
  cases h : s.records.get id.asStr with
  | none =>
    by_cases hid : id' = id
    · simp [hid, h]
    · simp [hid]
  | some r =>
    by_cases hid : id' = id
    · subst hid
      cases he : r.isExpired now <;> simp [h, he, Table.get_erase, Option.filter_some]
    · cases he : r.isExpired now <;> simp [hid, he, Table.get_erase, asStr_ne hid]

/-- The sweep keeps a record as it is, or removes it. -/
theorem find_expireOldRecords (order : RecordOrder) (s : InMemoryStatusStore) (now : DateTime)
    (id : RequestId) :
    (s.expireOldRecords order now).find id = none ∨
      (s.expireOldRecords order now).find id = s.find id := by
  have hretain : ∀ t : Table String SubmissionStatusRecord, ∀ k,
      (t.retain fun _ r => decide (r.expiresAt > now)).get k = none ∨
        (t.retain fun _ r => decide (r.expiresAt > now)).get k = t.get k := by
    intro t k
    rw [Table.get_retain]
    cases t.get k with
    | none => exact Or.inl rfl
    | some r => by_cases hr : now < r.expiresAt <;> simp [Option.filter_some, hr]
  unfold expireOldRecords find
  dsimp only
  split
  · rw [Table.get_eraseAll]
    split
    · exact Or.inl rfl
    · exact hretain _ _
  · exact hretain _ _

/-- Within the limit the sweep removes what has expired and nothing else. -/
theorem find_expireOldRecords_of_room {order : RecordOrder} {s : InMemoryStatusStore}
    {now : DateTime} (hroom : s.records.size ≤ s.config.maxRecords) (id : RequestId) :
    (s.expireOldRecords order now).find id =
      (s.find id).filter fun r => decide (r.expiresAt > now) := by
  have hle : ¬(s.records.retain fun _ r => decide (r.expiresAt > now)).size >
      s.config.maxRecords := by
    have := Table.size_retain_le (fun _ r => decide (r.expiresAt > now)) s.records
    omega
  unfold expireOldRecords find
  simp only [if_neg hle, Table.get_retain]

/-! ## Number of records -/

theorem size_putReceived {order : RecordOrder} {s : InMemoryStatusStore}
    {record : SubmissionStatusRecord} (h : s.find record.requestId = none) :
    (s.putReceived order record).records.size =
      if s.records.size ≥ s.config.maxRecords then s.records.size - 1 + 1
      else s.records.size + 1 := by
  unfold find at h
  have hkey : ∀ t : Table String SubmissionStatusRecord, t.get record.requestId.asStr = none →
      Table.size (AList.insert record.requestId.asStr record t) = t.size + 1 :=
    fun t ht => Table.size_insert_of_not_mem (Table.not_mem_keys_of_get ht) record
  simp only [putReceived, Table.contains, h, Option.isSome_none, Bool.false_eq_true, if_false]
  split
  · have hgone : (evictOldest order s.records).get record.requestId.asStr = none := by
      rcases @get_evictOldest order s.records record.requestId.asStr with h' | h'
      · exact h'
      · exact h'.trans h
    rw [hkey _ hgone, size_evictOldest]
  · exact hkey _ h

theorem size_putReceived_of_room {order : RecordOrder} {s : InMemoryStatusStore}
    {record : SubmissionStatusRecord} (hnew : s.find record.requestId = none)
    (hroom : s.records.size < s.config.maxRecords) :
    (s.putReceived order record).records.size = s.records.size + 1 := by
  rw [size_putReceived hnew]
  exact if_neg (Nat.not_le.mpr hroom)

@[simp] theorem size_setRecipientMetadata (s : InMemoryStatusStore) (id : RequestId)
    (keyId : String) (domains : List Domain) (count : Nat) (t₁ t₂ : DateTime) :
    (s.setRecipientMetadata id keyId domains count t₁ t₂).records.size = s.records.size :=
  Table.size_modify _ _ _

@[simp] theorem size_updateStatus (s : InMemoryStatusStore) (id : RequestId) (keyId : String)
    (update : StatusUpdate) (t₁ t₂ : DateTime) :
    (s.updateStatus id keyId update t₁ t₂).records.size = s.records.size :=
  Table.size_modify _ _ _

/-- What `get` does under the write lock: nothing, or the removal of an expired record. -/
theorem getExpire_cases (s : InMemoryStatusStore) (id : RequestId) (now : DateTime) :
    s.getExpire id now = s ∨ ∃ r, s.find id = some r ∧ r.expiresAt < now ∧
      s.getExpire id now =
        { s with
          records := AList.erase id.asStr s.records
          expiredTotal := s.expiredTotal + 1
          metrics := s.metrics.statusRecordExpiredOne } := by
  unfold getExpire find
  cases h : s.records.get id.asStr with
  | none => exact Or.inl rfl
  | some r =>
    cases he : r.isExpired now with
    | false => exact Or.inl (by simp [he])
    | true =>
      have hlt : r.expiresAt < now := SubmissionStatusRecord.isExpired_eq_true.mp he
      exact Or.inr ⟨r, rfl, hlt, by simp [he]⟩

/-- What the first step of a sweep at `now` retains. -/
def live (now : DateTime) (records : Table String SubmissionStatusRecord) :
    Table String SubmissionStatusRecord :=
  records.retain fun _ r => decide (r.expiresAt > now)

def liveCount (now : DateTime) (records : Table String SubmissionStatusRecord) : Nat :=
  records.count fun _ r => decide (r.expiresAt > now)

/-- The number of records that a sweep at `now` finds expired. -/
def deadCount (now : DateTime) (records : Table String SubmissionStatusRecord) : Nat :=
  records.count fun _ r => decide (r.expiresAt ≤ now)

theorem get_live {now : DateTime} {records : Table String SubmissionStatusRecord} {k : String}
    {r : SubmissionStatusRecord} :
    (live now records).get k = some r ↔ records.get k = some r ∧ now < r.expiresAt := by
  rw [live, Table.get_retain, Option.filter_eq_some_iff]
  simp

theorem size_live (now : DateTime) (records : Table String SubmissionStatusRecord) :
    (live now records).size = liveCount now records :=
  Table.size_retain _ _

theorem liveCount_add_deadCount (now : DateTime) (records : Table String SubmissionStatusRecord) :
    liveCount now records + deadCount now records = records.size := by
  rw [← Table.count_add_count_not fun _ r => decide (r.expiresAt > now)]
  congr 1
  apply List.countP_congr
  intro e _
  simp

theorem records_expireOldRecords (order : RecordOrder) (s : InMemoryStatusStore)
    (now : DateTime) :
    (s.expireOldRecords order now).records =
      if (live now s.records).size > s.config.maxRecords then
        (live now s.records).eraseAll
          ((live now s.records).oldest (fun a b => a.createdAt ≤ b.createdAt) order
            ((live now s.records).size - s.config.maxRecords))
      else live now s.records := rfl

/-- The sweep removes the dead, then the oldest of the others down to the limit. -/
theorem size_expireOldRecords (order : RecordOrder) (s : InMemoryStatusStore) (now : DateTime) :
    (s.expireOldRecords order now).records.size =
      min (liveCount now s.records) s.config.maxRecords := by
  have hlive := size_live now s.records
  rw [records_expireOldRecords]
  split
  · rw [Table.size_eraseAll_oldest]
    omega
  · omega

/-- Both counters grow by the number of the dead. -/
theorem expiredTotal_expireOldRecords (order : RecordOrder) (s : InMemoryStatusStore)
    (now : DateTime) :
    (s.expireOldRecords order now).expiredTotal = s.expiredTotal + deadCount now s.records ∧
      (s.expireOldRecords order now).metrics =
        s.metrics.statusRecordsExpired (deadCount now s.records) := by
  have hremoved : s.records.size - (live now s.records).size = deadCount now s.records := by
    have hlive := size_live now s.records
    have hsum := liveCount_add_deadCount now s.records
    omega
  unfold expireOldRecords
  dsimp only
  rw [← live, hremoved]
  by_cases hpos : deadCount now s.records > 0
  · simp [hpos]
  · simp [hpos, Metrics.statusRecordsExpired]
    omega

end InMemoryStatusStore

/-! ## `NoopStatusStore` and the store of a process -/

/-- The store behind `Arc<dyn StatusStore>` in the default build. -/
inductive StatusStore
  | noop
  | memory (s : InMemoryStatusStore)

namespace StatusStore

/-- An operation; `NoopStatusStore` discards it. -/
def update (f : InMemoryStatusStore → InMemoryStatusStore) : StatusStore → StatusStore
  | noop => noop
  | memory s => memory (f s)

def find (id : RequestId) : StatusStore → Option SubmissionStatusRecord
  | noop => none
  | memory s => s.find id

end StatusStore

end HttpSmtpRele
