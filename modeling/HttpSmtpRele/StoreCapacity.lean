import HttpSmtpRele.BackendAgreement
import HttpSmtpRele.StoreSafety

/-!
# How the stores keep to `max_records`

What a put and a sweep remove, and how many records that leaves.  An insertion
into the in-memory store evicts at most one record, so a store that a reload
has put over its limit stays over it until the next sweep: the bound is on the
limits in force since then.  The SQLite store makes room before it knows
whether the id is new, and counts before the row is in.
-/

namespace HttpSmtpRele

/-! ## In memory: the sweep -/

open InMemoryStatusStore

/-- What a sweep at `now` leaves of the records `before` under the limit. -/
structure Swept (now : DateTime) (maxRecords : Nat)
    (before after : Table String SubmissionStatusRecord) : Prop where
  gone : ∀ k r, before.get k = some r → r.expiresAt ≤ now → after.get k = none
  unchanged : ∀ k r, after.get k = some r → before.get k = some r
  room : liveCount now before ≤ maxRecords → ∀ k r, before.get k = some r → now < r.expiresAt →
    after.get k = some r
  full : maxRecords < liveCount now before → after.size = maxRecords
  newest : ∀ k r k' r', before.get k = some r → now < r.expiresAt → after.get k = none →
    after.get k' = some r' → r.createdAt ≤ r'.createdAt

theorem swept_of_room {now : DateTime} {maxRecords : Nat}
    {records : Table String SubmissionStatusRecord} (h : liveCount now records ≤ maxRecords) :
    Swept now maxRecords records (live now records) := by
  constructor
  · intro k r hr hdead
    cases hget : (live now records).get k with
    | none => rfl
    | some r' =>
      have hr' := get_live.mp hget
      have heq : r = r' := Option.some.inj (hr.symm.trans hr'.1)
      rw [heq] at hdead
      exact absurd hr'.2 (Int.not_lt.mpr hdead)
  · intro k r hr
    exact (get_live.mp hr).1
  · intro _ k r hr hlive
    exact get_live.mpr ⟨hr, hlive⟩
  · intro hlt
    omega
  · intro k r k' r' hr hlive hgone _
    rw [get_live.mpr ⟨hr, hlive⟩] at hgone
    cases hgone

theorem swept_of_full {now : DateTime} {maxRecords : Nat}
    {records : Table String SubmissionStatusRecord} (order : RecordOrder)
    (h : maxRecords < liveCount now records) :
    Swept now maxRecords records
      ((live now records).eraseAll
        ((live now records).oldest (fun a b => a.createdAt ≤ b.createdAt) order
          ((live now records).size - maxRecords))) := by
  have hroom : Swept now (liveCount now records) records (live now records) :=
    swept_of_room (Nat.le_refl _)
  have hlive := size_live now records
  constructor
  · intro k r hr hdead
    rw [Table.get_eraseAll, hroom.gone k r hr hdead, ite_self]
  · intro k r hr
    rw [Table.get_eraseAll] at hr
    split at hr
    · cases hr
    · exact hroom.unchanged k r hr
  · intro hle
    omega
  · intro _
    rw [Table.size_eraseAll_oldest]
    omega
  · intro k r k' r' hr hlt hgone hr'
    exact Table.eraseAll_oldest_le (r := fun a b => a.createdAt ≤ b.createdAt)
      (get_live.mpr ⟨hr, hlt⟩) hgone hr'

theorem expireOldRecords_swept (order : RecordOrder) (s : InMemoryStatusStore) (now : DateTime) :
    Swept now s.config.maxRecords s.records (s.expireOldRecords order now).records := by
  have hlive := size_live now s.records
  rw [records_expireOldRecords]
  split
  · exact swept_of_full order (by omega)
  · exact swept_of_room (by omega)

/-- The sweep removes the expired records, then the oldest, and counts the former. -/
theorem sweep_keeps_newest (order : RecordOrder) (s : InMemoryStatusStore) (now : DateTime) :
    Swept now s.config.maxRecords s.records (s.expireOldRecords order now).records ∧
      (s.expireOldRecords order now).expiredTotal =
        s.expiredTotal + deadCount now s.records :=
  ⟨expireOldRecords_swept order s now, (expiredTotal_expireOldRecords order s now).1⟩

/-! ## In memory: the size across reloads -/

/-- The limits in force since the last sweep, the present one first. -/
def limitsStep (limits : List Nat) : MemorySection → List Nat
  | .expireOldRecords _ _ => limits.take 1
  | .reloadConfig config => config.maxRecords :: limits
  | _ => limits

def limitsSince (config : StatusConfig) (ops : List MemorySection) : List Nat :=
  ops.foldl limitsStep [config.maxRecords]

def largest (limits : List Nat) : Nat := limits.foldr max 0

theorem le_largest {limits : List Nat} {l : Nat} (h : l ∈ limits) : l ≤ largest limits := by
  induction limits with
  | nil => cases h
  | cons l' limits ih =>
    show l ≤ max l' (largest limits)
    rcases List.mem_cons.mp h with rfl | h
    · omega
    · have := ih h
      omega

/-- The invariant of a run: `limits` are those in force since the last sweep. -/
structure SizeWithin (limits : List Nat) (s : InMemoryStatusStore) : Prop where
  present : limits.head? = some s.config.maxRecords
  size : s.records.size ≤ max 1 (largest limits)

theorem SizeWithin.le {limits : List Nat} {s : InMemoryStatusStore} (h : SizeWithin limits s) :
    s.config.maxRecords ≤ largest limits :=
  le_largest (List.mem_of_mem_head? h.present)

theorem SizeWithin.exec {limits : List Nat} {s : InMemoryStatusStore} (h : SizeWithin limits s)
    (op : MemorySection) : SizeWithin (limitsStep limits op) (op.exec s) := by
  have hsize := h.size
  have hle := h.le
  cases op with
  | putReceived order record =>
    refine ⟨?_, ?_⟩
    · show limits.head? = some (s.putReceived order record).config.maxRecords
      rw [h.present, config_putReceived]
    · show (s.putReceived order record).records.size ≤ max 1 (largest limits)
      cases hnew : s.find record.requestId with
      | some r =>
        rw [putReceived_of_mem hnew]
        exact hsize
      | none =>
        rw [size_putReceived hnew]
        split <;> omega
  | setRecipientMetadata id keyId domains count t₁ t₂ =>
    exact ⟨h.present, (size_setRecipientMetadata s id keyId domains count t₁ t₂).trans_le hsize⟩
  | updateStatus id keyId update t₁ t₂ =>
    exact ⟨h.present, (size_updateStatus s id keyId update t₁ t₂).trans_le hsize⟩
  | getRead id keyId now => exact h
  | getExpire id keyId now =>
    show SizeWithin limits (s.getExpire id now)
    rcases getExpire_cases s id now with he | ⟨r, hr, -, he⟩
    · rw [he]
      exact h
    · have herase := Table.size_erase (Table.mem_keys_of_get hr)
      rw [he]
      refine ⟨h.present, ?_⟩
      show Table.size (AList.erase id.asStr s.records) ≤ max 1 (largest limits)
      omega
  | expireOldRecords order now =>
    have hpresent : (limits.take 1).head? = some s.config.maxRecords := by
      rw [List.head?_take, if_neg Nat.one_ne_zero, h.present]
    refine ⟨hpresent, ?_⟩
    have hmax : s.config.maxRecords ≤ largest (limits.take 1) :=
      le_largest (List.mem_of_mem_head? hpresent)
    have hswept := size_expireOldRecords order s now
    show (s.expireOldRecords order now).records.size ≤ max 1 (largest (limits.take 1))
    omega
  | recordCount => exact ⟨h.present, hsize⟩
  | reloadConfig config =>
    refine ⟨rfl, ?_⟩
    show s.records.size ≤ max 1 (max config.maxRecords (largest limits))
    omega

theorem sizeWithin_run (config : StatusConfig) (ops : List MemorySection) :
    SizeWithin (limitsSince config ops) (memoryRecords.run (.new config) ops) := by
  have hrun : ∀ (limits : List Nat) (s : InMemoryStatusStore), SizeWithin limits s →
      SizeWithin (ops.foldl limitsStep limits) (memoryRecords.run s ops) := by
    induction ops with
    | nil => exact fun _ _ h => h
    | cons op ops ih => exact fun limits s h => ih _ _ (h.exec op)
  exact hrun _ _ ⟨rfl, Nat.zero_le _⟩

/-- Putting `record` removes one record, and none created before it. -/
def EvictsOldest (s : InMemoryStatusStore) (record : SubmissionStatusRecord)
    (s' : InMemoryStatusStore) : Prop :=
  ∃ k r, s.records.get k = some r ∧
    (∀ k' r', s.records.get k' = some r' → r.createdAt ≤ r'.createdAt) ∧
    ∀ k', s'.records.get k' =
      if k' = record.requestId.asStr then some record
      else if k' = k then none else s.records.get k'

def EvictsNone (s : InMemoryStatusStore) (record : SubmissionStatusRecord)
    (s' : InMemoryStatusStore) : Prop :=
  ∀ k', s'.records.get k' =
    if k' = record.requestId.asStr then some record else s.records.get k'

theorem putReceived_evictsOldest (order : RecordOrder) {s : InMemoryStatusStore}
    {record : SubmissionStatusRecord} (hnew : s.find record.requestId = none)
    (hpos : 0 < s.records.size) (hfull : s.config.maxRecords ≤ s.records.size) :
    EvictsOldest s record (s.putReceived order record) := by
  obtain ⟨k, r, hr, hmin, hevict⟩ := evictOldest_spec order hpos
  refine ⟨k, r, hr, hmin, fun k' => ?_⟩
  unfold InMemoryStatusStore.find at hnew
  simp only [InMemoryStatusStore.putReceived, Table.contains, hnew, Option.isSome_none,
    Bool.false_eq_true, if_false, ge_iff_le, hfull, if_true, hevict]
  rw [Table.get_insert, Table.get_erase]

theorem putReceived_evictsNone (order : RecordOrder) {s : InMemoryStatusStore}
    {record : SubmissionStatusRecord} (hnew : s.find record.requestId = none)
    (hroom : s.records.size < s.config.maxRecords) :
    EvictsNone s record (s.putReceived order record) := by
  intro k'
  unfold InMemoryStatusStore.find at hnew
  simp only [InMemoryStatusStore.putReceived, Table.contains, hnew, Option.isSome_none,
    Bool.false_eq_true, if_false, ge_iff_le, Nat.not_le.mpr hroom]
  rw [Table.get_insert]

/-- What is bounded at the end of a run with these limits. -/
structure Bounded (limits : List Nat) (s : InMemoryStatusStore) : Prop where
  size : s.records.size ≤ max 1 (largest limits)
  swept : ∀ order now, (s.expireOldRecords order now).records.size ≤ s.config.maxRecords
  full : ∀ order record, s.find record.requestId = none → 0 < s.records.size →
    s.config.maxRecords ≤ s.records.size → EvictsOldest s record (s.putReceived order record)
  room : ∀ order record, s.find record.requestId = none →
    s.records.size < s.config.maxRecords → EvictsNone s record (s.putReceived order record)

theorem memoryStore_bounded (config : StatusConfig) (ops : List MemorySection) :
    Bounded (limitsSince config ops) (memoryRecords.run (.new config) ops) where
  size := (sizeWithin_run config ops).size
  swept order now := by
    rw [size_expireOldRecords]
    exact Nat.min_le_right _ _
  full order _ hnew hpos hfull := putReceived_evictsOldest order hnew hpos hfull
  room order _ hnew hroom := putReceived_evictsNone order hnew hroom

/-! ## SQLite: a put of a new id -/

/-- The put of a new `row` keeps to the limit, and removes the oldest rows if any. -/
structure InsertedWithin (maxRecords : Nat) (row : StatusRow)
    (before after : SqliteStatusStore.StatusTable) : Prop where
  size : after.size ≤ max 1 maxRecords
  inserted : after.get row.requestId = some row
  kept : ∀ k r, k ≠ row.requestId → after.get k = some r → before.get k = some r
  oldest : ∀ k r k' r', before.get k = some r → after.get k = none → k' ≠ row.requestId →
    after.get k' = some r' → r.createdAt ≤ r'.createdAt

namespace SqliteStatusStore

theorem table_putReceived_of_gone {S : SqliteDeps} {order : RowOrder} {s : SqliteStatusStore}
    {record : SubmissionStatusRecord}
    (hgone : (evictIfNeeded order s.config.maxRecords s.table).get record.requestId.asStr = none) :
    (s.putReceived S order record).table =
      AList.insert record.requestId.asStr (recordToRow S record)
        (evictIfNeeded order s.config.maxRecords s.table) :=
  @insertOrIgnore_of_new (recordToRow S record) _ hgone

theorem gone_of_new {order : RowOrder} {maxRecords : Nat} {t : StatusTable} {k : String}
    (h : t.get k = none) : (evictIfNeeded order maxRecords t).get k = none := by
  rcases get_evictIfNeeded order maxRecords t k with h' | h'
  · exact h'
  · exact h'.trans h

end SqliteStatusStore

open SqliteStatusStore

/-- Room is made for the rows that are too many, not for the one that comes. -/
theorem sqlite_put_within_limit_iff (S : SqliteDeps) (order : RowOrder) (s : SqliteStatusStore)
    (record : SubmissionStatusRecord) (hnew : s.table.get record.requestId.asStr = none) :
    InsertedWithin s.config.maxRecords (recordToRow S record) s.table
        (s.putReceived S order record).table ↔
      s.table.size ≤ s.config.maxRecords ∨ s.config.maxRecords = 0 := by
  have hgone := @gone_of_new order s.config.maxRecords _ _ hnew
  have htable := table_putReceived_of_gone (S := S) hgone
  have hsize : (s.putReceived S order record).table.size =
      (evictIfNeeded order s.config.maxRecords s.table).size + 1 := by
    rw [htable]
    exact Table.size_insert_of_not_mem (Table.not_mem_keys_of_get hgone) _
  rw [size_evictIfNeeded] at hsize
  constructor
  · intro h
    have hle := h.size
    rw [hsize] at hle
    split at hle <;> omega
  · intro hcond
    have hget : ∀ k, k ≠ record.requestId.asStr → (s.putReceived S order record).table.get k =
        (evictIfNeeded order s.config.maxRecords s.table).get k := by
      intro k hk
      rw [htable, Table.get_insert, if_neg hk]
    constructor
    · rw [hsize]
      split <;> omega
    · show (s.putReceived S order record).table.get record.requestId.asStr = _
      rw [htable, Table.get_insert, if_pos rfl]
    · intro k r hk hr
      rw [hget k hk] at hr
      rcases get_evictIfNeeded order s.config.maxRecords s.table k with h | h
      · rw [h] at hr
        cases hr
      · rw [← h, hr]
    · intro k r k' r' hr hgone' hk' hr'
      have hk : k ≠ record.requestId.asStr := by
        rintro rfl
        rw [hnew] at hr
        cases hr
      rw [hget k hk] at hgone'
      rw [hget k' hk'] at hr'
      exact evictIfNeeded_oldest hr hgone' hr'

/-! ## A put of an id that is held -/

/-- The one row that a put evicts is the one it then inserts again as it was. -/
structure ReplacesItself (S : SqliteDeps) (s : SqliteStatusStore)
    (record : SubmissionStatusRecord) : Prop where
  alone : s.table.size ≤ s.config.maxRecords + 1
  oldest : ∀ k r, s.table.get k = some r → k ≠ record.requestId.asStr →
    (recordToRow S record).createdAt < r.createdAt
  same : s.table.get record.requestId.asStr = some (recordToRow S record)

namespace SqliteStatusStore

variable {S : SqliteDeps} {s : SqliteStatusStore} {record : SubmissionStatusRecord}

/-- The ids that `evict_if_needed` deletes from a table that is not below the limit. -/
def evictedIds (order : RowOrder) (maxRecords : Nat) (t : StatusTable) : List String :=
  t.oldest (fun a b => a.createdAt ≤ b.createdAt) order (max (t.size - maxRecords) 1)

theorem get_evictIfNeeded_of_full {maxRecords : Nat} {t : StatusTable} (h : maxRecords ≤ t.size)
    (order : RowOrder) (k : String) :
    (evictIfNeeded order maxRecords t).get k =
      if k ∈ evictedIds order maxRecords t then none else t.get k := by
  rw [evictIfNeeded_of_full h, Table.get_eraseAll]
  rfl

theorem length_evictedIds (order : RowOrder) (maxRecords : Nat) (t : StatusTable) :
    (evictedIds order maxRecords t).length = min (max (t.size - maxRecords) 1) t.size :=
  Table.length_oldest _ _ _

/-- What a put leaves under an id that it evicts. -/
theorem get_putReceived_of_evicted {order : RowOrder} {k : String}
    (hgone : (evictIfNeeded order s.config.maxRecords s.table).get k = none) :
    (s.putReceived S order record).table.get k =
      if k = record.requestId.asStr then some (recordToRow S record) else none := by
  show (insertOrIgnore (recordToRow S record) _).get k = _
  by_cases hk : k = record.requestId.asStr
  · subst hk
    rw [@insertOrIgnore_of_new (recordToRow S record) _ hgone, if_pos rfl]
    exact (Table.get_insert _ _ _ _).trans (if_pos rfl)
  · rw [if_neg hk]
    unfold insertOrIgnore
    split
    · exact hgone
    · exact (Table.get_insert _ _ _ _).trans ((if_neg hk).trans hgone)

theorem putReceived_of_held_of_room (order : RowOrder)
    (hheld : (s.table.get record.requestId.asStr).isSome = true)
    (hroom : s.table.size < s.config.maxRecords) :
    (s.putReceived S order record).table = s.table := by
  show insertOrIgnore (recordToRow S record) (evictIfNeeded order _ _) = _
  rw [evictIfNeeded_of_room hroom]
  exact insertOrIgnore_of_mem hheld

/-- If a full table is left as it was, the put's own row is all that was evicted. -/
theorem evicted_eq_self (hfull : s.config.maxRecords ≤ s.table.size) {order : RowOrder}
    (hkept : ∀ k, (s.putReceived S order record).table.get k = s.table.get k) {k : String}
    (hk : k ∈ evictedIds order s.config.maxRecords s.table) : k = record.requestId.asStr := by
  by_contra hne
  have hgone : (evictIfNeeded order s.config.maxRecords s.table).get k = none := by
    rw [get_evictIfNeeded_of_full hfull, if_pos hk]
  have hafter := hkept k
  rw [get_putReceived_of_evicted hgone, if_neg hne] at hafter
  exact Table.not_mem_keys_of_get hafter.symm (Table.mem_keys_of_mem_oldest hk)

theorem self_mem_evicted (hfull : s.config.maxRecords ≤ s.table.size)
    (hheld : (s.table.get record.requestId.asStr).isSome = true) {order : RowOrder}
    (hkept : ∀ k, (s.putReceived S order record).table.get k = s.table.get k) :
    record.requestId.asStr ∈ evictedIds order s.config.maxRecords s.table := by
  have hsize := Table.size_pos_of_isSome hheld
  have hlen : 0 < (evictedIds order s.config.maxRecords s.table).length := by
    rw [length_evictedIds]
    omega
  obtain ⟨k, hk⟩ := List.exists_mem_of_length_pos hlen
  rwa [evicted_eq_self hfull hkept hk] at hk

theorem replacesItself_of_kept (hfull : s.config.maxRecords ≤ s.table.size)
    (hheld : (s.table.get record.requestId.asStr).isSome = true)
    (hkept : ∀ order k, (s.putReceived S order record).table.get k = s.table.get k) :
    ReplacesItself S s record := by
  have hself := self_mem_evicted hfull hheld (hkept (.id _ _))
  have hsame : s.table.get record.requestId.asStr = some (recordToRow S record) := by
    rw [← hkept (.id _ _), get_putReceived_of_evicted, if_pos rfl]
    rw [get_evictIfNeeded_of_full hfull, if_pos hself]
  have holdest : ∀ k r, s.table.get k = some r →
      (recordToRow S record).createdAt ≤ r.createdAt := by
    intro k r hr
    by_cases hk : k ∈ evictedIds (.id _ _) s.config.maxRecords s.table
    · rw [evicted_eq_self hfull (hkept _) hk, hsame] at hr
      obtain rfl := Option.some.inj hr
      exact String.le_refl _
    · exact Table.oldest_le (r := fun a b => a.createdAt ≤ b.createdAt) hself hsame hk hr
  constructor
  · have hlen : (evictedIds (.id _ _) s.config.maxRecords s.table).length ≤ 1 := by
      have hsub : evictedIds (.id _ _) s.config.maxRecords s.table ⊆ [record.requestId.asStr] :=
        fun k hk => List.mem_singleton.mpr (evicted_eq_self hfull (hkept _) hk)
      exact (List.subperm_of_subset (Table.nodup_oldest _ _ _) hsub).length_le
    rw [length_evictedIds] at hlen
    omega
  · intro k r hr hne
    by_contra hlt
    -- a tie: in another order this row is the one that goes
    have htie : ∀ k' r', s.table.get k' = some r' → r.createdAt ≤ r'.createdAt := fun k' r' hr' =>
      String.le_trans (String.not_lt.mp hlt) (holdest k' r' hr')
    have hmem : k ∈ evictedIds (.first ⟨k, r⟩) s.config.maxRecords s.table :=
      Table.mem_oldest_first hr htie (by omega)
    exact hne (evicted_eq_self hfull (hkept _) hmem)
  · exact hsame

theorem kept_of_replacesItself (h : ReplacesItself S s record) (order : RowOrder) (k : String) :
    (s.putReceived S order record).table.get k = s.table.get k := by
  have hheld : (s.table.get record.requestId.asStr).isSome = true := by
    rw [h.same]
    rfl
  by_cases hroom : s.table.size < s.config.maxRecords
  · rw [putReceived_of_held_of_room order hheld hroom]
  have hfull : s.config.maxRecords ≤ s.table.size := Nat.not_lt.mp hroom
  obtain ⟨k', hone⟩ : ∃ k', evictedIds order s.config.maxRecords s.table = [k'] := by
    have halone := h.alone
    have hpos := Table.size_pos_of_isSome hheld
    rw [← List.length_eq_one_iff, length_evictedIds]
    omega
  have hk' : k' ∈ evictedIds order s.config.maxRecords s.table := by simp [hone]
  have hself : k' = record.requestId.asStr := by
    by_contra hne
    obtain ⟨r, hr⟩ := Table.get_of_mem_keys (Table.mem_keys_of_mem_oldest hk')
    have hmiss : record.requestId.asStr ∉ evictedIds order s.config.maxRecords s.table := by
      rw [hone, List.mem_singleton]
      exact fun he => hne he.symm
    have hle : r.createdAt ≤ (recordToRow S record).createdAt :=
      Table.oldest_le (r := fun a b => a.createdAt ≤ b.createdAt) hk' hr hmiss h.same
    exact String.not_lt.mpr hle (h.oldest k' r hr hne)
  have hevict : ∀ k, (evictIfNeeded order s.config.maxRecords s.table).get k =
      if k = record.requestId.asStr then none else s.table.get k := by
    intro k
    rw [get_evictIfNeeded_of_full hfull, hone, hself]
    simp only [List.mem_singleton]
  rw [table_putReceived_of_gone ((hevict _).trans (if_pos rfl)), Table.get_insert, hevict]
  by_cases hk : k = record.requestId.asStr
  · rw [if_pos hk, hk, h.same]
  · rw [if_neg hk, if_neg hk]

end SqliteStatusStore

/-- In memory a second put changes nothing; in SQLite it does once the table is full. -/
theorem duplicate_put_noop_iff (S : SqliteDeps) (record : SubmissionStatusRecord) :
    (∀ config ops order r,
      (memoryRecords.run (.new config) ops).find record.requestId = some r →
        (memoryRecords.run (.new config) ops).putReceived order record =
          memoryRecords.run (.new config) ops) ∧
      ∀ s₀ ops r,
        ((sqliteRows S).run s₀ ops).table.get record.requestId.asStr = some r →
          ((∀ order k, (((sqliteRows S).run s₀ ops).putReceived S order record).table.get k =
              ((sqliteRows S).run s₀ ops).table.get k) ↔
            ((sqliteRows S).run s₀ ops).table.size <
                ((sqliteRows S).run s₀ ops).config.maxRecords ∨
              ReplacesItself S ((sqliteRows S).run s₀ ops) record) := by
  refine ⟨fun _ _ _ _ h => putReceived_of_mem h, fun s₀ ops r hr => ?_⟩
  have hheld : (((sqliteRows S).run s₀ ops).table.get record.requestId.asStr).isSome = true := by
    rw [hr]
    rfl
  constructor
  · intro hkept
    by_cases hroom : ((sqliteRows S).run s₀ ops).table.size <
        ((sqliteRows S).run s₀ ops).config.maxRecords
    · exact Or.inl hroom
    · exact Or.inr (replacesItself_of_kept (Nat.not_lt.mp hroom) hheld hkept)
  · rintro (hroom | hself) order k
    · rw [putReceived_of_held_of_room order hheld hroom]
    · exact kept_of_replacesItself hself order k

/-! ## Three rows -/

namespace StoreCapacity

open BackendAgreement

/-- A record created `n` seconds into 1970. -/
def recordAt (n : Nat) (id : String) : SubmissionStatusRecord :=
  { sampleRecord with requestId := ⟨id⟩, createdAt := n * 1000000000 }

def limitOf (n : Nat) : StatusConfig := { StatusConfig.default with maxRecords := n }

/-- Two puts into an empty table with room for two. -/
def twoRows : SqliteStatusStore :=
  (sqliteRows sampleDeps).run (.created (limitOf 2))
    [.putReceived (.id _ _) (recordAt 0 "req_A"), .putReceived (.id _ _) (recordAt 1 "req_B")]

end StoreCapacity

open StoreCapacity BackendAgreement

theorem duplicate_put_evicts :
    (twoRows.table.get "req_A").isSome = true ∧ (twoRows.table.get "req_B").isSome = true ∧
      ((twoRows.putReceived sampleDeps (.id _ _) (recordAt 1 "req_B")).table.get "req_A") =
        none := by
  decide

theorem lowered_limit_exceeded :
    (twoRows.reloadConfig (limitOf 1)).table.get "req_C" = none ∧
      ¬InsertedWithin 1 (recordToRow sampleDeps (recordAt 2 "req_C")) twoRows.table
        ((twoRows.reloadConfig (limitOf 1)).putReceived sampleDeps (.id _ _)
          (recordAt 2 "req_C")).table := by
  refine ⟨by decide, fun h => ?_⟩
  have hsize : ((twoRows.reloadConfig (limitOf 1)).putReceived sampleDeps (.id _ _)
      (recordAt 2 "req_C")).table.size = 2 := by decide
  have hle := h.size
  omega

/-- At the limit the oldest row makes room. -/
theorem sqlite_put_within_limit_full :
    InsertedWithin 2 (recordToRow sampleDeps (recordAt 2 "req_C")) twoRows.table
      (twoRows.putReceived sampleDeps (.id _ _) (recordAt 2 "req_C")).table :=
  (sqlite_put_within_limit_iff sampleDeps (.id _ _) twoRows (recordAt 2 "req_C")
    (by decide)).mpr (Or.inl (by decide))

end HttpSmtpRele
