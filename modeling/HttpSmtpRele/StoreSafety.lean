import HttpSmtpRele.Lib.RecordStore
import HttpSmtpRele.StatusMemory
import HttpSmtpRele.StatusSqlite

/-!
# Store safety

Both backends as record stores: their operations with any arguments, who
performs each, and when a record is removed.  From the moment a record is
inserted until it is removed its id, key and dates stay as they are, a terminal
status is final, and the operations of other keys neither change nor return it.

The in-memory store is run at the granularity of its critical sections, so that
every interleaving of whole operations is covered.
-/

namespace HttpSmtpRele

/-! ## In memory -/

/-- A critical section; `get` has two. -/
inductive MemorySection
  | putReceived (order : RecordOrder) (record : SubmissionStatusRecord)
  | setRecipientMetadata (id : RequestId) (keyId : String) (domains : List Domain) (count : Nat)
      (checkedAt now : DateTime)
  | updateStatus (id : RequestId) (keyId : String) (update : StatusUpdate)
      (checkedAt now : DateTime)
  | getRead (id : RequestId) (keyId : String) (now : DateTime)
  | getExpire (id : RequestId) (keyId : String) (now : DateTime)
  | expireOldRecords (order : RecordOrder) (now : DateTime)
  | recordCount
  | reloadConfig (config : StatusConfig)

namespace MemorySection

def exec (s : InMemoryStatusStore) : MemorySection → InMemoryStatusStore
  | putReceived order record => s.putReceived order record
  | setRecipientMetadata id keyId domains count t₁ t₂ =>
    s.setRecipientMetadata id keyId domains count t₁ t₂
  | updateStatus id keyId update t₁ t₂ => s.updateStatus id keyId update t₁ t₂
  | getRead _ _ _ => s
  | getExpire id _ now => s.getExpire id now
  | expireOldRecords order now => s.expireOldRecords order now
  | recordCount => s.recordCount.2
  | reloadConfig config => s.reloadConfig config

/-- The `key_id` the operation is invoked with. -/
def actor : MemorySection → Option String
  | putReceived _ record => some record.keyId
  | setRecipientMetadata _ keyId _ _ _ _ => some keyId
  | updateStatus _ keyId _ _ _ => some keyId
  | getRead _ keyId _ => some keyId
  | getExpire _ keyId _ => some keyId
  | expireOldRecords _ _ => none
  | recordCount => none
  | reloadConfig _ => none

def returned (s : InMemoryStatusStore) : MemorySection → Option SubmissionStatusRecord
  | getRead id keyId now =>
    match s.getRead id keyId now with
    | .live r => some r
    | .absent => none
    | .expired => none
  | _ => none

end MemorySection

def memoryRecords :
    RecordStore InMemoryStatusStore MemorySection RequestId SubmissionStatusRecord String where
  find := InMemoryStatusStore.find
  step := MemorySection.exec
  Keeps s op id := ((op.exec s).find id).isSome = true
  actor := MemorySection.actor
  returned := MemorySection.returned

namespace SubmissionStatusRecord

def identity (r : SubmissionStatusRecord) : RequestId × DateTime × DateTime :=
  (r.requestId, r.createdAt, r.expiresAt)

/-- What a terminal record reports. -/
def outcome (r : SubmissionStatusRecord) :
    Option (SubmissionStatus × Option ErrorCode × Option String) :=
  if r.status.isTerminal then some (r.status, r.code, r.message) else none

def protection : Protection SubmissionStatusRecord String (RequestId × DateTime × DateTime)
    (SubmissionStatus × Option ErrorCode × Option String) where
  owner := keyId
  identity := identity
  outcome := outcome

theorem withRecipientMetadata_evolves (keyId : String) (domains : List Domain) (count : Nat)
    (t₁ t₂ : DateTime) (r : SubmissionStatusRecord) :
    protection.Evolves r (r.withRecipientMetadata keyId domains count t₁ t₂) := by
  unfold withRecipientMetadata
  split
  · exact ⟨rfl, rfl, fun _ h => h⟩
  · exact .refl _ r

theorem withStatus_evolves (keyId : String) (update : StatusUpdate) (t₁ t₂ : DateTime)
    (r : SubmissionStatusRecord) :
    protection.Evolves r (r.withStatus keyId update t₁ t₂) := by
  unfold withStatus
  split
  · rename_i h
    refine ⟨rfl, rfl, fun o ho => ?_⟩
    have hterm : r.status.isTerminal = false := (updatable_iff.mp h).2.2
    simp [protection, outcome, hterm] at ho
  · exact .refl _ r

theorem withRecipientMetadata_of_ne {keyId : String} {r : SubmissionStatusRecord}
    (h : keyId ≠ r.keyId) (domains : List Domain) (count : Nat) (t₁ t₂ : DateTime) :
    r.withRecipientMetadata keyId domains count t₁ t₂ = r :=
  if_neg fun hc => h hc.1.symm

theorem withStatus_of_ne {keyId : String} {r : SubmissionStatusRecord} (h : keyId ≠ r.keyId)
    (update : StatusUpdate) (t₁ t₂ : DateTime) : r.withStatus keyId update t₁ t₂ = r :=
  if_neg fun hc => h (updatable_iff.mp hc).1.symm

end SubmissionStatusRecord

namespace MemorySection

open SubmissionStatusRecord

/-- What a section does to a record that it does not remove. -/
theorem find_exec {s : InMemoryStatusStore} {op : MemorySection} {id : RequestId}
    {r : SubmissionStatusRecord} (hr : s.find id = some r)
    (hk : ((op.exec s).find id).isSome = true) :
    (op.exec s).find id = some r ∨
      (∃ keyId domains count t₁ t₂, op.actor = some keyId ∧
        (op.exec s).find id = some (r.withRecipientMetadata keyId domains count t₁ t₂)) ∨
      ∃ keyId update t₁ t₂, op.actor = some keyId ∧
        (op.exec s).find id = some (r.withStatus keyId update t₁ t₂) := by
  cases op with
  | putReceived order record =>
    apply Or.inl
    change (s.putReceived order record).find id = some r
    by_cases hid : id = record.requestId
    · subst hid
      rw [InMemoryStatusStore.putReceived_of_mem hr, hr]
    · rcases InMemoryStatusStore.find_putReceived_ne order s hid with h | h
      · rw [exec, h] at hk
        cases hk
      · rw [h, hr]
  | setRecipientMetadata id' keyId domains count t₁ t₂ =>
    simp only [exec, InMemoryStatusStore.find_setRecipientMetadata, hr]
    split
    · exact Or.inr (Or.inl ⟨keyId, domains, count, t₁, t₂, rfl, rfl⟩)
    · exact Or.inl rfl
  | updateStatus id' keyId update t₁ t₂ =>
    simp only [exec, InMemoryStatusStore.find_updateStatus, hr]
    split
    · exact Or.inr (Or.inr ⟨keyId, update, t₁, t₂, rfl, rfl⟩)
    · exact Or.inl rfl
  | getRead id' keyId now => exact Or.inl hr
  | getExpire id' keyId now =>
    apply Or.inl
    simp only [exec, InMemoryStatusStore.find_getExpire, hr] at hk ⊢
    split
    · rename_i hid
      rw [if_pos hid] at hk
      obtain ⟨r', hr'⟩ := Option.isSome_iff_exists.mp hk
      rw [hr', (Option.filter_eq_some_iff.mp hr').1]
    · rfl
  | expireOldRecords order now =>
    apply Or.inl
    change (s.expireOldRecords order now).find id = some r
    rcases InMemoryStatusStore.find_expireOldRecords order s now id with h | h
    · rw [exec, h] at hk
      cases hk
    · rw [h, hr]
  | recordCount => exact Or.inl hr
  | reloadConfig config => exact Or.inl hr

theorem returned_actor {s : InMemoryStatusStore} {op : MemorySection}
    {r : SubmissionStatusRecord} (h : op.returned s = some r) : op.actor = some r.keyId := by
  cases op with
  | getRead id keyId now =>
    simp only [returned] at h
    cases hf : s.getRead id keyId now with
    | live r' =>
      rw [hf] at h
      cases h
      rw [actor, (InMemoryStatusStore.getRead_eq_live.mp hf).2.1]
    | absent => simp [hf] at h
    | expired => simp [hf] at h
  | _ => cases h

end MemorySection

open SubmissionStatusRecord in
theorem memoryRecords_stepSafe : memoryRecords.StepSafe SubmissionStatusRecord.protection where
  evolves := by
    intro s op id r hr hk
    rcases MemorySection.find_exec hr hk with h | ⟨_, _, _, _, _, -, h⟩ | ⟨_, _, _, _, -, h⟩
    · exact ⟨r, h, .refl _ r⟩
    · exact ⟨_, h, withRecipientMetadata_evolves _ _ _ _ _ r⟩
    · exact ⟨_, h, withStatus_evolves _ _ _ _ r⟩
  foreign := by
    intro s op id r k hr hk hactor hne
    rcases MemorySection.find_exec hr hk with h | ⟨k', _, _, _, _, ha, h⟩ | ⟨k', _, _, _, ha, h⟩
    · exact h
    all_goals
      obtain rfl : k' = k := Option.some.inj (ha.symm.trans hactor)
      refine h.trans (congrArg some ?_)
    · exact withRecipientMetadata_of_ne hne _ _ _ _
    · exact withStatus_of_ne hne _ _ _
  returned := MemorySection.returned_actor

/-! ## SQLite -/

inductive SqliteOp
  | putReceived (order : RowOrder) (record : SubmissionStatusRecord)
  | setRecipientMetadata (id : RequestId) (keyId : String) (domains : List Domain) (count : Nat)
  | updateStatus (id : RequestId) (keyId : String) (update : StatusUpdate) (now : DateTime)
  | get (id : RequestId) (keyId : String) (now : DateTime) (fresh : RequestId)
  | expireOldRecords (order : RowOrder) (now : DateTime)
  | recordCount
  | reloadConfig (config : StatusConfig)

namespace SqliteOp

open SqliteStatusStore

variable (S : SqliteDeps)

def exec (s : SqliteStatusStore) : SqliteOp → SqliteStatusStore
  | putReceived order record => s.putReceived S order record
  | setRecipientMetadata id keyId domains count =>
    s.setRecipientMetadata S id keyId domains count
  | updateStatus id keyId update now => s.updateStatus S id keyId update now
  | get id keyId now fresh => (s.get S id keyId now fresh).2
  | expireOldRecords order now => s.expireOldRecords S order now
  | recordCount => s.recordCount.2
  | reloadConfig config => s.reloadConfig config

/-- The table after the `DELETE` statements of the operation: `put_received`
inserts after it has deleted, the others delete last or not at all. -/
def afterDeletes (s : SqliteStatusStore) : SqliteOp → StatusTable
  | putReceived order _ => evictIfNeeded order s.config.maxRecords s.table
  | op => (op.exec S s).table

def actor : SqliteOp → Option String
  | putReceived _ record => some record.keyId
  | setRecipientMetadata _ keyId _ _ => some keyId
  | updateStatus _ keyId _ _ => some keyId
  | get _ keyId _ _ => some keyId
  | expireOldRecords _ _ => none
  | recordCount => none
  | reloadConfig _ => none

/-- The row that `get` converts and returns. -/
def returned (s : SqliteStatusStore) : SqliteOp → Option StatusRow
  | get id keyId now _ => select id.asStr keyId (S.toRfc3339 now) s.table
  | _ => none

end SqliteOp

def sqliteRows (S : SqliteDeps) :
    RecordStore SqliteStatusStore SqliteOp RequestId StatusRow String where
  find s id := s.table.get id.asStr
  step := SqliteOp.exec S
  Keeps s op id := ((op.afterDeletes S s).get id.asStr).isSome = true
  actor := SqliteOp.actor
  returned := SqliteOp.returned S

namespace StatusRow

def identity (r : StatusRow) : String × String × String := (r.requestId, r.createdAt, r.expiresAt)

def outcome (r : StatusRow) : Option (String × Option String × Option String) :=
  if r.status ∈ SqliteStatusStore.terminalNames then some (r.status, r.code, r.message) else none

def protection : Protection StatusRow String (String × String × String)
    (String × Option String × Option String) where
  owner := keyId
  identity := identity
  outcome := outcome

end StatusRow

namespace SqliteOp

open SqliteStatusStore

variable {S : SqliteDeps}

/-- What the statements after the deletions do to a row that is still there. -/
theorem get_exec {s : SqliteStatusStore} {op : SqliteOp} {id : RequestId} {r : StatusRow}
    (hr : s.table.get id.asStr = some r)
    (hk : ((op.afterDeletes S s).get id.asStr).isSome = true) :
    ∃ r', (op.exec S s).table.get id.asStr = some r' ∧ StatusRow.protection.Evolves r r' ∧
      ∀ k, op.actor = some k → k ≠ r.keyId → r' = r := by
  have hsame : ∀ {r' : StatusRow}, r' = r → StatusRow.protection.Evolves r r' ∧
      ∀ k, op.actor = some k → k ≠ r.keyId → r' = r := by
    rintro r' rfl
    exact ⟨.refl _ r', fun _ _ _ => rfl⟩
  cases op with
  | putReceived order record =>
    refine ⟨r, get_insertOrIgnore_of_mem ?_, hsame rfl⟩
    rcases get_evictIfNeeded order s.config.maxRecords s.table id.asStr with h | h
    · rw [afterDeletes, h] at hk
      cases hk
    · rw [h, hr]
  | setRecipientMetadata id' keyId domains count =>
    simp only [exec, SqliteStatusStore.setRecipientMetadata, updateMetadata, Table.get_modify, hr]
    split
    · refine ⟨_, rfl, ?_, fun k hact hne => ?_⟩
      · dsimp only
        split
        · exact ⟨rfl, rfl, fun _ h => h⟩
        · exact .refl _ r
      · cases hact
        exact if_neg fun h => hne h.symm
    · exact ⟨r, rfl, hsame rfl⟩
  | updateStatus id' keyId update now =>
    simp only [exec, SqliteStatusStore.updateStatus, updateStatusRow, Table.get_modify, hr]
    split
    · refine ⟨_, rfl, ?_, fun k hact hne => ?_⟩
      · dsimp only
        split
        · rename_i h
          refine ⟨rfl, rfl, fun o ho => ?_⟩
          simp [StatusRow.protection, StatusRow.outcome, h.2.2] at ho
        · exact .refl _ r
      · cases hact
        exact if_neg fun h => hne h.1.symm
    · exact ⟨r, rfl, hsame rfl⟩
  | get id' keyId now fresh =>
    refine ⟨r, ?_, hsame rfl⟩
    simp only [afterDeletes, exec, SqliteStatusStore.get] at hk ⊢
    split at hk
    · exact hr
    · rcases get_retain_cases _ s.table id.asStr with h | h
      · rw [deleteExpiredOne, h] at hk
        cases hk
      · rw [deleteExpiredOne, h, hr]
  | expireOldRecords order now =>
    refine ⟨r, ?_, hsame rfl⟩
    simp only [afterDeletes, exec, SqliteStatusStore.expireOldRecords] at hk ⊢
    rcases get_evictIfNeeded order s.config.maxRecords
      (deleteExpired (S.toRfc3339 now) s.table) id.asStr with h | h
    · rw [h] at hk
      cases hk
    · rw [h] at hk ⊢
      rcases get_retain_cases _ s.table id.asStr with h' | h'
      · rw [deleteExpired, h'] at hk
        cases hk
      · rw [deleteExpired, h', hr]
  | recordCount => exact ⟨r, hr, hsame rfl⟩
  | reloadConfig config => exact ⟨r, hr, hsame rfl⟩

theorem returned_actor {s : SqliteStatusStore} {op : SqliteOp} {r : StatusRow}
    (h : op.returned S s = some r) : op.actor = some r.keyId := by
  cases op with
  | get id keyId now fresh => rw [actor, (select_eq_some.mp h).2.1]
  | _ => cases h

end SqliteOp

theorem sqliteRows_stepSafe (S : SqliteDeps) : (sqliteRows S).StepSafe StatusRow.protection where
  evolves hr hk :=
    let ⟨r', h, hev, _⟩ := SqliteOp.get_exec hr hk
    ⟨r', h, hev⟩
  foreign := by
    intro s op id r k hr hk hactor hne
    obtain ⟨r', h, -, hsame⟩ := SqliteOp.get_exec hr hk
    rw [hsame k hactor hne] at h
    exact h
  returned := SqliteOp.returned_actor

/-! ## The result -/

/-- Over any run that does not remove the record under an id, the record keeps
its owner and identity, and its outcome once it is final; an operation of
another key leaves it exactly as it is and is never handed it. -/
structure StoreSafe {σ ω ρ δ ο : Type} (K : RecordStore σ ω RequestId ρ String)
    (P : Protection ρ String δ ο) : Prop where
  run : ∀ s ops id r, K.find s id = some r → K.KeepsThrough id s ops →
    ∃ r', K.find (K.run s ops) id = some r' ∧ P.Evolves r r'
  foreign : ∀ s op id r k, K.find s id = some r → K.Keeps s op id → K.actor op = some k →
    k ≠ P.owner r → K.find (K.step s op) id = some r
  returned : ∀ s op r, K.returned s op = some r → K.actor op = some (P.owner r)

theorem StoreSafe.of_stepSafe {σ ω ρ δ ο : Type} {K : RecordStore σ ω RequestId ρ String}
    {P : Protection ρ String δ ο} (h : K.StepSafe P) : StoreSafe K P :=
  ⟨fun _ ops _ _ hr hk => h.run_evolves ops hr hk, fun _ _ _ _ _ => h.foreign,
    fun _ _ _ => h.returned⟩

theorem statusStores_safe :
    StoreSafe memoryRecords SubmissionStatusRecord.protection ∧
      ∀ S, StoreSafe (sqliteRows S) StatusRow.protection :=
  ⟨.of_stepSafe memoryRecords_stepSafe, fun S => .of_stepSafe (sqliteRows_stepSafe S)⟩

end HttpSmtpRele
