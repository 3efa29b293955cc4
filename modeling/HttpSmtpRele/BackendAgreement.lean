import HttpSmtpRele.Lib.Simulation
import HttpSmtpRele.StatusMemory
import HttpSmtpRele.StatusSqlite

/-!
# The in-memory and the SQLite store

The same calls, at the same clock readings, on both backends.  A row is the
record of the in-memory store, in text (`SameRow`), or it is past: no `get` still
to come finds either of them.  The two backends are not written to treat every
call in the same way, so that a row can lag behind its record until the next
update.  The relation is kept nevertheless, and every `get` answers alike that
reads no row while it lags (`ClearRun`).
-/

namespace HttpSmtpRele

inductive StoreCall
  | putReceived (record : SubmissionStatusRecord)
  | setRecipientMetadata (id : RequestId) (keyId : String) (domains : List Domain) (count : Nat)
  | updateStatus (id : RequestId) (keyId : String) (update : StatusUpdate)
  | get (id : RequestId) (keyId : String)

/-- A call, with what the environment decides: the reading of `Utc::now()`,
iteration orders and the value of `RequestId::new()`. -/
structure TimedCall where
  call : StoreCall
  now : DateTime
  recordOrder : RecordOrder
  rowOrder : RowOrder
  fresh : RequestId

namespace StoreCall

def id : StoreCall → RequestId
  | putReceived record => record.requestId
  | setRecipientMetadata id _ _ _ => id
  | updateStatus id _ _ => id
  | get id _ => id

def putId : StoreCall → Option RequestId
  | putReceived record => some record.requestId
  | _ => none

def isGet : StoreCall → Bool
  | get _ _ => true
  | _ => false

theorem putId_eq {call : StoreCall} {id : RequestId} (h : call.putId = some id) : id = call.id := by
  cases call with
  | putReceived record => exact (Option.some.inj h).symm
  | _ => cases h

end StoreCall

namespace TimedCall

def onMemory (s : InMemoryStatusStore) (c : TimedCall) : InMemoryStatusStore :=
  match c.call with
  | .putReceived record => s.putReceived c.recordOrder record
  | .setRecipientMetadata id keyId domains count =>
    s.setRecipientMetadata id keyId domains count c.now c.now
  | .updateStatus id keyId update => s.updateStatus id keyId update c.now c.now
  | .get id keyId => (s.get id keyId c.now c.now).2

def onSqlite (S : SqliteDeps) (s : SqliteStatusStore) (c : TimedCall) : SqliteStatusStore :=
  match c.call with
  | .putReceived record => s.putReceived S c.rowOrder record
  | .setRecipientMetadata id keyId domains count => s.setRecipientMetadata S id keyId domains count
  | .updateStatus id keyId update => s.updateStatus S id keyId update c.now
  | .get id keyId => (s.get S id keyId c.now c.fresh).2

def memoryAnswer (s : InMemoryStatusStore) (c : TimedCall) :
    Option (Option SubmissionStatusRecord) :=
  match c.call with
  | .get id keyId => some (s.get id keyId c.now c.now).1
  | _ => none

def sqliteAnswer (S : SqliteDeps) (s : SqliteStatusStore) (c : TimedCall) :
    Option (Option SubmissionStatusRecord) :=
  match c.call with
  | .get id keyId => some (s.get S id keyId c.now c.fresh).1
  | _ => none

end TimedCall

def memoryBackend : Machine InMemoryStatusStore TimedCall (Option SubmissionStatusRecord) where
  step := TimedCall.onMemory
  answer := TimedCall.memoryAnswer

def sqliteBackend (S : SqliteDeps) :
    Machine SqliteStatusStore TimedCall (Option SubmissionStatusRecord) where
  step := TimedCall.onSqlite S
  answer := TimedCall.sqliteAnswer S

/-- A database that has just been created. -/
def SqliteStatusStore.created (config : StatusConfig) : SqliteStatusStore where
  table := ∅
  config := config
  metrics := {}

/-! ## What the text columns can hold -/

/-- On these dates and lists the text says the same: chrono's for the years of
four digits, whose texts also sort as the dates do, serde_json's for all lists. -/
structure Faithful (S : SqliteDeps) (dates : Set DateTime) (lists : Set (List Domain)) : Prop where
  parse : ∀ t ∈ dates, S.parseRfc3339 (S.toRfc3339 t) = some t
  order : ∀ t ∈ dates, ∀ u ∈ dates, S.toRfc3339 t < S.toRfc3339 u ↔ t < u
  json : ∀ ds ∈ lists, S.domainsFromJson (S.domainsToJson ds) = some ds

/-- The record is one of the source's types: its id is a ULID, its count a `u32`. -/
structure Storable (S : SqliteDeps) (dates : Set DateTime) (lists : Set (List Domain))
    (r : SubmissionStatusRecord) : Prop where
  id : SqliteStatusStore.parseRequestId S r.requestId.asStr = some r.requestId
  domains : r.recipientDomains ∈ lists
  count : r.recipientCount < 2 ^ 32
  created : r.createdAt ∈ dates
  updated : r.updatedAt ∈ dates
  expires : r.expiresAt ∈ dates

/-- The arguments are of the source's types, the dates and lists among those considered. -/
def TimedCall.WellFormed (S : SqliteDeps) (dates : Set DateTime) (lists : Set (List Domain))
    (c : TimedCall) : Prop :=
  c.now ∈ dates ∧
    match c.call with
    | .putReceived record => Storable S dates lists record
    | .setRecipientMetadata _ _ domains count => domains ∈ lists ∧ count < 2 ^ 32
    | _ => True

/-! ## Reads that both backends answer alike -/

/-- The ids whose row lags behind the record: `updated_at` or the message differ. -/
abbrev Lag := RequestId → Bool

/-- Only the in-memory store stamps a metadata write, and only it keeps the old
message when an update has none.  An update with a message writes both again. -/
def TimedCall.lagAfter (c : TimedCall) (lags : Bool) (o : Option SubmissionStatusRecord) : Bool :=
  match c.call, o with
  | .setRecipientMetadata _ keyId _ _, some r =>
    if r.keyId = keyId ∧ r.isExpired c.now = false ∧ r.updatedAt ≠ c.now then true else lags
  | .updateStatus _ keyId update, some r =>
    if r.Updatable keyId c.now then decide (update.message = none ∧ r.message ≠ none) else lags
  | _, _ => lags

def TimedCall.lag (s : InMemoryStatusStore) (c : TimedCall) (lag : Lag) : Lag :=
  fun id => if id = c.call.id then c.lagAfter (lag id) (s.find id) else lag id

/-- No `get` comes at the very instant a record of the key expires, and none
before it while the row lags behind. -/
def TimedCall.Clear (lag : Lag) (s : InMemoryStatusStore) (c : TimedCall) : Prop :=
  match c.call with
  | .get id keyId => ∀ r ∈ s.find id, r.keyId = keyId →
    c.now ≠ r.expiresAt ∧ (c.now < r.expiresAt → lag id = false)
  | _ => True

instance (lag : Lag) (s : InMemoryStatusStore) (c : TimedCall) : Decidable (c.Clear lag s) :=
  match c with
  | ⟨.get id keyId, now, _, _, _⟩ =>
    inferInstanceAs (Decidable (∀ r ∈ s.find id, r.keyId = keyId →
      now ≠ r.expiresAt ∧ (now < r.expiresAt → lag id = false)))
  | ⟨.putReceived _, _, _, _, _⟩ => inferInstanceAs (Decidable True)
  | ⟨.setRecipientMetadata _ _ _ _, _, _, _, _⟩ => inferInstanceAs (Decidable True)
  | ⟨.updateStatus _ _ _, _, _, _, _⟩ => inferInstanceAs (Decidable True)

/-- Once a call for a record has come at its expiry or later, so do all reads of it. -/
def TimedCall.NoReturn (s : InMemoryStatusStore) (c : TimedCall) (rest : List TimedCall) : Prop :=
  ∀ r ∈ s.find c.call.id, r.expiresAt ≤ c.now →
    ∀ c' ∈ rest, c'.call.isGet = true → c'.call.id = c.call.id → r.expiresAt ≤ c'.now

instance (s : InMemoryStatusStore) (c : TimedCall) (rest : List TimedCall) :
    Decidable (c.NoReturn s rest) :=
  Option.decidableForallMem _

/-- The condition on the calls of a run. -/
def ClearRun : Lag → InMemoryStatusStore → List TimedCall → Prop
  | _, _, [] => True
  | lag, s, c :: cs => c.Clear lag s ∧ c.NoReturn s cs ∧ ClearRun (c.lag s lag) (c.onMemory s) cs

instance ClearRun.decide : ∀ lag s calls, Decidable (ClearRun lag s calls)
  | _, _, [] => inferInstanceAs (Decidable True)
  | lag, s, c :: cs =>
    have := ClearRun.decide (c.lag s lag) (c.onMemory s) cs
    inferInstanceAs (Decidable (_ ∧ _ ∧ _))

/-- Every put finds both stores below `max_records`. -/
def RoomInBoth (S : SqliteDeps) : InMemoryStatusStore → SqliteStatusStore → List TimedCall → Prop
  | _, _, [] => True
  | s, t, c :: cs =>
    (c.call.putId ≠ none →
      s.records.size < s.config.maxRecords ∧ t.table.size < t.config.maxRecords) ∧
      RoomInBoth S (c.onMemory s) (c.onSqlite S t) cs

instance RoomInBoth.decide (S : SqliteDeps) :
    ∀ s t calls, Decidable (RoomInBoth S s t calls)
  | _, _, [] => inferInstanceAs (Decidable True)
  | s, t, c :: cs =>
    have := RoomInBoth.decide S (c.onMemory s) (c.onSqlite S t) cs
    inferInstanceAs (Decidable (_ ∧ _))

/-- Every id is put once at most. -/
def PutOnce (calls : List TimedCall) : Prop :=
  (calls.filterMap fun c => c.call.putId).Nodup

instance (calls : List TimedCall) : Decidable (PutOnce calls) :=
  inferInstanceAs (Decidable (List.Nodup _))

theorem PutOnce.tail {c : TimedCall} {rest : List TimedCall} (h : PutOnce (c :: rest)) :
    PutOnce rest := by
  unfold PutOnce at h ⊢
  rw [List.filterMap_cons] at h
  cases hput : c.call.putId with
  | none => rwa [hput] at h
  | some id =>
    rw [hput] at h
    exact (List.nodup_cons.mp h).2

theorem PutOnce.not_mem {c : TimedCall} {rest : List TimedCall} {id : RequestId}
    (h : PutOnce (c :: rest)) (hput : c.call.putId = some id) :
    id ∉ rest.filterMap fun c => c.call.putId := by
  unfold PutOnce at h
  rw [List.filterMap_cons, hput] at h
  exact (List.nodup_cons.mp h).1

namespace BackendAgreement

open SqliteStatusStore

variable {S : SqliteDeps} {dates : Set DateTime} {lists : Set (List Domain)}

/-! ## A record as a row -/

theorem parseStatus_asStr (x : SubmissionStatus) : parseStatus x.asStr = x := by
  cases x <;> decide

theorem parseCode_asStr (c : ErrorCode) : parseCode c.asStr = some c := by
  cases c <;> decide

theorem rowToRecord_recordToRow (hS : Faithful S dates lists) {r : SubmissionStatusRecord}
    (hr : Storable S dates lists r) (fresh : RequestId) (now : DateTime) :
    rowToRecord S fresh now (recordToRow S r) = r := by
  have hcode : (r.code.map ErrorCode.asStr).bind parseCode = r.code := by
    cases r.code with
    | none => rfl
    | some c => exact parseCode_asStr c
  have hcount : ((r.recipientCount : Int) % 2 ^ 32).toNat = r.recipientCount := by
    have := hr.count
    omega
  have hid := hr.id
  unfold rowToRecord recordToRow
  simp only [hid, hcode, hcount, parseStatus_asStr, hS.json _ hr.domains, hS.parse _ hr.created,
    hS.parse _ hr.updated, hS.parse _ hr.expires, Option.getD_some]

/-- Expiry in text is expiry. -/
theorem row_live (hS : Faithful S dates lists) {now e : DateTime} (hnow : now ∈ dates)
    (he : e ∈ dates) : S.toRfc3339 e > S.toRfc3339 now ↔ now < e :=
  hS.order now hnow e he

/-! ## The effect of a call on the id it names -/

def onRecord (c : TimedCall) (o : Option SubmissionStatusRecord) :
    Option SubmissionStatusRecord :=
  match c.call with
  | .putReceived record => o.or (some record)
  | .setRecipientMetadata _ keyId domains count =>
    o.map (SubmissionStatusRecord.withRecipientMetadata keyId domains count c.now c.now)
  | .updateStatus _ keyId update =>
    o.map (SubmissionStatusRecord.withStatus keyId update c.now c.now)
  | .get _ keyId => o.filter fun r => !(decide (r.keyId = keyId) && r.isExpired c.now)

def onRow (S : SqliteDeps) (c : TimedCall) (o : Option StatusRow) : Option StatusRow :=
  match c.call with
  | .putReceived record => o.or (some (recordToRow S record))
  | .setRecipientMetadata _ keyId domains count => o.map fun r =>
    if r.keyId = keyId then
      { r with recipientDomains := S.domainsToJson domains, recipientCount := count }
    else r
  | .updateStatus _ keyId update => o.map fun r =>
    if StatusRow.Updatable keyId (S.toRfc3339 c.now) r then
      { r with
        status := update.status.asStr
        code := update.code.map ErrorCode.asStr
        message := update.message
        updatedAt := S.toRfc3339 c.now }
    else r
  | .get _ _ => o.filter fun r => !decide (r.expiresAt ≤ S.toRfc3339 c.now)

theorem find_get (s : InMemoryStatusStore) (id : RequestId) (keyId : String) (now : DateTime)
    (id' : RequestId) :
    (s.get id keyId now now).2.find id' =
      if id' = id then
        (s.find id').filter fun r => !(decide (r.keyId = keyId) && r.isExpired now)
      else s.find id' := by
  unfold InMemoryStatusStore.get InMemoryStatusStore.getRead
  cases h : s.records.get id.asStr with
  | none =>
    by_cases hid : id' = id
    · subst hid
      have hfind : s.find id' = none := h
      simp [hfind]
    · simp [hid]
  | some r =>
    by_cases hid : id' = id
    · subst hid
      have hfind : s.find id' = some r := h
      by_cases hkey : r.keyId = keyId
      · cases hexp : r.isExpired now with
        | false => simp [hkey, hexp, hfind, Option.filter_some]
        | true =>
          simp [hkey, hexp, hfind, InMemoryStatusStore.find_getExpire, Option.filter_some]
      · simp [hkey, hfind, Option.filter_some]
    · by_cases hkey : r.keyId = keyId
      · cases hexp : r.isExpired now with
        | false => simp [hkey, hexp, hid]
        | true => simp [hkey, hexp, hid, InMemoryStatusStore.find_getExpire]
      · simp [hkey, hid]

theorem find_onMemory {s : InMemoryStatusStore} {c : TimedCall}
    (hroom : c.call.putId ≠ none → s.records.size < s.config.maxRecords) (id : RequestId) :
    (c.onMemory s).find id = if id = c.call.id then onRecord c (s.find id) else s.find id := by
  obtain ⟨call, now, recordOrder, rowOrder, fresh⟩ := c
  cases call with
  | putReceived record =>
    exact InMemoryStatusStore.find_putReceived_of_room (hroom (by simp [StoreCall.putId])) id
  | setRecipientMetadata id' keyId domains count =>
    exact InMemoryStatusStore.find_setRecipientMetadata ..
  | updateStatus id' keyId update => exact InMemoryStatusStore.find_updateStatus ..
  | get id' keyId => exact find_get ..

theorem get_putReceived (order : RowOrder) {t : SqliteStatusStore}
    (record : SubmissionStatusRecord) (hroom : t.table.size < t.config.maxRecords) (k : String) :
    (t.putReceived S order record).table.get k =
      if k = record.requestId.asStr then (t.table.get k).or (some (recordToRow S record))
      else t.table.get k := by
  have hevict : evictIfNeeded order t.config.maxRecords t.table = t.table :=
    if_neg (Nat.not_le_of_lt hroom)
  show (insertOrIgnore (recordToRow S record)
    (evictIfNeeded order t.config.maxRecords t.table)).get k = _
  rw [hevict]
  unfold insertOrIgnore Table.contains
  show (if (t.table.get record.requestId.asStr).isSome then t.table
    else t.table.insert record.requestId.asStr (recordToRow S record)).get k = _
  by_cases hk : k = record.requestId.asStr
  · subst hk
    cases h : t.table.get record.requestId.asStr with
    | none => simp [Table.get_insert]
    | some r => simp [h]
  · rw [if_neg hk]
    split
    · rfl
    · rw [Table.get_insert, if_neg hk]

theorem get_get (t : SqliteStatusStore) (id : RequestId) (keyId : String) (now : DateTime)
    (fresh : RequestId) (k : String) :
    (t.get S id keyId now fresh).2.table.get k =
      if k = id.asStr then
        (t.table.get k).filter fun r => !decide (r.expiresAt ≤ S.toRfc3339 now)
      else t.table.get k := by
  unfold SqliteStatusStore.get
  cases h : select id.asStr keyId (S.toRfc3339 now) t.table with
  | none =>
    show (deleteExpiredOne id.asStr (S.toRfc3339 now) t.table).get k = _
    rw [deleteExpiredOne, Table.get_retain]
    by_cases hk : k = id.asStr
    · simp [hk]
    · cases t.table.get k with
      | none => simp [hk]
      | some row => simp [hk, Option.filter_some]
  | some row =>
    -- a row that is selected has not expired, so nothing would be deleted
    obtain ⟨hrow, -, hlive⟩ := select_eq_some.mp h
    show t.table.get k = _
    by_cases hk : k = id.asStr
    · have hkeep : ¬row.expiresAt ≤ S.toRfc3339 now := String.not_le.mpr hlive
      simp [hk, hrow, hkeep, Option.filter_some]
    · simp [hk]

theorem get_onSqlite {t : SqliteStatusStore} {c : TimedCall}
    (hroom : c.call.putId ≠ none → t.table.size < t.config.maxRecords) (id : RequestId) :
    (c.onSqlite S t).table.get id.asStr =
      if id = c.call.id then onRow S c (t.table.get id.asStr) else t.table.get id.asStr := by
  obtain ⟨call, now, recordOrder, rowOrder, fresh⟩ := c
  have hstr : ∀ (id' : RequestId) (x y : Option StatusRow),
      (if id.asStr = id'.asStr then x else y) = if id = id' then x else y :=
    fun id' x y => if_congr RequestId.asStr_injective.eq_iff rfl rfl
  cases call with
  | putReceived record =>
    have h := get_putReceived (S := S) rowOrder record (hroom (by simp [StoreCall.putId])) id.asStr
    rwa [hstr] at h
  | setRecipientMetadata id' keyId domains count =>
    have h := Table.get_modify id'.asStr id.asStr (fun r : StatusRow =>
      if r.keyId = keyId then
        { r with recipientDomains := S.domainsToJson domains, recipientCount := count }
      else r) t.table
    rwa [hstr] at h
  | updateStatus id' keyId update =>
    have h := Table.get_modify id'.asStr id.asStr (fun r : StatusRow =>
      if StatusRow.Updatable keyId (S.toRfc3339 now) r then
        { r with
          status := update.status.asStr
          code := update.code.map ErrorCode.asStr
          message := update.message
          updatedAt := S.toRfc3339 now }
      else r) t.table
    rwa [hstr] at h
  | get id' keyId =>
    have h := get_get (S := S) t id' keyId now fresh id.asStr
    rwa [hstr] at h

/-! ## The relation -/

/-- The row is the record in text; where it lags, up to `updated_at` and the message. -/
def SameRow (S : SqliteDeps) (lags : Bool) (r : SubmissionStatusRecord) (row : StatusRow) : Prop :=
  ∃ updatedAt message,
    row = { recordToRow S r with updatedAt := updatedAt, message := message } ∧
      (lags = false → updatedAt = S.toRfc3339 r.updatedAt ∧ message = r.message)

theorem sameRow_recordToRow (lags : Bool) (r : SubmissionStatusRecord) :
    SameRow S lags r (recordToRow S r) :=
  ⟨S.toRfc3339 r.updatedAt, r.message, rfl, fun _ => ⟨rfl, rfl⟩⟩

theorem SameRow.expiresAt_eq {lags : Bool} {r : SubmissionStatusRecord} {row : StatusRow}
    (h : SameRow S lags r row) : row.expiresAt = S.toRfc3339 r.expiresAt := by
  obtain ⟨updatedAt, message, rfl, -⟩ := h
  rfl

theorem SameRow.keyId_eq {lags : Bool} {r : SubmissionStatusRecord} {row : StatusRow}
    (h : SameRow S lags r row) : row.keyId = r.keyId := by
  obtain ⟨updatedAt, message, rfl, -⟩ := h
  rfl

theorem SameRow.eq_recordToRow {r : SubmissionStatusRecord} {row : StatusRow}
    (h : SameRow S false r row) : row = recordToRow S r := by
  obtain ⟨updatedAt, message, rfl, hsame⟩ := h
  obtain ⟨rfl, rfl⟩ := hsame rfl
  rfl

theorem rel_cases {lags : Bool} {o : Option SubmissionStatusRecord} {p : Option StatusRow}
    (h : Option.Rel (SameRow S lags) o p) :
    (o = none ∧ p = none) ∨ ∃ r row, o = some r ∧ p = some row ∧ SameRow S lags r row := by
  cases h with
  | none => exact Or.inl ⟨rfl, rfl⟩
  | some h => exact Or.inr ⟨_, _, rfl, rfl, h⟩

/-- What is held under an id expires at `e`, in both stores. -/
structure ExpiresAt (S : SqliteDeps) (e : DateTime) (o : Option SubmissionStatusRecord)
    (p : Option StatusRow) : Prop where
  record : ∀ r, o = some r → r.expiresAt = e
  row : ∀ r, p = some r → r.expiresAt = S.toRfc3339 e

theorem SameRow.expiresAt {lags : Bool} {r : SubmissionStatusRecord} {row : StatusRow}
    (h : SameRow S lags r row) : ExpiresAt S r.expiresAt (some r) (some row) where
  record := by
    rintro _ ⟨⟩
    rfl
  row := by
    rintro _ ⟨⟩
    exact h.expiresAt_eq

/-- No `get` to come looks at what is held under the id before it has expired. -/
def Past (S : SqliteDeps) (dates : Set DateTime) (rest : List TimedCall)
    (s : InMemoryStatusStore) (t : SqliteStatusStore) (id : RequestId) : Prop :=
  ∃ e ∈ dates, ExpiresAt S e (s.find id) (t.table.get id.asStr) ∧
    ∀ c ∈ rest, c.call.isGet = true → c.call.id = id → e ≤ c.now

/-- The relation, and what is assumed of the calls to come. -/
structure Agree (S : SqliteDeps) (dates : Set DateTime) (lists : Set (List Domain)) (lag : Lag)
    (rest : List TimedCall) (s : InMemoryStatusStore) (t : SqliteStatusStore) : Prop where
  each : ∀ id, Option.Rel (SameRow S (lag id)) (s.find id) (t.table.get id.asStr) ∨
    Past S dates rest s t id
  stored : ∀ id r, s.find id = some r → Storable S dates lists r
  fresh : ∀ id ∈ rest.filterMap (fun c => c.call.putId), s.find id = none ∧
    t.table.get id.asStr = none
  once : PutOnce rest
  wellFormed : ∀ c ∈ rest, c.WellFormed S dates lists
  clear : ClearRun lag s rest
  room : RoomInBoth S s t rest

theorem ExpiresAt.map {e : DateTime} {o : Option SubmissionStatusRecord} {p : Option StatusRow}
    {f : SubmissionStatusRecord → SubmissionStatusRecord} {g : StatusRow → StatusRow}
    (h : ExpiresAt S e o p) (hf : ∀ r, (f r).expiresAt = r.expiresAt)
    (hg : ∀ r, (g r).expiresAt = r.expiresAt) : ExpiresAt S e (o.map f) (p.map g) where
  record := by
    intro r hr
    obtain ⟨r₀, hr₀, rfl⟩ := Option.map_eq_some_iff.mp hr
    rw [hf, h.record r₀ hr₀]
  row := by
    intro r hr
    obtain ⟨r₀, hr₀, rfl⟩ := Option.map_eq_some_iff.mp hr
    rw [hg, h.row r₀ hr₀]

theorem expiresAt_on {e : DateTime} {c : TimedCall} {o : Option SubmissionStatusRecord}
    {p : Option StatusRow} (hput : c.call.putId = none) (h : ExpiresAt S e o p) :
    ExpiresAt S e (onRecord c o) (onRow S c p) := by
  obtain ⟨call, now, recordOrder, rowOrder, fresh⟩ := c
  cases call with
  | putReceived record => cases hput
  | setRecipientMetadata id keyId domains count =>
    apply h.map
    · exact SubmissionStatusRecord.expiresAt_withRecipientMetadata keyId domains count now now
    · intro r
      split <;> rfl
  | updateStatus id keyId update =>
    apply h.map
    · exact SubmissionStatusRecord.expiresAt_withStatus keyId update now now
    · intro r
      split <;> rfl
  | get id keyId =>
    constructor
    · intro r hr
      exact h.record r (Option.filter_eq_some_iff.mp hr).1
    · intro r hr
      exact h.row r (Option.filter_eq_some_iff.mp hr).1

/-- Before the expiry both stores decide alike whether the metadata is written. -/
theorem sameRow_setRecipientMetadata {id : RequestId} {keyId : String} {domains : List Domain}
    {count : Nat} {now : DateTime} {recordOrder : RecordOrder} {rowOrder : RowOrder}
    {fresh : RequestId} {lags : Bool} {r : SubmissionStatusRecord} {row : StatusRow}
    (h : SameRow S lags r row) (hexp : r.isExpired now = false) :
    let c : TimedCall :=
      ⟨.setRecipientMetadata id keyId domains count, now, recordOrder, rowOrder, fresh⟩
    Option.Rel (SameRow S (c.lagAfter lags (some r))) (onRecord c (some r))
      (onRow S c (some row)) := by
  intro c
  obtain ⟨updatedAt, message, rfl, hsame⟩ := h
  by_cases hkey : r.keyId = keyId
  · have hrecord : r.withRecipientMetadata keyId domains count now now =
        { r with recipientDomains := domains, recipientCount := count, updatedAt := now } :=
      if_pos ⟨hkey, hexp⟩
    have hwritten : (recordToRow S r).keyId = keyId := hkey
    simp only [c, onRecord, onRow, Option.map_some, hrecord, if_pos hwritten]
    refine Option.Rel.some ⟨updatedAt, message, rfl, ?_⟩
    intro hlag
    by_cases hstamp : r.updatedAt = now
    · simp only [TimedCall.lagAfter, hstamp, ne_eq, not_true, and_false, if_false] at hlag
      obtain ⟨rfl, rfl⟩ := hsame hlag
      exact ⟨congrArg S.toRfc3339 hstamp, rfl⟩
    · simp [TimedCall.lagAfter, hkey, hexp, hstamp] at hlag
  · have hrecord : r.withRecipientMetadata keyId domains count now now = r :=
      if_neg fun h => hkey h.1
    have hskipped : ¬(recordToRow S r).keyId = keyId := hkey
    simp only [c, onRecord, onRow, Option.map_some, hrecord, if_neg hskipped]
    refine Option.Rel.some ⟨updatedAt, message, rfl, ?_⟩
    intro hlag
    apply hsame
    simpa [TimedCall.lagAfter, hkey] using hlag

/-- Before the expiry the row and the record may be updated by the same calls. -/
theorem updatable_recordToRow {keyId updatedAt : String} {message : Option String}
    {now : DateTime} {r : SubmissionStatusRecord} (hlive : now < r.expiresAt)
    (hrow : S.toRfc3339 r.expiresAt > S.toRfc3339 now) :
    StatusRow.Updatable keyId (S.toRfc3339 now)
      { recordToRow S r with updatedAt := updatedAt, message := message } ↔
        r.Updatable keyId now := by
  rw [SubmissionStatusRecord.updatable_iff]
  have hterm := asStr_mem_terminalNames r.status
  constructor
  · intro ⟨hkey, _, hstatus⟩
    exact ⟨hkey, hlive.le, by simpa using mt hterm.mpr hstatus⟩
  · intro ⟨hkey, _, hstatus⟩
    exact ⟨hkey, hrow, fun hmem => by simp [hterm.mp hmem] at hstatus⟩

/-- Before the expiry both stores decide alike whether the status is written. -/
theorem sameRow_updateStatus {id : RequestId} {keyId : String} {update : StatusUpdate}
    {now : DateTime} {recordOrder : RecordOrder} {rowOrder : RowOrder} {fresh : RequestId}
    {lags : Bool} {r : SubmissionStatusRecord} {row : StatusRow} (h : SameRow S lags r row)
    (hlive : now < r.expiresAt) (hrow : S.toRfc3339 r.expiresAt > S.toRfc3339 now) :
    let c : TimedCall := ⟨.updateStatus id keyId update, now, recordOrder, rowOrder, fresh⟩
    Option.Rel (SameRow S (c.lagAfter lags (some r))) (onRecord c (some r))
      (onRow S c (some row)) := by
  intro c
  obtain ⟨updatedAt, message, rfl, hsame⟩ := h
  have hiff := @updatable_recordToRow S keyId updatedAt message now r hlive hrow
  by_cases hupd : r.Updatable keyId now
  · simp only [c, onRow, onRecord, Option.map_some, SubmissionStatusRecord.withStatus,
      if_pos (hiff.mpr hupd), if_pos hupd]
    refine Option.Rel.some ⟨S.toRfc3339 now, update.message, rfl, ?_⟩
    intro hlag
    refine ⟨rfl, ?_⟩
    show update.message = update.message.or r.message
    simp only [TimedCall.lagAfter, if_pos hupd, decide_eq_false_iff_not, not_and, not_not] at hlag
    cases hm : update.message with
    | none => simp [hlag hm]
    | some text => rfl
  · simp only [c, onRow, onRecord, Option.map_some, SubmissionStatusRecord.withStatus,
      if_neg (mt hiff.mp hupd), if_neg hupd]
    refine Option.Rel.some ⟨updatedAt, message, rfl, ?_⟩
    intro hlag
    apply hsame
    simpa [TimedCall.lagAfter, hupd] using hlag

/-- Before the expiry a lookup removes nothing from either store. -/
theorem sameRow_get {id : RequestId} {keyId : String} {now : DateTime}
    {recordOrder : RecordOrder} {rowOrder : RowOrder} {fresh : RequestId} {lags : Bool}
    {r : SubmissionStatusRecord} {row : StatusRow} (h : SameRow S lags r row)
    (hexp : r.isExpired now = false) (hrow : S.toRfc3339 r.expiresAt > S.toRfc3339 now) :
    let c : TimedCall := ⟨.get id keyId, now, recordOrder, rowOrder, fresh⟩
    Option.Rel (SameRow S (c.lagAfter lags (some r))) (onRecord c (some r))
      (onRow S c (some row)) := by
  intro c
  have hkeep : ¬row.expiresAt ≤ S.toRfc3339 now := by
    obtain ⟨updatedAt, message, rfl, hsame⟩ := h
    exact String.not_le.mpr hrow
  have hrow' : onRow S c (some row) = some row := by
    simp [c, onRow, Option.filter_some, hkeep]
  have hrecord : onRecord c (some r) = some r := by
    simp [c, onRecord, Option.filter_some, hexp]
  rw [hrow', hrecord]
  exact Option.Rel.some h

/-- Before the expiry a call leaves the row as it is, brings it up to date or lets it lag. -/
theorem sameRow_on (hS : Faithful S dates lists) {c : TimedCall} {lags : Bool}
    {r : SubmissionStatusRecord} {row : StatusRow} (h : SameRow S lags r row)
    (hstored : Storable S dates lists r) (hwf : c.WellFormed S dates lists)
    (hlive : c.now < r.expiresAt) :
    Option.Rel (SameRow S (c.lagAfter lags (some r))) (onRecord c (some r))
      (onRow S c (some row)) := by
  obtain ⟨call, now, recordOrder, rowOrder, fresh⟩ := c
  have hexp : r.isExpired now = false := SubmissionStatusRecord.isExpired_eq_false.mpr hlive.le
  have hrow : S.toRfc3339 r.expiresAt > S.toRfc3339 now :=
    (row_live hS hwf.1 hstored.expires).mpr hlive
  cases call with
  | putReceived record => exact Option.Rel.some h
  | setRecipientMetadata id keyId domains count => exact sameRow_setRecipientMetadata h hexp
  | updateStatus id keyId update => exact sameRow_updateStatus h hlive hrow
  | get id keyId => exact sameRow_get h hexp hrow

/-- Where nothing is held, a call inserts the same in both stores or nothing. -/
theorem sameRow_absent (c : TimedCall) (lags : Bool) :
    Option.Rel (SameRow S lags) (onRecord c none) (onRow S c none) := by
  obtain ⟨call, now, recordOrder, rowOrder, fresh⟩ := c
  cases call with
  | putReceived record => exact Option.Rel.some (sameRow_recordToRow _ record)
  | _ => exact Option.Rel.none

theorem on_absent {c : TimedCall} (hput : c.call.putId = none) :
    onRecord c none = none ∧ onRow S c none = none := by
  obtain ⟨call, now, recordOrder, rowOrder, fresh⟩ := c
  cases call with
  | putReceived record => cases hput
  | _ => exact ⟨rfl, rfl⟩

/-- What the in-memory store holds stays storable. -/
theorem storable_onRecord {c : TimedCall} {o : Option SubmissionStatusRecord}
    {r : SubmissionStatusRecord} (hwf : c.WellFormed S dates lists)
    (ho : ∀ r, o = some r → Storable S dates lists r) (hr : onRecord c o = some r) :
    Storable S dates lists r := by
  obtain ⟨call, now, recordOrder, rowOrder, fresh⟩ := c
  obtain ⟨hnow, hargs⟩ := hwf
  cases call with
  | putReceived record =>
    cases o with
    | none =>
      obtain rfl := Option.some.inj hr
      exact hargs
    | some r₀ => exact ho r hr
  | setRecipientMetadata id keyId domains count =>
    obtain ⟨r₀, hr₀, rfl⟩ := Option.map_eq_some_iff.mp hr
    have h₀ := ho r₀ hr₀
    unfold SubmissionStatusRecord.withRecipientMetadata
    split
    · exact { h₀ with domains := hargs.1, count := hargs.2, updated := hnow }
    · exact h₀
  | updateStatus id keyId update =>
    obtain ⟨r₀, hr₀, rfl⟩ := Option.map_eq_some_iff.mp hr
    have h₀ := ho r₀ hr₀
    unfold SubmissionStatusRecord.withStatus
    split
    · exact { h₀ with updated := hnow }
    · exact h₀
  | get id keyId => exact ho r (Option.filter_eq_some_iff.mp hr).1

/-! ## One call -/

theorem each_step (hS : Faithful S dates lists) {lag : Lag} {c : TimedCall}
    {rest : List TimedCall} {s : InMemoryStatusStore} {t : SqliteStatusStore}
    (h : Agree S dates lists lag (c :: rest) s t) (id : RequestId) :
    Option.Rel (SameRow S (c.lag s lag id)) ((c.onMemory s).find id)
        ((c.onSqlite S t).table.get id.asStr) ∨
      Past S dates rest (c.onMemory s) (c.onSqlite S t) id := by
  have hs := find_onMemory (s := s) (c := c) (fun hput => (h.room.1 hput).1) id
  have ht := get_onSqlite (S := S) (t := t) (c := c) (fun hput => (h.room.1 hput).2) id
  unfold TimedCall.lag
  by_cases hid : id = c.call.id
  · rw [if_pos hid] at hs ht
    subst hid
    rw [hs, ht, if_pos rfl]
    cases hput : c.call.putId with
    | some id' =>
      -- a fresh id: both insert
      have hmem : c.call.id ∈ (c :: rest).filterMap fun c => c.call.putId := by
        refine List.mem_filterMap.mpr ⟨c, List.mem_cons_self, ?_⟩
        rw [hput, StoreCall.putId_eq hput]
      obtain ⟨hnone, hnone'⟩ := h.fresh _ hmem
      rw [hnone, hnone']
      exact Or.inl (sameRow_absent c _)
    | none =>
      have hpast : ∀ e ∈ dates, ExpiresAt S e (s.find c.call.id) (t.table.get c.call.id.asStr) →
          (∀ c' ∈ rest, c'.call.isGet = true → c'.call.id = c.call.id → e ≤ c'.now) →
          Past S dates rest (c.onMemory s) (c.onSqlite S t) c.call.id := by
        intro e he hexp hlater
        refine ⟨e, he, ?_, hlater⟩
        rw [hs, ht]
        exact expiresAt_on hput hexp
      rcases h.each c.call.id with hsame | ⟨e, he, hexp, hlater⟩
      · rcases rel_cases hsame with ⟨hr, hrow⟩ | ⟨r, row, hr, hrow, hrel⟩
        · rw [hr, hrow]
          exact Or.inl (sameRow_absent c _)
        · have hstored := h.stored _ r hr
          by_cases hlive : c.now < r.expiresAt
          · rw [hr, hrow]
            exact Or.inl (sameRow_on hS hrel hstored (h.wellFormed c List.mem_cons_self) hlive)
          · refine Or.inr (hpast r.expiresAt hstored.expires ?_
              (h.clear.2.1 r hr (not_lt.mp hlive)))
            rw [hr, hrow]
            exact hrel.expiresAt
      · exact Or.inr (hpast e he hexp fun c' hc' => hlater c' (List.mem_cons_of_mem _ hc'))
  · rw [if_neg hid] at hs ht
    rw [hs, ht, if_neg hid]
    rcases h.each id with hsame | ⟨e, he, hexp, hlater⟩
    · exact Or.inl hsame
    · refine Or.inr ⟨e, he, ?_, fun c' hc' => hlater c' (List.mem_cons_of_mem _ hc')⟩
      rw [hs, ht]
      exact hexp

theorem agree_step (hS : Faithful S dates lists) {lag : Lag} {c : TimedCall}
    {rest : List TimedCall} {s : InMemoryStatusStore} {t : SqliteStatusStore}
    (h : Agree S dates lists lag (c :: rest) s t) :
    Agree S dates lists (c.lag s lag) rest (c.onMemory s) (c.onSqlite S t) := by
  have hs := find_onMemory (s := s) (c := c) (fun hput => (h.room.1 hput).1)
  have ht := get_onSqlite (S := S) (t := t) (c := c) (fun hput => (h.room.1 hput).2)
  refine ⟨each_step hS h, ?_, ?_, ?_, ?_, h.clear.2.2, h.room.2⟩
  · intro id r hr
    rw [hs] at hr
    split at hr
    · exact storable_onRecord (h.wellFormed c List.mem_cons_self) (fun r => h.stored id r) hr
    · exact h.stored id r hr
  · intro id hmem
    have hrest : id ∈ (c :: rest).filterMap fun c => c.call.putId := by
      obtain ⟨c', hc', hid⟩ := List.mem_filterMap.mp hmem
      exact List.mem_filterMap.mpr ⟨c', List.mem_cons_of_mem _ hc', hid⟩
    obtain ⟨hnone, hnone'⟩ := h.fresh id hrest
    rw [hs, ht, hnone, hnone']
    by_cases hid : id = c.call.id
    · -- the id is put later, so this call is no put
      have hput : c.call.putId = none := by
        by_contra hput
        obtain ⟨id', hid'⟩ := Option.ne_none_iff_exists'.mp hput
        have hsame : id' = id := (StoreCall.putId_eq hid').trans hid.symm
        exact h.once.not_mem (hid'.trans (congrArg some hsame)) hmem
      rw [if_pos hid, if_pos hid]
      exact on_absent hput
    · rw [if_neg hid, if_neg hid]
      exact ⟨rfl, rfl⟩
  · exact h.once.tail
  · intro c' hc'
    exact h.wellFormed c' (List.mem_cons_of_mem _ hc')

theorem fst_get_memory (s : InMemoryStatusStore) (id : RequestId) (keyId : String)
    (now : DateTime) :
    (s.get id keyId now now).1 =
      (s.find id).filter fun r => decide (r.keyId = keyId) && !r.isExpired now := by
  unfold InMemoryStatusStore.get InMemoryStatusStore.getRead InMemoryStatusStore.find
  cases s.records.get id.asStr with
  | none => rfl
  | some r =>
    by_cases hkey : r.keyId = keyId
    · cases hexp : r.isExpired now <;> simp [hkey, hexp, Option.filter_some]
    · simp [hkey, Option.filter_some]

theorem fst_get_sqlite (t : SqliteStatusStore) (id : RequestId) (keyId : String)
    (now : DateTime) (fresh : RequestId) :
    (t.get S id keyId now fresh).1 =
      (select id.asStr keyId (S.toRfc3339 now) t.table).map (rowToRecord S fresh now) := by
  unfold SqliteStatusStore.get
  cases select id.asStr keyId (S.toRfc3339 now) t.table <;> rfl

/-- An expired record is not read. -/
theorem filter_record_expired {keyId : String} {now : DateTime}
    {o : Option SubmissionStatusRecord}
    (h : ∀ r, o = some r → r.keyId = keyId → r.isExpired now = true) :
    (o.filter fun r => decide (r.keyId = keyId) && !r.isExpired now) = none := by
  cases o with
  | none => rfl
  | some r =>
    by_cases hkey : r.keyId = keyId
    · simp [Option.filter_some, h r rfl hkey]
    · simp [Option.filter_some, hkey]

/-- Nor is an expired row. -/
theorem filter_row_expired {keyId now : String} {p : Option StatusRow}
    (h : ∀ row, p = some row → ¬row.expiresAt > now) :
    (p.filter fun r => decide (r.keyId = keyId ∧ r.expiresAt > now)) = none := by
  cases p with
  | none => rfl
  | some row =>
    have hnot : ¬(row.keyId = keyId ∧ row.expiresAt > now) := fun hread => h row rfl hread.2
    rw [Option.filter_some, decide_eq_false hnot]
    rfl

/-- Before the expiry, a row that does not lag where it is read answers as the record. -/
theorem filter_live (hS : Faithful S dates lists) {lags : Bool} {r : SubmissionStatusRecord}
    {row : StatusRow} (hrel : SameRow S lags r row) (hstored : Storable S dates lists r)
    {keyId : String} {now : DateTime} (hnow : now ∈ dates) (hlive : now < r.expiresAt)
    (hlag : r.keyId = keyId → lags = false) (fresh : RequestId) :
    ((some row).filter fun r => decide (r.keyId = keyId ∧ r.expiresAt > S.toRfc3339 now)).map
        (rowToRecord S fresh now) =
      (some r).filter fun r => decide (r.keyId = keyId) && !r.isExpired now := by
  have hrowLive : row.expiresAt > S.toRfc3339 now := by
    rw [hrel.expiresAt_eq]
    exact (row_live hS hnow hstored.expires).mpr hlive
  have hexp : r.isExpired now = false := SubmissionStatusRecord.isExpired_eq_false.mpr hlive.le
  rw [Option.filter_some, Option.filter_some]
  by_cases hkey : r.keyId = keyId
  · have hsameRow : row = recordToRow S r := by
      apply SameRow.eq_recordToRow
      rw [← hlag hkey]
      exact hrel
    have hback := rowToRecord_recordToRow hS hstored fresh now
    rw [← hsameRow] at hback
    simp [hrel.keyId_eq, hkey, hrowLive, hexp, hback]
  · simp [hrel.keyId_eq, hkey]

theorem agree_answer (hS : Faithful S dates lists) {lag : Lag} {c : TimedCall}
    {rest : List TimedCall} {s : InMemoryStatusStore} {t : SqliteStatusStore}
    (h : Agree S dates lists lag (c :: rest) s t) : c.sqliteAnswer S t = c.memoryAnswer s := by
  have hwf := h.wellFormed c List.mem_cons_self
  have hclear := h.clear.1
  have heach := h.each c.call.id
  have hstored := h.stored c.call.id
  obtain ⟨call, now, recordOrder, rowOrder, fresh⟩ := c
  cases call with
  | get id keyId =>
    show some (t.get S id keyId now fresh).1 = some (s.get id keyId now now).1
    rw [fst_get_memory, fst_get_sqlite, select]
    -- once it is over, neither store returns what it holds
    have hover : ∀ e ∈ dates, ¬now < e → ExpiresAt S e (s.find id) (t.table.get id.asStr) →
        ((t.table.get id.asStr).filter
            fun r => decide (r.keyId = keyId ∧ r.expiresAt > S.toRfc3339 now)) = none ∧
          ((s.find id).filter fun r => decide (r.keyId = keyId) && !r.isExpired now) = none := by
      intro e he hdead hexp
      refine ⟨filter_row_expired fun row hrow => ?_, filter_record_expired fun r hr hkey => ?_⟩
      · rw [hexp.row row hrow]
        exact mt (row_live hS hwf.1 he).mp hdead
      · rw [← hexp.record r hr] at hdead
        exact SubmissionStatusRecord.isExpired_eq_true.mpr
          (lt_of_le_of_ne (not_lt.mp hdead) (hclear r hr hkey).1.symm)
    rcases heach with hsame | ⟨e, he, hexp, hlater⟩
    · rcases rel_cases hsame with ⟨hr, hrow⟩ | ⟨r, row, hr, hrow, hrel⟩
      · rw [show s.find id = none from hr, show t.table.get id.asStr = none from hrow]
        rfl
      · have hr' : s.find id = some r := hr
        have hrow' : t.table.get id.asStr = some row := hrow
        by_cases hlive : now < r.expiresAt
        · rw [hr', hrow']
          exact congrArg some (filter_live hS hrel (hstored r hr) hwf.1 hlive
            (fun hkey => (hclear r hr hkey).2 hlive) fresh)
        · have hexp : ExpiresAt S r.expiresAt (s.find id) (t.table.get id.asStr) := by
            rw [hr', hrow']
            exact hrel.expiresAt
          obtain ⟨hnoRow, hnoRecord⟩ := hover _ (hstored r hr).expires hlive hexp
          rw [hnoRow, hnoRecord]
          rfl
    · have hnow : ¬now < e := not_lt.mpr (hlater _ List.mem_cons_self rfl rfl)
      obtain ⟨hnoRow, hnoRecord⟩ := hover e he hnow hexp
      rw [hnoRow, hnoRecord]
      rfl
  | _ => rfl

theorem backends_simulate (hS : Faithful S dates lists) :
    memoryBackend.Simulates (sqliteBackend S) fun rest s t => ∃ lag, Agree S dates lists lag rest s t
    where
  answer := fun ⟨_, h⟩ => agree_answer hS h
  step := fun ⟨_, h⟩ => ⟨_, agree_step hS h⟩

end BackendAgreement

/-- Two fresh stores answer every `get` of a run alike, as long as no read finds
a row that lags behind and none comes at the instant of the expiry or, once it is
over, before it again. -/
theorem backends_interchangeable {S : SqliteDeps} {dates : Set DateTime}
    {lists : Set (List Domain)} (hS : Faithful S dates lists) {config : StatusConfig}
    {calls : List TimedCall} (hwf : ∀ c ∈ calls, c.WellFormed S dates lists)
    (honce : PutOnce calls) (hroom : RoomInBoth S (.new config) (.created config) calls)
    (hclear : ClearRun (fun _ => false) (.new config) calls) :
    (sqliteBackend S).answers (fun _ => true) (.created config) calls =
      memoryBackend.answers (fun _ => true) (.new config) calls := by
  refine (BackendAgreement.backends_simulate hS).answers_eq _ calls ⟨fun _ => false, ?_⟩
  constructor
  · intro id
    exact Or.inl Option.Rel.none
  · intro id r hr
    cases hr
  · intro id _
    exact ⟨rfl, rfl⟩
  · exact honce
  · exact hwf
  · exact hclear
  · exact hroom

namespace BackendAgreement

/-- The text of the first seconds of 1970, and of one list of domains. -/
def sampleDeps : SqliteDeps where
  toRfc3339 t :=
    if t = 0 then "1970-01-01T00:00:00+00:00"
    else if t = 1000000000 then "1970-01-01T00:00:01+00:00"
    else if t = 2000000000 then "1970-01-01T00:00:02+00:00"
    else "1970-01-01T00:00:03+00:00"
  parseRfc3339 s :=
    if s = "1970-01-01T00:00:00+00:00" then some 0
    else if s = "1970-01-01T00:00:01+00:00" then some 1000000000
    else if s = "1970-01-01T00:00:02+00:00" then some 2000000000
    else if s = "1970-01-01T00:00:03+00:00" then some 3000000000
    else none
  domainsToJson ds := if ds = [] then "[]" else "[\"example.org\"]"
  domainsFromJson s :=
    if s = "[]" then some []
    else if s = "[\"example.org\"]" then some [⟨"example.org"⟩]
    else none
  isUlid s := s.length = 26

def sampleDates : Set DateTime := {0, 1000000000, 2000000000, 3000000000}

def sampleLists : Set (List Domain) := {[], [⟨"example.org"⟩]}

theorem sampleDeps_faithful : Faithful sampleDeps sampleDates sampleLists := by
  constructor
  · rintro t (rfl | rfl | rfl | rfl) <;> decide
  · rintro t (rfl | rfl | rfl | rfl) u (rfl | rfl | rfl | rfl) <;> decide
  · rintro ds (rfl | rfl) <;> decide

def sampleUlid : RequestId := ⟨"req_01ARZ3NDEKTSV4RRFFQ69G5FAV"⟩

/-- A new record that expires after three seconds. -/
def sampleRecord : SubmissionStatusRecord where
  requestId := sampleUlid
  keyId := "svc"
  status := .received
  code := none
  message := some "Submission received."
  recipientDomains := []
  recipientCount := 0
  createdAt := 0
  updatedAt := 0
  expiresAt := 3000000000

def sampleCall (call : StoreCall) (now : DateTime) : TimedCall :=
  ⟨call, now, .id _ _, .id _ _, sampleUlid⟩

theorem sampleRecord_storable : Storable sampleDeps sampleDates sampleLists sampleRecord where
  id := by decide
  domains := Or.inl rfl
  count := by decide
  created := Or.inl rfl
  updated := Or.inl rfl
  expires := Or.inr (Or.inr (Or.inr rfl))

/-- A submission that is accepted: its row lags behind until the last update. -/
def acceptedCalls : List TimedCall :=
  [sampleCall (.putReceived sampleRecord) 0,
    sampleCall (.setRecipientMetadata sampleUlid "svc" [⟨"example.org"⟩] 1) 1000000000,
    sampleCall (.updateStatus sampleUlid "svc" ⟨.smtpAccepted, none, some "Accepted."⟩) 1000000000,
    sampleCall (.get sampleUlid "svc") 2000000000]

/-- What `send_mail` does to a request that it refuses, and a `get`. -/
def refusedCalls : List TimedCall :=
  [sampleCall (.putReceived sampleRecord) 0,
    sampleCall (.updateStatus sampleUlid "svc" ⟨.rejected, some .validationFailed, none⟩)
      1000000000,
    sampleCall (.get sampleUlid "svc") 2000000000]

end BackendAgreement

open BackendAgreement

theorem backends_interchangeable_accepted :
    (sqliteBackend sampleDeps).answers (fun _ => true) (.created .default) acceptedCalls =
      memoryBackend.answers (fun _ => true) (.new .default) acceptedCalls := by
  refine backends_interchangeable sampleDeps_faithful ?_ (by decide) (by decide) (by decide)
  intro c hc
  simp only [acceptedCalls, List.mem_cons, List.not_mem_nil, or_false] at hc
  rcases hc with rfl | rfl | rfl | rfl
  · exact ⟨Or.inl rfl, sampleRecord_storable⟩
  · exact ⟨Or.inr (Or.inl rfl), Or.inr rfl, by decide⟩
  · exact ⟨Or.inr (Or.inl rfl), trivial⟩
  · exact ⟨Or.inr (Or.inr (Or.inl rfl)), trivial⟩

theorem refused_message_differs :
    (∀ c ∈ refusedCalls, c.WellFormed sampleDeps sampleDates sampleLists) ∧
      PutOnce refusedCalls ∧
      RoomInBoth sampleDeps (.new .default) (.created .default) refusedCalls ∧
      (sqliteBackend sampleDeps).answers (fun _ => true) (.created .default) refusedCalls ≠
        memoryBackend.answers (fun _ => true) (.new .default) refusedCalls := by
  refine ⟨?_, by decide, by decide, by decide⟩
  intro c hc
  simp only [refusedCalls, List.mem_cons, List.not_mem_nil, or_false] at hc
  rcases hc with rfl | rfl | rfl
  · exact ⟨Or.inl rfl, sampleRecord_storable⟩
  · exact ⟨Or.inr (Or.inl rfl), trivial⟩
  · exact ⟨Or.inr (Or.inr (Or.inl rfl)), trivial⟩

end HttpSmtpRele
