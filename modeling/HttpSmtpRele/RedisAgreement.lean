import HttpSmtpRele.RedisLifetime

/-!
# The Redis and the in-memory store

One relay, its calls one after another.  It is assumed that Redis is there and that
every command succeeds but a `SET EX` with a TTL of zero: without a connection, or
after a failed `GET`, a `get` answers with an error.  Redis drops a key at the
deadline of its last write, which is at most a second before the record expires.  So its `get` answers as the in-memory store does, but that in the
last second of a record it may find nothing: a record that it returns is the one
the in-memory store returns.
-/

namespace HttpSmtpRele

open RedisStatusStore

/-- The part of Redis that the relay writes to. -/
structure RedisServer where
  keys : Table String RedisKey
  /-- `status.ttl_seconds`, for new records -/
  ttlSeconds : Nat

namespace RedisServer

def key (id : RequestId) : String := "rele:s:" ++ id.asStr

/-- A key is not shown once its deadline is over. -/
def shown (now : DateTime) (cell : Option RedisKey) : Option String :=
  (cell.filter fun k => decide (now ≤ k.deadline)).map fun k => k.value.json

/-- What `GET` answers. -/
def raw (t : RedisServer) (id : RequestId) (now : DateTime) : Option String :=
  shown now (t.keys.get (key id))

/-- `SET EX`, if the call sets anything; a TTL of zero is an error. -/
def set (t : RedisServer) (id : RequestId) (now : DateTime) : Option SetEx → RedisServer
  | none => t
  | some v =>
    if v.ttl = 0 then t
    else { t with keys := t.keys.insert (key id) ⟨v, now + v.ttl * 1000000000⟩ }

def del (t : RedisServer) (id : RequestId) : RedisServer := { t with keys := t.keys.erase (key id) }

end RedisServer

namespace TimedCall

/-- A connection is found, and `EXISTS`, `GET`, `SET EX` and `DEL` succeed. -/
def onRedis (S : RedisDeps) (t : RedisServer) (c : TimedCall) : RedisServer :=
  match c.call with
  | .putReceived record =>
    t.set record.requestId c.now (RedisStatusStore.putReceived S t.ttlSeconds record
      (some (t.raw record.requestId c.now).isSome))
  | .setRecipientMetadata id keyId domains count =>
    t.set id c.now (RedisStatusStore.setRecipientMetadata S keyId domains count c.now c.now c.now
      (some (t.raw id c.now)))
  | .updateStatus id keyId update =>
    t.set id c.now (RedisStatusStore.updateStatus S keyId update c.now c.now c.now
      (some (t.raw id c.now)))
  | .get id keyId =>
    if (RedisStatusStore.get S keyId c.now "" (.ok (t.raw id c.now)) {}).deletes then t.del id
    else t

/-- `GET` is answered too.  The text of a `serde_json` error does not matter: it does
not occur. -/
def redisAnswer (S : RedisDeps) (t : RedisServer) (c : TimedCall) :
    Option (Except StatusStoreError (Option SubmissionStatusRecord)) :=
  match c.call with
  | .get id keyId => some (RedisStatusStore.get S keyId c.now "" (.ok (t.raw id c.now)) {}).result
  | _ => none

end TimedCall

def redisBackend (S : RedisDeps) :
    Machine RedisServer TimedCall (Except StatusStoreError (Option SubmissionStatusRecord)) where
  step := TimedCall.onRedis S
  answer := TimedCall.redisAnswer S

/-- The answers of the in-memory store and of Redis to a call: Redis returns the
same record or, in its last second, none. -/
inductive ReadsAlike (now : DateTime) : Option (Option SubmissionStatusRecord) →
    Option (Except StatusStoreError (Option SubmissionStatusRecord)) → Prop
  | write : ReadsAlike now none none
  | same (o : Option SubmissionStatusRecord) : ReadsAlike now (some o) (some (.ok o))
  | early (r : SubmissionStatusRecord) (lastSecond : r.expiresAt < now + 1000000000) :
      ReadsAlike now (some (some r)) (some (.ok none))

/-- What is assumed of the calls: they come in order, an id is put once, the
in-memory store has room for what is put, the TTL that Redis is given covers the
record, and `serde_json` can write what is stored. -/
structure TimedCall.Fits (S : RedisDeps) (ttlSeconds : Nat) (c : TimedCall)
    (s : InMemoryStatusStore) : Prop where
  room : c.call.putId ≠ none → s.records.size < s.config.maxRecords
  covered : ∀ record, c.call = .putReceived record →
    record.expiresAt ≤ c.now + ttlSeconds * 1000000000
  written : ∀ r, (c.onMemory s).find c.call.id = some r → ∃ raw, S.toJson r = some raw

/-- This holds of every call of a run. -/
def FitsRun (S : RedisDeps) (ttlSeconds : Nat) : InMemoryStatusStore → List TimedCall → Prop
  | _, [] => True
  | s, c :: cs => c.Fits S ttlSeconds s ∧ FitsRun S ttlSeconds (c.onMemory s) cs

namespace RedisAgreement

open RedisServer BackendAgreement

variable {S : RedisDeps}

/-! ## The effect of a call on the key it names -/

def written (now : DateTime) (cell : Option RedisKey) : Option SetEx → Option RedisKey
  | none => cell
  | some v => if v.ttl = 0 then cell else some ⟨v, now + v.ttl * 1000000000⟩

def onKey (S : RedisDeps) (ttlSeconds : Nat) (c : TimedCall) (cell : Option RedisKey) :
    Option RedisKey :=
  match c.call with
  | .putReceived record =>
    written c.now cell
      (RedisStatusStore.putReceived S ttlSeconds record (some (shown c.now cell).isSome))
  | .setRecipientMetadata _ keyId domains count =>
    written c.now cell (RedisStatusStore.setRecipientMetadata S keyId domains count c.now c.now
      c.now (some (shown c.now cell)))
  | .updateStatus _ keyId update =>
    written c.now cell
      (RedisStatusStore.updateStatus S keyId update c.now c.now c.now (some (shown c.now cell)))
  | .get _ keyId =>
    if (RedisStatusStore.get S keyId c.now "" (.ok (shown c.now cell)) {}).deletes then none
    else cell

theorem key_eq_iff {id id' : RequestId} : key id = key id' ↔ id = id' := by
  constructor
  · intro h
    by_contra hne
    exact RedisGuards.append_ne (fun he => hne (RequestId.asStr_injective he)) h
  · rintro rfl
    rfl

theorem get_set (t : RedisServer) (id id' : RequestId) (now : DateTime) (v : Option SetEx) :
    (t.set id now v).keys.get (key id') =
      if id' = id then written now (t.keys.get (key id')) v else t.keys.get (key id') := by
  cases v with
  | none => exact (ite_self _).symm
  | some v =>
    unfold RedisServer.set written
    dsimp only
    by_cases hzero : v.ttl = 0
    · rw [if_pos hzero, if_pos hzero, ite_self]
    · rw [if_neg hzero, if_neg hzero]
      show Table.get (key id') (t.keys.insert (key id) _) = _
      rw [Table.get_insert]
      exact if_congr key_eq_iff rfl rfl

theorem get_onRedis (t : RedisServer) (c : TimedCall) (id : RequestId) :
    (c.onRedis S t).keys.get (key id) =
      if id = c.call.id then onKey S t.ttlSeconds c (t.keys.get (key id))
      else t.keys.get (key id) := by
  obtain ⟨call, now, recordOrder, rowOrder, fresh⟩ := c
  have hset : ∀ (id' : RequestId) (v : Option SetEx) (f : Option RedisKey → Option SetEx),
      v = f (t.keys.get (key id')) → (t.set id' now v).keys.get (key id) =
        if id = id' then written now (t.keys.get (key id)) (f (t.keys.get (key id)))
        else t.keys.get (key id) := by
    rintro id' v f rfl
    rw [get_set]
    by_cases hid : id = id'
    · rw [if_pos hid, if_pos hid, hid]
    · rw [if_neg hid, if_neg hid]
  cases call with
  | putReceived record =>
    apply hset record.requestId _ fun cell =>
      RedisStatusStore.putReceived S t.ttlSeconds record (some (shown now cell).isSome)
    rfl
  | setRecipientMetadata id' keyId domains count =>
    apply hset id' _ fun cell =>
      RedisStatusStore.setRecipientMetadata S keyId domains count now now now
        (some (shown now cell))
    rfl
  | updateStatus id' keyId update =>
    apply hset id' _ fun cell =>
      RedisStatusStore.updateStatus S keyId update now now now (some (shown now cell))
    rfl
  | get id' keyId =>
    show (if _ then t.del id' else t).keys.get (key id) = if id = id' then _ else _
    by_cases hid : id = id'
    · subst hid
      rw [if_pos rfl]
      split
      · rename_i hdel
        exact ((Table.get_erase _ _ _).trans (if_pos rfl)).trans (if_pos hdel).symm
      · rename_i hkeep
        exact (if_neg hkeep).symm
    · rw [if_neg hid]
      split
      · refine (Table.get_erase _ _ _).trans (if_neg fun he => hid (key_eq_iff.mp he))
      · rfl

theorem ttlSeconds_onRedis (t : RedisServer) (c : TimedCall) :
    (c.onRedis S t).ttlSeconds = t.ttlSeconds := by
  have hset : ∀ id now v, (t.set id now v).ttlSeconds = t.ttlSeconds := by
    intro id now v
    unfold RedisServer.set
    split
    · rfl
    · split <;> rfl
  obtain ⟨call, now, recordOrder, rowOrder, fresh⟩ := c
  cases call with
  | get id keyId =>
    show (if _ then t.del id else t).ttlSeconds = _
    split <;> rfl
  | _ => exact hset _ _ _

/-! ## The relation -/

/-- From `from` on: what Redis shows is the record of the in-memory store, until it
expires; and it shows that record until its last second. -/
structure Near (S : RedisDeps) (since : DateTime) (o : Option SubmissionStatusRecord)
    (cell : Option RedisKey) : Prop where
  shown : ∀ t, since ≤ t → ∀ raw, RedisServer.shown t cell = some raw →
    ∃ r, S.fromJson raw = some r ∧ (t ≤ r.expiresAt → o = some r)
  held : ∀ r, o = some r → ∀ t, since ≤ t → t + 1000000000 ≤ r.expiresAt →
    ∃ raw, RedisServer.shown t cell = some raw ∧ S.fromJson raw = some r

theorem shown_eq_some {t : DateTime} {cell : Option RedisKey} {raw : String} :
    shown t cell = some raw ↔ ∃ k, cell = some k ∧ t ≤ k.deadline ∧ k.value.json = raw := by
  cases cell with
  | none => simp [shown]
  | some k => by_cases h : t ≤ k.deadline <;> simp [shown, Option.filter_some, h]

/-- What is shown later is shown before. -/
theorem shown_antitone {t t' : DateTime} {cell : Option RedisKey} {raw : String}
    (h : shown t' cell = some raw) (ht : t ≤ t') : shown t cell = some raw := by
  obtain ⟨k, rfl, hk, hraw⟩ := shown_eq_some.mp h
  exact shown_eq_some.mpr ⟨k, rfl, ht.trans hk, hraw⟩

theorem Near.absent (since : DateTime) : Near S since none none where
  shown _ _ _ h := nomatch h
  held _ h := nomatch h

theorem Near.mono {since now : DateTime} {o : Option SubmissionStatusRecord}
    {cell : Option RedisKey} (h : Near S since o cell) (hnow : since ≤ now) : Near S now o cell where
  shown t ht := h.shown t (hnow.trans ht)
  held r hr t ht := h.held r hr t (hnow.trans ht)

/-- A record that was just written with a deadline that is not more than a second early. -/
theorem near_written (hS : S.RoundTrip) {now deadline : DateTime} {r : SubmissionStatusRecord}
    {json : String} {ttl : Nat} (hjson : S.toJson r = some json)
    (hdeadline : r.expiresAt ≤ deadline + 1000000000) :
    Near S now (some r) (some ⟨⟨json, ttl⟩, deadline⟩) where
  shown := by
    intro t _ raw hraw
    obtain ⟨k, hk, -, rfl⟩ := shown_eq_some.mp hraw
    obtain rfl := Option.some.inj hk
    exact ⟨r, hS r json hjson, fun _ => rfl⟩
  held := by
    intro r' hr' t _ hlate
    obtain rfl := Option.some.inj hr'
    refine ⟨json, shown_eq_some.mpr ⟨_, rfl, ?_, rfl⟩, hS r json hjson⟩
    have hsum := hlate.trans hdeadline
    exact Int.le_of_add_le_add_right hsum

theorem remaining_ne_zero (expiresAt now : DateTime) : remaining expiresAt now ≠ 0 := by
  unfold remaining
  have hone : (1 : Int) ≤ max (Int.tdiv (expiresAt - now) 1000000000) 1 := le_max_right _ _
  intro hzero
  have := Int.toNat_eq_zero.mp hzero
  omega

/-- A write to a record that is there: it changes what its guard admits, in both stores. -/
theorem near_update (hS : S.RoundTrip) {since now : DateTime} {o : Option SubmissionStatusRecord}
    {cell : Option RedisKey} (h : Near S since o cell) (hnow : since ≤ now)
    (guard : SubmissionStatusRecord → Prop) [DecidablePred guard]
    {change : SubmissionStatusRecord → SubmissionStatusRecord}
    (act : Option String → Option SetEx) (hguard : ∀ r, guard r → now ≤ r.expiresAt)
    (hchange : ∀ r, (change r).expiresAt = r.expiresAt)
    (hnone : act none = none)
    (hact : ∀ raw r, S.fromJson raw = some r → act (some raw) =
      if guard r then
        (S.toJson (change r)).map fun json => ⟨json, remaining r.expiresAt now⟩
      else none)
    (hwritten : ∀ r', o.map (fun r => if guard r then change r else r) = some r' →
      ∃ raw, S.toJson r' = some raw) :
    Near S now (o.map fun r => if guard r then change r else r)
      (written now cell (act (RedisServer.shown now cell))) := by
  have hkept : ∀ r r', o = some r → o.map (fun r => if guard r then change r else r) = some r' →
      r'.expiresAt = r.expiresAt := by
    rintro r r' rfl hr'
    obtain rfl := Option.some.inj hr'
    by_cases hadmits : guard r
    · exact (congrArg _ (if_pos hadmits)).trans (hchange r)
    · exact congrArg _ (if_neg hadmits)
  cases hraw : RedisServer.shown now cell with
  | none =>
    rw [hnone, show written now cell none = cell from rfl]
    constructor
    · intro t ht raw hlater
      rw [shown_antitone hlater ht] at hraw
      cases hraw
    · intro r' hr' t ht hlate
      obtain ⟨r, rfl, -⟩ := Option.map_eq_some_iff.mp hr'
      rw [hkept r r' rfl hr'] at hlate
      obtain ⟨raw, hlater, -⟩ := h.held r rfl t (hnow.trans ht) hlate
      rw [shown_antitone hlater ht] at hraw
      cases hraw
  | some raw =>
    obtain ⟨r, hread, hlive⟩ := h.shown now hnow raw hraw
    rw [hact raw r hread]
    by_cases hadmits : guard r
    · obtain rfl := hlive (hguard r hadmits)
      obtain ⟨json, hjson⟩ := hwritten (change r) (by rw [Option.map_some, if_pos hadmits])
      rw [if_pos hadmits, hjson, Option.map_some, Option.map_some, if_pos hadmits]
      unfold written
      dsimp only
      rw [if_neg (remaining_ne_zero _ _)]
      refine near_written hS hjson ?_
      rw [hchange]
      have hclose := (remaining_close (hguard r hadmits)).1
      exact Int.le_add_of_sub_right_le hclose
    · -- both leave the record alone
      rw [if_neg hadmits, show written now cell none = cell from rfl]
      have hsame : ∀ t, now ≤ t → ∀ raw', RedisServer.shown t cell = some raw' → raw' = raw := by
        intro t ht raw' hraw'
        rw [shown_antitone hraw' ht] at hraw
        exact Option.some.inj hraw
      constructor
      · intro t ht raw' hraw'
        obtain rfl := hsame t ht raw' hraw'
        refine ⟨r, hread, fun hexp => ?_⟩
        rw [hlive (ht.trans hexp), Option.map_some, if_neg hadmits]
      · intro r' hr' t ht hlate
        obtain ⟨r₀, rfl, -⟩ := Option.map_eq_some_iff.mp hr'
        rw [hkept r₀ r' rfl hr'] at hlate
        obtain ⟨raw', hraw', hread'⟩ := h.held r₀ rfl t (hnow.trans ht) hlate
        refine ⟨raw', hraw', ?_⟩
        rw [hsame t ht raw' hraw', hread] at hread'
        obtain rfl := Option.some.inj hread'
        rw [Option.map_some, if_neg hadmits] at hr'
        rw [hsame t ht raw' hraw', hread, hr']

theorem le_of_second {t e : Int} (h : t + 1000000000 ≤ e) : t ≤ e := by
  omega

theorem covered_by_ttl {e now : Int} {ttlSeconds : Nat} (h : e ≤ now + ttlSeconds * 1000000000) :
    e ≤ now + ttlSeconds * 1000000000 + 1000000000 ∧
      (ttlSeconds = 0 → ∀ t, now ≤ t → ¬t + 1000000000 ≤ e) := by
  refine ⟨by omega, ?_⟩
  rintro rfl t ht
  omega

/-- A `get` drops what has expired, from the one store or the other. -/
theorem near_get {since now : DateTime} {o : Option SubmissionStatusRecord}
    {cell : Option RedisKey} (h : Near S since o cell) (hnow : since ≤ now) (keyId : String) :
    Near S now (o.filter fun r => !(decide (r.keyId = keyId) && r.isExpired now))
      (if (RedisStatusStore.get S keyId now "" (.ok (RedisServer.shown now cell)) {}).deletes then
        none else cell) := by
  have hlater : ∀ t, now ≤ t → ∀ r : SubmissionStatusRecord, t ≤ r.expiresAt →
      r.isExpired now = false :=
    fun t ht r hr => SubmissionStatusRecord.isExpired_eq_false.mpr (ht.trans hr)
  by_cases hdel : (RedisStatusStore.get S keyId now ""
      (.ok (RedisServer.shown now cell)) {}).deletes = true
  · rw [if_pos hdel]
    refine ⟨fun _ _ _ hraw => (nomatch hraw), fun r' hr' t ht hlate => ?_⟩
    -- what is deleted has expired
    obtain ⟨rfl, -⟩ := Option.filter_eq_some_iff.mp hr'
    obtain ⟨raw, hraw, hread⟩ := h.held r' rfl t (hnow.trans ht) hlate
    have hexp := hlater t ht r' (le_of_second hlate)
    rw [shown_antitone hraw ht] at hdel
    simp only [RedisStatusStore.get, hread, hexp] at hdel
    split at hdel <;> cases hdel
  · rw [if_neg hdel]
    constructor
    · intro t ht raw hraw
      obtain ⟨r, hread, hlive⟩ := h.shown t (hnow.trans ht) raw hraw
      refine ⟨r, hread, fun hexp => ?_⟩
      rw [hlive hexp, Option.filter_some, hlater t ht r hexp]
      simp
    · intro r' hr' t ht hlate
      obtain ⟨rfl, -⟩ := Option.filter_eq_some_iff.mp hr'
      exact h.held r' rfl t (hnow.trans ht) hlate

theorem near_put (hS : S.RoundTrip) {ttlSeconds : Nat} {now : DateTime}
    {record : SubmissionStatusRecord} (hcovered : record.expiresAt ≤ now + ttlSeconds * 1000000000)
    (hwritten : ∃ raw, S.toJson record = some raw) :
    Near S now (some record)
      (written now none (RedisStatusStore.putReceived S ttlSeconds record (some false))) := by
  obtain ⟨json, hjson⟩ := hwritten
  have hput : RedisStatusStore.putReceived S ttlSeconds record (some false) =
      some ⟨json, ttlSeconds⟩ := by
    simp [RedisStatusStore.putReceived, hjson]
  rw [hput]
  unfold written
  dsimp only
  by_cases hzero : ttlSeconds = 0
  · -- the record expires as it is put
    rw [if_pos hzero]
    constructor
    · intro _ _ _ hraw
      cases hraw
    · intro r' hr' t ht hlate
      obtain rfl := Option.some.inj hr'
      exact absurd hlate ((covered_by_ttl hcovered).2 hzero t ht)
  · rw [if_neg hzero]
    exact near_written hS hjson (covered_by_ttl hcovered).1

theorem near_on (hS : S.RoundTrip) {ttlSeconds : Nat} {since : DateTime} {c : TimedCall}
    {o : Option SubmissionStatusRecord} {cell : Option RedisKey} (h : Near S since o cell)
    (hnow : since ≤ c.now) (hnew : c.call.putId ≠ none → o = none ∧ cell = none)
    (hcovered : ∀ record, c.call = .putReceived record →
      record.expiresAt ≤ c.now + ttlSeconds * 1000000000)
    (hwritten : ∀ r, onRecord c o = some r → ∃ raw, S.toJson r = some raw) :
    Near S c.now (onRecord c o) (onKey S ttlSeconds c cell) := by
  obtain ⟨call, now, recordOrder, rowOrder, fresh⟩ := c
  cases call with
  | putReceived record =>
    obtain ⟨rfl, rfl⟩ := hnew (by simp [StoreCall.putId])
    exact near_put hS (hcovered record rfl) (hwritten record rfl)
  | setRecipientMetadata id keyId domains count =>
    refine near_update hS h hnow (fun r => r.keyId = keyId ∧ r.isExpired now = false)
      (fun raw => RedisStatusStore.setRecipientMetadata S keyId domains count now now now
        (some raw)) ?_ ?_ rfl ?_ hwritten
    · exact fun r hr => SubmissionStatusRecord.isExpired_eq_false.mp hr.2
    · exact fun _ => rfl
    · intro raw r hread
      simp only [RedisStatusStore.setRecipientMetadata, Option.getD_some, hread]
  | updateStatus id keyId update =>
    refine near_update hS h hnow (fun r => r.Updatable keyId now)
      (fun raw => RedisStatusStore.updateStatus S keyId update now now now (some raw))
      ?_ ?_ rfl ?_ hwritten
    · exact fun r hr => (SubmissionStatusRecord.updatable_iff.mp hr).2.1
    · exact fun _ => rfl
    · intro raw r hread
      simp only [RedisStatusStore.updateStatus, hread]
      exact (ite_not _ _ _).symm
  | get id keyId => exact near_get h hnow keyId

/-- A `get` on both, where they are near. -/
theorem reads_alike {now : DateTime} {o : Option SubmissionStatusRecord}
    {cell : Option RedisKey} (h : Near S now o cell) (keyId : String) :
    ReadsAlike now (some (o.filter fun r => decide (r.keyId = keyId) && !r.isExpired now))
      (some (RedisStatusStore.get S keyId now "" (.ok (RedisServer.shown now cell)) {}).result) := by
  -- what the in-memory store returns and Redis does not is in its last second
  have hearly : (∀ r raw, RedisServer.shown now cell = some raw → S.fromJson raw = some r →
        ¬(r.keyId = keyId ∧ r.isExpired now = false)) →
      ReadsAlike now (some (o.filter fun r => decide (r.keyId = keyId) && !r.isExpired now))
        (some (.ok none)) := by
    intro hnot
    cases ho : o.filter fun r => decide (r.keyId = keyId) && !r.isExpired now with
    | none => exact .same none
    | some r =>
      obtain ⟨rfl, hmatch⟩ := Option.filter_eq_some_iff.mp ho
      refine .early r (lt_of_not_ge fun hlate => ?_)
      obtain ⟨raw, hraw, hread⟩ := h.held r rfl now le_rfl hlate
      exact hnot r raw hraw hread (by simpa using hmatch)
  cases hraw : RedisServer.shown now cell with
  | none => exact hearly fun r raw hsome => by rw [hraw] at hsome; cases hsome
  | some raw =>
    obtain ⟨r, hread, hlive⟩ := h.shown now le_rfl raw hraw
    by_cases hmatch : r.keyId = keyId ∧ r.isExpired now = false
    · rw [hlive (SubmissionStatusRecord.isExpired_eq_false.mp hmatch.2)]
      simp only [RedisStatusStore.get, hread, hmatch.1, hmatch.2]
      simpa [Option.filter_some, hmatch.1, hmatch.2] using ReadsAlike.same (some r)
    · have hnone : (RedisStatusStore.get S keyId now "" (.ok (some raw)) {}).result = .ok none := by
        simp only [RedisStatusStore.get, hread]
        split
        · rfl
        · rename_i hkey
          rw [not_not] at hkey
          have hexp : r.isExpired now = true := by
            cases he : r.isExpired now with
            | true => rfl
            | false => exact absurd ⟨hkey, he⟩ hmatch
          rw [if_pos hexp]
      rw [hnone]
      apply hearly
      intro r' raw' hraw' hread'
      rw [hraw] at hraw'
      obtain rfl := Option.some.inj hraw'
      rw [hread] at hread'
      obtain rfl := Option.some.inj hread'
      exact hmatch

/-- The stores are near for the rest of the run. -/
structure Agreed (S : RedisDeps) (ttlSeconds : Nat) (rest : List TimedCall)
    (s : InMemoryStatusStore) (t : RedisServer) : Prop where
  ttl : t.ttlSeconds = ttlSeconds
  near : ∃ since, (∀ c ∈ rest, since ≤ c.now) ∧
    ∀ id, Near S since (s.find id) (t.keys.get (key id))
  unput : ∀ id ∈ rest.filterMap fun c => c.call.putId,
    s.find id = none ∧ t.keys.get (key id) = none
  once : PutOnce rest
  ordered : (rest.map TimedCall.now).Pairwise (· ≤ ·)
  fits : FitsRun S ttlSeconds s rest

/-- What is absent stays so, if it is not put. -/
theorem onKey_absent {ttlSeconds : Nat} {c : TimedCall} (hput : c.call.putId = none) :
    onRecord c none = none ∧ onKey S ttlSeconds c none = none := by
  obtain ⟨call, now, recordOrder, rowOrder, fresh⟩ := c
  cases call with
  | putReceived record => cases hput
  | _ => exact ⟨rfl, rfl⟩

theorem agreed_step (hS : S.RoundTrip) {ttlSeconds : Nat} {c : TimedCall} {rest : List TimedCall}
    {s : InMemoryStatusStore} {t : RedisServer} (h : Agreed S ttlSeconds (c :: rest) s t) :
    Agreed S ttlSeconds rest (c.onMemory s) (c.onRedis S t) := by
  obtain ⟨httl, ⟨since, hsince, hnear⟩, hunput, honce, hordered, hfits, hrest⟩ := h
  have hnow := hsince c List.mem_cons_self
  have hmem : ∀ id, c.call.putId = some id → id ∈ (c :: rest).filterMap fun c => c.call.putId :=
    fun id hid => List.mem_filterMap.mpr ⟨c, List.mem_cons_self, hid⟩
  constructor
  · rw [ttlSeconds_onRedis, httl]
  · refine ⟨c.now, fun c' hc' => ?_, fun id => ?_⟩
    · rw [List.map_cons, List.pairwise_cons] at hordered
      exact hordered.1 _ (List.mem_map_of_mem hc')
    · rw [find_onMemory hfits.room, get_onRedis, httl]
      by_cases hid : id = c.call.id
      · rw [if_pos hid, if_pos hid]
        refine near_on hS (hnear id) hnow ?_ hfits.covered ?_
        · intro hput
          obtain ⟨id', hid'⟩ := Option.ne_none_iff_exists'.mp hput
          have heq : id = id' := hid.trans (StoreCall.putId_eq hid').symm
          rw [heq]
          exact hunput id' (hmem id' hid')
        · intro r hr
          apply hfits.written r
          rw [find_onMemory hfits.room, if_pos rfl, ← hid]
          exact hr
      · rw [if_neg hid, if_neg hid]
        exact (hnear id).mono hnow
  · intro id hid
    have hcons : id ∈ (c :: rest).filterMap fun c => c.call.putId := by
      rw [List.filterMap_cons]
      cases c.call.putId with
      | none => exact hid
      | some id' => exact List.mem_cons_of_mem _ hid
    obtain ⟨hfind, hget⟩ := hunput id hcons
    rw [find_onMemory hfits.room, get_onRedis, hfind, hget]
    by_cases hcall : id = c.call.id
    · rw [if_pos hcall, if_pos hcall]
      apply onKey_absent
      cases hput : c.call.putId with
      | none => rfl
      | some id' =>
        have heq : id' = id := (StoreCall.putId_eq hput).trans hcall.symm
        rw [heq] at hput
        exact absurd hid (honce.not_mem hput)
    · rw [if_neg hcall, if_neg hcall]
      exact ⟨rfl, rfl⟩
  · exact honce.tail
  · rw [List.map_cons, List.pairwise_cons] at hordered
    exact hordered.2
  · exact hrest

theorem agreed_answer {ttlSeconds : Nat} {c : TimedCall} {rest : List TimedCall}
    {s : InMemoryStatusStore} {t : RedisServer} (h : Agreed S ttlSeconds (c :: rest) s t) :
    ReadsAlike c.now (c.memoryAnswer s) (c.redisAnswer S t) := by
  obtain ⟨-, ⟨since, hsince, hnear⟩, -, -, -, -⟩ := h
  have hnow := hsince c List.mem_cons_self
  obtain ⟨call, now, recordOrder, rowOrder, fresh⟩ := c
  cases call with
  | get id keyId =>
    have halike := reads_alike ((hnear id).mono hnow) keyId
    rw [← fst_get_memory] at halike
    exact halike
  | _ => exact .write

theorem redis_approximates (hS : S.RoundTrip) (ttlSeconds : Nat) :
    memoryBackend.Approximates (redisBackend S) (fun c => ReadsAlike c.now)
      (Agreed S ttlSeconds) where
  answer := agreed_answer
  step := agreed_step hS

end RedisAgreement

/-- In every run of calls in order that puts each id once, with every command answered:
every `get` on Redis answers as on the in-memory store, or finds nothing in a record's
last second. -/
theorem redis_reads_as_memory {S : RedisDeps} (hS : S.RoundTrip) {config : StatusConfig}
    {calls : List TimedCall} (honce : PutOnce calls)
    (hordered : (calls.map TimedCall.now).Pairwise (· ≤ ·))
    (hfits : FitsRun S config.ttlSeconds (.new config) calls) :
    memoryBackend.AnswersAlong (redisBackend S) (fun c => ReadsAlike c.now) (.new config)
      ⟨∅, config.ttlSeconds⟩ calls := by
  apply (RedisAgreement.redis_approximates hS config.ttlSeconds).along
  refine ⟨rfl, ?_, fun _ _ => ⟨rfl, rfl⟩, honce, hordered, hfits⟩
  cases calls with
  | nil => exact ⟨0, fun _ hc => (nomatch hc), fun _ => RedisAgreement.Near.absent 0⟩
  | cons c rest =>
    refine ⟨c.now, fun c' hc' => ?_, fun _ => RedisAgreement.Near.absent c.now⟩
    rcases List.mem_cons.mp hc' with rfl | hc'
    · exact le_rfl
    · rw [List.map_cons, List.pairwise_cons] at hordered
      exact hordered.1 _ (List.mem_map_of_mem hc')

namespace RedisAgreement

open BackendAgreement RedisGuards

/-- A submission that is accepted, and a `get` a second before it expires. -/
def acceptedReads : List TimedCall :=
  [sampleCall (.putReceived sampleRecord) 0,
    sampleCall (.updateStatus sampleUlid "svc" ⟨.smtpAccepted, none, some "Accepted."⟩) 1000000000,
    sampleCall (.get sampleUlid "svc") 2000000000]

theorem fits_sample {c : TimedCall} {s : InMemoryStatusStore} {r : SubmissionStatusRecord}
    (hroom : s.records.size < s.config.maxRecords)
    (hcovered : ∀ record, c.call = .putReceived record → record.expiresAt ≤ c.now + 3600 * 1000000000)
    (hfind : (c.onMemory s).find c.call.id = some r) (hr : r = sampleRecord ∨ r = acceptedRecord) :
    c.Fits sampleJson 3600 s where
  room _ := hroom
  covered := hcovered
  written := by
    intro r' hr'
    rw [hfind] at hr'
    obtain rfl := Option.some.inj hr'
    rcases hr with rfl | rfl
    · exact ⟨_, toJson_sample⟩
    · exact ⟨_, toJson_accepted⟩

end RedisAgreement

open RedisAgreement BackendAgreement RedisGuards

theorem redis_reads_as_memory_accepted :
    memoryBackend.answers (fun _ => true) (.new .default) acceptedReads = [some acceptedRecord] ∧
      memoryBackend.AnswersAlong (redisBackend sampleJson) (fun c => ReadsAlike c.now)
        (.new .default) ⟨∅, 3600⟩ acceptedReads := by
  have hfits : FitsRun sampleJson 3600 (.new .default) acceptedReads := by
    refine ⟨?_, ?_, ?_, trivial⟩
    · refine fits_sample (by decide) ?_ rfl (Or.inl rfl)
      intro record hrecord
      cases hrecord
      decide
    · exact fits_sample (by decide) (fun _ h => nomatch h) rfl (Or.inr rfl)
    · exact fits_sample (by decide) (fun _ h => nomatch h) rfl (Or.inr rfl)
  have honce : PutOnce acceptedReads := by decide
  exact ⟨by decide, redis_reads_as_memory sampleJson_roundTrip honce (by decide) hfits⟩

end HttpSmtpRele
