import Mathlib.Data.Fintype.EquivFin
import HttpSmtpRele.StoreCapacity

/-!
# Which record makes room

`put_received` picks its victim by `created_at`, while `expires_at` says which
records are dead.  The two orders agree on the records of a history as long as
no record was given a shorter life than one before it, to the point of ending
sooner; a reload that lowers `ttl_seconds` can bring that about.
-/

namespace HttpSmtpRele

open InMemoryStatusStore

namespace EvictionOrder

/-- No put, at any moment, evicts a live record while an expired one is there. -/
def SparesLive (s : InMemoryStatusStore) : Prop :=
  ∀ order record now id victim, s.find id = some victim →
    (s.putReceived order record).find id = none → victim.isExpired now = false →
      ∀ id' r, s.find id' = some r → r.isExpired now = false

/-- No record expires before one of the oldest. -/
def OldestExpiresFirst (s : InMemoryStatusStore) : Prop :=
  ∀ id oldest, s.find id = some oldest →
    (∀ id' r, s.find id' = some r → oldest.createdAt ≤ r.createdAt) →
      ∀ id' r, s.find id' = some r → oldest.expiresAt ≤ r.expiresAt

/-! ## One state -/

theorem oldest_of_evicted {s : InMemoryStatusStore} {order : RecordOrder}
    {record victim : SubmissionStatusRecord} {id : RequestId} (hv : s.find id = some victim)
    (hgone : (s.putReceived order record).find id = none) :
    s.config.maxRecords ≤ s.records.size ∧
      ∀ id' r, s.find id' = some r → victim.createdAt ≤ r.createdAt := by
  cases hnew : s.find record.requestId with
  | some r =>
    rw [putReceived_of_mem hnew, hv] at hgone
    cases hgone
  | none =>
    have hne : id.asStr ≠ record.requestId.asStr := by
      intro he
      rw [RequestId.asStr_injective he, hnew] at hv
      cases hv
    rcases Nat.lt_or_ge s.records.size s.config.maxRecords with hroom | hfull
    · have hafter := putReceived_evictsNone order hnew hroom id.asStr
      rw [if_neg hne] at hafter
      exact absurd (hafter.symm.trans hgone) (by rw [← find, hv]; exact Option.some_ne_none _)
    · refine ⟨hfull, ?_⟩
      have hpos : 0 < s.records.size := Table.size_pos_of_isSome (Option.isSome_of_eq_some hv)
      obtain ⟨k, r, hr, hmin, hafter⟩ := putReceived_evictsOldest order hnew hpos hfull
      have hk : id.asStr = k := by
        by_contra hk
        have hkept := hafter id.asStr
        rw [if_neg hne, if_neg hk] at hkept
        exact absurd (hkept.symm.trans hgone) (by rw [← find, hv]; exact Option.some_ne_none _)
      rw [← hk] at hr
      have hvr : victim = r := Option.some.inj (hv.symm.trans hr)
      intro id' r' hr'
      rw [hvr]
      exact hmin id'.asStr r' hr'

theorem exists_new_id (s : InMemoryStatusStore) : ∃ id, s.find id = none := by
  obtain ⟨k, hk⟩ := Infinite.exists_notMem_finset s.records.keys.toFinset
  refine ⟨⟨k⟩, ?_⟩
  cases h : s.find ⟨k⟩ with
  | none => rfl
  | some r => exact absurd (List.mem_toFinset.mpr (Table.mem_keys_of_get h)) hk

/-- In a full store each of the oldest records can be the one that goes. -/
theorem evicted_of_oldest {s : InMemoryStatusStore} {id : RequestId}
    {victim : SubmissionStatusRecord} (hfull : s.config.maxRecords ≤ s.records.size)
    (hv : s.find id = some victim)
    (hmin : ∀ id' r, s.find id' = some r → victim.createdAt ≤ r.createdAt) :
    ∃ order record, (s.putReceived order record).find id = none := by
  obtain ⟨fresh, hfresh⟩ := exists_new_id s
  have hne : id.asStr ≠ fresh.asStr := by
    intro he
    rw [RequestId.asStr_injective he, hfresh] at hv
    cases hv
  refine ⟨.first ⟨id.asStr, victim⟩, { victim with requestId := fresh }, ?_⟩
  have hevict := evictOldest_first hv fun k' r' hr' => hmin ⟨k'⟩ r' hr'
  unfold find at hfresh
  simp only [find, putReceived, Table.contains, hfresh, Option.isSome_none, Bool.false_eq_true,
    if_false, ge_iff_le, hfull, if_true, hevict]
  rw [Table.get_insert, if_neg hne, Table.get_erase, if_pos rfl]

theorem sparesLive_iff (s : InMemoryStatusStore) :
    SparesLive s ↔ s.records.size < s.config.maxRecords ∨ OldestExpiresFirst s := by
  constructor
  · intro h
    rcases Nat.lt_or_ge s.records.size s.config.maxRecords with hroom | hfull
    · exact Or.inl hroom
    · apply Or.inr
      intro id oldest hold hmin id' r hr
      obtain ⟨order, record, hgone⟩ := evicted_of_oldest hfull hold hmin
      -- the last moment of the victim's life
      have hlive : oldest.isExpired oldest.expiresAt = false :=
        SubmissionStatusRecord.isExpired_eq_false.mpr (Int.le_refl _)
      exact SubmissionStatusRecord.isExpired_eq_false.mp
        (h order record oldest.expiresAt id oldest hold hgone hlive id' r hr)
  · intro h order record now id victim hv hgone hlive id' r hr
    obtain ⟨hfull, hmin⟩ := oldest_of_evicted hv hgone
    rcases h with hroom | hfirst
    · omega
    · have hle := hfirst id victim hv hmin id' r hr
      rw [SubmissionStatusRecord.isExpired_eq_false] at hlive ⊢
      exact Int.le_trans hlive hle

/-! ## A history -/

/-- The record is new: created at a time and with a TTL out of `C`, the TTL having been in force. -/
def Made (C : Set (DateTime × Nat)) (ttls : List Nat) (record : SubmissionStatusRecord) : Prop :=
  ∃ ttl ∈ ttls, (record.createdAt, ttl) ∈ C ∧
    SubmissionStatusRecord.newReceived record.requestId record.keyId ttl record.createdAt =
      some record

/-- Every record that the run inserts is made so; `ttls` are those in force until now. -/
def AllMade (C : Set (DateTime × Nat)) : List Nat → List MemorySection → Prop
  | _, [] => True
  | ttls, .putReceived _ record :: ops => Made C ttls record ∧ AllMade C ttls ops
  | ttls, .reloadConfig config :: ops => AllMade C (config.ttlSeconds :: ttls) ops
  | ttls, _ :: ops => AllMade C ttls ops

/-- What is created no later expires no later. -/
def Agreeing (C : Set (DateTime × Nat)) : Prop :=
  ∀ t₁ ttl₁ e₁ t₂ ttl₂ e₂, (t₁, ttl₁) ∈ C → (t₂, ttl₂) ∈ C →
    Chrono.addSeconds t₁ ttl₁ = some e₁ → Chrono.addSeconds t₂ ttl₂ = some e₂ →
      t₁ ≤ t₂ → e₁ ≤ e₂

/-- The dates of the records held come from `C`. -/
def DatedBy (C : Set (DateTime × Nat)) (s : InMemoryStatusStore) : Prop :=
  ∀ id r, s.find id = some r →
    ∃ ttl, (r.createdAt, ttl) ∈ C ∧ Chrono.addSeconds r.createdAt ttl = some r.expiresAt

theorem OldestExpiresFirst.of_dated {C : Set (DateTime × Nat)} {s : InMemoryStatusStore}
    (hC : Agreeing C) (hs : DatedBy C s) : OldestExpiresFirst s := by
  intro id oldest hold hmin id' r hr
  obtain ⟨ttl₁, hmem₁, he₁⟩ := hs id oldest hold
  obtain ⟨ttl₂, hmem₂, he₂⟩ := hs id' r hr
  exact hC _ _ _ _ _ _ hmem₁ hmem₂ he₁ he₂ (hmin id' r hr)

theorem Made.dated {C : Set (DateTime × Nat)} {ttls : List Nat}
    {record : SubmissionStatusRecord} (h : Made C ttls record) :
    ∃ ttl, (record.createdAt, ttl) ∈ C ∧
      Chrono.addSeconds record.createdAt ttl = some record.expiresAt := by
  obtain ⟨ttl, -, hmem, hnew⟩ := h
  refine ⟨ttl, hmem, ?_⟩
  obtain ⟨e, he, hrecord⟩ := Option.map_eq_some_iff.mp hnew
  rw [he, ← hrecord]

/-- Only a put brings a record. -/
theorem put_of_find_exec {s : InMemoryStatusStore} {op : MemorySection} {id : RequestId}
    {r : SubmissionStatusRecord} (hnew : s.find id = none) (h : (op.exec s).find id = some r) :
    ∃ order, op = .putReceived order r := by
  cases op with
  | putReceived order record =>
    by_cases hid : id = record.requestId
    · subst hid
      have hself : (s.putReceived order record).find record.requestId = some r := h
      rw [find_putReceived_self hnew] at hself
      rw [Option.some.inj hself]
      exact ⟨order, rfl⟩
    · have hafter : (s.putReceived order record).find id = some r := h
      rcases find_putReceived_ne order s hid with h' | h'
      · rw [h'] at hafter
        cases hafter
      · rw [h', hnew] at hafter
        cases hafter
  | setRecipientMetadata id' keyId domains count t₁ t₂ =>
    simp [MemorySection.exec, find_setRecipientMetadata, hnew] at h
  | updateStatus id' keyId update t₁ t₂ =>
    simp [MemorySection.exec, find_updateStatus, hnew] at h
  | getExpire id' keyId now => simp [MemorySection.exec, find_getExpire, hnew] at h
  | expireOldRecords order now =>
    have hafter : (s.expireOldRecords order now).find id = some r := h
    have hbefore : s.find id = some r :=
      (expireOldRecords_swept order s now).unchanged id.asStr r hafter
    rw [hnew] at hbefore
    cases hbefore
  | getRead id' keyId now => exact absurd (hnew.symm.trans h) (Option.some_ne_none r).symm
  | recordCount => exact absurd (hnew.symm.trans h) (Option.some_ne_none r).symm
  | reloadConfig config => exact absurd (hnew.symm.trans h) (Option.some_ne_none r).symm

theorem DatedBy.exec {C : Set (DateTime × Nat)} {s : InMemoryStatusStore} (h : DatedBy C s)
    {op : MemorySection} (hput : ∀ order r, op = .putReceived order r →
      ∃ ttl, (r.createdAt, ttl) ∈ C ∧ Chrono.addSeconds r.createdAt ttl = some r.expiresAt) :
    DatedBy C (op.exec s) := by
  intro id r hr
  cases hs : s.find id with
  | none =>
    obtain ⟨order, hop⟩ := put_of_find_exec hs hr
    exact hput order r hop
  | some r' =>
    obtain ⟨r'', hr'', hev⟩ := memoryRecords_stepSafe.evolves hs
      (Option.isSome_of_eq_some hr)
    have heq : r'' = r := Option.some.inj (hr''.symm.trans hr)
    have hdates : (r.createdAt, r.expiresAt) = (r'.createdAt, r'.expiresAt) := by
      rw [← heq]
      exact congrArg Prod.snd hev.identity
    rw [(Prod.mk.inj hdates).1, (Prod.mk.inj hdates).2]
    exact h id r' hs

theorem DatedBy.run {C : Set (DateTime × Nat)} (ops : List MemorySection) {ttls : List Nat}
    {s : InMemoryStatusStore} (h : DatedBy C s) (hmade : AllMade C ttls ops) :
    DatedBy C (memoryRecords.run s ops) := by
  induction ops generalizing ttls s with
  | nil => exact h
  | cons op ops ih =>
    cases op with
    | putReceived order record =>
      refine ih (h.exec fun _ _ he => ?_) hmade.2
      obtain ⟨rfl, rfl⟩ := MemorySection.putReceived.inj he
      exact hmade.1.dated
    | reloadConfig config => exact ih (h.exec fun _ _ he => by cases he) hmade
    | _ => exact ih (h.exec fun _ _ he => by cases he) hmade

/-! ## Creations that disagree -/

/-- Room for two, and a TTL. -/
def roomForTwo (ttl : Nat) : StatusConfig :=
  { StatusConfig.default with ttlSeconds := ttl, maxRecords := 2 }

/-- Two puts, with a reload of the TTL in between. -/
def twoPuts (ttl₂ : Nat) (r₁ r₂ : SubmissionStatusRecord) : List MemorySection :=
  [.putReceived (.id _ _) r₁, .reloadConfig (roomForTwo ttl₂), .putReceived (.id _ _) r₂]

theorem twoPuts_spec (ttl₁ ttl₂ : Nat) {r₁ r₂ : SubmissionStatusRecord}
    (hne : r₂.requestId ≠ r₁.requestId) :
    (memoryRecords.run (.new (roomForTwo ttl₁)) (twoPuts ttl₂ r₁ r₂)).config.maxRecords ≤
        (memoryRecords.run (.new (roomForTwo ttl₁)) (twoPuts ttl₂ r₁ r₂)).records.size ∧
      ∀ id, (memoryRecords.run (.new (roomForTwo ttl₁)) (twoPuts ttl₂ r₁ r₂)).find id =
        if id = r₂.requestId then some r₂ else if id = r₁.requestId then some r₁ else none := by
  obtain ⟨s₁, hs₁⟩ : ∃ s₁, s₁ = (InMemoryStatusStore.new (roomForTwo ttl₁)).putReceived
    (.id _ _) r₁ := ⟨_, rfl⟩
  have hroom₁ : (InMemoryStatusStore.new (roomForTwo ttl₁)).records.size <
      (InMemoryStatusStore.new (roomForTwo ttl₁)).config.maxRecords := Nat.two_pos
  have hsize₁ : s₁.records.size = 1 := by
    rw [hs₁]
    exact size_putReceived_of_room rfl hroom₁
  have hfind₁ : ∀ id, s₁.find id = if id = r₁.requestId then some r₁ else none := by
    intro id
    rw [hs₁, find_putReceived_of_room hroom₁]
    rfl
  have hnew₂ : (s₁.reloadConfig (roomForTwo ttl₂)).find r₂.requestId = none := by
    rw [find_reloadConfig, hfind₁, if_neg hne]
  have hroom₂ : (s₁.reloadConfig (roomForTwo ttl₂)).records.size <
      (s₁.reloadConfig (roomForTwo ttl₂)).config.maxRecords := by
    show s₁.records.size < 2
    omega
  have hrun : memoryRecords.run (.new (roomForTwo ttl₁)) (twoPuts ttl₂ r₁ r₂) =
      (s₁.reloadConfig (roomForTwo ttl₂)).putReceived (.id _ _) r₂ := by
    rw [hs₁]
    rfl
  rw [hrun]
  constructor
  · rw [size_putReceived_of_room hnew₂ hroom₂, config_putReceived]
    show 2 ≤ s₁.records.size + 1
    omega
  · intro id
    rw [find_putReceived_of_room hroom₂, find_reloadConfig, hfind₁]
    by_cases hid : id = r₂.requestId
    · rw [if_pos hid, if_pos hid, hid, if_neg hne]
      rfl
    · rw [if_neg hid, if_neg hid]

theorem exists_newReceived (id : RequestId) (keyId : String) {ttl : Nat} {now e : DateTime}
    (he : Chrono.addSeconds now ttl = some e) :
    ∃ r, SubmissionStatusRecord.newReceived id keyId ttl now = some r ∧ r.requestId = id ∧
      r.keyId = keyId ∧ r.createdAt = now ∧ r.expiresAt = e :=
  ⟨_, by rw [SubmissionStatusRecord.newReceived, he, Option.map_some], rfl, rfl, rfl, rfl⟩

theorem agreeing_of_spares {C : Set (DateTime × Nat)}
    (h : ∀ config ops, AllMade C [config.ttlSeconds] ops →
      SparesLive (memoryRecords.run (.new config) ops)) : Agreeing C := by
  intro t₁ ttl₁ e₁ t₂ ttl₂ e₂ hmem₁ hmem₂ he₁ he₂ hle
  obtain ⟨r₁, hnew₁, hid₁, hkey₁, hcreated₁, hexpires₁⟩ :=
    exists_newReceived ⟨"req_1"⟩ "svc" he₁
  obtain ⟨r₂, hnew₂, hid₂, hkey₂, hcreated₂, hexpires₂⟩ :=
    exists_newReceived ⟨"req_2"⟩ "svc" he₂
  have hne : r₂.requestId ≠ r₁.requestId := by
    rw [hid₁, hid₂]
    decide
  have hmade₁ : Made C [ttl₁] r₁ :=
    ⟨ttl₁, by simp, by rwa [hcreated₁], by rw [hid₁, hkey₁, hcreated₁, hnew₁]⟩
  have hmade₂ : Made C [ttl₂, ttl₁] r₂ :=
    ⟨ttl₂, by simp, by rwa [hcreated₂], by rw [hid₂, hkey₂, hcreated₂, hnew₂]⟩
  have hspares := h (roomForTwo ttl₁) (twoPuts ttl₂ r₁ r₂) ⟨hmade₁, hmade₂, trivial⟩
  obtain ⟨hfull, hfind⟩ := twoPuts_spec ttl₁ ttl₂ hne
  rcases (sparesLive_iff _).mp hspares with hroom | hfirst
  · omega
  · have hget₁ := (hfind r₁.requestId).trans ((if_neg fun he => hne he.symm).trans (if_pos rfl))
    have hget₂ := (hfind r₂.requestId).trans (if_pos rfl)
    have hmin : ∀ id' r, (memoryRecords.run (.new (roomForTwo ttl₁)) (twoPuts ttl₂ r₁ r₂)).find
        id' = some r → r₁.createdAt ≤ r.createdAt := by
      intro id' r hr
      rw [hfind] at hr
      split at hr
      · rw [← Option.some.inj hr, hcreated₁, hcreated₂]
        exact hle
      · split at hr
        · rw [← Option.some.inj hr]
        · cases hr
    have hexpires := hfirst _ r₁ hget₁ hmin _ r₂ hget₂
    rwa [hexpires₁, hexpires₂] at hexpires

end EvictionOrder

open EvictionOrder

/-- In a state: the store is below its limit, or its oldest records expire first.  In all states
of all histories that create at times and with TTLs out of `C`: these agree. -/
theorem eviction_spares_live_iff (C : Set (DateTime × Nat)) :
    (∀ config ops,
      SparesLive (memoryRecords.run (.new config) ops) ↔
        (memoryRecords.run (.new config) ops).records.size <
            (memoryRecords.run (.new config) ops).config.maxRecords ∨
          OldestExpiresFirst (memoryRecords.run (.new config) ops)) ∧
      ((∀ config ops, AllMade C [config.ttlSeconds] ops →
        SparesLive (memoryRecords.run (.new config) ops)) ↔ Agreeing C) := by
  refine ⟨fun config ops => sparesLive_iff _, agreeing_of_spares, ?_⟩
  intro hC config ops hmade
  have hempty : DatedBy C (.new config) := fun id r hr => by cases hr
  exact (sparesLive_iff _).mpr (Or.inr (.of_dated hC (hempty.run ops hmade)))

namespace EvictionOrder

/-- A second in nanoseconds. -/
def second : Int := 1000000000

/-- Records with the dates that `ttl_seconds` gives them: an hour, then a minute. -/
def hourRecord : SubmissionStatusRecord :=
  { BackendAgreement.sampleRecord with expiresAt := 3600 * second }

def minuteRecord : SubmissionStatusRecord :=
  { BackendAgreement.sampleRecord with
    requestId := ⟨"req_minute"⟩
    createdAt := second
    updatedAt := second
    expiresAt := 61 * second }

def loweredTtl : List MemorySection := twoPuts 60 hourRecord minuteRecord

def thirdRecord : SubmissionStatusRecord :=
  { BackendAgreement.sampleRecord with
    requestId := ⟨"req_third"⟩
    createdAt := 62 * second
    updatedAt := 62 * second
    expiresAt := 122 * second }

end EvictionOrder

theorem live_evicted_for_dead :
    AllMade Set.univ [3600] loweredTtl ∧
      hourRecord.isExpired (62 * second) = false ∧ minuteRecord.isExpired (62 * second) = true ∧
      (memoryRecords.run (.new (roomForTwo 3600)) loweredTtl).find minuteRecord.requestId =
        some minuteRecord ∧
      (memoryRecords.run (.new (roomForTwo 3600)) loweredTtl).find hourRecord.requestId =
        some hourRecord ∧
      ((memoryRecords.run (.new (roomForTwo 3600)) loweredTtl).putReceived (.id _ _)
        thirdRecord).find hourRecord.requestId = none := by
  refine ⟨⟨⟨3600, ?_, trivial, ?_⟩, ⟨60, ?_, trivial, ?_⟩, trivial⟩, ?_⟩
  all_goals decide

end HttpSmtpRele
