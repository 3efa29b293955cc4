import HttpSmtpRele.Lib.Unwinding
import HttpSmtpRele.StatusMemory

/-!
# Isolation of API keys in the in-memory store

Runs of whole store operations.  As long as nothing is evicted for capacity and
no id is put twice, the operations of the other keys can be deleted from a run
without any answer to one key changing.  `View k` relates the two stores: the
second holds what the first holds under `k`.
-/

namespace HttpSmtpRele

inductive MemoryOp
  | putReceived (order : RecordOrder) (record : SubmissionStatusRecord)
  | setRecipientMetadata (id : RequestId) (keyId : String) (domains : List Domain) (count : Nat)
      (checkedAt now : DateTime)
  | updateStatus (id : RequestId) (keyId : String) (update : StatusUpdate)
      (checkedAt now : DateTime)
  | get (id : RequestId) (keyId : String) (readAt expireAt : DateTime)
  | expireOldRecords (order : RecordOrder) (now : DateTime)
  | reloadConfig (config : StatusConfig)

namespace MemoryOp

def exec (s : InMemoryStatusStore) : MemoryOp → InMemoryStatusStore
  | putReceived order record => s.putReceived order record
  | setRecipientMetadata id keyId domains count t₁ t₂ =>
    s.setRecipientMetadata id keyId domains count t₁ t₂
  | updateStatus id keyId update t₁ t₂ => s.updateStatus id keyId update t₁ t₂
  | get id keyId t₁ t₂ => (s.get id keyId t₁ t₂).2
  | expireOldRecords order now => s.expireOldRecords order now
  | reloadConfig config => s.reloadConfig config

/-- The answer of a `get`, with the id it was asked for. -/
def answer (s : InMemoryStatusStore) :
    MemoryOp → Option (RequestId × Option SubmissionStatusRecord)
  | get id keyId t₁ t₂ => some (id, (s.get id keyId t₁ t₂).1)
  | _ => none

/-- Whether the operation stays when only `k`'s are kept: it is `k`'s, or maintenance. -/
def keptFor (k : String) : MemoryOp → Bool
  | putReceived _ record => record.keyId == k
  | setRecipientMetadata _ keyId _ _ _ _ => keyId == k
  | updateStatus _ keyId _ _ _ => keyId == k
  | get _ keyId _ _ => keyId == k
  | expireOldRecords _ _ => true
  | reloadConfig _ => true

/-- The id a put inserts. -/
def putId : MemoryOp → Option RequestId
  | putReceived _ record => some record.requestId
  | _ => none

/-- A put or a sweep finds the store below the limit in force. -/
def HasRoom (s : InMemoryStatusStore) : MemoryOp → Prop
  | putReceived _ _ => s.records.size < s.config.maxRecords
  | expireOldRecords _ _ => s.records.size < s.config.maxRecords
  | _ => True

instance (s : InMemoryStatusStore) : (op : MemoryOp) → Decidable (op.HasRoom s)
  | putReceived _ _ => inferInstanceAs (Decidable (_ < _))
  | expireOldRecords _ _ => inferInstanceAs (Decidable (_ < _))
  | setRecipientMetadata .. => inferInstanceAs (Decidable True)
  | updateStatus .. => inferInstanceAs (Decidable True)
  | get .. => inferInstanceAs (Decidable True)
  | reloadConfig _ => inferInstanceAs (Decidable True)

end MemoryOp

def memoryMachine :
    Machine InMemoryStatusStore MemoryOp (RequestId × Option SubmissionStatusRecord) where
  step := MemoryOp.exec
  answer := MemoryOp.answer

/-- Every operation of the run has room. -/
def RunHasRoom : InMemoryStatusStore → List MemoryOp → Prop
  | _, [] => True
  | s, op :: ops => op.HasRoom s ∧ RunHasRoom (op.exec s) ops

instance decidableRunHasRoom :
    (s : InMemoryStatusStore) → (ops : List MemoryOp) → Decidable (RunHasRoom s ops)
  | _, [] => inferInstanceAs (Decidable True)
  | s, op :: ops =>
    have := decidableRunHasRoom (op.exec s) ops
    inferInstanceAs (Decidable (_ ∧ _))

/-- Each id is put at most once. -/
def PutsOnce (ops : List MemoryOp) : Prop := (ops.filterMap MemoryOp.putId).Nodup

namespace KeyIsolation

open InMemoryStatusStore SubmissionStatusRecord

/-- What the rest of a run may rely on. -/
structure Ok (s : InMemoryStatusStore) (ops : List MemoryOp) : Prop where
  room : RunHasRoom s ops
  once : PutsOnce ops
  fresh : ∀ id ∈ ops.filterMap MemoryOp.putId, s.find id = none

/-- `s'` holds what `s` holds under `k`. -/
structure View (k : String) (s s' : InMemoryStatusStore) : Prop where
  find : ∀ id, s'.find id = (s.find id).filter fun r => r.keyId == k
  config : s'.config = s.config

theorem View.size_le {k : String} {s s' : InMemoryStatusStore} (h : View k s s') :
    s'.records.size ≤ s.records.size := by
  apply Table.size_le_of_get
  intro id r hr
  have hfind := h.find ⟨id⟩
  unfold InMemoryStatusStore.find at hfind
  rw [hr] at hfind
  exact ⟨r, (Option.filter_eq_some_iff.mp hfind.symm).1⟩

/-! ## One operation -/

theorem find_exec_none {s : InMemoryStatusStore} {op : MemoryOp} {id : RequestId}
    (h : s.find id = none) (hid : op.putId ≠ some id) : (op.exec s).find id = none := by
  cases op with
  | putReceived order record =>
    have hne : id ≠ record.requestId := fun he => hid (he ▸ rfl)
    rcases find_putReceived_ne order s hne with h' | h'
    · exact h'
    · exact h'.trans h
  | setRecipientMetadata id' keyId domains count t₁ t₂ =>
    simp [MemoryOp.exec, find_setRecipientMetadata, h]
  | updateStatus id' keyId update t₁ t₂ => simp [MemoryOp.exec, find_updateStatus, h]
  | get id' keyId t₁ t₂ =>
    simp only [MemoryOp.exec, InMemoryStatusStore.get]
    split
    · exact h
    · exact h
    · simp [find_getExpire, h]
  | expireOldRecords order now =>
    rcases find_expireOldRecords order s now id with h' | h'
    · exact h'
    · exact h'.trans h
  | reloadConfig config => exact h

theorem Ok.tail {s : InMemoryStatusStore} {op : MemoryOp} {ops : List MemoryOp}
    (h : Ok s (op :: ops)) : Ok (op.exec s) ops := by
  obtain ⟨hroom, honce, hfresh⟩ := h
  unfold PutsOnce at honce
  cases hp : op.putId with
  | none =>
    rw [List.filterMap_cons_none hp] at honce hfresh
    exact ⟨hroom.2, honce, fun id hid => find_exec_none (hfresh id hid) (by simp [hp])⟩
  | some id₀ =>
    rw [List.filterMap_cons_some hp] at honce hfresh
    obtain ⟨hnot, honce⟩ := List.nodup_cons.mp honce
    refine ⟨hroom.2, honce, fun id hid => ?_⟩
    apply find_exec_none (hfresh id (List.mem_cons_of_mem _ hid))
    rw [hp]
    rintro ⟨⟩
    exact hnot hid

/-- A change of one record that keeps its key commutes with the view. -/
theorem filter_map_key {k : String} {f : SubmissionStatusRecord → SubmissionStatusRecord}
    (hkey : ∀ r, (f r).keyId = r.keyId) (o : Option SubmissionStatusRecord) :
    (o.filter fun r => r.keyId == k).map f = (o.map f).filter fun r => r.keyId == k := by
  cases o with
  | none => rfl
  | some r => by_cases hr : r.keyId = k <;> simp [Option.filter_some, hkey, hr]

/-- A change that another key makes is not in the view. -/
theorem filter_map_foreign {k : String} {f : SubmissionStatusRecord → SubmissionStatusRecord}
    (hkey : ∀ r, (f r).keyId = r.keyId) (hsame : ∀ r, r.keyId = k → f r = r)
    (o : Option SubmissionStatusRecord) :
    (o.map f).filter (fun r => r.keyId == k) = o.filter fun r => r.keyId == k := by
  cases o with
  | none => rfl
  | some r =>
    by_cases hr : r.keyId = k
    · simp [Option.filter_some, hr, hsame r hr]
    · simp [Option.filter_some, hkey, hr]

/-- `get` under `k` depends on the view only. -/
theorem View.getRead {k : String} {s s' : InMemoryStatusStore} (h : View k s s')
    (id : RequestId) (now : DateTime) : s'.getRead id k now = s.getRead id k now := by
  have hfind := h.find id
  unfold InMemoryStatusStore.find at hfind
  unfold InMemoryStatusStore.getRead
  rw [hfind]
  cases s.records.get id.asStr with
  | none => rfl
  | some r => by_cases hr : r.keyId = k <;> simp [Option.filter_some, hr]

theorem config_exec_get (s : InMemoryStatusStore) (id : RequestId) (keyId : String)
    (t₁ t₂ : DateTime) : (s.get id keyId t₁ t₂).2.config = s.config := by
  unfold InMemoryStatusStore.get
  split
  · rfl
  · rfl
  · unfold getExpire
    split
    · rfl
    · split <;> rfl

theorem config_putReceived (order : RecordOrder) (s : InMemoryStatusStore)
    (record : SubmissionStatusRecord) : (s.putReceived order record).config = s.config := by
  unfold putReceived
  dsimp only
  split <;> rfl

/-- `get` under `k` keeps the view of `k`. -/
theorem View.get {k : String} {s s' : InMemoryStatusStore} (h : View k s s') (id' : RequestId)
    (t₁ t₂ : DateTime) : View k (s.get id' k t₁ t₂).2 (s'.get id' k t₁ t₂).2 := by
  have hread := h.getRead id' t₁
  constructor
  · intro id
    simp only [InMemoryStatusStore.get, hread]
    split
    · exact h.find id
    · exact h.find id
    · simp only [find_getExpire, h.find]
      split
      · cases s.find id with
        | none => rfl
        | some r => by_cases hr : r.keyId = k <;> cases he : r.isExpired t₂ <;>
            simp [Option.filter_some, hr, he]
      · rfl
  · rw [config_exec_get, config_exec_get, h.config]

/-- `get` under another key removes no record of the view. -/
theorem View.get_foreign {k keyId : String} {s s' : InMemoryStatusStore} (h : View k s s')
    (hkey : keyId ≠ k) (id' : RequestId) (t₁ t₂ : DateTime) :
    View k (s.get id' keyId t₁ t₂).2 s' := by
  constructor
  · intro id
    simp only [InMemoryStatusStore.get]
    cases hread : s.getRead id' keyId t₁ with
    | absent => exact h.find id
    | live r => exact h.find id
    | expired =>
      -- the record found has the other key, so it is not in the view
      rw [h.find, find_getExpire]
      split
      · rename_i hid
        subst hid
        unfold InMemoryStatusStore.getRead at hread
        unfold InMemoryStatusStore.find
        cases hr : s.records.get id.asStr with
        | none => rfl
        | some r =>
          have hrk : r.keyId ≠ k := by
            intro hrk
            rw [hr] at hread
            simp [hrk, hkey.symm] at hread
          cases he : r.isExpired t₂ <;> simp [Option.filter_some, hrk, he]
      · rfl
  · rw [config_exec_get, h.config]

theorem view_both {k : String} {s s' : InMemoryStatusStore} {op : MemoryOp}
    {ops : List MemoryOp} (hok : Ok s (op :: ops)) (h : View k s s')
    (hv : op.keptFor k = true) :
    View k (op.exec s) (op.exec s') ∧ op.answer s' = op.answer s := by
  cases op with
  | putReceived order record =>
    have hroom : s.records.size < s.config.maxRecords := hok.room.1
    have hroom' : s'.records.size < s'.config.maxRecords := by
      have := h.size_le
      rw [h.config]
      omega
    have hkey : record.keyId = k := by simpa [MemoryOp.keptFor] using hv
    refine ⟨⟨fun id => ?_, ?_⟩, rfl⟩
    · simp only [MemoryOp.exec, find_putReceived_of_room hroom, find_putReceived_of_room hroom',
        h.find]
      split
      · rename_i hid
        have hnone : s.find id = none := hok.fresh id (by simp [MemoryOp.putId, hid])
        simp [hnone, Option.filter_some, hkey]
      · rfl
    · simp only [MemoryOp.exec, config_putReceived, h.config]
  | setRecipientMetadata id' keyId domains count t₁ t₂ =>
    refine ⟨⟨fun id => ?_, h.config⟩, rfl⟩
    simp only [MemoryOp.exec, find_setRecipientMetadata, h.find]
    split
    · exact filter_map_key (keyId_withRecipientMetadata keyId domains count t₁ t₂) _
    · rfl
  | updateStatus id' keyId update t₁ t₂ =>
    refine ⟨⟨fun id => ?_, h.config⟩, rfl⟩
    simp only [MemoryOp.exec, find_updateStatus, h.find]
    split
    · exact filter_map_key (keyId_withStatus keyId update t₁ t₂) _
    · rfl
  | get id' keyId t₁ t₂ =>
    obtain rfl : keyId = k := by simpa [MemoryOp.keptFor] using hv
    refine ⟨h.get id' t₁ t₂, ?_⟩
    simp only [MemoryOp.answer, InMemoryStatusStore.get, h.getRead id' t₁]
    cases s.getRead id' keyId t₁ <;> rfl
  | expireOldRecords order now =>
    have hroom : s.records.size < s.config.maxRecords := hok.room.1
    have hroom' : s'.records.size ≤ s'.config.maxRecords := by
      have := h.size_le
      rw [h.config]
      omega
    refine ⟨⟨fun id => ?_, h.config⟩, rfl⟩
    simp only [MemoryOp.exec, find_expireOldRecords_of_room hroom.le,
      find_expireOldRecords_of_room hroom', h.find]
    cases s.find id with
    | none => rfl
    | some r => by_cases hr : r.keyId = k <;> by_cases he : now < r.expiresAt <;>
        simp [Option.filter_some, hr, he]
  | reloadConfig config => exact ⟨⟨h.find, rfl⟩, rfl⟩

theorem view_hidden {k : String} {s s' : InMemoryStatusStore} {op : MemoryOp}
    {ops : List MemoryOp} (hok : Ok s (op :: ops)) (h : View k s s')
    (hv : op.keptFor k = false) : View k (op.exec s) s' := by
  cases op with
  | putReceived order record =>
    have hroom : s.records.size < s.config.maxRecords := hok.room.1
    have hkey : record.keyId ≠ k := by simpa [MemoryOp.keptFor] using hv
    refine ⟨fun id => ?_, ?_⟩
    · simp only [MemoryOp.exec, find_putReceived_of_room hroom, h.find]
      split
      · rename_i hid
        have hnone : s.find id = none := hok.fresh id (by simp [MemoryOp.putId, hid])
        simp [hnone, Option.filter_some, hkey]
      · rfl
    · simp only [MemoryOp.exec, config_putReceived, h.config]
  | setRecipientMetadata id' keyId domains count t₁ t₂ =>
    have hkey : keyId ≠ k := by simpa [MemoryOp.keptFor] using hv
    refine ⟨fun id => ?_, h.config⟩
    simp only [MemoryOp.exec, find_setRecipientMetadata, h.find]
    split
    · refine (filter_map_foreign (keyId_withRecipientMetadata keyId domains count t₁ t₂)
        (fun r hr => if_neg fun hc => hkey ?_) _).symm
      rw [← hc.1, hr]
    · rfl
  | updateStatus id' keyId update t₁ t₂ =>
    have hkey : keyId ≠ k := by simpa [MemoryOp.keptFor] using hv
    refine ⟨fun id => ?_, h.config⟩
    simp only [MemoryOp.exec, find_updateStatus, h.find]
    split
    · refine (filter_map_foreign (keyId_withStatus keyId update t₁ t₂)
        (fun r hr => if_neg fun hc => hkey ?_) _).symm
      rw [← (updatable_iff.mp hc).1, hr]
    · rfl
  | get id' keyId t₁ t₂ =>
    have hkey : keyId ≠ k := by simpa [MemoryOp.keptFor] using hv
    exact h.get_foreign hkey id' t₁ t₂
  | expireOldRecords order now => simp [MemoryOp.keptFor] at hv
  | reloadConfig config => simp [MemoryOp.keptFor] at hv

theorem view_unwinds (k : String) :
    memoryMachine.Unwinds (MemoryOp.keptFor k) Ok (View k) where
  tail := Ok.tail
  both := view_both
  hidden := view_hidden

/-! ## Records of other keys -/

/-- The records under `id` that are not `k`'s stay so while `k` does not put `id`. -/
def NotHeld (k : String) (id : RequestId) (s : InMemoryStatusStore) : Prop :=
  ∀ r, s.find id = some r → r.keyId ≠ k

theorem notHeld_exec {k : String} {id : RequestId} {s : InMemoryStatusStore} {op : MemoryOp}
    (h : NotHeld k id s) (hput : ∀ order record, op = .putReceived order record →
      record.requestId = id → record.keyId ≠ k) : NotHeld k id (op.exec s) := by
  intro r hr
  cases op with
  | putReceived order record =>
    by_cases hid : id = record.requestId
    · subst hid
      cases hs : s.find record.requestId with
      | some r₀ =>
        rw [MemoryOp.exec, putReceived_of_mem hs] at hr
        exact h r hr
      | none =>
        rw [MemoryOp.exec, find_putReceived_self hs] at hr
        rw [← Option.some.inj hr]
        exact hput order record rfl rfl
    · rcases find_putReceived_ne order s hid with h' | h'
      · rw [MemoryOp.exec, h'] at hr
        cases hr
      · exact h r (h' ▸ hr)
  | setRecipientMetadata id' keyId domains count t₁ t₂ =>
    simp only [MemoryOp.exec, find_setRecipientMetadata] at hr
    split at hr
    · obtain ⟨r₀, hr₀, rfl⟩ := Option.map_eq_some_iff.mp hr
      rw [keyId_withRecipientMetadata]
      exact h r₀ hr₀
    · exact h r hr
  | updateStatus id' keyId update t₁ t₂ =>
    simp only [MemoryOp.exec, find_updateStatus] at hr
    split at hr
    · obtain ⟨r₀, hr₀, rfl⟩ := Option.map_eq_some_iff.mp hr
      rw [keyId_withStatus]
      exact h r₀ hr₀
    · exact h r hr
  | get id' keyId t₁ t₂ =>
    simp only [MemoryOp.exec, InMemoryStatusStore.get] at hr
    split at hr
    · exact h r hr
    · exact h r hr
    · rw [find_getExpire] at hr
      split at hr
      · exact h r (Option.filter_eq_some_iff.mp hr).1
      · exact h r hr
  | expireOldRecords order now =>
    rcases find_expireOldRecords order s now id with h' | h'
    · rw [MemoryOp.exec, h'] at hr
      cases hr
    · exact h r (h' ▸ hr)
  | reloadConfig config => exact h r hr

theorem get_of_notHeld {k : String} {id : RequestId} {s : InMemoryStatusStore}
    (h : NotHeld k id s) (t₁ t₂ : DateTime) : (s.get id k t₁ t₂).1 = none := by
  unfold InMemoryStatusStore.get
  split
  · rfl
  · rename_i r hr
    obtain ⟨hfind, hkey, -⟩ := getRead_eq_live.mp hr
    exact absurd hkey (h r hfind)
  · rfl

theorem answers_of_notHeld {k : String} {id : RequestId} (ops : List MemoryOp)
    {s : InMemoryStatusStore} (h : NotHeld k id s) (hput : ∀ order record,
      .putReceived order record ∈ ops → record.requestId = id → record.keyId ≠ k)
    {found : Option SubmissionStatusRecord}
    (hans : (id, found) ∈ memoryMachine.answers (MemoryOp.keptFor k) s ops) : found = none := by
  induction ops generalizing s with
  | nil => cases hans
  | cons op ops ih =>
    rcases List.mem_append.mp hans with hans | hans
    · cases op with
      | get id' keyId t₁ t₂ =>
        cases hv : keyId == k with
        | false => simp [MemoryOp.keptFor, hv] at hans
        | true =>
          obtain rfl := eq_of_beq hv
          simp only [MemoryOp.keptFor, memoryMachine, MemoryOp.answer, hv, if_true,
            Option.toList_some, List.mem_singleton, Prod.mk.injEq] at hans
          obtain ⟨rfl, rfl⟩ := hans
          exact get_of_notHeld h t₁ t₂
      | _ => simp [memoryMachine, MemoryOp.answer] at hans
    · refine ih (notHeld_exec h fun order record hop => ?_) (fun order record hmem => ?_) hans
      · exact hput order record (hop ▸ List.mem_cons_self)
      · exact hput order record (List.mem_cons_of_mem _ hmem)

end KeyIsolation

open KeyIsolation in
/-- What the gets of key `k` answer is the same when the operations of all other
keys are deleted; and an id that `k` never put answers as an unused one does. -/
theorem answers_without_other_keys (config : StatusConfig) (ops : List MemoryOp) (k : String)
    (hroom : RunHasRoom (.new config) ops) (honce : PutsOnce ops) :
    memoryMachine.answers (MemoryOp.keptFor k) (.new config) (ops.filter (MemoryOp.keptFor k)) =
        memoryMachine.answers (MemoryOp.keptFor k) (.new config) ops ∧
      ∀ id found,
        (id, found) ∈ memoryMachine.answers (MemoryOp.keptFor k) (.new config) ops →
        (∀ order record, .putReceived order record ∈ ops → record.requestId = id →
          record.keyId ≠ k) →
        found = none := by
  constructor
  · refine (view_unwinds k).answers_filter ops ⟨fun id => rfl, rfl⟩ ⟨hroom, honce, ?_⟩
    intro id _
    exact InMemoryStatusStore.find_new config id
  · intro id found hans hput
    refine answers_of_notHeld ops (fun r hr => ?_) hput hans
    cases hr

/-- Two keys, one put each, and each asking for the other's record. -/
def twoKeysRun : List MemoryOp :=
  let record (id keyId : String) : SubmissionStatusRecord :=
    { requestId := ⟨id⟩, keyId := keyId, status := .received, code := none,
      message := none, recipientDomains := [], recipientCount := 0,
      createdAt := 0, updatedAt := 0, expiresAt := 100 }
  [.putReceived (.id _ _) (record "req_1" "a"), .putReceived (.id _ _) (record "req_2" "b"),
    .updateStatus ⟨"req_1"⟩ "a" { status := .rejected, code := none, message := none } 5 5,
    .get ⟨"req_2"⟩ "a" 6 6, .get ⟨"req_1"⟩ "a" 7 7, .get ⟨"req_1"⟩ "b" 8 8]

theorem answers_without_other_keys_twoKeys :
    RunHasRoom (.new .default) twoKeysRun ∧ PutsOnce twoKeysRun ∧
      memoryMachine.answers (MemoryOp.keptFor "a") (.new .default)
          (twoKeysRun.filter (MemoryOp.keptFor "a")) =
        memoryMachine.answers (MemoryOp.keptFor "a") (.new .default) twoKeysRun := by
  have hroom : RunHasRoom (.new .default) twoKeysRun := by decide
  have honce : PutsOnce twoKeysRun := by
    unfold PutsOnce
    decide
  exact ⟨hroom, honce, (answers_without_other_keys .default twoKeysRun "a" hroom honce).1⟩

end HttpSmtpRele
