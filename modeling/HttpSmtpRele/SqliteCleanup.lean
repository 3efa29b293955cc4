import HttpSmtpRele.StoreCapacity

/-!
# The background cleanup of the SQLite store

`expire_old_records` deletes what has expired and then calls `evict_if_needed`,
which makes room for one more row at the limit.  A cleanup needs no such room: a
store with exactly `max_records` live rows loses one of them.
-/

namespace HttpSmtpRele

namespace SqliteStatusStore

/-- A cleanup at the instant with this text leaves the live rows, and of more than
the limit the newest. -/
structure CleanedUp (now : String) (maxRecords : Nat) (before after : StatusTable) : Prop where
  gone : ∀ k r, before.get k = some r → r.expiresAt ≤ now → after.get k = none
  unchanged : ∀ k r, after.get k = some r → before.get k = some r
  room : liveRows now before ≤ maxRecords → ∀ k r, before.get k = some r → now < r.expiresAt →
    after.get k = some r
  full : maxRecords < liveRows now before → after.size = maxRecords
  oldest : ∀ k r k' r', before.get k = some r → now < r.expiresAt → after.get k = none →
    after.get k' = some r' → r.createdAt ≤ r'.createdAt

/-- Repeated cleanups. -/
def cleanups (S : SqliteDeps) (s : SqliteStatusStore) (times : List (RowOrder × DateTime)) :
    SqliteStatusStore :=
  times.foldl (fun s c => s.expireOldRecords S c.1 c.2) s

/-- After each of these cleanups every row is still there that has not expired by then. -/
def KeepsLive (S : SqliteDeps) (s : SqliteStatusStore) (times : List (RowOrder × DateTime)) :
    Prop :=
  ∀ done, done <+: times → ∀ k r, s.table.get k = some r →
    (∀ c ∈ done, S.toRfc3339 c.2 < r.expiresAt) → (s.cleanups S done).table.get k = some r

variable {S : SqliteDeps} {s : SqliteStatusStore} {order : RowOrder} {now : DateTime}

theorem get_deleteExpired {now : String} {t : StatusTable} {k : String} {r : StatusRow} :
    (deleteExpired now t).get k = some r ↔ t.get k = some r ∧ now < r.expiresAt := by
  rw [deleteExpired, Table.get_retain, Option.filter_eq_some_iff]
  simp

theorem liveRows_pos {now : String} {t : StatusTable} {k : String} {r : StatusRow}
    (hr : t.get k = some r) (hlive : now < r.expiresAt) : 0 < liveRows now t := by
  rw [← size_deleteExpired]
  apply Table.size_pos_of_isSome (k := k)
  rw [get_deleteExpired.mpr ⟨hr, hlive⟩]
  rfl

theorem table_expireOldRecords (S : SqliteDeps) (order : RowOrder) (s : SqliteStatusStore)
    (now : DateTime) :
    (s.expireOldRecords S order now).table =
      evictIfNeeded order s.config.maxRecords (deleteExpired (S.toRfc3339 now) s.table) := rfl

/-- Below the limit a cleanup evicts nothing. -/
theorem get_expireOldRecords_of_room (order : RowOrder)
    (h : liveRows (S.toRfc3339 now) s.table < s.config.maxRecords) {k : String} {r : StatusRow} :
    (s.expireOldRecords S order now).table.get k = some r ↔
      s.table.get k = some r ∧ S.toRfc3339 now < r.expiresAt := by
  rw [← size_deleteExpired] at h
  rw [table_expireOldRecords, evictIfNeeded_of_room h]
  exact get_deleteExpired

/-- A cleanup changes no row, and deletes the expired ones. -/
theorem get_expireOldRecords_le {k : String} {r : StatusRow}
    (h : (s.expireOldRecords S order now).table.get k = some r) :
    s.table.get k = some r ∧ S.toRfc3339 now < r.expiresAt := by
  rw [table_expireOldRecords] at h
  rcases get_evictIfNeeded order s.config.maxRecords (deleteExpired (S.toRfc3339 now) s.table) k
    with hnone | hsame
  · rw [hnone] at h
    cases h
  · rw [hsame] at h
    exact get_deleteExpired.mp h

/-- Where the live rows are as many as the limit, one of them goes. -/
theorem exists_lost (order : RowOrder)
    (hfull : liveRows (S.toRfc3339 now) s.table = s.config.maxRecords)
    (hpos : liveRows (S.toRfc3339 now) s.table ≠ 0) :
    ∃ k r, s.table.get k = some r ∧ S.toRfc3339 now < r.expiresAt ∧
      (s.expireOldRecords S order now).table.get k = none := by
  by_contra hkept
  have hall : ∀ k r, (deleteExpired (S.toRfc3339 now) s.table).get k = some r →
      ∃ r', (s.expireOldRecords S order now).table.get k = some r' := by
    intro k r hr
    obtain ⟨hr, hlive⟩ := get_deleteExpired.mp hr
    rw [← Option.isSome_iff_exists, Option.isSome_iff_ne_none]
    intro hnone
    exact hkept ⟨k, r, hr, hlive, hnone⟩
  have hle := Table.size_le_of_get hall
  rw [size_deleteExpired, size_expireOldRecords] at hle
  split at hle <;> omega

theorem cleanedUp_iff :
    CleanedUp (S.toRfc3339 now) s.config.maxRecords s.table
        (s.expireOldRecords S order now).table ↔
      liveRows (S.toRfc3339 now) s.table ≠ s.config.maxRecords ∨
        liveRows (S.toRfc3339 now) s.table = 0 := by
  constructor
  · intro h
    by_contra hcon
    rw [not_or, not_not] at hcon
    obtain ⟨k, r, hr, hlive, hlost⟩ := exists_lost order hcon.1 hcon.2
    rw [h.room hcon.1.le k r hr hlive] at hlost
    cases hlost
  · intro hcond
    constructor
    · intro k r hr hdead
      cases hget : (s.expireOldRecords S order now).table.get k with
      | none => rfl
      | some r' =>
        obtain ⟨hr', hlive⟩ := get_expireOldRecords_le hget
        obtain rfl := Option.some.inj (hr.symm.trans hr')
        exact absurd hlive (String.not_lt.mpr hdead)
    · intro k r hr
      exact (get_expireOldRecords_le hr).1
    · intro hle k r hr hlive
      have hpos := liveRows_pos hr hlive
      have hroom : liveRows (S.toRfc3339 now) s.table < s.config.maxRecords := by omega
      exact (get_expireOldRecords_of_room order hroom).mpr ⟨hr, hlive⟩
    · intro hfull
      rw [size_expireOldRecords]
      split <;> omega
    · intro k r k' r' hr hlive hgone hr'
      rw [table_expireOldRecords] at hgone hr'
      exact evictIfNeeded_oldest (get_deleteExpired.mpr ⟨hr, hlive⟩) hgone hr'

theorem size_expireOldRecords_of_room
    (h : liveRows (S.toRfc3339 now) s.table < s.config.maxRecords) :
    (s.expireOldRecords S order now).table.size < s.config.maxRecords := by
  rw [size_expireOldRecords, if_neg (Nat.not_le.mpr h)]
  exact h

theorem liveRows_le (now : String) (t : StatusTable) : liveRows now t ≤ t.size := by
  rw [← size_deleteExpired]
  exact Table.size_retain_le _ _

/-- A store below its limit stays below it, and loses only what has expired. -/
theorem get_cleanups_of_room {times : List (RowOrder × DateTime)}
    (hroom : s.table.size < s.config.maxRecords) {k : String} {r : StatusRow}
    (hr : s.table.get k = some r) (hlive : ∀ c ∈ times, S.toRfc3339 c.2 < r.expiresAt) :
    (s.cleanups S times).table.get k = some r := by
  induction times generalizing s with
  | nil => exact hr
  | cons c times ih =>
    have hlt : liveRows (S.toRfc3339 c.2) s.table < s.config.maxRecords :=
      (liveRows_le _ _).trans_lt hroom
    have hnext := (get_expireOldRecords_of_room c.1 hlt).mpr
      ⟨hr, hlive c List.mem_cons_self⟩
    apply ih (size_expireOldRecords_of_room hlt) hnext
    intro c' hc'
    exact hlive c' (List.mem_cons_of_mem _ hc')

theorem keepsLive_cons_iff {c : RowOrder × DateTime} {times : List (RowOrder × DateTime)}
    (hwithin : s.table.size ≤ s.config.maxRecords) :
    KeepsLive S s (c :: times) ↔
      liveRows (S.toRfc3339 c.2) s.table ≠ s.config.maxRecords ∨
        liveRows (S.toRfc3339 c.2) s.table = 0 := by
  constructor
  · intro h
    by_contra hcon
    rw [not_or, not_not] at hcon
    obtain ⟨k, r, hr, hlive, hlost⟩ := exists_lost c.1 hcon.1 hcon.2
    have hkept := h [c] ⟨times, rfl⟩ k r hr (by simpa using hlive)
    have hnone : (s.cleanups S [c]).table.get k = none := hlost
    rw [hkept] at hnone
    cases hnone
  · intro hcond done hdone k r hr hlive
    cases done with
    | nil => exact hr
    | cons c' done =>
      obtain rfl : c' = c := (List.cons_prefix_cons.mp hdone).1
      have hnow := hlive c' List.mem_cons_self
      have hle := liveRows_le (S.toRfc3339 c'.2) s.table
      have hpos := liveRows_pos hr hnow
      have hlt : liveRows (S.toRfc3339 c'.2) s.table < s.config.maxRecords := by omega
      have hnext := (get_expireOldRecords_of_room c'.1 hlt).mpr ⟨hr, hnow⟩
      apply get_cleanups_of_room (size_expireOldRecords_of_room hlt) hnext
      intro c'' hc''
      exact hlive c'' (List.mem_cons_of_mem _ hc'')

end SqliteStatusStore

open SqliteStatusStore

/-- A cleanup spares the live rows of a store within its limit exactly if they do
not fill it; and so do repeated cleanups, if the first one does. -/
theorem sqlite_cleanup_iff (S : SqliteDeps) (s : SqliteStatusStore) :
    (∀ order now,
      CleanedUp (S.toRfc3339 now) s.config.maxRecords s.table
          (s.expireOldRecords S order now).table ↔
        liveRows (S.toRfc3339 now) s.table ≠ s.config.maxRecords ∨
          liveRows (S.toRfc3339 now) s.table = 0) ∧
      ∀ times, s.table.size ≤ s.config.maxRecords →
        (KeepsLive S s times ↔
          ∀ c ∈ times.head?, liveRows (S.toRfc3339 c.2) s.table ≠ s.config.maxRecords ∨
            liveRows (S.toRfc3339 c.2) s.table = 0) := by
  constructor
  · intro order now
    exact cleanedUp_iff
  · intro times hwithin
    cases times with
    | nil =>
      have hkept : KeepsLive S s [] := by
        intro done hdone k r hr _
        rw [List.prefix_nil.mp hdone]
        exact hr
      simp [hkept]
    | cons c times =>
      rw [keepsLive_cons_iff hwithin]
      simp

open StoreCapacity BackendAgreement

/-- Two live rows and room for two: each cleanup deletes one. -/
theorem full_store_drained :
    ¬CleanedUp (sampleDeps.toRfc3339 0) twoRows.config.maxRecords twoRows.table
        (twoRows.expireOldRecords sampleDeps (.id _ _) 0).table ∧
      ¬KeepsLive sampleDeps twoRows [(.id _ _, 0), (.id _ _, 1000000000)] ∧
      (twoRows.cleanups sampleDeps [(.id _ _, 0)]).table.size = 1 := by
  have hlive : liveRows (sampleDeps.toRfc3339 0) twoRows.table = 2 := by decide
  have hlimit : twoRows.config.maxRecords = 2 := rfl
  have hsize : twoRows.table.size = 2 := by decide
  refine ⟨?_, ?_, ?_⟩
  · rw [cleanedUp_iff, hlive, hlimit]
    decide
  · rw [keepsLive_cons_iff (by omega)]
    show ¬(liveRows (sampleDeps.toRfc3339 0) _ ≠ _ ∨ liveRows (sampleDeps.toRfc3339 0) _ = 0)
    rw [hlive, hlimit]
    decide
  · decide

end HttpSmtpRele
