import HttpSmtpRele.RateLimit
import HttpSmtpRele.Lib.FifoQueue

/-!
# The table of addresses

`order` is a queue with a cap, and the map holds a bucket for each of its
elements and for no other key.  So a bucket that was inserted stays, and changes
through its own calls only, until the cap is reached behind it.
-/

namespace HttpSmtpRele

/-- A call of `get_or_insert`, with what is done to the bucket it returns. -/
structure LruCall (κ : Type) where
  key : κ
  perMinute : Nat
  burst : Nat
  now : Instant
  use : TokenBucket → TokenBucket

/-- The bucket of a key that was not there. -/
def LruCall.newBucket {κ : Type} (c : LruCall κ) : TokenBucket := .new c.perMinute c.burst c.now

namespace LruMap

variable {κ : Type} [DecidableEq κ]

/-- `get_or_insert` as far as its last lookup, which it unwraps. -/
def getMut (key : κ) (perMinute burst : Nat) (now : Instant) (m : LruMap κ) :
    Option TokenBucket × LruMap κ :=
  let m := m.evict key
  let m :=
    if m.map.contains key = false then
      { m with
        map := m.map.insert key (.new perMinute burst now)
        order := m.order ++ [key] }
    else m
  (m.map.get key, m)

def step (m : LruMap κ) (c : LruCall κ) : LruMap κ :=
  let (b, m) := m.getOrInsert c.key c.perMinute c.burst c.now
  m.set c.key (c.use b)

def after (m : LruMap κ) (calls : List (LruCall κ)) : LruMap κ := calls.foldl step m

/-- The keys that were absent when they were asked for, in order. -/
def inserted : LruMap κ → List (LruCall κ) → List κ
  | _, [] => []
  | m, c :: calls => (if m.map.contains c.key then [] else [c.key]) ++ inserted (m.step c) calls

/-- What the calls do to the bucket of the key. -/
def usedBy (key : κ) (calls : List (LruCall κ)) (b : TokenBucket) : TokenBucket :=
  calls.foldl (fun b c => if c.key = key then c.use b else b) b

variable {m : LruMap κ} {key k : κ} {perMinute burst : Nat} {now : Instant}

/-- The last lookup finds the bucket. -/
theorem getMut_eq (key : κ) (perMinute burst : Nat) (now : Instant) (m : LruMap κ) :
    m.getMut key perMinute burst now =
      (some (m.getOrInsert key perMinute burst now).1,
        (m.getOrInsert key perMinute burst now).2) := by
  cases hget : (m.evict key).map.get key with
  | some b =>
    have hmem : (m.evict key).map.contains key = true := by
      rw [Table.contains, hget]
      rfl
    rw [getOrInsert_of_some hget]
    simp only [getMut, hmem, hget, Bool.true_eq_false, if_false]
  | none =>
    have hnew : (m.evict key).map.contains key = false := by
      rw [Table.contains, hget]
      rfl
    rw [getOrInsert_of_none hget]
    simp only [getMut, hnew, if_true]
    rw [Table.get_insert, if_pos rfl]

/-! ## The queue -/

namespace Inv

omit [DecidableEq κ] in
theorem mem_order (h : m.Inv) : k ∈ m.order ↔ k ∈ m.map.keys := h.order.mem_iff

omit [DecidableEq κ] in
theorem nodup (h : m.Inv) : m.order.Nodup := h.order.nodup_iff.mpr m.map.keys_nodup

omit [DecidableEq κ] in
theorem size_eq (h : m.Inv) : m.map.size = m.order.length := by
  rw [Table.size_eq_length_keys, h.order.length_eq]

theorem contains_eq_false (h : m.Inv) : m.map.contains k = false ↔ k ∉ m.order := by
  rw [h.mem_order, ← AList.mem_keys, ← AList.lookup_eq_none]
  exact Option.isSome_eq_false_iff.trans Option.isNone_iff_eq_none

theorem get_of_not_mem (h : m.Inv) (hk : k ∉ m.order) : m.map.get k = none :=
  AList.lookup_eq_none.mpr fun hmem => hk (h.mem_order.mpr hmem)

end Inv

theorem evict_of_mem (h : m.Inv) (hk : key ∈ m.order) : m.evict key = m := by
  apply evict_of_hasRoom
  refine Or.inr (Or.inl ?_)
  rw [← Bool.not_eq_false, h.contains_eq_false]
  exact fun hnot => hnot hk

theorem order_evict (h : m.Inv) (hk : key ∉ m.order) :
    (m.evict key).order = FifoQueue.makeRoom m.cap m.order := by
  have hcond : (m.cap > 0 ∧ m.map.contains key = false ∧ m.map.size ≥ m.cap) ↔
      FifoQueue.Full m.cap m.order := by
    rw [h.contains_eq_false, h.size_eq]
    exact ⟨fun hc => ⟨hc.1, hc.2.2⟩, fun hc => ⟨hc.1, hk, hc.2⟩⟩
  unfold evict FifoQueue.makeRoom
  by_cases hfull : FifoQueue.Full m.cap m.order
  · rw [if_pos hfull, if_pos (hcond.mpr hfull)]
    cases horder : m.order with
    | nil => exact horder
    | cons oldest order => rfl
  · rw [if_neg hfull, if_neg fun hc => hfull (hcond.mp hc)]

/-- Whoever is still in the queue has kept its bucket. -/
theorem get_evict (h : m.Inv) (hk : k ∈ (m.evict key).order) :
    (m.evict key).map.get k = m.map.get k := by
  revert hk
  unfold evict
  split
  · cases horder : m.order with
    | nil =>
      intro _
      rfl
    | cons oldest order =>
      intro hk
      have hne : k ≠ oldest := by
        rintro rfl
        have hnodup := h.nodup
        rw [horder] at hnodup
        exact (List.nodup_cons.mp hnodup).1 hk
      exact (Table.get_erase oldest k m.map).trans (if_neg hne)
  · intro _
    rfl

theorem get_evict_self (key : κ) (m : LruMap κ) : (m.evict key).map.get key = m.map.get key := by
  cases hget : m.map.get key with
  | some b =>
    have hmem : m.map.contains key = true := by
      rw [Table.contains, hget]
      rfl
    rw [evict_of_hasRoom (Or.inr (Or.inl hmem)), hget]
  | none =>
    unfold evict
    split
    · cases m.order with
      | nil => exact hget
      | cons oldest order =>
        refine (Table.get_erase oldest key m.map).trans ?_
        rw [hget, ite_self]
    · exact hget

theorem fst_getOrInsert (key : κ) (perMinute burst : Nat) (now : Instant) (m : LruMap κ) :
    (m.getOrInsert key perMinute burst now).1 =
      (m.map.get key).getD (.new perMinute burst now) := by
  rw [← get_evict_self key m]
  cases hget : (m.evict key).map.get key with
  | some b =>
    rw [getOrInsert_of_some hget]
    rfl
  | none =>
    rw [getOrInsert_of_none hget]
    rfl

theorem step_inv (h : m.Inv) (c : LruCall κ) : (m.step c).Inv :=
  getOrInsert_inv h c.key c.perMinute c.burst c.now _

theorem cap_step (m : LruMap κ) (c : LruCall κ) : (m.step c).cap = m.cap :=
  cap_getOrInsert m c.key c.perMinute c.burst c.now _

/-- A call is an admission to the queue. -/
theorem order_step (h : m.Inv) (c : LruCall κ) :
    (m.step c).order = FifoQueue.enter m.cap m.order c.key := by
  unfold step
  by_cases hk : c.key ∈ m.order
  · obtain ⟨b, hb⟩ := Table.get_of_mem_keys (h.mem_order.mp hk)
    have hevict := evict_of_mem h hk
    rw [FifoQueue.enter_of_mem hk, getOrInsert_of_some (hevict.symm ▸ hb), hevict]
    rfl
  · have hnone : (m.evict c.key).map.get c.key = none := by
      rw [get_evict_self]
      exact h.get_of_not_mem hk
    rw [FifoQueue.enter_of_not_mem hk, getOrInsert_of_none hnone, ← order_evict h hk]
    rfl

theorem get_step_self (m : LruMap κ) (c : LruCall κ) :
    (m.step c).map.get c.key = some (c.use ((m.map.get c.key).getD c.newBucket)) := by
  have hget : (m.step c).map.get c.key =
      some (c.use (m.getOrInsert c.key c.perMinute c.burst c.now).1) :=
    (Table.get_insert c.key c.key _ _).trans (if_pos rfl)
  rw [hget, fst_getOrInsert]
  rfl

/-- A call changes no other bucket that stays. -/
theorem get_step_of_ne (h : m.Inv) (c : LruCall κ) (hne : k ≠ c.key)
    (hk : k ∈ (m.step c).order) : (m.step c).map.get k = m.map.get k := by
  have hmid : ∀ (b : TokenBucket) (m' : LruMap κ),
      (m'.set c.key b).map.get k = m'.map.get k :=
    fun b m' => (Table.get_insert c.key k b m'.map).trans (if_neg hne)
  unfold step at hk ⊢
  cases hget : (m.evict c.key).map.get c.key with
  | some b =>
    rw [getOrInsert_of_some hget] at hk ⊢
    exact (hmid _ _).trans (get_evict h hk)
  | none =>
    rw [getOrInsert_of_none hget] at hk ⊢
    have hkept : k ∈ (m.evict c.key).order := by
      rcases List.mem_append.mp hk with hk | hk
      · exact hk
      · exact absurd (List.mem_singleton.mp hk) hne
    refine (hmid _ _).trans ?_
    exact ((Table.get_insert c.key k _ _).trans (if_neg hne)).trans (get_evict h hkept)

/-! ## Runs -/

theorem after_inv (h : m.Inv) (calls : List (LruCall κ)) : (m.after calls).Inv := by
  induction calls generalizing m with
  | nil => exact h
  | cons c calls ih => exact ih (step_inv h c)

theorem order_after (h : m.Inv) (calls : List (LruCall κ)) :
    (m.after calls).order = FifoQueue.run m.cap m.order (calls.map LruCall.key) := by
  induction calls generalizing m with
  | nil => rfl
  | cons c calls ih =>
    have hrest := ih (step_inv h c)
    rw [cap_step, order_step h] at hrest
    exact hrest

theorem cap_after (m : LruMap κ) (calls : List (LruCall κ)) : (m.after calls).cap = m.cap := by
  induction calls generalizing m with
  | nil => rfl
  | cons c calls ih => exact (ih (m.step c)).trans (cap_step m c)

/-- What is new to the map is new to the queue. -/
theorem fresh_eq (h : m.Inv) (key : κ) :
    (if m.map.contains key then [] else [key]) = FifoQueue.fresh m.order key := by
  by_cases hk : key ∈ m.order
  · rw [FifoQueue.fresh_of_mem hk, if_pos]
    rw [← Bool.not_eq_false, h.contains_eq_false]
    exact fun hnot => hnot hk
  · rw [FifoQueue.fresh_of_not_mem hk, h.contains_eq_false.mpr hk]
    rfl

theorem inserted_eq (h : m.Inv) (calls : List (LruCall κ)) :
    m.inserted calls = FifoQueue.entered m.cap m.order (calls.map LruCall.key) := by
  induction calls generalizing m with
  | nil => rfl
  | cons c calls ih =>
    rw [inserted, fresh_eq h, ih (step_inv h c), cap_step, order_step h]
    rfl

/-- A bucket with room behind it stays through the calls, which use it in order. -/
theorem get_after_of_behind (h : m.Inv) {n : Nat} {b : TokenBucket}
    (hbehind : FifoQueue.Behind m.order k n) (hget : m.map.get k = some b)
    (calls : List (LruCall κ)) (hroom : m.cap = 0 ∨ n + (m.inserted calls).length < m.cap) :
    (m.after calls).map.get k = some (usedBy k calls b) := by
  induction calls generalizing m n b with
  | nil => exact hget
  | cons c calls ih =>
    rw [inserted, fresh_eq h, List.length_append] at hroom
    have hnext : FifoQueue.Behind (m.step c).order k
        (n + (FifoQueue.fresh m.order c.key).length) := by
      rw [order_step h]
      apply hbehind.enter
      omega
    have hused : (m.step c).map.get k = some (if c.key = k then c.use b else b) := by
      by_cases hk : c.key = k
      · subst hk
        rw [get_step_self, hget, if_pos rfl]
        rfl
      · rw [get_step_of_ne h c (Ne.symm hk) hnext.mem, hget, if_neg hk]
    refine ih (step_inv h c) hnext hused ?_
    rw [cap_step]
    omega

end LruMap

open LruMap in
/-- After any calls: the queue lists the keys by their latest insertion, each once,
and no more than the cap; the lookup finds a bucket; that of an absent key is a
new one, and it stays until the cap has been inserted behind it. -/
theorem lru_first_in_first_out {κ : Type} [DecidableEq κ] (cap : Nat) (calls : List (LruCall κ)) :
    let m := (LruMap.new cap).after calls
    (∀ k, k ∈ m.map.keys ↔ k ∈ m.order) ∧ m.order.Nodup ∧
      m.order.Pairwise (FifoQueue.LatestBefore ((LruMap.new cap).inserted calls)) ∧
      (0 < cap → m.map.size ≤ cap) ∧
      ∀ c : LruCall κ,
        m.getMut c.key c.perMinute c.burst c.now =
          (some (m.getOrInsert c.key c.perMinute c.burst c.now).1,
            (m.getOrInsert c.key c.perMinute c.burst c.now).2) ∧
        (c.key ∉ m.map.keys →
          (m.getOrInsert c.key c.perMinute c.burst c.now).1 = .new c.perMinute c.burst c.now ∧
          ∀ later, cap = 0 ∨ ((m.step c).inserted later).length < cap →
            ((m.step c).after later).map.get c.key =
              some (usedBy c.key (c :: later) (.new c.perMinute c.burst c.now))) := by
  intro m
  have hinv : m.Inv := after_inv (new_inv cap) calls
  have horder : m.order = FifoQueue.run cap [] (calls.map LruCall.key) :=
    order_after (new_inv cap) calls
  refine ⟨fun k => hinv.mem_order.symm, hinv.nodup, ?_, ?_, ?_⟩
  · have hlog : (LruMap.new cap).inserted calls =
        FifoQueue.entered cap [] (calls.map LruCall.key) := inserted_eq (new_inv cap) calls
    apply FifoQueue.pairwise_latestBefore ?_ hinv.nodup
    rw [hlog, horder]
    exact FifoQueue.run_suffix [] _
  · intro hpos
    rw [hinv.size_eq, horder]
    apply FifoQueue.run_length_le hpos
    exact Nat.zero_le cap
  · intro c
    refine ⟨getMut_eq _ _ _ _ _, fun habsent => ?_⟩
    have hnew : c.key ∉ m.order := fun hmem => habsent (hinv.mem_order.mp hmem)
    have hnone := hinv.get_of_not_mem hnew
    refine ⟨?_, fun later hroom => ?_⟩
    · rw [fst_getOrInsert, hnone]
      rfl
    · have hbehind : FifoQueue.Behind (m.step c).order c.key 0 := by
        rw [order_step hinv]
        exact FifoQueue.behind_enter_self hnew
      have hget := get_step_self m c
      rw [hnone] at hget
      have hkept := get_after_of_behind (step_inv hinv c) hbehind hget later
      rw [cap_step, cap_after, Nat.zero_add] at hkept
      rw [hkept hroom, usedBy, usedBy, List.foldl_cons, if_pos rfl]
      rfl

end HttpSmtpRele
