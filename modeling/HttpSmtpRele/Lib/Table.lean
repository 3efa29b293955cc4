import Mathlib.Data.List.AList

/-!
# Tables

A hash map is a Mathlib `AList` with values of one type: at most one entry per
key.  Added here are the in-place update, the retain filter and the removal of a
list of keys, each with its effect on `get`, which is all a client sees.

The order in which a hash map is iterated is not specified; `IterOrder` is any
such order.
-/

abbrev Table (κ ν : Type) := AList fun _ : κ => ν

namespace Table

variable {κ ν : Type}

def size (t : Table κ ν) : Nat := t.entries.length

/-- `retain`: keep the entries that satisfy `p`. -/
def retain (p : κ → ν → Bool) (t : Table κ ν) : Table κ ν where
  entries := t.entries.filter fun e => p e.1 e.2
  nodupKeys := t.nodupKeys.sublist List.filter_sublist

theorem size_retain_le (p : κ → ν → Bool) (t : Table κ ν) : (retain p t).size ≤ t.size :=
  List.length_filter_le _ _

/-- The number of entries that satisfy `p`. -/
def count (p : κ → ν → Bool) (t : Table κ ν) : Nat := t.entries.countP fun e => p e.1 e.2

theorem size_retain (p : κ → ν → Bool) (t : Table κ ν) : (retain p t).size = t.count p :=
  List.countP_eq_length_filter.symm

theorem count_add_count_not (p : κ → ν → Bool) (t : Table κ ν) :
    t.count p + t.count (fun k v => !p k v) = t.size := by
  have hnot : t.count (fun k v => !p k v) =
      t.entries.countP fun e : Σ _ : κ, ν => decide ¬p e.1 e.2 = true :=
    List.countP_congr fun e _ => by simp
  rw [hnot]
  exact (List.length_eq_countP_add_countP fun e : Σ _ : κ, ν => p e.1 e.2).symm

/-- An order to iterate in: the entries, rearranged. -/
structure IterOrder (κ ν : Type) where
  arrange : List (Σ _ : κ, ν) → List (Σ _ : κ, ν)
  perm : ∀ l, (arrange l).Perm l

/-- The order the entries are stored in. -/
def IterOrder.id (κ ν : Type) : IterOrder κ ν := ⟨fun l => l, fun l => List.Perm.refl l⟩

variable [DecidableEq κ]

/-- `AList.lookup` at the common type of the values. -/
def get (k : κ) (t : Table κ ν) : Option ν := AList.lookup k t

def contains (k : κ) (t : Table κ ν) : Bool := (t.get k).isSome

/-- `get_mut` followed by an assignment. -/
def modify (k : κ) (f : ν → ν) (t : Table κ ν) : Table κ ν :=
  match t.get k with
  | some v => t.insert k (f v)
  | none => t

def eraseAll (ks : List κ) (t : Table κ ν) : Table κ ν := ks.foldl (fun t k => t.erase k) t

@[simp] theorem get_empty (k : κ) : (∅ : Table κ ν).get k = none := rfl

theorem get_eq_some_iff {k : κ} {v : ν} {t : Table κ ν} :
    t.get k = some v ↔ (⟨k, v⟩ : Σ _ : κ, ν) ∈ t.entries :=
  AList.mem_lookup_iff

theorem get_insert (k k' : κ) (v : ν) (t : Table κ ν) :
    Table.get k' (t.insert k v) = if k' = k then some v else t.get k' := by
  by_cases h : k' = k
  · rw [if_pos h, h]
    exact AList.lookup_insert t
  · rw [if_neg h]
    exact AList.lookup_insert_ne h

theorem get_modify (k k' : κ) (f : ν → ν) (t : Table κ ν) :
    (modify k f t).get k' = if k' = k then (t.get k').map f else t.get k' := by
  unfold modify
  cases h : t.get k with
  | none =>
    by_cases hk : k' = k
    · simp [hk, h]
    · simp [hk]
  | some v =>
    apply (get_insert k k' (f v) t).trans
    by_cases hk : k' = k
    · simp [hk, h]
    · simp [hk]

theorem get_retain (p : κ → ν → Bool) (k : κ) (t : Table κ ν) :
    (retain p t).get k = (t.get k).filter (p k) := by
  ext v
  rw [Option.filter_eq_some_iff, get_eq_some_iff, get_eq_some_iff]
  simp [retain]

theorem get_erase (k k' : κ) (t : Table κ ν) :
    Table.get k' (AList.erase k t) = if k' = k then none else t.get k' := by
  by_cases h : k' = k
  · rw [if_pos h, h]
    exact AList.lookup_erase k t
  · rw [if_neg h]
    exact AList.lookup_erase_ne h

theorem get_eraseAll (ks : List κ) (k : κ) (t : Table κ ν) :
    (eraseAll ks t).get k = if k ∈ ks then none else t.get k := by
  induction ks generalizing t with
  | nil => simp [eraseAll]
  | cons k' ks ih =>
    rw [eraseAll, List.foldl_cons, ← eraseAll, ih, get_erase]
    by_cases hk : k = k' <;> by_cases hks : k ∈ ks <;> simp [hk, hks]

/-! ## Size -/

omit [DecidableEq κ] in
theorem size_eq_length_keys (t : Table κ ν) : t.size = t.keys.length := by
  simp [AList.keys, List.keys, size]

theorem mem_keys_of_get {k : κ} {v : ν} {t : Table κ ν} (h : t.get k = some v) : k ∈ t.keys := by
  apply AList.lookup_isSome.mp
  show (t.get k).isSome = true
  rw [h]
  rfl

theorem size_erase {k : κ} {t : Table κ ν} (h : k ∈ t.keys) :
    size (AList.erase k t) + 1 = t.size := by
  rw [size_eq_length_keys, size_eq_length_keys, AList.keys_erase]
  exact List.length_erase_add_one h

theorem get_of_mem_keys {k : κ} {t : Table κ ν} (h : k ∈ t.keys) : ∃ v, t.get k = some v :=
  Option.isSome_iff_exists.mp (AList.lookup_isSome.mpr (AList.mem_keys.mpr h))

theorem size_pos_of_isSome {k : κ} {t : Table κ ν} (h : (t.get k).isSome = true) :
    0 < t.size := by
  obtain ⟨v, hv⟩ := Option.isSome_iff_exists.mp h
  rw [size_eq_length_keys]
  exact List.length_pos_of_mem (mem_keys_of_get hv)

theorem count_congr {p q : κ → ν → Bool} {t : Table κ ν}
    (h : ∀ k v, t.get k = some v → p k v = q k v) : t.count p = t.count q :=
  List.countP_congr fun e he => by rw [h e.1 e.2 (get_eq_some_iff.mpr he)]

theorem count_eq_zero {p : κ → ν → Bool} {t : Table κ ν}
    (h : ∀ k v, t.get k = some v → p k v = false) : t.count p = 0 :=
  List.countP_eq_zero.mpr fun e he => by simp [h e.1 e.2 (get_eq_some_iff.mpr he)]

/-- At most one entry has the key. -/
theorem count_key_le_one (k : κ) (p : ν → Bool) (t : Table κ ν) :
    t.count (fun k' v => decide (k' = k) && p v) ≤ 1 := by
  have hle : t.count (fun k' v => decide (k' = k) && p v) ≤ t.keys.count k := by
    rw [count, AList.keys, List.keys, List.count, List.countP_map]
    apply List.countP_mono_left
    intro e _ he
    simp only [Bool.and_eq_true, decide_eq_true_eq] at he
    simp [he.1]
  have hnodup := List.nodup_iff_count_le_one.mp t.keys_nodup k
  omega

theorem count_key_eq_one {k : κ} {v : ν} {p : ν → Bool} {t : Table κ ν} (h : t.get k = some v)
    (hp : p v = true) : t.count (fun k' v => decide (k' = k) && p v) = 1 := by
  have hle := count_key_le_one k p t
  have hpos : 0 < t.count fun k' v => decide (k' = k) && p v :=
    List.countP_pos_iff.mpr ⟨⟨k, v⟩, get_eq_some_iff.mp h, by simp [hp]⟩
  omega

theorem not_mem_keys_of_get {k : κ} {t : Table κ ν} (h : t.get k = none) : k ∉ t.keys := by
  intro hk
  have hsome : (t.get k).isSome = true := AList.lookup_isSome.mpr (AList.mem_keys.mpr hk)
  rw [h] at hsome
  cases hsome

theorem size_insert_of_mem {k : κ} {t : Table κ ν} (h : k ∈ t.keys) (v : ν) :
    size (AList.insert k v t) = t.size := by
  rw [size_eq_length_keys, size_eq_length_keys, AList.keys_insert]
  exact List.length_erase_add_one h

theorem size_insert_of_not_mem {k : κ} {t : Table κ ν} (h : k ∉ t.keys) (v : ν) :
    size (AList.insert k v t) = t.size + 1 := by
  rw [size_eq_length_keys, size_eq_length_keys, AList.keys_insert, List.erase_of_not_mem h]
  rfl

theorem size_modify (k : κ) (f : ν → ν) (t : Table κ ν) : (modify k f t).size = t.size := by
  unfold modify
  cases h : t.get k with
  | none => rfl
  | some v => exact size_insert_of_mem (mem_keys_of_get h) (f v)

theorem size_eraseAll {ks : List κ} {t : Table κ ν} (hnodup : ks.Nodup)
    (hmem : ∀ k ∈ ks, k ∈ t.keys) : (eraseAll ks t).size + ks.length = t.size := by
  induction ks generalizing t with
  | nil => rfl
  | cons k ks ih =>
    have hk : k ∈ t.keys := hmem k List.mem_cons_self
    have hrest : ∀ k' ∈ ks, k' ∈ (AList.erase k t).keys := by
      intro k' hk'
      have hne : k' ≠ k := by
        rintro rfl
        exact (List.nodup_cons.mp hnodup).1 hk'
      rw [AList.keys_erase]
      exact (List.mem_erase_of_ne hne).mpr (hmem k' (List.mem_cons_of_mem k hk'))
    have hsize := ih (List.nodup_cons.mp hnodup).2 hrest
    have herase := size_erase hk
    show (eraseAll ks (AList.erase k t)).size + (k :: ks).length = t.size
    rw [List.length_cons]
    omega

/-- A table with no other keys is no larger. -/
theorem size_le_of_get {t t' : Table κ ν} (h : ∀ k v, t'.get k = some v → ∃ w, t.get k = some w) :
    t'.size ≤ t.size := by
  have hkeys : t'.keys ⊆ t.keys := by
    intro k hk
    obtain ⟨e, he, rfl⟩ := List.mem_map.mp hk
    obtain ⟨w, hw⟩ := h e.1 e.2 (get_eq_some_iff.mpr he)
    exact List.mem_map.mpr ⟨⟨e.1, w⟩, get_eq_some_iff.mp hw, rfl⟩
  have hlen : t'.keys.length ≤ t.keys.length :=
    (List.subperm_of_subset t'.keys_nodup hkeys).length_le
  rwa [← size_eq_length_keys, ← size_eq_length_keys] at hlen

end Table
