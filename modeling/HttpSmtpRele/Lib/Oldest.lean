import Mathlib.Data.List.Sort
import HttpSmtpRele.Lib.Table

/-!
# The oldest entries of a table

The first `n` entries in the order `r` of their values, those that compare
equal in any order.  Removing them leaves a table that is `n` smaller, and
every entry removed comes before every entry that stays.
-/

namespace Table

variable {κ ν : Type} {r : ν → ν → Prop} [DecidableRel r]

/-- The entries in the order `r` of their values. -/
def byAge (r : ν → ν → Prop) [DecidableRel r] (order : IterOrder κ ν) (t : Table κ ν) :
    List (Σ _ : κ, ν) :=
  (order.arrange t.entries).insertionSort fun a b => r a.2 b.2

/-- The keys of the first `n`. -/
def oldest (r : ν → ν → Prop) [DecidableRel r] (order : IterOrder κ ν) (n : Nat)
    (t : Table κ ν) : List κ :=
  ((t.byAge r order).take n).map Sigma.fst

theorem byAge_perm (order : IterOrder κ ν) (t : Table κ ν) :
    (t.byAge r order).Perm t.entries :=
  (List.perm_insertionSort _ _).trans (order.perm _)

theorem length_oldest (order : IterOrder κ ν) (n : Nat) (t : Table κ ν) :
    (t.oldest r order n).length = min n t.size := by
  rw [oldest, List.length_map, List.length_take, (byAge_perm order t).length_eq]
  rfl

theorem nodup_oldest (order : IterOrder κ ν) (n : Nat) (t : Table κ ν) :
    (t.oldest r order n).Nodup := by
  have hall : ((t.byAge r order).map Sigma.fst).Nodup :=
    ((byAge_perm order t).map Sigma.fst).nodup_iff.mpr t.nodupKeys
  exact hall.sublist ((List.take_sublist n _).map Sigma.fst)

theorem mem_keys_of_mem_oldest {order : IterOrder κ ν} {n : Nat} {t : Table κ ν} {k : κ}
    (h : k ∈ t.oldest r order n) : k ∈ t.keys := by
  obtain ⟨e, he, rfl⟩ := List.mem_map.mp h
  exact List.mem_map.mpr ⟨e, (byAge_perm order t).mem_iff.mp (List.mem_of_mem_take he), rfl⟩

variable [DecidableEq κ]

theorem size_eraseAll_oldest (order : IterOrder κ ν) (n : Nat) (t : Table κ ν) :
    (t.eraseAll (t.oldest r order n)).size = t.size - n := by
  have h := size_eraseAll (nodup_oldest (r := r) order n t) fun _ hk => mem_keys_of_mem_oldest hk
  rw [length_oldest] at h
  omega

/-- What is removed comes before what stays. -/
theorem oldest_le [Std.Total r] [IsTrans ν r] {order : IterOrder κ ν} {n : Nat} {t : Table κ ν}
    {k k' : κ} {v v' : ν} (hk : k ∈ t.oldest r order n) (hv : t.get k = some v)
    (hk' : k' ∉ t.oldest r order n) (hv' : t.get k' = some v') : r v v' := by
  have : Std.Total fun a b : Σ _ : κ, ν => r a.2 b.2 := ⟨fun a b => Std.Total.total a.2 b.2⟩
  have : IsTrans (Σ _ : κ, ν) fun a b => r a.2 b.2 := ⟨fun a b c => IsTrans.trans a.2 b.2 c.2⟩
  have hsorted : (t.byAge r order).Pairwise fun a b => r a.2 b.2 :=
    List.pairwise_insertionSort _ _
  rw [← List.take_append_drop n (t.byAge r order)] at hsorted
  have hcross := (List.pairwise_append.mp hsorted).2.2
  obtain ⟨e, he, rfl⟩ := List.mem_map.mp hk
  have hev : e.2 = v := by
    have hmem := (byAge_perm order t).mem_iff.mp (List.mem_of_mem_take he)
    exact Option.some.inj ((get_eq_some_iff.mpr hmem).symm.trans hv)
  have hdrop : (⟨k', v'⟩ : Σ _ : κ, ν) ∈ (t.byAge r order).drop n := by
    have hmem := (byAge_perm (r := r) order t).mem_iff.mpr (get_eq_some_iff.mp hv')
    rw [← List.take_append_drop n (t.byAge r order), List.mem_append] at hmem
    rcases hmem with htake | hdrop
    · exact absurd (List.mem_map.mpr ⟨_, htake, rfl⟩) hk'
    · exact hdrop
  have hr := hcross e he _ hdrop
  rwa [hev] at hr

theorem eraseAll_oldest_le [Std.Total r] [IsTrans ν r] {order : IterOrder κ ν} {n : Nat}
    {t : Table κ ν} {k k' : κ} {v v' : ν} (hv : t.get k = some v)
    (hgone : (t.eraseAll (t.oldest r order n)).get k = none)
    (hkept : (t.eraseAll (t.oldest r order n)).get k' = some v') : r v v' := by
  rw [get_eraseAll] at hgone hkept
  by_cases hk : k ∈ t.oldest r order n
  · by_cases hk' : k' ∈ t.oldest r order n
    · rw [if_pos hk'] at hkept
      cases hkept
    · rw [if_neg hk'] at hkept
      exact oldest_le hk hv hk' hkept
  · rw [if_neg hk, hv] at hgone
    cases hgone

/-! ## Ties -/

/-- The order that visits `e` first. -/
def IterOrder.first [DecidableEq ν] (e : Σ _ : κ, ν) : IterOrder κ ν where
  arrange l := if e ∈ l then e :: l.erase e else l
  perm l := by
    split
    · exact (List.perm_cons_erase ‹_›).symm
    · exact List.Perm.refl l

/-- An entry that no other comes before is the oldest in some order. -/
theorem mem_oldest_first [DecidableEq ν] {k : κ} {v : ν} {n : Nat} {t : Table κ ν}
    (hv : t.get k = some v) (hmin : ∀ k' v', t.get k' = some v' → r v v') (hn : 0 < n) :
    k ∈ t.oldest r (.first ⟨k, v⟩) n := by
  have hmem : (⟨k, v⟩ : Σ _ : κ, ν) ∈ t.entries := get_eq_some_iff.mp hv
  have hhead : ∃ rest, t.byAge r (.first ⟨k, v⟩) = ⟨k, v⟩ :: rest := by
    simp only [byAge, IterOrder.first, if_pos hmem, List.insertionSort_cons]
    have hall : ∀ e ∈ (t.entries.erase ⟨k, v⟩).insertionSort fun a b => r a.2 b.2, r v e.2 := by
      intro e he
      have he' := List.mem_of_mem_erase (List.mem_insertionSort _ |>.mp he)
      exact hmin e.1 e.2 (get_eq_some_iff.mpr he')
    cases hrest : (t.entries.erase ⟨k, v⟩).insertionSort fun a b => r a.2 b.2 with
    | nil => exact ⟨[], rfl⟩
    | cons b rest =>
      have hb : r v b.2 := hall b (hrest ▸ List.mem_cons_self)
      exact ⟨b :: rest, by simp [List.orderedInsert, hb]⟩
  obtain ⟨rest, hrest⟩ := hhead
  obtain ⟨m, rfl⟩ := Nat.exists_eq_succ_of_ne_zero (Nat.pos_iff_ne_zero.mp hn)
  rw [oldest, hrest]
  exact List.mem_map.mpr ⟨⟨k, v⟩, List.mem_cons_self, rfl⟩

end Table
