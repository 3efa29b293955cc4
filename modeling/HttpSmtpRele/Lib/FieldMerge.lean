import Mathlib.Data.List.Basic

/-!
# Field-wise merges

A record is read field by field.  A merge keeps the fields of one kind as they
are in force and takes the others from a new record; a report names changed
fields, out of a selection of its own.  What a report promises about the merge
holds exactly where the two selections agree.  A run of merges forgets all but
the first record and the last.
-/

structure FieldMerge (σ κ ν : Type) where
  get : κ → σ → ν
  /-- The fields determine the record. -/
  ext : ∀ {a b : σ}, (∀ k, get k a = get k b) → a = b
  kept : κ → Bool
  merge : σ → σ → σ
  get_merge : ∀ k cur new, get k (merge cur new) = if kept k = true then get k cur else get k new

namespace FieldMerge

variable {σ κ ν ε : Type} (M : FieldMerge σ κ ν)

theorem get_merge_of_kept {k : κ} (h : M.kept k = true) (cur new : σ) :
    M.get k (M.merge cur new) = M.get k cur := by
  rw [M.get_merge, if_pos h]

theorem get_merge_of_taken {k : κ} (h : M.kept k = false) (cur new : σ) :
    M.get k (M.merge cur new) = M.get k new := by
  rw [M.get_merge, h]
  rfl

/-- Only what the last merge took, and what was never taken, is left. -/
theorem merge_merge (cur a b : σ) : M.merge (M.merge cur a) b = M.merge cur b := by
  apply M.ext
  intro k
  cases hk : M.kept k with
  | true => rw [M.get_merge_of_kept hk, M.get_merge_of_kept hk, M.get_merge_of_kept hk]
  | false => rw [M.get_merge_of_taken hk, M.get_merge_of_taken hk]

/-! ## Reports -/

/-- Every changed field that is in the report keeps its value in force, exactly
if no changed field of the report is one that is taken. -/
theorem reported_kept_iff (reported : κ → Prop) (cur new : σ) :
    (∀ k, reported k → M.get k cur ≠ M.get k new → M.get k (M.merge cur new) = M.get k cur) ↔
      ∀ k, reported k → M.kept k = false → M.get k cur = M.get k new := by
  constructor
  · intro h k hrep hk
    by_contra hne
    have hkept := h k hrep hne
    rw [M.get_merge_of_taken hk] at hkept
    exact hne hkept.symm
  · intro h k hrep hne
    cases hk : M.kept k with
    | true => exact M.get_merge_of_kept hk cur new
    | false => exact absurd (h k hrep hk) hne

/-- Every field whose new value is not taken is reported, exactly if no changed
field that is kept is missing from the report. -/
theorem dropped_reported_iff (reported : κ → Prop) (cur new : σ) :
    (∀ k, M.get k (M.merge cur new) ≠ M.get k new → reported k ∧ M.get k cur ≠ M.get k new) ↔
      ∀ k, M.kept k = true → ¬reported k → M.get k cur = M.get k new := by
  constructor
  · intro h k hk hrep
    by_contra hne
    rw [← M.get_merge_of_kept hk cur new] at hne
    exact hrep (h k hne).1
  · intro h k hdropped
    cases hk : M.kept k with
    | false => exact absurd (M.get_merge_of_taken hk cur new) hdropped
    | true =>
      rw [M.get_merge_of_kept hk] at hdropped
      refine ⟨?_, hdropped⟩
      by_contra hrep
      exact hdropped (h k hk hrep)

/-! ## Runs -/

/-- A load that fails leaves the record in force. -/
def reload (s : σ) : Except ε σ → σ
  | .ok new => M.merge s new
  | .error _ => s

def run (s : σ) (loads : List (Except ε σ)) : σ := loads.foldl M.reload s

/-- The last record that was loaded. -/
def lastLoaded : List (Except ε σ) → Option σ
  | [] => none
  | .ok new :: loads => (lastLoaded loads).or (some new)
  | .error _ :: loads => lastLoaded loads

theorem run_eq (s : σ) (loads : List (Except ε σ)) :
    M.run s loads = (lastLoaded loads).elim s (M.merge s) := by
  unfold run
  induction loads generalizing s with
  | nil => rfl
  | cons load loads ih =>
    rw [List.foldl_cons, ih]
    cases load with
    | error e => rfl
    | ok new =>
      rw [reload, lastLoaded]
      cases lastLoaded loads with
      | none => rfl
      | some last => exact M.merge_merge s new last

/-- What every merge preserves holds after every run. -/
theorem run_preserves {P : σ → Prop} (hmerge : ∀ cur new, P cur → P new → P (M.merge cur new))
    {s : σ} (hs : P s) {loads : List (Except ε σ)} (hloads : ∀ new, .ok new ∈ loads → P new) :
    P (M.run s loads) := by
  unfold run
  induction loads generalizing s with
  | nil => exact hs
  | cons load loads ih =>
    rw [List.foldl_cons]
    refine ih ?_ fun new h => hloads new (List.mem_cons_of_mem _ h)
    cases load with
    | error e => exact hs
    | ok new => exact hmerge s new hs (hloads new List.mem_cons_self)

end FieldMerge
