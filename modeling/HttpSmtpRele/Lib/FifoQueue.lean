import Mathlib.Data.List.Nodup

/-!
# A queue with a cap

Elements enter one after another.  One that is in the queue already stays
where it is; one that is not goes to the end, and if there is no room the first
one leaves.  A cap of zero means that there is always room.

The queue is the end of the list of entries (`run_suffix`), and an element
stays until as many others as the cap allows have come in behind it
(`Behind.enter`).
-/

namespace FifoQueue

variable {κ : Type} [DecidableEq κ] (cap : Nat)

def Full (q : List κ) : Prop := 0 < cap ∧ cap ≤ q.length

instance (q : List κ) : Decidable (Full cap q) := inferInstanceAs (Decidable (_ ∧ _))

/-- The queue, after the first one has left if it was full. -/
def makeRoom (q : List κ) : List κ := if Full cap q then q.tail else q

def enter (q : List κ) (k : κ) : List κ := if k ∈ q then q else makeRoom cap q ++ [k]

def run (q : List κ) (ks : List κ) : List κ := ks.foldl (enter cap) q

/-- What is new when `k` enters. -/
def fresh (q : List κ) (k : κ) : List κ := if k ∈ q then [] else [k]

/-- The elements that were not in the queue when they came, in order. -/
def entered : List κ → List κ → List κ
  | _, [] => []
  | q, k :: ks => fresh q k ++ entered (enter cap q k) ks

variable {cap} {q : List κ} {k : κ}

omit [DecidableEq κ] in
theorem makeRoom_suffix (q : List κ) : makeRoom cap q <:+ q := by
  unfold makeRoom
  split
  · exact List.tail_suffix q
  · exact List.suffix_refl q

theorem enter_of_mem (h : k ∈ q) : enter cap q k = q := if_pos h

theorem enter_of_not_mem (h : k ∉ q) : enter cap q k = makeRoom cap q ++ [k] := if_neg h

theorem fresh_of_mem (h : k ∈ q) : fresh q k = [] := if_pos h

theorem fresh_of_not_mem (h : k ∉ q) : fresh q k = [k] := if_neg h

theorem enter_suffix (q : List κ) (k : κ) : enter cap q k <:+ q ++ fresh q k := by
  by_cases hk : k ∈ q
  · rw [enter_of_mem hk, fresh_of_mem hk]
    exact ⟨[], (List.append_nil q).symm⟩
  · rw [enter_of_not_mem hk, fresh_of_not_mem hk]
    have hroom : makeRoom cap q <:+ q := makeRoom_suffix q
    obtain ⟨gone, hgone⟩ := hroom
    exact ⟨gone, by rw [← List.append_assoc, hgone]⟩

theorem enter_length_le (hcap : 0 < cap) (h : q.length ≤ cap) (k : κ) :
    (enter cap q k).length ≤ cap := by
  by_cases hk : k ∈ q
  · rw [enter_of_mem hk]
    exact h
  · rw [enter_of_not_mem hk, List.length_append, List.length_singleton]
    unfold makeRoom
    by_cases hfull : Full cap q
    · rw [if_pos hfull, List.length_tail]
      omega
    · rw [if_neg hfull]
      unfold Full at hfull
      omega

/-- The queue is the end of the admissions, the latest ones last. -/
theorem run_suffix (q ks : List κ) : run cap q ks <:+ q ++ entered cap q ks := by
  induction ks generalizing q with
  | nil =>
    exact ⟨[], (List.append_nil q).symm⟩
  | cons k ks ih =>
    have henter : enter cap q k <:+ q ++ fresh q k := enter_suffix q k
    obtain ⟨gone, hgone⟩ := henter
    obtain ⟨before, hbefore⟩ := ih (enter cap q k)
    refine ⟨gone ++ before, ?_⟩
    rw [entered, ← List.append_assoc, ← hgone, List.append_assoc, List.append_assoc, ← hbefore]
    rfl

theorem run_length_le (hcap : 0 < cap) (h : q.length ≤ cap) (ks : List κ) :
    (run cap q ks).length ≤ cap := by
  induction ks generalizing q with
  | nil => exact h
  | cons k ks ih => exact ih (enter_length_le hcap h k)

/-! ## Order -/

/-- In the list of admissions, `k'` comes after the last `k`. -/
def LatestBefore (log : List κ) (k k' : κ) : Prop :=
  ∃ before after, log = before ++ k :: after ∧ k ∉ after ∧ k' ∈ after

omit [DecidableEq κ] in
/-- The end of a list, if it has no duplicates, is in the order of the last occurrences. -/
theorem pairwise_latestBefore {log : List κ} (hsuffix : q <:+ log) (hnodup : q.Nodup) :
    q.Pairwise (LatestBefore log) := by
  induction q with
  | nil => exact List.Pairwise.nil
  | cons k q ih =>
    obtain ⟨hk, hq⟩ := List.nodup_cons.mp hnodup
    refine List.pairwise_cons.mpr ⟨?_, ih ((List.suffix_cons k q).trans hsuffix) hq⟩
    intro k' hk'
    obtain ⟨before, rfl⟩ := hsuffix
    exact ⟨before, q, rfl, hk, hk'⟩

/-! ## Residence -/

/-- `k` is in the queue, with `n` behind it. -/
def Behind (q : List κ) (k : κ) (n : Nat) : Prop :=
  ∃ before after, q = before ++ k :: after ∧ after.length = n

omit [DecidableEq κ] in
theorem Behind.mem {n : Nat} (h : Behind q k n) : k ∈ q := by
  obtain ⟨before, after, rfl, -⟩ := h
  exact List.mem_append_right before List.mem_cons_self

theorem behind_enter_self (h : k ∉ q) : Behind (enter cap q k) k 0 :=
  ⟨makeRoom cap q, [], enter_of_not_mem h, rfl⟩

/-- While fewer than the cap are behind it, it stays. -/
theorem Behind.enter {n : Nat} (h : Behind q k n) (k' : κ)
    (hroom : cap = 0 ∨ n + (fresh q k').length < cap) :
    Behind (FifoQueue.enter cap q k') k (n + (fresh q k').length) := by
  by_cases hk' : k' ∈ q
  · rw [enter_of_mem hk', fresh_of_mem hk']
    exact h
  · rw [enter_of_not_mem hk']
    rw [fresh_of_not_mem hk'] at hroom ⊢
    obtain ⟨before, after, rfl, rfl⟩ := h
    rw [List.length_singleton] at hroom ⊢
    unfold makeRoom
    by_cases hfull : Full cap (before ++ k :: after)
    · rw [if_pos hfull]
      obtain ⟨hcap, hlen⟩ := hfull
      cases before with
      | nil =>
        -- `k` would be the first of a full queue, with the cap less one behind it
        rw [List.nil_append, List.length_cons] at hlen
        omega
      | cons first before =>
        refine ⟨before, after ++ [k'], ?_, List.length_append⟩
        simp
    · rw [if_neg hfull]
      refine ⟨before, after ++ [k'], ?_, List.length_append⟩
      simp

end FifoQueue
