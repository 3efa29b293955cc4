import Mathlib.Algebra.Order.Field.Basic
import Mathlib.Tactic.Linarith
import Mathlib.Tactic.NormNum
import Mathlib.Tactic.Ring

/-!
# The envelope of a rate and a burst

Something is taken at instants.  The envelope allows, in the window from `s` to
`u`, the burst and what the rate adds in that time.  `Level` says that a number
is what can be taken now: the least room that is left in any window which ends
now and starts after `birth`.  A level that is refilled at the rate, up to the
burst, and lowered by one at each taking stays that number, however seldom it is
refilled.
-/

structure RateEnvelope (T K : Type) [LinearOrder T] [Field K] [LinearOrder K]
    [IsStrictOrderedRing K] where
  burst : K
  rate : K
  /-- the time of an instant, in the unit of the rate -/
  clock : T → K
  burst_nonneg : 0 ≤ burst
  rate_nonneg : 0 ≤ rate
  clock_mono : Monotone clock

namespace RateEnvelope

variable {T K : Type} [LinearOrder T] [Field K] [LinearOrder K] [IsStrictOrderedRing K]
variable (E : RateEnvelope T K) {birth s u now now' : T} {takes : List T} {level : K}

/-- What the envelope allows from `s` to `u`. -/
def allowed (s u : T) : K := E.burst + E.rate * (E.clock u - E.clock s)

def takenSince (takes : List T) (s : T) : Nat := takes.countP fun t => s ≤ t

def takenWithin (takes : List T) (s u : T) : Nat := takes.countP fun t => s ≤ t ∧ t ≤ u

/-- One more at `now` keeps every window that ends now within the envelope. -/
def Fits (birth : T) (takes : List T) (now : T) : Prop :=
  ∀ s, birth ≤ s → s ≤ now → (takenSince takes s : K) + 1 ≤ E.allowed s now

/-- Each was taken when it fitted, the last one first. -/
def Conforms (birth : T) : List T → Prop
  | [] => True
  | t :: takes => (birth ≤ t ∧ ∀ t' ∈ takes, t' ≤ t) ∧ E.Fits birth takes t ∧ Conforms birth takes

structure Level (birth : T) (takes : List T) (now : T) (level : K) : Prop where
  past : ∀ t ∈ takes, t ≤ now
  le : ∀ s, birth ≤ s → s ≤ now → level + takenSince takes s ≤ E.allowed s now
  attained : ∃ s, birth ≤ s ∧ s ≤ now ∧ level + takenSince takes s = E.allowed s now

theorem allowed_self (s : T) : E.allowed s s = E.burst := by
  unfold allowed
  rw [sub_self, mul_zero, add_zero]

theorem allowed_add (s now now' : T) :
    E.allowed s now' = E.allowed s now + E.rate * (E.clock now' - E.clock now) := by
  unfold allowed
  ring

/-- A longer window allows more. -/
theorem allowed_mono {s s' u u' : T} (hs : s' ≤ s) (hu : u ≤ u') :
    E.allowed s u ≤ E.allowed s' u' := by
  have hspan : E.clock u - E.clock s ≤ E.clock u' - E.clock s' :=
    sub_le_sub (E.clock_mono hu) (E.clock_mono hs)
  have := mul_le_mul_of_nonneg_left hspan E.rate_nonneg
  unfold allowed
  linarith

theorem burst_le_allowed (h : s ≤ u) : E.burst ≤ E.allowed s u := by
  rw [← E.allowed_self s]
  exact E.allowed_mono le_rfl h

theorem takenSince_eq_zero (h : ∀ t ∈ takes, t < s) : takenSince takes s = 0 := by
  apply List.countP_eq_zero.mpr
  intro t ht
  simpa using h t ht

theorem takenSince_cons (h : s ≤ now) : takenSince (now :: takes) s = takenSince takes s + 1 := by
  unfold takenSince
  rw [List.countP_cons_of_pos]
  simpa using h

namespace Level

variable {E}

theorem initial (birth : T) : E.Level birth [] birth E.burst := by
  constructor
  · intro t ht
    cases ht
  · intro s _ hs
    have : takenSince ([] : List T) s = 0 := rfl
    rw [this, Nat.cast_zero, add_zero]
    exact E.burst_le_allowed hs
  · refine ⟨birth, le_rfl, le_rfl, ?_⟩
    have : takenSince ([] : List T) birth = 0 := rfl
    rw [this, Nat.cast_zero, add_zero, E.allowed_self]

theorem birth_le (h : E.Level birth takes now level) : birth ≤ now := by
  obtain ⟨s, hs, hnow, -⟩ := h.attained
  exact hs.trans hnow

/-- Refilled late, the level is what continuous refilling would have given. -/
theorem refill (h : E.Level birth takes now level) (hnow : now ≤ now') :
    E.Level birth takes now'
      (min (level + E.rate * (E.clock now' - E.clock now)) E.burst) := by
  constructor
  · intro t ht
    exact (h.past t ht).trans hnow
  · intro s hs hs'
    rcases le_or_gt s now with hold | hnew
    · have hle := h.le s hs hold
      have hmin := min_le_left (level + E.rate * (E.clock now' - E.clock now)) E.burst
      rw [E.allowed_add s now now']
      linarith
    · -- nothing was taken after `now`
      have hzero : takenSince takes s = 0 :=
        takenSince_eq_zero fun t ht => (h.past t ht).trans_lt hnew
      rw [hzero, Nat.cast_zero, add_zero]
      exact (min_le_right _ _).trans (E.burst_le_allowed hs')
  · rcases le_total (level + E.rate * (E.clock now' - E.clock now)) E.burst with hle | hfull
    · obtain ⟨s, hs, hs', heq⟩ := h.attained
      refine ⟨s, hs, hs'.trans hnow, ?_⟩
      rw [min_eq_left hle, E.allowed_add s now now', ← heq]
      ring
    · -- the bucket is full: the window that starts now is the tightest
      refine ⟨now', h.birth_le.trans hnow, le_rfl, ?_⟩
      have hzero : takenSince takes now' = 0 := by
        rcases hnow.eq_or_lt with heq | hlt
        · subst heq
          have hself := h.le now h.birth_le le_rfl
          rw [E.allowed_self] at hself
          rw [sub_self, mul_zero, add_zero] at hfull
          have : (takenSince takes now : K) ≤ 0 := by linarith
          exact Nat.cast_eq_zero.mp (le_antisymm this (Nat.cast_nonneg _))
        · exact takenSince_eq_zero fun t ht => (h.past t ht).trans_lt hlt
      rw [min_eq_right hfull, hzero, Nat.cast_zero, add_zero, E.allowed_self]

theorem take (h : E.Level birth takes now level) :
    E.Level birth (now :: takes) now (level - 1) := by
  constructor
  · intro t ht
    rcases List.mem_cons.mp ht with rfl | ht
    · exact le_rfl
    · exact h.past t ht
  · intro s hs hs'
    have hle := h.le s hs hs'
    rw [takenSince_cons hs', Nat.cast_succ]
    linarith
  · obtain ⟨s, hs, hs', heq⟩ := h.attained
    refine ⟨s, hs, hs', ?_⟩
    rw [takenSince_cons hs', Nat.cast_succ]
    linarith

theorem one_le_iff (h : E.Level birth takes now level) : 1 ≤ level ↔ E.Fits birth takes now := by
  constructor
  · intro hlevel s hs hs'
    have hle := h.le s hs hs'
    linarith
  · intro hfits
    obtain ⟨s, hs, hs', heq⟩ := h.attained
    have hfit := hfits s hs hs'
    linarith

end Level

namespace Conforms

variable {E}

theorem birth_le (h : E.Conforms birth takes) : ∀ t ∈ takes, birth ≤ t := by
  induction takes with
  | nil =>
    intro t ht
    cases ht
  | cons t takes ih =>
    intro t' ht'
    rcases List.mem_cons.mp ht' with rfl | ht'
    · exact h.1.1
    · exact ih h.2.2 t' ht'

/-- No window at all holds more than the envelope allows. -/
theorem takenWithin_le (h : E.Conforms birth takes) (hsu : s ≤ u) :
    (takenWithin takes s u : K) ≤ E.allowed s u := by
  induction takes with
  | nil =>
    have : takenWithin ([] : List T) s u = 0 := rfl
    rw [this, Nat.cast_zero]
    exact E.burst_nonneg.trans (E.burst_le_allowed hsu)
  | cons t takes ih =>
    obtain ⟨⟨hbirth, hlast⟩, hfits, hconforms⟩ := h
    by_cases hin : s ≤ t ∧ t ≤ u
    · -- the window is cut at the last taking and at the birth
      have hcount : takenWithin (t :: takes) s u ≤ takenSince takes (max birth s) + 1 := by
        unfold takenWithin takenSince
        rw [List.countP_cons_of_pos (by simpa using hin)]
        refine Nat.succ_le_succ (List.countP_mono_left fun t' ht' hwithin => ?_)
        have hs' : s ≤ t' := by
          have := of_decide_eq_true hwithin
          exact this.1
        simpa using ⟨birth_le hconforms t' ht', hs'⟩
      have hfit := hfits (max birth s) (le_max_left _ _) (max_le hbirth hin.1)
      have hmono := E.allowed_mono (le_max_right birth s) hin.2
      have hcast : (takenWithin (t :: takes) s u : K) ≤ takenSince takes (max birth s) + 1 := by
        exact_mod_cast hcount
      linarith
    · have hcount : takenWithin (t :: takes) s u = takenWithin takes s u := by
        unfold takenWithin
        rw [List.countP_cons_of_neg]
        simpa using hin
      rw [hcount]
      exact ih hconforms

end Conforms

end RateEnvelope
