import Mathlib.Data.Nat.Find
import Mathlib.Order.Monotone.Basic

/-!
# The Gregorian calendar

The proleptic calendar from the year 0 on.  Days are numbered from 0000-01-01;
`ofDays` finds the date of a number, `dayNumber` the number of a date, and the
dates come in the order of their numbers.
-/

namespace Gregorian

def IsLeap (year : Nat) : Prop := year % 4 = 0 ∧ (year % 100 ≠ 0 ∨ year % 400 = 0)

instance (year : Nat) : Decidable (IsLeap year) :=
  inferInstanceAs (Decidable (year % 4 = 0 ∧ (year % 100 ≠ 0 ∨ year % 400 = 0)))

def daysInYear (year : Nat) : Nat := if IsLeap year then 366 else 365

def daysInMonth (year month : Nat) : Nat :=
  if month = 2 then if IsLeap year then 29 else 28
  else if month = 4 ∨ month = 6 ∨ month = 9 ∨ month = 11 then 30
  else 31

def leapsBefore (year : Nat) : Nat :=
  (year + 3) / 4 - (year + 99) / 100 + (year + 399) / 400

/-- The days of the years before this one. -/
def daysBeforeYear (year : Nat) : Nat := 365 * year + leapsBefore year

/-- The days of the first `k` months. -/
def daysBeforeMonth (year : Nat) : Nat → Nat
  | 0 => 0
  | k + 1 => daysBeforeMonth year k + daysInMonth year (k + 1)

structure Date where
  year : Nat
  month : Nat
  day : Nat
  month_pos : 1 ≤ month
  month_le : month ≤ 12
  day_pos : 1 ≤ day
  day_le : day ≤ daysInMonth year month

/-! ## Years and months -/

/-- The multiples of `k` below a number: one more after each of them. -/
theorem multiples_succ (y k : Nat) :
    (y + (k + 1)) / (k + 1) = (y + k) / (k + 1) + if y % (k + 1) = 0 then 1 else 0 := by
  have hdvd : (k + 1 ∣ y + k + 1) ↔ y % (k + 1) = 0 := by
    rw [Nat.add_assoc, Nat.dvd_add_left (Nat.dvd_refl (k + 1)), Nat.dvd_iff_mod_eq_zero]
  have hsucc : (y + k + 1) / (k + 1) = _ := Nat.succ_div
  simp only [hdvd] at hsucc
  exact hsucc

theorem leapsBefore_succ (year : Nat) :
    leapsBefore (year + 1) = leapsBefore year + if IsLeap year then 1 else 0 := by
  have hfour := multiples_succ year 3
  have hhundred := multiples_succ year 99
  have hfourHundred := multiples_succ year 399
  have hcentury : (year + 99) / 100 ≤ (year + 3) / 4 := by omega
  have hfourth : year % 100 = 0 → year % 4 = 0 := by omega
  have hcenturies : year % 400 = 0 → year % 100 = 0 := by omega
  show (year + 1 + 3) / 4 - (year + 1 + 99) / 100 + (year + 1 + 399) / 400 =
    (year + 3) / 4 - (year + 99) / 100 + (year + 399) / 400 + _
  rw [Nat.add_right_comm year 1 3, Nat.add_right_comm year 1 99, Nat.add_right_comm year 1 399,
    Nat.add_assoc year 3 1, Nat.add_assoc year 99 1, Nat.add_assoc year 399 1, hfour, hhundred,
    hfourHundred]
  generalize (year + 3) / 4 = fours at *
  generalize (year + 99) / 100 = hundreds at *
  generalize (year + 399) / 400 = fourHundreds at *
  by_cases h4 : year % 4 = 0
  · by_cases h100 : year % 100 = 0
    · by_cases h400 : year % 400 = 0
      · have hleap : IsLeap year := ⟨h4, Or.inr h400⟩
        rw [if_pos h4, if_pos h100, if_pos h400, if_pos hleap]
        omega
      · have hleap : ¬IsLeap year := fun h => h.2.elim (fun hne => hne h100) h400
        rw [if_pos h4, if_pos h100, if_neg h400, if_neg hleap]
        omega
    · have h400 : year % 400 ≠ 0 := fun h => h100 (hcenturies h)
      have hleap : IsLeap year := ⟨h4, Or.inl h100⟩
      rw [if_pos h4, if_neg h100, if_neg h400, if_pos hleap]
      omega
  · have h100 : year % 100 ≠ 0 := fun h => h4 (hfourth h)
    have h400 : year % 400 ≠ 0 := fun h => h100 (hcenturies h)
    have hleap : ¬IsLeap year := fun h => h4 h.1
    rw [if_neg h4, if_neg h100, if_neg h400, if_neg hleap]
    rfl

theorem daysBeforeYear_succ (year : Nat) :
    daysBeforeYear (year + 1) = daysBeforeYear year + daysInYear year := by
  have hleaps := leapsBefore_succ year
  unfold daysBeforeYear daysInYear
  split at hleaps
  · rename_i h
    rw [if_pos h]
    omega
  · rename_i h
    rw [if_neg h]
    omega

theorem daysBeforeYear_mono : Monotone daysBeforeYear := by
  apply monotone_nat_of_le_succ
  intro year
  rw [daysBeforeYear_succ]
  exact Nat.le_add_right _ _

/-- No year is shorter than 365 days. -/
theorem daysBeforeYear_ge (year : Nat) : 365 * year ≤ daysBeforeYear year :=
  Nat.le_add_right _ _

theorem daysBeforeMonth_mono (year : Nat) : Monotone (daysBeforeMonth year) := by
  apply monotone_nat_of_le_succ
  intro k
  exact Nat.le_add_right _ _

theorem daysBeforeMonth_twelve (year : Nat) : daysBeforeMonth year 12 = daysInYear year := by
  by_cases h : IsLeap year <;> simp [daysBeforeMonth, daysInMonth, daysInYear, h]

/-! ## The step of a sum that a number falls in -/

section Step

variable {f : Nat → Nat} {n bound : Nat}

theorem findGreatest_le (h0 : f 0 = 0) : f (Nat.findGreatest (f · ≤ n) bound) ≤ n := by
  have hzero : f 0 ≤ n := by
    rw [h0]
    exact Nat.zero_le n
  exact Nat.findGreatest_spec (P := (f · ≤ n)) (Nat.zero_le bound) hzero

theorem lt_findGreatest_succ (hbound : n < f (bound + 1)) :
    n < f (Nat.findGreatest (f · ≤ n) bound + 1) := by
  by_cases hend : Nat.findGreatest (f · ≤ n) bound = bound
  · rw [hend]
    exact hbound
  · have hle : Nat.findGreatest (f · ≤ n) bound ≤ bound := Nat.findGreatest_le bound
    have hnot := Nat.findGreatest_is_greatest (P := (f · ≤ n)) (Nat.lt_succ_self _)
      (Nat.lt_of_le_of_ne hle hend)
    exact Nat.lt_of_not_le hnot

end Step

def yearOf (n : Nat) : Nat := Nat.findGreatest (daysBeforeYear · ≤ n) (n / 365)

/-- The number of whole months before a day of the year. -/
def monthsBefore (year day : Nat) : Nat := Nat.findGreatest (daysBeforeMonth year · ≤ day) 11

theorem daysBeforeYear_yearOf_le (n : Nat) : daysBeforeYear (yearOf n) ≤ n :=
  findGreatest_le rfl

theorem lt_daysBeforeYear_yearOf_succ (n : Nat) : n < daysBeforeYear (yearOf n + 1) := by
  apply lt_findGreatest_succ
  have hge := daysBeforeYear_ge (n / 365 + 1)
  omega

theorem daysBeforeMonth_monthsBefore_le (year day : Nat) :
    daysBeforeMonth year (monthsBefore year day) ≤ day :=
  findGreatest_le rfl

theorem lt_daysBeforeMonth_monthsBefore_succ {year day : Nat} (h : day < daysInYear year) :
    day < daysBeforeMonth year (monthsBefore year day + 1) := by
  apply lt_findGreatest_succ
  rw [daysBeforeMonth_twelve]
  exact h

theorem dayOfYear_lt (n : Nat) : n - daysBeforeYear (yearOf n) < daysInYear (yearOf n) := by
  have hlt := lt_daysBeforeYear_yearOf_succ n
  have hle := daysBeforeYear_yearOf_le n
  rw [daysBeforeYear_succ] at hlt
  omega

namespace Date

def ofDays (n : Nat) : Date where
  year := yearOf n
  month := monthsBefore (yearOf n) (n - daysBeforeYear (yearOf n)) + 1
  day :=
    n - daysBeforeYear (yearOf n) -
      daysBeforeMonth (yearOf n) (monthsBefore (yearOf n) (n - daysBeforeYear (yearOf n))) + 1
  month_pos := Nat.le_add_left _ _
  month_le := Nat.succ_le_succ (Nat.findGreatest_le 11)
  day_pos := Nat.le_add_left _ _
  day_le := by
    have hlt := lt_daysBeforeMonth_monthsBefore_succ (dayOfYear_lt n)
    have hle := daysBeforeMonth_monthsBefore_le (yearOf n) (n - daysBeforeYear (yearOf n))
    unfold daysBeforeMonth at hlt
    omega

def dayNumber (d : Date) : Nat :=
  daysBeforeYear d.year + daysBeforeMonth d.year (d.month - 1) + (d.day - 1)

theorem dayNumber_ofDays (n : Nat) : (ofDays n).dayNumber = n := by
  have hyear := daysBeforeYear_yearOf_le n
  have hmonth := daysBeforeMonth_monthsBefore_le (yearOf n) (n - daysBeforeYear (yearOf n))
  show daysBeforeYear (yearOf n) + daysBeforeMonth (yearOf n) (monthsBefore (yearOf n) _) +
    (n - daysBeforeYear (yearOf n) - daysBeforeMonth (yearOf n) (monthsBefore (yearOf n) _)) = n
  omega

/-! ## The order of dates -/

/-- The year decides, then the month, then the day. -/
def Earlier (a b : Date) : Prop :=
  a.year < b.year ∨
    a.year = b.year ∧ (a.month < b.month ∨ a.month = b.month ∧ a.day < b.day)

theorem dayOfYear_lt_next_month (d : Date) :
    daysBeforeMonth d.year (d.month - 1) + (d.day - 1) < daysBeforeMonth d.year d.month := by
  have hmonth : d.month - 1 + 1 = d.month := Nat.sub_add_cancel d.month_pos
  have hstep : daysBeforeMonth d.year d.month =
      daysBeforeMonth d.year (d.month - 1) + daysInMonth d.year d.month := by
    rw [← hmonth]
    rfl
  have hday := d.day_le
  have hpos := d.day_pos
  omega

theorem dayNumber_lt_next_year (d : Date) : d.dayNumber < daysBeforeYear (d.year + 1) := by
  have hday := d.dayOfYear_lt_next_month
  have hmonth := daysBeforeMonth_mono d.year d.month_le
  rw [daysBeforeMonth_twelve] at hmonth
  rw [daysBeforeYear_succ]
  unfold dayNumber
  omega

theorem Earlier.dayNumber_lt {a b : Date} (h : a.Earlier b) : a.dayNumber < b.dayNumber := by
  rcases h with hyear | ⟨hyear, hmonth | ⟨hmonth, hday⟩⟩
  · have hlt := a.dayNumber_lt_next_year
    have hmono : daysBeforeYear (a.year + 1) ≤ daysBeforeYear b.year := daysBeforeYear_mono hyear
    unfold dayNumber at hlt ⊢
    omega
  · have hlt := a.dayOfYear_lt_next_month
    have hmono : daysBeforeMonth a.year a.month ≤ daysBeforeMonth a.year (b.month - 1) :=
      daysBeforeMonth_mono a.year (Nat.le_sub_one_of_lt hmonth)
    unfold dayNumber
    rw [← hyear]
    omega
  · have hpos := a.day_pos
    unfold dayNumber
    rw [hyear, hmonth]
    omega

theorem earlier_of_dayNumber_lt {a b : Date} (h : a.dayNumber < b.dayNumber) : a.Earlier b := by
  by_contra hnot
  have hcases : b.Earlier a ∨ a.year = b.year ∧ a.month = b.month ∧ a.day = b.day := by
    unfold Earlier at hnot ⊢
    omega
  rcases hcases with hlater | ⟨hyear, hmonth, hday⟩
  · exact Nat.lt_asymm h hlater.dayNumber_lt
  · have hsame : a.dayNumber = b.dayNumber := by
      unfold dayNumber
      rw [hyear, hmonth, hday]
    omega

end Date

end Gregorian
