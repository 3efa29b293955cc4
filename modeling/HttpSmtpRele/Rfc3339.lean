import Mathlib.Data.String.Basic
import Mathlib.Order.Monotone.Basic
import HttpSmtpRele.BackendAgreement
import HttpSmtpRele.Lib.Gregorian
import HttpSmtpRele.Lib.TextOrder

/-!
# The text of a timestamp

SQLite compares the columns `created_at` and `expires_at` as text, byte by byte.
The fields of the text come from the year down to the second and each of them has
its width, but the fraction has four lengths: a text can end its fraction where
the other goes on, and the comparison then falls between the sign of the offset,
the point and a digit.  They sort in that order, so the shorter text comes first,
and it is the earlier one.
-/

namespace HttpSmtpRele

open Gregorian TextOrder

/-! ## What chrono prints -/

namespace Chrono

/-- The number of 1970-01-01, where `DateTime` counts from. -/
def epochDay : Int := 719528

/-- Days since 0000-01-01. -/
def dayOf (t : DateTime) : Int := t / 86400000000000 + epochDay

def secondOf (t : DateTime) : Nat := (t % 86400000000000 / 1000000000).toNat

def nanosOf (t : DateTime) : Nat := (t % 1000000000).toNat

def dateOf (t : DateTime) : Date := Date.ofDays (dayOf t).toNat

example : (dateOf 0).year = 1970 ∧ (dateOf 0).month = 1 ∧ (dateOf 0).day = 1 := by
  decide +kernel

/-- The instants whose year is printed with four digits. -/
def fourDigitYears : Set DateTime := { t | 0 ≤ dayOf t ∧ (dateOf t).year ≤ 9999 }

/-- `YYYY-MM-DD` -/
def dateText (d : Date) : List Char :=
  digits 4 d.year ++ '-' :: (digits 2 d.month ++ '-' :: digits 2 d.day)

/-- `HH:MM:SS` -/
def timeText (second : Nat) : List Char :=
  digits 2 (second / 3600) ++ ':' ::
    (digits 2 (second / 60 % 60) ++ ':' :: digits 2 (second % 60))

/-- `SecondsFormat::AutoSi`: the fewest of 0, 3, 6 and 9 digits that are exact. -/
def fractionText (nanos : Nat) : List Char :=
  if nanos = 0 then []
  else if nanos % 1000000 = 0 then '.' :: digits 3 (nanos / 1000000)
  else if nanos % 1000 = 0 then '.' :: digits 6 (nanos / 1000)
  else '.' :: digits 9 nanos

def utcOffset : List Char := ['+', '0', '0', ':', '0', '0']

def rfc3339 (t : DateTime) : String :=
  String.ofList (dateText (dateOf t) ++ 'T' ::
    (timeText (secondOf t) ++ (fractionText (nanosOf t) ++ utcOffset)))

theorem daysInMonth_le (year month : Nat) : daysInMonth year month ≤ 31 := by
  unfold daysInMonth
  split_ifs <;> decide

theorem dateText_before {a b : Date} (h : a.Earlier b) (hb : b.year ≤ 9999) :
    Before AsciiLt (dateText a) (dateText b) := by
  have hyear : b.year < 10 ^ 4 := Nat.lt_succ_of_le hb
  have hmonth : b.month < 10 ^ 2 := Nat.lt_of_le_of_lt b.month_le (by decide)
  have hday : b.day < 10 ^ 2 :=
    Nat.lt_of_le_of_lt (Nat.le_trans b.day_le (daysInMonth_le _ _)) (by decide)
  apply digits_field_before hyear
  rcases h with hlt | ⟨hsame, hrest⟩
  · exact Or.inl hlt
  · refine Or.inr ⟨hsame, Before.cons _ (digits_field_before hmonth ?_)⟩
    rcases hrest with hlt | ⟨hsame, hlt⟩
    · exact Or.inl hlt
    · exact Or.inr ⟨hsame, Before.cons _ (digits_before hlt hday)⟩

theorem timeText_before {s s' : Nat} (h : s < s') (hs' : s' < 86400) :
    Before AsciiLt (timeText s) (timeText s') := by
  have hhour : s' / 3600 < 10 ^ 2 := by omega
  have hminute : s' / 60 % 60 < 10 ^ 2 := by omega
  have hsecond : s' % 60 < 10 ^ 2 := by omega
  apply digits_field_before hhour
  by_cases hlt : s / 3600 < s' / 3600
  · exact Or.inl hlt
  · refine Or.inr ⟨by omega, Before.cons _ (digits_field_before hminute ?_)⟩
    by_cases hlt' : s / 60 % 60 < s' / 60 % 60
    · exact Or.inl hlt'
    · exact Or.inr ⟨by omega, Before.cons _ (digits_before (by omega) hsecond)⟩

/-- The digits that are printed are the groups up to the last one that is not zero. -/
theorem fractionText_eq {nanos : Nat} (hpos : nanos ≠ 0) :
    fractionText nanos = '.' :: groups 3 nanos := by
  have hsix : ∀ n, digits 6 n = digits 3 (n / 1000) ++ digits 3 (n % 1000) := digits_add 3 3
  have hnine : ∀ n, digits 9 n = digits 6 (n / 1000) ++ digits 3 (n % 1000) := digits_add 6 3
  have hfirst : groups 3 nanos = digits 3 (nanos / 1000000) ++ groups 2 (nanos % 1000000) :=
    groups_succ hpos
  unfold fractionText
  rw [if_neg hpos, hfirst]
  by_cases hmilli : nanos % 1000000 = 0
  · rw [if_pos hmilli, hmilli, groups_zero, List.append_nil]
  · have hsecond : groups 2 (nanos % 1000000) =
        digits 3 (nanos % 1000000 / 1000) ++ groups 1 (nanos % 1000000 % 1000) :=
      groups_succ hmilli
    have hmiddle : nanos % 1000000 / 1000 = nanos / 1000 % 1000 := by omega
    have hlast : nanos % 1000000 % 1000 = nanos % 1000 := by omega
    have hhead : nanos / 1000 / 1000 = nanos / 1000000 := by omega
    rw [if_neg hmilli, hsecond, hmiddle, hlast]
    by_cases hmicro : nanos % 1000 = 0
    · rw [if_pos hmicro, hmicro, groups_zero, List.append_nil, hsix, hhead]
    · have hthird : groups 1 (nanos % 1000) = digits 3 (nanos % 1000 / 1) ++ groups 0 _ :=
        groups_succ hmicro
      have hnil : groups 0 (nanos % 1000 % 1000 ^ 0) = [] := rfl
      rw [if_neg hmicro, hthird, hnil, List.append_nil, Nat.div_one, hnine, hsix, hhead,
        List.append_assoc]

theorem fractionText_before {n n' : Nat} (h : n < n') (hn' : n' < 1000000000) :
    Before AsciiLt (fractionText n ++ utcOffset) (fractionText n' ++ utcOffset) := by
  have hpos' : n' ≠ 0 := by omega
  rw [fractionText_eq hpos']
  by_cases hpos : n = 0
  · -- no fraction: the offset comes where the other has its point
    rw [hpos]
    exact Before.head (by decide) _ _
  · rw [fractionText_eq hpos]
    exact (groups_before (by decide) _ h hn').cons _

theorem dateOf_earlier {t u : DateTime} (ht : 0 ≤ dayOf t) (h : dayOf t < dayOf u) :
    (dateOf t).Earlier (dateOf u) := by
  apply Date.earlier_of_dayNumber_lt
  unfold dateOf
  rw [Date.dayNumber_ofDays, Date.dayNumber_ofDays]
  exact (Int.toNat_lt_toNat (Int.lt_of_le_of_lt ht h)).mpr h

/-- The day decides, then the second, then the fraction. -/
theorem fields_of_lt {t u : Int} (h : t < u) :
    dayOf t < dayOf u ∨
      dayOf t = dayOf u ∧ (secondOf t < secondOf u ∨
        secondOf t = secondOf u ∧ nanosOf t < nanosOf u) := by
  unfold dayOf secondOf nanosOf
  omega

theorem secondOf_lt (t : Int) : secondOf t < 86400 := by
  unfold secondOf
  omega

theorem nanosOf_lt (t : Int) : nanosOf t < 1000000000 := by
  unfold nanosOf
  omega

theorem rfc3339_before {t u : DateTime} (ht : t ∈ fourDigitYears) (hu : u ∈ fourDigitYears)
    (h : t < u) : Before AsciiLt (rfc3339 t).toList (rfc3339 u).toList := by
  unfold rfc3339
  rw [String.toList_ofList, String.toList_ofList]
  rcases fields_of_lt h with hday | ⟨hday, hrest⟩
  · exact (dateText_before (dateOf_earlier ht.1 hday) hu.2).append_right _ _
  · have hdate : dateOf t = dateOf u := by
      unfold dateOf
      rw [hday]
    rw [hdate]
    refine Before.append_left _ (Before.cons _ ?_)
    rcases hrest with hsecond | ⟨hsecond, hnanos⟩
    · exact (timeText_before hsecond (secondOf_lt u)).append_right _ _
    · rw [hsecond]
      exact (fractionText_before hnanos (nanosOf_lt u)).append_left _

end Chrono

open Chrono

section Order

variable {t u : DateTime} (ht : t ∈ fourDigitYears) (hu : u ∈ fourDigitYears)

include ht hu

theorem rfc3339_lt_iff : rfc3339 t < rfc3339 u ↔ t < u := by
  rcases lt_trichotomy t u with hlt | rfl | hgt
  · exact iff_of_true (rfc3339_before ht hu hlt).string_lt hlt
  · exact iff_of_false (String.lt_irrefl _) (Int.lt_irrefl _)
  · exact iff_of_false (String.lt_asymm (rfc3339_before hu ht hgt).string_lt) (Int.lt_asymm hgt)

theorem rfc3339_le_iff : rfc3339 t ≤ rfc3339 u ↔ t ≤ u := by
  rw [← String.not_lt, rfc3339_lt_iff hu ht]
  exact Int.not_lt

theorem rfc3339_inj : rfc3339 t = rfc3339 u ↔ t = u := by
  constructor
  · intro h
    apply Int.le_antisymm
    · exact (rfc3339_le_iff ht hu).mp (h ▸ String.le_refl _)
    · exact (rfc3339_le_iff hu ht).mp (h ▸ String.le_refl _)
  · rintro rfl
    rfl

theorem compareBytes_rfc3339 :
    (compareBytes (rfc3339 t) (rfc3339 u) = .lt ↔ t < u) ∧
      (compareBytes (rfc3339 t) (rfc3339 u) = .eq ↔ t = u) ∧
      (compareBytes (rfc3339 t) (rfc3339 u) = .gt ↔ u < t) := by
  rcases lt_trichotomy t u with hlt | rfl | hgt
  · rw [(rfc3339_before ht hu hlt).compareBytes_lt]
    simp [hlt, hlt.ne, hlt.le]
  · rw [compareBytes_self]
    simp
  · rw [(rfc3339_before hu ht hgt).compareBytes_gt]
    simp [hgt, hgt.ne', hgt.le]

end Order

/-! ## The stored columns -/

/-- `to_rfc3339` prints what chrono documents, for the years of four digits. -/
def PrintsRfc3339 (S : SqliteDeps) : Prop := ∀ t ∈ fourDigitYears, S.toRfc3339 t = rfc3339 t

/-- As bytes and as strings, the stored texts compare as the instants do. -/
theorem stored_text_order {S : SqliteDeps} {t u : DateTime} (hS : PrintsRfc3339 S)
    (ht : t ∈ fourDigitYears) (hu : u ∈ fourDigitYears) :
    ((compareBytes (S.toRfc3339 t) (S.toRfc3339 u) = .lt ↔ t < u) ∧
        (compareBytes (S.toRfc3339 t) (S.toRfc3339 u) = .eq ↔ t = u) ∧
        (compareBytes (S.toRfc3339 t) (S.toRfc3339 u) = .gt ↔ u < t)) ∧
      (S.toRfc3339 t < S.toRfc3339 u ↔ t < u) ∧
        (S.toRfc3339 t ≤ S.toRfc3339 u ↔ t ≤ u) ∧
        (S.toRfc3339 t = S.toRfc3339 u ↔ t = u) := by
  rw [hS t ht, hS u hu]
  exact ⟨compareBytes_rfc3339 ht hu, rfc3339_lt_iff ht hu, rfc3339_le_iff ht hu,
    rfc3339_inj ht hu⟩

def sampleTexts : SqliteDeps := { BackendAgreement.sampleDeps with toRfc3339 := rfc3339 }

theorem stored_text_order_fraction :
    rfc3339 951827696500000000 = "2000-02-29T12:34:56.500+00:00" ∧
      rfc3339 951827696500123000 = "2000-02-29T12:34:56.500123+00:00" ∧
      (sampleTexts.toRfc3339 951827696500000000 < sampleTexts.toRfc3339 951827696500123000 ↔
        (951827696500000000 : DateTime) < 951827696500123000) := by
  have horder := stored_text_order (S := sampleTexts) (t := 951827696500000000)
    (u := 951827696500123000) (fun _ _ => rfl) ⟨by decide +kernel, by decide +kernel⟩
    ⟨by decide +kernel, by decide +kernel⟩
  exact ⟨by decide +kernel, by decide +kernel, horder.2.1⟩

/-! ## What the statements compare -/

section Statements

variable {S : SqliteDeps} {order : RowOrder}

/-- `expires_at <= ?`: a sweep keeps the rows of the records that have not expired. -/
theorem deleteExpired_row {t : SqliteStatusStore.StatusTable} {k : String}
    {r : SubmissionStatusRecord} {now : DateTime} (hS : PrintsRfc3339 S)
    (hnow : now ∈ fourDigitYears) (hr : r.expiresAt ∈ fourDigitYears)
    (hrow : t.get k = some (SqliteStatusStore.recordToRow S r)) :
    (SqliteStatusStore.deleteExpired (S.toRfc3339 now) t).get k =
      if now < r.expiresAt then some (SqliteStatusStore.recordToRow S r) else none := by
  have horder : S.toRfc3339 r.expiresAt ≤ S.toRfc3339 now ↔ r.expiresAt ≤ now := by
    rw [hS _ hr, hS _ hnow]
    exact rfc3339_le_iff hr hnow
  have hget : (SqliteStatusStore.deleteExpired (S.toRfc3339 now) t).get k =
      if (!decide (S.toRfc3339 r.expiresAt ≤ S.toRfc3339 now)) = true then
        some (SqliteStatusStore.recordToRow S r) else none := by
    unfold SqliteStatusStore.deleteExpired
    rw [Table.get_retain, hrow, Option.filter_some]
    rfl
  rw [hget]
  by_cases hlive : now < r.expiresAt
  · have hkeep : ¬S.toRfc3339 r.expiresAt ≤ S.toRfc3339 now :=
      fun h => absurd hlive (not_lt.mpr (horder.mp h))
    rw [if_pos hlive, decide_eq_false hkeep]
    rfl
  · have hgone : S.toRfc3339 r.expiresAt ≤ S.toRfc3339 now := horder.mpr (not_lt.mp hlive)
    rw [if_neg hlive, decide_eq_true hgone]
    rfl

/-- `ORDER BY created_at`: the record of a row that goes is no newer than that of one that stays. -/
theorem evictIfNeeded_record {t : SqliteStatusStore.StatusTable} {maxRecords : Nat}
    {k k' : String} {r r' : SubmissionStatusRecord} (hS : PrintsRfc3339 S)
    (hr : r.createdAt ∈ fourDigitYears) (hr' : r'.createdAt ∈ fourDigitYears)
    (hrow : t.get k = some (SqliteStatusStore.recordToRow S r))
    (hgone : (SqliteStatusStore.evictIfNeeded order maxRecords t).get k = none)
    (hkept : (SqliteStatusStore.evictIfNeeded order maxRecords t).get k' =
      some (SqliteStatusStore.recordToRow S r')) : r.createdAt ≤ r'.createdAt := by
  have hle : S.toRfc3339 r.createdAt ≤ S.toRfc3339 r'.createdAt :=
    SqliteStatusStore.evictIfNeeded_oldest hrow hgone hkept
  rw [hS _ hr, hS _ hr'] at hle
  exact (rfc3339_le_iff hr hr').mp hle

end Statements

/-- The columns of the two backends' agreement: all the years of four digits will do. -/
theorem faithful_of_prints {S : SqliteDeps} {lists : Set (List Domain)} (hS : PrintsRfc3339 S)
    (hparse : ∀ t ∈ fourDigitYears, S.parseRfc3339 (rfc3339 t) = some t)
    (hjson : ∀ ds ∈ lists, S.domainsFromJson (S.domainsToJson ds) = some ds) :
    Faithful S fourDigitYears lists where
  parse t ht := by
    rw [hS t ht]
    exact hparse t ht
  order t ht u hu := by
    rw [hS t ht, hS u hu]
    exact rfc3339_lt_iff ht hu
  json := hjson

end HttpSmtpRele
