/-
Day numbers stand for dates that the calendar knows.

* `four_dvd_of_long_year` — a year of the cycle that runs to a 366th day ends with the
  February of a leap year;
* `day_le_daysInMonth` — a day of such a year falls within its month;
* `isValid_ofDay` — so the date of every day number is a valid one.

Design notes: eleven of the twelve months, counted from March, are as long as the days up
to the next one.  Only the last month reads the year, so leap years matter there alone.
-/
import JudgePolicy.Time.Calendar
import Mathlib.Tactic.IntervalCases
namespace JudgePolicy

namespace Date

/-! ### Long years -/

/-- A 366th day is the last of a year before a leap year. -/
theorem four_dvd_of_long_year {d : Nat} (h : d < 146097)
    (hlong : d = yearStart (yearAt d) + 365) :
    (yearAt d + 1) % 4 = 0 ∧ ((yearAt d + 1) % 100 = 0 → (yearAt d + 1) % 400 = 0) := by
  simp only [yearAt] at hlong ⊢
  generalize hc : min (d / 36524) 3 = c at *
  generalize hq : (d - 36524 * c) / 1461 = q at *
  generalize hy : min ((d - 36524 * c) % 1461 / 365) 3 = y at *
  rw [yearStart_split (by omega) (by omega)] at hlong
  omega

theorem isLeap_of_long_year (cycle : Int) {d : Nat} (h : d < 146097)
    (hlong : d = yearStart (yearAt d) + 365) : isLeap (cycle * 400 + yearAt d + 1) = true := by
  obtain ⟨hfour, hcentury⟩ := four_dvd_of_long_year h hlong
  simp only [isLeap, Bool.and_eq_true, Bool.or_eq_true, beq_iff_eq, bne_iff_ne]
  omega

/-! ### Days of a month -/

/-- The number of a month that is counted from March. -/
def monthNumber (m : Nat) : Nat := if m < 10 then m + 3 else m - 9

/-- From March to January, a month has as many days as there are up to the next one. -/
theorem daysInMonth_monthNumber (year : Int) {m : Nat} (h : m < 11) :
    daysInMonth year (monthNumber m) = monthStart (m + 1) - monthStart m := by
  interval_cases m <;> rfl

theorem daysInMonth_february (year : Int) :
    daysInMonth year (monthNumber 11) = if isLeap year then 29 else 28 := rfl

theorem lt_monthStart_succ (d : Nat) : d < monthStart (monthAt d + 1) := by
  simp only [monthStart, monthAt]
  omega

/-- A day of a year falls within its month, if the 366th day is one of a leap year. -/
theorem day_le_daysInMonth {year : Int} {d : Nat} (h : d ≤ 365)
    (hleap : d = 365 → isLeap year = true) :
    d - monthStart (monthAt d) + 1 ≤ daysInMonth year (monthNumber (monthAt d)) := by
  obtain ⟨hstart, hend, hmonth⟩ := monthStart_monthAt h
  by_cases hlast : monthAt d < 11
  · rw [daysInMonth_monthNumber year hlast]
    have hnext := lt_monthStart_succ d
    omega
  · have heleven : monthAt d = 11 := by omega
    have hfebruary : monthStart 11 = 337 := rfl
    rw [heleven, daysInMonth_february, hfebruary]
    by_cases hlong : d = 365
    · rw [if_pos (hleap hlong)]
      omega
    · split <;> omega

theorem isValid_dateAt (cycle : Int) {year d : Nat} (h : d ≤ 365)
    (hleap : d = 365 → isLeap (cycle * 400 + year + 1) = true) :
    (dateAt cycle year d).isValid = true := by
  rw [dateAt]
  split
  · next hm =>
    -- Before January, so not on the 366th day.
    have hshort : d = 365 → isLeap (cycle * 400 + year) = true := by
      rintro rfl
      exact absurd hm (by decide)
    have hday := day_le_daysInMonth h hshort
    rw [monthNumber, if_pos hm] at hday
    simpa [isValid] using hday
  · next hm =>
    have hday := day_le_daysInMonth h hleap
    rw [monthNumber, if_neg hm] at hday
    simpa [isValid] using hday

/-- **Every day number is the number of a valid date.** -/
theorem isValid_ofDay (n : Int) : (ofDay n).isValid = true := by
  have hday : ((n + 719468) % 146097).toNat < 146097 := by omega
  obtain ⟨hstart, hend, -⟩ := yearStart_yearAt hday
  refine isValid_dateAt _ (by omega) fun hlong => isLeap_of_long_year _ hday ?_
  omega

theorem daysInMonth_bounds (year : Int) (m : Nat) :
    daysInMonth year m ≤ 31 ∧ (12 < m → daysInMonth year m = 0) := by
  by_cases hm : m ≤ 12
  · interval_cases m <;> simp [daysInMonth]
    split <;> omega
  · have hnone : daysInMonth year m = 0 := by
      rw [daysInMonth] <;> omega
    omega

/-- The numbers of a valid date's month and day have two digits at most. -/
theorem lt_of_isValid {d : Date} (h : d.isValid = true) : d.month < 100 ∧ d.day < 100 := by
  rw [isValid, Bool.and_eq_true, decide_eq_true_iff, decide_eq_true_iff] at h
  obtain ⟨hlong, hnone⟩ := daysInMonth_bounds d.year d.month
  omega

end Date

end JudgePolicy
