/-
Dates of the Gregorian calendar, continued without end in both directions.

Days are counted from 1970-01-01.  `Date.toDay` and `Date.ofDay` convert both
ways; `toDay_ofDay` says that every day number is the number of its date.

Design notes: a year is taken to begin in March, so the leap day ends it.  400
years always have 146097 days, and within such a cycle `yearStart` and
`monthStart` say on which day a year or a month begins.
-/
namespace JudgePolicy

/-- A year, a month and a day of the month. -/
structure Date where
  year : Int
  month : Nat
  day : Nat
  deriving DecidableEq

namespace Date

/-- Leap years: every fourth, but of the centuries only every fourth. -/
def isLeap (year : Int) : Bool :=
  year % 4 == 0 && (year % 100 != 0 || year % 400 == 0)

/-- The length of a month; numbers that name no month have no days. -/
def daysInMonth (year : Int) (month : Nat) : Nat :=
  match month with
  | 1 | 3 | 5 | 7 | 8 | 10 | 12 => 31
  | 4 | 6 | 9 | 11 => 30
  | 2 => if isLeap year then 29 else 28
  | _ => 0

/-- A date that the calendar knows. -/
def isValid (d : Date) : Bool :=
  decide (1 ≤ d.day) && decide (d.day ≤ daysInMonth d.year d.month)

/-! ### Places within a cycle of 400 years -/

/-- The day of the cycle on which a year of the cycle begins. -/
def yearStart (y : Nat) : Nat := 365 * y + y / 4 - y / 100

/-- The year of the cycle that a day of the cycle lies in.  The last century of
a cycle and the last year of every fourth may be a day longer. -/
def yearAt (d : Nat) : Nat :=
  let century := min (d / 36524) 3
  let dayOfCentury := d - 36524 * century
  let fourYears := dayOfCentury / 1461
  100 * century + 4 * fourYears + min (dayOfCentury % 1461 / 365) 3

/-- The day of the year on which a month begins, counted from March. -/
def monthStart (m : Nat) : Nat := (153 * m + 2) / 5

/-- The month that a day of the year lies in, counted from March. -/
def monthAt (d : Nat) : Nat := (5 * d + 2) / 153

theorem yearStart_split {c q y : Nat} (hq : q < 25) (hy : y < 4) :
    yearStart (100 * c + 4 * q + y) = 36524 * c + 1461 * q + 365 * y := by
  rw [yearStart]
  omega

theorem yearStart_yearAt {d : Nat} (h : d < 146097) :
    yearStart (yearAt d) ≤ d ∧ d ≤ yearStart (yearAt d) + 365 ∧ yearAt d < 400 := by
  simp only [yearAt]
  generalize hc : min (d / 36524) 3 = c
  generalize hq : (d - 36524 * c) / 1461 = q
  generalize hy : min ((d - 36524 * c) % 1461 / 365) 3 = y
  rw [yearStart_split (by omega) (by omega)]
  omega

theorem monthStart_monthAt {d : Nat} (h : d ≤ 365) :
    monthStart (monthAt d) ≤ d ∧ d ≤ monthStart (monthAt d) + 30 ∧ monthAt d < 12 := by
  simp only [monthStart, monthAt]
  omega

/-! ### Day numbers -/

/-- The number of the day at a place: a cycle, a year of it, a month counted
from March, and the days of the month before this one. -/
def dayAt (cycle : Int) (year month dayBefore : Nat) : Int :=
  cycle * 146097 + (yearStart year + monthStart month + dayBefore : Nat) - 719468

/-- The number of a date, counted in days from 1970-01-01. -/
def toDay (d : Date) : Int :=
  let year := if d.month ≤ 2 then d.year - 1 else d.year
  dayAt (year / 400) (year % 400).toNat ((d.month + 9) % 12) (d.day - 1)

/-- The date at a place: a cycle, a year of it, and a day of that year. -/
def dateAt (cycle : Int) (year dayOfYear : Nat) : Date :=
  let month := monthAt dayOfYear
  let day := dayOfYear - monthStart month + 1
  if month < 10 then ⟨cycle * 400 + year, month + 3, day⟩
  else ⟨cycle * 400 + year + 1, month - 9, day⟩

/-- The date of a day of a cycle. -/
def dateInCycle (cycle : Int) (day : Nat) : Date :=
  dateAt cycle (yearAt day) (day - yearStart (yearAt day))

/-- The date of a day number. -/
def ofDay (n : Int) : Date :=
  dateInCycle ((n + 719468) / 146097) ((n + 719468) % 146097).toNat

theorem toDay_dateAt (cycle : Int) {year dayOfYear : Nat} (hy : year < 400)
    (hd : dayOfYear ≤ 365) :
    (dateAt cycle year dayOfYear).toDay =
      cycle * 146097 + (yearStart year + dayOfYear : Nat) - 719468 := by
  have hm := monthStart_monthAt hd
  have place : dayAt cycle year (monthAt dayOfYear) (dayOfYear - monthStart (monthAt dayOfYear))
      = cycle * 146097 + (yearStart year + dayOfYear : Nat) - 719468 := by
    rw [dayAt, Nat.add_assoc, Nat.add_sub_cancel' hm.1]
  rw [← place, dateAt]
  generalize monthAt dayOfYear = m at hm
  by_cases h : m < 10
  · have early : ¬m + 3 ≤ 2 := by omega
    have cycleOf : (cycle * 400 + year) / 400 = cycle := by omega
    have yearOf : ((cycle * 400 + (year : Int)) % 400).toNat = year := by omega
    have monthOf : (m + 3 + 9) % 12 = m := by omega
    simp only [h, ↓reduceIte, toDay, early, cycleOf, yearOf, monthOf, Nat.add_sub_cancel]
  · have late : m - 9 ≤ 2 := by omega
    have cycleOf : (cycle * 400 + year + 1 - 1) / 400 = cycle := by omega
    have yearOf : ((cycle * 400 + (year : Int) + 1 - 1) % 400).toNat = year := by omega
    have monthOf : (m - 9 + 9) % 12 = m := by omega
    simp only [h, ↓reduceIte, toDay, late, cycleOf, yearOf, monthOf, Nat.add_sub_cancel]

theorem toDay_dateInCycle (cycle : Int) {day : Nat} (h : day < 146097) :
    (dateInCycle cycle day).toDay = cycle * 146097 + day - 719468 := by
  have hy := yearStart_yearAt h
  rw [dateInCycle, toDay_dateAt cycle hy.2.2 (by omega), Nat.add_sub_cancel' hy.1]

/-- Every day number is the number of its date. -/
theorem toDay_ofDay (n : Int) : (ofDay n).toDay = n := by
  rw [ofDay, toDay_dateInCycle _ (by omega)]
  omega

end Date

end JudgePolicy
