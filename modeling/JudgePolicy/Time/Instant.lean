/-
Instants on the coordinated universal time line, to the nanosecond.

An `Instant` counts whole seconds from 1970-01-01T00:00:00Z, and nanoseconds
within the second.  A leap second is the second billion of nanoseconds of the
second before it, so the order stays lexicographic.
-/
import JudgePolicy.Time.Calendar
namespace JudgePolicy

/-- A point in time. -/
structure Instant where
  seconds : Int
  nanos : Nat
  nanos_lt : nanos < 2000000000
  deriving DecidableEq

namespace Instant

instance : LT Instant :=
  ⟨fun a b => a.seconds < b.seconds ∨ a.seconds = b.seconds ∧ a.nanos < b.nanos⟩

instance : LE Instant := ⟨fun a b => ¬b < a⟩

instance (a b : Instant) : Decidable (a < b) :=
  inferInstanceAs (Decidable (a.seconds < b.seconds ∨ a.seconds = b.seconds ∧ a.nanos < b.nanos))

instance (a b : Instant) : Decidable (a ≤ b) :=
  inferInstanceAs (Decidable (¬b < a))

theorem lt_iff {a b : Instant} :
    a < b ↔ a.seconds < b.seconds ∨ a.seconds = b.seconds ∧ a.nanos < b.nanos := Iff.rfl

theorem le_iff_not_lt {a b : Instant} : a ≤ b ↔ ¬b < a := Iff.rfl

theorem le_refl (a : Instant) : a ≤ a := by
  rw [le_iff_not_lt, lt_iff]
  omega

theorem le_trans {a b c : Instant} (hab : a ≤ b) (hbc : b ≤ c) : a ≤ c := by
  rw [le_iff_not_lt, lt_iff] at *
  omega

theorem lt_of_le_of_lt {a b c : Instant} (hab : a ≤ b) (hbc : b < c) : a < c := by
  rw [le_iff_not_lt, lt_iff] at *
  omega

theorem not_lt {a b : Instant} : ¬a < b ↔ b ≤ a := Iff.rfl

def date (t : Instant) : Date := Date.ofDay (t.seconds / 86400)

/-- The second of the day the instant lies in. -/
def secondOfDay (t : Instant) : Nat := (t.seconds % 86400).toNat

/-- The years that dates and times are kept for. -/
def hasYearInRange (d : Date) : Bool :=
  decide (-262143 ≤ d.year) && decide (d.year ≤ 262142)

end Instant

end JudgePolicy
