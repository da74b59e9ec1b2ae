/-
Binary floating-point numbers of 64 bits, without rounding arithmetic.

A number is NaN, or a sign and an *ordinal*: the numbers of one sign, from zero
up to infinity, are counted without gaps, so the order of ordinals is the order
of magnitudes.  `rank` turns this into one integer per number:

* `equals`, `less` — numeric comparison is comparison of ranks; NaN compares
  false with everything, and the two zeros are equal;
* `larger` — the maximum that prefers a number to NaN.

Design notes: the ordinal is also the bit pattern below the sign bit, and
`units` gives the exact magnitude as a multiple of `2 ^ (-1074)`.
-/
namespace JudgePolicy

/-- A 64-bit binary floating-point number; all NaNs are one value. -/
inductive Binary64 where
  | nan
  | number (negative : Bool) (ordinal : Nat) (le_infinity : ordinal ≤ 0x7FF0000000000000)
  deriving DecidableEq

namespace Binary64

/-- The ordinal of infinity; the finite magnitudes are the ordinals below. -/
def infinityOrdinal : Nat := 0x7FF0000000000000

/-- The number with a sign and an ordinal; ordinals past infinity are infinity. -/
def ofOrdinal (negative : Bool) (ordinal : Nat) : Binary64 :=
  .number negative (min ordinal infinityOrdinal) (Nat.min_le_right _ _)

/-- Positive zero. -/
def zero : Binary64 := ofOrdinal false 0

instance : Inhabited Binary64 := ⟨zero⟩

def infinity (negative : Bool) : Binary64 := ofOrdinal negative infinityOrdinal

/-! ### Order -/

/-- The place of a number among all numbers; NaN has none. -/
def rank : Binary64 → Option Int
  | nan => none
  | number false k _ => some k
  | number true k _ => some (-k)

theorem rank_eq_none_iff {x : Binary64} : x.rank = none ↔ x = nan := by
  cases x with
  | nan => exact iff_of_true rfl rfl
  | number negative k h => cases negative <;> simp [rank]

/-- Numeric equality. -/
def equals (x y : Binary64) : Bool :=
  match x.rank, y.rank with
  | some a, some b => a == b
  | _, _ => false

theorem equals_eq (x y : Binary64) : x.equals y = (x.rank.isSome && x.rank == y.rank) := by
  rw [equals]
  cases x.rank with
  | none => rfl
  | some a =>
    cases y.rank with
    | none => rfl
    | some b => rw [Option.isSome_some, Bool.true_and, Option.some_beq_some]

/-- Numeric order. -/
def less (x y : Binary64) : Bool :=
  match x.rank, y.rank with
  | some a, some b => decide (a < b)
  | _, _ => false

def isFinite : Binary64 → Bool
  | nan => false
  | number _ k _ => decide (k < infinityOrdinal)

/-- Below zero; neither negative zero nor NaN is. -/
def isNegative (x : Binary64) : Bool := x.less zero

/-- The larger of two numbers.  A NaN gives way to the other operand, and of
two equal numbers the first is kept. -/
def larger (x y : Binary64) : Binary64 :=
  match x.rank, y.rank with
  | none, _ => y
  | some _, none => x
  | some a, some b => if a < b then y else x

theorem rank_larger (x y : Binary64) : (x.larger y).rank = max x.rank y.rank := by
  rw [larger]
  cases hx : x.rank with
  | none => rw [Option.max_none_left]
  | some a =>
    cases hy : y.rank with
    | none => exact hx
    | some b =>
      show (if a < b then y else x).rank = some (max a b)
      by_cases hab : a < b
      · rw [if_pos hab, hy, Int.max_eq_right (Int.le_of_lt hab)]
      · rw [if_neg hab, hx, Int.max_eq_left (Int.not_lt.mp hab)]

/-- The same number, with the positive zero in place of the negative one. -/
def withoutZeroSign : Binary64 → Binary64
  | nan => nan
  | number s k h => if k = 0 then zero else number s k h

theorem rank_withoutZeroSign (x : Binary64) : x.withoutZeroSign.rank = x.rank := by
  cases x with
  | nan => rfl
  | number s k h =>
    rw [withoutZeroSign]
    split
    · next hk => subst hk; cases s <;> rfl
    · rfl

theorem withoutZeroSign_withoutZeroSign (x : Binary64) :
    x.withoutZeroSign.withoutZeroSign = x.withoutZeroSign := by
  cases x with
  | nan => rfl
  | number s k h =>
    by_cases hk : k = 0
    · rw [withoutZeroSign, if_pos hk]
      rfl
    · rw [withoutZeroSign, if_neg hk, withoutZeroSign, if_neg hk]

/-! ### Bit patterns and magnitudes -/

/-- The bit pattern; NaN is the quiet NaN without a sign. -/
def toBits : Binary64 → Nat
  | nan => 0x7FF8000000000000
  | number false k _ => k
  | number true k _ => 0x8000000000000000 + k

/-- How many magnitudes there are from one power of two to the next: `2 ^ 52`. -/
def binadeSize : Nat := 0x10000000000000

/-- The magnitude with a given ordinal, as a multiple of `2 ^ (-1074)`: in the first
binade the ordinal itself, above it a significand of 53 bits, shifted. -/
def units (ordinal : Nat) : Nat :=
  if ordinal < binadeSize then ordinal
  else (binadeSize + ordinal % binadeSize) <<< (ordinal / binadeSize - 1)

end Binary64

end JudgePolicy
