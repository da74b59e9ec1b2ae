/-
The shortest decimal that reads back as a given floating-point number.

For one digit, two digits, and so on, the two neighbours of the exact value on
the grid of decimals with that many digits are tried; the first grid with a
neighbour that reads back wins, and of two such neighbours the nearer one.  When
the exact value lies half way between them, the way of breaking ties decides.

Design notes: a magnitude of `u` units is exactly `u * 5 ^ 1074` multiples of
`10 ^ (-1074)`, so the grids are cut from one natural number.  Should no grid
of 17 digits serve, the exact value is used.
-/
import JudgePolicy.Number.Nearest
namespace JudgePolicy

/-- The value `significand * 10 ^ exponent`. -/
structure Decimal where
  significand : Nat
  exponent : Int
  deriving DecidableEq

namespace Decimal

/-- Trailing zeros of the significand moved into the exponent, as long as the
fuel lasts. -/
def stripped : Nat → Decimal → Decimal
  | 0, d => d
  | fuel + 1, d =>
    if d.significand ≠ 0 ∧ d.significand % 10 = 0 then
      stripped fuel ⟨d.significand / 10, d.exponent + 1⟩
    else d

end Decimal

/-- Which of two equally near decimals to take: the one with an even significand,
or the larger. -/
inductive Tie where
  | even
  | up
  deriving DecidableEq

namespace Binary64

/-- Whether a decimal reads back as the magnitude with a given ordinal. -/
def readsBack (ordinal : Nat) (d : Decimal) : Bool :=
  ofDecimal false d.significand d.exponent == ofOrdinal false ordinal

/-- The magnitude with a given ordinal, in multiples of `10 ^ (-1074)`. -/
def exactSignificand (ordinal : Nat) : Nat := units ordinal * Nat.pow 5 1074

/-- The neighbours of a multiple of `10 ^ (-1074)` on the grid that drops its last digits. -/
def gridBelow (exact dropped : Nat) : Decimal :=
  ⟨exact / powerOfTen dropped, (dropped : Int) - 1074⟩

def gridAbove (exact dropped : Nat) : Decimal :=
  ⟨exact / powerOfTen dropped + 1, (dropped : Int) - 1074⟩

/-- Whether the neighbour below is the nearer one; half way, the way of breaking ties
decides. -/
def isNearerBelow (tie : Tie) (exact dropped : Nat) : Bool :=
  let step := powerOfTen dropped
  let twice := 2 * (exact % step)
  decide (twice < step) ||
    decide (twice = step) && decide (tie = .even) && decide (exact / step % 2 = 0)

/-- The one of two decimals that passes a test, and the preferred one if both do. -/
def choose (test : Decimal → Bool) (preferBelow : Bool) (below above : Decimal) :
    Option Decimal :=
  match test below, test above with
  | true, true => if preferBelow then some below else some above
  | true, false => some below
  | false, true => some above
  | false, false => none

/-- The neighbour of the exact value on the grid of decimals with `n` digits
that reads back, and the nearer one if both do. -/
def onGrid? (tie : Tie) (ordinal n : Nat) : Option Decimal :=
  let exact := exactSignificand ordinal
  let dropped := digitCount exact - n
  choose (readsBack ordinal) (isNearerBelow tie exact dropped) (gridBelow exact dropped)
    (gridAbove exact dropped)

/-- The decimal on the first of the grids with one digit to seventeen that has one. -/
def firstOnGrid? (tie : Tie) (ordinal : Nat) : Option Decimal :=
  (List.range' 1 17).findSome? (onGrid? tie ordinal)

/-- The shortest decimal for the magnitude with a given ordinal, without
trailing zeros. -/
def shortest (tie : Tie) (ordinal : Nat) : Decimal :=
  if ordinal = 0 then ⟨0, 0⟩
  else
    let d := (firstOnGrid? tie ordinal).getD ⟨exactSignificand ordinal, -1074⟩
    d.stripped (digitCount d.significand)

end Binary64

end JudgePolicy
