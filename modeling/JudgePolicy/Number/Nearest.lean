/-
The floating-point number nearest to a decimal numeral.

`nearestOrdinal num den` is the ordinal of the magnitude nearest to the
fraction `num / den`, measured in units of `2 ^ (-1074)`; a fraction half way
between two magnitudes goes to the even ordinal.

Design notes: the fraction's whole part fixes the neighbour below
(`floorOrdinal`), and one exact comparison with the midpoint decides.
-/
import JudgePolicy.Number.Binary64
import JudgePolicy.Number.Digits
namespace JudgePolicy

namespace Binary64

/-- The ordinal of the largest magnitude that is at most `q` units. -/
def floorOrdinal (q : Nat) : Nat :=
  let shift := Nat.log2 q - 52
  shift * binadeSize + q >>> shift

/-- The ordinal of the magnitude nearest to `num / den` units. -/
def nearestOrdinal (num den : Nat) : Nat :=
  let k := floorOrdinal (num / den)
  let midpoint := den * (units k + units (k + 1))
  if 2 * num < midpoint then k
  else if midpoint < 2 * num then k + 1
  else k + k % 2

/-- The number nearest to `significand * 10 ^ exponent` with a sign.

The first three cases need no arithmetic: zero, a value of at least `10 ^ 401`,
and one below `10 ^ (-401)`, which rounds to zero. -/
def ofDecimal (negative : Bool) (significand : Nat) (exponent : Int) : Binary64 :=
  if significand = 0 then ofOrdinal negative 0
  else if 400 < exponent then infinity negative
  else if exponent + digitCount significand < -400 then ofOrdinal negative 0
  else
    match exponent with
    | .ofNat e => ofOrdinal negative (nearestOrdinal ((significand * powerOfTen e) <<< 1074) 1)
    | .negSucc e => ofOrdinal negative (nearestOrdinal (significand <<< 1074) (powerOfTen (e + 1)))

end Binary64

end JudgePolicy
