/-
The magnitudes of floating-point numbers, in their order.

* `units_succ` — each magnitude lies above the one before it by the `gap` of its binade;
* `units_strictMono` — so a larger ordinal is a larger magnitude;
* `units_succ_le` — a magnitude is at most `2 ^ 53` times its distance from the one below;
* `floorOrdinal_bounds` — every number of units lies between the magnitude that is found for
  it and the next one.

Design notes: the bits of an ordinal are those of a floating-point number, so the first binade
is the one without a leading bit, and its gap is that of the second.
-/
import JudgePolicy.Number.Nearest
import Mathlib.Algebra.Order.Group.Nat
import Mathlib.Order.Monotone.Basic
import Mathlib.Tactic.Ring
namespace JudgePolicy

namespace Binary64

/-- How far the next magnitude lies above the one with a given ordinal. -/
def gap (ordinal : Nat) : Nat := 2 ^ (ordinal / binadeSize - 1)

theorem gap_pos (k : Nat) : 0 < gap k := Nat.two_pow_pos _

theorem gap_of_lt {k : Nat} (h : k < binadeSize) : gap k = 1 := by
  rw [gap, Nat.div_eq_of_lt h, Nat.zero_sub, Nat.pow_zero]

theorem gap_le_gap_succ (k : Nat) : gap k ≤ gap (k + 1) := by
  have hbinade : k / binadeSize ≤ (k + 1) / binadeSize := Nat.div_le_div_right (Nat.le_succ k)
  exact Nat.pow_le_pow_right (by omega) (by omega)

theorem units_of_lt {k : Nat} (h : k < binadeSize) : units k = k := if_pos h

theorem units_of_le {k : Nat} (h : binadeSize ≤ k) :
    units k = (binadeSize + k % binadeSize) * gap k := by
  rw [units, if_neg (Nat.not_lt.mpr h), Nat.shiftLeft_eq, gap]

theorem units_succ (k : Nat) : units (k + 1) = units k + gap k := by
  by_cases hlow : k < binadeSize
  · rw [units_of_lt hlow, gap_of_lt hlow]
    by_cases hnext : k + 1 < binadeSize
    · exact units_of_lt hnext
    · -- the first magnitude of the second binade
      obtain rfl : k = binadeSize - 1 := by omega
      rfl
  · rw [units_of_le (by omega), units_of_le (by omega), gap, gap]
    by_cases hsame : k % binadeSize + 1 < binadeSize
    · have hdiv : (k + 1) / binadeSize = k / binadeSize := by
        simp only [binadeSize] at *
        omega
      have hmod : (k + 1) % binadeSize = k % binadeSize + 1 := by
        simp only [binadeSize] at *
        omega
      rw [hdiv, hmod]
      ring
    · -- the last magnitude of a binade: the next binade begins at twice the start of this one
      have hdiv : (k + 1) / binadeSize - 1 = k / binadeSize - 1 + 1 := by
        simp only [binadeSize] at *
        omega
      have hmod : (k + 1) % binadeSize = 0 := by
        simp only [binadeSize] at *
        omega
      have hlast : k % binadeSize + 1 = binadeSize := by
        simp only [binadeSize] at *
        omega
      rw [hdiv, hmod]
      calc (binadeSize + 0) * 2 ^ (k / binadeSize - 1 + 1)
          = (binadeSize + binadeSize) * 2 ^ (k / binadeSize - 1) := by ring
        _ = (binadeSize + (k % binadeSize + 1)) * 2 ^ (k / binadeSize - 1) := by rw [hlast]
        _ = (binadeSize + k % binadeSize) * 2 ^ (k / binadeSize - 1)
            + 2 ^ (k / binadeSize - 1) := by ring

theorem units_strictMono : StrictMono units := by
  refine strictMono_nat_of_lt_succ fun k => ?_
  have hpos := gap_pos k
  rw [units_succ]
  omega

/-- A magnitude is at most `2 ^ 53` times as large as its distance from the one below it. -/
theorem units_succ_le (k : Nat) : units (k + 1) ≤ 2 * binadeSize * gap k := by
  rw [units_succ]
  by_cases hlow : k < binadeSize
  · rw [units_of_lt hlow, gap_of_lt hlow]
    omega
  · have hmod : k % binadeSize < binadeSize := Nat.mod_lt k (by decide)
    rw [units_of_le (by omega), ← Nat.succ_mul]
    exact Nat.mul_le_mul_right (gap k) (by omega)

/-- A significand of 53 bits, shifted, is a magnitude. -/
theorem units_shifted (shift : Nat) {t : Nat} (hlow : binadeSize ≤ t) (hhigh : t < 2 * binadeSize) :
    units (shift * binadeSize + t) = t * 2 ^ shift ∧ gap (shift * binadeSize + t) = 2 ^ shift := by
  have hdiv : (shift * binadeSize + t) / binadeSize = shift + 1 := by
    simp only [binadeSize] at *
    omega
  have hmod : binadeSize + (shift * binadeSize + t) % binadeSize = t := by
    simp only [binadeSize] at *
    omega
  have hgap : gap (shift * binadeSize + t) = 2 ^ shift := by
    rw [gap, hdiv, Nat.add_sub_cancel]
  rw [units_of_le (by omega), hmod, hgap]
  exact ⟨rfl, rfl⟩

/-- The magnitude found for a number of units is the largest one that is not above it. -/
theorem floorOrdinal_bounds (q : Nat) :
    units (floorOrdinal q) ≤ q ∧ q < units (floorOrdinal q + 1) := by
  rw [units_succ, floorOrdinal]
  by_cases hlow : q < binadeSize
  · have hshift : Nat.log2 q - 52 = 0 := by
      by_cases hq : q = 0
      · rw [hq]
        rfl
      · have hlog : Nat.log2 q < 52 := (Nat.log2_lt hq).mpr hlow
        omega
    have hordinal : (Nat.log2 q - 52) * binadeSize + q >>> (Nat.log2 q - 52) = q := by
      rw [hshift, Nat.zero_mul, Nat.zero_add, Nat.shiftRight_zero]
    show units ((Nat.log2 q - 52) * binadeSize + q >>> (Nat.log2 q - 52)) ≤ q ∧ _
    rw [hordinal, units_of_lt hlow, gap_of_lt hlow]
    omega
  · have hq : q ≠ 0 := fun hzero => hlow (hzero ▸ by decide)
    have hlog : 52 ≤ Nat.log2 q := (Nat.le_log2 hq).mpr (Nat.not_lt.mp hlow)
    obtain ⟨shift, hshift⟩ : ∃ shift, Nat.log2 q = 52 + shift := ⟨_, (Nat.add_sub_of_le hlog).symm⟩
    -- the significand: what remains of `q` when all but its first 53 bits are shifted out
    have hpos : 0 < 2 ^ shift := Nat.two_pow_pos shift
    have hfirst : binadeSize ≤ q / 2 ^ shift := by
      rw [Nat.le_div_iff_mul_le hpos]
      have := Nat.log2_self_le hq
      rwa [hshift, Nat.pow_add] at this
    have hbits : q / 2 ^ shift < 2 * binadeSize := by
      rw [Nat.div_lt_iff_lt_mul hpos]
      have := Nat.lt_log2_self (n := q)
      rwa [hshift, Nat.pow_succ, Nat.pow_add, Nat.mul_comm, ← Nat.mul_assoc] at this
    obtain ⟨hunits, hgap⟩ := units_shifted shift hfirst hbits
    show units ((Nat.log2 q - 52) * binadeSize + q >>> (Nat.log2 q - 52)) ≤ q ∧ _
    rw [hshift, Nat.add_sub_cancel_left, Nat.shiftRight_eq_div_pow, hunits, hgap]
    have hrest := Nat.div_add_mod q (2 ^ shift)
    have hmod := Nat.mod_lt q hpos
    rw [Nat.mul_comm] at hrest
    omega

end Binary64

end JudgePolicy
