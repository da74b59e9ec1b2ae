/-
Decimals are read as the nearest floating-point number.

* `IsNearest` — no magnitude is nearer, and of two that are equally near the even one counts;
* `isNearest_nearestOrdinal` — the ordinal found for a fraction is the one of the nearest
  magnitude, and `IsNearest.unique` says that there is no other;
* `ofDecimal_eq_ofOrdinal` — so a decimal reads as the number of the magnitude nearest to its
  value, however its digits are divided between significand and exponent.

Design notes: magnitudes are compared in units of `2 ^ (-1074)`, in which all of them are whole.
The two largest numbers that occur are compared once and named from there on, as no proof step
can carry their digits.
-/
import JudgePolicy.Proofs.Number.Magnitude
import Mathlib.Algebra.Order.Field.Power
import Mathlib.Algebra.Order.Ring.Rat
import Mathlib.Tactic.FieldSimp
import Mathlib.Tactic.Linarith
import Mathlib.Tactic.Positivity
namespace JudgePolicy

namespace Binary64

/-! ### The nearest magnitude -/

/-- No magnitude is nearer to `x` units than the one with ordinal `k`, and if another one is as
near, then `k` is even. -/
structure IsNearest (x : ℚ) (k : ℕ) : Prop where
  closest : ∀ j, |x - units k| ≤ |x - units j|
  even_of_tie : ∀ j, j ≠ k → |x - units k| = |x - units j| → k % 2 = 0

theorem abs_sub_le_iff_of_lt {x a b : ℚ} (h : a < b) : |x - a| ≤ |x - b| ↔ 2 * x ≤ a + b := by
  rw [← sq_le_sq]
  constructor
  · intro hsq
    by_contra hx
    nlinarith
  · intro hx
    nlinarith

theorem abs_sub_le_iff_of_gt {x a b : ℚ} (h : a < b) : |x - b| ≤ |x - a| ↔ a + b ≤ 2 * x := by
  rw [← sq_le_sq]
  constructor
  · intro hsq
    by_contra hx
    nlinarith
  · intro hx
    nlinarith

theorem cast_units_lt {j k : ℕ} (h : j < k) : (units j : ℚ) < units k :=
  Nat.cast_lt.mpr (units_strictMono h)

theorem cast_units_le {j k : ℕ} (h : j ≤ k) : (units j : ℚ) ≤ units k :=
  Nat.cast_le.mpr (units_strictMono.monotone h)

section Midpoints

variable {x : ℚ} {k : ℕ}

/-- What the two neighbours of the nearest magnitude say. -/
structure BetweenMidpoints (x : ℚ) (k : ℕ) : Prop where
  above : ∀ j, j + 1 = k → (units j + units k : ℚ) ≤ 2 * x
  below : 2 * x ≤ units k + units (k + 1)
  even_of_eq_above : ∀ j, j + 1 = k → 2 * x = units j + units k → k % 2 = 0
  even_of_eq_below : 2 * x = units k + units (k + 1) → k % 2 = 0

theorem IsNearest.betweenMidpoints (h : IsNearest x k) : BetweenMidpoints x k := by
  have habove : ∀ j, j + 1 = k → (units j + units k : ℚ) ≤ 2 * x := by
    rintro j rfl
    exact (abs_sub_le_iff_of_gt (cast_units_lt (Nat.lt_succ_self j))).mp (h.closest j)
  have hlt : (units k : ℚ) < units (k + 1) := cast_units_lt (Nat.lt_succ_self k)
  have hbelow := (abs_sub_le_iff_of_lt hlt).mp (h.closest (k + 1))
  refine ⟨habove, hbelow, ?_, ?_⟩
  · rintro j rfl htie
    have hlt : (units j : ℚ) < units (j + 1) := cast_units_lt (Nat.lt_succ_self j)
    have hsame := (abs_sub_le_iff_of_lt hlt).mpr htie.le
    exact h.even_of_tie j (by omega) (le_antisymm (h.closest j) hsame)
  · intro htie
    have hsame := (abs_sub_le_iff_of_gt hlt).mpr htie.ge
    exact h.even_of_tie (k + 1) (by omega) (le_antisymm (h.closest (k + 1)) hsame)

/-- Only the two neighbours have to be compared, as all others are farther away. -/
theorem BetweenMidpoints.isNearest (h : BetweenMidpoints x k) : IsNearest x k := by
  refine ⟨?_, ?_⟩
  · intro j
    obtain hlt | rfl | hgt := Nat.lt_trichotomy j k
    · have hj := cast_units_le (show j ≤ k - 1 by omega)
      have habove := h.above (k - 1) (by omega)
      exact (abs_sub_le_iff_of_gt (cast_units_lt hlt)).mpr (by linarith)
    · exact le_rfl
    · have hj := cast_units_le (show k + 1 ≤ j by omega)
      have hbelow := h.below
      exact (abs_sub_le_iff_of_lt (cast_units_lt hgt)).mpr (by linarith)
  · intro j hj htie
    obtain hlt | rfl | hgt := Nat.lt_trichotomy j k
    · have hmono := cast_units_le (show j ≤ k - 1 by omega)
      have habove := h.above (k - 1) (by omega)
      have hle := (abs_sub_le_iff_of_lt (cast_units_lt hlt)).mp htie.ge
      exact h.even_of_eq_above (k - 1) (by omega) (by linarith)
    · exact absurd rfl hj
    · have hmono := cast_units_le (show k + 1 ≤ j by omega)
      have hbelow := h.below
      have hge := (abs_sub_le_iff_of_gt (cast_units_lt hgt)).mp htie.ge
      exact h.even_of_eq_below (by linarith)

/-- A number is next to the magnitude below it up to the midpoint. -/
theorem isNearest_of_le_midpoint (hx : (units k : ℚ) ≤ x) (hmid : 2 * x ≤ units k + units (k + 1))
    (heven : 2 * x = units k + units (k + 1) → k % 2 = 0) : IsNearest x k := by
  have hprev : ∀ j, j + 1 = k → (units j : ℚ) < units k := fun j hj => cast_units_lt (by omega)
  refine BetweenMidpoints.isNearest ⟨?_, hmid, ?_, heven⟩
  · intro j hj
    have := hprev j hj
    linarith
  · intro j hj htie
    have := hprev j hj
    linarith

/-- A number is next to the magnitude above it from the midpoint on. -/
theorem isNearest_of_midpoint_le (hx : x ≤ units (k + 1))
    (hmid : (units k + units (k + 1) : ℚ) ≤ 2 * x)
    (heven : 2 * x = units k + units (k + 1) → (k + 1) % 2 = 0) : IsNearest x (k + 1) := by
  have hnext := cast_units_lt (Nat.lt_succ_self (k + 1))
  refine BetweenMidpoints.isNearest ⟨?_, ?_, ?_, ?_⟩
  · intro j hj
    obtain rfl : j = k := by omega
    exact hmid
  · linarith
  · intro j hj htie
    obtain rfl : j = k := by omega
    exact heven htie
  · intro htie
    linarith

end Midpoints

/-- There is one nearest magnitude. -/
theorem IsNearest.unique {x : ℚ} {j k : ℕ} (hj : IsNearest x j) (hk : IsNearest x k) : j = k := by
  have hle : ∀ {j k : ℕ}, IsNearest x j → IsNearest x k → k ≤ j := by
    intro j k hj hk
    by_contra hlt
    have hbelow := hj.betweenMidpoints.below
    have habove := hk.betweenMidpoints.above (k - 1) (by omega)
    have hmono := cast_units_le (show j ≤ k - 1 by omega)
    have hmono' := cast_units_le (show j + 1 ≤ k by omega)
    -- the only midpoint between the two would be the one of neighbours, and both would be even
    have hnext : k = j + 1 := by
      by_contra hfar
      have := cast_units_lt (show j < k - 1 by omega)
      linarith
    subst hnext
    have hj := hj.betweenMidpoints.even_of_eq_below (by linarith)
    have hk := hk.betweenMidpoints.even_of_eq_above j rfl (by linarith)
    omega
  exact Nat.le_antisymm (hle hk hj) (hle hj hk)

/-- A number between `x` and its nearest magnitude has the same nearest magnitude. -/
theorem IsNearest.of_between {x y : ℚ} {k : ℕ} (h : IsNearest x k)
    (hy : x ≤ y ∧ y ≤ units k ∨ units k ≤ y ∧ y ≤ x) : IsNearest y k := by
  obtain ⟨habove, hbelow, heven_above, heven_below⟩ := h.betweenMidpoints
  have hnext := cast_units_lt (Nat.lt_succ_self k)
  have hprev : ∀ j, j + 1 = k → (units j : ℚ) < units k := fun j hj => cast_units_lt (by omega)
  refine BetweenMidpoints.isNearest ⟨?_, ?_, ?_, ?_⟩
  · intro j hj
    have := habove j hj
    have := hprev j hj
    obtain ⟨_, _⟩ | ⟨_, _⟩ := hy
    · linarith
    · linarith
  · obtain ⟨_, _⟩ | ⟨_, _⟩ := hy
    · linarith
    · linarith
  · intro j hj htie
    have := habove j hj
    have := hprev j hj
    obtain ⟨_, _⟩ | ⟨_, _⟩ := hy
    · exact heven_above j hj (by linarith)
    · linarith
  · intro htie
    obtain ⟨_, _⟩ | ⟨_, _⟩ := hy
    · linarith
    · exact heven_below (by linarith)

/-- **The ordinal that is found for a fraction is the one of the nearest magnitude.** -/
theorem isNearest_nearestOrdinal (num : ℕ) {den : ℕ} (hden : 0 < den) :
    IsNearest (num / den) (nearestOrdinal num den) := by
  obtain ⟨hfloor, hceil⟩ := floorOrdinal_bounds (num / den)
  rw [nearestOrdinal]
  generalize floorOrdinal (num / den) = k at *
  rw [Nat.le_div_iff_mul_le hden] at hfloor
  rw [Nat.div_lt_iff_lt_mul hden] at hceil
  have hden' : (0 : ℚ) < den := Nat.cast_pos.mpr hden
  have hlow : (units k : ℚ) ≤ num / den := (le_div_iff₀ hden').mpr (by exact_mod_cast hfloor)
  have hhigh : (num / den : ℚ) < units (k + 1) :=
    (div_lt_iff₀ hden').mpr (by exact_mod_cast hceil)
  have hnum : (num : ℚ) = num / den * den := (div_mul_cancel₀ _ hden'.ne').symm
  generalize (num / den : ℚ) = x at *
  have hbelow : 2 * num < den * (units k + units (k + 1)) ↔
      2 * x < (units k + units (k + 1) : ℚ) := by
    rw [← Nat.cast_lt (α := ℚ)]
    push_cast
    rw [hnum, ← mul_assoc, mul_comm (den : ℚ), mul_lt_mul_iff_left₀ hden']
  have habove : den * (units k + units (k + 1)) < 2 * num ↔
      (units k + units (k + 1) : ℚ) < 2 * x := by
    rw [← Nat.cast_lt (α := ℚ)]
    push_cast
    rw [hnum, ← mul_assoc, mul_comm (den : ℚ), mul_lt_mul_iff_left₀ hden']
  simp only [hbelow, habove]
  by_cases hx : 2 * x < units k + units (k + 1)
  · rw [if_pos hx]
    exact isNearest_of_le_midpoint hlow hx.le fun htie => absurd htie hx.ne
  rw [if_neg hx]
  by_cases hx' : (units k + units (k + 1) : ℚ) < 2 * x
  · rw [if_pos hx']
    exact isNearest_of_midpoint_le hhigh.le hx'.le fun htie => absurd htie hx'.ne'
  rw [if_neg hx']
  have htie : 2 * x = units k + units (k + 1) := le_antisymm (not_lt.mp hx') (not_lt.mp hx)
  -- half way between two magnitudes, the step from an odd ordinal is one upwards
  obtain heven | hodd := Nat.mod_two_eq_zero_or_one k
  · rw [heven, Nat.add_zero]
    exact isNearest_of_le_midpoint hlow htie.le fun _ => heven
  · rw [hodd]
    exact isNearest_of_midpoint_le hhigh.le htie.ge fun _ => by omega

/-! ### Reading decimals -/

/-- How many units make one. -/
@[irreducible] def unitsOfOne : ℕ := 1 <<< 1074

/-- The value of a decimal, in units. -/
def inUnits (significand : ℕ) (exponent : ℤ) : ℚ := significand * 10 ^ exponent * unitsOfOne

theorem shiftLeft_eq_mul_unitsOfOne (n : ℕ) : n <<< 1074 = n * unitsOfOne := by
  rw [unitsOfOne, Nat.shiftLeft_eq, Nat.one_shiftLeft]

theorem cast_powerOfTen (k : ℕ) : (powerOfTen k : ℚ) = 10 ^ k := Nat.cast_pow 10 k

theorem inUnits_ofNat (significand e : ℕ) :
    inUnits significand (.ofNat e) = ((significand * powerOfTen e) <<< 1074 : ℕ) / (1 : ℕ) := by
  rw [inUnits, shiftLeft_eq_mul_unitsOfOne, Nat.cast_mul, Nat.cast_mul, cast_powerOfTen,
    Nat.cast_one, div_one, Int.ofNat_eq_natCast, zpow_natCast]

theorem inUnits_negSucc (significand e : ℕ) :
    inUnits significand (.negSucc e) = (significand <<< 1074 : ℕ) / (powerOfTen (e + 1) : ℕ) := by
  rw [inUnits, shiftLeft_eq_mul_unitsOfOne, Nat.cast_mul, cast_powerOfTen, zpow_negSucc,
    mul_right_comm, div_eq_mul_inv]

theorem isNearest_zero : IsNearest 0 0 := by
  have hzero : units 0 = 0 := units_of_lt (by decide)
  refine isNearest_of_le_midpoint ?_ ?_ fun _ => rfl
  · rw [hzero, Nat.cast_zero]
  · rw [mul_zero]
    exact_mod_cast Nat.zero_le _

/-- A decimal from `10 ^ 401` on lies beyond the finite magnitudes. -/
theorem infinityOrdinal_le_of_isNearest {significand k : ℕ} {exponent : ℤ} (hs : significand ≠ 0)
    (he : 400 < exponent) (h : IsNearest (inUnits significand exponent) k) :
    infinityOrdinal ≤ k := by
  have hinfinity : units infinityOrdinal ≤ powerOfTen 401 * unitsOfOne := by decide +kernel
  have hone : (1 : ℚ) ≤ significand := by exact_mod_cast Nat.one_le_iff_ne_zero.mpr hs
  have hpower : (powerOfTen 401 : ℚ) ≤ 10 ^ exponent := by
    rw [cast_powerOfTen, ← zpow_natCast]
    exact zpow_le_zpow_right₀ (by norm_num) (by exact_mod_cast he)
  have hlarge : (units infinityOrdinal : ℚ) ≤ inUnits significand exponent := by
    -- the two large numbers are only compared from here on
    generalize units infinityOrdinal = top at *
    generalize powerOfTen 401 = power at *
    rw [inUnits]
    calc (top : ℚ) ≤ power * unitsOfOne := by exact_mod_cast hinfinity
      _ ≤ 10 ^ exponent * unitsOfOne := by gcongr
      _ ≤ significand * 10 ^ exponent * unitsOfOne := by
        gcongr
        exact le_mul_of_one_le_left (by positivity) hone
  by_contra hk
  have hbelow := h.betweenMidpoints.below
  have hlt := cast_units_lt (show k < infinityOrdinal by omega)
  have hle := cast_units_le (show k + 1 ≤ infinityOrdinal by omega)
  linarith

/-- A decimal below `10 ^ (-400)` is nearest to zero. -/
theorem isNearest_zero_of_lt {significand : ℕ} {exponent : ℤ}
    (h : exponent + digitCount significand < -400) : IsNearest (inUnits significand exponent) 0 := by
  have hunits : 2 * unitsOfOne ≤ powerOfTen 401 := by decide +kernel
  have hdigits : (significand : ℚ) ≤ 10 ^ digitCount significand := by
    rw [← cast_powerOfTen]
    exact_mod_cast (lt_powerOfTen_digitCount significand).le
  have hpower : (10 : ℚ) ^ (digitCount significand + exponent) ≤ (powerOfTen 401 : ℚ)⁻¹ := by
    rw [cast_powerOfTen, ← zpow_natCast, ← zpow_neg]
    exact zpow_le_zpow_right₀ (by norm_num) (by push_cast; omega)
  have hpos : (powerOfTen 401 : ℚ) ≠ 0 := by
    rw [cast_powerOfTen]
    positivity
  have hsmall : 2 * inUnits significand exponent ≤ 1 := by
    generalize powerOfTen 401 = power at *
    calc 2 * inUnits significand exponent
        = significand * 10 ^ exponent * (2 * unitsOfOne) := by rw [inUnits]; ring
      _ ≤ 10 ^ digitCount significand * 10 ^ exponent * power := by
        gcongr
        exact_mod_cast hunits
      _ = 10 ^ (digitCount significand + exponent) * power := by
        rw [zpow_add₀ (by norm_num), zpow_natCast]
      _ ≤ (power : ℚ)⁻¹ * power := by gcongr
      _ = 1 := inv_mul_cancel₀ hpos
  have hzero : units 0 = 0 := units_of_lt (by decide)
  have hnext : units (0 + 1) = 1 := units_of_lt (by decide)
  refine isNearest_of_le_midpoint ?_ ?_ fun _ => rfl
  · rw [hzero, Nat.cast_zero, inUnits]
    positivity
  · rw [hzero, hnext, Nat.cast_zero, Nat.cast_one, zero_add]
    exact hsmall

/-- **A decimal reads as the number of the nearest magnitude.** -/
theorem ofDecimal_eq_ofOrdinal {significand k : ℕ} {exponent : ℤ}
    (h : IsNearest (inUnits significand exponent) k) (negative : Bool) :
    ofDecimal negative significand exponent = ofOrdinal negative k := by
  rw [ofDecimal.eq_def]
  by_cases hzero : significand = 0
  · rw [if_pos hzero]
    subst hzero
    have hk : k = 0 := h.unique (by simpa [inUnits] using isNearest_zero)
    rw [hk]
  rw [if_neg hzero]
  by_cases hlarge : 400 < exponent
  · rw [if_pos hlarge]
    have hk := infinityOrdinal_le_of_isNearest hzero hlarge h
    simp [infinity, ofOrdinal, Nat.min_eq_right hk]
  rw [if_neg hlarge]
  by_cases hsmall : exponent + digitCount significand < -400
  · rw [if_pos hsmall, h.unique (isNearest_zero_of_lt hsmall)]
  rw [if_neg hsmall]
  cases exponent with
  | ofNat e =>
    rw [inUnits_ofNat] at h
    rw [h.unique (isNearest_nearestOrdinal _ Nat.one_pos)]
  | negSucc e =>
    rw [inUnits_negSucc] at h
    rw [h.unique (isNearest_nearestOrdinal _ (Nat.pow_pos (by decide)))]

end Binary64

end JudgePolicy
