/-
The decimal that is found for a floating-point number is the shortest that reads back.

* `readsBack_iff` — a decimal reads back as a magnitude if no other magnitude is nearer;
* `exists_onGrid?_seventeen` — decimals of seventeen digits lie closer together than the
  magnitudes, so the nearer neighbour on their grid reads back;
* `readsBack_shortest`, `digitCount_shortest_le` — the decimal that is found reads back, and no
  decimal with fewer digits does.

Design notes: a magnitude and the decimals of a grid are compared as multiples of
`10 ^ (-1074)`, where all of them are whole.  What lies between a decimal that reads back and
the magnitude reads back as well; so a short decimal that reads back, and lies on a grid or
below all of it, shows that a neighbour on the grid does.
-/
import JudgePolicy.Number.Shortest
import JudgePolicy.Proofs.Number.Nearest
namespace JudgePolicy

namespace Binary64

/-! ### Decimals that read back -/

theorem exists_isNearest (significand : ℕ) (exponent : ℤ) :
    ∃ k, IsNearest (inUnits significand exponent) k := by
  cases exponent with
  | ofNat e =>
    rw [inUnits_ofNat]
    exact ⟨_, isNearest_nearestOrdinal _ Nat.one_pos⟩
  | negSucc e =>
    rw [inUnits_negSucc]
    exact ⟨_, isNearest_nearestOrdinal _ (Nat.pow_pos (by decide))⟩

/-- A decimal reads as a finite number exactly if that has the nearest magnitude. -/
theorem ofDecimal_eq_ofOrdinal_iff {k : ℕ} (hk : k < infinityOrdinal) (negative : Bool)
    (significand : ℕ) (exponent : ℤ) :
    ofDecimal negative significand exponent = ofOrdinal negative k ↔
      IsNearest (inUnits significand exponent) k := by
  constructor
  · intro hread
    obtain ⟨j, hj⟩ := exists_isNearest significand exponent
    rw [ofDecimal_eq_ofOrdinal hj] at hread
    have hordinal : min j infinityOrdinal = min k infinityOrdinal :=
      (Binary64.number.inj hread).2
    have hjk : j = k := by omega
    exact hjk ▸ hj
  · intro hnear
    exact ofDecimal_eq_ofOrdinal hnear negative

theorem readsBack_iff {k : ℕ} (hk : k < infinityOrdinal) (d : Decimal) :
    readsBack k d = true ↔ IsNearest (inUnits d.significand d.exponent) k := by
  rw [readsBack, beq_iff_eq]
  exact ofDecimal_eq_ofOrdinal_iff hk false d.significand d.exponent

theorem isNearest_units (k : ℕ) : IsNearest (units k) k := by
  have hnext := cast_units_lt (Nat.lt_succ_self k)
  refine isNearest_of_le_midpoint le_rfl (by linarith) fun htie => ?_
  linarith

/-! ### The grids -/

/-- How many multiples of `10 ^ (-1074)` make a unit. -/
@[irreducible] def finestOfUnit : ℕ := Nat.pow 5 1074

theorem exactSignificand_eq (k : ℕ) : exactSignificand k = units k * finestOfUnit := by
  unfold finestOfUnit
  rfl

theorem finestOfUnit_pos : 0 < finestOfUnit := by decide +kernel

theorem exactSignificand_pos {k : ℕ} (hk : 0 < k) : 0 < exactSignificand k := by
  have hunits : 0 < units k := Nat.zero_lt_of_lt (units_strictMono hk)
  rw [exactSignificand_eq]
  exact Nat.mul_pos hunits finestOfUnit_pos

theorem zpow_sub_mul_powerOfTen (n m : ℕ) :
    (10 : ℚ) ^ ((n : ℤ) - (m : ℤ)) * powerOfTen m = powerOfTen n := by
  rw [cast_powerOfTen, cast_powerOfTen, ← zpow_natCast, ← zpow_natCast,
    ← zpow_add₀ (by norm_num), sub_add_cancel]

theorem inUnits_mul_finestOfUnit (s n : ℕ) :
    inUnits s ((n : ℤ) - 1074) * finestOfUnit = (s * powerOfTen n : ℕ) := by
  have hfinest : unitsOfOne * finestOfUnit = powerOfTen 1074 := by decide +kernel
  have hpower := zpow_sub_mul_powerOfTen n 1074
  rw [Nat.cast_ofNat, ← hfinest, Nat.cast_mul] at hpower
  rw [inUnits, mul_assoc, mul_assoc, hpower, Nat.cast_mul]

theorem inUnits_le_iff (s n a : ℕ) :
    inUnits s ((n : ℤ) - 1074) ≤ a ↔ s * powerOfTen n ≤ a * finestOfUnit := by
  have hpos : (0 : ℚ) < finestOfUnit := Nat.cast_pos.mpr finestOfUnit_pos
  rw [← mul_le_mul_iff_left₀ hpos, inUnits_mul_finestOfUnit]
  exact_mod_cast Iff.rfl

theorem le_inUnits_iff (s n a : ℕ) :
    a ≤ inUnits s ((n : ℤ) - 1074) ↔ a * finestOfUnit ≤ s * powerOfTen n := by
  have hpos : (0 : ℚ) < finestOfUnit := Nat.cast_pos.mpr finestOfUnit_pos
  rw [← mul_le_mul_iff_left₀ hpos, inUnits_mul_finestOfUnit]
  exact_mod_cast Iff.rfl

theorem two_mul_inUnits (s : ℕ) (e : ℤ) : 2 * inUnits s e = inUnits (2 * s) e := by
  rw [inUnits, inUnits, Nat.cast_mul, Nat.cast_ofNat, mul_assoc, mul_assoc, mul_assoc]

section Neighbours

variable {k s n : ℕ}

/-- A decimal above a magnitude by less than half of the gap reads back. -/
theorem isNearest_of_close_above (hle : exactSignificand k ≤ s * powerOfTen n)
    (hclose : 2 * (s * powerOfTen n) < 2 * exactSignificand k + gap k * finestOfUnit) :
    IsNearest (inUnits s ((n : ℤ) - 1074)) k := by
  rw [exactSignificand_eq] at hle hclose
  have hmid : 2 * inUnits s ((n : ℤ) - 1074) < units k + units (k + 1) := by
    rw [← Nat.cast_add, ← not_le, two_mul_inUnits, le_inUnits_iff, units_succ, not_le]
    linarith
  exact isNearest_of_le_midpoint ((le_inUnits_iff s n _).mpr hle) hmid.le
    fun htie => absurd htie hmid.ne

/-- A decimal below a magnitude by less than half of the gap reads back. -/
theorem isNearest_of_close_below (hle : s * powerOfTen n ≤ exactSignificand (k + 1))
    (hclose : 2 * exactSignificand (k + 1) < 2 * (s * powerOfTen n) + gap k * finestOfUnit) :
    IsNearest (inUnits s ((n : ℤ) - 1074)) (k + 1) := by
  rw [exactSignificand_eq] at hle hclose
  have hmid : (units k + units (k + 1) : ℚ) < 2 * inUnits s ((n : ℤ) - 1074) := by
    rw [← Nat.cast_add, ← not_le, two_mul_inUnits, inUnits_le_iff, not_le]
    rw [units_succ] at hclose ⊢
    linarith
  exact isNearest_of_midpoint_le ((inUnits_le_iff s n _).mpr hle) hmid.le
    fun htie => absurd htie hmid.ne'

end Neighbours

variable {tie : Tie} {k n : ℕ} {d : Decimal}

theorem grid_bounds (exact dropped : ℕ) :
    (gridBelow exact dropped).significand * powerOfTen dropped ≤ exact ∧
      exact < (gridAbove exact dropped).significand * powerOfTen dropped := by
  have hpos : 0 < powerOfTen dropped := Nat.pow_pos (by decide)
  have hdiv := Nat.div_add_mod exact (powerOfTen dropped)
  have hmod := Nat.mod_lt exact hpos
  rw [gridBelow, gridAbove, Nat.succ_mul, Nat.mul_comm (_ / _)]
  omega

theorem of_choose_eq_some {test : Decimal → Bool} {preferBelow : Bool} {below above : Decimal}
    (h : choose test preferBelow below above = some d) :
    test d = true ∧ (d = below ∨ d = above) := by
  rw [choose] at h
  split at h
  · next hbelow habove =>
    split at h
    · exact Option.some.inj h ▸ ⟨hbelow, .inl rfl⟩
    · exact Option.some.inj h ▸ ⟨habove, .inr rfl⟩
  · next hbelow _ => exact Option.some.inj h ▸ ⟨hbelow, .inl rfl⟩
  · next _ habove => exact Option.some.inj h ▸ ⟨habove, .inr rfl⟩
  · cases h

theorem exists_choose {test : Decimal → Bool} {preferBelow : Bool} {below above : Decimal}
    (h : test below = true ∨ test above = true) :
    ∃ d, choose test preferBelow below above = some d := by
  rw [choose]
  split
  · split
    · exact ⟨below, rfl⟩
    · exact ⟨above, rfl⟩
  · exact ⟨below, rfl⟩
  · exact ⟨above, rfl⟩
  · next hbelow habove =>
    obtain h | h := h
    · exact absurd (hbelow.symm.trans h) Bool.false_ne_true
    · exact absurd (habove.symm.trans h) Bool.false_ne_true

/-- How many digits the grid of decimals with `n` digits drops from the exact value. -/
def droppedDigits (k n : ℕ) : ℕ := digitCount (exactSignificand k) - n

theorem onGrid?_eq (tie : Tie) (k n : ℕ) :
    onGrid? tie k n =
      choose (readsBack k) (isNearerBelow tie (exactSignificand k) (droppedDigits k n))
        (gridBelow (exactSignificand k) (droppedDigits k n))
        (gridAbove (exactSignificand k) (droppedDigits k n)) := by
  rw [onGrid?, droppedDigits]

theorem powerOfTen_add (m n : ℕ) : powerOfTen (m + n) = powerOfTen m * powerOfTen n :=
  Nat.pow_add 10 m n

theorem powerOfTen_mono {m n : ℕ} (h : m ≤ n) : powerOfTen m ≤ powerOfTen n :=
  Nat.pow_le_pow_right (by decide) h

/-- Decimals of seventeen digits lie closer together than the magnitudes. -/
theorem powerOfTen_droppedDigits_lt (k : ℕ) :
    powerOfTen (droppedDigits (k + 1) 17) < gap k * finestOfUnit := by
  have hfine : 1 < finestOfUnit := by decide +kernel
  have hpos : 0 < gap k * finestOfUnit := Nat.mul_pos (gap_pos k) finestOfUnit_pos
  have hexact : exactSignificand (k + 1) ≤ 2 * binadeSize * (gap k * finestOfUnit) := by
    rw [exactSignificand_eq, ← Nat.mul_assoc]
    exact Nat.mul_le_mul_right finestOfUnit (units_succ_le k)
  have hnonzero := (exactSignificand_pos (Nat.succ_pos k)).ne'
  rw [droppedDigits]
  generalize exactSignificand (k + 1) = exact at *
  by_cases hfew : digitCount exact ≤ 17
  · rw [Nat.sub_eq_zero_of_le hfew, powerOfTen_zero]
    exact Nat.lt_of_lt_of_le hfine (Nat.le_mul_of_pos_left finestOfUnit (gap_pos k))
  · have hfirst : powerOfTen (digitCount exact - 1) ≤ exact := powerOfTen_le hnonzero (by omega)
    have hsplit : digitCount exact - 1 = digitCount exact - 17 + 16 := by omega
    rw [hsplit, powerOfTen_add] at hfirst
    have hsixteen : powerOfTen 16 = 10000000000000000 := rfl
    have hsize : binadeSize = 4503599627370496 := rfl
    generalize gap k * finestOfUnit = spread at *
    rw [hsixteen] at hfirst
    rw [hsize] at hexact
    omega

theorem exists_onGrid?_seventeen (tie : Tie) (hk : k + 1 < infinityOrdinal) :
    ∃ d, onGrid? tie (k + 1) 17 = some d := by
  have hstep := powerOfTen_droppedDigits_lt k
  have hgap := Nat.mul_le_mul_right finestOfUnit (gap_le_gap_succ k)
  rw [onGrid?_eq]
  generalize droppedDigits (k + 1) 17 = dropped at *
  obtain ⟨hbelow, habove⟩ := grid_bounds (exactSignificand (k + 1)) dropped
  have hnext : (gridAbove (exactSignificand (k + 1)) dropped).significand * powerOfTen dropped =
      (gridBelow (exactSignificand (k + 1)) dropped).significand * powerOfTen dropped +
        powerOfTen dropped := Nat.succ_mul _ _
  refine exists_choose ?_
  rw [readsBack_iff hk, readsBack_iff hk]
  -- the nearer neighbour is less than half a gap away
  by_cases hnear : 2 * exactSignificand (k + 1) <
      2 * ((gridBelow (exactSignificand (k + 1)) dropped).significand * powerOfTen dropped) +
        gap k * finestOfUnit
  · exact .inl (isNearest_of_close_below hbelow hnear)
  · exact .inr (isNearest_of_close_above habove.le (by omega))

/-! ### The search through the grids -/

/-- The decimal that is found comes from the first grid that has one. -/
theorem exists_grid_of_firstOnGrid? (h : firstOnGrid? tie k = some d) :
    ∃ m, 1 ≤ m ∧ m ≤ 17 ∧ onGrid? tie k m = some d ∧
      ∀ i, 1 ≤ i → i < m → onGrid? tie k i = none := by
  obtain ⟨before, m, after, hsplit, hfound, hnone⟩ := List.findSome?_eq_some_iff.mp h
  obtain ⟨count, -, rfl, hafter⟩ := List.range'_eq_append_iff.mp hsplit
  obtain ⟨rfl, hmore, -⟩ := List.range'_eq_cons_iff.mp hafter.symm
  refine ⟨1 + count * 1, by omega, by omega, hfound, fun i hi hlt => hnone i ?_⟩
  rw [List.mem_range'_1]
  omega

theorem exists_firstOnGrid? (tie : Tie) (hk : k + 1 < infinityOrdinal) :
    ∃ d, firstOnGrid? tie (k + 1) = some d := by
  obtain ⟨d, hd⟩ := exists_onGrid?_seventeen tie hk
  refine Option.isSome_iff_exists.mp (List.findSome?_isSome_iff.mpr ⟨17, by decide, ?_⟩)
  rw [hd, Option.isSome_some]

/-- The decimal before its trailing zeros go comes from the first grid that has one. -/
theorem exists_shortest_eq (tie : Tie) (hk : k + 1 < infinityOrdinal) :
    ∃ m d, 1 ≤ m ∧ m ≤ 17 ∧ shortest tie (k + 1) = d.stripped (digitCount d.significand) ∧
      onGrid? tie (k + 1) m = some d ∧ ∀ i, 1 ≤ i → i < m → onGrid? tie (k + 1) i = none := by
  obtain ⟨d, hfound⟩ := exists_firstOnGrid? tie hk
  obtain ⟨m, hle, hlt, hgrid, hbefore⟩ := exists_grid_of_firstOnGrid? hfound
  refine ⟨m, d, hle, hlt, ?_, hgrid, hbefore⟩
  rw [shortest, if_neg (Nat.succ_ne_zero k), hfound]
  rfl

/-! ### Trailing zeros -/

theorem inUnits_mul_powerOfTen (s j : ℕ) (e : ℤ) :
    inUnits (s * powerOfTen j) e = inUnits s (e + j) := by
  rw [inUnits, inUnits, Nat.cast_mul, cast_powerOfTen, zpow_add₀ (by norm_num), zpow_natCast]
  ring

theorem inUnits_stripped (fuel : ℕ) (d : Decimal) :
    inUnits (d.stripped fuel).significand (d.stripped fuel).exponent =
      inUnits d.significand d.exponent := by
  induction fuel generalizing d with
  | zero => rfl
  | succ fuel ih =>
    rw [Decimal.stripped]
    split
    · next h =>
      rw [ih]
      have hten := inUnits_mul_powerOfTen (d.significand / 10) 1 d.exponent
      rw [show powerOfTen 1 = 10 from rfl, Nat.div_mul_cancel (Nat.dvd_of_mod_eq_zero h.2)] at hten
      exact hten.symm
    · rfl

theorem significand_stripped_le (fuel : ℕ) (d : Decimal) :
    (d.stripped fuel).significand ≤ d.significand := by
  induction fuel generalizing d with
  | zero => exact Nat.le_refl _
  | succ fuel ih =>
    rw [Decimal.stripped]
    split
    · exact Nat.le_trans (ih _) (Nat.div_le_self d.significand 10)
    · exact Nat.le_refl _

/-- Without its trailing zeros, a power of ten has fewer digits. -/
theorem significand_stripped_lt {fuel m : ℕ} (hm : 0 < m) (hfuel : 0 < fuel)
    (h : d.significand ≤ powerOfTen m) : (d.stripped fuel).significand < powerOfTen m := by
  obtain hlt | heq := Nat.lt_or_eq_of_le h
  · exact Nat.lt_of_le_of_lt (significand_stripped_le fuel d) hlt
  obtain ⟨fuel, rfl⟩ : ∃ f, fuel = f + 1 := ⟨fuel - 1, by omega⟩
  obtain ⟨m, rfl⟩ : ∃ w, m = w + 1 := ⟨m - 1, by omega⟩
  have hpos : 0 < powerOfTen m := Nat.pow_pos (by decide)
  rw [powerOfTen_succ] at heq ⊢
  rw [Decimal.stripped, if_pos (by omega)]
  have hle := significand_stripped_le fuel ⟨d.significand / 10, d.exponent + 1⟩
  change _ ≤ d.significand / 10 at hle
  omega

/-! ### The shortest decimal -/

theorem readsBack_shortest (tie : Tie) (hk : k < infinityOrdinal) :
    readsBack k (shortest tie k) = true := by
  rw [readsBack_iff hk]
  cases k with
  | zero =>
    have hzero : inUnits (shortest tie 0).significand (shortest tie 0).exponent = 0 := by
      show inUnits 0 0 = 0
      rw [inUnits, Nat.cast_zero, zero_mul, zero_mul]
    rw [hzero]
    exact isNearest_zero
  | succ k =>
    obtain ⟨m, d, -, -, hshortest, hgrid, -⟩ := exists_shortest_eq tie hk
    rw [hshortest, inUnits_stripped, ← readsBack_iff hk]
    rw [onGrid?_eq] at hgrid
    exact (of_choose_eq_some hgrid).1

theorem significand_le_of_onGrid? (h : onGrid? tie k n = some d) :
    d.significand ≤ powerOfTen n := by
  have hexact := lt_powerOfTen_digitCount (exactSignificand k)
  have hdigits : powerOfTen (digitCount (exactSignificand k)) ≤
      powerOfTen n * powerOfTen (droppedDigits k n) := by
    rw [← powerOfTen_add, droppedDigits]
    exact powerOfTen_mono (by omega)
  have hbelow : (gridBelow (exactSignificand k) (droppedDigits k n)).significand < powerOfTen n :=
    Nat.div_lt_of_lt_mul (by rw [Nat.mul_comm]; omega)
  rw [onGrid?_eq] at h
  obtain rfl | rfl := (of_choose_eq_some h).2
  · exact hbelow.le
  · exact hbelow

theorem inUnits_mono {s t : ℕ} (h : s ≤ t) (e : ℤ) : inUnits s e ≤ inUnits t e := by
  have hcast : (s : ℚ) ≤ t := Nat.cast_le.mpr h
  rw [inUnits, inUnits]
  gcongr

/-- A decimal of an exponent below a grid's lies below the grid's least decimal, if it has no more
digits. -/
theorem inUnits_le_of_exponent_lt {dropped : ℕ} (hn : digitCount d.significand ≤ n + 1)
    (hexponent : d.exponent < dropped - 1074) :
    inUnits d.significand d.exponent ≤ inUnits (powerOfTen n) ((dropped : ℤ) - 1074) := by
  obtain ⟨j, hj⟩ : ∃ j : ℕ, (dropped : ℤ) - 1074 = d.exponent + (1 + j : ℕ) :=
    ⟨((dropped : ℤ) - 1074 - d.exponent - 1).toNat, by omega⟩
  have hdigits : d.significand ≤ powerOfTen (n + 1) :=
    (Nat.lt_of_lt_of_le (lt_powerOfTen_digitCount d.significand) (powerOfTen_mono hn)).le
  rw [hj, ← inUnits_mul_powerOfTen, ← powerOfTen_add]
  exact inUnits_mono (Nat.le_trans hdigits (powerOfTen_mono (by omega))) d.exponent

/-- No decimal with at most as many digits as those of a grid lies strictly between the two
neighbours on it. -/
theorem outside_of_digitCount_le (hk : 0 < k) (hn : digitCount d.significand ≤ n)
    (hfew : n < digitCount (exactSignificand k)) :
    inUnits d.significand d.exponent ≤
        inUnits (gridBelow (exactSignificand k) (droppedDigits k n)).significand
          ((droppedDigits k n : ℤ) - 1074) ∨
      inUnits (gridAbove (exactSignificand k) (droppedDigits k n)).significand
          ((droppedDigits k n : ℤ) - 1074) ≤
        inUnits d.significand d.exponent := by
  by_cases hexponent : d.exponent < droppedDigits k n - 1074
  · obtain ⟨n, rfl⟩ : ∃ w, n = w + 1 := ⟨n - 1, by have := digitCount_pos d.significand; omega⟩
    have hfirst : powerOfTen (digitCount (exactSignificand k) - 1) ≤ exactSignificand k :=
      powerOfTen_le (exactSignificand_pos hk).ne' (by omega)
    have hsplit : digitCount (exactSignificand k) - 1 = n + droppedDigits k (n + 1) := by
      rw [droppedDigits]
      omega
    rw [hsplit, powerOfTen_add] at hfirst
    have hleast : powerOfTen n ≤
        (gridBelow (exactSignificand k) (droppedDigits k (n + 1))).significand :=
      (Nat.le_div_iff_mul_le (Nat.pow_pos (by decide))).mpr hfirst
    exact .inl (le_trans (inUnits_le_of_exponent_lt hn hexponent) (inUnits_mono hleast _))
  · obtain ⟨j, hj⟩ : ∃ j : ℕ, d.exponent = (droppedDigits k n : ℤ) - 1074 + j :=
      ⟨(d.exponent - ((droppedDigits k n : ℤ) - 1074)).toNat, by omega⟩
    rw [hj, ← inUnits_mul_powerOfTen]
    by_cases hle : d.significand * powerOfTen j ≤
        (gridBelow (exactSignificand k) (droppedDigits k n)).significand
    · exact .inl (inUnits_mono hle _)
    · exact .inr (inUnits_mono (Nat.lt_of_not_le hle) _)

theorem exists_onGrid?_of_readsBack (tie : Tie) (hpos : 0 < k) (hk : k < infinityOrdinal)
    (h : readsBack k d = true) (hn : digitCount d.significand ≤ n) :
    ∃ d', onGrid? tie k n = some d' := by
  rw [onGrid?_eq]
  refine exists_choose ?_
  rw [readsBack_iff hk] at h ⊢
  rw [readsBack_iff hk]
  obtain ⟨hbelow, habove⟩ := grid_bounds (exactSignificand k) (droppedDigits k n)
  rw [exactSignificand_eq] at hbelow habove
  have hle := (inUnits_le_iff _ _ _).mpr hbelow
  have hge := (le_inUnits_iff _ _ _).mpr habove.le
  rw [← exactSignificand_eq] at hle hge
  by_cases hfew : n < digitCount (exactSignificand k)
  · obtain hout | hout := outside_of_digitCount_le hpos hn hfew
    · exact .inl (h.of_between (.inl ⟨hout, hle⟩))
    · exact .inr (h.of_between (.inr ⟨hge, hout⟩))
  · -- the grid is fine enough for the exact value
    have hdropped : droppedDigits k n = 0 := Nat.sub_eq_zero_of_le (Nat.not_lt.mp hfew)
    have hexact : units k * finestOfUnit ≤
        (gridBelow (exactSignificand k) (droppedDigits k n)).significand *
          powerOfTen (droppedDigits k n) := by
      rw [hdropped, gridBelow, powerOfTen_zero, Nat.div_one, Nat.mul_one, exactSignificand_eq]
    have hsame := (le_inUnits_iff _ _ _).mpr hexact
    left
    change IsNearest (inUnits _ ((droppedDigits k n : ℤ) - 1074)) k
    rw [le_antisymm hle hsame]
    exact isNearest_units k

/-- **No decimal that reads back is shorter than the shortest one.** -/
theorem digitCount_shortest_le (tie : Tie) (hk : k < infinityOrdinal) (h : readsBack k d = true) :
    digitCount (shortest tie k).significand ≤ digitCount d.significand := by
  cases k with
  | zero =>
    have hzero : digitCount (shortest tie 0).significand = 1 := by
      show digitCount 0 = 1
      exact digitCount_of_lt (by decide)
    rw [hzero]
    exact digitCount_pos d.significand
  | succ k =>
    obtain ⟨m, found, hm, -, hshortest, hgrid, hbefore⟩ := exists_shortest_eq tie hk
    have hdigits : digitCount (shortest tie (k + 1)).significand ≤ m := by
      rw [hshortest]
      exact digitCount_le hm (significand_stripped_lt hm (digitCount_pos _)
        (significand_le_of_onGrid? hgrid))
    by_contra hlt
    obtain ⟨d', hd'⟩ := exists_onGrid?_of_readsBack tie (Nat.succ_pos k) hk h le_rfl
    have hnone := hbefore _ (digitCount_pos d.significand) (by omega)
    rw [hnone] at hd'
    cases hd'

end Binary64

end JudgePolicy
