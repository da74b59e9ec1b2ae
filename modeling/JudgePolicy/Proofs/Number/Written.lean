/-
Floating-point numbers read back from data texts.

* `Numeral.exists_isNearest` — a numeral reads as the number nearest to its value;
* `Numeral.inUnits_data` — both layouts of a decimal, with an exponent and without one, keep
  its value;
* `exists_toNumeral?_iff` — a finite number is written as a shortest decimal that identifies it;
* `toBinary64_of_toNumeral?` — and what is written reads back, the sign of zero included.
-/
import JudgePolicy.Number.Numeral
import JudgePolicy.Proofs.Number.Shortest
namespace JudgePolicy

open Binary64

namespace Numeral

/-- The magnitude that a numeral writes, in units. -/
def inUnits (n : Numeral) : ℚ :=
  Binary64.inUnits (n.whole * powerOfTen n.fraction.length + digitsValue n.fraction)
    (n.exponent.getD 0 - n.fraction.length)

/-- **A numeral reads as the number of the nearest magnitude.** -/
theorem exists_isNearest (n : Numeral) :
    ∃ k, IsNearest n.inUnits k ∧ n.toBinary64 = ofOrdinal n.negative k := by
  obtain ⟨k, hk⟩ := Binary64.exists_isNearest
    (n.whole * powerOfTen n.fraction.length + digitsValue n.fraction)
    (n.exponent.getD 0 - n.fraction.length)
  exact ⟨k, hk, ofDecimal_eq_ofOrdinal hk n.negative⟩

/-! ### Layouts keep the value -/

theorem inUnits_positional (negative : Bool) (d : Decimal) :
    (positional negative d).inUnits = Binary64.inUnits d.significand d.exponent := by
  obtain ⟨significand, exponent⟩ := d
  cases exponent with
  | ofNat e =>
    show Binary64.inUnits (significand * powerOfTen e * powerOfTen 0 + 0) (0 - 0) = _
    rw [powerOfTen_zero, Nat.mul_one, Nat.add_zero, inUnits_mul_powerOfTen]
    congr 1
    simp
  | negSucc e =>
    show Binary64.inUnits (significand / powerOfTen (e + 1) *
      powerOfTen (lowDigits (e + 1) significand).length +
        digitsValue (lowDigits (e + 1) significand))
          (0 - (lowDigits (e + 1) significand).length) = _
    rw [length_lowDigits, value_lowDigits, Nat.div_add_mod']
    congr 1

theorem inUnits_scientific (negative : Bool) (d : Decimal) :
    (scientific negative d).inUnits = Binary64.inUnits d.significand d.exponent := by
  rw [scientific, inUnits, length_lowDigits, value_lowDigits, Nat.div_add_mod', Option.getD_some,
    add_sub_cancel_right]

/-- A zero after the point adds nothing. -/
theorem inUnits_of_fraction_zero (n : Numeral) (h : n.fraction = []) :
    inUnits { n with fraction := [Digit.zero] } = n.inUnits := by
  have hten := inUnits_mul_powerOfTen n.whole 1 (n.exponent.getD 0 - 1)
  rw [Nat.cast_one, sub_add_cancel] at hten
  rw [inUnits, inUnits, h]
  show Binary64.inUnits (n.whole * powerOfTen 1 + 0) (n.exponent.getD 0 - 1) =
    Binary64.inUnits (n.whole * powerOfTen 0 + 0) (n.exponent.getD 0 - 0)
  rw [powerOfTen_zero, Nat.mul_one, Nat.add_zero, Nat.add_zero, sub_zero]
  exact hten

theorem inUnits_data (negative : Bool) (d : Decimal) :
    (data negative d).inUnits = Binary64.inUnits d.significand d.exponent := by
  rw [data]
  split
  · dsimp only
    split
    · next hnil => rw [inUnits_of_fraction_zero _ hnil, inUnits_positional]
    · rw [inUnits_positional]
  · rw [inUnits_scientific]

theorem negative_data (negative : Bool) (d : Decimal) : (data negative d).negative = negative := by
  have hpositional : (positional negative d).negative = negative := by
    obtain ⟨significand, exponent⟩ := d
    cases exponent with
    | ofNat e => rfl
    | negSucc e => rfl
  rw [data]
  split
  · dsimp only
    split
    · exact hpositional
    · exact hpositional
  · rfl

end Numeral

namespace Binary64

/-! ### Written numbers -/

/-- The decimal reads as the number, with the given sign, and no decimal with fewer digits does. -/
structure IsShortest (x : Binary64) (negative : Bool) (d : Decimal) : Prop where
  reads : ofDecimal negative d.significand d.exponent = x
  least : ∀ e : Decimal, ofDecimal negative e.significand e.exponent = x →
    digitCount d.significand ≤ digitCount e.significand

theorem ofOrdinal_eq_number {negative : Bool} {k : ℕ} (h : k ≤ infinityOrdinal) :
    ofOrdinal negative k = .number negative k h := by
  simp only [ofOrdinal, Nat.min_eq_left h]

theorem isShortest_shortest (tie : Tie) (negative : Bool) {k : ℕ} (hk : k < infinityOrdinal) :
    IsShortest (ofOrdinal negative k) negative (shortest tie k) := by
  have hread := (readsBack_iff hk _).mp (readsBack_shortest tie hk)
  refine ⟨ofDecimal_eq_ofOrdinal hread negative, fun e he => ?_⟩
  exact digitCount_shortest_le tie hk
    ((readsBack_iff hk e).mpr ((ofDecimal_eq_ofOrdinal_iff hk negative _ _).mp he))

theorem isFinite_number_iff {negative : Bool} {k : ℕ} {h : k ≤ infinityOrdinal} :
    (number negative k h).isFinite = true ↔ k < infinityOrdinal := decide_eq_true_iff

/-- A number that is written is a finite one, and its shortest decimal is written. -/
theorem toNumeral?_eq_some {x : Binary64} {n : Numeral} (h : x.toNumeral? = some n) :
    ∃ negative k, k < infinityOrdinal ∧ x = ofOrdinal negative k ∧
      n = .data negative (shortest .even k) := by
  cases x with
  | nan => cases h
  | number negative k hle =>
    rw [toNumeral?] at h
    split at h
    · cases h
    · next hne =>
      have hlt : k < infinityOrdinal := Nat.lt_of_le_of_ne hle hne
      exact ⟨negative, k, hlt, (ofOrdinal_eq_number hle).symm, (Option.some.inj h).symm⟩

theorem toNumeral?_ofOrdinal {k : ℕ} (hk : k < infinityOrdinal) (negative : Bool) :
    (ofOrdinal negative k).toNumeral? = some (.data negative (shortest .even k)) := by
  rw [ofOrdinal_eq_number hk.le]
  exact if_neg hk.ne

/-- **Finite numbers, and no others, are written, each as a shortest decimal in the layout of
data texts.** -/
theorem exists_toNumeral?_iff (x : Binary64) :
    (∃ negative d, x.toNumeral? = some (.data negative d) ∧ IsShortest x negative d) ↔
      x.isFinite = true := by
  constructor
  · rintro ⟨negative, d, hwritten, -⟩
    obtain ⟨negative, k, hk, rfl, -⟩ := toNumeral?_eq_some hwritten
    rw [ofOrdinal_eq_number hk.le]
    exact isFinite_number_iff.mpr hk
  · intro hfinite
    cases x with
    | nan => cases hfinite
    | number negative k hle =>
      have hk := isFinite_number_iff.mp hfinite
      rw [← ofOrdinal_eq_number hle]
      exact ⟨negative, shortest .even k, toNumeral?_ofOrdinal hk negative,
        isShortest_shortest .even negative hk⟩

/-- A written number reads back. -/
theorem toBinary64_of_toNumeral? {x : Binary64} {n : Numeral} (h : x.toNumeral? = some n) :
    n.toBinary64 = x := by
  obtain ⟨negative, k, hk, rfl, rfl⟩ := toNumeral?_eq_some h
  obtain ⟨j, hnear, hread⟩ := (Numeral.data negative (shortest .even k)).exists_isNearest
  rw [Numeral.inUnits_data] at hnear
  have hback := (readsBack_iff hk _).mp (readsBack_shortest .even hk)
  rw [hread, Numeral.negative_data, hnear.unique hback]

end Binary64

end JudgePolicy
