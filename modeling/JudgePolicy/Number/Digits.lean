/-
Decimal digits of natural numbers.

* `value_digits` — the digits of a number read back as that number;
* `value_lowDigits` — the last `k` digits hold the remainder modulo `10 ^ k`;
* `spanDigits_append` — scanning takes a run of digits and stops after it.

Design notes: a digit is a `Fin 10`, so a list of digits needs no side
condition.  Lists of digits have the most significant digit first.
-/
namespace JudgePolicy

abbrev Digit := Fin 10

namespace Digit

def char (d : Digit) : Char := Nat.digitChar d.val

def zero : Digit := ⟨0, by decide⟩

/-- The digit a character stands for; only `0` to `9` stand for one. -/
def ofChar? (c : Char) : Option Digit :=
  if h : 48 ≤ c.toNat ∧ c.toNat ≤ 57 then some ⟨c.toNat - 48, by omega⟩ else none

@[simp] theorem ofChar?_char (d : Digit) : ofChar? d.char = some d := by
  revert d
  decide

end Digit

/-- The number a list of digits stands for. -/
def digitsValue (ds : List Digit) : Nat := ds.foldl (fun n d => 10 * n + d.val) 0

theorem digitsValue_concat (ds : List Digit) (d : Digit) :
    digitsValue (ds ++ [d]) = 10 * digitsValue ds + d.val := by
  simp [digitsValue]

/-- The power of ten with `k` zeros. -/
def powerOfTen (k : Nat) : Nat := Nat.pow 10 k

theorem powerOfTen_zero : powerOfTen 0 = 1 := rfl

theorem powerOfTen_succ (k : Nat) : powerOfTen (k + 1) = 10 * powerOfTen k :=
  Nat.mul_comm (powerOfTen k) 10

/-- The last `k` digits of `n`. -/
def lowDigits : Nat → Nat → List Digit
  | 0, _ => []
  | k + 1, n => lowDigits k (n / 10) ++ [Fin.ofNat 10 n]

@[simp] theorem length_lowDigits (k n : Nat) : (lowDigits k n).length = k := by
  induction k generalizing n with
  | zero => rfl
  | succ k ih => simp [lowDigits, ih]

/-- The last `k` digits hold the remainder modulo `10 ^ k`. -/
theorem value_lowDigits (k n : Nat) : digitsValue (lowDigits k n) = n % powerOfTen k := by
  induction k generalizing n with
  | zero => simp [lowDigits, digitsValue, powerOfTen_zero, Nat.mod_one]
  | succ k ih =>
    rw [lowDigits, digitsValue_concat, ih, powerOfTen_succ, Nat.mod_mul]
    simp [Fin.ofNat]
    omega

/-- How many digits a number is written with; zero has one. -/
def digitCount (n : Nat) : Nat := (Nat.toDigits 10 n).length

theorem digitCount_of_lt {n : Nat} (h : n < 10) : digitCount n = 1 := by
  simp [digitCount, Nat.toDigits_of_lt_base h]

theorem digitCount_of_ge {n : Nat} (h : 10 ≤ n) :
    digitCount n = digitCount (n / 10) + 1 := by
  rw [digitCount, digitCount, Nat.toDigits_of_base_le (by omega) h]
  simp

theorem lt_powerOfTen_digitCount (n : Nat) : n < powerOfTen (digitCount n) := by
  induction n using Nat.strongRecOn with
  | _ n ih =>
    by_cases h : n < 10
    · rw [digitCount_of_lt h]
      exact h
    · rw [digitCount_of_ge (by omega), powerOfTen_succ]
      have := ih (n / 10) (by omega)
      omega

theorem digitCount_le {w n : Nat} (hw : 0 < w) (h : n < powerOfTen w) : digitCount n ≤ w := by
  induction w generalizing n with
  | zero => omega
  | succ w ih =>
    by_cases hn : n < 10
    · rw [digitCount_of_lt hn]
      omega
    · rw [powerOfTen_succ] at h
      have hmore : w ≠ 0 := by
        rintro rfl
        rw [powerOfTen_zero] at h
        omega
      have htail := ih (Nat.pos_of_ne_zero hmore) (show n / 10 < powerOfTen w by omega)
      rw [digitCount_of_ge (by omega)]
      omega

theorem digitCount_pos (n : Nat) : 0 < digitCount n := by
  by_cases h : n < 10
  · rw [digitCount_of_lt h]
    omega
  · rw [digitCount_of_ge (by omega)]
    omega

/-- A number begins with a digit other than zero. -/
theorem powerOfTen_le {n k : Nat} (hn : n ≠ 0) (hk : k < digitCount n) : powerOfTen k ≤ n := by
  induction n using Nat.strongRecOn generalizing k with
  | _ n ih =>
    cases k with
    | zero =>
      rw [powerOfTen_zero]
      omega
    | succ k =>
      by_cases h : n < 10
      · rw [digitCount_of_lt h] at hk
        omega
      · rw [digitCount_of_ge (by omega)] at hk
        have hrest := ih (n / 10) (by omega) (by omega) (show k < digitCount (n / 10) by omega)
        rw [powerOfTen_succ]
        omega

/-- The digits of a number, without leading zeros; zero has the digit `0`. -/
def digits (n : Nat) : List Digit := lowDigits (digitCount n) n

@[simp] theorem value_digits (n : Nat) : digitsValue (digits n) = n := by
  rw [digits, value_lowDigits]
  exact Nat.mod_eq_of_lt (lt_powerOfTen_digitCount n)

theorem digits_ne_nil (n : Nat) : digits n ≠ [] := by
  have h : 0 < digitCount n := by
    by_cases h : n < 10
    · simp [digitCount_of_lt h]
    · simp [digitCount_of_ge (show 10 ≤ n by omega)]
  intro hn
  have := congrArg List.length hn
  simp [digits] at this
  omega

theorem digits_of_lt {n : Nat} (h : n < 10) : digits n = [⟨n, h⟩] := by
  simp [digits, digitCount_of_lt h, lowDigits, Fin.ofNat, Nat.mod_eq_of_lt h]

theorem digits_of_ge {n : Nat} (h : 10 ≤ n) :
    digits n = digits (n / 10) ++ [Fin.ofNat 10 n] := by
  rw [digits, digitCount_of_ge h, lowDigits, digits]

/-- Only zero is written with a leading zero. -/
theorem digits_ne_zero_cons {n : Nat} (d : Digit) (ds : List Digit) :
    digits n ≠ 0 :: d :: ds := by
  have head : ∀ n : Nat, 0 < n → ∀ e ∈ (digits n).head?, e ≠ 0 := by
    intro n
    induction n using Nat.strongRecOn with
    | _ n ih =>
      intro hn e he
      by_cases h : n < 10
      · rw [digits_of_lt h] at he
        have : e = ⟨n, h⟩ := by simpa using he.symm
        subst this
        exact fun h0 => by
          have := congrArg Fin.val h0
          simp at this
          omega
      · rw [digits_of_ge (by omega), List.head?_append] at he
        have := ih (n / 10) (by omega) (by omega)
        cases hd : (digits (n / 10)).head? with
        | none => exact absurd (List.head?_eq_none_iff.1 hd) (digits_ne_nil _)
        | some f =>
          rw [hd] at he
          simp only [Option.some_or, Option.mem_def, Option.some.injEq] at he
          exact he ▸ this f (by simp [hd])
  intro h
  by_cases hn : n < 10
  · rw [digits_of_lt hn] at h
    simp at h
  · exact head n (by omega) 0 (by simp [h]) rfl

/-- The digits a text begins with, and what follows them. -/
def spanDigits : List Char → List Digit × List Char
  | [] => ([], [])
  | c :: rest =>
    match Digit.ofChar? c with
    | some d =>
      let run := spanDigits rest
      (d :: run.1, run.2)
    | none => ([], c :: rest)

/-- A text that does not begin with a digit. -/
def NoDigitFirst (cs : List Char) : Prop := ∀ c ∈ cs.head?, Digit.ofChar? c = none

theorem spanDigits_of_noDigitFirst {cs : List Char} (h : NoDigitFirst cs) :
    spanDigits cs = ([], cs) := by
  cases cs with
  | nil => rfl
  | cons c rest => simp [spanDigits, h c rfl]

/-- Scanning takes a run of digits and stops after it. -/
theorem spanDigits_append (ds : List Digit) {rest : List Char} (h : NoDigitFirst rest) :
    spanDigits (ds.map Digit.char ++ rest) = (ds, rest) := by
  induction ds with
  | nil => exact spanDigits_of_noDigitFirst h
  | cons d ds ih => simp [spanDigits, ih]

end JudgePolicy
