/-
A written timestamp reads back.

* `readNumber?_padded` — a number padded to a width reads back, whatever follows;
* `readDate?_render`, `readNanos?_render`, `readTime?_render` — so do its parts;
* `ofText?_text` — and so does every ordinary instant.

Design notes: `IsOrdinary` leaves out the years that are written with a sign, and leap
seconds.  The instant in a leap second reads back only if it is in the last second of a
minute, where leap seconds belong; nothing in the type of instants says that it is.
-/
import JudgePolicy.Proofs.Time.Calendar
import JudgePolicy.Time.Timestamp
namespace JudgePolicy

/-- The instant is in no leap second, and in a year of four digits at most. -/
structure Instant.IsOrdinary (t : Instant) : Prop where
  nanos_lt : t.nanos < 1000000000
  year_nonneg : 0 ≤ t.date.year
  year_le : t.date.year ≤ 9999

namespace Instant

theorem hasYearInRange_of_le {d : Date} (hnonneg : 0 ≤ d.year) (hle : d.year ≤ 9999) :
    hasYearInRange d = true := by
  rw [hasYearInRange, Bool.and_eq_true, decide_eq_true_iff, decide_eq_true_iff]
  omega

end Instant

/-! ### Numbers of a fixed width -/

theorem lowDigits_ne_nil {w : Nat} (hw : 0 < w) (n : Nat) : lowDigits w n ≠ [] := by
  intro hnil
  have hlength := length_lowDigits w n
  rw [hnil, List.length_nil] at hlength
  omega

namespace Timestamp

theorem isBlank_char (d : Digit) : isBlank d.char = false := by
  revert d
  decide

theorem dropBlank_cons {c : Char} (cs : List Char) (h : isBlank c = false) :
    dropBlank (c :: cs) = c :: cs := by
  simp [dropBlank, h]

theorem spanDigitsUpTo_append (ds : List Digit) (rest : List Char) :
    spanDigitsUpTo ds.length (ds.map Digit.char ++ rest) = (ds, rest) := by
  induction ds with
  | nil => rfl
  | cons d ds ih => simp [spanDigitsUpTo, ih]

section Padded

variable {w n : Nat}

theorem padded_eq (hw : 0 < w) (h : n < powerOfTen w) :
    padded w n = (lowDigits w n).map Digit.char := by
  rw [padded, Nat.max_eq_left (digitCount_le hw h)]

/-- A padded number begins with a digit. -/
theorem padded_eq_cons (hw : 0 < w) (h : n < powerOfTen w) :
    ∃ (d : Digit) (cs : List Char), padded w n = d.char :: cs := by
  rw [padded_eq hw h]
  cases hds : lowDigits w n with
  | nil => exact absurd hds (lowDigits_ne_nil hw n)
  | cons d ds => exact ⟨d, _, rfl⟩

theorem dropBlank_padded (hw : 0 < w) (h : n < powerOfTen w) (rest : List Char) :
    dropBlank (padded w n ++ rest) = padded w n ++ rest := by
  obtain ⟨d, cs, hpadded⟩ := padded_eq_cons hw h
  rw [hpadded, List.cons_append, dropBlank_cons _ (isBlank_char d)]

theorem digitsValue_lowDigits (h : n < powerOfTen w) : digitsValue (lowDigits w n) = n := by
  rw [value_lowDigits, Nat.mod_eq_of_lt h]

/-- A number of exactly the greatest width reads back, even if digits follow. -/
theorem readNumber?_padded (hw : 0 < w) (h : n < powerOfTen w) (rest : List Char) :
    readNumber? w (padded w n ++ rest) = some (n, rest) := by
  have hspan := spanDigitsUpTo_append (lowDigits w n) rest
  rw [length_lowDigits] at hspan
  rw [readNumber?, dropBlank_padded hw h, padded_eq hw h, hspan]
  split
  · next hnil => exact absurd (Prod.mk.inj hnil).1 (lowDigits_ne_nil hw n)
  · next ds rest' _ hds =>
    obtain ⟨rfl, rfl⟩ := Prod.mk.inj hds
    rw [digitsValue_lowDigits h]

end Padded

theorem readMark?_cons {mark : Char} (rest : List Char) (h : isBlank mark = false) :
    readMark? mark (mark :: rest) = some rest := by
  rw [readMark?, dropBlank_cons rest h]
  simp

/-! ### Dates -/

theorem readYear?_render {year : Int} (hnonneg : 0 ≤ year) (hle : year ≤ 9999)
    (rest : List Char) : readYear? (renderYear year ++ rest) = some (year, rest) := by
  have hlt : year.natAbs < powerOfTen 4 := by
    show year.natAbs < 10000
    omega
  have hread := readNumber?_padded (by decide) hlt rest
  rw [renderYear, if_neg (by omega), if_neg (by omega), readYear?,
    dropBlank_padded (by decide) hlt]
  obtain ⟨d, cs, hpadded⟩ := padded_eq_cons (w := 4) (by decide) hlt
  have hsign : d.char ≠ '-' ∧ d.char ≠ '+' :=
    (by decide : ∀ d : Digit, d.char ≠ '-' ∧ d.char ≠ '+') d
  rw [hpadded, List.cons_append] at hread ⊢
  split
  · next h => exact absurd (List.cons.inj h).1 hsign.1
  · next h => exact absurd (List.cons.inj h).1 hsign.2
  · rw [hread, Option.map_some, Int.natAbs_of_nonneg hnonneg]

theorem readDate?_render {d : Date} (hvalid : d.isValid = true) (hnonneg : 0 ≤ d.year)
    (hle : d.year ≤ 9999) (rest : List Char) :
    readDate? (renderDate d ++ rest) = some (d, rest) := by
  obtain ⟨hmonth, hday⟩ := Date.lt_of_isValid hvalid
  have hrange := Instant.hasYearInRange_of_le hnonneg hle
  have hdash : isBlank '-' = false := by decide
  simp only [readDate?, renderDate, List.append_assoc, List.cons_append,
    readYear?_render hnonneg hle, readMark?_cons _ hdash,
    readNumber?_padded (w := 2) (by decide) hmonth, readNumber?_padded (w := 2) (by decide) hday,
    Option.bind_eq_bind, Option.bind_some, hvalid, hrange]
  rfl

/-! ### Times of day -/

/-- A fraction of `w` digits reads back, in units of its last digit. -/
theorem readNanos?_padded {w n : Nat} (hw : 0 < w) (hnine : w ≤ 9) (h : n < powerOfTen w)
    {rest : List Char} (hrest : NoDigitFirst rest) :
    readNanos? ('.' :: padded w n ++ rest) = some (n * powerOfTen (9 - w), rest) := by
  have hspan := spanDigits_append (lowDigits w n) hrest
  rw [List.cons_append, readNanos?, padded_eq hw h, hspan]
  split
  · next hnil => exact absurd (Prod.mk.inj hnil).1 (lowDigits_ne_nil hw n)
  · next ds rest' _ hds =>
    obtain ⟨rfl, rfl⟩ := Prod.mk.inj hds
    have hkept : (lowDigits w n).take 9 = lowDigits w n :=
      List.take_of_length_le (by rw [length_lowDigits]; exact hnine)
    simp only [hkept, digitsValue_lowDigits h, length_lowDigits]

theorem readNanos?_render {n : Nat} (h : n < 1000000000) (rest : List Char) :
    readNanos? (renderNanos n ++ 'Z' :: rest) = some (n, 'Z' :: rest) := by
  have hrest : NoDigitFirst ('Z' :: rest) := by
    rintro c hc
    obtain rfl := Option.some.inj hc
    decide
  rw [renderNanos]
  split
  · next hzero =>
    rw [hzero]
    rfl
  split
  · next hthree =>
    rw [readNanos?_padded (by decide) (by decide) (show n / 1000000 < 1000 by omega) hrest]
    show some (n / 1000000 * 1000000, _) = _
    rw [Nat.div_mul_cancel (Nat.dvd_of_mod_eq_zero hthree)]
  split
  · next hsix =>
    rw [readNanos?_padded (by decide) (by decide) (show n / 1000 < 1000000 by omega) hrest]
    show some (n / 1000 * 1000, _) = _
    rw [Nat.div_mul_cancel (Nat.dvd_of_mod_eq_zero hsix)]
  · rw [readNanos?_padded (by decide) (by decide) (show n < 1000000000 by omega) hrest]
    show some (n * 1, _) = _
    rw [Nat.mul_one]

theorem readTime?_render {second nanos : Nat} (hsecond : second < 86400)
    (hnanos : nanos < 1000000000) (rest : List Char) :
    readTime? (renderTime second nanos ++ 'Z' :: rest) = some (second, nanos, 'Z' :: rest) := by
  have hcolon : isBlank ':' = false := by decide
  have hhour : second / 3600 < powerOfTen 2 := show _ < 100 by omega
  have hminute : second / 60 % 60 < powerOfTen 2 := show _ < 100 by omega
  have hsecond' : second % 60 < powerOfTen 2 := show _ < 100 by omega
  have hleap : nanos / 1000000000 = 0 := by omega
  have hwhole : nanos % 1000000000 = nanos := by omega
  have hclock : second / 3600 < 24 ∧ second / 60 % 60 < 60 ∧ second % 60 ≤ 60 := by omega
  have hzero : second % 60 / 60 = 0 := by omega
  have hsum : second / 3600 * 3600 + second / 60 % 60 * 60 + second % 60 = second := by omega
  simp only [readTime?, renderTime, hleap, hwhole, Nat.add_zero, List.append_assoc,
    List.cons_append, readNumber?_padded (w := 2) (by decide) hhour,
    readNumber?_padded (w := 2) (by decide) hminute,
    readNumber?_padded (w := 2) (by decide) hsecond', readMark?_cons _ hcolon,
    readNanos?_render hnanos, Option.bind_eq_bind, Option.bind_some, if_pos hclock, hzero,
    Nat.sub_zero, Nat.zero_mul, hsum]

/-! ### Instants -/

variable {t : Instant}

theorem read?_render (h : t.IsOrdinary) : read? (render t) = some t := by
  have hvalid : t.date.isValid = true := Date.isValid_ofDay _
  have hsecond : t.secondOfDay < 86400 := by
    rw [Instant.secondOfDay]
    omega
  have hrange := Instant.hasYearInRange_of_le h.year_nonneg h.year_le
  have hseconds : t.date.toDay * 86400 + t.secondOfDay - 0 = t.seconds := by
    rw [Instant.date, Date.toDay_ofDay, Instant.secondOfDay]
    omega
  have hseparator : ∀ cs, readSeparator? ('T' :: cs) = some cs := fun _ => rfl
  have hoffset : readOffset? (dropBlank ['Z']) = some (0, []) := by decide
  simp only [read?, render, List.append_assoc, List.cons_append,
    readDate?_render hvalid h.year_nonneg h.year_le, hseparator,
    readTime?_render hsecond h.nanos_lt, Option.bind_eq_bind, Option.bind_some, hoffset,
    dif_pos t.nanos_lt, hseconds, hrange]
  rfl

/-- **A written instant reads back**, if it is an ordinary one. -/
theorem ofText?_text (h : t.IsOrdinary) : ofText? (text t) = some t := by
  rw [ofText?, text, String.toList_ofList, read?_render h]

end Timestamp

end JudgePolicy
