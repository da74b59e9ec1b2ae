/-
Timestamps: instants written as a date and a time with an offset from UTC.

Writing is exact and has one form: UTC with the mark `Z`, and the shortest of
0, 3, 6 or 9 fraction digits that loses nothing.  Reading takes more:

* the date and the time are separated by `T`, `t` or a space;
* blanks may stand before a number and before a separator of numbers;
* months, days, hours, minutes and seconds may have one digit, a year from one
  to four, or any number after a sign;
* a fraction has at least one digit, and digits after the ninth are dropped;
* the offset is `Z`, `z`, `UTC`, or a sign, two digits of hours, any colons and
  blanks, and two digits of minutes;
* second 60 is the leap second after second 59.
-/
import JudgePolicy.Number.Digits
import JudgePolicy.Text.Blank
import JudgePolicy.Time.Instant
namespace JudgePolicy

namespace Timestamp

/-! ### Writing -/

/-- At least `width` digits of a number. -/
def padded (width n : Nat) : List Char :=
  (lowDigits (max width (digitCount n)) n).map Digit.char

/-- A year: four digits, and a sign outside of 0 to 9999. -/
def renderYear (year : Int) : List Char :=
  if year < 0 then '-' :: padded 4 year.natAbs
  else if 9999 < year then '+' :: padded 4 year.natAbs
  else padded 4 year.natAbs

/-- The shortest of 0, 3, 6 or 9 fraction digits that is exact. -/
def renderNanos (nanos : Nat) : List Char :=
  if nanos = 0 then []
  else if nanos % 1000000 = 0 then '.' :: padded 3 (nanos / 1000000)
  else if nanos % 1000 = 0 then '.' :: padded 6 (nanos / 1000)
  else '.' :: padded 9 nanos

def renderDate (d : Date) : List Char :=
  renderYear d.year ++ '-' :: padded 2 d.month ++ '-' :: padded 2 d.day

/-- The written time of day; nanoseconds of a leap second count as second 60. -/
def renderTime (secondOfDay nanos : Nat) : List Char :=
  let leap := nanos / 1000000000
  padded 2 (secondOfDay / 3600) ++ ':' :: padded 2 (secondOfDay / 60 % 60) ++
    ':' :: padded 2 (secondOfDay % 60 + leap) ++ renderNanos (nanos % 1000000000)

def render (t : Instant) : List Char :=
  renderDate t.date ++ 'T' :: renderTime t.secondOfDay t.nanos ++ ['Z']

def text (t : Instant) : String := String.ofList (render t)

/-! ### Reading -/

/-- At most `limit` digits that a text begins with, and what follows them. -/
def spanDigitsUpTo : Nat → List Char → List Digit × List Char
  | 0, cs => ([], cs)
  | _ + 1, [] => ([], [])
  | limit + 1, c :: rest =>
    match Digit.ofChar? c with
    | some d =>
      let run := spanDigitsUpTo limit rest
      (d :: run.1, run.2)
    | none => ([], c :: rest)

/-- A number of one to `limit` digits, after any blanks. -/
def readNumber? (limit : Nat) (cs : List Char) : Option (Nat × List Char) :=
  match spanDigitsUpTo limit (dropBlank cs) with
  | ([], _) => none
  | (ds, rest) => some (digitsValue ds, rest)

/-- A number of any number of digits. -/
def readLongNumber? (cs : List Char) : Option (Nat × List Char) :=
  match spanDigits cs with
  | ([], _) => none
  | (ds, rest) => some (digitsValue ds, rest)

/-- A given character, after any blanks. -/
def readMark? (mark : Char) (cs : List Char) : Option (List Char) :=
  match dropBlank cs with
  | c :: rest => if c = mark then some rest else none
  | [] => none

/-- A year: up to four digits, or a sign and any number of digits. -/
def readYear? (cs : List Char) : Option (Int × List Char) :=
  match dropBlank cs with
  | '-' :: rest => (readLongNumber? rest).map fun r => (-(r.1 : Int), r.2)
  | '+' :: rest => (readLongNumber? rest).map fun r => ((r.1 : Int), r.2)
  | cs => (readNumber? 4 cs).map fun r => ((r.1 : Int), r.2)

/-- A date that the calendar knows, within the years that are kept. -/
def readDate? (cs : List Char) : Option (Date × List Char) := do
  let (year, cs) ← readYear? cs
  let cs ← readMark? '-' cs
  let (month, cs) ← readNumber? 2 cs
  let cs ← readMark? '-' cs
  let (day, cs) ← readNumber? 2 cs
  let date : Date := ⟨year, month, day⟩
  if date.isValid && Instant.hasYearInRange date then some (date, cs) else none

/-- An optional fraction, in nanoseconds. -/
def readNanos? : List Char → Option (Nat × List Char)
  | '.' :: rest =>
    match spanDigits rest with
    | ([], _) => none
    | (ds, rest) =>
      let kept := ds.take 9
      some (digitsValue kept * powerOfTen (9 - kept.length), rest)
  | cs => some (0, cs)

/-- A time of day: its whole seconds, and nanoseconds below two billion. -/
def readTime? (cs : List Char) : Option (Nat × Nat × List Char) := do
  let (hour, cs) ← readNumber? 2 cs
  let cs ← readMark? ':' cs
  let (minute, cs) ← readNumber? 2 cs
  let cs ← readMark? ':' cs
  let (second, cs) ← readNumber? 2 cs
  let (nanos, cs) ← readNanos? cs
  if hour < 24 ∧ minute < 60 ∧ second ≤ 60 then
    let leap := second / 60
    some (hour * 3600 + minute * 60 + (second - leap), nanos + leap * 1000000000, cs)
  else none

/-- The separator between date and time. -/
def readSeparator? : List Char → Option (List Char)
  | c :: rest => if c = 'T' ∨ c = 't' ∨ c = ' ' then some rest else none
  | [] => none

/-- Exactly two digits. -/
def readTwoDigits? : List Char → Option (Nat × List Char)
  | c :: d :: rest => do
    let tens ← Digit.ofChar? c
    let ones ← Digit.ofChar? d
    some (10 * tens.val + ones.val, rest)
  | _ => none

/-- Hours and minutes of an offset, in seconds; less than a day. -/
def readClockOffset? (cs : List Char) : Option (Nat × List Char) := do
  let (hours, cs) ← readTwoDigits? cs
  let (minutes, cs) ← readTwoDigits? (cs.dropWhile fun c => c == ':' || isBlank c)
  if hours < 24 ∧ minutes < 60 then some (hours * 3600 + minutes * 60, cs) else none

/-- The offset from UTC, in seconds. -/
def readOffset? : List Char → Option (Int × List Char)
  | c :: rest =>
    if c = 'Z' ∨ c = 'z' then some (0, rest)
    else if c = '+' then (readClockOffset? rest).map fun r => ((r.1 : Int), r.2)
    else if c = '-' ∨ c = '−' then (readClockOffset? rest).map fun r => (-(r.1 : Int), r.2)
    else
      match (c :: rest).take 3 |>.map Char.toUpper with
      | ['U', 'T', 'C'] => some (0, rest.drop 2)
      | _ => none
  | [] => none

/-- The instant a text writes, if it writes one and nothing else. -/
def read? (cs : List Char) : Option Instant := do
  let (date, cs) ← readDate? cs
  let cs ← readSeparator? cs
  let (second, nanos, cs) ← readTime? cs
  let (offset, cs) ← readOffset? (dropBlank cs)
  let seconds := date.toDay * 86400 + second - offset
  if h : nanos < 2000000000 then
    let t : Instant := ⟨seconds, nanos, h⟩
    if (dropBlank cs).isEmpty && Instant.hasYearInRange t.date then some t else none
  else none

def ofText? (s : String) : Option Instant := read? s.toList

end Timestamp

end JudgePolicy
