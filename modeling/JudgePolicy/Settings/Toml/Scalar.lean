/-
The scalars of TOML: strings, numbers, truth values, dates and times.

Strings come in four forms, with or without escapes and on one line or several.
Everything else is a word without blanks, and `Toml.scalar?` says what it means.
Dates and times are kept as their text.
-/
import JudgePolicy.Json.Quoted
import JudgePolicy.Settings.Tree
import JudgePolicy.Time.Calendar
namespace JudgePolicy

namespace Toml

/-- The rest of a text after a given beginning. -/
def after? : List Char → List Char → Option (List Char)
  | [], cs => some cs
  | _ :: _, [] => none
  | p :: ps, c :: cs => if p = c then after? ps cs else none

def skipSpaces (cs : List Char) : List Char := cs.dropWhile fun c => c == ' ' || c == '\t'

/-- Characters that no string and no comment may hold. -/
def isForbidden (c : Char) : Bool :=
  (decide (c.toNat < 0x20) && c != '\t') || c.toNat == 0x7F

/-- The line break a text begins with is taken off. -/
def lineBreak? : List Char → Option (List Char)
  | '\n' :: rest => some rest
  | '\r' :: '\n' :: rest => some rest
  | _ => none

/-! ### Strings -/

/-- The character of a code point. -/
def charOf? (n : Nat) : Option Char :=
  if h : n.isValidChar then some (Char.ofNatAux n h) else none

/-- The character of a short escape. -/
def shortEscape? (c : Char) : Option Char :=
  match c with
  | 'b' => some (Char.ofNat 0x08)
  | 't' => some '\t'
  | 'n' => some '\n'
  | 'f' => some (Char.ofNat 0x0C)
  | 'r' => some '\r'
  | '"' => some '"'
  | '\\' => some '\\'
  | _ => none

/-- What an escape stands for, after its backslash. -/
def escape? : List Char → Option (Char × List Char)
  | 'u' :: a :: b :: c :: d :: rest => do
    let char ← charOf? (← Json.hexQuad? a b c d)
    some (char, rest)
  | 'U' :: a :: b :: c :: d :: e :: f :: g :: h :: rest => do
    let high ← Json.hexQuad? a b c d
    let low ← Json.hexQuad? e f g h
    let char ← charOf? (high * 0x10000 + low)
    some (char, rest)
  | c :: rest => (shortEscape? c).map (·, rest)
  | [] => none

/-- A string with escapes on one line, after its opening quote. -/
def basicString? : Nat → List Char → Option (List Char × List Char)
  | 0, _ => none
  | _, [] => none
  | _, '"' :: rest => some ([], rest)
  | fuel + 1, '\\' :: rest => do
    let (c, rest) ← escape? rest
    let (cs, rest) ← basicString? fuel rest
    some (c :: cs, rest)
  | fuel + 1, c :: rest =>
    if isForbidden c then none
    else (basicString? fuel rest).map fun r => (c :: r.1, r.2)

/-- The mark around strings without escapes. -/
def apostrophe : Char := Char.ofNat 39

/-- A string without escapes on one line, after its opening mark. -/
def literalString? : List Char → Option (List Char × List Char)
  | [] => none
  | c :: rest =>
    if c = apostrophe then some ([], rest)
    else if isForbidden c then none
    else (literalString? rest).map fun r => (c :: r.1, r.2)

/-- The end of a string of several lines: three marks, with up to two more that
belong to the string. -/
def closing? (mark : Char) (cs : List Char) : Option (List Char × List Char) :=
  match after? [mark, mark, mark, mark, mark] cs with
  | some rest => some ([mark, mark], rest)
  | none =>
    match after? [mark, mark, mark, mark] cs with
    | some rest => some ([mark], rest)
    | none => (after? [mark, mark, mark] cs).map fun rest => ([], rest)

/-- The text after a backslash at the end of a line: blanks and line breaks are
skipped. -/
def continued? (cs : List Char) : Option (List Char) :=
  match lineBreak? (skipSpaces cs) with
  | some rest => some (rest.dropWhile fun c => c == ' ' || c == '\t' || c == '\n' || c == '\r')
  | none => none

/-- The inside of a string of several lines, up to its end. -/
def longString? (mark : Char) (escapes : Bool) :
    Nat → List Char → Option (List Char × List Char)
  | 0, _ => none
  | fuel + 1, cs =>
    match closing? mark cs with
    | some r => some r
    | none =>
      match lineBreak? cs with
      | some rest => (longString? mark escapes fuel rest).map fun r => ('\n' :: r.1, r.2)
      | none =>
        match cs with
        | [] => none
        | c :: rest =>
          if escapes && c == '\\' then
            match continued? rest with
            | some rest => longString? mark escapes fuel rest
            | none => do
              let (c, rest) ← escape? rest
              let (cs, rest) ← longString? mark escapes fuel rest
              some (c :: cs, rest)
          else if isForbidden c then none
          else (longString? mark escapes fuel rest).map fun r => (c :: r.1, r.2)

/-- A string of several lines, after its opening marks; a line break right after
them does not count. -/
def longStringAfter? (mark : Char) (escapes : Bool) (cs : List Char) :
    Option (List Char × List Char) :=
  let cs := (lineBreak? cs).getD cs
  longString? mark escapes (cs.length + 1) cs

def shortString? : List Char → Option (List Char × List Char)
  | c :: rest =>
    if c = '"' then basicString? (rest.length + 1) rest
    else if c = apostrophe then literalString? rest
    else none
  | [] => none

/-- A string of any form. -/
def string? (cs : List Char) : Option (List Char × List Char) :=
  match after? ['"', '"', '"'] cs with
  | some rest => longStringAfter? '"' true rest
  | none =>
    match after? [apostrophe, apostrophe, apostrophe] cs with
    | some rest => longStringAfter? apostrophe false rest
    | none => shortString? cs

/-! ### Numbers -/

/-- Digits in which single underscores separate digits, without these. -/
def joined? (isDigit : Char → Bool) : List Char → Option (List Char)
  | [] => none
  | [c] => if isDigit c then some [c] else none
  | c :: '_' :: rest => if isDigit c then (joined? isDigit rest).map (c :: ·) else none
  | c :: rest => if isDigit c then (joined? isDigit rest).map (c :: ·) else none

def isDecimal (c : Char) : Bool := (Digit.ofChar? c).isSome

/-- The digits of a text of decimal digits. -/
def digitsOf (cs : List Char) : List Digit := cs.filterMap Digit.ofChar?

/-- Decimal digits without a leading zero. -/
def wholePart? (cs : List Char) : Option Nat := do
  let cs ← joined? isDecimal cs
  match cs with
  | '0' :: _ :: _ => none
  | cs => some (digitsValue (digitsOf cs))

/-- A sign, if there is one. -/
def signed : List Char → Bool × List Char
  | '-' :: rest => (true, rest)
  | '+' :: rest => (false, rest)
  | cs => (false, cs)

/-- A number in digits of some base. -/
def inBase? (base : Nat) (cs : List Char) : Option Nat := do
  let digit (c : Char) : Option Nat := (Json.hexValue? c).filter (decide <| · < base)
  let cs ← joined? (fun c => (digit c).isSome) cs
  some ((cs.filterMap digit).foldl (fun n d => base * n + d) 0)

/-- An integer of 64 bits. -/
def integer? (cs : List Char) : Option Int := do
  let n ←
    match cs with
    | '0' :: 'x' :: rest => (inBase? 16 rest).map Int.ofNat
    | '0' :: 'o' :: rest => (inBase? 8 rest).map Int.ofNat
    | '0' :: 'b' :: rest => (inBase? 2 rest).map Int.ofNat
    | cs =>
      let (negative, cs) := signed cs
      (wholePart? cs).map fun n => if negative then -(n : Int) else n
  if Setting.fits64 n then some n else none

/-- An exponent after its mark. -/
def exponent? (cs : List Char) : Option Int := do
  let (negative, cs) := signed cs
  let cs ← joined? isDecimal cs
  let n : Int := digitsValue (digitsOf cs)
  some (if negative then -n else n)

/-- The numeral of a number with a fraction, an exponent or both. -/
def numeral? (cs : List Char) : Option Numeral := do
  let (negative, cs) := signed cs
  let isMark (c : Char) : Bool := c == 'e' || c == 'E'
  let (mantissa, mark) := cs.span (!isMark ·)
  let (whole, point) := mantissa.span (· != '.')
  let whole ← wholePart? whole
  let fraction ←
    match point with
    | [] => some []
    | _ :: fraction => (joined? isDecimal fraction).map digitsOf
  let exponent ←
    match mark with
    | [] => some none
    | _ :: exponent => (exponent? exponent).map some
  if fraction = [] ∧ exponent = none then none
  else some ⟨negative, whole, fraction, exponent⟩

/-- A floating-point number; only the words for infinity write one that is not
finite. -/
def float? (cs : List Char) : Option Binary64 :=
  let (negative, word) := signed cs
  if word = ['i', 'n', 'f'] then some (Binary64.infinity negative)
  else if word = ['n', 'a', 'n'] then some .nan
  else do
    let n ← numeral? cs
    if n.toBinary64.isFinite then some n.toBinary64 else none

/-! ### Dates and times -/

/-- Digits of a fixed number, and what follows them. -/
def fixedDigits? : Nat → List Char → Option (List Digit × List Char)
  | 0, cs => some ([], cs)
  | _ + 1, [] => none
  | n + 1, c :: rest => do
    let d ← Digit.ofChar? c
    let (ds, rest) ← fixedDigits? n rest
    some (d :: ds, rest)

/-- A number of a fixed number of digits. -/
def fixedNumber? (n : Nat) (cs : List Char) : Option (Nat × List Char) :=
  (fixedDigits? n cs).map fun r => (digitsValue r.1, r.2)

def date? (cs : List Char) : Option (List Char) := do
  let (year, cs) ← fixedNumber? 4 cs
  let (month, cs) ← (← after? ['-'] cs) |> fixedNumber? 2
  let (day, cs) ← (← after? ['-'] cs) |> fixedNumber? 2
  if (Date.isValid ⟨year, month, day⟩) then some cs else none

/-- The fraction of a second, written without trailing zeros. -/
def secondFraction? (cs : List Char) : Option (List Char × List Char) :=
  match cs with
  | '.' :: rest =>
    match spanDigits rest with
    | ([], _) => none
    | (ds, rest) =>
      let kept := (((ds.take 9).reverse.dropWhile (· == Digit.zero)).reverse).map Digit.char
      some (if kept.isEmpty then [] else '.' :: kept, rest)
  | cs => some ([], cs)

/-- A time of day: as it is kept, and what follows it. -/
def time? (cs : List Char) : Option (List Char × List Char) := do
  let start := cs
  let (hour, cs) ← fixedNumber? 2 cs
  let (minute, cs) ← (← after? [':'] cs) |> fixedNumber? 2
  let (second, cs) ← (← after? [':'] cs) |> fixedNumber? 2
  let (fraction, cs) ← secondFraction? cs
  if hour < 24 ∧ minute < 60 ∧ second ≤ 60 then some (start.take 8 ++ fraction, cs) else none

/-- An offset: as it is kept. -/
def offset? : List Char → Option (List Char)
  | [] => some []
  | ['Z'] | ['z'] => some ['Z']
  | sign :: cs => do
    if sign ≠ '+' ∧ sign ≠ '-' then none
    let (hour, rest) ← fixedNumber? 2 cs
    let (minute, rest) ← (← after? [':'] rest) |> fixedNumber? 2
    if hour < 24 ∧ minute < 60 ∧ rest = [] then some (sign :: cs) else none

/-- A date, a time, or both with an optional offset: as it is kept. -/
def dateTime? (cs : List Char) : Option (List Char) :=
  match date? cs with
  | some [] => some cs
  | some (mark :: rest) => do
    if mark ≠ 'T' ∧ mark ≠ 't' ∧ mark ≠ ' ' then none
    let (time, rest) ← time? rest
    let offset ← offset? rest
    some (cs.take 10 ++ 'T' :: time ++ offset)
  | none =>
    match time? cs with
    | some (time, []) => some time
    | _ => none

/-! ### Words -/

def isWordChar (c : Char) : Bool := Setting.isNameChar c || c == '+' || c == '.' || c == ':'

/-- The word a text begins with, and what follows it.  A date and a time with a
blank between them are one word. -/
def word (cs : List Char) : List Char × List Char :=
  let (first, rest) := cs.span isWordChar
  match date? first, rest with
  | some [], ' ' :: c :: more =>
    if isDecimal c then
      let (second, rest) := (c :: more).span isWordChar
      (first ++ ' ' :: second, rest)
    else (first, rest)
  | _, _ => (first, rest)

/-- What a word means. -/
def scalar? (cs : List Char) : Option Setting :=
  if cs = ['t', 'r', 'u', 'e'] then some (.bool true)
  else if cs = ['f', 'a', 'l', 's', 'e'] then some (.bool false)
  else
    match integer? cs with
    | some i => some (.integer i)
    | none =>
      match float? cs with
      | some x => some (.float x)
      | none => (dateTime? cs).map fun text => .text (String.ofList text)

end Toml

end JudgePolicy
