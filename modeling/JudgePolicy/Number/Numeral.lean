/-
Decimal numerals: the written form of numbers in texts.

A `Numeral` is a sign, a whole part, the digits of a fraction and an optional
exponent.  It is what a reader finds in a text before anyone asks which kind of
number is meant, so a numeral too large for every kind is still a numeral.

* `read?_render` — a written numeral reads back, whatever follows it, unless
  what follows would continue the number.

Design notes: a numeral counts as an integer only if it has neither fraction
nor exponent and is not `-0`.
-/
import JudgePolicy.Number.Shortest
namespace JudgePolicy

/-- A number as written: `negative`, `whole`, `fraction` and `exponent` stand
for `-whole.fraction` times ten to the exponent. -/
structure Numeral where
  negative : Bool
  whole : Nat
  fraction : List Digit
  exponent : Option Int
  deriving DecidableEq

namespace Numeral

/-! ### Writing -/

/-- The written fraction; nothing if it has no digit. -/
def renderFraction : List Digit → List Char
  | [] => []
  | ds => '.' :: ds.map Digit.char

/-- The written exponent, always with a sign. -/
def renderExponent : Option Int → List Char
  | none => []
  | some e => 'e' :: (if e < 0 then '-' else '+') :: (digits e.natAbs).map Digit.char

def render (n : Numeral) : List Char :=
  (if n.negative then ['-'] else []) ++ (digits n.whole).map Digit.char ++
    renderFraction n.fraction ++ renderExponent n.exponent

/-! ### Reading -/

/-- An optional fraction: a point must be followed by a digit. -/
def readFraction? : List Char → Option (List Digit × List Char)
  | '.' :: rest =>
    match spanDigits rest with
    | ([], _) => none
    | run => some run
  | cs => some ([], cs)

/-- The digits of an exponent, with their sign. -/
def readExponentDigits? (negative : Bool) (cs : List Char) : Option (Option Int × List Char) :=
  match spanDigits cs with
  | ([], _) => none
  | (ds, rest) =>
    let magnitude : Int := digitsValue ds
    some (some (if negative then -magnitude else magnitude), rest)

/-- An optional exponent: the mark must be followed by a digit, or by a sign
and a digit. -/
def readExponent? : List Char → Option (Option Int × List Char)
  | c :: rest =>
    if c = 'e' ∨ c = 'E' then
      match rest with
      | '-' :: rest => readExponentDigits? true rest
      | '+' :: rest => readExponentDigits? false rest
      | rest => readExponentDigits? false rest
    else some (none, c :: rest)
  | [] => some (none, [])

/-- An unsigned numeral; a whole part of several digits does not begin with
`0`. -/
def readUnsigned? (negative : Bool) (cs : List Char) : Option (Numeral × List Char) :=
  match spanDigits cs with
  | ([], _) => none
  | (0 :: _ :: _, _) => none
  | (whole, rest) => do
    let (fraction, rest) ← readFraction? rest
    let (exponent, rest) ← readExponent? rest
    some (⟨negative, digitsValue whole, fraction, exponent⟩, rest)

/-- The numeral a text begins with, and what follows it. -/
def read? : List Char → Option (Numeral × List Char)
  | '-' :: rest => readUnsigned? true rest
  | cs => readUnsigned? false cs

/-- A text that does not continue a numeral. -/
def NoContinuation (cs : List Char) : Prop :=
  ∀ c ∈ cs.head?, Digit.ofChar? c = none ∧ c ≠ '.' ∧ c ≠ 'e' ∧ c ≠ 'E'

theorem NoContinuation.noDigitFirst {cs : List Char} (h : NoContinuation cs) :
    NoDigitFirst cs :=
  fun c hc => (h c hc).1

theorem readFraction?_render (ds : List Digit) {rest : List Char}
    (hd : NoDigitFirst rest) (hp : '.' ∉ rest.head?) :
    readFraction? (renderFraction ds ++ rest) = some (ds, rest) := by
  cases ds with
  | nil =>
    rw [renderFraction, List.nil_append, readFraction?.eq_def]
    split
    · simp at hp
    · rfl
  | cons d ds => simp [renderFraction, readFraction?, -List.map_cons,
      spanDigits_append (d :: ds) hd]

theorem readExponentDigits?_render (negative : Bool) (n : Nat) {rest : List Char}
    (hd : NoDigitFirst rest) :
    readExponentDigits? negative ((digits n).map Digit.char ++ rest) =
      some (some (if negative then -(n : Int) else n), rest) := by
  rw [readExponentDigits?, spanDigits_append _ hd]
  cases h : digits n with
  | nil => exact absurd h (digits_ne_nil n)
  | cons d ds => simp [← h]

theorem readExponent?_render (e : Option Int) {rest : List Char} (h : NoContinuation rest) :
    readExponent? (renderExponent e ++ rest) = some (e, rest) := by
  cases e with
  | none =>
    cases rest with
    | nil => rfl
    | cons c rest =>
      have hc := h c rfl
      simp [renderExponent, readExponent?, hc.2.2.1, hc.2.2.2]
  | some e =>
    have hd := readExponentDigits?_render (decide (e < 0)) e.natAbs h.noDigitFirst
    have habs : (if e < 0 then -(e.natAbs : Int) else e.natAbs) = e := by split <;> omega
    simp only [decide_eq_true_eq, habs] at hd
    by_cases he : e < 0 <;> simpa [renderExponent, readExponent?, he] using hd

theorem renderExponent_append_head {e : Option Int} {rest : List Char}
    (h : NoContinuation rest) :
    NoDigitFirst (renderExponent e ++ rest) ∧ '.' ∉ (renderExponent e ++ rest).head? := by
  cases e with
  | none =>
    exact ⟨h.noDigitFirst, fun hp => (h '.' hp).2.1 rfl⟩
  | some e =>
    refine ⟨fun c hc => ?_, by simp [renderExponent]⟩
    have : c = 'e' := by simpa [renderExponent] using hc.symm
    subst this
    decide

theorem readUnsigned?_render (n : Numeral) {rest : List Char} (h : NoContinuation rest) :
    readUnsigned? n.negative ((digits n.whole).map Digit.char ++
      (renderFraction n.fraction ++ (renderExponent n.exponent ++ rest))) =
        some (n, rest) := by
  have hx := renderExponent_append_head (e := n.exponent) h
  have hf : NoDigitFirst (renderFraction n.fraction ++ (renderExponent n.exponent ++ rest)) := by
    cases hn : n.fraction with
    | nil => exact hx.1
    | cons d ds =>
      intro c hc
      have : c = '.' := by simpa [renderFraction] using hc.symm
      subst this
      decide
  rw [readUnsigned?, spanDigits_append _ hf]
  split
  · next heq => exact absurd (congrArg Prod.fst heq) (digits_ne_nil _)
  · next heq => exact absurd (congrArg Prod.fst heq) (digits_ne_zero_cons _ _)
  · next whole rest' _ _ heq =>
    have hw : digits n.whole = whole := congrArg Prod.fst heq
    have hr : renderFraction n.fraction ++ (renderExponent n.exponent ++ rest) = rest' :=
      congrArg Prod.snd heq
    rw [← hr, readFraction?_render _ hx.1 hx.2]
    simp [readExponent?_render _ h, ← hw]

/-- **Reading inverts writing**, whatever follows, unless it would continue the
numeral. -/
theorem read?_render (n : Numeral) {rest : List Char} (h : NoContinuation rest) :
    read? (n.render ++ rest) = some (n, rest) := by
  have key := readUnsigned?_render n h
  cases hn : n.negative with
  | true => simpa [render, read?, hn] using hn ▸ key
  | false =>
    have hd := digits_ne_nil n.whole
    cases hw : digits n.whole with
    | nil => exact absurd hw hd
    | cons d ds =>
      have minus : d.char ≠ '-' := (by decide : ∀ d : Digit, d.char ≠ '-') d
      rw [hw, hn] at key
      simp only [render, hn, hw, List.map_cons, List.append_assoc, List.cons_append] at key ⊢
      rw [read?.eq_def]
      simp only [Bool.false_eq_true, ↓reduceIte, List.nil_append]
      split
      · next heq => exact absurd (List.cons.inj heq).1 minus
      · exact key

/-! ### Values -/

/-- The integer a numeral writes, if it is written as one. -/
def toInt? (n : Numeral) : Option Int :=
  if n.fraction = [] ∧ n.exponent = none ∧ ¬(n.negative = true ∧ n.whole = 0) then
    some (if n.negative then -(n.whole : Int) else n.whole)
  else none

/-- The numeral of an integer. -/
def ofInt (i : Int) : Numeral := ⟨decide (i < 0), i.natAbs, [], none⟩

/-- The floating-point number nearest to a numeral's value. -/
def toBinary64 (n : Numeral) : Binary64 :=
  Binary64.ofDecimal n.negative
    (n.whole * powerOfTen n.fraction.length + digitsValue n.fraction)
    (n.exponent.getD 0 - n.fraction.length)

/-! ### Layouts of a decimal -/

/-- All digits written out, without an exponent. -/
def positional (negative : Bool) (d : Decimal) : Numeral :=
  match d.exponent with
  | .ofNat e => ⟨negative, d.significand * powerOfTen e, [], none⟩
  | .negSucc e =>
    ⟨negative, d.significand / powerOfTen (e + 1), lowDigits (e + 1) d.significand, none⟩

/-- One digit before the point, and an exponent. -/
def scientific (negative : Bool) (d : Decimal) : Numeral :=
  let rest := digitCount d.significand - 1
  ⟨negative, d.significand / powerOfTen rest, lowDigits rest d.significand,
    some (d.exponent + rest)⟩

/-- The layout of data texts: positional with at least one fraction digit while
the leading digit stands for `10 ^ (-5)` up to `10 ^ 15`, else scientific. -/
def data (negative : Bool) (d : Decimal) : Numeral :=
  let leading := d.exponent + digitCount d.significand - 1
  if -5 ≤ leading ∧ leading ≤ 15 then
    let n := positional negative d
    if n.fraction = [] then { n with fraction := [Digit.zero] } else n
  else scientific negative d

end Numeral

namespace Binary64

/-- The text of a number in messages: all digits, never an exponent. -/
def plainText : Binary64 → String
  | nan => "NaN"
  | number s k _ =>
    if k = infinityOrdinal then if s then "-inf" else "inf"
    else String.ofList (Numeral.positional s (shortest .up k)).render

/-- The numeral of a number in data texts; NaN and the infinities have none. -/
def toNumeral? : Binary64 → Option Numeral
  | nan => none
  | number s k _ =>
    if k = infinityOrdinal then none else some (Numeral.data s (shortest .even k))

/-- The bit pattern as 16 hexadecimal digits; NaN has no single pattern. -/
def hexText : Binary64 → String
  | nan => "NaN"
  | x@(number _ _ _) =>
    let ds := Nat.toDigits 16 x.toBits
    String.ofList (List.replicate (16 - ds.length) '0' ++ ds)

end Binary64

end JudgePolicy
