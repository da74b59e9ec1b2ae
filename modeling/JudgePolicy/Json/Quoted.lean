/-
Quoted strings of JSON.

Writing escapes the quote, the backslash and the control characters, and
nothing else; reading accepts every escape the format has.

* `readUnits?_escape` — what is written for a character reads back as it;
* `readQuoted?_quote` — a quoted string reads back, whatever follows it.

Design notes: reading first yields code points, in which an escaped surrogate
still stands alone, and then joins surrogates that form a pair.
-/
import JudgePolicy.Json.Basic
namespace JudgePolicy

namespace Json

/-! ### Writing -/

def hexDigit (n : Nat) : Char := Nat.digitChar n

/-- What is written for a character inside quotes. -/
def escape (c : Char) : List Char :=
  if c = '"' then ['\\', '"']
  else if c = '\\' then ['\\', '\\']
  else if c.toNat = 0x08 then ['\\', 'b']
  else if c.toNat = 0x09 then ['\\', 't']
  else if c.toNat = 0x0A then ['\\', 'n']
  else if c.toNat = 0x0C then ['\\', 'f']
  else if c.toNat = 0x0D then ['\\', 'r']
  else if c.toNat < 0x20 then
    ['\\', 'u', '0', '0', hexDigit (c.toNat / 16), hexDigit (c.toNat % 16)]
  else [c]

/-- A string in quotes. -/
def quote (s : List Char) : List Char := '"' :: s.flatMap escape ++ ['"']

/-! ### Reading -/

def hexValue? (c : Char) : Option Nat :=
  let n := c.toNat
  if 48 ≤ n ∧ n ≤ 57 then some (n - 48)
  else if 97 ≤ n ∧ n ≤ 102 then some (n - 87)
  else if 65 ≤ n ∧ n ≤ 70 then some (n - 55)
  else none

/-- The code point of an escape of one character. -/
def shortEscape? (c : Char) : Option Nat :=
  match c with
  | '"' => some 0x22
  | '\\' => some 0x5C
  | '/' => some 0x2F
  | 'b' => some 0x08
  | 'f' => some 0x0C
  | 'n' => some 0x0A
  | 'r' => some 0x0D
  | 't' => some 0x09
  | _ => none

/-- The number of four hexadecimal digits. -/
def hexQuad? (a b c d : Char) : Option Nat := do
  let a ← hexValue? a
  let b ← hexValue? b
  let c ← hexValue? c
  let d ← hexValue? d
  some (((a * 16 + b) * 16 + c) * 16 + d)

/-- The code points up to the closing quote, surrogates apart, and what follows
the quote. -/
def readUnits? : List Char → Option (List Nat × List Char)
  | [] => none
  | '"' :: rest => some ([], rest)
  | '\\' :: 'u' :: a :: b :: c :: d :: rest => do
    let unit ← hexQuad? a b c d
    let (units, rest) ← readUnits? rest
    some (unit :: units, rest)
  | '\\' :: c :: rest => do
    let unit ← shortEscape? c
    let (units, rest) ← readUnits? rest
    some (unit :: units, rest)
  | c :: rest =>
    if c.toNat < 0x20 then none
    else do
      let (units, rest) ← readUnits? rest
      some (c.toNat :: units, rest)

/-- A surrogate that begins a pair. -/
def isHighSurrogate (n : Nat) : Bool := decide (0xD800 ≤ n) && decide (n ≤ 0xDBFF)

/-- A surrogate that ends a pair. -/
def isLowSurrogate (n : Nat) : Bool := decide (0xDC00 ≤ n) && decide (n ≤ 0xDFFF)

/-- The characters of code points; pairs of surrogates are joined, and a
surrogate without its partner is refused. -/
def joinSurrogates? : List Nat → Option (List Char)
  | [] => some []
  | [n] =>
    if isHighSurrogate n || isLowSurrogate n then none else some [Char.ofNat n]
  | n :: m :: rest =>
    if isHighSurrogate n then
      if isLowSurrogate m then
        (joinSurrogates? rest).map
          (Char.ofNat (0x10000 + (n - 0xD800) * 0x400 + (m - 0xDC00)) :: ·)
      else none
    else if isLowSurrogate n then none
    else (joinSurrogates? (m :: rest)).map (Char.ofNat n :: ·)

/-! ### Reading inverts writing -/

theorem hexQuad?_control : ∀ n : Nat, n < 0x20 →
    hexQuad? '0' '0' (hexDigit (n / 16)) (hexDigit (n % 16)) = some n := by
  decide

theorem readUnits?_plain {c : Char} (cs : List Char) (hq : c ≠ '"') (hb : c ≠ '\\')
    (hc : ¬c.toNat < 0x20) :
    readUnits? (c :: cs) = (readUnits? cs).map fun r => (c.toNat :: r.1, r.2) := by
  rw [readUnits?.eq_def]
  split
  · next h => simp at h
  · next h => exact absurd (List.cons.inj h).1 hq
  · next h => exact absurd (List.cons.inj h).1 hb
  · next h => exact absurd (List.cons.inj h).1 hb
  · next h =>
    obtain ⟨rfl, rfl⟩ := List.cons.inj h
    rw [if_neg hc]
    cases readUnits? cs <;> rfl

/-- What is written for a character reads back as its code point. -/
theorem readUnits?_escape (c : Char) (cs : List Char) :
    readUnits? (escape c ++ cs) = (readUnits? cs).map fun r => (c.toNat :: r.1, r.2) := by
  have short : ∀ (e : Char) (n : Nat), shortEscape? e = some n → e ≠ 'u' →
      readUnits? ('\\' :: e :: cs) = (readUnits? cs).map fun r => (n :: r.1, r.2) := by
    intro e n he hu
    rw [readUnits?.eq_def]
    split
    · next h => simp at h
    · next h => exact absurd (List.cons.inj h).1 (by decide)
    · next h => exact absurd (List.cons.inj (List.cons.inj h).2).1 hu
    · next h =>
      obtain ⟨rfl, rfl⟩ := List.cons.inj (List.cons.inj h).2
      simp only [he, Option.bind_eq_bind, Option.bind_some]
      cases readUnits? cs <;> rfl
    · next hne h =>
      obtain ⟨rfl, rfl⟩ := List.cons.inj h
      exact (hne _ _ rfl rfl).elim
  simp only [escape]
  split
  · next h => subst h; exact short '"' 0x22 rfl (by decide)
  split
  · next h => subst h; exact short '\\' 0x5C rfl (by decide)
  split
  · next h => rw [h]; exact short 'b' 0x08 rfl (by decide)
  split
  · next h => rw [h]; exact short 't' 0x09 rfl (by decide)
  split
  · next h => rw [h]; exact short 'n' 0x0A rfl (by decide)
  split
  · next h => rw [h]; exact short 'f' 0x0C rfl (by decide)
  split
  · next h => rw [h]; exact short 'r' 0x0D rfl (by decide)
  split
  · next h =>
    simp only [List.cons_append, List.nil_append, readUnits?, hexQuad?_control _ h,
      Option.bind_eq_bind, Option.bind_some]
    cases readUnits? cs <;> rfl
  · next hq hb _ _ _ _ _ hc => exact readUnits?_plain cs hq hb hc

theorem readUnits?_quote (s rest : List Char) :
    readUnits? (s.flatMap escape ++ '"' :: rest) = some (s.map Char.toNat, rest) := by
  induction s with
  | nil => rfl
  | cons c s ih =>
    rw [List.flatMap_cons, List.append_assoc, readUnits?_escape, ih]
    rfl

theorem not_surrogate (c : Char) :
    isHighSurrogate c.toNat = false ∧ isLowSurrogate c.toNat = false := by
  have h : c.toNat.isValidChar := c.valid
  simp only [Nat.isValidChar] at h
  simp only [isHighSurrogate, isLowSurrogate]
  constructor <;> simp <;> omega

theorem joinSurrogates?_map_toNat (s : List Char) :
    joinSurrogates? (s.map Char.toNat) = some s := by
  induction s with
  | nil => rfl
  | cons c s ih =>
    have hc := not_surrogate c
    cases s with
    | nil => simp [joinSurrogates?, hc]
    | cons d s =>
      rw [List.map_cons, List.map_cons, joinSurrogates?, ← List.map_cons, ih]
      simp [hc]

/-- The string up to the closing quote, and what follows the quote. -/
def readQuoted? (cs : List Char) : Option (Option String × List Char) :=
  (readUnits? cs).map fun r => ((joinSurrogates? r.1).map String.ofList, r.2)

/-- **Reading inverts writing**, whatever follows the closing quote. -/
theorem readQuoted?_quote (s : String) (rest : List Char) :
    readQuoted? (s.toList.flatMap escape ++ '"' :: rest) = some (some s, rest) := by
  rw [readQuoted?, readUnits?_quote]
  simp [joinSurrogates?_map_toNat]

end Json

end JudgePolicy
