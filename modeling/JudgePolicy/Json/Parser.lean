/-
Reading JSON.

The format is taken strictly: no comma after the last element, no control
characters inside quotes, no number with leading zeros, and nothing but blanks
around the value.

Design notes: `readValue?`, `readElements?` and `readMembers?` spend one unit of
fuel for each call.  A call and the one it makes together consume a character,
so twice the length of the text is enough, and `parse?` shows no fuel.
-/
import JudgePolicy.Json.Quoted
namespace JudgePolicy

namespace Json

/-- The blanks of the format. -/
def isSpace (c : Char) : Bool := c == ' ' || c == '\n' || c == '\t' || c == '\r'

/-- A text without the blanks it begins with. -/
def skipSpace (cs : List Char) : List Char := cs.dropWhile isSpace

/-- The name of a member, after the opening quote, up to the colon after it. -/
def readName? (cs : List Char) : Option (Option String × List Char) := do
  let (name, cs) ← readQuoted? cs
  match skipSpace cs with
  | ':' :: rest => some (name, rest)
  | _ => none

mutual

/-- The value a text begins with, and what follows it. -/
def readValue? : Nat → List Char → Option (Json × List Char)
  | 0, _ => none
  | fuel + 1, cs =>
    match skipSpace cs with
    | 'n' :: 'u' :: 'l' :: 'l' :: rest => some (null, rest)
    | 't' :: 'r' :: 'u' :: 'e' :: rest => some (bool true, rest)
    | 'f' :: 'a' :: 'l' :: 's' :: 'e' :: rest => some (bool false, rest)
    | '"' :: rest => (readQuoted? rest).map fun r => (text r.1, r.2)
    | '[' :: rest =>
      match skipSpace rest with
      | ']' :: rest => some (array [], rest)
      | _ => (readElements? fuel rest).map fun r => (array r.1, r.2)
    | '{' :: rest =>
      match skipSpace rest with
      | '}' :: rest => some (object [], rest)
      | _ => (readMembers? fuel rest).map fun r => (object r.1, r.2)
    | cs => (Numeral.read? cs).map fun r => (number r.1, r.2)

/-- One element or more, and the closing bracket. -/
def readElements? : Nat → List Char → Option (List Json × List Char)
  | 0, _ => none
  | fuel + 1, cs =>
    match readValue? fuel cs with
    | none => none
    | some (e, cs) =>
      match skipSpace cs with
      | ',' :: rest => (readElements? fuel rest).map fun r => (e :: r.1, r.2)
      | ']' :: rest => some ([e], rest)
      | _ => none

/-- One member or more, and the closing brace. -/
def readMembers? : Nat → List Char → Option (List (Option String × Json) × List Char)
  | 0, _ => none
  | fuel + 1, cs =>
    match skipSpace cs with
    | '"' :: cs =>
      match readName? cs with
      | none => none
      | some (k, cs) =>
        match readValue? fuel cs with
        | none => none
        | some (v, cs) =>
          match skipSpace cs with
          | ',' :: rest => (readMembers? fuel rest).map fun r => ((k, v) :: r.1, r.2)
          | '}' :: rest => some ([(k, v)], rest)
          | _ => none
    | _ => none

end

/-- The value a text writes, if it writes one and nothing else. -/
def parse? (s : String) : Option Json :=
  let cs := s.toList
  match readValue? (2 * cs.length + 2) cs with
  | some (j, rest) => if (skipSpace rest).isEmpty then some j else none
  | none => none

end Json

end JudgePolicy
