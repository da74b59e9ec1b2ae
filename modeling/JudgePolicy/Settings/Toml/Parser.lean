/-
Reading TOML documents.

`Toml.parse?` answers the table that a text writes, or nothing if the text is no
document or defines something twice.

Design notes: the reading functions spend one unit of fuel for each call, and
each call or the one it makes consumes a character, so twice the length of the
text is enough.
-/
import JudgePolicy.Settings.Toml.Scalar
import JudgePolicy.Settings.Toml.Tree
namespace JudgePolicy

namespace Toml

/-- A comment, up to the end of its line. -/
def skipComment? : List Char → Option (List Char)
  | [] => some []
  | c :: rest =>
    match lineBreak? (c :: rest) with
    | some _ => some (c :: rest)
    | none => if isForbidden c then none else skipComment? rest

/-- Blanks, line breaks and comments, as they may stand inside arrays. -/
def skipLayout? : Nat → List Char → Option (List Char)
  | 0, _ => none
  | fuel + 1, cs =>
    match skipSpaces cs with
    | '#' :: rest => (skipComment? rest).bind (skipLayout? fuel)
    | cs =>
      match lineBreak? cs with
      | some rest => skipLayout? fuel rest
      | none => some cs

/-- The end of a statement: an optional comment and a line break, or the end of
the text. -/
def endOfLine? (cs : List Char) : Option (List Char) :=
  let afterComment : Option (List Char) :=
    match skipSpaces cs with
    | '#' :: rest => skipComment? rest
    | cs => some cs
  match afterComment with
  | some [] => some []
  | some cs => lineBreak? cs
  | none => none

/-! ### Keys -/

/-- A key without dots: a bare one, or a string on one line. -/
def simpleKey? (cs : List Char) : Option (String × List Char) :=
  match Setting.readName? cs with
  | some r => some r
  | none => (shortString? cs).map fun r => (String.ofList r.1, r.2)

/-- A key with its dots, and the blanks after it. -/
def key? : Nat → List Char → Option (List String × List Char)
  | 0, _ => none
  | fuel + 1, cs => do
    let (first, cs) ← simpleKey? (skipSpaces cs)
    match skipSpaces cs with
    | '.' :: rest =>
      let (more, cs) ← key? fuel rest
      some (first :: more, cs)
    | cs => some ([first], cs)

/-! ### Values -/

mutual

/-- A value. -/
def value? : Nat → List Char → Option (Setting × List Char)
  | 0, _ => none
  | fuel + 1, cs =>
    match cs with
    | '[' :: rest => (elements? fuel rest).map fun r => (.array r.1, r.2)
    | '\x7b' :: rest =>
      match skipSpaces rest with
      | '\x7d' :: rest => some (.table [], rest)
      | rest => do
        let (assignments, rest) ← members? fuel rest
        let table ← inlineTable? assignments
        some (table, rest)
    | cs =>
      match string? cs with
      | some (s, rest) => some (.text (String.ofList s), rest)
      | none => do
        let (w, rest) := word cs
        let s ← scalar? w
        some (s, rest)

/-- The elements of an array and its closing bracket; a comma may follow the last
element. -/
def elements? : Nat → List Char → Option (List Setting × List Char)
  | 0, _ => none
  | fuel + 1, cs => do
    match ← skipLayout? (cs.length + 1) cs with
    | ']' :: rest => some ([], rest)
    | cs =>
      let (e, cs) ← value? fuel cs
      match ← skipLayout? (cs.length + 1) cs with
      | ']' :: rest => some ([e], rest)
      | ',' :: rest =>
        let (es, rest) ← elements? fuel rest
        some (e :: es, rest)
      | _ => none

/-- The assignments of an inline table and its closing brace. -/
def members? : Nat → List Char → Option (List (List String × Setting) × List Char)
  | 0, _ => none
  | fuel + 1, cs => do
    let (path, cs) ← key? (cs.length + 1) cs
    let cs ← after? ['='] cs
    let (v, cs) ← value? fuel (skipSpaces cs)
    match skipSpaces cs with
    | '\x7d' :: rest => some ([(path, v)], rest)
    | ',' :: rest =>
      let (more, rest) ← members? fuel rest
      some ((path, v) :: more, rest)
    | _ => none

end

/-! ### Documents -/

/-- A header, after its first bracket. -/
def header? (cs : List Char) : Option (Statement × List Char) :=
  match cs with
  | '[' :: rest => do
    let (path, rest) ← key? (rest.length + 1) rest
    let rest ← after? [']', ']'] rest
    some (.arrayHeader path, rest)
  | cs => do
    let (path, rest) ← key? (cs.length + 1) cs
    let rest ← after? [']'] rest
    some (.header path, rest)

/-- An assignment. -/
def assignment? (cs : List Char) : Option (Statement × List Char) := do
  let (path, cs) ← key? (cs.length + 1) cs
  let cs ← after? ['='] cs
  let (v, cs) ← value? (2 * cs.length + 2) (skipSpaces cs)
  some (.assignment path v, cs)

/-- A header or an assignment. -/
def statement? : List Char → Option (Statement × List Char)
  | '[' :: rest => header? rest
  | cs => assignment? cs

/-- The statements of a document, one a line. -/
def statements? : Nat → List Char → Option (List Statement)
  | 0, _ => none
  | fuel + 1, cs => do
    match ← skipLayout? (cs.length + 1) cs with
    | [] => some []
    | cs =>
      let (s, cs) ← statement? cs
      let cs ← endOfLine? cs
      let more ← statements? fuel cs
      some (s :: more)

/-- The table that a document writes. -/
def parse? (text : String) : Option Setting :=
  let cs := text.toList
  (statements? (cs.length + 1) cs).bind build?

end Toml

end JudgePolicy
