/-
JSON values, as they stand in a text.

A value keeps what a text says before anyone interprets it: numbers are
numerals, and an object is the list of its members in their order, repeated
names included.

Design notes: escapes can write a surrogate without its partner, which stands
for no character.  Such a string is `none`; it is still well formed, and only a
reader that needs its text refuses it.
-/
import JudgePolicy.Number.Numeral
namespace JudgePolicy

/-- A JSON value. -/
inductive Json where
  | null
  | bool (b : Bool)
  | number (n : Numeral)
  | text (s : Option String)
  | array (elements : List Json)
  | object (members : List (Option String × Json))

namespace Json

instance : Inhabited Json := ⟨.null⟩

/-- The value of a string. -/
def ofString (s : String) : Json := .text (some s)

/-- The value of an integer. -/
def ofInt (i : Int) : Json := .number (Numeral.ofInt i)

/-- The value of a floating-point number; NaN and the infinities are `null`. -/
def ofBinary64 (x : Binary64) : Json :=
  match x.toNumeral? with
  | some n => .number n
  | none => .null

/-- An object with the given members. -/
def record (members : List (String × Json)) : Json :=
  .object (members.map fun m => (some m.1, m.2))

mutual

/-- How deep arrays and objects are nested. -/
def depth : Json → Nat
  | null | bool _ | number _ | text _ => 0
  | array elements => depthOfElements elements + 1
  | object members => depthOfMembers members + 1

def depthOfElements : List Json → Nat
  | [] => 0
  | e :: rest => max (depth e) (depthOfElements rest)

def depthOfMembers : List (Option String × Json) → Nat
  | [] => 0
  | (_, v) :: rest => max (depth v) (depthOfMembers rest)

end

end Json

end JudgePolicy
