/-
Reading typed data from JSON values.

A record is read from an object, by the names of its fields, or from an array
of its fields in their order.  In an object every known name may occur once;
other members are ignored.

* `occurrences` — the values under a name, the one view through which members
  are read, so their order plays no part;
* `required?`, `optional?`, `defaulting?` — a field that must occur, one that may
  be missing or `null`, and one that has a default.

Design notes: an integer is read from a numeral without fraction and exponent
only, and a numeral beyond the finite floating-point numbers is refused.
-/
import JudgePolicy.Json.Basic
import JudgePolicy.SortedSet
namespace JudgePolicy

namespace Json

/-! ### Plain values -/

def asBool? : Json → Option Bool
  | bool b => some b
  | _ => none

/-- A string that is a text. -/
def asText? : Json → Option String
  | text s => s
  | _ => none

/-- An integer of 32 bits. -/
def asInt32? : Json → Option Int32
  | number n => do
    let i ← n.toInt?
    if -2147483648 ≤ i ∧ i ≤ 2147483647 then some (Int32.ofInt i) else none
  | _ => none

/-- A finite floating-point number. -/
def asBinary64? : Json → Option Binary64
  | number n => if n.toBinary64.isFinite then some n.toBinary64 else none
  | _ => none

def asList? {α : Type} (element? : Json → Option α) : Json → Option (List α)
  | array elements => elements.mapM element?
  | _ => none

/-- A set, from a list that may repeat elements. -/
def asSet? {α : Type} [Ord α] [Std.TransOrd α] [Std.LawfulEqOrd α]
    (element? : Json → Option α) (j : Json) : Option (SortedSet α) :=
  (asList? element? j).map SortedSet.ofList

/-- A value that may be `null`. -/
def asNullable? {α : Type} (value? : Json → Option α) : Json → Option (Option α)
  | null => some none
  | j => (value? j).map some

/-- A constant with a name: its name, or an object with its name and `null`. -/
def asConstant? {α : Type} (ofName? : String → Option α) : Json → Option α
  | text (some s) => ofName? s
  | object [(some s, null)] => ofName? s
  | _ => none

/-! ### Records -/

/-- The fields of a record, by name. -/
abbrev Fields := List (String × Json)

/-- The members of an object whose names are texts. -/
def namedMembers? (members : List (Option String × Json)) : Option Fields :=
  members.mapM fun m => m.1.map fun name => (name, m.2)

/-- The fields of a record, from an object or from the array of all fields. -/
def asRecord? (names : List String) : Json → Option Fields
  | object members => namedMembers? members
  | array elements =>
    if elements.length = names.length then some (names.zip elements) else none
  | _ => none

/-- The fields of a record whose array form may leave out the last ones. -/
def asOpenRecord? (names : List String) : Json → Option Fields
  | object members => namedMembers? members
  | array elements =>
    if elements.length ≤ names.length then some (names.zip elements) else none
  | _ => none

namespace Fields

variable {α : Type}

/-- The values under a name. -/
def occurrences (name : String) (fields : Fields) : List Json :=
  (fields.filter fun f => f.1 == name).map (·.2)

/-- A field that occurs exactly once. -/
def required? (fields : Fields) (name : String) (value? : Json → Option α) : Option α :=
  match fields.occurrences name with
  | [j] => value? j
  | _ => none

/-- A field that occurs at most once, and may be `null`. -/
def optional? (fields : Fields) (name : String) (value? : Json → Option α) :
    Option (Option α) :=
  match fields.occurrences name with
  | [] => some none
  | [j] => asNullable? value? j
  | _ => none

/-- A field that occurs at most once, with a default. -/
def defaulting? (fields : Fields) (name : String) (default : α) (value? : Json → Option α) :
    Option α :=
  match fields.occurrences name with
  | [] => some default
  | [j] => value? j
  | _ => none

end Fields

end Json

end JudgePolicy
