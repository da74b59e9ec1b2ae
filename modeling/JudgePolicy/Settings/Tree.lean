/-
Settings as trees, and how later settings are laid over earlier ones.

A table laid over something merges entry by entry; everything else replaces what
was there.  `Place` names a spot in a tree, such as `problem.limits[0]`, and
`Setting.assign` lays a setting over what is at a place, making the tables and
arrays on the way.

Design notes: the entries of a table are kept in order of first mention, and
`putEntry` keeps their keys distinct.  Equality counts that order; it is decided by
`same`, since settings nest in lists.
-/
import JudgePolicy.Number.Numeral
namespace JudgePolicy

/-- A setting. -/
inductive Setting where
  | null
  | bool (b : Bool)
  | integer (i : Int)
  | float (x : Binary64)
  | text (s : String)
  | array (elements : List Setting)
  | table (entries : List (String × Setting))

namespace Setting

instance : Inhabited Setting := ⟨null⟩

/-! ### Equality -/

mutual

/-- Whether two settings are the same. -/
def same : Setting → Setting → Bool
  | null, null => true
  | bool a, bool b => a == b
  | integer i, integer j => i == j
  | float x, float y => x == y
  | text s, text t => s == t
  | array elements, array others => sameElements elements others
  | table entries, table others => sameEntries entries others
  | _, _ => false

def sameElements : List Setting → List Setting → Bool
  | [], [] => true
  | s :: rest, t :: others => same s t && sameElements rest others
  | _, _ => false

def sameEntries : List (String × Setting) → List (String × Setting) → Bool
  | [], [] => true
  | (k, s) :: rest, (l, t) :: others => k == l && same s t && sameEntries rest others
  | _, _ => false

end

mutual

theorem same_iff (s t : Setting) : same s t = true ↔ s = t := by
  cases s <;> cases t <;> simp [same, sameElements_iff, sameEntries_iff]

theorem sameElements_iff (elements others : List Setting) :
    sameElements elements others = true ↔ elements = others := by
  cases elements with
  | nil => cases others <;> simp [sameElements]
  | cons s rest =>
    cases others with
    | nil => simp [sameElements]
    | cons t others =>
      rw [sameElements, Bool.and_eq_true, same_iff s t, sameElements_iff rest others,
        List.cons.injEq]

theorem sameEntries_iff (entries others : List (String × Setting)) :
    sameEntries entries others = true ↔ entries = others := by
  cases entries with
  | nil => cases others <;> simp [sameEntries]
  | cons e rest =>
    obtain ⟨k, s⟩ := e
    cases others with
    | nil => simp [sameEntries]
    | cons f others =>
      obtain ⟨l, t⟩ := f
      rw [sameEntries, Bool.and_eq_true, Bool.and_eq_true, beq_iff_eq, same_iff s t,
        sameEntries_iff rest others, List.cons.injEq, Prod.mk.injEq]

end

instance : DecidableEq Setting := fun s t => decidable_of_iff _ (same_iff s t)

/-! ### Tables -/

/-- Whether a number fits in 64 bits with a sign, as the integers among settings do. -/
def fits64 (n : Int) : Bool := -0x8000000000000000 ≤ n && n < 0x8000000000000000

/-- The entries of a table. -/
abbrev Entries := List (String × Setting)

/-- The entries of a setting; one that is no table has none. -/
def entries : Setting → Entries
  | table entries => entries
  | _ => []

/-- The elements of a setting; one that is no array has none. -/
def elements : Setting → List Setting
  | array elements => elements
  | _ => []

/-- No table has a key twice, at any depth. -/
inductive Keyed : Setting → Prop where
  | null : Keyed .null
  | bool (b : Bool) : Keyed (.bool b)
  | integer (i : Int) : Keyed (.integer i)
  | float (x : Binary64) : Keyed (.float x)
  | text (s : String) : Keyed (.text s)
  | array {elements : List Setting} (good : ∀ s ∈ elements, Keyed s) : Keyed (.array elements)
  | table {entries : Entries} (distinct : (entries.map (·.1)).Nodup)
      (good : ∀ e ∈ entries, Keyed e.2) : Keyed (.table entries)

/-- The setting under a key. -/
def find? (key : String) : Entries → Option Setting
  | [] => none
  | (k, v) :: rest => if k = key then some v else find? key rest

/-- Changes the setting under a key; a missing one is `null` before. -/
def putEntry (key : String) (change : Setting → Setting) : Entries → Entries
  | [] => [(key, change null)]
  | (k, v) :: rest =>
    if k = key then (k, change v) :: rest else (k, v) :: putEntry key change rest

theorem find?_putEntry_self (key : String) (change : Setting → Setting) (entries : Entries) :
    find? key (putEntry key change entries) = some (change ((find? key entries).getD null)) := by
  induction entries with
  | nil => simp [putEntry, find?]
  | cons e rest ih =>
    obtain ⟨k, v⟩ := e
    by_cases h : k = key <;> simp [putEntry, find?, h, ih]

theorem find?_putEntry_of_ne {key other : String} (h : key ≠ other)
    (change : Setting → Setting) (entries : Entries) :
    find? other (putEntry key change entries) = find? other entries := by
  induction entries with
  | nil => simp [putEntry, find?, h]
  | cons e rest ih =>
    obtain ⟨k, v⟩ := e
    by_cases hk : k = key
    · subst hk
      simp [putEntry, find?, h]
    · simp [putEntry, find?, hk, ih]

mutual

/-- A setting laid over another: tables merge, everything else replaces. -/
def laidOver : Setting → Setting → Setting
  | table new, old => table (entriesLaidOver new old.entries)
  | new, _ => new

/-- Entries laid over others, one by one. -/
def entriesLaidOver : List (String × Setting) → Entries → Entries
  | [], old => old
  | (k, v) :: rest, old => entriesLaidOver rest (putEntry k (laidOver v) old)

end

/-! ### Places -/

/-- A step into a setting. -/
inductive Step where
  | key (name : String)
  /-- A place in an array; negative ones count from the end. -/
  | index (i : Int)
  deriving DecidableEq

/-- Changes the element at an index, after making the array reach it. -/
def changeAt (i : Int) (change : Setting → Setting) (elements : List Setting) :
    List Setting :=
  match i with
  | .ofNat n => (elements ++ List.replicate (n + 1 - elements.length) null).modify n change
  | .negSucc n =>
    let reached := List.replicate (n + 1 - elements.length) null ++ elements
    reached.modify (reached.length - (n + 1)) change

/-- Changes what is at the end of some steps.  What is in the way of a step
gives way to a table or an array. -/
def changeUnder (change : Setting → Setting) : List Step → Setting → Setting
  | [], s => change s
  | .key k :: rest, s => table (putEntry k (changeUnder change rest) s.entries)
  | .index i :: rest, s => array (changeAt i (changeUnder change rest) s.elements)

/-- A spot in a table of settings. -/
structure Place where
  root : String
  steps : List Step
  deriving DecidableEq

/-- Lays a setting over what is at a place. -/
def assign (place : Place) (new : Setting) (root : Setting) : Setting :=
  changeUnder (laidOver new) (.key place.root :: place.steps) root

/-! ### Written places -/

/-- The characters of names in a written place. -/
def isNameChar (c : Char) : Bool :=
  let n := c.toNat
  (decide (97 ≤ n) && decide (n ≤ 122)) || (decide (65 ≤ n) && decide (n ≤ 90)) ||
    (decide (48 ≤ n) && decide (n ≤ 57)) || c == '_' || c == '-'

/-- A name and what follows it. -/
def readName? (cs : List Char) : Option (String × List Char) :=
  match cs.takeWhile isNameChar with
  | [] => none
  | name => some (String.ofList name, cs.dropWhile isNameChar)

/-- The blanks that may surround an index. -/
def skipTabs (cs : List Char) : List Char := cs.dropWhile fun c => c == ' ' || c == '\t'

/-- An index of 64 bits, up to the closing bracket, and what follows that. -/
def readIndex? (cs : List Char) : Option (Int × List Char) :=
  let cs := skipTabs cs
  let (negative, cs) :=
    match cs with
    | '-' :: rest => (true, rest)
    | cs => (false, cs)
  match spanDigits cs with
  | ([], _) => none
  | (ds, cs) =>
    let n : Int := if negative then -(digitsValue ds : Int) else digitsValue ds
    match skipTabs cs with
    | ']' :: rest => if fits64 n then some (n, rest) else none
    | _ => none

/-- The steps that a text writes, to its end. -/
def readSteps? : Nat → List Char → Option (List Step)
  | _, [] => some []
  | 0, _ => none
  | fuel + 1, '.' :: rest => do
    let (name, rest) ← readName? rest
    let steps ← readSteps? fuel rest
    some (.key name :: steps)
  | fuel + 1, '[' :: rest => do
    let (i, rest) ← readIndex? rest
    let steps ← readSteps? fuel rest
    some (.index i :: steps)
  | _, _ => none

def Place.ofText? (s : String) : Option Place := do
  let (root, rest) ← readName? s.toList
  let steps ← readSteps? rest.length rest
  some ⟨root, steps⟩

/-- The place that a text names: the one it writes, or else the entry with that
text for a key. -/
def Place.named (s : String) : Place := (Place.ofText? s).getD ⟨s, []⟩

end Setting

end JudgePolicy
