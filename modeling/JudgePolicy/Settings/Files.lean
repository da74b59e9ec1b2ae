/-
Where files of settings stand, and which one a path names.

A path names the file at that very place, whatever its ending, or else a file whose name
has the ending of a format besides.  What stands at a place is for the `Disk` to say: a path
is handed over as it is, only its last name is looked at.

* `Disk.locate?` — the file that a path names, of a format or of none, readable or not;
* `Disk.settingsFile?` — its format and its text, if it has both.

Design notes: of two files that differ in their endings either may be found, as the order in
which formats are tried is left open.  `Disk.holding` is a disk in memory, which resolves
paths name by name.
-/
namespace JudgePolicy

namespace Settings

/-! ### Formats -/

/-- The formats of files of settings. -/
inductive Format where
  | toml
  | json
  | yaml
  | ini
  | ron
  | json5
  deriving DecidableEq

namespace Format

def all : List Format := [toml, json, yaml, ini, ron, json5]

theorem mem_all (format : Format) : format ∈ all := by
  cases format <;> decide

/-- The endings of a format's file names, without the dot. -/
def endings : Format → List String
  | toml => ["toml"]
  | json => ["json"]
  | yaml => ["yaml", "yml"]
  | ini => ["ini"]
  | ron => ["ron"]
  | json5 => ["json5"]

/-- The format with an ending. -/
def ofEnding? (ending : String) : Option Format := all.find? fun format => ending ∈ format.endings

end Format

/-! ### Paths -/

/-- The parts of a text between the places where a character stands. -/
def partsAt (mark : Char) (text : String) : List String :=
  (text.toList.splitOn mark).map String.ofList

/-- Drops what may follow the last name of a path that is written backwards: slashes, and dots
that name the directory itself. -/
def dropBehindName : List Char → List Char
  | '/' :: rest => dropBehindName rest
  | '.' :: '/' :: rest => dropBehindName rest
  | cs => cs

/-- A path up to the end of its last name. -/
def upToName (path : String) : String :=
  String.ofList (dropBehindName path.toList.reverse).reverse

/-- The last name of a path; `..` is no name. -/
def lastName? (path : String) : Option String :=
  let name := String.ofList ((upToName path).toList.reverse.takeWhile (· ≠ '/')).reverse
  if name = "" ∨ name = ".." then none else some name

/-- What follows the last dot of a name; a name that only begins with a dot has no ending. -/
def nameEnding? (name : String) : Option String :=
  match (partsAt '.' name).reverse with
  | ending :: before :: more => if before = "" ∧ more = [] then none else some ending
  | _ => none

/-- The format of the file at a path, by the ending of its name. -/
def formatAt? (path : String) : Option Format :=
  ((lastName? path).bind nameEnding?).bind Format.ofEnding?

/-- A path with an ending after its last name, besides any it has. -/
def withEnding? (path ending : String) : Option String :=
  (lastName? path).map fun _ => upToName path ++ "." ++ ending

/-- The places where a file may stand that is named without its ending. -/
def placesWithEnding (formats : List Format) (path : String) : List (Format × String) :=
  formats.flatMap fun format =>
    format.endings.filterMap fun ending => (withEnding? path ending).map (format, ·)

/-! ### Disks -/

/-- What a program sees of the files around it. -/
structure Disk where
  /-- The directory in which relative paths begin. -/
  here : String
  /-- The file at a path that begins at the root: its text, unless it cannot be read. -/
  file? : String → Option (Option String)

/-- A file that was found: its format, unless its ending is that of none, and its text, unless
it cannot be read. -/
structure FoundFile where
  format? : Option Format
  text? : Option String
  deriving DecidableEq

namespace Disk

/-- A path from the root on. -/
def absolute (disk : Disk) (path : String) : String :=
  if path.toList.head? = some '/' then path
  else if disk.here.toList.getLast? = some '/' then disk.here ++ path
  else disk.here ++ "/" ++ path

/-- The file that a path names.  One at the path itself keeps all others from being looked at. -/
def locate? (disk : Disk) (formats : List Format) (path : String) : Option FoundFile :=
  let place := disk.absolute path
  match disk.file? place with
  | some text? => some ⟨formatAt? place, text?⟩
  | none => (placesWithEnding formats place).findSome? fun named =>
      (disk.file? named.2).map fun text? => ⟨some named.1, text?⟩

/-- The character that marks the encoding of a file at its start. -/
def byteOrderMark : Char := Char.ofNat 0xFEFF

/-- A text without the mark that may stand before it. -/
def withoutMark (text : String) : String :=
  match text.toList with
  | [] => text
  | c :: rest => if c = byteOrderMark then String.ofList rest else text

/-- The file of settings that a path names, if its format is known and it can be read. -/
def settingsFile? (disk : Disk) (formats : List Format) (path : String) :
    Option (Format × String) := do
  let file ← disk.locate? formats path
  let format ← file.format?
  let text ← file.text?
  return (format, withoutMark text)

end Disk

/-! ### A disk in memory -/

/-- Files by name, relative to the working directory. -/
abbrev Files := List (String × String)

/-- The names of a path, from the first to the last. -/
def pathNames (path : String) : List String :=
  (partsAt '/' path).filter fun part => part ≠ "" ∧ part ≠ "."

/-- The names from the root to where a path leads, which passes through directories only. -/
def walk? (isDirectory : List String → Bool) : List String → List String → Option (List String)
  | reached, [] => some reached
  | reached, part :: rest =>
    if isDirectory reached then
      walk? isDirectory
        (if part = "" ∨ part = "." then reached
          else if part = ".." then reached.dropLast
          else reached ++ [part])
        rest
    else none

/-- The disk with some files below the working directory and no others. -/
def Disk.holding (files : Files) : Disk where
  here := "/work"
  file? path := do
    let placed := files.map fun file => ("work" :: pathNames file.1, file.2)
    let isDirectory (names : List String) : Bool :=
      names.isPrefixOf ["work"] ||
        placed.any fun file => names.isPrefixOf file.1 && decide (names ≠ file.1)
    let names ← walk? isDirectory [] (partsAt '/' path)
    (placed.find? (·.1 == names)).map fun file => some file.2

end Settings

end JudgePolicy
