/-
The settings of the policy, and the layers they come from.

Three layers are laid over each other: the default, a file, and the environment.
Names of environment variables are compared without regard to case; those that
begin with `judge__` name a place, with `__` before each further key.

* `Settings.loadFrom` — the settings, unless the file is no table of settings or the
  characters are no text in the end;
* `Settings.review` — the outcome of checking a text against the settings.
-/
import JudgePolicy.Failure
import JudgePolicy.Json.Decode
import JudgePolicy.Json.Parser
import JudgePolicy.Settings.Files
import JudgePolicy.Settings.Toml.Parser
import JudgePolicy.Statement
namespace JudgePolicy

/-- The settings of the policy. -/
structure Settings where
  /-- The characters that no statement may hold. -/
  disallowedCharacters : String := Statement.defaultDisallowed
  deriving DecidableEq

namespace Settings

/-- The set of the characters that no statement may hold. -/
def disallowedSet (s : Settings) : SortedSet Char := Statement.charSet s.disallowedCharacters

theorem mem_disallowedSet {s : Settings} {c : Char} :
    c ∈ s.disallowedSet ↔ c ∈ s.disallowedCharacters.toList :=
  SortedSet.mem_ofList

/-- The outcome of checking a text against the settings. -/
def review (s : Settings) (text : String) : Except Failure Unit :=
  (Statement.check text s.disallowedSet).mapError Failure.disallowedCharacters

/-! ### What a file writes -/

mutual

/-- The setting that a JSON value writes.  Integers beyond 64 bits are floating-point
numbers; strings must be texts, and numbers finite. -/
def ofJson? : Json → Option Setting
  | .null => some .null
  | .bool b => some (.bool b)
  | .number n =>
    match n.toInt?.filter Setting.fits64 with
    | some i => some (.integer i)
    | none => if n.toBinary64.isFinite then some (.float n.toBinary64) else none
  | .text s => s.map .text
  | .array elements => (ofJsonElements? elements).map .array
  | .object members => (ofJsonMembers? members []).map .table

/-- The settings that some JSON values write. -/
def ofJsonElements? : List Json → Option (List Setting)
  | [] => some []
  | j :: rest => do
    let s ← ofJson? j
    let more ← ofJsonElements? rest
    some (s :: more)

/-- The entries that the members of an object write, after earlier ones; of
members with one name the last counts. -/
def ofJsonMembers? : List (Option String × Json) → Setting.Entries → Option Setting.Entries
  | [], entries => some entries
  | (k, j) :: rest, entries => do
    let k ← k
    let s ← ofJson? j
    ofJsonMembers? rest (Setting.putEntry k (fun _ => s) entries)

end

/-- How deep the values of a JSON file may be nested. -/
def maxDepth : Nat := 127

/-- What is left open about the library that finds and reads files of settings: the order in
which it tries the formats, and how it reads those that are not read here. -/
structure Library where
  formats : List Format
  complete : ∀ format, format ∈ formats
  /-- What a text in another format than TOML and JSON writes. -/
  readOther? : Format → String → Option { s : Setting // s.Keyed }

/-- A library that reads TOML and JSON, and fails on every other format. -/
def Library.plain : Library := ⟨Format.all, Format.mem_all, fun _ _ => none⟩

/-- The setting that the text of a file writes. -/
def Library.parse? (library : Library) (format : Format) (text : String) : Option Setting :=
  match format with
  | .toml => Toml.parse? text
  | .json => (Json.parse? text).bind fun j => if j.depth ≤ maxDepth then ofJson? j else none
  | .yaml | .ini | .ron | .json5 => (library.readOther? format text).map (·.1)

/-! ### Layers -/

def defaults : Setting :=
  .table [("problem", .table [("disallowed_characters", .text Statement.defaultDisallowed)])]

/-- Lays entries over settings; each key names a place. -/
def layOver (root : Setting) (entries : Setting.Entries) : Setting :=
  entries.foldl (fun root e => Setting.assign (.named e.1) e.2 root) root

/-- The layer of the file that a path names.  The file is optional: there are no entries if it
is missing, and neither if its ending is that of no format or it cannot be read.  A text that
does not write a table is a failure. -/
def fileLayer (library : Library) (disk : Disk) (path : String) : Option Setting.Entries :=
  match disk.settingsFile? library.formats path with
  | none => some []
  | some (format, text) =>
    match library.parse? format text with
    | some (.table entries) => some entries
    | _ => none

/-- The start of the names of environment variables that are settings. -/
def variableStart : String := "judge__"

/-- A text with `.` for every `__`, from the left. -/
def dotted : List Char → List Char
  | '_' :: '_' :: rest => '.' :: dotted rest
  | c :: rest => c :: dotted rest
  | [] => []

/-- The place that an environment variable names. -/
def variableKey? (name : String) : Option String :=
  (Toml.after? variableStart.toList (name.toList.map Char.toLower)).map
    fun rest => String.ofList (dotted rest)

/-- The layer of the environment. -/
def environmentLayer (environment : List (String × String)) : Setting.Entries :=
  environment.filterMap fun v => (variableKey? v.1).map (·, .text v.2)

/-! ### The result -/

/-- The text of a scalar. -/
def scalarText? : Setting → Option String
  | .text s => some s
  | .bool b => some (if b then "true" else "false")
  | .integer i => some (toString i)
  | .float x => some x.plainText
  | .null | .array _ | .table _ => none

/-- The settings of a section, as a table or as the list of its values. -/
def ofSection? : Setting → Option Settings
  | .table entries =>
    match Setting.find? "disallowed_characters" entries with
    | none => some {}
    | some s => (scalarText? s).map fun text => ⟨text⟩
  | .array [] => some {}
  | .array (s :: _) => (scalarText? s).map fun text => ⟨text⟩
  | _ => none

/-- The settings of a whole tree. -/
def ofTree? (root : Setting) : Option Settings :=
  match Setting.find? "problem" root.entries with
  | none => some {}
  | some s => ofSection? s

/-- The settings of the default, a file and the environment, later ones first. -/
def loadFrom (library : Library) (disk : Disk) (environment : List (String × String))
    (path : String) : Option Settings := do
  let fileEntries ← fileLayer library disk path
  ofTree? (layOver (layOver defaults fileEntries) (environmentLayer environment))

/-- The path of the file of settings, unless the environment names another. -/
def defaultPath : String := "config/config"

/-- The path that the environment names. -/
def environmentPath (environment : List (String × String)) : String :=
  ((environment.find? (·.1 == "JUDGE_CONFIG")).map (·.2)).getD defaultPath

/-- The settings of a file below the working directory, where there are no other files. -/
def load (files : Files) (environment : List (String × String)) (path : String) :
    Option Settings :=
  loadFrom .plain (.holding files) environment path

/-- The settings of the file that the environment names. -/
def loadDefault (files : Files) (environment : List (String × String)) : Option Settings :=
  load files environment (environmentPath environment)

/-! ### The JSON form -/

/-- Reads the settings of problems. -/
def ofProblemJson? (j : Json) : Option Settings := do
  let fields ← j.asOpenRecord? ["disallowed_characters"]
  let text ← fields.defaulting? "disallowed_characters" Statement.defaultDisallowed Json.asText?
  return ⟨text⟩

/-- Reads the settings of the whole policy. -/
def ofPolicyJson? (j : Json) : Option Settings := do
  let fields ← j.asOpenRecord? ["problem"]
  fields.defaulting? "problem" {} ofProblemJson?

end Settings

end JudgePolicy
