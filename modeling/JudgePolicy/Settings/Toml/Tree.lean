/-
How the statements of a TOML document build up tables.

A document is a list of statements: headers, which open a table or the next
table of an array, and assignments, which put a value under a dotted key of the
open table.  Nothing may be defined twice, so each table remembers how it came
about:

* `implied` — only as part of a longer header; a header may still open it;
* `dotted` — by dotted keys; further dotted keys may extend it, no header opens
  it;
* `opened` — by a header; only assignments below that header extend it.
-/
import JudgePolicy.Settings.Tree
namespace JudgePolicy

namespace Toml

/-- How a table came about. -/
inductive Origin where
  | implied
  | dotted
  | opened
  deriving DecidableEq

/-- A part of a document under construction. -/
inductive Node where
  /-- A finished value. -/
  | value (s : Setting)
  | table (origin : Origin) (entries : List (String × Node))
  /-- An array of tables; the last one is open. -/
  | tables (elements : List Node)

/-- The entries of a table under construction. -/
abbrev Nodes := List (String × Node)

/-- A statement of a document. -/
inductive Statement where
  | header (path : List String)
  | arrayHeader (path : List String)
  | assignment (path : List String) (value : Setting)

namespace Node

/-- A table just opened by a header. -/
def opened : Node := table .opened []

/-- Changes the node under a key, which may not exist yet. -/
def changeNode? (key : String) (change : Option Node → Option Node) :
    Nodes → Option Nodes
  | [] => (change none).map fun n => [(key, n)]
  | (k, n) :: rest =>
    if k = key then (change (some n)).map fun n => (k, n) :: rest
    else (changeNode? key change rest).map ((k, n) :: ·)

/-- Changes the last of some nodes, which must be a table. -/
def changeLast? (change : Nodes → Option Nodes) : List Node → Option (List Node)
  | [] => none
  | [table origin entries] => (change entries).map fun entries => [table origin entries]
  | [_] => none
  | n :: rest => (changeLast? change rest).map (n :: ·)

/-- Goes into a table on the way to a deeper one.  A missing table is made; dotted
keys do not go into tables that a header opened, nor into arrays. -/
def goInto? (dotted : Bool) (change : Nodes → Option Nodes) : Option Node → Option Node
  | none => (change []).map (table (if dotted then .dotted else .implied))
  | some (table origin entries) =>
    if dotted && origin == .opened then none else (change entries).map (table origin)
  | some (tables elements) =>
    if dotted then none else (changeLast? change elements).map tables
  | some (value _) => none

/-- Changes what is at the end of a path. -/
def changeAtPath? (dotted : Bool) (change : Option Node → Option Node) :
    List String → Nodes → Option Nodes
  | [], _ => none
  | [key], nodes => changeNode? key change nodes
  | key :: rest, nodes =>
    changeNode? key (goInto? dotted (changeAtPath? dotted change rest)) nodes

/-- Changes the entries of the table at the end of a path. -/
def changeTable? (change : Nodes → Option Nodes) : List String → Nodes → Option Nodes
  | [], nodes => change nodes
  | key :: rest, nodes => changeNode? key (goInto? false (changeTable? change rest)) nodes

/-- Puts a value where nothing is. -/
def put? (s : Setting) : Option Node → Option Node
  | none => some (value s)
  | some _ => none

/-- Opens a table. -/
def open? : Option Node → Option Node
  | none => some opened
  | some (table .implied entries) => some (table .opened entries)
  | some _ => none

/-- Opens the next table of an array. -/
def openNext? : Option Node → Option Node
  | none => some (tables [opened])
  | some (tables elements) => some (tables (elements ++ [opened]))
  | some _ => none

/-- Puts a value under a dotted key. -/
def assign? (path : List String) (s : Setting) : Nodes → Option Nodes :=
  changeAtPath? true (put? s) path

mutual

def toSetting : Node → Setting
  | value s => s
  | table _ entries => .table (toEntries entries)
  | tables elements => .array (toElements elements)

def toEntries : List (String × Node) → Setting.Entries
  | [] => []
  | (k, n) :: rest => (k, toSetting n) :: toEntries rest

def toElements : List Node → List Setting
  | [] => []
  | n :: rest => toSetting n :: toElements rest

end

end Node

/-- A document under construction: its tables, and the path of the open one. -/
structure Draft where
  nodes : Nodes := []
  openPath : List String := []

/-- The document after one more statement. -/
def Draft.run? (d : Draft) : Statement → Option Draft
  | .header path => do
    let nodes ← Node.changeAtPath? false Node.open? path d.nodes
    some ⟨nodes, path⟩
  | .arrayHeader path => do
    let nodes ← Node.changeAtPath? false Node.openNext? path d.nodes
    some ⟨nodes, path⟩
  | .assignment path s => do
    let nodes ← Node.changeTable? (Node.assign? path s) d.openPath d.nodes
    some { d with nodes }

/-- The table that the statements of a document make. -/
def build? (statements : List Statement) : Option Setting := do
  let d ← statements.foldlM Draft.run? {}
  some (.table (Node.toEntries d.nodes))

/-- The table that the assignments between braces make. -/
def inlineTable? (assignments : List (List String × Setting)) : Option Setting := do
  let nodes ← assignments.foldlM (fun nodes a => Node.assign? a.1 a.2 nodes) []
  some (.table (Node.toEntries nodes))

end Toml

end JudgePolicy
