/-
Editorials: written solutions, each of one problem, with a publication date.

* `Viewer.editorialPath` — the first reason for which a viewer may read an
  editorial, or `denied`;
* `Viewer.canRead_iff` — a viewer may read an editorial if any one of the paths is
  open, whichever comes first.
-/
import JudgePolicy.Access
namespace JudgePolicy

/-- The editorial of a problem.  People may be named more than once. -/
structure Editorial where
  problem : Problem
  isPublic : Bool
  publishOn : Instant
  authors : List ProfileId := []
  curators : List ProfileId := []
  deriving DecidableEq

namespace Editorial

def addAuthors (e : Editorial) (ids : List ProfileId) : Editorial :=
  { e with authors := e.authors ++ ids }

def addCurators (e : Editorial) (ids : List ProfileId) : Editorial :=
  { e with curators := e.curators ++ ids }

/-- The authors as named, and then the curators not named before; for an
editorial with neither, the editors of the problem. -/
def editorIds (e : Editorial) : List ProfileId :=
  if e.authors = [] ∧ e.curators = [] then e.problem.editors.ids
  else e.authors ++ Roster.newcomers e.authors e.curators

/-- Whether the editorial is public and its date has come. -/
def isPublishedAt (e : Editorial) (now : Instant) : Bool :=
  e.isPublic && decide (e.publishOn ≤ now)

/-- Why an editorial may be read. -/
inductive Path where
  | seePrivateSolution
  | problemEditor
  | problemEditable
  | published
  | denied
  deriving DecidableEq

def Path.name : Path → String
  | seePrivateSolution => "see_private_solution"
  | problemEditor => "problem_editor"
  | problemEditable => "problem_editable"
  | published => "published"
  | denied => "denied"

end Editorial

namespace Viewer

/-- The first path that opens an editorial to the viewer. -/
def editorialPath (v : Viewer) (e : Editorial) (now : Instant) : Editorial.Path :=
  if Capability.seePrivateSolution ∈ v.capabilities then .seePrivateSolution
  else if (v.rolesOn e.problem).isEditor then .problemEditor
  else if v.canEdit e.problem then .problemEditable
  else if e.isPublishedAt now then .published
  else .denied

def canRead (v : Viewer) (e : Editorial) (now : Instant) : Bool :=
  v.editorialPath e now != .denied

/-- One open path is enough. -/
theorem canRead_iff {v : Viewer} {e : Editorial} {now : Instant} :
    v.canRead e now = true ↔
      Capability.seePrivateSolution ∈ v.capabilities ∨
        (v.rolesOn e.problem).isEditor = true ∨ v.canEdit e.problem = true ∨
          e.isPublishedAt now = true := by
  rw [canRead, editorialPath]
  by_cases hsee : Capability.seePrivateSolution ∈ v.capabilities
  · simp [hsee]
  by_cases heditor : (v.rolesOn e.problem).isEditor = true
  · simp [hsee, heditor]
  by_cases hedit : v.canEdit e.problem = true
  · simp [hsee, heditor, hedit]
  by_cases hpublished : e.isPublishedAt now = true <;>
    simp [hsee, heditor, hedit, hpublished]

end Viewer

end JudgePolicy
