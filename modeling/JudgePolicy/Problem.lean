/-
Problems, and the drafts they are built from.

A `Problem` is a checked, immutable snapshot: its code has one to twenty
characters out of `a-z` and `0-9`, and its points are finite and not below
zero.  Both facts are part of the type, so every problem has them.  A `Draft`
collects what is known, and `Draft.build` checks it:

* `Draft.exists_build_eq_ok_iff` — building succeeds exactly for a good code and good
  points.

Design notes: `Defect` names the cause of a failure; of several causes the
first one in the order of its constructors is reported.
-/
import JudgePolicy.Number.Numeral
import JudgePolicy.Roster
namespace JudgePolicy

namespace Problem

/-- The longest code, in bytes of its encoded text. -/
def maxCodeLength : Nat := 20

/-- Whether a code is neither empty nor too long. -/
def hasCodeLength (code : String) : Bool :=
  decide (0 < code.utf8ByteSize) && decide (code.utf8ByteSize ≤ maxCodeLength)

/-- The characters of codes: lower-case letters and digits. -/
def isCodeChar (c : Char) : Bool :=
  (decide (97 ≤ c.toNat) && decide (c.toNat ≤ 122)) ||
    (decide (48 ≤ c.toNat) && decide (c.toNat ≤ 57))

/-- Whether a code has no character but those of codes. -/
def hasCodeChars (code : String) : Bool := code.toList.all isCodeChar

/-- Whether a number can be a score: finite and not below zero. -/
def isScore (points : Binary64) : Bool := points.isFinite && !points.isNegative

theorem isScore_zero : isScore .zero = true := by decide

/-- Why a draft is no problem. -/
inductive Defect where
  | codeLength (code : String)
  | codeChars (code : String)
  | points (code : String) (points : Binary64)
  deriving DecidableEq

def Defect.message : Defect → String
  | codeLength code =>
    "problem code must be 1-" ++ toString maxCodeLength ++ " characters, got '" ++ code ++ "'"
  | codeChars code => "problem code '" ++ code ++ "' may only contain a-z and 0-9"
  | points code x => "problem '" ++ code ++ "' has invalid points " ++ x.plainText

end Problem

/-- A problem and its relations, as checked on building. -/
structure Problem where
  id : ProblemId
  code : String
  name : String
  /-- The full score, exactly as stored. -/
  points : Binary64
  isPublic : Bool
  isOrganizationPrivate : Bool
  authors : Roster
  curators : Roster
  testers : Roster
  organizations : SortedSet OrganizationId
  bannedUsers : SortedSet ProfileId
  code_length : Problem.hasCodeLength code = true
  code_chars : Problem.hasCodeChars code = true
  points_score : Problem.isScore points = true
  deriving DecidableEq

namespace Problem

/-- The authors, and then the curators that are not authors. -/
def editors (p : Problem) : Roster := p.authors.addAll p.curators.ids

def isEditor (p : Problem) (id : ProfileId) : Bool :=
  decide (id ∈ p.authors) || decide (id ∈ p.curators)

theorem mem_editors {p : Problem} {id : ProfileId} :
    id ∈ p.editors ↔ p.isEditor id = true := by
  simp [editors, isEditor]

/-- What is to become a problem. -/
structure Draft where
  id : ProblemId
  code : String
  points : Binary64
  name : String := ""
  isPublic : Bool := false
  isOrganizationPrivate : Bool := false
  authors : Roster := ∅
  curators : Roster := ∅
  testers : Roster := ∅
  organizations : SortedSet OrganizationId := ∅
  bannedUsers : SortedSet ProfileId := ∅
  deriving DecidableEq

/-- A statement about the problem to be.  The name and the flags hold as last
set; people and organizations add up. -/
inductive Step where
  | name (name : String)
  | isPublic (flag : Bool)
  | isOrganizationPrivate (flag : Bool)
  | authors (ids : List ProfileId)
  | curators (ids : List ProfileId)
  | testers (ids : List ProfileId)
  | organizations (ids : List OrganizationId)
  | bannedUsers (ids : List ProfileId)

namespace Draft

def apply (d : Draft) : Step → Draft
  | .name name => { d with name }
  | .isPublic flag => { d with isPublic := flag }
  | .isOrganizationPrivate flag => { d with isOrganizationPrivate := flag }
  | .authors ids => { d with authors := d.authors.addAll ids }
  | .curators ids => { d with curators := d.curators.addAll ids }
  | .testers ids => { d with testers := d.testers.addAll ids }
  | .organizations ids => { d with organizations := d.organizations.insertAll ids }
  | .bannedUsers ids => { d with bannedUsers := d.bannedUsers.insertAll ids }

def applyAll (d : Draft) (steps : List Step) : Draft := steps.foldl apply d

/-- Checks a draft.  A problem without a name is named by its code. -/
def build (d : Draft) : Except Defect Problem :=
  if length : hasCodeLength d.code = true then
    if chars : hasCodeChars d.code = true then
      if score : isScore d.points = true then
        .ok {
          id := d.id
          code := d.code
          name := if d.name = "" then d.code else d.name
          points := d.points
          isPublic := d.isPublic
          isOrganizationPrivate := d.isOrganizationPrivate
          authors := d.authors
          curators := d.curators
          testers := d.testers
          organizations := d.organizations
          bannedUsers := d.bannedUsers
          code_length := length
          code_chars := chars
          points_score := score }
      else .error (.points d.code d.points)
    else .error (.codeChars d.code)
  else .error (.codeLength d.code)

/-- Building succeeds exactly for a good code and good points. -/
theorem exists_build_eq_ok_iff {d : Draft} :
    (∃ p, d.build = .ok p) ↔
      hasCodeLength d.code = true ∧ hasCodeChars d.code = true ∧ isScore d.points = true := by
  rw [build]
  split
  · split
    · split <;> simp_all
    · simp_all
  · simp_all

end Draft

end Problem

end JudgePolicy
