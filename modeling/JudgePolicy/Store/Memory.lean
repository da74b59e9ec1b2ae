/-
A store held in memory.

Adding never fails, and the lookups of `MemoryStore.toStore` always answer.  A
problem is found under its own code, an editorial under the code of its
problem; adding again replaces what was there, administrators add up, and
submissions are kept in the order they came in.
-/
import JudgePolicy.SortedMap
import JudgePolicy.Store
namespace JudgePolicy

/-- Everything a store can answer about. -/
structure MemoryStore where
  profiles : SortedMap ProfileId Profile := ∅
  problems : SortedMap String Problem := ∅
  editorials : SortedMap String Editorial := ∅
  submissions : List Submission := []
  organizationAdmins : SortedMap OrganizationId (SortedSet ProfileId) := ∅

namespace MemoryStore

def empty : MemoryStore := {}

instance : Inhabited MemoryStore := ⟨empty⟩

def addProfile (s : MemoryStore) (p : Profile) : MemoryStore :=
  { s with profiles := s.profiles.insert p.id p }

def addProblem (s : MemoryStore) (p : Problem) : MemoryStore :=
  { s with problems := s.problems.insert p.code p }

def addEditorial (s : MemoryStore) (e : Editorial) : MemoryStore :=
  { s with editorials := s.editorials.insert e.problem.code e }

def addSubmission (s : MemoryStore) (r : Submission) : MemoryStore :=
  { s with submissions := s.submissions ++ [r] }

/-- The profiles known to administer an organization. -/
def admins (s : MemoryStore) (o : OrganizationId) : SortedSet ProfileId :=
  (s.organizationAdmins.get? o).getD ∅

/-- Adds administrators to an organization. -/
def addAdmins (s : MemoryStore) (o : OrganizationId) (ids : List ProfileId) : MemoryStore :=
  { s with organizationAdmins := s.organizationAdmins.insert o ((s.admins o).insertAll ids) }

/-- One addition to a store. -/
inductive Addition where
  | profile (p : Profile)
  | problem (p : Problem)
  | editorial (e : Editorial)
  | submission (r : Submission)
  | admins (o : OrganizationId) (ids : List ProfileId)

/-- The store after an addition. -/
def add (s : MemoryStore) : Addition → MemoryStore
  | .profile p => s.addProfile p
  | .problem p => s.addProblem p
  | .editorial e => s.addEditorial e
  | .submission r => s.addSubmission r
  | .admins o ids => s.addAdmins o ids

/-- The store after some additions. -/
def addAll (s : MemoryStore) (additions : List Addition) : MemoryStore :=
  additions.foldl add s

/-- A profile's record on a problem. -/
def history (s : MemoryStore) (id : ProfileId) (p : Problem) : History :=
  History.ofSubmissions s.submissions id p

def toStore (s : MemoryStore) : Store where
  profile id := .ok (s.profiles.get? id)
  problem code := .ok (s.problems.get? code)
  problems := .ok s.problems.values
  editorial code := .ok (s.editorials.get? code)
  history id p := .ok (s.history id p)
  admins o := .ok (s.admins o)

end MemoryStore

end JudgePolicy
