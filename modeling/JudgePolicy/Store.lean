/-
Stores: where snapshots of profiles, problems and submissions come from.

A `Store` is its lookups, each of which may fail or find nothing.  A `Lookup`
names one of them with what is asked for, and `Store.withFaults` makes chosen
lookups fail.
-/
import JudgePolicy.Editorial
import JudgePolicy.Failure
import JudgePolicy.Submission
namespace JudgePolicy

/-- The lookups that the policy needs. -/
structure Store where
  profile : ProfileId → Except StoreError (Option Profile)
  problem : String → Except StoreError (Option Problem)
  /-- All problems, for lists. -/
  problems : Except StoreError (List Problem)
  /-- The editorial of the problem with a code. -/
  editorial : String → Except StoreError (Option Editorial)
  /-- A profile's record on a problem, judged by the problem's points. -/
  history : ProfileId → Problem → Except StoreError History
  /-- The profiles that administer an organization; none if it is unknown. -/
  admins : OrganizationId → Except StoreError (SortedSet ProfileId)

/-- A lookup and what it asks for. -/
inductive Lookup where
  | profile (id : ProfileId)
  | problem (code : String)
  | problems
  | editorial (code : String)
  | history (id : ProfileId) (code : String)
  | admins (organization : OrganizationId)
  deriving DecidableEq

namespace Lookup

def kind : Lookup → String
  | profile _ => "profile"
  | problem _ => "problem"
  | problems => "problems"
  | editorial _ => "solution"
  | history _ _ => "history"
  | admins _ => "admins"

/-- What a lookup asks for. -/
def subject : Lookup → List String
  | profile id => [toString id.toInt]
  | problem code => [code]
  | problems => []
  | editorial code => [code]
  | history id code => [toString id.toInt, code]
  | admins organization => [toString organization.toInt]

/-- A lookup as text: its kind and what it asks for. -/
def text (l : Lookup) : String := " ".intercalate (l.kind :: l.subject)

end Lookup

/-- A lookup that fails: one by its text, or all of a kind. -/
structure Fault where
  target : String
  error : StoreError
  deriving DecidableEq

namespace Fault

/-- Whether a fault is meant for a lookup. -/
def hits (f : Fault) (l : Lookup) : Bool := f.target == l.text || f.target == l.kind

/-- The error that the first fault meant for a lookup gives. -/
def errorOn? (faults : List Fault) (l : Lookup) : Option StoreError :=
  (faults.find? (·.hits l)).map (·.error)

/-- The answer of a lookup, or the error of a fault. -/
def guard {α : Type} (faults : List Fault) (l : Lookup) (answer : Except StoreError α) :
    Except StoreError α :=
  match errorOn? faults l with
  | some e => .error e
  | none => answer

end Fault

/-- The store in which some lookups fail. -/
def Store.withFaults (s : Store) (faults : List Fault) : Store where
  profile id := Fault.guard faults (.profile id) (s.profile id)
  problem code := Fault.guard faults (.problem code) (s.problem code)
  problems := Fault.guard faults .problems s.problems
  editorial code := Fault.guard faults (.editorial code) (s.editorial code)
  history id p := Fault.guard faults (.history id p.code) (s.history id p)
  admins o := Fault.guard faults (.admins o) (s.admins o)

end JudgePolicy
