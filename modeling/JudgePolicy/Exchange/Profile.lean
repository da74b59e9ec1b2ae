/-
The JSON forms of profiles and of contest participations.

Fields are written in a fixed order and read in any order; a participation that
never ends may leave out `ends_at`, and a profile without a participation may
leave out `current_contest`.
-/
import JudgePolicy.Json.Decode
import JudgePolicy.Profile
import JudgePolicy.Time.Timestamp
namespace JudgePolicy

def Instant.toJson (t : Instant) : Json := .ofString (Timestamp.text t)

def Instant.ofJson? (j : Json) : Option Instant := j.asText?.bind Timestamp.ofText?

namespace Json

/-- The JSON form of an identifier. -/
def ofId (id : Int32) : Json := ofInt id.toInt

/-- The JSON form of a list of identifiers. -/
def ofIds (ids : List Int32) : Json := array (ids.map ofId)

/-- The JSON form of a list of strings. -/
def ofStrings (strings : List String) : Json := array (strings.map ofString)

/-- The JSON form of a value that may be missing. -/
def ofOption {α : Type} (value : α → Json) : Option α → Json
  | none => null
  | some a => value a

end Json

namespace Participation

def fieldNames : List String := ["contest", "ends_at"]

def toJson (p : Participation) : Json :=
  .record [
    ("contest", .ofId p.contest),
    ("ends_at", .ofOption Instant.toJson p.endsAt)]

def ofFields? (fields : Json.Fields) : Option Participation := do
  let contest ← fields.required? "contest" Json.asInt32?
  let endsAt ← fields.optional? "ends_at" Instant.ofJson?
  return { contest, endsAt }

def ofJson? (j : Json) : Option Participation := (j.asRecord? fieldNames).bind ofFields?

end Participation

namespace Profile

def fieldNames : List String :=
  ["id", "username", "is_superuser", "is_staff", "is_unlisted",
    "is_banned_from_problem_voting", "permissions", "organizations",
    "administered_organizations", "current_contest"]

def toJson (p : Profile) : Json :=
  .record [
    ("id", .ofId p.id),
    ("username", .ofString p.username),
    ("is_superuser", .bool p.isSuperuser),
    ("is_staff", .bool p.isStaff),
    ("is_unlisted", .bool p.isUnlisted),
    ("is_banned_from_problem_voting", .bool p.isBannedFromVoting),
    ("permissions", .ofStrings p.permissions.toList),
    ("organizations", .ofIds p.organizations.toList),
    ("administered_organizations", .ofIds p.administered.toList),
    ("current_contest", .ofOption Participation.toJson p.participation)]

def ofFields? (fields : Json.Fields) : Option Profile := do
  let id ← fields.required? "id" Json.asInt32?
  let username ← fields.required? "username" Json.asText?
  let isSuperuser ← fields.required? "is_superuser" Json.asBool?
  let isStaff ← fields.required? "is_staff" Json.asBool?
  let isUnlisted ← fields.required? "is_unlisted" Json.asBool?
  let isBannedFromVoting ← fields.required? "is_banned_from_problem_voting" Json.asBool?
  let permissions ← fields.required? "permissions" (Json.asSet? Json.asText?)
  let organizations ← fields.required? "organizations" (Json.asSet? Json.asInt32?)
  let administered ← fields.required? "administered_organizations" (Json.asSet? Json.asInt32?)
  let participation ← fields.optional? "current_contest" Participation.ofJson?
  return {
    id, username, isSuperuser, isStaff, isUnlisted, isBannedFromVoting, permissions,
    organizations, administered, participation }

def ofJson? (j : Json) : Option Profile := (j.asRecord? fieldNames).bind ofFields?

end Profile

end JudgePolicy
