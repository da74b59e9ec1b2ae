/-
The JSON form of problems, which is written and never read: a problem comes from
a checked draft only.
-/
import JudgePolicy.Exchange.Profile
import JudgePolicy.Problem
namespace JudgePolicy

def Problem.toJson (p : Problem) : Json :=
  .record [
    ("id", .ofId p.id),
    ("code", .ofString p.code),
    ("name", .ofString p.name),
    ("points", .ofBinary64 p.points),
    ("is_public", .bool p.isPublic),
    ("is_organization_private", .bool p.isOrganizationPrivate),
    ("authors", .ofIds p.authors.ids),
    ("curators", .ofIds p.curators.ids),
    ("testers", .ofIds p.testers.ids),
    ("organizations", .ofIds p.organizations.toList),
    ("banned_users", .ofIds p.bannedUsers.toList)]

end JudgePolicy
