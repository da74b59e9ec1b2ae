/-
The JSON forms of constants: each is a string, the name of the constant.  Also
an object with that name and `null` is read.
-/
import JudgePolicy.Capability
import JudgePolicy.Json.Decode
import JudgePolicy.Verdict
import JudgePolicy.Voting
namespace JudgePolicy

def Verdict.toJson (v : Verdict) : Json := .ofString v.code

def Verdict.ofJson? : Json → Option Verdict := Json.asConstant? ofCode?

namespace Capability

/-- The name of a capability in data texts, other than its permission name. -/
def title : Capability → String
  | editAll => "EditAll"
  | editOwn => "EditOwn"
  | editPublic => "EditPublic"
  | seeAll => "SeeAll"
  | seeOrganization => "SeeOrganization"
  | rejudge => "Rejudge"
  | seePrivateSolution => "SeePrivateSolution"

def ofTitle? (s : String) : Option Capability := all.find? (·.title == s)

def toJson (c : Capability) : Json := .ofString c.title

def ofJson? : Json → Option Capability := Json.asConstant? ofTitle?

end Capability

namespace Voting

def Permission.toJson (p : Permission) : Json := .ofString p.name

def Permission.ofJson? : Json → Option Permission := Json.asConstant? ofName?

def Reason.toJson (r : Reason) : Json := .ofString r.name

def Reason.ofJson? : Json → Option Reason := Json.asConstant? ofName?

end Voting

end JudgePolicy
