/-
The JSON form of submissions.
-/
import JudgePolicy.Exchange.Codes
import JudgePolicy.Exchange.Profile
import JudgePolicy.Submission
namespace JudgePolicy

namespace Submission

def fieldNames : List String := ["profile", "problem", "result", "points", "language"]

def toJson (s : Submission) : Json :=
  .record [
    ("profile", .ofId s.profile),
    ("problem", .ofId s.problem),
    ("result", s.verdict.toJson),
    ("points", .ofBinary64 s.points),
    ("language", .ofString s.language)]

def ofFields? (fields : Json.Fields) : Option Submission := do
  let profile ← fields.required? "profile" Json.asInt32?
  let problem ← fields.required? "problem" Json.asInt32?
  let verdict ← fields.required? "result" Verdict.ofJson?
  let points ← fields.required? "points" Json.asBinary64?
  let language ← fields.required? "language" Json.asText?
  return { profile, problem, verdict, points, language }

def ofJson? (j : Json) : Option Submission := (j.asRecord? fieldNames).bind ofFields?

end Submission

end JudgePolicy
