/-
Verdicts: the final results that judging a submission can have.
-/
namespace JudgePolicy

/-- The result of a judged submission. -/
inductive Verdict where
  | accepted
  | wrongAnswer
  | timeLimitExceeded
  | memoryLimitExceeded
  | outputLimitExceeded
  | invalidReturn
  | runtimeError
  | compileError
  | internalError
  | shortCircuited
  | aborted
  deriving DecidableEq

namespace Verdict

/-- All verdicts. -/
def all : List Verdict :=
  [accepted, wrongAnswer, timeLimitExceeded, memoryLimitExceeded, outputLimitExceeded,
    invalidReturn, runtimeError, compileError, internalError, shortCircuited, aborted]

/-- The short code a verdict is stored and written as. -/
def code : Verdict → String
  | accepted => "AC"
  | wrongAnswer => "WA"
  | timeLimitExceeded => "TLE"
  | memoryLimitExceeded => "MLE"
  | outputLimitExceeded => "OLE"
  | invalidReturn => "IR"
  | runtimeError => "RTE"
  | compileError => "CE"
  | internalError => "IE"
  | shortCircuited => "SC"
  | aborted => "AB"

/-- Whether the submission counts as a solution, however many points it got. -/
def isAccepted (v : Verdict) : Bool := v == accepted

/-- The verdict with a code; codes are case-sensitive. -/
def ofCode? (s : String) : Option Verdict := all.find? (·.code == s)

def unknownMessage (s : String) : String :=
  "Invalid result code '" ++ s ++ "'. Valid values: " ++ ", ".intercalate (all.map code)

theorem ofCode?_code (v : Verdict) : ofCode? v.code = some v := by
  cases v <;> decide

end Verdict

end JudgePolicy
