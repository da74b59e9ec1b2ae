/-
Failures: everything that can keep the policy from giving an answer.

Design notes: a failure names its cause; `Failure.message` holds the wording.
-/
import JudgePolicy.Problem
namespace JudgePolicy

/-- What a store reports when it cannot answer. -/
inductive StoreError where
  /-- The store could not be reached. -/
  | unavailable (message : String)
  /-- The store holds data that cannot be used. -/
  | invalidData (message : String)
  deriving DecidableEq

def StoreError.message : StoreError → String
  | unavailable s => "store unavailable: " ++ s
  | invalidData s => "invalid stored data: " ++ s

/-- What a store does not have. -/
inductive Missing where
  | profile (id : ProfileId)
  | problem (code : String)
  | editorial (code : String)
  deriving DecidableEq

def Missing.text : Missing → String
  | profile id => "Profile " ++ toString id.toInt
  | problem code => "Problem '" ++ code ++ "'"
  | editorial code => "Editorial for '" ++ code ++ "'"

/-- Why there is no answer. -/
inductive Failure where
  /-- A problem with a defect. -/
  | malformed (defect : Problem.Defect)
  /-- A statement with these disallowed characters. -/
  | disallowedCharacters (found : SortedSet Char)
  | notFound (missing : Missing)
  | store (error : StoreError)
  /-- Settings that cannot be read. -/
  | settings
  deriving DecidableEq

def Failure.message : Failure → String
  | malformed defect => "Malformed input: " ++ defect.message
  | disallowedCharacters found =>
    "Disallowed characters: " ++ ", ".intercalate (found.toList.map String.singleton)
  | notFound missing => missing.text ++ " not found"
  | store error => "Store error: " ++ error.message
  | settings => "Config error"

/-- An error that is passed on as a failure is one of those before. -/
theorem mapError_eq_error_iff {ε α : Type} {asFailure : ε → Failure} {x : Except ε α}
    {failure : Failure} :
    x.mapError asFailure = .error failure ↔ ∃ e, x = .error e ∧ failure = asFailure e := by
  constructor
  · intro h
    cases x with
    | ok a => cases h
    | error e => exact ⟨e, rfl, (Except.error.inj h).symm⟩
  · rintro ⟨e, rfl, rfl⟩
    rfl

end JudgePolicy
