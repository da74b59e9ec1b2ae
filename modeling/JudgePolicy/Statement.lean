/-
Checking problem statements for characters that are not allowed.

* `mem_offending` — exactly the characters that occur in both the text and the
  disallowed set are found.
-/
import JudgePolicy.SortedSet
namespace JudgePolicy

namespace Statement

/-- The characters that are not allowed unless configured otherwise: the
typographic quotes. -/
def defaultDisallowed : String := "“”‘’"

def charSet (s : String) : SortedSet Char := SortedSet.ofList s.toList

/-- The disallowed characters that occur in a text. -/
def offending (text : String) (disallowed : SortedSet Char) : SortedSet Char :=
  SortedSet.ofList (text.toList.filter (· ∈ disallowed))

theorem mem_offending {text : String} {disallowed : SortedSet Char} {c : Char} :
    c ∈ offending text disallowed ↔ c ∈ text.toList ∧ c ∈ disallowed := by
  simp [offending]

/-- Accepts a text without disallowed characters, and names all of them
otherwise. -/
def check (text : String) (disallowed : SortedSet Char) : Except (SortedSet Char) Unit :=
  let found := offending text disallowed
  if found.isEmpty then .ok () else .error found

end Statement

end JudgePolicy
