/-
The written form of conditions, as the clause of a query.

Comparisons of columns, memberships and constants never need parentheses.  Below
`NOT` everything else gets them; of a conjunction or disjunction, the left part
goes without if it is joined by the same word.
-/
import JudgePolicy.Database.Condition
namespace JudgePolicy

namespace Database

/-- The name of a column, in quotes and with its table. -/
def Column.text : Column → String
  | isPublic => "\"problem\".\"is_public\""
  | isOrganizationPrivate => "\"problem\".\"is_organization_private\""

def relationTable : Relation → String
  | .authors => "problem_author"
  | .curators => "problem_curator"
  | .testers => "problem_tester"
  | .organizations => "problem_organization"
  | .bannedUsers => "problem_banned_user"

def memberColumn : Relation → String
  | .organizations => "organization_id"
  | _ => "profile_id"

def quoted (name : String) : String := "\"" ++ name ++ "\""

def idText (id : Int32) : String := toString id.toInt

/-- The test of a member column; no member is among none. -/
def MemberTest.text (column : String) : MemberTest → String
  | equals id => column ++ " = " ++ idText id
  | among ids =>
    match ids.toList with
    | [] => "1 = 2"
    | l => column ++ " IN (" ++ ", ".intercalate (l.map idText) ++ ")"

/-- The written membership of a row's problem in a relation. -/
def relatedText (r : Relation) (test : MemberTest) : String :=
  let table := quoted (relationTable r)
  "\"problem\".\"id\" IN (SELECT \"problem_id\" FROM " ++ table ++ " WHERE " ++
    test.text (table ++ "." ++ quoted (memberColumn r)) ++ ")"

namespace Expression

/-- Whether an expression never gets parentheses. -/
def isSimple : Expression → Bool
  | constant _ | column _ | related _ _ => true
  | comparison _ | not _ | and _ _ | or _ _ => false

def isAnd : Expression → Bool
  | and _ _ => true
  | _ => false

def isOr : Expression → Bool
  | or _ _ => true
  | _ => false

/-- A part of a larger expression, in parentheses unless it goes without. -/
def enclosed (bare : Bool) (text : String) : String :=
  if bare then text else "(" ++ text ++ ")"

def text : Expression → String
  | constant true => "TRUE"
  | constant false => "FALSE"
  | comparison true => "1 = 1"
  | comparison false => "1 = 0"
  | column c => c.text ++ " = TRUE"
  | related r test => relatedText r test
  | not e => "NOT " ++ enclosed e.isSimple e.text
  | and l r =>
    enclosed (l.isSimple || l.isAnd) l.text ++ " AND " ++ enclosed r.isSimple r.text
  | or l r => enclosed (l.isSimple || l.isOr) l.text ++ " OR " ++ enclosed r.isSimple r.text

end Expression

def Condition.text (c : Condition) : String := c.expression.text

end Database

end JudgePolicy
