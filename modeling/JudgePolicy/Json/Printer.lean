/-
The written form of a JSON value: compact, with members in their order.
-/
import JudgePolicy.Json.Quoted
namespace JudgePolicy

namespace Json

/-- A string in quotes; one that is no text is written as an empty one. -/
def renderText (s : Option String) : List Char := quote (s.getD "").toList

mutual

def render : Json → List Char
  | null => ['n', 'u', 'l', 'l']
  | bool true => ['t', 'r', 'u', 'e']
  | bool false => ['f', 'a', 'l', 's', 'e']
  | number n => n.render
  | text s => renderText s
  | array [] => ['[', ']']
  | array (e :: rest) => '[' :: render e ++ renderElements rest
  | object [] => ['{', '}']
  | object ((k, v) :: rest) => '{' :: renderText k ++ ':' :: render v ++ renderMembers rest

/-- The elements after the first, and the closing bracket. -/
def renderElements : List Json → List Char
  | [] => [']']
  | e :: rest => ',' :: render e ++ renderElements rest

/-- The members after the first, and the closing brace. -/
def renderMembers : List (Option String × Json) → List Char
  | [] => ['}']
  | (k, v) :: rest => ',' :: renderText k ++ ':' :: render v ++ renderMembers rest

end

def toText (j : Json) : String := String.ofList j.render

end Json

end JudgePolicy
