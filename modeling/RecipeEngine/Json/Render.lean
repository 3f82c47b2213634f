import RecipeEngine.Json.Basic
import RecipeEngine.Number.Shortest

/-!
# The compact text of a JSON value
-/

namespace RecipeEngine

open Number

def hexDigit (n : Nat) : Char := Nat.digitChar n

def escaped (c : Char) : List Char :=
  if c = '"' then ['\\', '"']
  else if c = '\\' then ['\\', '\\']
  else if c = '\x08' then ['\\', 'b']
  else if c = '\x0c' then ['\\', 'f']
  else if c = '\n' then ['\\', 'n']
  else if c = '\r' then ['\\', 'r']
  else if c = '\t' then ['\\', 't']
  else if c.toNat < 0x20 then
    ['\\', 'u', '0', '0', hexDigit (c.toNat / 16), hexDigit (c.toNat % 16)]
  else [c]

def renderString (s : String) : List Char := '"' :: s.toList.flatMap escaped ++ ['"']

def renderInt (n : Int) : List Char :=
  if n < 0 then '-' :: digits n.natAbs else digits n.natAbs

def JsonNumber.render : JsonNumber → List Char
  | .integer n => renderInt n.value
  | .floating x => x.numeral

namespace Json

mutual

def render : Json → List Char
  | .null => ['n', 'u', 'l', 'l']
  | .boolean true => ['t', 'r', 'u', 'e']
  | .boolean false => ['f', 'a', 'l', 's', 'e']
  | .number n => n.render
  | .string s => renderString s
  | .array [] => ['[', ']']
  | .array (j :: rest) => '[' :: (render j ++ renderItems rest)
  | .object [] => ['\x7b', '\x7d']
  | .object ((name, j) :: rest) =>
      '\x7b' :: (renderString name ++ ':' :: (render j ++ renderMembers rest))

/-- The items after the first and the closing bracket. -/
def renderItems : List Json → List Char
  | [] => [']']
  | j :: rest => ',' :: (render j ++ renderItems rest)

def renderMembers : List (String × Json) → List Char
  | [] => ['\x7d']
  | (name, j) :: rest =>
      ',' :: (renderString name ++ ':' :: (render j ++ renderMembers rest))

end

def compact (j : Json) : String := String.ofList j.render

example : (Json.array [.null, .string "a\"\x01"]).compact = "[null,\"a\\\"\\u0001\"]" := by
  decide +kernel

end Json

end RecipeEngine
