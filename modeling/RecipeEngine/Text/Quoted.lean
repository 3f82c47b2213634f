import RecipeEngine.Text.Hidden

/-!
# Quoted text

The form in which messages quote a text: between double quotes, with short escapes for the
common control characters, and hidden characters by number.
-/

namespace RecipeEngine.Text

def hexDigits (n : Nat) : List Char := Nat.toDigits 16 n

def quotedChar (c : Char) : List Char :=
  if c = '\x00' then ['\\', '0']
  else if c = '\t' then ['\\', 't']
  else if c = '\n' then ['\\', 'n']
  else if c = '\r' then ['\\', 'r']
  else if c = '"' then ['\\', '"']
  else if c = '\\' then ['\\', '\\']
  else if isHidden c then ['\\', 'u', '\x7b'] ++ hexDigits c.toNat ++ ['\x7d']
  else [c]

def quoted (s : String) : String :=
  String.ofList ('"' :: s.toList.flatMap quotedChar ++ ['"'])

def quotedList (texts : List String) : String :=
  "[" ++ ", ".intercalate (texts.map quoted) ++ "]"

/-- A quote and a bell are escaped, an apostrophe is not. -/
example : quoted "it's \"\x07\"" = "\"it's \\\"\\u\x7b7\x7d\\\"\"" := by decide +kernel

example : quotedList ["a", "b"] = "[\"a\", \"b\"]" := by decide +kernel

end RecipeEngine.Text
