import RecipeEngine.Message.Host
import RecipeEngine.Text.Octets

/-!
# Input lines

An unfinished last line counts, and blank lines are passed over.  The first line that is not UTF-8
ends the input.
-/

namespace RecipeEngine.Input

open Text

def newline : UInt8 := 0x0A

/-- Cuts octets into lines, `line` being the octets of the current line, the last one first. -/
def splitFrom (line : List UInt8) : List UInt8 → List (List UInt8)
  -- An empty row after the last newline is no line.
  | [] => if line.isEmpty then [] else [line.reverse]
  | octet :: rest =>
      if octet = newline then line.reverse :: splitFrom [] rest
      else splitFrom (octet :: line) rest

def split (bytes : List UInt8) : List (List UInt8) := splitFrom [] bytes

inductive Line where
  | text (line : String)
  | blank
  | broken
  deriving DecidableEq

def Line.ofOctets (bytes : List UInt8) : Line :=
  match ofOctets? bytes with
  | none => .broken
  | some cs =>
      match trim cs with
      | [] => .blank
      | c :: rest => .text (String.ofList (c :: rest))

/-- The texts of the lines before the first broken one. -/
def texts : List Line → List String
  | [] => []
  | .text line :: rest => line :: texts rest
  | .blank :: rest => texts rest
  | .broken :: _ => []

def messages (bytes : List UInt8) : List HostMessage :=
  (texts ((split bytes).map Line.ofOctets)).map HostMessage.ofLine

end RecipeEngine.Input
