import RecipeEngine.Text.Octets

/-!
# Places in a text

A reader that has consumed part of a text knows only what is still unread, and names places from
there.  They become lines and columns once the whole text is known.
-/

namespace RecipeEngine.Text

/-- A place in a text: so many octets into what is still unread. -/
structure Place where
  unread : List Char
  ahead : Nat
  deriving DecidableEq

/-- A line, counted from 1, and the number of octets of that line before the place. -/
structure Position where
  line : Nat
  column : Nat
  deriving DecidableEq

namespace Place

def before (unread : List Char) : Place := ⟨unread, 0⟩

/-- The place after the first octet of the unread part, or its start when nothing is left. -/
def peeked (unread : List Char) : Place := ⟨unread, if unread.isEmpty then 0 else 1⟩

def position (whole : List Char) (place : Place) : Position :=
  let all := octets whole
  let passed := all.take (all.length - (octets place.unread).length + place.ahead)
  let newline := 0x0A
  { line := passed.count newline + 1
    column := (passed.reverse.takeWhile (· != newline)).length }

end Place

def Position.phrase (p : Position) : String :=
  "line " ++ toString p.line ++ " column " ++ toString p.column

example :
    (Place.peeked ['x', 'y']).position ['a', '\n', 'é', 'x', 'y'] = ⟨2, 3⟩ := by decide +kernel

end RecipeEngine.Text
