import RecipeEngine.Decode.Container

/-!
# Reading JSON values and whole texts
-/

namespace RecipeEngine.Decode

open Text

/-! ## Values -/

/-- Reads a value by its kind: an array, an object, or a scalar that is then looked at.  A fault
in the shape of a scalar is placed right after it. -/
def readByKind {α : Type} (budget : Nat) (array object : Reader α)
    (scalar : Json → Except ShapeError α) : Reader α := fun cs =>
  match skipBlanks cs with
  | [] => failPeeking .valueEnds []
  | c :: rest =>
      if c = '[' then array (c :: rest)
      else if c = '\x7b' then object (c :: rest)
      else do
        let (j, cs) ← readScalar budget (c :: rest)
        match scalar j with
        | .ok a => .ok (a, cs)
        | .error e => failShape e cs

/-- Reads the value of a member and adds the member to those gathered, the last one first. -/
def gatherMember (value : Reader Json) (gathered : List (String × Json)) (name : String) :
    Reader (List (String × Json)) := fun cs => do
  let (_, cs) ← readColon cs
  let (j, cs) ← value cs
  .ok ((name, j) :: gathered, cs)

/-- Reads a value that holds at most `levels` containers inside one another.  Members stay in
written order, repeated names included. -/
def readValue (budget : Nat) : Nat → Reader Json
  | 0 =>
      readByKind budget (failPeeking .nestedTooDeep) (failPeeking .nestedTooDeep) .ok
  | levels + 1 =>
      readByKind budget
        (readArray fun cs => do
          let (items, cs) ← readItems (readValue budget levels) budget true cs
          .ok (.array items, cs))
        (readObject fun cs => do
          let (members, cs) ←
            foldMembers (gatherMember (readValue budget levels)) budget budget true [] cs
          .ok (.object members.reverse, cs))
        .ok

/-- Reads a scalar, or stands still before a container and gives it as an empty one.  Who wants a
scalar refuses a container by its kind alone, and so before its contents are read. -/
def readShallow (budget : Nat) : Reader Json :=
  readByKind budget (fun cs => .ok (.array [], cs)) (fun cs => .ok (.object [], cs)) .ok

/-! ## Whole texts -/

structure Failure where
  cause : Cause
  position : Option Position
  deriving DecidableEq

namespace Failure

def ofFault (whole : List Char) : Fault → Failure
  | .placed cause place => ⟨cause, some (place.position whole)⟩
  | .unplaced cause _ => ⟨.shapeError cause, none⟩

def ofShape (e : ShapeError) : Failure := ⟨.shapeError e, none⟩

def message (f : Failure) : String :=
  match f.position with
  | some p => f.cause.message ++ " at " ++ p.phrase
  | none => f.cause.message

end Failure

def maxNesting : Nat := 127

/-- The number of rounds that every loop over a text gets by with. -/
def budgetFor (cs : List Char) : Nat := 2 * cs.length + 2

def readWholeText {α : Type} (reader : Nat → Reader α) (cs : List Char) : Except Fault α := do
  let (a, rest) ← reader (budgetFor cs) cs
  match skipBlanks rest with
  | [] => .ok a
  | c :: rest => failPeeking .textGoesOn (c :: rest)

def fromText {α : Type} (reader : Nat → Reader α) (text : String) : Except Failure α :=
  (readWholeText reader text.toList).mapError (Failure.ofFault text.toList)

def valueOfText (text : String) : Except Failure Json :=
  fromText (fun budget => readValue budget maxNesting) text

end RecipeEngine.Decode
