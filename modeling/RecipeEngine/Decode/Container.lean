import RecipeEngine.Decode.Scalar

/-!
# Reading JSON containers

A fault in the shape of what a container holds, which as yet has no place, gets the place that is
reached when the container is then closed as far as possible.
-/

namespace RecipeEngine.Decode

open Text

/-! ## Items of an array -/

/-- Goes to the next item of an array: whether there is one, the unread text then beginning with
the item or else with the closing bracket. -/
def nextItem (first : Bool) : Reader Bool := fun cs =>
  match skipBlanks cs with
  | [] => failPeeking .arrayEnds []
  | c :: rest =>
      if c = ']' then .ok (false, c :: rest)
      else if first then .ok (true, c :: rest)
      else if c = ',' then
        match skipBlanks rest with
        | [] => failPeeking .valueEnds []
        | d :: rest =>
            if d = ']' then failPeeking .commaBeforeEnd (d :: rest) else .ok (true, d :: rest)
      else failPeeking .noCommaOrBracket (c :: rest)

def readItems {α : Type} (item : Reader α) : Nat → Bool → Reader (List α)
  | 0, _ => fun cs => failAt .arrayEnds cs
  | budget + 1, first => fun cs => do
      let (more, cs) ← nextItem first cs
      if more then
        let (a, cs) ← item cs
        let (as, cs) ← readItems item budget false cs
        .ok (a :: as, cs)
      else .ok ([], cs)

def closeArray : Reader Unit := fun cs =>
  match skipBlanks cs with
  | [] => failPeeking .arrayEnds []
  | c :: rest =>
      if c = ']' then .ok ((), rest)
      -- A comma here means that there are more items than were wanted.
      else if c = ',' then
        match skipBlanks rest with
        | [] => failPeeking .textGoesOn []
        | d :: rest =>
            if d = ']' then failPeeking .commaBeforeEnd (d :: rest)
            else failPeeking .textGoesOn (d :: rest)
      else failPeeking .textGoesOn (c :: rest)

/-- What is unread after an array was closed as far as possible. -/
def afterArray (cs : List Char) : List Char :=
  match skipBlanks cs with
  | [] => []
  | c :: rest => if c = ']' then rest else if c = ',' then skipBlanks rest else c :: rest

def Fault.placeInArray : Fault → Fault
  | .placed cause place => .placed cause place
  | .unplaced cause unread => .placed (.shapeError cause) (.before (afterArray unread))

def readArray {α : Type} (body : Reader α) : Reader α := fun cs =>
  match body (cs.drop 1) with
  | .ok (a, cs) => (closeArray cs).map fun (_, cs) => (a, cs)
  | .error fault => .error fault.placeInArray

/-! ## Members of an object -/

def nextMember (first : Bool) : Reader Bool := fun cs =>
  match skipBlanks cs with
  | [] => failPeeking .objectEnds []
  | c :: rest =>
      if c = '\x7d' then .ok (false, c :: rest)
      else if first then
        if c = '"' then .ok (true, rest) else failPeeking .nameNotString (c :: rest)
      else if c = ',' then
        match skipBlanks rest with
        | [] => failPeeking .valueEnds []
        | d :: rest =>
            if d = '"' then .ok (true, rest)
            else if d = '\x7d' then failPeeking .commaBeforeEnd (d :: rest)
            else failPeeking .nameNotString (d :: rest)
      else failPeeking .noCommaOrBrace (c :: rest)

def readColon : Reader Unit := fun cs =>
  match skipBlanks cs with
  | [] => failPeeking .objectEnds []
  | c :: rest => if c = ':' then .ok ((), rest) else failPeeking .noColon (c :: rest)

/-- Goes through the members of an object.  `member` is given what was gathered so far and a
member's name, and reads on from the end of the name. -/
def foldMembers {σ : Type} (member : σ → String → Reader σ) (budget : Nat) :
    Nat → Bool → σ → Reader σ
  | 0, _, _ => fun cs => failAt .objectEnds cs
  | rounds + 1, first, gathered => fun cs => do
      let (more, cs) ← nextMember first cs
      if more then
        let (name, cs) ← readString budget cs
        let (gathered, cs) ← member gathered name cs
        foldMembers member budget rounds false gathered cs
      else .ok (gathered, cs)

def closeObject : Reader Unit := fun cs =>
  match skipBlanks cs with
  | [] => failPeeking .objectEnds []
  | c :: rest =>
      if c = '\x7d' then .ok ((), rest)
      else if c = ',' then failPeeking .commaBeforeEnd (c :: rest)
      else failPeeking .textGoesOn (c :: rest)

def afterObject (cs : List Char) : List Char :=
  match skipBlanks cs with
  | [] => []
  | c :: rest => if c = '\x7d' then rest else c :: rest

def Fault.placeInObject : Fault → Fault
  | .placed cause place => .placed cause place
  | .unplaced cause unread => .placed (.shapeError cause) (.before (afterObject unread))

def readObject {α : Type} (body : Reader α) : Reader α := fun cs =>
  match body (cs.drop 1) with
  | .ok (a, cs) => (closeObject cs).map fun (_, cs) => (a, cs)
  | .error fault => .error fault.placeInObject

end RecipeEngine.Decode
