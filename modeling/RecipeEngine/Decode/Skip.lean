import RecipeEngine.Decode.Value

/-!
# Passing over a value

The value of a member that nobody asks for is passed over.  That is less strict than reading:
nesting is not limited, numbers may be out of range, and half of a surrogate pair may stand alone.
-/

namespace RecipeEngine.Decode

/-! ## Scalars -/

def skipEscape : Reader Unit
  | [] => failAt .stringEnds []
  | c :: rest =>
      if (shortEscape? c).isSome then .ok ((), rest)
      else if c = 'u' then (readHex rest).map fun (_, cs) => ((), cs)
      else failPeeking .badEscape (c :: rest)

def skipCharacters : Nat → Reader Unit
  | 0, cs => failAt .stringEnds cs
  | _ + 1, [] => failAt .stringEnds []
  | budget + 1, c :: rest =>
      if c = '"' then .ok ((), rest)
      else if c = '\\' then do
        let (_, rest) ← skipEscape rest
        skipCharacters budget rest
      else if c.toNat < 0x20 then failAt .controlCharacter (c :: rest)
      else skipCharacters budget rest

def skipExponent : Reader Unit := fun cs =>
  let unsigned := if cs.head? = some '+' ∨ cs.head? = some '-' then cs.drop 1 else cs
  match unsigned with
  | [] => failAt .badNumber []
  | c :: rest =>
      if c.isDigit then .ok ((), rest.dropWhile Char.isDigit)
      else failPeeking .badNumber (c :: rest)

def skipAfterWhole : Reader Unit
  | [] => .ok ((), [])
  | c :: rest =>
      if c = '.' then
        match rest with
        | [] => failPeeking .badNumber []
        | d :: _ =>
            if d.isDigit then
              match rest.dropWhile Char.isDigit with
              | [] => .ok ((), [])
              | e :: rest => if e = 'e' ∨ e = 'E' then skipExponent rest else .ok ((), e :: rest)
            else failPeeking .badNumber rest
      else if c = 'e' ∨ c = 'E' then skipExponent rest
      else .ok ((), c :: rest)

def skipUnsigned : Reader Unit
  | [] => failAt .badNumber []
  | c :: rest =>
      if c = '0' then
        match rest with
        | d :: _ => if d.isDigit then failPeeking .badNumber rest else skipAfterWhole rest
        | [] => .ok ((), [])
      else if c.isDigit then skipAfterWhole (rest.dropWhile Char.isDigit)
      else failPeeking .badNumber (c :: rest)

def skipScalar (budget : Nat) : Reader Unit
  | [] => failPeeking .valueEnds []
  | c :: rest =>
      if c = 'n' then readKeyword ['u', 'l', 'l'] rest
      else if c = 't' then readKeyword ['r', 'u', 'e'] rest
      else if c = 'f' then readKeyword ['a', 'l', 's', 'e'] rest
      else if c = '"' then skipCharacters budget rest
      else if c = '-' then skipUnsigned rest
      else if c.isDigit then skipUnsigned (c :: rest)
      else failPeeking .noValue (c :: rest)

/-! ## Containers -/

inductive Frame where
  | array
  | object
  deriving DecidableEq

namespace Frame

def closing : Frame → Char
  | .array => ']'
  | .object => '\x7d'

def endsError : Frame → SyntaxError
  | .array => .arrayEnds
  | .object => .objectEnds

def commaError : Frame → SyntaxError
  | .array => .noCommaOrBracket
  | .object => .noCommaOrBrace

end Frame

def skipName (budget : Nat) : Frame → Reader Unit
  | .array => fun cs => .ok ((), cs)
  | .object => fun cs =>
      match skipBlanks cs with
      | [] => failPeeking .objectEnds []
      | c :: rest =>
          if c = '"' then do
            let (_, cs) ← skipCharacters budget rest
            readColon cs
          else failPeeking .nameNotString (c :: rest)

/-- What comes next while values are passed over. -/
inductive Ahead where
  | value
  | opened
  | item

/-- Passes over values until no container is open any more. -/
def skipOpen (budget : Nat) : Nat → Ahead → List Frame → Reader Unit
  | 0, _, _ => fun cs => failAt .valueEnds cs
  | rounds + 1, .value, frames => fun cs =>
      match skipBlanks cs with
      | [] => failPeeking .valueEnds []
      | c :: rest =>
          if c = '[' then skipOpen budget rounds .opened (.array :: frames) rest
          else if c = '\x7b' then skipOpen budget rounds .opened (.object :: frames) rest
          else do
            let (_, cs) ← skipScalar budget (c :: rest)
            if frames.isEmpty then .ok ((), cs) else skipOpen budget rounds .item frames cs
  | _ + 1, _, [] => fun cs => .ok ((), cs)
  | rounds + 1, ahead, frame :: frames => fun cs =>
      match skipBlanks cs with
      | [] => failPeeking frame.endsError []
      | c :: rest =>
          -- A container that closes is an item of the one around it.
          if c = frame.closing then
            if frames.isEmpty then .ok ((), rest) else skipOpen budget rounds .item frames rest
          else
            match ahead with
            | .item =>
                if c = ',' then do
                  let (_, cs) ← skipName budget frame rest
                  skipOpen budget rounds .value (frame :: frames) cs
                else failPeeking frame.commaError (c :: rest)
            | _ => do
                let (_, cs) ← skipName budget frame (c :: rest)
                skipOpen budget rounds .value (frame :: frames) cs

def skipValue (budget : Nat) : Reader Unit := skipOpen budget budget .value []

end RecipeEngine.Decode
