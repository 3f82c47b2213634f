import RecipeEngine.Decode.Error
import RecipeEngine.Number.Reading

/-!
# Reading JSON scalars

Loops over a text that is not consumed character by character run on a *budget*, a number of
rounds that the length of the whole text always suffices for.
-/

namespace RecipeEngine.Decode

open Text Number

/-! ## Blanks and keywords -/

def isJsonBlank (c : Char) : Bool := c == ' ' || c == '\n' || c == '\t' || c == '\r'

def skipBlanks (cs : List Char) : List Char := cs.dropWhile isJsonBlank

def readKeyword : List Char → Reader Unit
  | [], cs => .ok ((), cs)
  | _ :: _, [] => failAt .valueEnds []
  | w :: ws, c :: cs => if c = w then readKeyword ws cs else failPeeking .noKeyword (c :: cs)

/-! ## Strings -/

def hexValue? (c : Char) : Option Nat :=
  let n := c.toNat
  if 0x30 ≤ n ∧ n ≤ 0x39 then some (n - 0x30)
  else if 0x41 ≤ n ∧ n ≤ 0x46 then some (n - 0x41 + 10)
  else if 0x61 ≤ n ∧ n ≤ 0x66 then some (n - 0x61 + 10)
  else none

def hexNumber? (a b c d : Char) : Option Nat := do
  let a ← hexValue? a
  let b ← hexValue? b
  let c ← hexValue? c
  let d ← hexValue? d
  return ((a * 16 + b) * 16 + c) * 16 + d

/-- The fault where four hexadecimal digits are wanted: the text has fewer than four octets left,
or its next four octets are not such digits. -/
def failHex {α : Type} (cs : List Char) : Except Fault α :=
  if (octets (cs.take 4)).length < 4 then failAt .stringEnds []
  else .error (.placed (.syntaxError .badEscape) ⟨cs, 4⟩)

def readHex : Reader Nat
  | a :: b :: c :: d :: rest =>
      match hexNumber? a b c d with
      | some n => .ok (n, rest)
      | none => failHex (a :: b :: c :: d :: rest)
  | cs => failHex cs

def isFirstHalf (n : Nat) : Bool := 0xD800 ≤ n && n ≤ 0xDBFF

def isSecondHalf (n : Nat) : Bool := 0xDC00 ≤ n && n ≤ 0xDFFF

def ofHalves (first second : Nat) : Char :=
  Char.ofNat (0x10000 + (first - 0xD800) * 0x400 + (second - 0xDC00))

def readPairMark (wanted : Char) : Reader Unit
  | [] => failAt .stringEnds []
  | c :: rest => if c = wanted then .ok ((), rest) else failPeeking .escapeEnds (c :: rest)

def readNumbered : Reader Char := fun cs => do
  let (n, cs) ← readHex cs
  -- The second half of a pair may not come first, and the first half may not stay alone.
  if isSecondHalf n then failAt .loneSurrogate cs
  else if isFirstHalf n then
    let (_, cs) ← readPairMark '\\' cs
    let (_, cs) ← readPairMark 'u' cs
    let (m, cs) ← readHex cs
    if isSecondHalf m then .ok (ofHalves n m, cs) else failAt .loneSurrogate cs
  else .ok (Char.ofNat n, cs)

def shortEscape? (c : Char) : Option Char :=
  if c = '"' then some '"'
  else if c = '\\' then some '\\'
  else if c = '/' then some '/'
  else if c = 'b' then some '\x08'
  else if c = 'f' then some '\x0c'
  else if c = 'n' then some '\n'
  else if c = 'r' then some '\r'
  else if c = 't' then some '\t'
  else none

def readEscape : Reader Char
  | [] => failAt .stringEnds []
  | c :: rest =>
      match shortEscape? c with
      | some d => .ok (d, rest)
      | none => if c = 'u' then readNumbered rest else failPeeking .badEscape (c :: rest)

/-- Reads a string up to its closing quote, the opening quote having been read. -/
def readCharacters : Nat → Reader (List Char)
  | 0, cs => failAt .stringEnds cs
  | _ + 1, [] => failAt .stringEnds []
  | budget + 1, c :: rest =>
      if c = '"' then .ok ([], rest)
      else if c = '\\' then do
        let (d, rest) ← readEscape rest
        let (ds, rest) ← readCharacters budget rest
        .ok (d :: ds, rest)
      else if c.toNat < 0x20 then failPeeking .controlCharacter (c :: rest)
      else do
        let (ds, rest) ← readCharacters budget rest
        .ok (c :: ds, rest)

def readString (budget : Nat) : Reader String := fun cs => do
  let (s, cs) ← readCharacters budget cs
  .ok (String.ofList s, cs)

/-! ## Numbers -/

/-- Reads the whole part of a number: a zero alone, or digits that do not begin with zero. -/
def readWhole : Reader (List Char)
  | [] => failAt .valueEnds []
  | c :: rest =>
      if c = '0' then
        match rest with
        | d :: _ => if d.isDigit then failPeeking .badNumber rest else .ok ([c], rest)
        | [] => .ok ([c], rest)
      else if c.isDigit then .ok (c :: rest.takeWhile Char.isDigit, rest.dropWhile Char.isDigit)
      else failPeeking .badNumber (c :: rest)

def readFraction : Reader (Option (List Char))
  | [] => .ok (none, [])
  | c :: rest =>
      if c = '.' then
        match rest with
        | [] => failPeeking .valueEnds []
        | d :: _ =>
            if d.isDigit then
              .ok (some (rest.takeWhile Char.isDigit), rest.dropWhile Char.isDigit)
            else failPeeking .badNumber rest
      else .ok (none, c :: rest)

/-- The greatest exponent that a number other than zero may be written with. -/
def exponentLimit : Nat := 0x7fffffff

/-- Reads the digits of an exponent after those that stand for `n`.  A limited exponent is refused
at its first digit beyond the limit. -/
def readExponentDigits (limited : Bool) : Nat → Reader Nat
  | n, [] => .ok (n, [])
  | n, c :: rest =>
      if c.isDigit then
        let m := 10 * n + (c.toNat - 48)
        -- The digits that follow are not looked at any more.
        if limited ∧ exponentLimit < m then failAt .numberTooLarge rest
        else readExponentDigits limited m rest
      else .ok (n, c :: rest)

def readUnsignedExponent (limited : Bool) : Reader Nat
  | [] => failAt .valueEnds []
  | c :: rest =>
      if c.isDigit then readExponentDigits limited 0 (c :: rest)
      else failPeeking .badNumber (c :: rest)

/-- Reads the exponent of a number, if there is one.  Only a positive exponent of a number other
than zero is limited. -/
def readExponent (isZero : Bool) : Reader (Option Int)
  | [] => .ok (none, [])
  | c :: rest =>
      if c = 'e' ∨ c = 'E' then
        let negative := rest.head? == some '-'
        let unsigned := if negative ∨ rest.head? = some '+' then rest.drop 1 else rest
        (readUnsignedExponent (!negative && !isZero) unsigned).map fun (n, rest) =>
          (some (if negative then -(n : Int) else n), rest)
      else .ok (none, c :: rest)

def floating (negative : Bool) (significand : Nat) (exponent : Int) : Reader JsonNumber :=
  fun rest =>
    match Binary64.scaled? significand exponent with
    | some rank => .ok (.floating ⟨negative, rank⟩, rest)
    | none => failAt .numberTooLarge rest

/-- The number that digits without point and exponent stand for: a whole number where it fits and
is not a zero with a sign. -/
def wholeNumber (negative : Bool) (n : Nat) : Reader JsonNumber := fun rest =>
  if negative ∧ n = 0 then .ok (.floating Binary64.negativeZero, rest)
  else
    match Integer.ofInt? (if negative then -(n : Int) else n) with
    | some i => .ok (.integer i, rest)
    | none => floating negative n 0 rest

def readUnsigned (negative : Bool) : Reader JsonNumber := fun cs => do
  let (whole, cs) ← readWhole cs
  let (fraction, cs) ← readFraction cs
  let (n, dropped) := gatherDigits 0 whole
  -- Digits after the point may still fit where one before it did not.
  let (significand, unread) := gatherDigits n (fraction.getD [])
  let (exponent, cs) ← readExponent (significand == 0) cs
  match fraction, exponent, dropped with
  | none, none, [] => wholeNumber negative significand cs
  | _, _, _ =>
      let places := (fraction.getD []).length - unread.length
      floating negative significand (exponent.getD 0 + dropped.length - places) cs

def readNumber : Reader JsonNumber
  | [] => failAt .valueEnds []
  | c :: rest => if c = '-' then readUnsigned true rest else readUnsigned false (c :: rest)

/-! ## Scalars -/

def readScalar (budget : Nat) : Reader Json
  | [] => failPeeking .valueEnds []
  | c :: rest =>
      if c = 'n' then (readKeyword ['u', 'l', 'l'] rest).map fun (_, cs) => (.null, cs)
      else if c = 't' then
        (readKeyword ['r', 'u', 'e'] rest).map fun (_, cs) => (.boolean true, cs)
      else if c = 'f' then
        (readKeyword ['a', 'l', 's', 'e'] rest).map fun (_, cs) => (.boolean false, cs)
      else if c = '"' then (readString budget rest).map fun (s, cs) => (.string s, cs)
      else if c = '-' ∨ c.isDigit then
        (readNumber (c :: rest)).map fun (n, cs) => (.number n, cs)
      else failPeeking .noValue (c :: rest)

end RecipeEngine.Decode
