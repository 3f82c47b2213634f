import RecipeEngine.Text.Octets

/-!
# Base64

The standard alphabet with padding, which must fill the last group; the bits that the last symbol
does not need must be zero.
-/

namespace RecipeEngine.Base64

/-! ## Symbols -/

def padding : UInt8 := 0x3D

def symbol (n : Nat) : UInt8 :=
  if n < 26 then UInt8.ofNat (0x41 + n)
  else if n < 52 then UInt8.ofNat (0x61 + (n - 26))
  else if n < 62 then UInt8.ofNat (0x30 + (n - 52))
  else if n = 62 then 0x2B
  else 0x2F

def value? (octet : UInt8) : Option Nat :=
  let n := octet.toNat
  if 0x41 ≤ n ∧ n ≤ 0x5A then some (n - 0x41)
  else if 0x61 ≤ n ∧ n ≤ 0x7A then some (n - 0x61 + 26)
  else if 0x30 ≤ n ∧ n ≤ 0x39 then some (n - 0x30 + 52)
  else if n = 0x2B then some 62
  else if n = 0x2F then some 63
  else none

/-! ## Encoding -/

def encode : List UInt8 → List UInt8
  | [] => []
  | [a] => [symbol (a.toNat / 4), symbol (a.toNat % 4 * 16), padding, padding]
  | [a, b] =>
      [symbol (a.toNat / 4), symbol (a.toNat % 4 * 16 + b.toNat / 16),
       symbol (b.toNat % 16 * 4), padding]
  | a :: b :: c :: rest =>
      symbol (a.toNat / 4) :: symbol (a.toNat % 4 * 16 + b.toNat / 16) ::
        symbol (b.toNat % 16 * 4 + c.toNat / 64) :: symbol (c.toNat % 64) :: encode rest

/-! ## Decoding -/

inductive Error where
  /-- The octet at an offset cannot stand there. -/
  | badSymbol (octet : UInt8) (offset : Nat)
  /-- The last symbol has bits that belong to no octet. -/
  | badLastSymbol (octet : UInt8) (offset : Nat)
  /-- The text ends after a single symbol of a group. -/
  | badLength (length : Nat)
  /-- The last group is not filled. -/
  | badPadding
  deriving DecidableEq

def Error.message : Error → String
  | .badSymbol octet offset =>
      "Invalid symbol " ++ toString octet.toNat ++ ", offset " ++ toString offset ++ "."
  | .badLastSymbol octet offset =>
      "Invalid last symbol " ++ toString octet.toNat ++ ", offset " ++ toString offset ++ "."
  | .badLength length => "Invalid input length: " ++ toString length
  | .badPadding => "Invalid padding"

def valueAt (offset : Nat) (octet : UInt8) : Except Error Nat :=
  match value? octet with
  | some n => .ok n
  | none => .error (.badSymbol octet offset)

def octetsOf (a b c d : Nat) : List UInt8 :=
  [UInt8.ofNat (a * 4 + b / 16), UInt8.ofNat (b % 16 * 16 + c / 4), UInt8.ofNat (c % 4 * 64 + d)]

def decodeGroup (offset : Nat) (a b c d : UInt8) : Except Error (List UInt8) := do
  let a ← valueAt offset a
  let b ← valueAt (offset + 1) b
  let c ← valueAt (offset + 2) c
  let d ← valueAt (offset + 3) d
  .ok (octetsOf a b c d)

/-- What the last group holds: the numbers of its symbols, and how many padding symbols follow. -/
structure LastGroup where
  numbers : List Nat
  paddings : Nat

/-- Reads on in the last group, `place` octets of which have been read, the last `paddings` of
them padding.  Padding may begin only with the third symbol, and nothing may follow it. -/
def readLastGroup (offset : Nat) (place paddings : Nat) : List UInt8 → Except Error LastGroup
  | [] => .ok ⟨[], paddings⟩
  | octet :: rest =>
      if octet = padding then
        if place < 2 then .error (.badSymbol octet (offset + place))
        else readLastGroup offset (place + 1) (paddings + 1) rest
      -- The first padding symbol is at fault, not the symbol that follows it.
      else if 0 < paddings then .error (.badSymbol padding (offset + (place - paddings)))
      else do
        let n ← valueAt (offset + place) octet
        let group ← readLastGroup offset (place + 1) 0 rest
        .ok ⟨n :: group.numbers, group.paddings⟩

def LastGroup.octets (offset : Nat) (group : LastGroup) : Except Error (List UInt8) :=
  let filled := group.numbers.length + group.paddings = 4
  match group.numbers with
  | [] => .error (.badLength offset)
  | [_] => .error (.badLength (offset + 1))
  | [a, b] =>
      if ¬ filled then .error .badPadding
      else if b % 16 ≠ 0 then .error (.badLastSymbol (symbol b) (offset + 1))
      else .ok [UInt8.ofNat (a * 4 + b / 16)]
  | [a, b, c] =>
      if ¬ filled then .error .badPadding
      else if c % 4 ≠ 0 then .error (.badLastSymbol (symbol c) (offset + 2))
      else .ok [UInt8.ofNat (a * 4 + b / 16), UInt8.ofNat (b % 16 * 16 + c / 4)]
  | a :: b :: c :: d :: _ => if ¬ filled then .error .badPadding else .ok (octetsOf a b c d)

def decodeLastGroup (offset : Nat) (symbols : List UInt8) : Except Error (List UInt8) := do
  let group ← readLastGroup offset 0 0 symbols
  group.octets offset

def decodeFrom (offset : Nat) : List UInt8 → Except Error (List UInt8)
  | [] => .ok []
  | a :: b :: c :: d :: e :: rest => do
      let front ← decodeGroup offset a b c d
      let back ← decodeFrom (offset + 4) (e :: rest)
      .ok (front ++ back)
  | symbols => decodeLastGroup offset symbols

/-- Decodes a Base64 text.  A last octet that stands alone in its group and is no symbol at all is
noticed before the rest of the text is looked at. -/
def decode (text : List UInt8) : Except Error (List UInt8) :=
  match text.getLast? with
  | some last =>
      if text.length % 4 = 1 ∧ last ≠ padding ∧ (value? last).isNone then
        .error (.badSymbol last (text.length - 1))
      else decodeFrom 0 text
  | none => .ok []

example : (decode (encode [0x00, 0xFF, 0x10, 0x83])).toOption = some [0x00, 0xFF, 0x10, 0x83] := by
  decide

end RecipeEngine.Base64
