/-!
# Text as octets

A broken spot in octets is one that cannot begin a character, or the longest acceptable start of a
character that is then not continued.
-/

namespace RecipeEngine.Text

def octets (cs : List Char) : List UInt8 := cs.flatMap String.utf8EncodeChar

structure Pending where
  /-- How many octets follow the next one. -/
  later : Nat
  low : Nat
  high : Nat
  code : Nat

/-- What an octet says at the start of a character: a whole character, the start of a longer one,
or nothing acceptable.  The ranges leave out overlong forms, surrogates and code points above
U+10FFFF. -/
def lead (octet : UInt8) : List (Option Char) × Option Pending :=
  let n := octet.toNat
  if n < 0x80 then ([some (Char.ofNat n)], none)
  -- Octets below 0xC0 only continue a character; 0xC0 and 0xC1 would begin an overlong one.
  else if n < 0xC2 then ([none], none)
  else if n < 0xE0 then ([], some ⟨0, 0x80, 0xBF, n - 0xC0⟩)
  else if n = 0xE0 then ([], some ⟨1, 0xA0, 0xBF, 0⟩)
  else if n = 0xED then ([], some ⟨1, 0x80, 0x9F, 0xD⟩)
  else if n < 0xF0 then ([], some ⟨1, 0x80, 0xBF, n - 0xE0⟩)
  else if n = 0xF0 then ([], some ⟨2, 0x90, 0xBF, 0⟩)
  else if n < 0xF4 then ([], some ⟨2, 0x80, 0xBF, n - 0xF0⟩)
  else if n = 0xF4 then ([], some ⟨2, 0x80, 0x8F, 4⟩)
  else ([none], none)

/-- Reads octets, `pending` being the character begun before them.  A broken spot is `none`. -/
def decodeFrom : Option Pending → List UInt8 → List (Option Char)
  | none, [] => []
  | some _, [] => [none]
  | none, octet :: rest =>
      let (read, pending) := lead octet
      read ++ decodeFrom pending rest
  | some p, octet :: rest =>
      let n := octet.toNat
      if p.low ≤ n ∧ n ≤ p.high then
        let code := p.code * 64 + n % 64
        match p.later with
        | 0 => some (Char.ofNat code) :: decodeFrom none rest
        | later + 1 => decodeFrom (some ⟨later, 0x80, 0xBF, code⟩) rest
      else
        -- The broken spot ends before this octet, which may begin a character itself.
        let (read, pending) := lead octet
        none :: (read ++ decodeFrom pending rest)

def decode (bytes : List UInt8) : List (Option Char) := decodeFrom none bytes

def ofOctets? (bytes : List UInt8) : Option (List Char) := (decode bytes).mapM id

/-- The text of the octets, with U+FFFD at each broken spot. -/
def ofOctetsLenient (bytes : List UInt8) : List Char :=
  (decode bytes).map (·.getD '\uFFFD')

/-- An octet that begins nothing and a cut character are one broken spot each. -/
example : ofOctetsLenient [0x61, 0xFF, 0xE2, 0x82, 0x62] = ['a', '\uFFFD', '\uFFFD', 'b'] := by
  decide

/-- A surrogate has no UTF-8 form: each of its octets is a broken spot. -/
example : ofOctetsLenient [0xED, 0xA0, 0x80] = ['\uFFFD', '\uFFFD', '\uFFFD'] := by decide

end RecipeEngine.Text
