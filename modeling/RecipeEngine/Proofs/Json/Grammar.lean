import RecipeEngine.Json.Basic
import RecipeEngine.Number.Reading

/-!
# The grammar of JSON texts

Which texts stand for which value, said as a grammar and without any reader: blanks, strings with
their escapes, numerals with what they stand for, and containers.  A text may be laid out with
blanks as one likes, so a value has many texts; a text has one value at most.

`Json.IsText` is a text of a value itself.  `Json.IsAcceptable` is a whole text: blanks may stand
around it, and at most 127 containers may lie inside one another.
-/

namespace RecipeEngine.Json

open Number

/-! ## Blanks -/

def AreBlank (t : List Char) : Prop := ∀ c ∈ t, c ∈ [' ', '\n', '\t', '\r']

/-! ## Strings -/

/-- The letters that may follow a backslash, and what they stand for there. -/
def escapes : List (Char × Char) :=
  [('"', '"'), ('\\', '\\'), ('/', '/'), ('b', '\x08'), ('f', '\x0c'), ('n', '\n'), ('r', '\r'),
   ('t', '\t')]

def smallHexDigits : List Char :=
  ['0', '1', '2', '3', '4', '5', '6', '7', '8', '9', 'a', 'b', 'c', 'd', 'e', 'f']

def capitalHexDigits : List Char :=
  ['0', '1', '2', '3', '4', '5', '6', '7', '8', '9', 'A', 'B', 'C', 'D', 'E', 'F']

def IsHexDigit (n : Nat) (c : Char) : Prop :=
  smallHexDigits[n]? = some c ∨ capitalHexDigits[n]? = some c

inductive IsHexNumber : Nat → List Char → Prop
  | intro {a b c d : Nat} {w x y z : Char} :
      IsHexDigit a w → IsHexDigit b x → IsHexDigit c y → IsHexDigit d z →
      IsHexNumber (((a * 16 + b) * 16 + c) * 16 + d) [w, x, y, z]

/-- The texts that stand for a character inside a string. -/
inductive IsCharacterText : Char → List Char → Prop
  | plain {c : Char} : c ≠ '"' → c ≠ '\\' → 0x20 ≤ c.toNat → IsCharacterText c [c]
  | escaped {letter c : Char} : (letter, c) ∈ escapes → IsCharacterText c ['\\', letter]
  | numbered {n : Nat} {ds : List Char} :
      IsHexNumber n ds → n < 0xD800 ∨ 0xDFFF < n →
      IsCharacterText (Char.ofNat n) ('\\' :: 'u' :: ds)
  /-- A character above U+FFFF as a pair of surrogates. -/
  | paired {first second : Nat} {ds es : List Char} :
      IsHexNumber first ds → 0xD800 ≤ first → first ≤ 0xDBFF →
      IsHexNumber second es → 0xDC00 ≤ second → second ≤ 0xDFFF →
      IsCharacterText (Char.ofNat (0x10000 + (first - 0xD800) * 0x400 + (second - 0xDC00)))
        ('\\' :: 'u' :: (ds ++ '\\' :: 'u' :: es))

inductive AreCharacterTexts : List Char → List Char → Prop
  | nil : AreCharacterTexts [] []
  | cons {c : Char} {cs first later : List Char} :
      IsCharacterText c first → AreCharacterTexts cs later →
      AreCharacterTexts (c :: cs) (first ++ later)

inductive IsStringText : String → List Char → Prop
  | intro {s : String} {body : List Char} :
      AreCharacterTexts s.toList body → IsStringText s ('"' :: (body ++ ['"']))

/-! ## Numbers -/

def AreDigits (ds : List Char) : Prop := ds ≠ [] ∧ ∀ c ∈ ds, c.isDigit = true

/-- The parts of a numeral. -/
structure Numeral where
  negative : Bool
  /-- The digits before the point. -/
  whole : List Char
  /-- The digits after the point, if there is one. -/
  fraction : Option (List Char)
  /-- Whether the exponent is negative, and its digits, if there is one. -/
  exponent : Option (Bool × List Char)

namespace Numeral

/-- Digits of which a zero in front is the only one. -/
def IsWhole (ds : List Char) : Prop := AreDigits ds ∧ (ds.head? = some '0' → ds = ['0'])

inductive IsFraction : Option (List Char) → List Char → Prop
  | absent : IsFraction none []
  | present {ds : List Char} : AreDigits ds → IsFraction (some ds) ('.' :: ds)

/-- The signs of an exponent. -/
inductive IsSign : Bool → List Char → Prop
  | bare : IsSign false []
  | plus : IsSign false ['+']
  | minus : IsSign true ['-']

inductive IsExponent : Option (Bool × List Char) → List Char → Prop
  | absent : IsExponent none []
  | present {letter : Char} {negative : Bool} {sign ds : List Char} :
      letter = 'e' ∨ letter = 'E' → IsSign negative sign → AreDigits ds →
      IsExponent (some (negative, ds)) (letter :: (sign ++ ds))

inductive IsText : Numeral → List Char → Prop
  | intro {n : Numeral} {fraction exponent : List Char} :
      IsWhole n.whole → IsFraction n.fraction fraction → IsExponent n.exponent exponent →
      IsText n ((if n.negative then ['-'] else []) ++ (n.whole ++ (fraction ++ exponent)))

/-! ### What a numeral stands for -/

/-- The number that all its digits before the exponent make up. -/
def coefficient (n : Numeral) : Nat := ofDigits (n.whole ++ n.fraction.getD [])

/-- The number that an exponent stands for. -/
def exponentValue (exponent : Bool × List Char) : Int :=
  if exponent.1 then -(ofDigits exponent.2 : Int) else ofDigits exponent.2

def power (n : Numeral) : Int := (n.exponent.map exponentValue).getD 0

/-- Those of the digits behind `front` up to which the number that they all make up fits
64 bits. -/
def fitting (front ds : List Char) : List Char :=
  ds.take ((List.range ds.length).countP fun k =>
    ofDigits (front ++ ds.take (k + 1)) ≤ maxSignificand)

/-- The digits before the point that are not left out. -/
def keptWhole (n : Numeral) : List Char := fitting [] n.whole

/-- The digits after the point that are not left out, which there may be although digits before
the point are. -/
def keptFraction (n : Numeral) : List Char := fitting n.keptWhole (n.fraction.getD [])

/-- The number that the digits which are not left out make up. -/
def significand (n : Numeral) : Nat := ofDigits (n.keptWhole ++ n.keptFraction)

/-- The power of ten that goes with the significand. -/
def scale (n : Numeral) : Int :=
  n.power + (n.whole.length - n.keptWhole.length : Nat) - n.keptFraction.length

/-- Whether a number other than zero has an exponent that does not fit 31 bits. -/
def IsHuge (n : Numeral) : Prop := n.coefficient ≠ 0 ∧ 0x7fffffff < n.power

instance (n : Numeral) : Decidable n.IsHuge := by
  unfold IsHuge; infer_instance

/-- The binary64 number that a numeral is rounded to, if there is one. -/
def floating? (n : Numeral) : Option JsonNumber :=
  if n.IsHuge then none
  else (Binary64.scaled? n.significand n.scale).map fun rank => .floating ⟨n.negative, rank⟩

/-- Whether a numeral is written like a whole number, a zero with a sign apart. -/
def IsInteger (n : Numeral) : Prop :=
  n.fraction = none ∧ n.exponent = none ∧ ¬ (n.negative = true ∧ n.coefficient = 0)

instance (n : Numeral) : Decidable n.IsInteger := by
  unfold IsInteger; infer_instance

/-- The number that a numeral stands for: a whole number if it is written like one and fits 64
bits, else the binary64 number that it is rounded to, if that is finite. -/
def number? (n : Numeral) : Option JsonNumber :=
  if n.IsInteger then
    match Integer.ofInt? (if n.negative then -(n.coefficient : Int) else n.coefficient) with
    | some i => some (.integer i)
    | none => n.floating?
  else n.floating?

end Numeral

/-! ## Containers -/

/-- What stands in front of a part of a container: blanks, and a comma unless it is the first. -/
inductive IsGap : Bool → List Char → Prop
  | first {blanks : List Char} : AreBlank blanks → IsGap true blanks
  | later {before after : List Char} :
      AreBlank before → AreBlank after → IsGap false (before ++ ',' :: after)

/-- The texts of a row of parts inside a container; `first` says whether no part comes before
them. -/
inductive Row {α : Type} (text : α → List Char → Prop) : Bool → List α → List Char → Prop
  | nil {first : Bool} {blanks : List Char} : AreBlank blanks → Row text first [] blanks
  | cons {first : Bool} {a : α} {as : List α} {gap inner later : List Char} :
      IsGap first gap → text a inner → Row text false as later →
      Row text first (a :: as) (gap ++ (inner ++ later))

/-- The texts of a member: its name, a colon and its value. -/
inductive IsMember (text : Json → List Char → Prop) : String × Json → List Char → Prop
  | intro {name : String} {j : Json} {first after before inner : List Char} :
      IsStringText name first → AreBlank after → AreBlank before → text j inner →
      IsMember text (name, j) (first ++ (after ++ ':' :: (before ++ inner)))

/-- The texts of a value, from its first character to its last. -/
inductive IsText : Json → List Char → Prop
  | null : IsText .null ['n', 'u', 'l', 'l']
  | yes : IsText (.boolean true) ['t', 'r', 'u', 'e']
  | no : IsText (.boolean false) ['f', 'a', 'l', 's', 'e']
  | number {numeral : Numeral} {n : JsonNumber} {t : List Char} :
      numeral.IsText t → numeral.number? = some n → IsText (.number n) t
  | string {s : String} {t : List Char} : IsStringText s t → IsText (.string s) t
  | array {items : List Json} {body : List Char} :
      Row IsText true items body → IsText (.array items) ('[' :: (body ++ [']']))
  | object {members : List (String × Json)} {body : List Char} :
      Row (IsMember IsText) true members body →
      IsText (.object members) ('\x7b' :: (body ++ ['\x7d']))

/-- The whole texts that are accepted for a value. -/
inductive IsAcceptable (j : Json) : List Char → Prop
  | intro {before inner after : List Char} :
      AreBlank before → IsText j inner → AreBlank after → j.nesting ≤ 127 →
      IsAcceptable j (before ++ (inner ++ after))

theorem IsAcceptable.nesting_le {j : Json} {t : List Char} (acceptable : IsAcceptable j t) :
    j.nesting ≤ 127 := by
  cases acceptable with
  | intro _ _ _ flat => exact flat

end RecipeEngine.Json
