import RecipeEngine.Number.Decimal

/-!
# The shortest numeral of a number

The numeral of a number is the one with the fewest digits to which the number is the nearest one.
For one digit, two digits and so on, up to seventeen, the two multiples of the right power of ten
next to the exact value are tried.
-/

namespace RecipeEngine.Number

/-- How many units of `10 ^ -1074` make one of `2 ^ -1074`. -/
def fives : Nat := Nat.pow 5 1074

/-- The exact magnitude of rank `r`, as a whole number of units of `10 ^ -1074`. -/
def exactUnits (r : Nat) : Nat := Binary64.unitsOf r * fives

def gridDecimal (count place : Nat) : Decimal := ⟨count, (place : Int) - 1074⟩

def isNearest (r : Nat) (d : Decimal) : Bool := d.nearest?.map Fin.val == some r

def choose? (low high : Decimal) (takeLow : Bool) : Bool → Bool → Option Decimal
  | true, true => some (if takeLow then low else high)
  | true, false => some low
  | false, true => some high
  | false, false => none

/-- Of the two decimals on the grid of `10 ^ (place - 1074)` next to the exact value of rank `r`,
the nearer one to which `r` is the nearest. -/
def nearestOnGrid? (r place : Nat) : Option Decimal :=
  let exact := exactUnits r
  let grid := Nat.pow 10 place
  let below := exact / grid
  let low := gridDecimal below place
  let high := gridDecimal (below + 1) place
  -- Twice the distance from below, to be compared with the width of the grid.
  let distance := 2 * (exact % grid)
  let preferLow := distance < grid || (distance == grid && below % 2 == 0)
  choose? low high preferLow (isNearest r low) (isNearest r high)

/-- The shortest decimal to which rank `r` is the nearest.  The exact value stands in where no grid
has such a decimal, which seventeen digits rule out. -/
def shortestDecimal (r : Nat) : Decimal :=
  let exact := exactUnits r
  let length := (digits exact).length
  ((List.range 17).findSome? fun k => nearestOnGrid? r (length - (k + 1))).getD
    (gridDecimal exact 0)

/-- The digits of a decimal without zeros at the end, and the exponent of the first of them. -/
def significantDigits (d : Decimal) : List Char × Int :=
  let written := digits d.coefficient
  let kept := (written.reverse.dropWhile (· == '0')).reverse
  (kept, d.order)

/-! ## Layout -/

/-- The numeral with the given significant digits, the first of them standing for
`10 ^ exponent`.  From `10 ^ -5` up to but not including `10 ^ 16` it is written out, with at
least one digit after the point; elsewhere with an exponent that always has its sign. -/
def layout (ds : List Char) (exponent : Int) : List Char :=
  if -5 ≤ exponent ∧ exponent ≤ 15 then
    if exponent < 0 then
      ['0', '.'] ++ List.replicate (exponent.natAbs - 1) '0' ++ ds
    else
      let whole := exponent.natAbs + 1
      let front := ds.take whole
      let back := ds.drop whole
      front ++ List.replicate (whole - front.length) '0' ++ ['.'] ++
        (if back.isEmpty then ['0'] else back)
  else
    let fraction := ds.drop 1
    ds.take 1 ++ (if fraction.isEmpty then [] else '.' :: fraction) ++
      ['e', if exponent < 0 then '-' else '+'] ++ digits exponent.natAbs

def Binary64.numeral (x : Binary64) : List Char :=
  let unsigned :=
    if x.rank.val = 0 then ['0', '.', '0']
    else
      let (ds, exponent) := significantDigits (shortestDecimal x.rank)
      layout ds exponent
  if x.negative then '-' :: unsigned else unsigned

example : (⟨false, ⟨1, by decide⟩⟩ : Binary64).numeral = ['5', 'e', '-', '3', '2', '4'] := by
  decide +kernel

example : Binary64.negativeZero.numeral = ['-', '0', '.', '0'] := by decide

end RecipeEngine.Number
