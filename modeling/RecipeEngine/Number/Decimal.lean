import RecipeEngine.Number.Binary64

/-!
# Decimal numerals and the numbers nearest to them

Decimals far outside the range are settled by their first digit's place alone, so an absurd
exponent costs nothing.
-/

namespace RecipeEngine.Number

/-- The decimal digits of a number, without leading zeros; zero has the digit 0. -/
def digits (n : Nat) : List Char := Nat.toDigits 10 n

def ofDigits (ds : List Char) : Nat :=
  ds.foldl (fun n d => 10 * n + (d.toNat - 48)) 0

structure Decimal where
  coefficient : Nat
  exponent : Int
  deriving DecidableEq

namespace Decimal

/-- The quotient that a decimal stands for, in units of `2 ^ -1074`. -/
def unitRatio (d : Decimal) : Nat × Nat :=
  if d.exponent < 0 then (d.coefficient * Binary64.one, Nat.pow 10 d.exponent.natAbs)
  else (d.coefficient * Nat.pow 10 d.exponent.natAbs * Binary64.one, 1)

def order (d : Decimal) : Int := (digits d.coefficient).length - 1 + d.exponent

/-- The finite magnitude nearest to a decimal, if there is one.  From `10 ^ 309` on there is none,
and below `10 ^ -325` it is zero. -/
def nearest? (d : Decimal) : Option (Fin finiteRanks) :=
  if d.coefficient = 0 then some Binary64.zero.rank
  else if 309 ≤ d.order then none
  else if d.order < -325 then some Binary64.zero.rank
  else Binary64.nearest? d.unitRatio.1 d.unitRatio.2

example : (nearest? ⟨5, -324⟩).map Fin.val = some 1 := by decide +kernel

example : (nearest? ⟨1, 400000000000⟩).map Fin.val = none := by decide +kernel

end Decimal

end RecipeEngine.Number
