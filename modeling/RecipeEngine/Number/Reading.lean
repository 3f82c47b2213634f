import RecipeEngine.Number.Decimal

/-!
# Numerals that are rounded

The digits of a numeral are not rounded as a whole.  As many of them are kept as fit 64 bits; the
number that they make up and a power of ten are rounded, and so is the product or quotient of the
two.  What comes out need not be the number nearest to the numeral.

Magnitudes are given by their ranks here, which go on above the finite ones.
-/

namespace RecipeEngine.Number

def maxSignificand : Nat := 0xffffffffffffffff

/-- Goes on with digits after those that stand for `n`, as long as the number fits 64 bits.  The
digits that are left over are given with it. -/
def gatherDigits : Nat → List Char → Nat × List Char
  | n, [] => (n, [])
  | n, d :: ds =>
      let m := 10 * n + (d.toNat - 48)
      if m ≤ maxSignificand then gatherDigits m ds else (n, d :: ds)

namespace Binary64

def rankOf (n : Nat) : Nat := nearestRank (n * one) 1

def product (r s : Nat) : Nat := nearestRank (unitsOf r * unitsOf s) one

def quotient (r s : Nat) : Nat := nearestRank (unitsOf r * one) (unitsOf s)

def maxPower : Nat := 308

def powerOfTen (k : Nat) : Nat := rankOf (Nat.pow 10 k)

/-- Divides so often by the greatest power of ten, or until nothing is left. -/
def divideDown : Nat → Nat → Nat
  | 0, r => r
  | rounds + 1, r => if r = 0 then r else divideDown rounds (quotient r (powerOfTen maxPower))

/-- A number of 64 bits times a power of ten, if that is finite. -/
def scaled? (significand : Nat) : Int → Option (Fin finiteRanks)
  | .ofNat k =>
      if k ≤ maxPower then finite? (product (rankOf significand) (powerOfTen k))
      else if significand = 0 then some zero.rank
      else none
  | .negSucc k =>
      -- The last division is by a power from the first to the greatest one.
      let r := divideDown (k / maxPower) (rankOf significand)
      finite? (quotient r (powerOfTen (k % maxPower + 1)))

/-- The number nearest to `3e23` has the next rank. -/
example : (scaled? 3 23).map (Fin.val · + 1) = (Decimal.nearest? ⟨3, 23⟩).map Fin.val := by
  decide +kernel

/-- This numeral is nearer to the greatest finite number than to infinity. -/
example : scaled? 17976931348623158 292 = none ∧
    (Decimal.nearest? ⟨17976931348623158, 292⟩).isSome := by decide +kernel

end Binary64

end RecipeEngine.Number
