/-!
# Finite binary64 numbers

A finite binary64 number is a sign and a *rank*: its magnitude's place among all finite
magnitudes, zero having rank 0.  Rounding a quotient is finding the rank that lies nearest.

Magnitudes are counted exactly, in units of `2 ^ -1074`, the smallest one that is not zero.
-/

namespace RecipeEngine.Number

/-- How many magnitudes share a binary exponent: `2 ^ 52`, one for each significand. -/
abbrev significands : Nat := 0x10000000000000

abbrev finiteRanks : Nat := 2047 * significands

structure Binary64 where
  negative : Bool
  rank : Fin finiteRanks
  deriving DecidableEq

namespace Binary64

/-- The smallest magnitude of rank `r` has this binary exponent, in units. -/
def scale (r : Nat) : Nat := r / significands - 1

/-- The magnitude of rank `r`, in units of `2 ^ -1074`. -/
def unitsOf (r : Nat) : Nat :=
  if r < significands then r else (r % significands + significands) <<< scale r

def units (x : Binary64) : Nat := unitsOf x.rank

/-- The quotient of two numbers as a whole number, a half going to the even neighbour. -/
def roundHalfEven (num den : Nat) : Nat :=
  let quotient := num / den
  let twice := 2 * (num % den)
  if twice < den then quotient
  else if den < twice then quotient + 1
  else quotient + quotient % 2

/-- The rank nearest to a quotient of units, ranks going on above the finite ones.  At most 53
bits are kept; a quotient halfway between two ranks goes to the one with the even significand. -/
def nearestRank (num den : Nat) : Nat :=
  let shift := (num / den).log2 + 1 - 53
  -- A significand rounded up to `2 ^ 53` is the first one of the next exponent, which is the rank
  -- that the sum gives.
  shift * significands + roundHalfEven num (den <<< shift)

def finite? (rank : Nat) : Option (Fin finiteRanks) :=
  if finite : rank < finiteRanks then some ⟨rank, finite⟩ else none

def nearest? (num den : Nat) : Option (Fin finiteRanks) := finite? (nearestRank num den)

def one : Nat := 1 <<< 1074

def ofInt? (n : Int) : Option Binary64 :=
  (nearest? (n.natAbs * one) 1).map (⟨n < 0, ·⟩)

def zero : Binary64 := ⟨false, ⟨0, by decide⟩⟩

def negativeZero : Binary64 := ⟨true, ⟨0, by decide⟩⟩

/-- A half goes to the even neighbour. -/
example : roundHalfEven 5 2 = 2 ∧ roundHalfEven 7 2 = 4 ∧ roundHalfEven 8 3 = 3 := by decide

/-- One has 53 significant bits, all but the first of them zero. -/
example : nearestRank one 1 = 1023 * significands := by decide +kernel

end Binary64

end RecipeEngine.Number
