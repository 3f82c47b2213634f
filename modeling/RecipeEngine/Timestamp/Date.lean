/-!
# Calendar dates

Dates of the proleptic Gregorian calendar within the supported years.
-/

namespace RecipeEngine

def isLeapYear (year : Int) : Bool := year % 4 = 0 ∧ (year % 100 ≠ 0 ∨ year % 400 = 0)

def daysInMonth (year : Int) (month : Nat) : Nat :=
  if month = 2 then (if isLeapYear year then 29 else 28)
  else if month = 4 ∨ month = 6 ∨ month = 9 ∨ month = 11 then 30
  else 31

def lastYear : Nat := 262142

/-- Whether a year is supported: there is one more year before the year 0 than after it. -/
def IsYear (year : Int) : Prop := year.natAbs ≤ lastYear ∨ year = -(lastYear + 1 : Nat)

instance (year : Int) : Decidable (IsYear year) := by
  unfold IsYear; infer_instance

def IsDate (year : Int) (month day : Nat) : Prop :=
  IsYear year ∧ (1 ≤ month ∧ month ≤ 12) ∧ (1 ≤ day ∧ day ≤ daysInMonth year month)

instance (year : Int) (month day : Nat) : Decidable (IsDate year month day) := by
  unfold IsDate; infer_instance

structure Date where
  year : Int
  month : Nat
  day : Nat
  valid : IsDate year month day
  deriving DecidableEq

namespace Date

def of? (year : Int) (month day : Nat) : Option Date :=
  if valid : IsDate year month day then some ⟨year, month, day, valid⟩ else none

def epoch : Date := ⟨1970, 1, 1, by decide⟩

def next? (d : Date) : Option Date :=
  if d.day < daysInMonth d.year d.month then of? d.year d.month (d.day + 1)
  else if d.month < 12 then of? d.year (d.month + 1) 1
  else of? (d.year + 1) 1 1

def previous? (d : Date) : Option Date :=
  if 1 < d.day then of? d.year d.month (d.day - 1)
  else if 1 < d.month then of? d.year (d.month - 1) (daysInMonth d.year (d.month - 1))
  else of? (d.year - 1) 12 31

example : (of? 2024 2 29).isSome ∧ (of? 2023 2 29).isNone ∧ (of? 1900 2 29).isNone := by decide

end Date

end RecipeEngine
