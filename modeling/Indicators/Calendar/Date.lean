set_option autoImplicit false

/-! The proleptic Gregorian calendar with a year 0, and its days counted from 1970-01-01. -/

namespace Indicators.Calendar

def isLeap (year : Int) : Bool := year % 4 == 0 && (year % 100 != 0 || year % 400 == 0)

def daysInMonth (year : Int) (month : Nat) : Nat :=
  if month = 2 then if isLeap year then 29 else 28
  else if month = 4 ∨ month = 6 ∨ month = 9 ∨ month = 11 then 30
  else 31

structure Date where
  year : Int
  month : Nat
  day : Nat
deriving DecidableEq, Repr

def firstYear : Int := -262143

def lastYear : Int := 262142

def Date.Valid (d : Date) : Prop :=
  firstYear ≤ d.year ∧ d.year ≤ lastYear ∧ 1 ≤ d.month ∧ d.month ≤ 12 ∧ 1 ≤ d.day ∧
    d.day ≤ daysInMonth d.year d.month

instance (d : Date) : Decidable d.Valid := inferInstanceAs (Decidable (_ ∧ _))

def Date.of? (year : Int) (month day : Nat) : Option Date :=
  let d : Date := ⟨year, month, day⟩
  if d.Valid then some d else none

/-- Days from the first of March of year 0 to the first of March of a year. -/
def daysToMarch (year : Int) : Int := 365 * year + year / 4 - year / 100 + year / 400

def daysToMonth (fromMarch : Nat) : Nat := (153 * fromMarch + 2) / 5

def epochDay : Int := 719468

/-- Days since 1970-01-01. The year is taken to begin in March, so a leap day is its last day. -/
def Date.dayNumber (d : Date) : Int :=
  if 2 < d.month then daysToMarch d.year + daysToMonth (d.month - 3) + (d.day - 1) - epochDay
  else daysToMarch (d.year - 1) + daysToMonth (d.month + 9) + (d.day - 1) - epochDay

def Date.ofDayNumber (number : Int) : Date :=
  let day := number + epochDay
  let era := day / 146097
  let ofEra := (day % 146097).toNat
  let yearOfEra := (ofEra - ofEra / 1460 + ofEra / 36524 - ofEra / 146096) / 365
  let ofYear := ofEra - (365 * yearOfEra + yearOfEra / 4 - yearOfEra / 100)
  let fromMarch := (5 * ofYear + 2) / 153
  let dayOfMonth := ofYear - daysToMonth fromMarch + 1
  let year := era * 400 + yearOfEra
  if fromMarch < 10 then ⟨year, fromMarch + 3, dayOfMonth⟩
  else ⟨year + 1, fromMarch - 9, dayOfMonth⟩

def firstDay : Int := (Date.mk firstYear 1 1).dayNumber

def lastDay : Int := (Date.mk lastYear 12 31).dayNumber

end Indicators.Calendar
