import Indicators.Calendar.Date

set_option autoImplicit false

/-! A moment in UTC as whole seconds since 1970 and nanoseconds within the second. Nanoseconds from
10^9 on are a leap second: the moment follows the second it is counted in, which is the last of a
minute, and precedes the next one. -/

namespace Indicators.Calendar

def nanosPerSecond : Nat := 1000000000

def secondsPerDay : Int := 86400

/-- A clock shows the moment: only the last second of a minute goes on as a leap second. -/
def OnClock (seconds : Int) (nanos : Nat) : Prop :=
  nanos < 2 * nanosPerSecond ∧ (nanosPerSecond ≤ nanos → seconds % 60 = 59)

instance (seconds : Int) (nanos : Nat) : Decidable (OnClock seconds nanos) :=
  inferInstanceAs (Decidable (_ ∧ _))

structure Timestamp where
  seconds : Int
  nanos : Nat
  onClock : OnClock seconds nanos
deriving DecidableEq, Repr

namespace Timestamp

def of? (seconds : Int) (nanos : Nat) : Option Timestamp :=
  if h : OnClock seconds nanos then some ⟨seconds, nanos, h⟩ else none

theorem onClock_of_lt (seconds : Int) {nanos : Nat} (h : nanos < nanosPerSecond) :
    OnClock seconds nanos :=
  ⟨by omega, fun hle => by omega⟩

def compare (a b : Timestamp) : Ordering :=
  (Ord.compare a.seconds b.seconds).then (Ord.compare a.nanos b.nanos)

def le (a b : Timestamp) : Bool := a.compare b != .gt

def onDay (date : Date) (secondOfDay : Int) (nanos : Nat)
    (h : nanos < nanosPerSecond := by decide) : Timestamp :=
  ⟨date.dayNumber * secondsPerDay + secondOfDay, nanos, onClock_of_lt _ h⟩

def dayNumber (t : Timestamp) : Int := t.seconds / secondsPerDay

def millis (t : Timestamp) : Int := t.seconds * 1000 + t.nanos / 1000000

def ofMillis? (millis : Int) : Option Timestamp :=
  let t : Timestamp := ⟨millis / 1000, (millis % 1000).toNat * 1000000,
    onClock_of_lt _ (by unfold nanosPerSecond; omega)⟩
  if firstDay ≤ t.dayNumber ∧ t.dayNumber ≤ lastDay then some t else none

/-- The moment of a wall clock that runs some minutes ahead. -/
def unshift (t : Timestamp) (minutes : Int) : Timestamp :=
  ⟨t.seconds - minutes * 60, t.nanos, t.onClock.1, fun h => by have := t.onClock.2 h; omega⟩

def padded (width : Nat) (n : Nat) : List Char :=
  let digits := Nat.toDigits 10 n
  List.replicate (width - digits.length) '0' ++ digits

/-- Four digits, or a sign and at least four outside the years 0 to 9999. -/
def writeYear (year : Int) : List Char :=
  if 0 ≤ year ∧ year ≤ 9999 then padded 4 year.natAbs
  else (if year < 0 then '-' else '+') :: padded 4 year.natAbs

/-- No digits, or the fewest of 3, 6 and 9 that are exact. -/
def writeFraction (nanos : Nat) : List Char :=
  if nanos = 0 then []
  else if nanos % 1000000 = 0 then '.' :: padded 3 (nanos / 1000000)
  else if nanos % 1000 = 0 then '.' :: padded 6 (nanos / 1000)
  else '.' :: padded 9 nanos

/-- The RFC 3339 text in UTC; a leap second shows as second 60. -/
def write (t : Timestamp) : String :=
  let date := Date.ofDayNumber t.dayNumber
  let ofDay := (t.seconds % secondsPerDay).toNat
  let leap := nanosPerSecond ≤ t.nanos
  let second := ofDay % 60 + if leap then 1 else 0
  let nanos := if leap then t.nanos - nanosPerSecond else t.nanos
  String.ofList <|
    writeYear date.year ++ '-' :: padded 2 date.month ++ '-' :: padded 2 date.day ++
      'T' :: padded 2 (ofDay / 3600) ++ ':' :: padded 2 (ofDay / 60 % 60) ++
      ':' :: padded 2 second ++ writeFraction nanos ++ ['+', '0', '0', ':', '0', '0']

end Timestamp

end Indicators.Calendar
