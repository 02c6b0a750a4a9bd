import Indicators.Calendar.Timestamp
import Indicators.Text.Blank

set_option autoImplicit false

/-! A text is an RFC 3339 timestamp or else a bare date. A timestamp has a fixed number of digits in
every place; second 60 is a leap second in any minute. A date may have white space before each
number, and a year of more than four digits only after a sign. -/

namespace Indicators.Calendar

def readFixed (count : Nat) (text : List Char) : Option (Nat × List Char) :=
  let digits := text.take count
  if digits.length = count ∧ digits.all Char.isDigit then
    some (Nat.ofDigitChars 10 digits 0, text.drop count)
  else none

def readNumber (most : Option Nat) (text : List Char) : Option (Nat × List Char) :=
  let run := text.takeWhile Char.isDigit
  let digits := match most with
    | some n => run.take n
    | none => run
  if digits.isEmpty then none else some (Nat.ofDigitChars 10 digits 0, text.drop digits.length)

def readChar (c : Char) : List Char → Option (List Char)
  | d :: rest => if d = c then some rest else none
  | [] => none

/-- Nanoseconds of the digits after a point: nine count, the rest are passed over. -/
def readFraction (text : List Char) : Option (Nat × List Char) :=
  let run := text.takeWhile Char.isDigit
  let digits := run.take 9
  if digits.isEmpty then none
  else some (Nat.ofDigitChars 10 digits 0 * Nat.pow 10 (9 - digits.length), text.drop run.length)

def readOffset : List Char → Option (Int × List Char)
  | 'Z' :: rest => some (0, rest)
  | 'z' :: rest => some (0, rest)
  | sign :: rest => do
    let back ← if sign = '+' then some false
      else if sign = '-' ∨ sign = '−' then some true else none
    let (hours, rest) ← readFixed 2 rest
    let rest ← readChar ':' rest
    let (minutes, rest) ← readFixed 2 rest
    if 23 < hours ∨ 59 < minutes then none
    let ahead : Int := hours * 60 + minutes
    return (if back then -ahead else ahead, rest)
  | [] => none

def readTimestamp (text : List Char) : Option Timestamp := do
  let (year, text) ← readFixed 4 text
  let text ← readChar '-' text
  let (month, text) ← readFixed 2 text
  let text ← readChar '-' text
  let (day, text) ← readFixed 2 text
  let date ← Date.of? year month day
  let text ← match text with
    | 'T' :: rest => some rest
    | 't' :: rest => some rest
    | ' ' :: rest => some rest
    | _ => none
  let (hour, text) ← readFixed 2 text
  let text ← readChar ':' text
  let (minute, text) ← readFixed 2 text
  let text ← readChar ':' text
  let (second, text) ← readFixed 2 text
  if 23 < hour ∨ 59 < minute ∨ 60 < second then none
  let (nanos, text) ← match text with
    | '.' :: rest => readFraction rest
    | rest => some (0, rest)
  let (offset, text) ← readOffset text
  if !text.isEmpty then none
  let leap := second = 60
  let ofDay : Int := hour * 3600 + minute * 60 + (if leap then 59 else second : Nat)
  let nanos := if leap then nanosPerSecond + nanos else nanos
  let moment ← Timestamp.of? (date.dayNumber * secondsPerDay + ofDay) nanos
  return moment.unshift offset

/-- A year: up to four digits, or any number of them after a sign. -/
def readYear (text : List Char) : Option (Int × List Char) :=
  match Text.dropBlanks text with
  | '-' :: rest => (readNumber none rest).map fun r => (-(r.1 : Int), r.2)
  | '+' :: rest => (readNumber none rest).map fun r => ((r.1 : Int), r.2)
  | rest => (readNumber (some 4) rest).map fun r => ((r.1 : Int), r.2)

def readDate (text : List Char) : Option Date := do
  let (year, text) ← readYear text
  let text ← readChar '-' text
  let (month, text) ← readNumber (some 2) (Text.dropBlanks text)
  let text ← readChar '-' text
  let (day, text) ← readNumber (some 2) (Text.dropBlanks text)
  if !text.isEmpty then none
  Date.of? year month day

def Date.dayStart (d : Date) : Timestamp := .onDay d 0 0

def Date.dayEnd (d : Date) : Timestamp := .onDay d (secondsPerDay - 1) 999000000

/-- The moment a text names; a bare date names its first moment or, with `endOfDay`, its last
millisecond. White space around the text does not matter. -/
def Timestamp.read? (text : String) (endOfDay : Bool) : Option Timestamp :=
  let body := Text.trimList text.toList
  match readTimestamp body with
  | some t => some t
  | none => (readDate body).map fun d => if endOfDay then d.dayEnd else d.dayStart

end Indicators.Calendar
