import Indicators.Number.Binary64

set_option autoImplicit false

/-! A held magnitude stands for the interval of values that round to it. `Finite64.shortest` picks
the decimal with the fewest digits inside it and, among those, the nearest. The search is bounded;
when it finds nothing the exact expansion is given, so what is returned always reads back. -/

namespace Indicators.Number

structure Decimal where
  digits : Nat
  exponent : Int
deriving DecidableEq, Repr

inductive Tie where
  | toEven
  | up
deriving DecidableEq, Repr

namespace Decimal

def scale (exponent : Int) : Nat × Nat :=
  (4 * one * Nat.pow 10 exponent.toNat, Nat.pow 10 (-exponent).toNat)

def compareQuarters (d : Decimal) (quarters : Nat) : Ordering :=
  compare (d.digits * (scale d.exponent).1) (quarters * (scale d.exponent).2)

def strip (d : Decimal) : Nat → Decimal
  | 0 => d
  | fuel + 1 =>
    if d.digits % 10 = 0 ∧ d.digits ≠ 0 then strip ⟨d.digits / 10, d.exponent + 1⟩ fuel else d

end Decimal

/-- The ends, in quarter units, of the interval of values that round to a magnitude. The gap below
a power of two is half the gap above it. -/
def lowerEnd (units : Nat) : Nat :=
  let place := lastPlace units
  if units = Nat.pow 2 52 * place ∧ place ≠ 1 then 4 * units - place else 4 * units - 2 * place

def upperEnd (units : Nat) : Nat := 4 * units + 2 * lastPlace units

/-- The decimal rounds to the magnitude; the ends do so when the significand is even. -/
def readsBack (units : Nat) (d : Decimal) : Bool :=
  let closed := units / lastPlace units % 2 == 0
  let low := d.compareQuarters (lowerEnd units)
  let high := d.compareQuarters (upperEnd units)
  (low == .gt || (closed && low == .eq)) && (high == .lt || (closed && high == .eq))

def onGrid (tie : Tie) (units : Nat) (exponent : Int) : Option Decimal :=
  let (perDigit, perQuarter) := Decimal.scale exponent
  let low := 4 * units * perQuarter / perDigit
  let below : Decimal := ⟨low, exponent⟩
  let above : Decimal := ⟨low + 1, exponent⟩
  match readsBack units below, readsBack units above with
  | false, false => none
  | true, false => some below
  | false, true => some above
  | true, true =>
    match compare (8 * units * perQuarter) ((2 * low + 1) * perDigit), tie with
    | .lt, _ => some below
    | .gt, _ => some above
    | .eq, .toEven => some (if low % 2 = 0 then below else above)
    | .eq, .up => some above

/-- Below `10 ^ magnitudeEstimate` or within two powers of ten above it. -/
def magnitudeEstimate (units : Nat) : Int := ((units.log2 : Int) - 1074) * 1233 / 4096

def magnitudeExponent (units : Nat) : Int :=
  let k := magnitudeEstimate units
  if (Decimal.mk 1 k).compareQuarters (4 * units) == .gt then k
  else if (Decimal.mk 1 (k + 1)).compareQuarters (4 * units) == .gt then k + 1
  else k + 2

def exactDecimal (units : Nat) : Decimal := ⟨units * Nat.pow 5 1074, -1074⟩

def shortest (tie : Tie) (units : Nat) : Decimal :=
  let top := magnitudeExponent units
  let found := (List.range 17).findSome? fun n => onGrid tie units (top - (n + 1 : Nat))
  let chosen := found.getD (exactDecimal units)
  chosen.strip (Nat.log2 chosen.digits + 1)

/-- How a finite number is written: the decimal exponents that stand without `e`, whether a whole
number ends in `.0`, and the rule for ties. -/
structure Style where
  least : Int
  greatest : Int
  wholeFraction : Bool
  tie : Tie
deriving Repr

namespace Style

def positional (style : Style) (digits : List Char) (point : Int) : List Char :=
  if point ≤ 0 then '0' :: '.' :: (List.replicate (-point).toNat '0' ++ digits)
  else if (digits.length : Int) ≤ point then
    digits ++ List.replicate (point - digits.length).toNat '0' ++
      (if style.wholeFraction then ['.', '0'] else [])
  else digits.take point.toNat ++ '.' :: digits.drop point.toNat

def scientific (digits : List Char) (exponent : Int) : List Char :=
  let mantissa := match digits with
    | first :: second :: rest => first :: '.' :: second :: rest
    | short => short
  mantissa ++ 'e' :: (if exponent < 0 then '-' else '+') :: Nat.toDigits 10 exponent.natAbs

def magnitude (style : Style) (units : Nat) : List Char :=
  if units = 0 then if style.wholeFraction then ['0', '.', '0'] else ['0']
  else
    let d := shortest style.tie units
    let digits := Nat.toDigits 10 d.digits
    let leading := d.exponent + digits.length - 1
    if style.least ≤ leading ∧ leading ≤ style.greatest then
      style.positional digits (leading + 1)
    else scientific digits leading

def write (style : Style) (x : Finite64) : String :=
  String.ofList (if x.negative then '-' :: style.magnitude x.units else style.magnitude x.units)

end Style

namespace Binary64

def write (style : Style) : Binary64 → String
  | .finite x => style.write x
  | .infinity false => "inf"
  | .infinity true => "-inf"
  | .nan => "NaN"

def readDecimal (negative : Bool) (text : List Char) : Option Binary64 :=
  let whole := text.takeWhile Char.isDigit
  let afterWhole := text.dropWhile Char.isDigit
  let (fraction, afterFraction) := match afterWhole with
    | '.' :: rest => (rest.takeWhile Char.isDigit, rest.dropWhile Char.isDigit)
    | rest => ([], rest)
  let digits := whole ++ fraction
  let value (exponent : Int) : Binary64 :=
    ofDecimal negative (Nat.ofDigitChars 10 digits 0) (exponent - fraction.length)
  if digits.isEmpty then none
  else match afterFraction with
    | [] => some (value 0)
    | e :: rest =>
      if e = 'e' ∨ e = 'E' then
        let (down, power) := match rest with
          | '-' :: power => (true, power)
          | '+' :: power => (false, power)
          | power => (false, power)
        if power.isEmpty || !power.all Char.isDigit then none
        else
          let size : Int := Nat.ofDigitChars 10 power 0
          some (value (if down then -size else size))
      else none

/-- Read a number: an optional sign, then a decimal or one of the words `inf`, `infinity` and
`nan` in any letter case. Nothing may surround it. -/
def read? (text : String) : Option Binary64 :=
  let (negative, body) := match text.toList with
    | '-' :: rest => (true, rest)
    | '+' :: rest => (false, rest)
    | rest => (false, rest)
  let word := String.ofList (body.map Char.toLower)
  if word = "inf" ∨ word = "infinity" then some (.infinity negative)
  else if word = "nan" then some .nan
  else readDecimal negative body

end Binary64

end Indicators.Number
