import Indicators.Json.Text

set_option autoImplicit false

/-! The result of a metric, zero when there is no data. Values are compared as floats, so `6` and
`6.0` are the same result. -/

namespace Indicators.Calculation

open Indicators Indicators.Number

inductive MetricValue where
  | int (value : Int64)
  | float (value : Binary64)
deriving DecidableEq

namespace MetricValue

def zero : MetricValue := .int 0

/-- The value of a result; what is no number counts as no data. -/
def ofJson : Json → MetricValue
  | .number n =>
    match n.toInt64? with
    | some i => .int (Int64.ofInt i)
    | none => .float n.toBinary64
  | _ => zero

def toBinary64 : MetricValue → Binary64
  | .int i => Binary64.ofInt i.toInt
  | .float x => x

def sameAs (a b : MetricValue) : Bool := a.toBinary64.sameValue b.toBinary64

def toJson : MetricValue → Json
  | .int i => .ofInt64 i
  | .float x => .ofBinary64 x

/-- Floats on display have no exponent and no fraction part of zero; halfway between two texts the
greater one is taken. -/
def displayed : Style := ⟨-400, 400, false, .up⟩

def display : MetricValue → String
  | .int i => String.ofList (Json.writeInt i.toInt)
  | .float x => x.write displayed

end MetricValue

end Indicators.Calculation
