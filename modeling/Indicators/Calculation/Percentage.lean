import Indicators.Calculation.MetricValue
import Indicators.Metric.Configuration

set_option autoImplicit false

/-! A percentage is two counts. The numerator has all conditions. The denominator has only the
shared ones; without shared conditions it has none and also loses the levels below it. -/

namespace Indicators.Calculation

open Indicators.Metric Indicators.Number

def countUnder (c : Configuration) (conditions : List Condition) : Configuration :=
  { c with outer :=
      { c.outer with operation := .count, conditions := conditions, sharedConditions := none } }

def numerator (c : Configuration) : Configuration :=
  countUnder c (c.outer.conditions ++ c.outer.sharedConditions.getD [])

def denominator (c : Configuration) : Configuration :=
  match c.outer.sharedConditions with
  | some shared => countUnder c shared
  | none => { countUnder c [] with inner := [] }

def hundred : Binary64 := Binary64.ofInt 100

/-- The share in per cent, rounded to two places; zero when there is nothing to share. -/
def percentage (numerator denominator : MetricValue) : MetricValue :=
  let whole := denominator.toBinary64
  if whole.sameValue (.zero false) then .zero
  else
    let ratio := numerator.toBinary64 / whole * hundred
    .float ((ratio * hundred).roundHalfAway / hundred)

end Indicators.Calculation
