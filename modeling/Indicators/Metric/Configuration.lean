import Indicators.Calendar.Timestamp
import Indicators.Metric.Levels
import Indicators.Metric.Operation
import Indicators.Pipeline.Expr
import Indicators.Pipeline.Value

set_option autoImplicit false

namespace Indicators.Metric

open Indicators.Calendar Indicators.Number Indicators.Pipeline

structure Condition where
  field : String
  op : Comparison
  value : String
deriving DecidableEq, Repr

def Condition.number? (c : Condition) : Option Binary64 := readFinite? (Text.trim c.value)

/-- A window of time, both bounds included, on the date field that the segments lead to. -/
structure DateRange where
  pathSegments : List String
  first : Timestamp
  last : Timestamp
deriving DecidableEq, Repr

structure Level where
  collection : String
  operation : Operation
  fieldPath : Option String
  sectionPath : List String
  conditions : List Condition
  dateRange : Option DateRange
  /-- Conditions that hold on both sides of a percentage. -/
  sharedConditions : Option (List Condition)
  label : Option String
deriving DecidableEq, Repr

abbrev Configuration := Levels Level

def Level.displayLabel (l : Level) : String := l.label.getD l.collection

def Level.withDateBounds (first last : Timestamp) (l : Level) : Level :=
  { l with dateRange := l.dateRange.map fun r => { r with first := first, last := last } }

namespace Configuration

def effectiveDateRange (c : Configuration) : Option DateRange := c.toList.findSome? (·.dateRange)

def withDateBounds (first last : Timestamp) (c : Configuration) : Configuration :=
  c.map (Level.withDateBounds first last)

end Configuration

end Indicators.Metric
