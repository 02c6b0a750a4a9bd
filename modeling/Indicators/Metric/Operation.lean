set_option autoImplicit false

namespace Indicators.Metric

inductive Operation where
  | count
  | sum
  | average
  | max
  | min
  | distinct
  | percentage
deriving DecidableEq, Repr

namespace Operation

def all : List Operation := [count, sum, average, max, min, distinct, percentage]

def name : Operation → String
  | count => "count"
  | sum => "sum"
  | average => "average"
  | max => "max"
  | min => "min"
  | distinct => "distinct"
  | percentage => "percentage"

def ofName? (name : String) : Option Operation := all.find? (·.name == name)

def needsField (op : Operation) : Bool := op != count

def isNumeric : Operation → Bool
  | sum | average | max | min => true
  | _ => false

theorem ofName?_name (op : Operation) : ofName? op.name = some op := by
  cases op <;> decide

end Operation

end Indicators.Metric
