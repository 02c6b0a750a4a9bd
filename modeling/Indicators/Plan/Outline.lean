import Indicators.Metric.Configuration

set_option autoImplicit false

/-! A configuration by columns. The number of operations is the depth; a level is one that all three
columns have. -/

namespace Indicators.Plan

open Indicators.Metric

structure Outline where
  fields : List (Option String)
  operations : List Operation
  conditions : List (List Condition)

structure OutlineLevel where
  index : Nat
  field : Option String
  operation : Operation
  conditions : List Condition

namespace Outline

def ofConfiguration (c : Configuration) : Outline :=
  ⟨c.toList.map (·.fieldPath), c.toList.map (·.operation), c.toList.map (·.conditions)⟩

def depth (o : Outline) : Nat := o.operations.length

def isInnermost (o : Outline) (index : Nat) : Bool := index + 1 == o.depth

def level? (o : Outline) (index : Nat) : Option OutlineLevel := do
  return ⟨index, ← o.fields[index]?, ← o.operations[index]?, ← o.conditions[index]?⟩

def levels (o : Outline) : List OutlineLevel := (List.range o.depth).filterMap o.level?

theorem depth_ofConfiguration (c : Configuration) : (ofConfiguration c).depth = c.depth := by
  simp [depth, ofConfiguration, Levels.length_toList]

end Outline

end Indicators.Plan
