import Indicators.Calculation.Batch
import Indicators.Metric.Indicator

set_option autoImplicit false

/-! A labelled series has a point for every configuration, zero for one that fails. A list of
indicators has a reading for each, also with the error. An explanation only compiles. -/

namespace Indicators.Calculation

open Indicators Indicators.Calendar Indicators.Metric Indicators.Pipeline Indicators.Plan

namespace Calculator

def calculateDraft (k : Calculator) (d : Draft) : Calculate MetricValue := do
  match d.configuration with
  | .ok c => k.calculate c
  | .error e => throw (.invalidConfiguration e)

structure Point where
  label : String
  value : MetricValue

structure Reading where
  id : String
  name : String
  value : MetricValue
  error : Option CalculationError

def point (c : Configuration) : Outcome → Point
  | .ok value => ⟨c.outer.displayLabel, value⟩
  | .error _ => ⟨c.outer.displayLabel, .zero⟩

def series (k : Calculator) (configurations : List Configuration) :
    StateM Progress (List Point) := do
  return List.zipWith point configurations (← k.outcomes (configurations.map .ok))

def reading (i : Indicator) : Outcome → Reading
  | .ok value => ⟨i.id, i.name, value, none⟩
  | .error e => ⟨i.id, i.name, .zero, some e⟩

def invertedBounds (bounds : Timestamp × Timestamp) : Option ConfigurationError :=
  if bounds.1.le bounds.2 then none
  else some (.invertedDateRange bounds.1.write bounds.2.write)

def job (bounds : Option (Timestamp × Timestamp)) (i : Indicator) : Job :=
  match bounds with
  | none => .ok i.configuration
  | some b =>
    match invertedBounds b with
    | some e => .error (.invalidConfiguration e)
    | none => .ok (i.configuration.withDateBounds b.1 b.2)

def readings (k : Calculator) (bounds : Option (Timestamp × Timestamp))
    (indicators : List Indicator) : StateM Progress (List Reading) := do
  return List.zipWith reading indicators (← k.outcomes (indicators.map (job bounds)))

def queryJson (q : Query) : Except CalculationError Json :=
  match emit q.stages with
  | .ok pipeline => .ok (.ofMembers [("collection", .string q.collection), ("pipeline", pipeline)])
  | .error e => .error (.unwritable e)

def queriesJson (share whole : Query) : Except CalculationError Json := do
  let numerator ← queryJson share
  let denominator ← queryJson whole
  return .ofMembers [("numerator", numerator), ("denominator", denominator)]

def explain (k : Calculator) (c : Configuration) : Calculate Json := do
  if c.outer.operation = .percentage then
    let share ← k.compile (numerator c)
    let whole ← k.compile (denominator c)
    ExceptT.mk (pure (queriesJson share whole))
  else
    let q ← k.compile c
    ExceptT.mk (pure (queryJson q))

end Calculator

end Indicators.Calculation
