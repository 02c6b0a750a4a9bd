import Indicators.Plan.DateField
import Indicators.Plan.Rollup
import Indicators.Plan.Rows
import Indicators.Schema.Registry

set_option autoImplicit false

/-! A configuration becomes the date range, the section, the levels inward and the rollups outward.
A percentage is counted like a count; its two counts are separate configurations. -/

namespace Indicators.Plan

open Indicators.Metric Indicators.Pipeline Indicators.Schema

structure Query where
  collection : String
  stages : List Stage

def compile (locator : DateLocator) (schema : Schema) (c : Configuration) :
    Except PlanError Query := do
  let outline := Outline.ofConfiguration c
  let sectionPath := c.outer.sectionPath
  let layout ← Layout.of? outline schema.types sectionPath
  let dates := c.effectiveDateRange.map (dateStage locator schema.types sectionPath)
  return {
    collection := schema.template.physicalCollection
    stages := dates.toList ++ layout.sectionStages ++ levelStages outline layout ++
      rollupStages outline layout }

end Indicators.Plan
