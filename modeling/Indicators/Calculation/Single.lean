import Indicators.Calculation.Percentage
import Indicators.Calculation.Settings
import Indicators.Metric.Validation
import Indicators.Pipeline.Emission
import Indicators.Plan.Compile
import Indicators.Store.Memory

set_option autoImplicit false

/-! Schemas loaded, look-ups and queries are recorded, also by what fails. -/

namespace Indicators.Calculation

open Indicators Indicators.Calendar Indicators.Metric Indicators.Pipeline Indicators.Plan
open Indicators.Schema Indicators.Store

structure Calculator where
  registry : Registry
  store : MemoryStore
  settings : Settings

inductive CalculationError where
  | invalidConfiguration (error : ConfigurationError)
  | unplannable (error : PlanError)
  | templateNotFound (collection : String)
  | inaccessible (error : AccessError)
  | timeout (collection : String) (milliseconds : Nat)
  | unwritable (error : EmissionError)
deriving DecidableEq

namespace CalculationError

def message : CalculationError → String
  | invalidConfiguration e => e.message
  | unplannable e => "Invalid configuration: " ++ e.message
  | templateNotFound collection => (LoadError.templateNotFound collection).message
  | inaccessible e => "Execution failed: " ++ e.message
  | timeout collection milliseconds =>
    "Pipeline on '" ++ collection ++ "' timed out after " ++ toString milliseconds ++ " ms"
  | unwritable e => "Failed to render pipeline: " ++ e.message

def isInvalidConfiguration : CalculationError → Bool
  | invalidConfiguration _ | unplannable _ => true
  | _ => false

def isExecutionFailure : CalculationError → Bool
  | inaccessible _ | timeout _ _ => true
  | _ => false

def ofLoad : LoadError → CalculationError
  | .templateNotFound collection => templateNotFound collection
  | .unreadable e => inaccessible e

end CalculationError

/-- What has been loaded and which queries the store has received, in order. -/
structure Progress where
  loaded : Loaded := {}
  queries : List Query := []

def Progress.sent (p : Progress) (q : Query) : Progress := { p with queries := p.queries ++ [q] }

abbrev Outcome := Except CalculationError MetricValue

/-- Calculations go on from the progress made, also after a failure. -/
abbrev Calculate (α : Type) := ExceptT CalculationError (StateM Progress) α

namespace Calculator

def schemaOf (k : Calculator) (collection : String) : Calculate Schema := do
  let progress ← get
  let (result, loaded) := (load k.registry collection).run progress.loaded
  set { progress with loaded }
  match result with
  | .ok schema => return schema
  | .error e => throw (.ofLoad e)

def compile (k : Calculator) (c : Configuration) : Calculate Query := do
  let schema ← k.schemaOf c.outer.collection
  match Plan.compile k.settings.dateFieldLocator schema c with
  | .ok query => return query
  | .error e => throw (.unplannable e)

def resultOf (docs : List Json) : MetricValue :=
  match docs.head?.bind (Json.member? resultName) with
  | some result => .ofJson result
  | none => .zero

def fetch (k : Calculator) (q : Query) : Outcome :=
  match k.store.aggregate q.collection q.stages with
  | .ok docs => .ok (resultOf docs)
  | .error e => .error (.inaccessible e)

def overdue (k : Calculator) (q : Query) : CalculationError :=
  .timeout q.collection k.settings.queryTimeoutMs

/-- What the store answers within the time allowed. -/
def answer (k : Calculator) (q : Query) : Outcome :=
  if k.settings.queryTimeoutMs < k.store.latencyOf q.collection then .error (k.overdue q)
  else k.fetch q

def execute (k : Calculator) (q : Query) : Calculate MetricValue := do
  modify (·.sent q)
  match k.answer q with
  | .ok value => return value
  | .error e => throw e

def query (k : Calculator) (c : Configuration) : Calculate MetricValue := do
  k.execute (← k.compile c)

def calculate (k : Calculator) (c : Configuration) : Calculate MetricValue := do
  if c.outer.operation = .percentage then
    let share ← k.query (numerator c)
    let whole ← k.query (denominator c)
    return percentage share whole
  else k.query c

end Calculator

end Indicators.Calculation
