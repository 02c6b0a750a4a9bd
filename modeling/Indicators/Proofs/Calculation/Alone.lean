import Indicators.Calculation.Batch
import Indicators.Proofs.Schema.Loading

set_option autoImplicit false

/-! The outcome of a calculation does not depend on what has been loaded before. -/

namespace Indicators.Calculation.Calculator

open Indicators Indicators.Metric Indicators.Plan Indicators.Schema

/-- The outcome of a configuration by itself, with nothing loaded. -/
def alone (k : Calculator) (c : Configuration) : Outcome := ((k.calculate c).run.run {}).1

def Faithful (k : Calculator) (p : Progress) : Prop := p.loaded.Faithful k.registry

def planned (k : Calculator) (c : Configuration) : Except CalculationError Query := do
  let schema ← (k.registry.schema c.outer.collection).mapError .ofLoad
  (Plan.compile k.settings.dateFieldLocator schema c).mapError .unplannable

def queried (k : Calculator) (c : Configuration) : Outcome := do k.answer (← k.planned c)

def outcome (k : Calculator) : Task → Outcome
  | .only c => k.queried c
  | .share c => do
    let share ← k.queried (numerator c)
    let whole ← k.queried (denominator c)
    return percentage share whole
  | .whole c share => do
    let whole ← k.queried (denominator c)
    return percentage share whole

variable {k : Calculator}

theorem run_schemaOf (collection : String) (p : Progress) :
    (k.schemaOf collection).run.run p =
      (((load k.registry collection).run.run p.loaded).1.mapError .ofLoad,
        { p with loaded := ((load k.registry collection).run.run p.loaded).2 }) := by
  change _ = (((load k.registry collection).run p.loaded).1.mapError CalculationError.ofLoad,
    { p with loaded := ((load k.registry collection).run p.loaded).2 })
  cases hload : (load k.registry collection).run p.loaded with
  | mk result loaded =>
    simp only [schemaOf, run_bind, run_get, hload]
    cases result <;> rfl

theorem gives_schemaOf (collection : String) :
    Gives k.Faithful (k.schemaOf collection)
      ((k.registry.schema collection).mapError .ofLoad) := by
  intro p h
  obtain ⟨hr, hl⟩ := gives_load k.registry collection p.loaded h
  rw [run_schemaOf, hr]
  exact ⟨rfl, hl⟩

theorem gives_compile (c : Configuration) : Gives k.Faithful (k.compile c) (k.planned c) := by
  refine (gives_schemaOf _).bind fun schema _ => ?_
  cases Plan.compile k.settings.dateFieldLocator schema c with
  | ok q => exact .pure q
  | error e => exact .throw _

theorem gives_execute (q : Query) : Gives k.Faithful (k.execute q) (k.answer q) := by
  have hsent : Gives k.Faithful (modify (·.sent q) : Calculate Unit) (.ok ()) :=
    .modify fun _ h => h
  refine hsent.bind (g := fun _ => k.answer q) fun _ _ => ?_
  cases k.answer q with
  | ok value => exact .pure value
  | error e => exact .throw e

theorem gives_query (c : Configuration) : Gives k.Faithful (k.query c) (k.queried c) :=
  (gives_compile c).bind fun q _ => gives_execute q

theorem gives_calculate (c : Configuration) :
    Gives k.Faithful (k.calculate c) (k.outcome (.first c)) := by
  unfold calculate Task.first
  split
  · exact (gives_query _).bind fun _ _ => (gives_query _).bind fun _ _ => .pure _
  · exact gives_query c

theorem faithful_empty : k.Faithful {} := Schema.faithful_empty k.registry

theorem alone_eq (c : Configuration) : k.alone c = k.outcome (.first c) :=
  (gives_calculate c {} faithful_empty).1

end Indicators.Calculation.Calculator
