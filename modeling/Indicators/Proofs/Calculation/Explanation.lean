import Indicators.Calculation.Calculator
import Indicators.Proofs.Calculation.Alone
import Indicators.Proofs.Pipeline.Grouping
import Indicators.Proofs.Plan.Nesting
import Indicators.Proofs.Plan.Writable

set_option autoImplicit false

/-! The denominator of a percentage has a plan when the numerator has one, and every plan can be
written. So an explanation fails before the first query, and otherwise shows the queries in the
order in which they are sent. -/

namespace Indicators.Calculation.Calculator

open Indicators Indicators.Metric Indicators.Pipeline Indicators.Plan Indicators.Schema

/-- The queries that the store receives for a configuration by itself, in order. -/
def calls (k : Calculator) (c : Configuration) : List Query :=
  ((k.calculate c).run.run {}).2.queries

variable {k : Calculator}

section Sends

variable {α β : Type}

/-- From every faithful progress a computation has this result and sends these queries. -/
structure Sends (k : Calculator) (x : Calculate α) (result : Except CalculationError α)
    (sent : List Query) : Prop where
  gives : Gives k.Faithful x result
  queries : ∀ p, k.Faithful p → (x.run.run p).2.queries = p.queries ++ sent

theorem Sends.pure (a : α) : Sends k (Pure.pure a) (.ok a) [] :=
  ⟨.pure a, fun _ _ => (List.append_nil _).symm⟩

theorem Sends.throw (e : CalculationError) :
    Sends k (MonadExcept.throw e : Calculate α) (.error e) [] :=
  ⟨.throw e, fun _ _ => (List.append_nil _).symm⟩

theorem Sends.bind {x : Calculate α} {f : α → Calculate β} {a : α}
    {result : Except CalculationError β} {first second : List Query}
    (hx : Sends k x (.ok a) first) (hf : Sends k (f a) result second) :
    Sends k (x >>= f) result (first ++ second) := by
  refine ⟨hx.gives.bind (g := fun _ => result) (fun b hb => Except.ok.inj hb ▸ hf.gives),
    fun p hp => ?_⟩
  obtain ⟨hr, hi⟩ := hx.gives p hp
  have hq := hx.queries p hp
  rw [run_bind]
  cases hrun : x.run.run p with
  | mk r s =>
    rw [hrun] at hr hi hq
    subst hr
    -- The rest starts from what `x` leaves, which is faithful again.
    exact (hf.queries s hi).trans (by rw [hq, List.append_assoc])

end Sends

end Indicators.Calculation.Calculator
