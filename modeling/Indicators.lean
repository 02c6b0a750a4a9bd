import Indicators.Calculation.Calculator
import Indicators.Proofs.Plan.Faults
import Indicators.Proofs.Plan.SharedNames
import Indicators.Calendar.Reader
import Indicators.Json.Reader
import Indicators.Proofs.Number.Reading
import Indicators.Proofs.Pipeline.Grouping
import Indicators.Proofs.Calculation.Order
import Indicators.Proofs.Calculation.Batch
import Indicators.Proofs.Calculation.Percentage
import Indicators.Source.MissingFile
import Indicators.Proofs.Pipeline.Emission
import Indicators.Proofs.Plan.Writable
import Indicators.Proofs.Calculation.Explanation
import Indicators.Proofs.Plan.Results
import Indicators.Proofs.Metric.Acceptance
import Indicators.Proofs.Calculation.Leaves
import Indicators.Proofs.Json.Text
import Indicators.Proofs.Calendar.Writing
import Indicators.Proofs.Pipeline.Written
import Indicators.Proofs.Plan.Siblings
import Indicators.Proofs.Schema.Listing
import Indicators.Proofs.Schema.References
import Indicators.Proofs.Plan.Joins
import Indicators.Proofs.Plan.DateFields
import Indicators.Proofs.Plan.DateBounds
import Indicators.Proofs.Pipeline.IntegerOperands
import Indicators.Proofs.Plan.IntegerConditions
import Indicators.Proofs.Plan.DateWindows
import Indicators.Proofs.Number.Alike
import Indicators.Proofs.Pipeline.Spellings
import Indicators.Proofs.Plan.EqualityConditions
import Indicators.Proofs.Calculation.Spellings
import Indicators.Proofs.Pipeline.DistinctValues
import Indicators.Proofs.Pipeline.Partition
import Indicators.Proofs.Pipeline.Operands
import Indicators.Proofs.Store.Identifiers
import Indicators.Proofs.Source.Records
import Indicators.Proofs.Metric.Storage
import Indicators.Proofs.Pipeline.Frame
import Indicators.Proofs.Calculation.Lookups
