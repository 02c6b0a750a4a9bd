import Indicators.Pipeline.Expr

set_option autoImplicit false

namespace Indicators.Pipeline

/-- Attach to every document, under `output`, the documents of another collection whose
`foreignField` equals the local value or one of its items. -/
structure Join where
  source : String
  localField : String
  foreignField : String
  output : String
deriving DecidableEq, Repr

inductive Stage where
  | filter (predicate : Predicate)
  /-- One document for every item of an array, its position written to `index`; documents
  without a value are dropped. -/
  | unwind (path : String) (index : Option String)
  | join (spec : Join)
  /-- One document for every key, or for all documents together when there is no key. -/
  | group (key : Option (List (String × Expr))) (aggregates : List Aggregate)
  | project (fields : List (String × Expr)) (keepInput : Bool)

end Indicators.Pipeline
