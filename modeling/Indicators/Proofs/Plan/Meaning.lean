import Indicators.Pipeline.Run
import Indicators.Plan.Compile
import Indicators.Proofs.Number.Integers

set_option autoImplicit false

/-! The value of a configuration by recursion over its levels, with no stages, positions or keys. An
element that meets its conditions contributes its operand on the innermost level, and on the others
one value for each child that has any contribution. -/

namespace Indicators.Plan

open Indicators Indicators.Metric Indicators.Number Indicators.Pipeline Indicators.Schema

def meets (c : Condition) (element : Json) : Bool :=
  let stored := candidates c.field element
  let asText := stored.any (related .eq · (.string c.value))
  match c.number?, c.op with
  | none, .ne => !asText
  | none, op => stored.any (related op · (.string c.value))
  | some x, .eq => asText || stored.any (related .eq · (.ofNumber x))
  | some x, .ne => !asText && !stored.any (related .eq · (.ofNumber x))
  | some x, op => stored.any fun v => related op (asNumber v) (.ofNumber x)

def refersTo (stored document : Json) : Bool :=
  let id := valueAt "_id" document
  !id.isNull && (manyOf stored).any fun r => compareValues (asReference r) id == .eq

/-- The elements below a stored value: the documents that a table refers to, in the order of their
collection, or else the items. -/
def children (collection : String → List Json) (kind : FieldKind) (stored : Json) : List Json :=
  match kind with
  | .table target => (collection target.physicalCollection).filter (refersTo stored)
  | _ => manyOf stored

/-- What an innermost element has to be reduced. In a joined document a list stands for its first
item, unless that is null. -/
def operandOf (joined : Bool) (l : Level) (element : Json) : Json :=
  match l.fieldPath with
  | none => .null
  | some field =>
    let stored := valueAt field element
    let single := if joined && !(firstItem stored).isNull then firstItem stored else stored
    if l.operation.isNumeric then asNumber single else single

/-- The value of an operation. A count is held as a float while it is made. -/
def reduction (op : Operation) (values : List Json) : Json :=
  match op with
  | .count | .percentage => .ofNat (min values.length exactLimit)
  | .sum => sumOf values
  | .average => meanOf values
  | .max => reduceWith laterMax (presentOf values)
  | .min => reduceWith earlierMin (presentOf values)
  | .distinct => .ofNat (distinctOf values).length

def reduced (op : Operation) (values : List Json) : Option Json :=
  if values.isEmpty then none else some (reduction op values)

def joins : FieldKind → Bool
  | .table _ => true
  | _ => false

def pathInside (inside field : Option String) : Option String := do
  return within (← inside) (← field)

/-- What an element of the first of the levels contributes. `inside` is the path of the element in
its section. -/
def contributions (collection : String → List Json) (types : FieldTypes)
    (sectionName : Option String) (inside : Option String) (joined : Bool) :
    List Level → Json → List Json
  | [], _ => []
  | l :: inner, element =>
    if l.conditions.all (meets · element) then
      match inner with
      | [] => [operandOf joined l element]
      | next :: _ =>
        let path := pathInside inside l.fieldPath
        let kind := kindOf types sectionName path
        let below := contributions collection types sectionName
          (if joins kind then none else path) (joins kind) inner
        (children collection kind (valueAt (l.fieldPath.getD "") element)).filterMap fun child =>
          reduced next.operation (below child)
    else []

def openChain (elements : List Json) (chain : List String) : List Json :=
  chain.foldl (fun elements name => elements.flatMap fun e => manyOf (valueAt name e)) elements

/-- What lies in the section of a document, every subform of the chain opened. -/
def sectionElements : (sectionPath : List String) → Json → List Json
  | [], doc => [doc]
  | first :: chain, doc =>
    if (candidates first doc).isEmpty then [] else openChain [valueAt first doc] chain

def inRange (locator : DateLocator) (types : FieldTypes) (sectionPath : List String)
    (range : DateRange) (doc : Json) : Bool :=
  (candidates (locateDateField locator types sectionPath range.pathSegments) doc).any fun stored =>
    (storedTimestamp stored).any fun t => range.first.le t && t.le range.last

def documentContributions (collection : String → List Json) (locator : DateLocator)
    (types : FieldTypes) (c : Configuration) (doc : Json) : List Json :=
  let sectionPath := c.outer.sectionPath
  if c.effectiveDateRange.all (inRange locator types sectionPath · doc) then
    (sectionElements sectionPath doc).flatMap
      (contributions collection types sectionPath.head? (some (dotted (sectionPath.drop 1))) false
        c.toList)
  else []

/-- The value of a configuration, none when nothing contributes. -/
def meaning (collection : String → List Json) (locator : DateLocator) (types : FieldTypes)
    (c : Configuration) (docs : List Json) : Option Json :=
  reduced c.outer.operation (docs.flatMap (documentContributions collection locator types c))

def resultDocs (value : Option Json) : List Json :=
  (value.map fun v => Json.object [("_id", .null), (resultName, v)]).toList

end Indicators.Plan
