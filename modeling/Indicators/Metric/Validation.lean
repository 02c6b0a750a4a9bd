import Indicators.Metric.Configuration
import Indicators.Metric.Draft

set_option autoImplicit false

/-! The levels are checked from the outermost inward and the first fault is reported. A level
without a collection or a section path takes those of the level around it. -/

namespace Indicators.Metric

open Indicators Indicators.Calendar Indicators.Pipeline

/-- Why a draft is turned away. Levels count from 0, the outermost. -/
inductive ConfigurationError where
  | missingCollection
  | unknownOperation (name : String)
  | unknownOperator (name : String)
  | missingFieldPath (operation : Operation) (level : Nat)
  | missingParentField (level : Nat)
  | missingConditionField (level : Nat)
  | nestedPercentage (level : Nat)
  | emptyDatePath
  | invalidDate (text : String)
  | invertedDateRange (first last : String)
deriving DecidableEq, Repr

def ConfigurationError.reason : ConfigurationError → String
  | missingCollection => "collection is required"
  | unknownOperation name => "unknown operation '" ++ name ++ "'"
  | unknownOperator name => "unknown operator '" ++ name ++ "'"
  | missingFieldPath operation level =>
    "operation '" ++ operation.name ++ "' at level " ++ toString level ++
      " requires a field path"
  | missingParentField level =>
    "level " ++ toString level ++
      " has a sub-configuration but no field path to descend into"
  | missingConditionField level => "condition at level " ++ toString level ++ " has no field"
  | nestedPercentage level =>
    "percentage is only allowed on the outermost level (found at level " ++ toString level ++ ")"
  | emptyDatePath => "date range needs at least one path segment"
  | invalidDate text => "'" ++ text ++ "' is not a valid date or timestamp"
  | invertedDateRange first last =>
    "date range start " ++ first ++ " is after end " ++ last

def ConfigurationError.message (e : ConfigurationError) : String :=
  "Invalid configuration: " ++ e.reason

abbrev Checked (α : Type) := Except ConfigurationError α

def checkOperation (name : String) : Checked Operation :=
  match Operation.ofName? name with
  | some op => .ok op
  | none => .error (.unknownOperation name)

def checkOperator (word : String) : Checked Comparison :=
  match Comparison.ofWord? word with
  | some op => .ok op
  | none => .error (.unknownOperator word)

def checkTimestamp (text : String) (endOfDay : Bool) : Checked Timestamp :=
  match Timestamp.read? text endOfDay with
  | some t => .ok t
  | none => .error (.invalidDate (Text.trim text))

def DraftCondition.check (level : Nat) (c : DraftCondition) : Checked Condition := do
  let op ← checkOperator c.operator
  match Text.trimmed? c.field with
  | some field => return ⟨field, op, c.value⟩
  | none => throw (.missingConditionField level)

def DraftRange.check (r : DraftRange) : Checked DateRange := do
  let pathSegments := r.pathSegments.filterMap Text.trimmed?
  if pathSegments.isEmpty then throw .emptyDatePath
  let first ← checkTimestamp r.first false
  let last ← checkTimestamp r.last true
  if first.le last then return ⟨pathSegments, first, last⟩
  else throw (.invertedDateRange r.first r.last)

def filled (text : Option String) : Option String := text.bind Text.trimmed?

def checkField (level : Nat) (op : Operation) (hasInner : Bool) (field : Option String) :
    Checked Unit :=
  match field with
  | some _ => .ok ()
  | none =>
    if op.needsField then .error (.missingFieldPath op level)
    else if hasInner then .error (.missingParentField level)
    else .ok ()

def DraftLevel.check (level : Nat) (hasInner : Bool) (collection : String)
    (sectionPath : List String) (l : DraftLevel) : Checked Level := do
  let operation ← checkOperation l.operation
  if 0 < level ∧ operation = .percentage then throw (.nestedPercentage level)
  let fieldPath := filled l.fieldPath
  checkField level operation hasInner fieldPath
  let conditions ← l.conditions.mapM (DraftCondition.check level)
  let sharedConditions ← l.sharedConditions.mapM (·.mapM (DraftCondition.check level))
  let dateRange ← l.dateRange.mapM DraftRange.check
  return {
    collection := (filled l.collection).getD collection
    operation, fieldPath
    sectionPath := if l.sectionPath.isEmpty then sectionPath else l.sectionPath
    conditions, dateRange, sharedConditions
    label := l.label }

def checkLevels (level : Nat) (collection : String) (sectionPath : List String) :
    List DraftLevel → Checked (List Level)
  | [] => .ok []
  | l :: inner => do
    let checked ← l.check level (!inner.isEmpty) collection sectionPath
    return checked ::
      (← checkLevels (level + 1) checked.collection checked.sectionPath inner)

def Draft.check (d : Draft) : Checked Configuration :=
  match filled d.outer.collection with
  | none => .error .missingCollection
  | some collection => do
    let outer ← d.outer.check 0 (!d.inner.isEmpty) collection []
    return ⟨outer, ← checkLevels 1 outer.collection outer.sectionPath d.inner⟩

def Draft.configuration (d : Draft) : Checked Configuration := d.normalize.check

end Indicators.Metric
