import Indicators.Json.Text
import Indicators.Metric.Levels
import Indicators.Source.Decode
import Indicators.Text.Blank
import Indicators.Text.LetterCase

set_option autoImplicit false

/-! A metric as it is written down, before its words are checked. `Draft.json` writes a draft and
`Draft.read` takes it back; reading also accepts a single text for a list of sections and any scalar
for the value of a condition. -/

namespace Indicators.Metric

open Indicators Indicators.Source

structure DraftCondition where
  field : String
  operator : String
  value : String
deriving DecidableEq, Repr

structure DraftRange where
  pathSegments : List String
  first : String
  last : String
deriving DecidableEq, Repr

structure DraftLevel where
  collection : Option String := none
  operation : String := ""
  fieldPath : Option String := none
  sectionPath : List String := []
  conditions : List DraftCondition := []
  dateRange : Option DraftRange := none
  sharedConditions : Option (List DraftCondition) := none
  label : Option String := none
deriving DecidableEq, Repr

abbrev Draft := Levels DraftLevel

def normalWord (word : String) : String := Text.lower (Text.trim word)

def DraftCondition.normalize (c : DraftCondition) : DraftCondition :=
  { c with operator := normalWord c.operator }

def DraftLevel.normalize (l : DraftLevel) : DraftLevel :=
  { l with
    operation := normalWord l.operation
    conditions := l.conditions.map DraftCondition.normalize
    sharedConditions := l.sharedConditions.map (·.map DraftCondition.normalize) }

def Draft.normalize (d : Draft) : Draft := d.map DraftLevel.normalize

def texts (items : List String) : Json := .array (items.map .string)

def present {α : Type} (name : String) (write : α → Json) (value : Option α) :
    List (String × Json) :=
  (value.map fun v => (name, write v)).toList

def nonempty {α : Type} (name : String) (write : List α → Json) (items : List α) :
    List (String × Json) :=
  if items.isEmpty then [] else [(name, write items)]

def DraftCondition.json (c : DraftCondition) : Json :=
  .ofMembers
    [("field", .string c.field), ("operator", .string c.operator), ("value", .string c.value)]

def conditionsJson (items : List DraftCondition) : Json := .array (items.map DraftCondition.json)

def DraftRange.json (r : DraftRange) : Json :=
  .ofMembers
    [("pathSegments", texts r.pathSegments), ("start", .string r.first), ("end", .string r.last)]

def DraftLevel.json (l : DraftLevel) (sub : Option Json) : Json :=
  .ofMembers <|
    present "collection" Json.string l.collection ++ [("operation", .string l.operation)] ++
      present "fieldPath" Json.string l.fieldPath ++ nonempty "sectionPath" texts l.sectionPath ++
      nonempty "conditions" conditionsJson l.conditions ++ present "subConfiguration" id sub ++
      present "dateRangeFilter" DraftRange.json l.dateRange ++
      present "sharedConditions" conditionsJson l.sharedConditions ++
      present "label" Json.string l.label

def levelsJson : List DraftLevel → Option Json
  | [] => none
  | l :: inner => some (l.json (levelsJson inner))

/-- Absent values and empty lists of sections and conditions are left out. -/
def Draft.json (d : Draft) : Json := d.outer.json (levelsJson d.inner)

/-- One text or a list of texts; the empty text is no section. -/
def readSectionPath (levels : Nat) (node : Node) : Decoded (List String) :=
  match node with
  | .null => .ok []
  | .text (some s) => .ok (if s = "" then [] else [s])
  | node => node.asList levels fun _ => Node.asText

def readConditionValue (levels : Nat) (node : Node) : Decoded String := do
  match ← node.asJson levels with
  | .string s => return s
  | .null => return ""
  | .array items => throw (.rejected (scalarExpected (.array items)))
  | .object members => throw (.rejected (scalarExpected (.object members)))
  | scalar => return scalar.text
where
  scalarExpected (value : Json) : String := "condition value must be a scalar, got " ++ value.text

def DraftCondition.rules (levels : Nat) : List (FieldRule DraftCondition) :=
  [.must "field" Node.asText fun v c => { c with field := v },
    .must "operator" Node.asText fun v c => { c with operator := v },
    .must "value" (readConditionValue levels) fun v c => { c with value := v }]

def DraftCondition.read : (levels : Nat) → Node → Decoded DraftCondition
  | 0, _ => .error .malformed
  | levels + 1, node => node.asRecord (rules levels) ⟨"", "", ""⟩

def DraftRange.rules (levels : Nat) : List (FieldRule DraftRange) :=
  [.must "pathSegments" (Node.asList levels fun _ => Node.asText) fun v r =>
      { r with pathSegments := v },
    .must "start" Node.asText fun v r => { r with first := v },
    .must "end" Node.asText fun v r => { r with last := v }]

def DraftRange.read : (levels : Nat) → Node → Decoded DraftRange
  | 0, _ => .error .malformed
  | levels + 1, node => node.asRecord (rules levels) ⟨[], "", ""⟩

def Draft.onOuter (f : DraftLevel → DraftLevel) (d : Draft) : Draft :=
  { d with outer := f d.outer }

def Draft.rules (levels : Nat) (readSub : Node → Decoded Draft) : List (FieldRule Draft) :=
  let conditions := Node.asList levels DraftCondition.read
  [.may "collection" [] (Node.asOptional Node.asText) fun v =>
      onOuter fun l => { l with collection := v },
    .may "operation" [] Node.asText fun v => onOuter fun l => { l with operation := v },
    .may "fieldPath" ["field"] (Node.asOptional Node.asText) fun v =>
      onOuter fun l => { l with fieldPath := v },
    .may "sectionPath" [] (readSectionPath levels) fun v =>
      onOuter fun l => { l with sectionPath := v },
    .may "conditions" [] conditions fun v => onOuter fun l => { l with conditions := v },
    .may "subConfiguration" ["subConfiguracion"] (Node.asOptional readSub) fun v d =>
      .under d.outer v,
    .may "dateRangeFilter" [] (Node.asOptional (DraftRange.read levels)) fun v =>
      onOuter fun l => { l with dateRange := v },
    .may "sharedConditions" [] (Node.asOptional conditions) fun v =>
      onOuter fun l => { l with sharedConditions := v },
    .may "label" [] (Node.asOptional Node.asText) fun v => onOuter fun l => { l with label := v }]

def Draft.read : (levels : Nat) → Node → Decoded Draft
  | 0, _ => .error .malformed
  | levels + 1, node => node.asRecord (Draft.rules levels (Draft.read levels)) ⟨{}, []⟩

end Indicators.Metric
