import Indicators.Pipeline.Stage
import Indicators.Plan.Layout

set_option autoImplicit false

/-! The innermost group reads the field of its level from each row, and every other one the result
of the group below. All but the outermost keep one document per element of the level above, by the
identifier of its document and the positions of everything unwound above. -/

namespace Indicators.Plan

open Indicators.Metric Indicators.Pipeline

def resultName : String := "result"

def setName : String := "distinctValues"

def documentName : String := "doc"

def dotsToUnderscores (s : String) : String :=
  String.ofList (s.toList.map fun c => if c = '.' then '_' else c)

/-- Where the group of a level writes its result: named after the field that leads to it. -/
def Outline.resultKey (o : Outline) : (level : Nat) → String
  | 0 => resultName
  | above + 1 => "resultOf_" ++ dotsToUnderscores ((o.fields[above]?.join).getD "level")

def accumulatorOf : Operation → Accumulator
  | .count | .percentage | .sum => .sum
  | .average => .avg
  | .max => .max
  | .min => .min
  | .distinct => .addToSet

def counts (op : Operation) : Bool := op == .count || op == .percentage

/-- The operand of the innermost level in a row. Inside a joined document, a list stands for its
first item. -/
def Placement.operand (p : Placement) (op : Operation) : Expr :=
  match p.path with
  | none => .literal .null
  | some path =>
    let stored : Expr :=
      if p.joined then .coalesce [.firstElement (.field path), .field path] else .field path
    if op.isNumeric then .toNumber stored else stored

def innermostOperand (layout : Layout) (level : Nat) (op : Operation) : Expr :=
  match layout.levels[level]? with
  | some placed => placed.operand op
  | none => .literal .null

def Outline.operand (o : Outline) (layout : Layout) (level : Nat) (op : Operation) : Expr :=
  if counts op then .literal (.int 1)
  else if o.isInnermost level then innermostOperand layout level op
  else .field (o.resultKey (level + 1))

/-- The key of a level's group: rows hold its parts themselves, the documents of the group below
hold them inside their identifier. -/
def groupKeyOf (layout : Layout) (innermost : Bool) : (level : Nat) →
    Option (List (String × Expr))
  | 0 => none
  | level =>
    let inside (name : String) : String := if innermost then name else "_id." ++ name
    let document := if innermost then "_id" else "_id." ++ documentName
    some <| (documentName, .field document) ::
      (layout.indexesAbove level).map fun index => (index, .field (inside index))

def Outline.rollup (o : Outline) (layout : Layout) (level : Nat) (op : Operation) : List Stage :=
  let key := o.resultKey level
  let group (name : String) : Stage :=
    .group (groupKeyOf layout (o.isInnermost level) level)
      [⟨accumulatorOf op, o.operand layout level op, name⟩]
  if op = .distinct then [group setName, .project [(key, .size (.field setName))] false]
  else [group key]

def rollupStages (o : Outline) (layout : Layout) : List Stage :=
  (o.operations.mapIdx (o.rollup layout)).reverse.flatten

end Indicators.Plan
