import Indicators.Pipeline.Stage
import Indicators.Plan.Layout

set_option autoImplicit false

/-! The section is selected and its subforms unwound, then every level filters its elements and
leads to those of the next one. -/

namespace Indicators.Plan

open Indicators.Metric Indicators.Pipeline

def Unwinding.stage (u : Unwinding) : Stage := .unwind u.path (some u.index)

def Layout.sectionStages (layout : Layout) : List Stage :=
  (layout.sectionName.map fun name => Stage.filter (.exists name)).toList ++
    layout.sectionUnwindings.map Unwinding.stage

/-- A condition on the elements below a base. A value that reads as a number matches both its text
and its number; for `ne` neither may match. The other operators compare what is stored as a
number, so the text `9` comes before 30. -/
def conditionPredicate (base : String) (c : Condition) : Predicate :=
  let path := within base c.field
  let text := Predicate.compare path c.op (.string c.value)
  match c.number? with
  | none => text
  | some x =>
    let number := Literal.ofNumber x
    match c.op with
    | .eq => .or [text, .compare path .eq number]
    | .ne => .and [text, .compare path .ne number]
    | op => .compareAsNumber path op number

def conditionStages (base : String) (conditions : List Condition) : List Stage :=
  if conditions.isEmpty then []
  else [.filter (.all (conditions.map (conditionPredicate base)))]

def Joining.stages (j : Joining) (path : String) : List Stage :=
  [.project [(j.references, .toReferences (.field path))] true,
    .join ⟨j.target.physicalCollection, j.references, "_id", j.output⟩,
    .unwind j.output (some j.index)]

def Placement.descentStages (p : Placement) : List Stage :=
  match p.descent with
  | .innermost => []
  | .unwind step => [step.stage]
  | .join step => step.stages (p.path.getD "")

def levelStages (outline : Outline) (layout : Layout) : List Stage :=
  (outline.levels.zip layout.levels).flatMap fun (level, placed) =>
    conditionStages placed.base level.conditions ++ placed.descentStages

end Indicators.Plan
