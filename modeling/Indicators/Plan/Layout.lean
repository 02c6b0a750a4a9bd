import Indicators.Pipeline.Path
import Indicators.Plan.Outline
import Indicators.Schema.FieldTypes

set_option autoImplicit false

/-! Where the field of every level lies in the rows, and how one level leads to the next. A level
inside the section is looked up in the field types; below a join the paths begin at the joined
document and are not looked up. -/

namespace Indicators.Plan

open Indicators.Metric Indicators.Pipeline Indicators.Schema

structure Unwinding where
  path : String
  index : String
deriving DecidableEq, Repr

structure Joining where
  target : JoinTarget
  references : String
  output : String
  index : String
deriving DecidableEq, Repr

inductive Descent where
  | innermost
  | unwind (step : Unwinding)
  | join (step : Joining)
deriving DecidableEq, Repr

def Descent.isJoin : Descent → Bool
  | .join _ => true
  | _ => false

def Descent.index? : Descent → Option String
  | .innermost => none
  | .unwind step => some step.index
  | .join step => some step.index

structure Placement where
  base : String
  path : Option String
  kind : FieldKind
  joined : Bool
  descent : Descent

structure Layout where
  sectionName : Option String
  sectionUnwindings : List Unwinding
  levels : List Placement

/-- A configuration that was accepted but cannot become a pipeline. -/
inductive PlanError where
  | unresolvedJoinTarget (level : Nat) (field template : String)
  | missingField (level : Nat)
deriving DecidableEq, Repr

def PlanError.message : PlanError → String
  | unresolvedJoinTarget level field template =>
    "Level " ++ toString level ++ ": field '" ++ field ++ "' references unknown template '" ++
      template ++ "'"
  | missingField level =>
    "Level " ++ toString level ++ ": a field path is required to reach the next level"

structure Position where
  base : String
  /-- The base relative to the section, while it lies inside. -/
  schemaBase : Option String
  joined : Bool

def Position.schemaPath (p : Position) (field : Option String) : Option String := do
  return within (← p.schemaBase) (← field)

def kindOf (types : FieldTypes) (sectionName path : Option String) : FieldKind :=
  (do types.get? (← sectionName) (← path)).getD .scalar

def danglingOf (types : FieldTypes) (sectionName path : Option String) :
    Option (String × String) := do
  return (← path, ← types.dangling? (← sectionName) (← path))

def joinOf (level : Nat) (target : JoinTarget) : Joining :=
  let n := toString level
  ⟨target, "_refs_l" ++ n, "_joined_l" ++ n, "_idx_l" ++ n⟩

/-- The way from a level to the next one, and where that begins. -/
def descend (types : FieldTypes) (sectionName : Option String) (position : Position)
    (level : OutlineLevel) : Except PlanError (Descent × Position) :=
  match level.field with
  | none => .error (.missingField level.index)
  | some field =>
    let path := within position.base field
    let schemaPath := position.schemaPath level.field
    match danglingOf types sectionName schemaPath with
    | some (relative, template) =>
      .error (.unresolvedJoinTarget level.index relative template)
    | none =>
      match kindOf types sectionName schemaPath with
      | .table target =>
        let step := joinOf level.index target
        .ok (.join step, ⟨step.output, none, true⟩)
      | _ =>
        .ok (.unwind ⟨path, "_idx_l" ++ toString level.index⟩, ⟨path, schemaPath, false⟩)

def placeLevels (types : FieldTypes) (sectionName : Option String) (isInnermost : Nat → Bool)
    (position : Position) : List OutlineLevel → Except PlanError (List Placement)
  | [] => .ok []
  | level :: rest => do
    let (descent, next) ←
      if isInnermost level.index then pure (Descent.innermost, { position with joined := false })
      else descend types sectionName position level
    let here : Placement :=
      { base := position.base
        path := level.field.map (within position.base)
        kind := kindOf types sectionName (position.schemaPath level.field)
        joined := position.joined
        descent }
    return here :: (← placeLevels types sectionName isInnermost next rest)

def subformUnwindings (sectionPath : List String) : List Unwinding :=
  (List.range (sectionPath.length - 1)).map fun k =>
    ⟨dotted (sectionPath.take (k + 2)), "_idx_s" ++ toString (k + 1)⟩

def Layout.of? (outline : Outline) (types : FieldTypes) (sectionPath : List String) :
    Except PlanError Layout := do
  let start : Position := ⟨dotted sectionPath, some (dotted (sectionPath.drop 1)), false⟩
  let levels ← placeLevels types sectionPath.head? outline.isInnermost start outline.levels
  return ⟨sectionPath.head?, subformUnwindings sectionPath, levels⟩

/-- The fields that hold the positions of everything unwound above a level, outermost first. -/
def Layout.indexesAbove (layout : Layout) (level : Nat) : List String :=
  layout.sectionUnwindings.map (·.index) ++
    (layout.levels.take level).filterMap (·.descent.index?)

end Indicators.Plan
