import Indicators.Json.Basic
import Indicators.Pipeline.Stage

set_option autoImplicit false

/-! Writing fails on the first literal, in the order of writing, that is no finite number. A text
that begins with a dollar sign would read as a path where expressions are allowed, so it is marked
there. -/

namespace Indicators.Pipeline

open Indicators Indicators.Number Indicators.Calendar

inductive EmissionError where
  | nonFinite (value : Binary64)
deriving DecidableEq

def EmissionError.message : EmissionError → String
  | .nonFinite .nan => "Non-finite number literal: NaN"
  | .nonFinite (.infinity true) => "Non-finite number literal: -inf"
  | .nonFinite _ => "Non-finite number literal: inf"

abbrev Emitted (α : Type) := Except EmissionError α

def tagged (name : String) (body : Json) : Json := .object [(name, body)]

def fieldRef (path : String) : Json := .string ("$" ++ path)

def emitTimestamp (t : Timestamp) : Json := tagged "$date" (.string t.write)

def Literal.emit : Literal → Emitted Json
  | .null => .ok .null
  | .bool b => .ok (.bool b)
  | .int i => .ok (.ofInt64 i)
  | .float (.finite x) => .ok (.number (.float x))
  | .float x => .error (.nonFinite x)
  | .string s => .ok (.string s)
  | .timestamp t => .ok (emitTimestamp t)

def Literal.emitOperand : Literal → Emitted Json
  | .string s =>
    .ok (if s.toList.head? = some '$' then tagged "$literal" (.string s) else .string s)
  | v => v.emit

def emitToNumber (operand : Json) : Json :=
  tagged "$convert" <| .ofMembers
    [("input", operand), ("to", .string "double"), ("onError", .null), ("onNull", .null)]

def emitAsArray (operand : Json) : Json :=
  let absent := tagged "$eq" (.array [tagged "$ifNull" (.array [operand, .null]), .null])
  tagged "$cond" (.array [absent, .array [], .array [operand]])

def emitToReference : Json :=
  tagged "$convert" <| .ofMembers
    [("input", .string "$$ref"), ("to", .string "objectId"), ("onError", .string "$$ref"),
      ("onNull", .null)]

def emitToReferences (operand : Json) : Json :=
  let many := tagged "$cond" <|
    .array [tagged "$isArray" operand, operand, emitAsArray operand]
  tagged "$map" (.ofMembers [("input", many), ("as", .string "ref"), ("in", emitToReference)])

def emitFirstElement (operand : Json) : Json :=
  tagged "$cond" <| .array
    [tagged "$isArray" operand, tagged "$arrayElemAt" (.array [operand, .ofNat 0]), .null]

def emitSize (operand : Json) : Json :=
  tagged "$size" (tagged "$ifNull" (.array [operand, .array []]))

mutual

def Expr.emit : Expr → Emitted Json
  | .field path => .ok (fieldRef path)
  | .literal v => v.emitOperand
  | .toNumber e => emitToNumber <$> e.emit
  | .toReferences e => emitToReferences <$> e.emit
  | .firstElement e => emitFirstElement <$> e.emit
  | .coalesce es => (fun items => tagged "$ifNull" (.array items)) <$> Expr.emitList es
  | .size e => emitSize <$> e.emit

def Expr.emitList : List Expr → Emitted (List Json)
  | [] => .ok []
  | e :: es => do return (← e.emit) :: (← Expr.emitList es)

end

mutual

def Predicate.emit : Predicate → Emitted Json
  | .compare path op v => (fun operand => tagged path (tagged op.name operand)) <$> v.emit
  | .compareAsNumber path op v =>
    (fun operand => tagged "$expr" <| tagged op.name <|
      .array [emitToNumber (fieldRef path), operand]) <$> v.emit
  | .between path first last => do
    let least ← first.emit
    let greatest ← last.emit
    return tagged path (.ofMembers [("$gte", least), ("$lte", greatest)])
  | .exists path => .ok (tagged path (tagged "$exists" (.bool true)))
  | .and ps => (fun items => tagged "$and" (.array items)) <$> Predicate.emitList ps
  | .or ps => (fun items => tagged "$or" (.array items)) <$> Predicate.emitList ps

def Predicate.emitList : List Predicate → Emitted (List Json)
  | [] => .ok []
  | p :: ps => do return (← p.emit) :: (← Predicate.emitList ps)

end

def emitFields (fields : List (String × Expr)) : Emitted (List (String × Json)) :=
  fields.mapM fun f => do return (f.1, ← f.2.emit)

def emitKey : Option (List (String × Expr)) → Emitted Json
  | none => .ok .null
  | some fields => .ofMembers <$> emitFields fields

def Aggregate.emit (a : Aggregate) : Emitted (String × Json) := do
  return (a.name, tagged a.func.name (← a.operand.emit))

def emitUnwind (path : String) : Option String → Json
  | none => fieldRef path
  | some index => .ofMembers
    [("path", fieldRef path), ("includeArrayIndex", .string index),
      ("preserveNullAndEmptyArrays", .bool false)]

def Join.emit (join : Join) : Json :=
  tagged "$lookup" <| .ofMembers
    [("from", .string join.source), ("localField", .string join.localField),
      ("foreignField", .string join.foreignField), ("as", .string join.output)]

def Stage.emit : Stage → Emitted Json
  | .filter predicate => tagged "$match" <$> predicate.emit
  | .unwind path index => .ok (tagged "$unwind" (emitUnwind path index))
  | .join spec => .ok spec.emit
  | .group key aggregates => do
    let id ← emitKey key
    let reductions ← aggregates.mapM (·.emit)
    return tagged "$group" (.ofMembers (("_id", id) :: reductions))
  | .project fields keepInput => do
    let computed ← emitFields fields
    return tagged (if keepInput then "$addFields" else "$project") (.ofMembers computed)

def emit (stages : List Stage) : Emitted Json := .array <$> stages.mapM (·.emit)

end Indicators.Pipeline
