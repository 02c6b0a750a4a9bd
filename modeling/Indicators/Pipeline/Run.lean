import Indicators.Pipeline.Evaluate
import Indicators.Pipeline.Stage

set_option autoImplicit false

/-! Documents keep their order, and groups stand in the order of their first documents. -/

namespace Indicators.Pipeline

open Indicators

/-- The position of an item: an integer, or its digits where 64 bits do not hold it. -/
def positionValue (i : Nat) : Json :=
  if Json.Word i then .ofNat i else .string (toString i)

def markIndex (index : Option String) (position : Json) (doc : Json) : Json :=
  match index with
  | some field => setField field position doc
  | none => doc

/-- A document for every item at a path; a single value stands for itself, null for nothing. -/
def unwindDoc (path : String) (index : Option String) (doc : Json) : List Json :=
  match valueAt path doc with
  | .array items =>
    items.mapIdx fun i item => markIndex index (positionValue i) (setField path item doc)
  | .null => []
  | _ => [markIndex index .null doc]

def Join.matched (join : Join) (keys : List Json) (foreign : Json) : Bool :=
  let key := valueAt join.foreignField foreign
  !key.isNull && keys.any fun k => compareValues k key == .eq

def Join.attach (join : Join) (foreign : List Json) (doc : Json) : Json :=
  let keys := manyOf (valueAt join.localField doc)
  setField join.output (.array (foreign.filter (join.matched keys))) doc

def groupKey (key : Option (List (String × Expr))) (doc : Json) : Json :=
  match key with
  | none => .null
  | some fields => .ofMembers (fields.map fun f => (f.1, f.2.eval doc))

/-- The items of every key, keys in the order of their first items. -/
def buckets (key : Json → Json) (docs : List Json) : List (Json × List Json) :=
  let keyed := docs.map fun doc => (key doc, doc)
  (keyed.map (·.1)).eraseDups.map fun k => (k, (keyed.filter (·.1 == k)).map (·.2))

/-- The document of a group. An aggregate named `_id` replaces the key. -/
def groupDoc (aggregates : List Aggregate) (bucket : Json × List Json) : Json :=
  .ofMembers (("_id", bucket.1) :: aggregates.map fun a => (a.name, a.eval bucket.2))

def identifierOf (doc : Json) : Json :=
  match doc.member? "_id" with
  | some id => .object [("_id", id)]
  | none => .object []

/-- All fields are computed from the input document, then written in order. -/
def projectDoc (fields : List (String × Expr)) (keepInput : Bool) (doc : Json) : Json :=
  (fields.map fun f => (f.1, f.2.eval doc)).foldl (fun built f => setField f.1 f.2 built)
    (if keepInput then doc else identifierOf doc)

def Stage.apply (collection : String → List Json) (docs : List Json) : Stage → List Json
  | .filter predicate => docs.filter (predicate.holds ·)
  | .unwind path index => docs.flatMap (unwindDoc path index)
  | .join j => docs.map (j.attach (collection j.source))
  | .group key aggregates => (buckets (groupKey key) docs).map (groupDoc aggregates)
  | .project fields keepInput => docs.map (projectDoc fields keepInput)

def run (collection : String → List Json) (docs : List Json) (stages : List Stage) : List Json :=
  stages.foldl (Stage.apply collection) docs

theorem run_append (collection : String → List Json) (docs : List Json)
    (first second : List Stage) :
    run collection docs (first ++ second) =
      run collection (run collection docs first) second := by
  simp [run]

end Indicators.Pipeline
