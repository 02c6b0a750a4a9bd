import Indicators.Schema.FieldTypes
import Indicators.Store.AccessError

set_option autoImplicit false

/-! A schema is loaded once per collection: the template by its name, then the templates that its
tables refer to by their identifiers. -/

namespace Indicators

structure Schema where
  template : Schema.Template
  types : Schema.FieldTypes

end Indicators

namespace Indicators.Schema

open Indicators.Store

/-- A catalog that may refuse to answer for some names and identifiers. -/
structure Registry where
  catalog : Catalog
  failing : List String := []

namespace Registry

def find {α : Type} (r : Registry) (key : String) (answer : Catalog → Option α) :
    Except AccessError (Option α) :=
  if r.failing.contains key then .error (.registryUnreadable key) else .ok (answer r.catalog)

def byName (r : Registry) (name : String) : Except AccessError (Option Template) :=
  r.find name fun c => c.byName name

def byId (r : Registry) (id : String) : Except AccessError (Option Template) :=
  r.find id fun c => c.byId id

end Registry

inductive LoadError where
  | templateNotFound (collection : String)
  | unreadable (error : AccessError)
deriving DecidableEq, Repr

def LoadError.message : LoadError → String
  | templateNotFound collection =>
    "Template not found for collection '" ++ collection ++ "'"
  | unreadable error => "Template registry error: " ++ error.message

/-- The schemas loaded so far, by collection, and the number of answered look-ups. -/
structure Loaded where
  schemas : Directory Schema := []
  lookups : Nat := 0

def Loaded.keep (l : Loaded) (collection : String) (schema : Schema) : Loaded :=
  match l.schemas.lookup collection with
  | some _ => l
  | none => { l with schemas := l.schemas.put collection schema }

/-- Loading goes on from what is loaded, also after a failure. -/
abbrev Loading (α : Type) := ExceptT LoadError (StateM Loaded) α

def answered {α : Type} : Except AccessError α → Loading α
  | .ok value => do
    modify fun l => { l with lookups := l.lookups + 1 }
    return value
  | .error e => throw (.unreadable e)

def loadTargets (r : Registry) : List String → Loading (Directory JoinTarget)
  | [] => return []
  | id :: rest => do
    let found ← answered (r.byId id)
    let targets ← loadTargets r rest
    return match found with
      | some template => targets.put id template.target
      | none => targets

def loadAnew (r : Registry) (collection : String) : Loading Schema := do
  match ← answered (r.byName collection) with
  | none => throw (.templateNotFound collection)
  | some template =>
    let targets ← loadTargets r (references template.sections)
    let schema : Schema := ⟨template, resolve template.sections targets⟩
    modify fun l => l.keep collection schema
    return schema

def load (r : Registry) (collection : String) : Loading Schema := do
  match (← get).schemas.lookup collection with
  | some schema => return schema
  | none => loadAnew r collection

end Indicators.Schema
