import Indicators.Schema.Template

set_option autoImplicit false

/-! A later entry for a path replaces the earlier one. A table field without a known target counts
as a scalar and is marked as dangling. -/

namespace Indicators.Schema

inductive FieldKind where
  | scalar
  | date
  | table (target : JoinTarget)
  | subform
deriving DecidableEq, Repr

structure FieldTypes where
  kinds : Directory (Directory FieldKind) := []
  /-- For every section, the identifiers that paths refer to in vain. -/
  dangling : Directory (Directory String) := []

namespace FieldTypes

def putUnder {α : Type} (outer inner : String) (value : α) (d : Directory (Directory α)) :
    Directory (Directory α) :=
  d.put outer (((d.lookup outer).getD []).put inner value)

def lookupUnder {α : Type} (outer inner : String) (d : Directory (Directory α)) : Option α :=
  (d.lookup outer).bind (Directory.lookup inner)

def get? (t : FieldTypes) (sectionName path : String) : Option FieldKind :=
  lookupUnder sectionName path t.kinds

def insert (t : FieldTypes) (sectionName path : String) (kind : FieldKind) : FieldTypes :=
  { t with kinds := putUnder sectionName path kind t.kinds }

def markDangling (t : FieldTypes) (sectionName path reference : String) : FieldTypes :=
  { t with dangling := putUnder sectionName path reference t.dangling }

def dangling? (t : FieldTypes) (sectionName path : String) : Option String :=
  lookupUnder sectionName path t.dangling

def sectionNames (t : FieldTypes) : List String := t.kinds.names

def paths (t : FieldTypes) (sectionName : String) : List String :=
  ((t.kinds.lookup sectionName).getD []).names

def size (t : FieldTypes) : Nat := t.kinds.foldr (fun s n => s.2.length + n) 0

def isEmpty (t : FieldTypes) : Bool := t.size == 0

theorem lookupUnder_putUnder_self {α : Type} (outer inner : String) (value : α)
    (d : Directory (Directory α)) :
    lookupUnder outer inner (putUnder outer inner value d) = some value := by
  simp [lookupUnder, putUnder, Directory.lookup_put_self]

theorem lookupUnder_putUnder_of_ne {α : Type} {outer inner outer' inner' : String}
    (h : (outer', inner') ≠ (outer, inner)) (value : α) (d : Directory (Directory α)) :
    lookupUnder outer' inner' (putUnder outer inner value d) = lookupUnder outer' inner' d := by
  unfold lookupUnder putUnder
  by_cases ho : outer' = outer
  · subst ho
    have hi : inner' ≠ inner := fun e => h (by rw [e])
    rw [Directory.lookup_put_self, Option.bind_some, Directory.lookup_put_of_ne hi]
    cases Directory.lookup outer' d <;> simp [Directory.lookup]
  · rw [Directory.lookup_put_of_ne ho]

end FieldTypes

mutual

/-- A field and everything reached from it through subforms, each with its dotted path, in the
order of definition. -/
def Field.definitions (before : String) : Field → List (String × Field)
  | ⟨name, type, subFields, reference⟩ =>
    (before ++ name, ⟨name, type, subFields, reference⟩) ::
      if type = .subform then fieldDefinitions (before ++ name ++ ".") subFields else []

def fieldDefinitions (before : String) : List Field → List (String × Field)
  | [] => []
  | field :: rest => field.definitions before ++ fieldDefinitions before rest

end

def sectionDefinitions (sections : List Section) : List (String × String × Field) :=
  sections.flatMap fun s => (fieldDefinitions "" s.fields).map fun d => (s.name, d)

def Field.target? (targets : Directory JoinTarget) (f : Field) : Option JoinTarget :=
  f.reference.bind (Directory.lookup · targets)

def Field.kind (targets : Directory JoinTarget) (f : Field) : FieldKind :=
  match f.type with
  | .subform => .subform
  | .date => .date
  | .table =>
    match f.target? targets with
    | some target => .table target
    | none => .scalar
  | _ => .scalar

def Field.isDangling (targets : Directory JoinTarget) (f : Field) : Bool :=
  f.type == .table && (f.target? targets).isNone

def FieldTypes.record (targets : Directory JoinTarget) (t : FieldTypes)
    (d : String × String × Field) : FieldTypes :=
  let (sectionName, path, field) := d
  let marked :=
    if field.isDangling targets then t.markDangling sectionName path (field.reference.getD "")
    else t
  marked.insert sectionName path (field.kind targets)

/-- The kinds of all paths of a list of sections, with the targets of references by identifier. -/
def resolve (sections : List Section) (targets : Directory JoinTarget) : FieldTypes :=
  (sectionDefinitions sections).foldl (FieldTypes.record targets) {}

mutual

def Field.references : Field → List String
  | ⟨_, type, subFields, reference⟩ =>
    (if type = .table then reference.toList else []) ++ fieldReferences subFields

def fieldReferences : List Field → List String
  | [] => []
  | field :: rest => field.references ++ fieldReferences rest

end

def references (sections : List Section) : List String :=
  Directory.sorted (sections.flatMap fun s => fieldReferences s.fields)

end Indicators.Schema
