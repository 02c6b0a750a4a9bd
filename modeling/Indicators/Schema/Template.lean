import Indicators.Directory
import Indicators.Source.Decode
import Indicators.Text.LetterCase
import Indicators.Yaml.Reader

set_option autoImplicit false

/-! Where names or identifiers repeat in a catalog, the first template counts. -/

namespace Indicators.Schema

open Indicators Indicators.Source

inductive FieldType where
  | string
  | number
  | file
  | date
  | select
  | subform
  | table
deriving DecidableEq, Repr

namespace FieldType

def name : FieldType → String
  | string => "string"
  | number => "number"
  | file => "file"
  | date => "date"
  | select => "select"
  | subform => "subform"
  | table => "table"

def words : List (String × FieldType) :=
  [("string", string), ("text", string), ("textarea", string), ("number", number), ("file", file),
    ("date", date), ("select", select), ("subform", subform), ("table", table)]

def ofWord? (word : String) : Option FieldType := words.lookup (Text.lower word)

end FieldType

structure Field where
  name : String
  type : FieldType
  subFields : List Field
  reference : Option String

structure Section where
  name : String
  fields : List Field

structure Template where
  id : String
  name : String
  /-- The collection that holds the documents, when its name differs. -/
  storage : Option String
  sections : List Section

def Template.physicalCollection (t : Template) : String := t.storage.getD t.name

structure JoinTarget where
  id : String
  collection : String
  physicalCollection : String
deriving DecidableEq, Repr

def Template.target (t : Template) : JoinTarget := ⟨t.id, t.name, t.physicalCollection⟩

structure Catalog where
  templates : List Template

namespace Catalog

def byName (c : Catalog) (name : String) : Option Template :=
  c.templates.find? fun t => t.name == name

def byId (c : Catalog) (id : String) : Option Template :=
  c.templates.find? fun t => t.id == id

end Catalog

def unknownTypeMessage (word : String) : String := "Invalid field type '" ++ word ++ "'"

def FieldType.read (node : Node) : Decoded FieldType := do
  let word ← node.asText
  match ofWord? word with
  | some t => return t
  | none => throw (.rejected (unknownTypeMessage word))

def Field.rules (levels : Nat) (readField : Nat → Node → Decoded Field) :
    List (FieldRule Field) :=
  [.must "name" Node.asText fun v f => { f with name := v },
    .must "type" FieldType.read fun v f => { f with type := v },
    .may "subFields" ["fields"] (Node.asList levels readField) fun v f =>
      { f with subFields := v },
    .may "tableReference" ["dataSource"] (Node.asOptional Node.asText) fun v f =>
      { f with reference := v }]

/-- The levels are spent two at a time, for a field and the list it stands in. -/
def Field.readWithin : (fuel levels : Nat) → Node → Decoded Field
  | fuel + 1, levels + 1, node =>
    node.asRecord (rules levels (Field.readWithin fuel)) ⟨"", .string, [], none⟩
  | _, _, _ => .error .malformed

def Field.read (levels : Nat) (node : Node) : Decoded Field := readWithin levels levels node

def Section.rules (levels : Nat) : List (FieldRule Section) :=
  [.must "name" Node.asText fun v s => { s with name := v },
    .may "fields" [] (Node.asList levels Field.read) fun v s => { s with fields := v }]

def Section.read : (levels : Nat) → Node → Decoded Section
  | 0, _ => .error .malformed
  | levels + 1, node => node.asRecord (rules levels) ⟨"", []⟩

def Template.rules (levels : Nat) : List (FieldRule Template) :=
  [.must "id" Node.asText fun v t => { t with id := v },
    .must "name" Node.asText fun v t => { t with name := v },
    .may "storage" [] (Node.asOptional Node.asText) fun v t => { t with storage := v },
    .may "sections" [] (Node.asList levels Section.read) fun v t => { t with sections := v }]

def Template.read : (levels : Nat) → Node → Decoded Template
  | 0, _ => .error .malformed
  | levels + 1, node => node.asRecord (rules levels) ⟨"", "", none, []⟩

def Catalog.rules (levels : Nat) : List (FieldRule Catalog) :=
  [.must "templates" (Node.asList levels Template.read) fun v _ => ⟨v⟩]

def Catalog.read : (levels : Nat) → Node → Decoded Catalog
  | 0, _ => .error .malformed
  | levels + 1, node => node.asRecord (rules levels) ⟨[]⟩

def Catalog.ofText (text : String) : Decoded Catalog := Yaml.decodeText Catalog.read text

end Indicators.Schema
