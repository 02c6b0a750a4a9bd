import Indicators.Json.Basic

set_option autoImplicit false

/-! A `Node` is what a text says before it is checked against a type: repeated keys are still there,
numbers out of range and strings with impossible escapes are marked, and where the text stops making
sense stands `unreadable`. -/

namespace Indicators.Source

inductive Node where
  | null
  | bool (value : Bool)
  | number (value : Option Json.Number)
  | text (value : Option String)
  /-- A text that may also be read as another scalar, but for a quoted one only as text. -/
  | scalar (text : String) (plain : Bool)
  /-- A list; a positional one may stand for a record, its fields in their declared order. -/
  | list (positional : Bool) (items : List Node)
  | record (entries : List (Node × Node))
  | unreadable

namespace Node

instance : Inhabited Node := ⟨.null⟩

mutual

def readable : Node → Bool
  | .list _ items => readableItems items
  | .record entries => readableEntries entries
  | .unreadable => false
  | _ => true

def readableItems : List Node → Bool
  | [] => true
  | item :: rest => readable item && readableItems rest

def readableEntries : List (Node × Node) → Bool
  | [] => true
  | (key, value) :: rest => readable key && readable value && readableEntries rest

end

mutual

def ofJson : Json → Node
  | .null => .null
  | .bool b => .bool b
  | .number n => .number (some n)
  | .string s => .text (some s)
  | .array items => .list true (ofItems items)
  | .object members => .record (ofMembers members)

def ofItems : List Json → List Node
  | [] => []
  | item :: rest => ofJson item :: ofItems rest

def ofMembers : List (String × Json) → List (Node × Node)
  | [] => []
  | (name, value) :: rest => (.text (some name), ofJson value) :: ofMembers rest

end

end Node

end Indicators.Source
