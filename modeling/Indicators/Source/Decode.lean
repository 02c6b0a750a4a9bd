import Indicators.Source.Node

set_option autoImplicit false

/-! Readers take the number of nested lists and records they may still enter; a node below that
depth is malformed. The first fault in the order of the text is the result: one of the form, which
has no wording of its own, or a value that the data's own rules turn away. -/

namespace Indicators.Source

open Indicators

inductive DecodeError where
  | malformed
  | rejected (message : String)
deriving DecidableEq, Repr

abbrev Decoded (α : Type) := Except DecodeError α

/-- One field of a record under construction: the names it goes by, whether it must be given, and
how its value changes the record. -/
structure FieldRule (σ : Type) where
  name : String
  aliases : List String
  required : Bool
  read : Node → Decoded (σ → σ)

namespace FieldRule

def must {σ α : Type} (name : String) (read : Node → Decoded α) (set : α → σ → σ) :
    FieldRule σ :=
  ⟨name, [], true, fun node => set <$> read node⟩

def may {σ α : Type} (name : String) (aliases : List String) (read : Node → Decoded α)
    (set : α → σ → σ) : FieldRule σ :=
  ⟨name, aliases, false, fun node => set <$> read node⟩

def goesBy {σ : Type} (rule : FieldRule σ) (name : String) : Bool :=
  rule.name == name || rule.aliases.contains name

end FieldRule

namespace Node

def asText : Node → Decoded String
  | .text (some s) => .ok s
  | .scalar s _ => .ok s
  | _ => .error .malformed

def absentWords : List String := ["", "~", "null", "Null", "NULL"]

def isAbsent : Node → Bool
  | .null => true
  | .scalar s true => absentWords.contains s
  | _ => false

def asOptional {α : Type} (read : Node → Decoded α) (node : Node) : Decoded (Option α) :=
  if node.isAbsent then .ok none else some <$> read node

def asList {α : Type} (levels : Nat) (read : Nat → Node → Decoded α) : Node → Decoded (List α)
  | .list _ items =>
    match levels with
    | 0 => .error .malformed
    | levels + 1 => items.mapM (read levels)
  | .scalar "" true => .ok []
  | _ => .error .malformed

/-- Entries in order: an unknown key is passed over, a known one may come once, and at the end
every required field must have come. -/
def readEntries {σ : Type} (rules : List (FieldRule σ)) :
    List (Node × Node) → List String → σ → Decoded σ
  | [], seen, built =>
    if rules.all fun rule => !rule.required || seen.contains rule.name then .ok built
    else .error .malformed
  | (key, value) :: rest, seen, built => do
    let name ← key.asText
    match rules.find? (·.goesBy name) with
    | none => if value.readable then readEntries rules rest seen built else .error .malformed
    | some rule =>
      if seen.contains rule.name then .error .malformed
      else
        let change ← rule.read value
        readEntries rules rest (rule.name :: seen) (change built)

/-- Items in the order of the fields; missing ones at the end must not be required. -/
def readPositions {σ : Type} : List (FieldRule σ) → List Node → σ → Decoded σ
  | [], [], built => .ok built
  | [], _ :: _, _ => .error .malformed
  | rule :: rules, [], built =>
    if rule.required then .error .malformed else readPositions rules [] built
  | rule :: rules, item :: items, built => do
    let change ← rule.read item
    readPositions rules items (change built)

/-- A record by its keys, or by position where the list allows it; nothing at all is a record
without entries. -/
def asRecord {σ : Type} (rules : List (FieldRule σ)) (start : σ) : Node → Decoded σ
  | .record entries => readEntries rules entries [] start
  | .list true items => readPositions rules items start
  | .scalar "" true => readEntries rules [] [] start
  | _ => .error .malformed

mutual

def asJson (levels : Nat) : Node → Decoded Json
  | .null => .ok .null
  | .bool b => .ok (.bool b)
  | .number (some n) => .ok (.number n)
  | .text (some s) => .ok (.string s)
  | .scalar s _ => .ok (.string s)
  | .list _ items =>
    match levels with
    | 0 => .error .malformed
    | levels + 1 => .array <$> asItems levels items
  | .record entries =>
    match levels with
    | 0 => .error .malformed
    | levels + 1 => .ofMembers <$> asMembers levels entries
  | .number none => .error .malformed
  | .text none => .error .malformed
  | .unreadable => .error .malformed

def asItems (levels : Nat) : List Node → Decoded (List Json)
  | [] => .ok []
  | item :: rest => do return (← asJson levels item) :: (← asItems levels rest)

def asMembers (levels : Nat) : List (Node × Node) → Decoded (List (String × Json))
  | [] => .ok []
  | (key, value) :: rest => do
    let name ← key.asText
    return (name, ← asJson levels value) :: (← asMembers levels rest)

end

end Node

def decodeValue {α : Type} (read : Nat → Node → Decoded α) (value : Json) : Decoded α :=
  read (value.height + 1) (.ofJson value)

end Indicators.Source
