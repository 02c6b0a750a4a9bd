import Indicators.Json.Basic

set_option autoImplicit false

/-! Reading fans out over arrays on the way: `valueAt` keeps their nesting, `candidates` lists all
that is reached, and an array at the end of the path together with its items. Writing goes through
objects only and makes those that are missing. -/

namespace Indicators.Pipeline

open Indicators

def cutAtDots : List Char → List Char × List (List Char)
  | [] => ([], [])
  | c :: rest =>
    let (piece, pieces) := cutAtDots rest
    if c = '.' then ([], piece :: pieces) else (c :: piece, pieces)

def segments (path : String) : List String :=
  String.ofList (cutAtDots path.toList).1 :: (cutAtDots path.toList).2.map String.ofList

theorem segments_ne_nil (path : String) : segments path ≠ [] := by simp [segments]

theorem cutAtDots_append (before after : List Char) :
    cutAtDots (before ++ '.' :: after) =
      ((cutAtDots before).1, (cutAtDots before).2 ++
        (cutAtDots after).1 :: (cutAtDots after).2) := by
  induction before with
  | nil => simp [cutAtDots]
  | cons c before ih => by_cases h : c = '.' <;> simp [cutAtDots, ih, h]

theorem segments_append (before after : String) :
    segments (before ++ "." ++ after) = segments before ++ segments after := by
  have dot : ".".toList = ['.'] := rfl
  simp [segments, dot, cutAtDots_append]

def dotted : List String → String
  | [] => ""
  | [name] => name
  | name :: rest => name ++ "." ++ dotted rest

theorem segments_dotted (name : String) (rest : List String) :
    segments (dotted (name :: rest)) = (name :: rest).flatMap segments := by
  induction rest generalizing name with
  | nil => simp [dotted]
  | cons next rest ih =>
    have step : dotted (name :: next :: rest) = name ++ "." ++ dotted (next :: rest) := rfl
    rw [step, segments_append, ih next]
    rfl

def within (outer path : String) : String := if outer = "" then path else outer ++ "." ++ path

mutual

/-- Apply `next` to the member of a name; in an array, to that member of every item, dropping
those that give nothing. -/
def reachMember (name : String) (next : Json → Option Json) : Json → Option Json
  | .object members => (Directory.lookup name members).bind next
  | .array items => some (.array (reachItems name next items))
  | _ => none

def reachItems (name : String) (next : Json → Option Json) : List Json → List Json
  | [] => []
  | item :: rest =>
    match reachMember name next item with
    | some found => found :: reachItems name next rest
    | none => reachItems name next rest

end

def reach : List String → Json → Option Json
  | [] => some
  | name :: rest => reachMember name (reach rest)

def valueAt (path : String) (doc : Json) : Json := (reach (segments path) doc).getD .null

mutual

def listMember (name : String) (next : Json → List Json) : Json → List Json
  | .object members =>
    match Directory.lookup name members with
    | some member => next member
    | none => []
  | .array items => listItems name next items
  | _ => []

def listItems (name : String) (next : Json → List Json) : List Json → List Json
  | [] => []
  | item :: rest => listMember name next item ++ listItems name next rest

end

/-- A value at the end of a path; an array comes after its items. -/
def listEnd : Json → List Json
  | .array items => items ++ [.array items]
  | v => [v]

def listReached : List String → Json → List Json
  | [] => listEnd
  | name :: rest => listMember name (listReached rest)

/-- Every value that a condition on a path is put to. -/
def candidates (path : String) (doc : Json) : List Json := listReached (segments path) doc

def membersOf : Option Json → List (String × Json)
  | some (.object members) => members
  | _ => []

/-- The members after writing a value under names; what is not an object on the way is replaced by
an empty one. -/
def writeMembers : List String → Json → List (String × Json) → List (String × Json)
  | [], _, members => members
  | [name], new, members => Directory.put name new members
  | name :: rest, new, members =>
    Directory.put name
      (.object (writeMembers rest new (membersOf (Directory.lookup name members)))) members

def setField (path : String) (new : Json) : Json → Json
  | .object members => .object (writeMembers (segments path) new members)
  | doc => doc

end Indicators.Pipeline
