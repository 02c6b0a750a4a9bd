import Indicators.Calendar.Reader
import Indicators.Json.Equality
import Indicators.Json.Text
import Indicators.Pipeline.Expr
import Indicators.Text.Blank

set_option autoImplicit false

/-! A document may store a number as text, a reference as an object with an `$oid`, and a moment as
text, milliseconds or an object with a `$date`. -/

namespace Indicators.Pipeline

open Indicators Indicators.Number Indicators.Calendar

/-- The value of a number: an integer wherever it is one, null when it is not finite. -/
def numberValue (x : Binary64) : Json :=
  match wholeInt? x with
  | some i => .ofInt i
  | none => .ofBinary64 x

def literalValue : Literal → Json
  | .null => .null
  | .bool b => .bool b
  | .int i => .ofInt64 i
  | .float x => .ofBinary64 x
  | .string s => .string s
  | .timestamp t => .string t.write

def readFinite? (text : String) : Option Binary64 :=
  (Binary64.read? text).filter Binary64.isFinite

/-- Numbers as they are, texts that read as one, and truth values as 1 and 0. -/
def asNumber : Json → Json
  | .number n => .number n
  | .string s =>
    match readFinite? (Text.trim s) with
    | some x => numberValue x
    | none => .null
  | .bool b => .ofInt (if b then 1 else 0)
  | _ => .null

/-- The text of an identifier object, anything else as it is. -/
def asReference (stored : Json) : Json :=
  match stored.member? "$oid" with
  | some (.string id) => .string id
  | _ => stored

def manyOf : Json → List Json
  | .null => []
  | .array items => items
  | v => [v]

mutual

def storedTimestamp : Json → Option Timestamp
  | .string s => Timestamp.read? s false
  | .number n => n.toInt64?.bind Timestamp.ofMillis?
  | .object members => datedMember members
  | _ => none

def datedMember : List (String × Json) → Option Timestamp
  | [] => none
  | (name, stored) :: rest =>
    if name = "$date" then storedTimestamp stored else datedMember rest

end

def compareLiteral : Json → Literal → Option Ordering
  | .null, .null => some .eq
  | .number n, .int i => n.toBinary64.compare? (Binary64.ofInt i.toInt)
  | .number n, .float x => n.toBinary64.compare? x
  | .string s, .string t => some (compare s t)
  | .bool a, .bool b => some (compare a b)
  | stored, .timestamp t => (storedTimestamp stored).map (·.compare t)
  | _, _ => none

/-- Null, numbers, strings, objects, arrays, truth values. -/
def typeRank : Json → Nat
  | .null => 0
  | .number _ => 1
  | .string _ => 2
  | .object _ => 3
  | .array _ => 4
  | .bool _ => 5

def compareValues : Json → Json → Ordering
  | .number a, .number b => (a.toBinary64.compare? b.toBinary64).getD .eq
  | .string a, .string b => compare a b
  | .bool a, .bool b => compare a b
  | .object a, .object b => compare (Json.text (.object a)) (Json.text (.object b))
  | .array a, .array b => compare (Json.text (.array a)) (Json.text (.array b))
  | a, b => compare (typeRank a) (typeRank b)

/-- What a value counts as in a set: a float without fraction part is its integer. -/
def setKey : Json → Json
  | .number (.float x) => numberValue (.finite x)
  | v => v

end Indicators.Pipeline
