import Indicators.Calendar.Timestamp
import Indicators.Number.Binary64

set_option autoImplicit false

namespace Indicators.Pipeline

open Indicators.Number Indicators.Calendar

inductive Literal where
  | null
  | bool (value : Bool)
  | int (value : Int64)
  | float (value : Binary64)
  | string (value : String)
  | timestamp (value : Timestamp)

/-- A number without fraction part that fits 64 signed bits. -/
def wholeInt? (x : Binary64) : Option Int :=
  match x with
  | .finite x => if x.isWhole && x.units < 0x8000000000000000 * one then some x.truncate else none
  | _ => none

def Literal.ofNumber (x : Binary64) : Literal :=
  match wholeInt? x with
  | some i => .int (Int64.ofInt i)
  | none => .float x

inductive Comparison where
  | eq
  | ne
  | lt
  | gt
  | le
  | ge
deriving DecidableEq, Repr

namespace Comparison

def all : List Comparison := [eq, gt, lt, ne, ge, le]

def word : Comparison → String
  | eq => "eq"
  | ne => "ne"
  | lt => "lt"
  | gt => "gt"
  | le => "lte"
  | ge => "gte"

def ofWord? (word : String) : Option Comparison := all.find? (·.word == word)

def name (op : Comparison) : String := "$" ++ op.word

theorem ofWord?_word (op : Comparison) : ofWord? op.word = some op := by
  cases op <;> decide

def holds : Comparison → Ordering → Bool
  | eq, o => o == .eq
  | ne, o => o != .eq
  | lt, o => o == .lt
  | gt, o => o == .gt
  | le, o => o != .gt
  | ge, o => o != .lt

end Comparison

inductive Expr where
  | field (path : String)
  | literal (value : Literal)
  | toNumber (operand : Expr)
  /-- The stored references of the operand, one or many, as an array. -/
  | toReferences (operand : Expr)
  | firstElement (operand : Expr)
  | coalesce (operands : List Expr)
  | size (operand : Expr)

inductive Predicate where
  | compare (path : String) (op : Comparison) (value : Literal)
  /-- Compare what is stored as a number; what does not read as one never matches. -/
  | compareAsNumber (path : String) (op : Comparison) (value : Literal)
  | between (path : String) (first last : Literal)
  | exists (path : String)
  | and (parts : List Predicate)
  | or (parts : List Predicate)

def Predicate.all : List Predicate → Predicate
  | [p] => p
  | ps => .and ps

inductive Accumulator where
  | sum
  | avg
  | max
  | min
  | addToSet
deriving DecidableEq, Repr

def Accumulator.name : Accumulator → String
  | sum => "$sum"
  | avg => "$avg"
  | max => "$max"
  | min => "$min"
  | addToSet => "$addToSet"

structure Aggregate where
  func : Accumulator
  operand : Expr
  name : String

end Indicators.Pipeline
