import Indicators.Pipeline.Path
import Indicators.Pipeline.Value

set_option autoImplicit false

/-! A predicate on a path holds when it holds of one of the path's candidates, except that `ne`
holds when no candidate is equal. -/

namespace Indicators.Pipeline

open Indicators Indicators.Number

def firstItem : Json → Json
  | .array (item :: _) => item
  | _ => .null

def itemCount : Json → Json
  | .array items => .ofNat items.length
  | _ => .null

mutual

def Expr.eval (doc : Json) : Expr → Json
  | .field path => valueAt path doc
  | .literal v => literalValue v
  | .toNumber e => asNumber (e.eval doc)
  | .toReferences e => .array ((manyOf (e.eval doc)).map asReference)
  | .firstElement e => firstItem (e.eval doc)
  | .coalesce es => Expr.evalFirst doc es
  | .size e => itemCount (e.eval doc)

def Expr.evalFirst (doc : Json) : List Expr → Json
  | [] => .null
  | e :: es => if (e.eval doc).isNull then Expr.evalFirst doc es else e.eval doc

end

def related (op : Comparison) (stored : Json) (literal : Literal) : Bool :=
  (compareLiteral stored literal).any op.holds

mutual

def Predicate.holds (doc : Json) : Predicate → Bool
  | .compare path .ne v => !(candidates path doc).any (related .eq · v)
  | .compare path op v => (candidates path doc).any (related op · v)
  | .compareAsNumber path op v => (candidates path doc).any fun c => related op (asNumber c) v
  | .between path first last =>
    (candidates path doc).any fun c => related .ge c first && related .le c last
  | .exists path => !(candidates path doc).isEmpty
  | .and ps => Predicate.holdAll doc ps
  | .or ps => Predicate.holdAny doc ps

def Predicate.holdAll (doc : Json) : List Predicate → Bool
  | [] => true
  | p :: ps => p.holds doc && Predicate.holdAll doc ps

def Predicate.holdAny (doc : Json) : List Predicate → Bool
  | [] => false
  | p :: ps => p.holds doc || Predicate.holdAny doc ps

end

theorem Predicate.holdAll_eq (doc : Json) (ps : List Predicate) :
    Predicate.holdAll doc ps = ps.all (·.holds doc) := by
  induction ps with
  | nil => rfl
  | cons p ps ih => simp [Predicate.holdAll, ih]

theorem Predicate.holdAny_eq (doc : Json) (ps : List Predicate) :
    Predicate.holdAny doc ps = ps.any (·.holds doc) := by
  induction ps with
  | nil => rfl
  | cons p ps ih => simp [Predicate.holdAny, ih]

theorem Predicate.holds_all (doc : Json) (ps : List Predicate) :
    (Predicate.all ps).holds doc = ps.all (·.holds doc) := by
  match ps with
  | [] => rfl
  | [p] => simp [Predicate.all]
  | p :: q :: ps => rw [Predicate.all, Predicate.holds, Predicate.holdAll_eq]; simp

def numbersOf (values : List Json) : List Json.Number :=
  values.filterMap fun
    | .number n => some n
    | _ => none

/-- The float sum of numbers in their order; an integer when all of them are integers. -/
def sumOf (values : List Json) : Json :=
  let numbers := numbersOf values
  let total := numbers.foldl (fun total n => total + n.toBinary64) (.zero false)
  if numbers.all (·.isInt) then numberValue total else .ofBinary64 total

def meanOf (values : List Json) : Json :=
  match numbersOf values with
  | [] => .null
  | numbers =>
    let total := numbers.foldl (fun total n => total + n.toBinary64) (.zero true)
    .ofBinary64 (total / Binary64.ofInt numbers.length)

def presentOf (values : List Json) : List Json := values.filter (!·.isNull)

/-- Of two values the greater one, the second when they are equal. -/
def laterMax (a b : Json) : Json := if compareValues a b = .gt then a else b

/-- Of two values the lesser one, the first when they are equal. -/
def earlierMin (a b : Json) : Json := if compareValues a b = .gt then b else a

def reduceWith (choose : Json → Json → Json) : List Json → Json
  | [] => .null
  | v :: vs => vs.foldl choose v

def distinctOf (values : List Json) : List Json :=
  (presentOf values).eraseDupsBy fun a b => setKey a == setKey b

def Accumulator.reduce (values : List Json) : Accumulator → Json
  | .sum => sumOf values
  | .avg => meanOf values
  | .max => reduceWith laterMax (presentOf values)
  | .min => reduceWith earlierMin (presentOf values)
  | .addToSet => .array (distinctOf values)

def Aggregate.eval (a : Aggregate) (docs : List Json) : Json :=
  a.func.reduce (docs.map (a.operand.eval ·))

end Indicators.Pipeline
