import Indicators.Directory
import Indicators.Number.Decimal

set_option autoImplicit false

/-! An integer of 64 bits, signed or unsigned, and a finite float are different values even where
they are numerically equal. The members of an object form a directory. -/

namespace Indicators.Json

open Indicators.Number

/-- The integers a number can hold exactly: those of 64 bits, signed or unsigned. -/
def Word (i : Int) : Prop := -0x8000000000000000 ≤ i ∧ i < 0x10000000000000000

instance (i : Int) : Decidable (Word i) := inferInstanceAs (Decidable (_ ∧ _))

inductive Number where
  | int (value : Int) (word : Word value)
  | float (value : Finite64)
deriving DecidableEq

end Indicators.Json

namespace Indicators

inductive Json where
  | null
  | bool (value : Bool)
  | number (value : Json.Number)
  | string (value : String)
  | array (items : List Json)
  | object (members : List (String × Json))

end Indicators

namespace Indicators.Json

open Indicators.Number

instance : Inhabited Json := ⟨.null⟩

namespace Number

def toBinary64 : Number → Binary64
  | .int i _ => Binary64.ofInt i
  | .float x => .finite x

def toInt64? : Number → Option Int
  | .int i _ => if i < 0x8000000000000000 then some i else none
  | .float _ => none

def isInt : Number → Bool
  | .int _ _ => true
  | .float _ => false

end Number

theorem word_int64 (i : Int64) : Word i.toInt := by
  have h1 := i.minValue_le_toInt
  have h2 := i.toInt_le
  unfold Word
  simp [Int64.toInt_maxValue] at h1 h2
  omega

def ofInt64 (i : Int64) : Json := .number (.int i.toInt (word_int64 i))

/-- An integer as a value; beyond 64 bits, the nearest float or, past those, null. -/
def ofInt (i : Int) : Json :=
  if h : Word i then .number (.int i h)
  else match Binary64.ofInt i with
    | .finite x => .number (.float x)
    | _ => .null

def ofNat (n : Nat) : Json := ofInt n

def ofBinary64 : Binary64 → Json
  | .finite x => .number (.float x)
  | _ => .null

def isNull : Json → Bool
  | .null => true
  | _ => false

def isObject : Json → Bool
  | .object _ => true
  | _ => false

/-- An object from members in any order; of members with one name the last remains. -/
def ofMembers (members : List (String × Json)) : Json :=
  .object (Directory.ofList members)

def member? (name : String) : Json → Option Json
  | .object members => Directory.lookup name members
  | _ => none

mutual

def height : Json → Nat
  | .array items => heightItems items + 1
  | .object members => heightMembers members + 1
  | _ => 0

def heightItems : List Json → Nat
  | [] => 0
  | item :: rest => max (height item) (heightItems rest)

def heightMembers : List (String × Json) → Nat
  | [] => 0
  | (_, value) :: rest => max (height value) (heightMembers rest)

end

end Indicators.Json
