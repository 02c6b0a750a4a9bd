set_option autoImplicit false

namespace Indicators.Text

def digit? (c : Char) : Option Nat :=
  if c.isDigit then some (c.toNat - '0'.toNat)
  else if 'a' ≤ c ∧ c ≤ 'f' then some (c.toNat - 'a'.toNat + 10)
  else if 'A' ≤ c ∧ c ≤ 'F' then some (c.toNat - 'A'.toNat + 10)
  else none

def appendDigit? (base n : Nat) (c : Char) : Option Nat :=
  (digit? c).bind fun d => if d < base then some (n * base + d) else none

def digitsValue? (base : Nat) (digits : List Char) : Option Nat :=
  if digits.isEmpty then none else digits.foldlM (appendDigit? base) 0

end Indicators.Text
