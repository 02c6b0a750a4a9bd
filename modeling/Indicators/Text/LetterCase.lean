import Indicators.Text.CaseTable

set_option autoImplicit false

/-! One character maps to one, but for a capital I with a dot above, which keeps its dot as a mark,
and for a capital sigma, whose lower-case form at the end of a word differs. -/

namespace Indicators.Text

def lowerChar (c : Char) : Char :=
  let n := c.toNat
  if n < 0x80 then c.toLower
  else
    match lowerRanges.find? fun r => r.first ≤ n ∧ n ≤ r.last ∧ (n - r.first) % r.stride = 0 with
    | some r => Char.ofNat ((n : Int) + r.shift).toNat
    | none => c

def inRanges (ranges : List (Nat × Nat)) (c : Char) : Bool :=
  ranges.any fun r => r.1 ≤ c.toNat && c.toNat ≤ r.2

def casedNext (text : List Char) : Bool :=
  match text.dropWhile (inRanges skippedRanges) with
  | c :: _ => inRanges casedRanges c
  | [] => false

/-- A capital sigma ends a word when a cased character stands before it and none after it. -/
def lowerSigma (before after : List Char) : Char :=
  if casedNext before && !casedNext after then 'ς' else 'σ'

/-- Lower-case a text whose earlier characters, nearest first, are `before`. -/
def lowerFrom (before : List Char) : List Char → List Char
  | [] => []
  | c :: rest =>
    let here :=
      if c = 'Σ' then [lowerSigma before rest]
      else if c = 'İ' then ['i', Char.ofNat 0x307]
      else [lowerChar c]
    here ++ lowerFrom (c :: before) rest

def lower (text : String) : String := String.ofList (lowerFrom [] text.toList)

def sameIgnoringAsciiCase (a b : String) : Bool :=
  a.toList.map Char.toLower == b.toList.map Char.toLower

end Indicators.Text
