import Indicators.Plan.DateField
import Indicators.Source.Decode
import Indicators.Text.Digit
import Indicators.Yaml.Reader

set_option autoImplicit false

/-! Everything has a default. A count is an integer of 64 bits; a plain scalar may write it with a
sign or in hexadecimal, octal or binary digits. -/

namespace Indicators.Calculation

open Indicators Indicators.Plan Indicators.Source

structure Settings where
  queryTimeoutMs : Nat := 30000
  maxConcurrency : Nat := 8
  dateFieldLocator : DateLocator := .sectionWalk
deriving DecidableEq, Repr

def Settings.concurrency (s : Settings) : Nat := max s.maxConcurrency 1

/-- The count that a plain scalar writes: decimal digits without leading zeros, or digits of
another base after `0x`, `0o` or `0b`. -/
def readCount? (text : String) : Option Nat :=
  let body := match text.toList with
    | '+' :: rest => if rest.head? = some '+' then ['+'] else rest
    | rest => rest
  match body with
  | '0' :: 'x' :: digits => Text.digitsValue? 16 digits
  | '0' :: 'o' :: digits => Text.digitsValue? 8 digits
  | '0' :: 'b' :: digits => Text.digitsValue? 2 digits
  | '0' :: _ :: _ => none
  | digits => Text.digitsValue? 10 digits

def asCount : Node → Decoded Nat
  | .number (some (.int i _)) => if 0 ≤ i then .ok i.toNat else .error .malformed
  | .scalar text true =>
    match readCount? text with
    | some n => if n < UInt64.size then .ok n else .error .malformed
    | none => .error .malformed
  | _ => .error .malformed

def asLocator (node : Node) : Decoded DateLocator := do
  let text ← node.asText
  match DateLocator.ofName? text with
  | some l => return l
  | none => throw (.rejected (DateLocator.unknownMessage text))

def Settings.rules : List (FieldRule Settings) :=
  [.may "query_timeout_ms" [] asCount fun v s => { s with queryTimeoutMs := v },
    .may "max_concurrency" [] asCount fun v s => { s with maxConcurrency := v },
    .may "date_field_locator" [] asLocator fun v s => { s with dateFieldLocator := v }]

def Settings.read : (levels : Nat) → Node → Decoded Settings
  | 0, _ => .error .malformed
  | _ + 1, node => node.asRecord rules {}

def Settings.ofText (text : String) : Decoded Settings :=
  if Text.trim text = "" then .ok {} else Yaml.decodeText Settings.read text

end Indicators.Calculation
