import Indicators.Json.Reader
import Indicators.Metric.Validation

set_option autoImplicit false

/-! A list of configurations is first read as a whole and then checked in order; in a list of
indicators each configuration is checked where it stands. -/

namespace Indicators.Metric

open Indicators Indicators.Source

structure Indicator where
  id : String
  name : String
  configuration : Configuration

inductive ReadError where
  | undecoded (error : DecodeError)
  | invalid (error : ConfigurationError)
deriving DecidableEq, Repr

def Draft.ofText (text : String) : Decoded Draft := Json.decodeText Draft.read text

def Configuration.ofText (text : String) : Except ReadError Configuration := do
  let draft ← (Draft.ofText text).mapError .undecoded
  draft.configuration.mapError .invalid

def configurationsOfText (text : String) : Except ReadError (List Configuration) := do
  let drafts ← (Json.decodeText (Node.asList · Draft.read) text).mapError .undecoded
  drafts.mapM fun draft => draft.configuration.mapError .invalid

def Configuration.read (levels : Nat) (node : Node) : Decoded Configuration := do
  (← Draft.read levels node).configuration.mapError fun e => .rejected e.message

structure PartialIndicator where
  id : String := ""
  name : String := ""
  configuration : Option Configuration := none

def PartialIndicator.rules (levels : Nat) : List (FieldRule PartialIndicator) :=
  [.must "id" Node.asText fun v i => { i with id := v },
    .must "name" Node.asText fun v i => { i with name := v },
    { name := "metricConfiguration", aliases := ["configuration"], required := true,
      read := fun node =>
        (fun v i => { i with configuration := some v }) <$> Configuration.read levels node }]

def Indicator.read : (levels : Nat) → Node → Decoded Indicator
  | 0, _ => .error .malformed
  | levels + 1, node => do
    let i ← node.asRecord (PartialIndicator.rules levels) {}
    match i.configuration with
    | some configuration => return ⟨i.id, i.name, configuration⟩
    | none => throw .malformed

def indicatorsOfText (text : String) : Decoded (List Indicator) :=
  Json.decodeText (Node.asList · Indicator.read) text

end Indicators.Metric
