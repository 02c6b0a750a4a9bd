import Indicators.Calculation.Calculator
import Indicators.Proofs.Plan.Correctness

set_option autoImplicit false

namespace Indicators.Calculation

open Indicators Indicators.Metric Indicators.Number Indicators.Pipeline Indicators.Plan
open Indicators.Schema

theorem ofJson_number (n : Json.Number) :
    (MetricValue.ofJson (.number n)).toBinary64 = n.toBinary64 := by
  cases n with
  | float x => rfl
  | int i word =>
    have hl := word.1
    by_cases h : i < 0x8000000000000000
    · have hi : (Int64.ofInt i).toInt = i := Int64.toInt_ofInt_of_le hl h
      simp only [MetricValue.ofJson, Json.Number.toInt64?, if_pos h, MetricValue.toBinary64, hi,
        Json.Number.toBinary64]
    · simp only [MetricValue.ofJson, Json.Number.toInt64?, if_neg h, MetricValue.toBinary64]

theorem sameValue_numbers {a b : Json.Number} (h : unitsOf a = unitsOf b) :
    a.toBinary64.sameValue b.toBinary64 = true := by
  obtain ⟨x, hx⟩ := toBinary64_finite a
  obtain ⟨y, hy⟩ := toBinary64_finite b
  unfold unitsOf at h
  rw [hx, hy] at h ⊢
  simp only [Binary64.finite?, Option.map_some, Option.getD_some] at h
  simp [Binary64.sameValue, Binary64.compare?, Finite64.compare, h]

theorem sameAs_zero : MetricValue.zero.sameAs .zero = true :=
  @sameValue_numbers (.int 0 (by decide)) (.int 0 (by decide)) rfl

theorem sameAs_ofJson {v w : Json} (h : SameNumber v w) :
    (MetricValue.ofJson v).sameAs (.ofJson w) = true := by
  have numbers {a b : Json.Number} (hu : unitsOf a = unitsOf b) :
      (MetricValue.ofJson (.number a)).sameAs (.ofJson (.number b)) = true := by
    unfold MetricValue.sameAs
    rw [ofJson_number, ofJson_number]
    exact sameValue_numbers hu
  cases h with
  | units hu => exact numbers hu
  | refl v =>
    cases v with
    | number a => exact numbers rfl
    | _ => exact sameAs_zero

theorem resultOf_resultDocs (value : Option Json) :
    Calculator.resultOf (resultDocs value) = .ofJson (value.getD .null) := by
  cases value <;> rfl

theorem word_of_le {n : Nat} (h : n ≤ exactLimit) : Json.Word n :=
  word_of_lt (h.trans_lt (by decide))

theorem ofJson_int {i : Int} (word : Json.Word i) (h : i < 0x8000000000000000) :
    MetricValue.ofJson (.number (.int i word)) = .int (Int64.ofInt i) := by
  simp only [MetricValue.ofJson, Json.Number.toInt64?, if_pos h]

theorem ofJson_ofNat {n : Nat} (h : n ≤ exactLimit) :
    MetricValue.ofJson (.ofNat n) = .int (Int64.ofInt n) := by
  have hlt : (n : Int) < 0x8000000000000000 := by
    unfold exactLimit at h
    omega
  exact (congrArg MetricValue.ofJson (ofInt_of_word (word_of_le h))).trans (ofJson_int _ hlt)

def countValue (n : Nat) : MetricValue := .int (Int64.ofInt (min n exactLimit : Nat))

theorem toInt_count (n : Nat) :
    (Int64.ofInt (min n exactLimit : Nat)).toInt = (min n exactLimit : Nat) := by
  have hle : min n exactLimit ≤ exactLimit := Nat.min_le_right _ _
  refine Int64.toInt_ofInt_of_le ?_ ?_ <;> unfold exactLimit at hle ⊢ <;> omega

theorem resultOf_count (collection : String → List Json) (o : Outline) (layout : Layout)
    (docs : List Json) :
    Calculator.resultOf (run collection docs (o.rollup layout 0 .count)) =
      countValue docs.length := by
  have hones : docs.map ((o.operand layout 0 .count).eval ·) = docs.map (counted .count) := rfl
  rw [run_outermost hones, resultOf_resultDocs]
  cases docs with
  | nil => rfl
  | cons doc rest =>
    unfold reduced
    rw [List.isEmpty_cons, if_neg Bool.false_ne_true, Option.getD_some, reduction,
      ofJson_ofNat (Nat.min_le_right _ _)]
    rfl

end Indicators.Calculation
