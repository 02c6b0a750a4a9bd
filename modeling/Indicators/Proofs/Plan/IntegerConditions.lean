import Indicators.Proofs.Pipeline.Numbers
import Indicators.Proofs.Plan.Rows

set_option autoImplicit false

namespace Indicators.Pipeline

open Indicators Indicators.Number

def Comparison.Relates : Comparison → Int → Int → Prop
  | .eq, m, n => m = n
  | .ne, m, n => m ≠ n
  | .lt, m, n => m < n
  | .gt, m, n => m > n
  | .le, m, n => m ≤ n
  | .ge, m, n => m ≥ n

theorem Comparison.holds_compare (op : Comparison) (m n : Int) :
    op.holds (compare m n) = true ↔ op.Relates m n := by
  cases op with
  | eq => exact beq_iff_eq.trans Int.compare_eq_eq
  | ne => exact bne_iff_ne.trans (not_congr Int.compare_eq_eq)
  | lt => exact beq_iff_eq.trans Int.compare_eq_lt
  | gt => exact beq_iff_eq.trans Int.compare_eq_gt
  | le => exact bne_iff_ne.trans Int.compare_ne_gt
  | ge => exact bne_iff_ne.trans Int.compare_ne_lt

instance (op : Comparison) (m n : Int) : Decidable (op.Relates m n) :=
  decidable_of_iff _ (op.holds_compare m n)

end Indicators.Pipeline

namespace Indicators.Plan

open Indicators Indicators.Metric Indicators.Number Indicators.Pipeline

/-- Of a single stored number, a condition with a number for its value asks how the two compare,
whatever the operator: no text is equal to it, and as a number it is itself. -/
theorem meets_number {c : Condition} {element : Json} {stored : Json.Number} {x : Binary64}
    {o : Ordering} (hx : c.number? = some x)
    (hstored : candidates c.field element = [.number stored])
    (ho : stored.toBinary64.compare? x = some o) : meets c element = c.op.holds o := by
  have hnumber (op : Comparison) : related op (.number stored) (.ofNumber x) = op.holds o := by
    unfold related
    rw [compareLiteral_ofNumber, ho]
    rfl
  have htext : related .eq (.number stored) (.string c.value) = false := rfl
  have hself : asNumber (.number stored) = .number stored := rfl
  unfold meets
  rw [hx, hstored]
  cases c.op with
  | eq => simp only [List.any_cons, List.any_nil, htext, hnumber, Bool.or_false, Bool.false_or]
  | ne =>
    simp only [List.any_cons, List.any_nil, htext, hnumber, Bool.or_false, Bool.not_false,
      Bool.true_and]
    rfl
  | _ => simp only [List.any_cons, List.any_nil, hself, hnumber, Bool.or_false]

/-- A condition on a stored integer, reached through objects since an array on the way would leave
an array, decides the relation of the two integers, where those with one float count as equal. It is
exact where the two can be told apart, and so next to any integer below 2^53. -/
theorem holds_integer_condition {base field : String} {m : Int64} {doc : Json}
    (h : valueAt (within base field) doc = .ofInt64 m) (op : Comparison) (n : Int64) :
    let kept := (conditionPredicate base ⟨field, op, Json.text (.ofInt64 n)⟩).holds doc = true
    (kept ↔ if SameFloat m.toInt n.toInt then op.Relates n.toInt n.toInt
      else op.Relates m.toInt n.toInt) ∧
    (Apart m.toInt n.toInt → (kept ↔ op.Relates m.toInt n.toInt)) ∧
    (m.toInt.natAbs < exactLimit ∨ n.toInt.natAbs < exactLimit →
      (kept ↔ op.Relates m.toInt n.toInt)) := by
  intro kept
  have hvalue : Condition.number? ⟨field, op, Json.text (.ofInt64 n)⟩ =
      some (Binary64.ofInt n.toInt) := readFinite?_writeInt (wordSized_int64 n)
  have hstored : candidates field (elementAt base doc) = [.ofInt64 m] := by
    rw [← candidates_within]
    exact candidates_of_valueAt h nofun nofun
  have hmeets := meets_number hvalue hstored
    (Binary64.compare?_ofInt (wordSized_int64 m) (wordSized_int64 n))
  have hkept : kept ↔ if SameFloat m.toInt n.toInt then op.Relates n.toInt n.toInt
      else op.Relates m.toInt n.toInt := by
    unfold kept
    rw [holds_conditionPredicate, hmeets]
    split
    · rw [← op.holds_compare, Int.compare_eq_eq.2 rfl]
    · exact op.holds_compare _ _
  have hexact (hd : Apart m.toInt n.toInt) : kept ↔ op.Relates m.toInt n.toInt := by
    rw [hkept]
    split
    · next hsame => rw [hd hsame]
    · exact Iff.rfl
  refine ⟨hkept, hexact, fun hlt => hexact ?_⟩
  rcases hlt with hm | hn
  · exact apart_of_lt hm (wordSized_int64 n)
  · exact (apart_of_lt hn (wordSized_int64 m)).symm

def withNumber (m : Int64) : Json := .object [("General", .object [("Number", .ofInt64 m)])]

theorem holds_integer_condition_far :
    valueAt (within "General" "Number") (withNumber 9223372036854774784) =
        .ofInt64 9223372036854774784 ∧
      Apart 9223372036854774784 9223372036854775807 ∧
      (conditionPredicate "General" ⟨"Number", .lt, Json.text (.ofInt64 9223372036854775807)⟩).holds
        (withNumber 9223372036854774784) = true := by
  have hstored : valueAt (within "General" "Number") (withNumber 9223372036854774784) =
      .ofInt64 9223372036854774784 := by decide +kernel
  have hapart : Apart 9223372036854774784 9223372036854775807 := by decide +kernel
  obtain ⟨-, hexact, -⟩ := holds_integer_condition hstored .lt 9223372036854775807
  exact ⟨hstored, hapart, (hexact hapart).2 (by decide)⟩

/-- From 2^53 on a condition may take an integer for its neighbour. -/
theorem neighbours_beyond_limit :
    valueAt (within "General" "Number") (withNumber 9007199254740992) =
        .ofInt64 9007199254740992 ∧
      (conditionPredicate "General" ⟨"Number", .eq, Json.text (.ofInt64 9007199254740993)⟩).holds
        (withNumber 9007199254740992) = true ∧
      ¬ Comparison.eq.Relates 9007199254740992 9007199254740993 := by
  decide +kernel

end Indicators.Plan
