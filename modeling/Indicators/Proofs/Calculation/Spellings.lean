import Indicators.Proofs.Calculation.Values
import Indicators.Proofs.Pipeline.Spellings

set_option autoImplicit false

namespace Indicators.Calculation

open Indicators Indicators.Metric Indicators.Number Indicators.Pipeline Indicators.Plan

def ordering : List Comparison := [.gt, .lt, .ge, .le]

theorem conditionPredicate_ordering {base field value : String} {op : Comparison} {x : Binary64}
    (hop : op ∈ ordering) (hx : (Condition.mk field op value).number? = some x) :
    conditionPredicate base ⟨field, op, value⟩ =
      .compareAsNumber (within base field) op (.ofNumber x) := by
  unfold conditionPredicate
  rw [hx]
  cases op with
  | eq => simp [ordering] at hop
  | ne => simp [ordering] at hop
  | _ => rfl

/-- Documents that differ in the spelling of numbers at a path have the same results there, and meet
the same conditions. -/
theorem spelling_unseen {path : String} {docs others : List Json}
    (h : List.Forall₂ (SpelledAt (segments path)) docs others) :
    (∀ func ∈ [Accumulator.sum, .avg, .max, .min], ∀ name,
      let aggregate : Aggregate := ⟨func, .toNumber (.field path), name⟩
      (MetricValue.ofJson (aggregate.eval docs)).sameAs (.ofJson (aggregate.eval others)) = true) ∧
    ∀ (base : String) (c : Condition), within base c.field = path → c.op ∈ ordering →
      c.number?.isSome = true →
      List.Forall₂ (fun doc other =>
        (conditionPredicate base c).holds doc = (conditionPredicate base c).holds other)
        docs others := by
  constructor
  · intro func hf name aggregate
    refine sameAs_ofJson (sameNumber_eval h ?_ name)
    rintro rfl
    simp at hf
  · rintro base ⟨field, op, value⟩ rfl hop hnumber
    obtain ⟨x, hx⟩ := Option.isSome_iff_exists.1 hnumber
    rw [conditionPredicate_ordering hop hx]
    exact h.imp fun _ _ hd => holds_compareAsNumber_spelled hd op x

def twoAndHalf : Finite64 := ⟨false, 5 * Nat.pow 2 1073, by decide +kernel⟩

/-- Ratings of stays, one of them beyond 64 signed bits, and one in a list in a list. -/
def rated : List Json :=
  [.object [("Stay", .object [("Rating", .number (.int 9223372036854775808 (by decide)))])],
    .object [("Stay", .array [.object [("Rating", .array [.number (.float twoAndHalf), .null])],
      .object [("Rating", .ofInt64 (-3))]])],
    .object [("Stay", .object [("Rating", .string "7")])]]

def respelled : List Json :=
  [.object [("Stay", .object [("Rating", .string "\t9223372036854775808 ")])],
    .object [("Stay", .array [.object [("Rating", .array [.string "2.5", .null])],
      .object [("Rating", .string "-3")]])],
    .object [("Stay", .object [("Rating", .ofInt64 7)])]]

theorem spelledAt_member {name : String} {rest : List String} {v w : Json}
    (h : SpelledAt rest v w) :
    SpelledAt (name :: rest) (.object [(name, v)]) (.object [(name, w)]) :=
  .object (.cons ⟨rfl, .inr ⟨rfl, h⟩⟩ .nil)

theorem rated_respelled : List.Forall₂ (SpelledAt ["Stay", "Rating"]) rated respelled := by
  refine .cons ?_ (.cons ?_ (.cons ?_ .nil))
  · exact spelledAt_member (spelledAt_member (.leaf (.text ⟨"\t", " ", by decide +kernel⟩)))
  · have hlist : SpelledEnd (.array [.number (.float twoAndHalf), .null])
        (.array [.string "2.5", .null]) :=
      .array (.cons (.leaf (.text ⟨"", "", by decide +kernel⟩)) (.cons (.leaf (.same _)) .nil))
    refine spelledAt_member (.array (.cons (spelledAt_member hlist) (.cons ?_ .nil)))
    exact spelledAt_member (.leaf (.text ⟨"", "", by decide +kernel⟩))
  · exact spelledAt_member (spelledAt_member (.leaf (.number ⟨"", "", by decide +kernel⟩)))

theorem spelling_unseen_ratings :
    List.Forall₂ (SpelledAt (segments "Stay.Rating")) rated respelled ∧
      ((MetricValue.ofJson
        ((Aggregate.mk .sum (.toNumber (.field "Stay.Rating")) "total").eval rated)).sameAs
          (.ofJson ((Aggregate.mk .sum (.toNumber (.field "Stay.Rating")) "total").eval
            respelled))) = true ∧
      within "Stay" "Rating" = "Stay.Rating" ∧ Comparison.lt ∈ ordering ∧
      (Condition.mk "Rating" .lt " 2.75").number?.isSome = true ∧
      List.Forall₂ (fun doc other =>
        (conditionPredicate "Stay" ⟨"Rating", .lt, " 2.75"⟩).holds doc =
          (conditionPredicate "Stay" ⟨"Rating", .lt, " 2.75"⟩).holds other) rated respelled := by
  have hsegments : segments "Stay.Rating" = ["Stay", "Rating"] := by decide
  have hspelled : List.Forall₂ (SpelledAt (segments "Stay.Rating")) rated respelled :=
    hsegments ▸ rated_respelled
  have hwithin : within "Stay" "Rating" = "Stay.Rating" := by decide
  have hnumber : (Condition.mk "Rating" .lt " 2.75").number?.isSome = true := by decide +kernel
  obtain ⟨hresults, hconditions⟩ := spelling_unseen hspelled
  exact ⟨hspelled, hresults .sum (by decide) "total", hwithin, by decide, hnumber,
    hconditions "Stay" ⟨"Rating", .lt, " 2.75"⟩ hwithin (by decide) hnumber⟩

end Indicators.Calculation
