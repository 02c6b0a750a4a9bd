import Indicators.Proofs.Calculation.Narrowing

set_option autoImplicit false

/-! The numerator has all conditions of the denominator, so it counts no more, and rounding does not
lift the share above one hundred. -/

namespace Indicators.Calculation

open Indicators Indicators.Metric Indicators.Number Indicators.Pipeline Indicators.Plan
open Indicators.Schema

theorem narrows_countUnder (c : Configuration) {conditions fewer : List Condition}
    (hsub : fewer ⊆ conditions) : Narrows (countUnder c conditions) (countUnder c fewer) := by
  refine ⟨.cons ⟨hsub, rfl⟩ (List.forall₂_same.2 fun l _ => ⟨List.Subset.refl _, rfl⟩), ?_⟩
  exact shortens_same c.effectiveDateRange

theorem resultOf_countUnder (collection : String → List Json) {locator : DateLocator}
    {schema : Schema} {c : Configuration} {conditions fewer : List Condition} {share whole : Query}
    (hn : compile locator schema (countUnder c conditions) = .ok share)
    (hd : compile locator schema (countUnder c fewer) = .ok whole) (hsub : fewer ⊆ conditions)
    (docs : List Json) :
    ∃ m n, m ≤ n ∧ Calculator.resultOf (run collection docs share.stages) = countValue m ∧
      Calculator.resultOf (run collection docs whole.stages) = countValue n :=
  resultOf_narrows collection rfl (narrows_countUnder c hsub) hn hd docs

def AtMost (x : Binary64) (k : Nat) : Prop :=
  ∃ y : Finite64, x = .finite y ∧ y.negative = false ∧ y.units ≤ k * one

theorem ofInt_natCast {n : Nat} (h : n ≤ exactLimit) :
    Binary64.ofInt n = .finite ⟨false, n * one, held_mul_one h⟩ :=
  Binary64.ofInt_eq (i := (n : Int)) h

theorem hundred_eq : hundred = .finite ⟨false, 100 * one, held_mul_one (by decide)⟩ :=
  ofInt_natCast (n := 100) (by decide)

theorem atMost_round {num den k : Nat} (hd : 0 < den) (hk : k ≤ exactLimit)
    (h : num ≤ k * one * den) : AtMost (Binary64.round false num den) k := by
  obtain ⟨y, hy, hn, hu⟩ := Binary64.round_le_of_le_mul false hd (held_mul_one hk) h
  exact ⟨y, hy, hn, hu⟩

theorem ratio_atMost {m n : Nat} (h : m ≤ n) (hn : n ≤ exactLimit) (hpos : 0 < n) :
    AtMost (Binary64.ofInt m / Binary64.ofInt n) 1 := by
  have hden : 0 < n * one := Nat.mul_pos hpos magnitude_one_pos
  rw [ofInt_natCast (h.trans hn), ofInt_natCast hn]
  change AtMost (Binary64.div (.finite _) (.finite _)) 1
  rw [Binary64.div, if_neg hden.ne']
  refine atMost_round hden (by decide) ?_
  rw [Nat.one_mul, Nat.mul_comm (m * one)]
  exact Nat.mul_le_mul_left _ (Nat.mul_le_mul_right _ h)

theorem mul_hundred_atMost {x : Binary64} {k : Nat} (h : AtMost x k) (hk : k * 100 ≤ exactLimit) :
    AtMost (x * hundred) (k * 100) := by
  obtain ⟨y, rfl, hn, hu⟩ := h
  rw [hundred_eq]
  change AtMost (Binary64.mul (.finite _) (.finite _)) _
  rw [Binary64.mul, hn]
  refine atMost_round magnitude_one_pos hk ?_
  calc y.units * (100 * one) ≤ k * one * (100 * one) := Nat.mul_le_mul_right _ hu
    _ = k * 100 * one * one := by ring

theorem roundHalfAway_atMost {x : Binary64} {k : Nat} (h : AtMost x k) (hk : k ≤ exactLimit) :
    AtMost x.roundHalfAway k := by
  obtain ⟨y, rfl, hn, hu⟩ := h
  rw [Binary64.roundHalfAway, hn]
  refine atMost_round Nat.one_pos hk ?_
  rw [Nat.mul_one]
  refine Nat.mul_le_mul_right _ ?_
  rw [← Nat.lt_succ_iff, Nat.div_lt_iff_lt_mul (Nat.mul_pos (by decide) magnitude_one_pos)]
  have hone := magnitude_one_pos
  calc 2 * y.units + one ≤ 2 * (k * one) + one := by omega
    _ < 2 * (k * one) + 2 * one := by omega
    _ = (k + 1) * (2 * one) := by ring

theorem div_hundred_atMost {x : Binary64} {k : Nat} (h : AtMost x (k * 100))
    (hk : k ≤ exactLimit) : AtMost (x / hundred) k := by
  obtain ⟨y, rfl, hn, hu⟩ := h
  have hden : 0 < 100 * one := Nat.mul_pos (by decide) magnitude_one_pos
  rw [hundred_eq]
  change AtMost (Binary64.div (.finite _) (.finite _)) _
  rw [Binary64.div, if_neg hden.ne', hn]
  refine atMost_round hden hk ?_
  calc y.units * one ≤ k * 100 * one * one := Nat.mul_le_mul_right _ hu
    _ = k * one * (100 * one) := by ring

theorem compare_hundred_of_atMost {x : Binary64} (h : AtMost x 100) :
    ∃ o, x.compare? hundred = some o ∧ o ≠ .gt := by
  obtain ⟨y, rfl, hn, hu⟩ := h
  rw [hundred_eq]
  refine ⟨_, rfl, ?_⟩
  unfold Finite64.compare Finite64.value
  rw [hn, if_neg Bool.false_ne_true, if_neg Bool.false_ne_true, Ne, Int.compare_eq_gt, not_lt]
  exact Int.ofNat_le.2 hu

theorem countValue_toBinary64 (n : Nat) :
    (countValue n).toBinary64 = Binary64.ofInt (min n exactLimit : Nat) :=
  congrArg Binary64.ofInt (toInt_count n)

theorem zero_toBinary64 : MetricValue.zero.toBinary64 = Binary64.ofInt (0 : Nat) :=
  congrArg Binary64.ofInt (by decide)

theorem sameValue_zero : (Binary64.ofInt (0 : Nat)).sameValue (.zero false) = true := by
  rw [ofInt_natCast (Nat.zero_le _)]
  simp [Binary64.sameValue, Binary64.compare?, Binary64.zero, Finite64.compare, Finite64.value]

theorem percentage_atMost {m n : Nat} (h : m ≤ n) :
    AtMost (percentage (countValue m) (countValue n)).toBinary64 100 := by
  have hm : min m exactLimit ≤ min n exactLimit := by omega
  have hn : min n exactLimit ≤ exactLimit := Nat.min_le_right _ _
  have hzero : AtMost MetricValue.zero.toBinary64 100 := by
    rw [zero_toBinary64, ofInt_natCast (Nat.zero_le _)]
    exact ⟨_, rfl, rfl, Nat.mul_le_mul_right _ (Nat.zero_le 100)⟩
  unfold percentage
  rw [countValue_toBinary64, countValue_toBinary64]
  generalize min m exactLimit = a at hm
  generalize min n exactLimit = b at hm hn
  dsimp only
  split
  · exact hzero
  · next hb =>
    have hpos : 0 < b := by
      rcases Nat.eq_zero_or_pos b with rfl | hpos
      · exact absurd sameValue_zero hb
      · exact hpos
    have hshare := mul_hundred_atMost (ratio_atMost hm hn hpos) (by decide)
    have hplaces := roundHalfAway_atMost (mul_hundred_atMost hshare (by decide)) (by decide)
    exact div_hundred_atMost hplaces (by decide)

/-- The numerator of a percentage has all conditions of its denominator, and the same levels
unless the denominator loses them. -/
theorem split_countUnder {c : Configuration}
    (h : c.inner = [] ∨ c.outer.sharedConditions.isSome = true) :
    ∃ conditions fewer, numerator c = countUnder c conditions ∧
      denominator c = countUnder c fewer ∧ fewer ⊆ conditions := by
  refine ⟨c.outer.conditions ++ c.outer.sharedConditions.getD [],
    c.outer.sharedConditions.getD [], rfl, ?_, List.subset_append_right _ _⟩
  unfold denominator
  cases hs : c.outer.sharedConditions with
  | some shared => rfl
  | none =>
    rw [hs] at h
    have hin : c.inner = [] := h.resolve_right Bool.false_ne_true
    unfold countUnder
    rw [Option.getD_none, ← hin]

/-- Whatever the collections hold, the numerator counts no more than the denominator, and their
percentage is at most one hundred. -/
theorem percentage_le_hundred (collection : String → List Json) {locator : DateLocator}
    {schema : Schema} {c : Configuration} {share whole : Query}
    (hc : c.inner = [] ∨ c.outer.sharedConditions.isSome = true)
    (hn : compile locator schema (numerator c) = .ok share)
    (hd : compile locator schema (denominator c) = .ok whole) :
    share.collection = whole.collection ∧ ∀ docs, ∃ a b : Int64,
      Calculator.resultOf (run collection docs share.stages) = .int a ∧
      Calculator.resultOf (run collection docs whole.stages) = .int b ∧
      0 ≤ a.toInt ∧ a.toInt ≤ b.toInt ∧ (a ≠ 0 → b ≠ 0) ∧
      ∃ o, (percentage (.int a) (.int b)).toBinary64.compare? hundred = some o ∧ o ≠ .gt := by
  obtain ⟨conditions, fewer, hnum, hden, hsub⟩ := split_countUnder hc
  rw [hnum] at hn
  rw [hden] at hd
  obtain ⟨_, -, hshare, -⟩ := compile_ok hn
  obtain ⟨_, -, hwhole, -⟩ := compile_ok hd
  refine ⟨hshare.trans hwhole.symm, fun docs => ?_⟩
  obtain ⟨m, n, hle, hm, hn'⟩ := resultOf_countUnder collection hn hd hsub docs
  have hcounts : (Int64.ofInt (min m exactLimit : Nat)).toInt ≤
      (Int64.ofInt (min n exactLimit : Nat)).toInt := by
    rw [toInt_count, toInt_count]
    omega
  have hnonneg : 0 ≤ (Int64.ofInt (min m exactLimit : Nat)).toInt := by
    rw [toInt_count]
    exact Int.natCast_nonneg _
  refine ⟨_, _, hm, hn', hnonneg, hcounts, fun hne he => hne ?_,
    compare_hundred_of_atMost (percentage_atMost hle)⟩
  rw [he] at hcounts
  exact Int64.toInt_inj.1 (le_antisymm hcounts hnonneg)

def unpaidShare : Configuration :=
  ⟨⟨"guests", .percentage, some "stays", ["history"], [⟨"stays.paid", .eq, "no"⟩], none, some [],
      none⟩,
    [⟨"guests", .count, none, ["history"], [], none, none, none⟩]⟩

def staysUnder (filters : List Stage) : Query :=
  ⟨"guests", .filter (.exists "history") :: filters ++
    [.unwind "history.stays" (some "_idx_l0"),
      .group (some [("doc", .field "_id"), ("_idx_l0", .field "_idx_l0")])
        [⟨.sum, .literal (.int 1), "resultOf_stays"⟩],
      .group none [⟨.sum, .literal (.int 1), "result"⟩]]⟩

theorem percentage_le_hundred_unpaid :
    unpaidShare.outer.sharedConditions.isSome = true ∧
      compile .sectionWalk bareSchema (numerator unpaidShare) =
        .ok (staysUnder [.filter (.compare "history.stays.paid" .eq (.string "no"))]) ∧
      compile .sectionWalk bareSchema (denominator unpaidShare) = .ok (staysUnder []) ∧
      ∃ a b : Int64,
        Calculator.resultOf (run (fun _ => []) guests
          (staysUnder [.filter (.compare "history.stays.paid" .eq (.string "no"))]).stages) =
            .int a ∧
        Calculator.resultOf (run (fun _ => []) guests (staysUnder []).stages) = .int b ∧
        0 ≤ a.toInt ∧ a.toInt ≤ b.toInt ∧ (a ≠ 0 → b ≠ 0) ∧
        ∃ o, (percentage (.int a) (.int b)).toBinary64.compare? hundred = some o ∧ o ≠ .gt := by
  have hn : compile .sectionWalk bareSchema (numerator unpaidShare) =
      .ok (staysUnder [.filter (.compare "history.stays.paid" .eq (.string "no"))]) := by rfl
  have hd : compile .sectionWalk bareSchema (denominator unpaidShare) = .ok (staysUnder []) := by
    rfl
  exact ⟨rfl, hn, hd, (percentage_le_hundred _ (.inr rfl) hn hd).2 guests⟩

end Indicators.Calculation
