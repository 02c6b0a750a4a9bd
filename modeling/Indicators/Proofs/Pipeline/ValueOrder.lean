import Indicators.Proofs.Pipeline.Reductions

set_option autoImplicit false

/-! Values compare by their types, and values of one type by a key: numbers by their numeric value,
strings, objects and arrays by a text, truth values by themselves. -/

namespace Indicators.Pipeline

open Indicators

@[simp] def textAt : Json → String
  | .string s => s
  | .object members => Json.text (.object members)
  | .array items => Json.text (.array items)
  | _ => ""

@[simp] def truthAt : Json → Bool
  | .bool b => b
  | _ => false

/-- All keys one after the other; values of one type have all but their own in common. -/
def compareKeys (a b : Json) : Ordering :=
  (compare (unitsAt a) (unitsAt b)).then
    ((compare (textAt a) (textAt b)).then (compare (truthAt a) (truthAt b)))

theorem compareValues_eq (a b : Json) :
    compareValues a b = (compare (typeRank a) (typeRank b)).then (compareKeys a b) := by
  -- Where the types differ, their ranks decide on either side.
  cases a with
  | null => cases b <;> rfl
  | number n =>
    cases b with
    | number m =>
      rw [compareValues_number]
      simp [typeRank, compareKeys, unitsAt]
    | _ => rfl
  | string s =>
    cases b with
    | string t => simp [compareValues, typeRank, compareKeys, unitsAt]
    | _ => rfl
  | object members =>
    cases b with
    | object others => simp [compareValues, typeRank, compareKeys, unitsAt]
    | _ => rfl
  | array items =>
    cases b with
    | array others => simp [compareValues, typeRank, compareKeys, unitsAt]
    | _ => rfl
  | bool x =>
    cases b with
    | bool y => simp [compareValues, typeRank, compareKeys, unitsAt]
    | _ => rfl

instance : Std.TransCmp compareKeys :=
  inferInstanceAs (Std.TransCmp
    (compareLex (compareOn unitsAt) (compareLex (compareOn textAt) (compareOn truthAt))))

instance : Std.TransCmp compareValues := by
  have h : compareValues = compareLex (compareOn typeRank) compareKeys :=
    funext fun a => funext (compareValues_eq a)
  rw [h]
  infer_instance

theorem compareValues_self (v : Json) : compareValues v v = .eq := Std.ReflCmp.compare_self

theorem compareValues_swap (a b : Json) : compareValues b a = (compareValues a b).swap :=
  Std.OrientedCmp.eq_swap

/-- What neither of two steps passes is not passed by both together. -/
theorem compareValues_trans {side : Ordering} (hside : side ≠ .eq) {a b c : Json}
    (hab : compareValues a b ≠ side) (hbc : compareValues b c ≠ side) :
    compareValues a c ≠ side := by
  cases side with
  | eq => exact absurd rfl hside
  | gt =>
    have hle := Std.TransCmp.isLE_trans (Ordering.isLE_iff_ne_gt.2 hab)
      (Ordering.isLE_iff_ne_gt.2 hbc)
    exact Ordering.isLE_iff_ne_gt.1 hle
  | lt =>
    have hge := Std.TransCmp.isGE_trans (Ordering.isGE_iff_ne_lt.2 hab)
      (Ordering.isGE_iff_ne_lt.2 hbc)
    exact Ordering.isGE_iff_ne_lt.1 hge

theorem compareValues_antisymm {side : Ordering} (hside : side ≠ .eq) {a b : Json}
    (hab : compareValues a b ≠ side) (hba : compareValues b a ≠ side) :
    compareValues a b = .eq := by
  cases side with
  | eq => exact absurd rfl hside
  | gt =>
    exact Std.OrientedCmp.isLE_antisymm (Ordering.isLE_iff_ne_gt.2 hab)
      (Ordering.isLE_iff_ne_gt.2 hba)
  | lt =>
    exact Std.OrientedCmp.isGE_antisymm (Ordering.isGE_iff_ne_lt.2 hab)
      (Ordering.isGE_iff_ne_lt.2 hba)

/-- Among the values that are not null one that no other is beyond, and null for nothing but
nulls. -/
inductive Extremum (beyond : Ordering) (values : List Json) : Json → Prop where
  | absent (nulls : ∀ v ∈ values, v = .null) : Extremum beyond values .null
  | operand {m : Json} (mem : m ∈ values) (present : m ≠ .null)
      (extreme : ∀ v ∈ values, v ≠ .null → compareValues v m ≠ beyond) : Extremum beyond values m

def Prefers (beyond : Ordering) (choose : Json → Json → Json) : Prop :=
  ∀ a b, (choose a b = a ∨ choose a b = b) ∧
    compareValues a (choose a b) ≠ beyond ∧ compareValues b (choose a b) ≠ beyond

theorem laterMax_prefers : Prefers .gt laterMax := by
  intro a b
  have hswap := compareValues_swap a b
  unfold laterMax
  split
  · next h =>
    refine ⟨.inl rfl, by simp [compareValues_self], ?_⟩
    rw [hswap, h]
    decide
  · next h => exact ⟨.inr rfl, h, by simp [compareValues_self]⟩

theorem earlierMin_prefers : Prefers .lt earlierMin := by
  intro a b
  have hswap := compareValues_swap a b
  unfold earlierMin
  split
  · next h => exact ⟨.inr rfl, by simp [h], by simp [compareValues_self]⟩
  · next h =>
    refine ⟨.inl rfl, by simp [compareValues_self], fun hlt => h ?_⟩
    rw [compareValues_swap b a, hlt]
    rfl

theorem extremum_reduceWith {beyond : Ordering} {choose : Json → Json → Json}
    (h : Prefers beyond choose) (hbeyond : beyond ≠ .eq) (values : List Json) :
    Extremum beyond values (reduceWith choose (presentOf values)) := by
  by_cases hnone : presentOf values = []
  · rw [hnone]
    refine .absent fun v hv => ?_
    by_contra hpresent
    have hmem := mem_presentOf.2 ⟨hv, hpresent⟩
    rw [hnone] at hmem
    cases hmem
  · obtain ⟨hmem, hextreme⟩ := @reduceWith_extreme choose (fun v w => compareValues v w ≠ beyond)
      (fun v => by rw [compareValues_self]; exact hbeyond.symm)
      (compareValues_trans hbeyond) _ hnone fun a _ b _ => h a b
    obtain ⟨hvalue, hpresent⟩ := mem_presentOf.1 hmem
    exact .operand hvalue hpresent fun v hv hv' => hextreme v (mem_presentOf.2 ⟨hv, hv'⟩)

theorem extremum_max (values : List Json) :
    Extremum .gt values (Accumulator.max.reduce values) :=
  extremum_reduceWith laterMax_prefers (by decide) values

theorem extremum_min (values : List Json) :
    Extremum .lt values (Accumulator.min.reduce values) :=
  extremum_reduceWith earlierMin_prefers (by decide) values

theorem Extremum.compare_eq {beyond : Ordering} (hbeyond : beyond ≠ .eq) {values others : List Json}
    {m n : Json} (hm : Extremum beyond values m) (hn : Extremum beyond others n)
    (same : ∀ v, v ∈ values ↔ v ∈ others) : compareValues m n = .eq := by
  cases hm with
  | absent nulls =>
    cases hn with
    | absent => rfl
    | operand mem present => exact absurd (nulls n ((same n).2 mem)) present
  | operand mem present extreme =>
    cases hn with
    | absent nulls => exact absurd (nulls m ((same m).1 mem)) present
    | operand mem' present' extreme' =>
      exact compareValues_antisymm hbeyond (extreme' m ((same m).1 mem) present)
        (extreme n ((same n).2 mem') present')

/-- The comparison of values is a total preorder. A maximum of values is one that is not null and
that none exceeds, a minimum one that none of those other than null is below, and either is null for
nothing but nulls. In another order the values have the same extremes, or equal ones. -/
theorem values_ordered :
    (∀ a, compareValues a a = .eq) ∧
    (∀ a b, compareValues b a = (compareValues a b).swap) ∧
    (∀ a b c, compareValues a b ≠ .gt → compareValues b c ≠ .gt → compareValues a c ≠ .gt) ∧
    (∀ a b c, compareValues a b = .eq → compareValues b c = .eq → compareValues a c = .eq) ∧
    (∀ values, Extremum .gt values (Accumulator.max.reduce values) ∧
      Extremum .lt values (Accumulator.min.reduce values)) ∧
    ∀ values others : List Json, values.Perm others →
      compareValues (Accumulator.max.reduce values) (Accumulator.max.reduce others) = .eq ∧
      compareValues (Accumulator.min.reduce values) (Accumulator.min.reduce others) = .eq := by
  refine ⟨compareValues_self, compareValues_swap, fun a b c => compareValues_trans (by decide),
    fun a b c => Std.TransCmp.eq_trans, fun values => ⟨extremum_max values, extremum_min values⟩,
    fun values others h => ?_⟩
  have same (v : Json) : v ∈ values ↔ v ∈ others := h.mem_iff
  exact ⟨(extremum_max values).compare_eq (by decide) (extremum_max others) same,
    (extremum_min values).compare_eq (by decide) (extremum_min others) same⟩

def mixed : List Json := [.null, .string "a", .ofInt 3, .ofBinary64 (.ofInt 3)]

theorem values_ordered_mixed :
    mixed.Perm mixed.reverse ∧
      Accumulator.min.reduce mixed = .ofInt 3 ∧
      Accumulator.min.reduce mixed.reverse = .ofBinary64 (.ofInt 3) ∧
      Extremum .lt mixed (.ofInt 3) ∧
      compareValues (.ofInt 3) (.ofBinary64 (.ofInt 3)) = .eq := by
  obtain ⟨-, -, -, -, hextremes, hperm⟩ := values_ordered
  have hsame : mixed.Perm mixed.reverse := (List.reverse_perm mixed).symm
  have hfirst : Accumulator.min.reduce mixed = .ofInt 3 := by decide +kernel
  have hlast : Accumulator.min.reduce mixed.reverse = .ofBinary64 (.ofInt 3) := by decide +kernel
  have hmin := (hextremes mixed).2
  have hequal := (hperm mixed mixed.reverse hsame).2
  rw [hfirst] at hmin
  rw [hfirst, hlast] at hequal
  exact ⟨hsame, hfirst, hlast, hmin, hequal⟩

end Indicators.Pipeline
