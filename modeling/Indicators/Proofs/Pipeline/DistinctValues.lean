import Indicators.Proofs.Json.Text
import Indicators.Proofs.Number.Alike
import Indicators.Proofs.Pipeline.Reductions
import Mathlib.Data.Set.Card

set_option autoImplicit false

/-! Two numbers are in one class when they are numerically equal and either of one kind or between
-2^63 and 2^63: there a float without fraction part counts as its integer, and from there on it does
not, although there are integers up to 2^64. -/

namespace Indicators.Pipeline

open Indicators Indicators.Number

/-- A relation of numbers, and equality of all other values. -/
def SameBy (same : Json.Number → Json.Number → Prop) : Json → Json → Prop
  | .number a, .number b => same a b
  | v, w => v = w

def exactUnits : Json.Number → Int
  | .int i _ => i * one
  | .float x => x.value

def EqualNumbers (a b : Json.Number) : Prop := exactUnits a = exactUnits b

/-- The magnitude, in units, from which on a float no longer counts as an integer. -/
def collapseLimit : Nat := 0x8000000000000000 * one

/-- Equal numbers that are both integers or both floats, or below the limit. -/
def MergedNumbers (a b : Json.Number) : Prop :=
  EqualNumbers a b ∧ (a.isInt = b.isInt ∨ (exactUnits a).natAbs < collapseLimit)

theorem SameBy.equivalence {same : Json.Number → Json.Number → Prop} (h : Equivalence same) :
    Equivalence (SameBy same) := by
  constructor
  · intro v
    cases v with
    | number a => exact h.refl a
    | _ => exact rfl
  · intro v w hvw
    cases v <;> cases w <;> first | exact h.symm hvw | exact Eq.symm hvw
  · intro u v w huv hvw
    cases u <;> cases v <;> cases w <;>
      first | exact h.trans huv hvw | exact Eq.trans huv hvw | cases huv | cases hvw

theorem equalNumbers_equivalence : Equivalence EqualNumbers :=
  ⟨fun _ => rfl, Eq.symm, Eq.trans⟩

theorem mergedNumbers_equivalence : Equivalence MergedNumbers := by
  refine ⟨fun _ => ⟨rfl, .inl rfl⟩, ?_, ?_⟩
  · rintro a b ⟨he, hk⟩
    exact ⟨he.symm, hk.imp Eq.symm fun hlt => (he ▸ hlt : _ < _)⟩
  · rintro a b c ⟨hab, hk⟩ ⟨hbc, hk'⟩
    refine ⟨hab.trans hbc, ?_⟩
    rcases hk with hk | hlt
    · rcases hk' with hk' | hlt
      · exact .inl (hk.trans hk')
      · exact .inr (hab.symm ▸ hlt : _ < _)
    · exact .inr hlt

def numericClasses : Setoid Json :=
  ⟨SameBy EqualNumbers, SameBy.equivalence equalNumbers_equivalence⟩

/-- The classes of which a set keeps one value each. -/
def keptClasses : Setoid Json :=
  ⟨SameBy MergedNumbers, SameBy.equivalence mergedNumbers_equivalence⟩

/-- The number of classes that the values other than null are in. -/
noncomputable def classCount (classes : Setoid Json) (values : List Json) : Nat :=
  (Quotient.mk classes '' {v | v ∈ values ∧ v ≠ .null}).ncard

theorem classCount_eq {β : Type} [DecidableEq β] {classes : Setoid Json} {values : List Json}
    {key : Json → β}
    (h : ∀ v ∈ presentOf values, ∀ w ∈ presentOf values, classes v w ↔ key v = key w) :
    classCount classes values = ((presentOf values).map key).toFinset.card := by
  have hmem (c : Quotient classes)
      (hc : c ∈ Quotient.mk classes '' {v | v ∈ values ∧ v ≠ .null}) :
      ∃ v ∈ presentOf values, Quotient.mk classes v = c := by
    obtain ⟨v, hv, rfl⟩ := hc
    exact ⟨v, mem_presentOf.2 hv, rfl⟩
  choose member hpresent hclass using hmem
  rw [← Set.ncard_coe_finset, classCount]
  refine Set.ncard_congr (fun c hc => key (member c hc)) ?_ ?_ ?_
  · intro c hc
    exact List.mem_toFinset.2 (List.mem_map_of_mem (hpresent c hc))
  · intro c d hc hd he
    rw [← hclass c hc, ← hclass d hd]
    exact Quotient.sound ((h _ (hpresent c hc) _ (hpresent d hd)).2 he)
  · intro k hk
    obtain ⟨v, hv, rfl⟩ := List.mem_map.1 (List.mem_toFinset.1 hk)
    have hc : Quotient.mk classes v ∈ Quotient.mk classes '' {v | v ∈ values ∧ v ≠ .null} :=
      ⟨v, mem_presentOf.1 hv, rfl⟩
    exact ⟨_, hc, (h _ (hpresent _ hc) v hv).1 (Quotient.exact (hclass _ hc))⟩

def Collapses (units : Int) : Prop := (one : Int) ∣ units ∧ units.natAbs < collapseLimit

theorem collapses_of_wholeInt? {x : Finite64} {i : Int} (h : wholeInt? (.finite x) = some i) :
    x.value = i * one ∧ i.natAbs < 0x8000000000000000 ∧ Collapses x.value := by
  obtain ⟨f, hf, hunits, hvalue, hlt⟩ := value_of_wholeInt? h
  obtain rfl := Binary64.finite.inj hf
  refine ⟨hvalue, hlt, ?_, ?_⟩
  · exact ⟨i, hvalue.trans (Int.mul_comm _ _)⟩
  · rw [hvalue, Int.natAbs_mul, Int.natAbs_natCast]
    exact (Nat.mul_lt_mul_right magnitude_one_pos).2 hlt

theorem not_collapses_of_wholeInt? {x : Finite64} (h : wholeInt? (.finite x) = none) :
    ¬ Collapses x.value := by
  rintro ⟨hdvd, hlt⟩
  rw [x.natAbs_value] at hlt
  have hwhole : x.units % one = 0 := by
    rw [← x.natAbs_value, ← Nat.dvd_iff_mod_eq_zero]
    exact Int.natCast_dvd.1 hdvd
  have hsome : (x.isWhole && decide (x.units < 0x8000000000000000 * one)) = true := by
    rw [Finite64.isWhole, Bool.and_eq_true, decide_eq_true_eq, decide_eq_true_eq]
    exact ⟨hwhole, hlt⟩
  simp only [wholeInt?, hsome, if_true] at h
  cases h

theorem exactUnits_dvd {n : Json.Number} (h : n.isInt = true) : (one : Int) ∣ exactUnits n := by
  cases n with
  | int i word => exact Int.dvd_mul_left _ _
  | float x => cases h

theorem collapses_zero : Collapses 0 := by
  refine ⟨Int.dvd_zero _, ?_⟩
  unfold collapseLimit
  exact Nat.mul_pos (by decide) magnitude_one_pos

/-- The key of a number is a number of its value; an integer where it was one or collapses, and no
zero of the floats. -/
structure KeyOf (n m : Json.Number) : Prop where
  units : exactUnits m = exactUnits n
  kind : m.isInt = true ↔ n.isInt = true ∨ Collapses (exactUnits n)
  nonzero : m.isInt = false → exactUnits m ≠ 0

theorem setKey_number (n : Json.Number) : ∃ m, setKey (.number n) = .number m ∧ KeyOf n m := by
  cases n with
  | int i word =>
    refine ⟨.int i word, rfl, rfl, by simp [Json.Number.isInt], fun hfloat => ?_⟩
    cases hfloat
  | float x =>
    rw [setKey]
    cases hx : wholeInt? (.finite x) with
    | some i =>
      obtain ⟨hvalue, hlt, hcollapses⟩ := collapses_of_wholeInt? hx
      have word := word_of_natAbs_lt hlt
      refine ⟨.int i word, ?_, hvalue.symm, ?_, fun hfloat => ?_⟩
      · rw [numberValue_of_whole hx, ofInt_of_word word]
      · exact ⟨fun _ => .inr hcollapses, fun _ => rfl⟩
      · cases hfloat
    | none =>
      have hnot := not_collapses_of_wholeInt? hx
      refine ⟨.float x, ?_, rfl, ⟨fun hint => ?_, fun h => ?_⟩, fun _ hzero => ?_⟩
      · simp only [numberValue, hx, Json.ofBinary64]
      · cases hint
      · rcases h with hint | hcollapses
        · cases hint
        · exact absurd hcollapses hnot
      · have hvalue : x.value = 0 := hzero
        exact hnot (hvalue ▸ collapses_zero)

theorem number_ext {a b : Json.Number} (hk : a.isInt = b.isInt) (he : exactUnits a = exactUnits b)
    (hzero : a.isInt = false → exactUnits a ≠ 0) : a = b := by
  cases a with
  | int i word =>
    cases b with
    | float y => cases hk
    | int j word' =>
      have hone : (one : Int) ≠ 0 := (Int.natCast_pos.2 magnitude_one_pos).ne'
      obtain rfl : i = j := Int.eq_of_mul_eq_mul_right hone he
      rfl
  | float x =>
    cases b with
    | int j word' => cases hk
    | float y =>
      rcases Finite64.eq_or_zero he with rfl | ⟨hx, -⟩
      · rfl
      · refine absurd ?_ (hzero rfl)
        rw [← Int.natAbs_eq_zero]
        exact x.natAbs_value.trans hx

theorem setKey_numbers (a b : Json.Number) :
    setKey (.number a) = setKey (.number b) ↔ MergedNumbers a b := by
  obtain ⟨m, hm, hkey⟩ := setKey_number a
  obtain ⟨k, hk, hkey'⟩ := setKey_number b
  rw [hm, hk, Json.number.injEq]
  constructor
  · rintro rfl
    have he : exactUnits a = exactUnits b := hkey.units.symm.trans hkey'.units
    refine ⟨he, ?_⟩
    by_cases hc : Collapses (exactUnits a)
    · exact .inr hc.2
    · left
      have ha := hkey.kind
      have hb := hkey'.kind
      rw [← he] at hb
      simp only [hc, or_false] at ha hb
      exact Bool.eq_iff_iff.2 (ha.symm.trans hb)
  · rintro ⟨he, hsame⟩
    have hunits : exactUnits m = exactUnits k := hkey.units.trans (he.trans hkey'.units.symm)
    refine number_ext (Bool.eq_iff_iff.2 ?_) hunits hkey.nonzero
    rw [hkey.kind, hkey'.kind, ← show exactUnits a = exactUnits b from he]
    rcases hsame with hsame | hlt
    · rw [hsame]
    · have hcollapses {n : Json.Number} (hn : exactUnits n = exactUnits a) (hi : n.isInt = true) :
          Collapses (exactUnits a) := ⟨hn ▸ exactUnits_dvd hi, hlt⟩
      constructor
      · rintro (ha | hc)
        · exact .inr (hcollapses rfl ha)
        · exact .inr hc
      · rintro (hb | hc)
        · exact .inr (hcollapses he.symm hb)
        · exact .inr hc

theorem setKey_of_not_number {v : Json} (h : ∀ n, v ≠ .number n) : setKey v = v := by
  cases v with
  | number n => exact absurd rfl (h n)
  | _ => rfl

theorem setKey_ne_number {v : Json} (h : ∀ n, v ≠ .number n) (n : Json.Number) :
    setKey v ≠ setKey (.number n) := by
  obtain ⟨m, hm, -⟩ := setKey_number n
  rw [setKey_of_not_number h, hm]
  exact h m

theorem sameBy_iff_eq {same : Json.Number → Json.Number → Prop} {v w : Json}
    (h : (∀ n, v ≠ .number n) ∨ ∀ n, w ≠ .number n) : SameBy same v w ↔ v = w := by
  cases v with
  | number a =>
    cases w with
    | number b => exact (h.elim (fun h => h a rfl) fun h => h b rfl).elim
    | _ => exact Iff.rfl
  | _ => exact Iff.rfl

theorem setKey_eq_iff {v w : Json} : setKey v = setKey w ↔ keptClasses v w := by
  change _ ↔ SameBy MergedNumbers v w
  by_cases hv : ∃ a, v = .number a
  · obtain ⟨a, rfl⟩ := hv
    by_cases hw : ∃ b, w = .number b
    · obtain ⟨b, rfl⟩ := hw
      exact setKey_numbers a b
    · rw [not_exists] at hw
      rw [sameBy_iff_eq (.inr hw)]
      exact iff_of_false (setKey_ne_number hw a).symm fun e => hw a e.symm
  · rw [not_exists] at hv
    rw [sameBy_iff_eq (.inl hv)]
    by_cases hw : ∃ b, w = .number b
    · obtain ⟨b, rfl⟩ := hw
      exact iff_of_false (setKey_ne_number hv b) (hv b)
    · rw [not_exists] at hw
      rw [setKey_of_not_number hv, setKey_of_not_number hw]

theorem distinctOf_eq_texts (values : List Json) :
    distinctOf values =
      (presentOf values).eraseDupsBy fun a b => (setKey a).text == (setKey b).text := by
  unfold distinctOf
  congr 1
  funext a b
  rw [Bool.eq_iff_iff, beq_iff_eq, beq_iff_eq]
  exact ⟨congrArg Json.text, fun h => Json.text_injective h⟩

theorem length_eraseDups_eq_card (xs : List Json) : xs.eraseDups.length = xs.toFinset.card := by
  have hsame : xs.eraseDups.toFinset = xs.toFinset := by
    ext v
    rw [List.mem_toFinset, List.mem_toFinset, List.mem_eraseDups]
  rw [← hsame, List.toFinset_card_of_nodup (nodup_eraseDups xs)]

theorem length_distinctOf_eq_classCount {classes : Setoid Json} {values : List Json}
    (h : ∀ v ∈ presentOf values, ∀ w ∈ presentOf values, classes v w ↔ keptClasses v w) :
    (distinctOf values).length = classCount classes values := by
  rw [length_distinctOf, length_eraseDups_eq_card]
  exact (classCount_eq fun v hv w hw => (h v hv w hw).trans setKey_eq_iff.symm).symm

instance (a b : Json.Number) : Decidable (EqualNumbers a b) :=
  inferInstanceAs (Decidable (exactUnits a = exactUnits b))

/-- No float stands beside an equal integer that it does not count as. -/
def Unmixed (values : List Json) : Prop :=
  ∀ a ∈ numbersOf values, ∀ b ∈ numbersOf values, a.isInt = true → b.isInt = false →
    EqualNumbers a b → (exactUnits a).natAbs < collapseLimit

instance (values : List Json) : Decidable (Unmixed values) :=
  inferInstanceAs (Decidable (∀ a ∈ numbersOf values, ∀ b ∈ numbersOf values, _ → _ → _ → _))

theorem mem_numbersOf {n : Json.Number} {values : List Json} (h : .number n ∈ values) :
    n ∈ numbersOf values := List.mem_filterMap.2 ⟨_, h, rfl⟩

theorem Unmixed.merged {values : List Json} (h : Unmixed values) {a b : Json.Number}
    (ha : a ∈ numbersOf values) (hb : b ∈ numbersOf values) (he : EqualNumbers a b) :
    MergedNumbers a b := by
  refine ⟨he, ?_⟩
  cases hka : a.isInt with
  | true =>
    cases hkb : b.isInt with
    | true => exact .inl rfl
    | false => exact .inr (h a ha b hb hka hkb he)
  | false =>
    cases hkb : b.isInt with
    | false => exact .inl rfl
    | true =>
      have hlt := h b hb a ha hkb hka he.symm
      rw [← show exactUnits a = exactUnits b from he] at hlt
      exact .inr hlt

theorem Unmixed.classes {values : List Json} (h : Unmixed values) {v w : Json} (hv : v ∈ values)
    (hw : w ∈ values) : numericClasses v w ↔ keptClasses v w := by
  change SameBy EqualNumbers v w ↔ SameBy MergedNumbers v w
  by_cases hnumbers : (∀ n, v ≠ .number n) ∨ ∀ n, w ≠ .number n
  · rw [sameBy_iff_eq hnumbers, sameBy_iff_eq hnumbers]
  · simp only [not_or, not_forall, not_not] at hnumbers
    obtain ⟨⟨a, rfl⟩, b, rfl⟩ := hnumbers
    exact ⟨fun he => h.merged (mem_numbersOf hv) (mem_numbersOf hw) he, fun hm => hm.1⟩

theorem classCount_congr (classes : Setoid Json) {values others : List Json}
    (h : ∀ v, v ∈ others ↔ v ∈ values) : classCount classes others = classCount classes values := by
  simp only [classCount, h]

/-- The set of an operand holds one value of each class, found by the texts of their keys. Its size
is that of the classes by numeric value wherever these are not mixed, and depends on neither order
nor repetition. -/
theorem distinct_classes (operand : Expr) (docs : List Json) (name : String) :
    let values := docs.map (operand.eval ·)
    let set (docs : List Json) := (Aggregate.mk .addToSet operand name).eval docs
    ∃ items, set docs = .array items ∧
      items = ((presentOf values).eraseDupsBy fun a b => (setKey a).text == (setKey b).text) ∧
      items.length = classCount keptClasses values ∧
      (Unmixed values → items.length = classCount numericClasses values) ∧
      ∀ others : List Json, (∀ v, v ∈ others.map (operand.eval ·) ↔ v ∈ values) →
        ∃ items', set others = .array items' ∧ items'.length = items.length := by
  intro values set
  have hcount (values : List Json) : (distinctOf values).length = classCount keptClasses values :=
    length_distinctOf_eq_classCount fun _ _ _ _ => Iff.rfl
  refine ⟨distinctOf values, rfl, distinctOf_eq_texts values, hcount values, fun hunmixed => ?_,
    fun others ho => ⟨distinctOf (others.map (operand.eval ·)), rfl, ?_⟩⟩
  · exact length_distinctOf_eq_classCount fun v hv w hw =>
      hunmixed.classes (mem_presentOf.1 hv).1 (mem_presentOf.1 hw).1
  · rw [hcount, hcount, classCount_congr keptClasses ho]

def valued (values : List Json) : List Json := values.map fun v => .object [("v", v)]

def floatOf (i : Int) (h : HeldInteger i) : Json := .number (.float ⟨i < 0, i.natAbs * one, h⟩)

def prices : List Json :=
  valued [.ofInt 1, floatOf 1 (by decide +kernel), .string "1", .null, .array [.ofInt 1],
    floatOf 0 (by decide +kernel), .ofInt 0]

theorem distinct_classes_prices :
    Unmixed (prices.map ((Expr.field "v").eval ·)) ∧
      ∃ items, (Aggregate.mk .addToSet (.field "v") "set").eval prices = .array items ∧
        items.length = classCount numericClasses (prices.map ((Expr.field "v").eval ·)) ∧
        ∃ items', (Aggregate.mk .addToSet (.field "v") "set").eval prices.reverse = .array items' ∧
          items'.length = items.length := by
  have hunmixed : Unmixed (prices.map ((Expr.field "v").eval ·)) := by decide +kernel
  obtain ⟨items, hitems, -, -, hcount, hothers⟩ := distinct_classes (.field "v") prices "set"
  refine ⟨hunmixed, items, hitems, hcount hunmixed, hothers prices.reverse fun v => ?_⟩
  rw [List.map_reverse, List.mem_reverse]

def numericKey : Json → Int ⊕ Json
  | .number n => .inl (exactUnits n)
  | v => .inr v

theorem numericClasses_iff {v w : Json} : numericClasses v w ↔ numericKey v = numericKey w := by
  change SameBy EqualNumbers v w ↔ _
  cases v <;> cases w <;> simp [SameBy, EqualNumbers, numericKey]

/-- Integers at the ends of 64 signed bits, each with the float of its value. -/
def endValues : List Json :=
  valued [.ofInt 9223372036854775808, floatOf 9223372036854775808 (by decide +kernel),
    .ofInt (-9223372036854775808), floatOf (-9223372036854775808) (by decide +kernel)]

/-- From 2^63 on and at -2^63 an integer and the float of its value are kept apart. -/
theorem ends_kept_apart :
    (∃ items, (Aggregate.mk .addToSet (.field "v") "set").eval endValues = .array items ∧
      items.length = 4) ∧
      classCount numericClasses (endValues.map ((Expr.field "v").eval ·)) = 2 := by
  constructor
  · exact ⟨_, rfl, by decide +kernel⟩
  · rw [classCount_eq fun _ _ _ _ => numericClasses_iff]
    decide +kernel

end Indicators.Pipeline
