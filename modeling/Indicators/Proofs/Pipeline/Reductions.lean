import Indicators.Proofs.Pipeline.Grouping
import Indicators.Proofs.Pipeline.Numbers
import Mathlib.Algebra.Order.BigOperators.Group.List

set_option autoImplicit false

/-! A count is a float sum of ones: exact up to 2^53, where it stays. -/

namespace Indicators.Pipeline

open Indicators Indicators.Number

theorem numberValue_ofInt {i : Int} (h : i.natAbs ≤ exactLimit) :
    numberValue (Binary64.ofInt i) = .ofInt i :=
  numberValue_of_whole (wholeInt?_of_held (heldInteger_of_le h) (lt_of_le_of_lt h (by decide)))

def oneNumber : Json.Number := .int 1 (by decide)

theorem numbersOf_replicate_one (n : Nat) :
    numbersOf (List.replicate n (.number oneNumber)) = List.replicate n oneNumber := by
  unfold numbersOf
  rw [List.filterMap_replicate]

theorem ofInt_add_one (k : Nat) :
    Binary64.ofInt (min k exactLimit : Nat) + Binary64.ofInt 1 =
      Binary64.ofInt (min (k + 1) exactLimit : Nat) := by
  rcases Nat.lt_or_ge k exactLimit with hlt | hge
  · rw [Nat.min_eq_left hlt.le, Nat.min_eq_left hlt,
      Binary64.ofInt_add_ofInt (by simpa using hlt.le) (by decide)]
    rfl
  · rw [Nat.min_eq_right hge, Nat.min_eq_right (hge.trans (Nat.le_succ k))]
    exact Binary64.ofInt_limit_add_one

theorem foldl_ones (n k : Nat) :
    (List.replicate n oneNumber).foldl (fun total n => total + n.toBinary64)
        (Binary64.ofInt (min k exactLimit : Nat)) =
      Binary64.ofInt (min (k + n) exactLimit : Nat) := by
  induction n generalizing k with
  | zero => rw [List.replicate_zero, List.foldl_nil, Nat.add_zero]
  | succ n ih =>
    have hone : oneNumber.toBinary64 = Binary64.ofInt 1 := rfl
    rw [List.replicate_succ, List.foldl_cons, hone, ofInt_add_one, ih, Nat.add_assoc k 1 n,
      Nat.add_comm 1 n]

theorem sumOf_ones (n : Nat) :
    sumOf (List.replicate n (.number oneNumber)) = .ofNat (min n exactLimit) := by
  have hstart : Binary64.zero false = Binary64.ofInt (min 0 exactLimit : Nat) := by
    rw [Nat.zero_min]
    exact Binary64.zero_eq_ofInt
  have hall : (List.replicate n oneNumber).all (·.isInt) = true := by
    simp [Json.Number.isInt, oneNumber]
  have hle : ((min n exactLimit : Nat) : Int).natAbs ≤ exactLimit := by
    rw [Int.natAbs_natCast]
    exact Nat.min_le_right _ _
  unfold sumOf
  simp only [numbersOf_replicate_one, hall, if_true]
  rw [hstart, foldl_ones, Nat.zero_add, numberValue_ofInt hle]
  rfl

theorem map_eraseDupsBy_setKey (values : List Json) :
    (values.eraseDupsBy fun a b => setKey a == setKey b).map setKey =
      (values.map setKey).eraseDups := by
  induction values using filterInduction with
  | nil => rfl
  | cons v rest ih =>
    have hfilter : (rest.filter fun b => (setKey b == setKey v) = false).map setKey =
        (rest.map setKey).filter fun b => !b == setKey v := by
      rw [List.filter_map]
      congr 1
      refine List.filter_congr fun b _ => ?_
      rw [Function.comp_apply]
      cases setKey b == setKey v <;> rfl
    rw [List.eraseDupsBy_cons, List.map_cons, List.map_cons, List.eraseDups_cons, ← hfilter, ih]

theorem length_distinctOf (values : List Json) :
    (distinctOf values).length = ((presentOf values).map setKey).eraseDups.length := by
  rw [← map_eraseDupsBy_setKey, List.length_map]
  rfl

theorem mem_presentOf {v : Json} {values : List Json} :
    v ∈ presentOf values ↔ v ∈ values ∧ v ≠ .null := by
  unfold presentOf
  rw [List.mem_filter]
  refine and_congr_right fun _ => ?_
  cases v <;> simp [Json.isNull]

theorem presentOf_perm {values others : List Json} (h : values.Perm others) :
    (presentOf values).Perm (presentOf others) := h.filter _

theorem length_distinctOf_perm {values others : List Json} (h : values.Perm others) :
    (distinctOf values).length = (distinctOf others).length := by
  have hp := (presentOf_perm h).map setKey
  rw [length_distinctOf, length_distinctOf]
  exact Nat.le_antisymm (length_eraseDups_le fun _ hx => hp.mem_iff.1 hx)
    (length_eraseDups_le fun _ hx => hp.mem_iff.2 hx)

theorem toBinary64_finite (n : Json.Number) : ∃ x : Finite64, n.toBinary64 = .finite x := by
  cases n with
  | int i word =>
    refine Binary64.ofInt_finite ?_
    obtain ⟨hl, hu⟩ := word
    have hb : (2 : Nat) ^ 64 = 0x10000000000000000 := by decide
    omega
  | float x => exact ⟨x, rfl⟩

def unitsOf (n : Json.Number) : Int := (n.toBinary64.finite?.map Finite64.value).getD 0

theorem compareValues_number (a b : Json.Number) :
    compareValues (.number a) (.number b) = compare (unitsOf a) (unitsOf b) := by
  obtain ⟨x, hx⟩ := toBinary64_finite a
  obtain ⟨y, hy⟩ := toBinary64_finite b
  simp only [compareValues, unitsOf, hx, hy, Binary64.compare?, Binary64.finite?, Option.map_some,
    Option.getD_some]
  rfl

inductive Numeric : Json → Prop where
  | null : Numeric .null
  | number (n : Json.Number) : Numeric (.number n)

theorem presentOf_numeric {values : List Json} (h : ∀ v ∈ values, Numeric v) :
    presentOf values = (numbersOf values).map .number := by
  induction values with
  | nil => rfl
  | cons v rest ih =>
    have hr := ih fun u hu => h u (List.mem_cons_of_mem _ hu)
    unfold presentOf numbersOf at hr ⊢
    cases h v List.mem_cons_self with
    | null => exact hr
    | number n => exact congrArg (List.cons _) hr

/-- Of two numbers one is chosen, and it is extreme. -/
def Chooses (choose : Json → Json → Json) (below : Int → Int → Prop) : Prop :=
  ∀ a b : Json.Number, ∃ m, choose (.number a) (.number b) = .number m ∧ (m = a ∨ m = b) ∧
    below (unitsOf a) (unitsOf m) ∧ below (unitsOf b) (unitsOf m)

theorem laterMax_chooses : Chooses laterMax (· ≤ ·) := by
  intro a b
  unfold laterMax
  rw [compareValues_number]
  split
  · next h =>
    rw [Int.compare_eq_gt] at h
    exact ⟨a, rfl, .inl rfl, le_refl _, h.le⟩
  · next h =>
    rw [Int.compare_eq_gt, not_lt] at h
    exact ⟨b, rfl, .inr rfl, h, le_refl _⟩

theorem earlierMin_chooses : Chooses earlierMin (· ≥ ·) := by
  intro a b
  unfold earlierMin
  rw [compareValues_number]
  split
  · next h =>
    rw [Int.compare_eq_gt] at h
    exact ⟨b, rfl, .inr rfl, h.le, le_refl _⟩
  · next h =>
    rw [Int.compare_eq_gt, not_lt] at h
    exact ⟨a, rfl, .inl rfl, le_refl _, h⟩

/-- The value that is chosen among several is one of them and extreme among them. -/
theorem reduceWith_extreme {choose : Json → Json → Json} {below : Json → Json → Prop}
    (refl : ∀ v, below v v) (trans : ∀ {u v w}, below u v → below v w → below u w)
    {values : List Json} (hne : values ≠ [])
    (h : ∀ a ∈ values, ∀ b ∈ values, (choose a b = a ∨ choose a b = b) ∧
      below a (choose a b) ∧ below b (choose a b)) :
    reduceWith choose values ∈ values ∧ ∀ v ∈ values, below v (reduceWith choose values) := by
  cases values with
  | nil => exact absurd rfl hne
  | cons first rest =>
    clear hne
    induction rest generalizing first with
    | nil =>
      refine ⟨List.mem_cons_self, fun v hv => ?_⟩
      rw [List.mem_singleton.1 hv]
      exact refl _
    | cons second rest ih =>
      obtain ⟨hchosen, hfirst, hsecond⟩ := h first List.mem_cons_self second (by simp)
      have hsub : ∀ v ∈ choose first second :: rest, v ∈ first :: second :: rest := by
        intro v hv
        rcases List.mem_cons.1 hv with rfl | hv
        · rcases hchosen with he | he <;> simp [he]
        · simp [hv]
      obtain ⟨hmem, hextreme⟩ := ih (choose first second) fun a ha b hb =>
        h a (hsub a ha) b (hsub b hb)
      have htop := hextreme _ List.mem_cons_self
      refine ⟨hsub _ hmem, fun v hv => ?_⟩
      rcases List.mem_cons.1 hv with rfl | hv
      · exact trans hfirst htop
      · rcases List.mem_cons.1 hv with rfl | hv
        · exact trans hsecond htop
        · exact hextreme v (List.mem_cons_of_mem _ hv)

def unitsAt : Json → Int
  | .number n => unitsOf n
  | _ => 0

theorem reduceWith_numbers {choose : Json → Json → Json} {below : Int → Int → Prop}
    (h : Chooses choose below) (refl : ∀ x, below x x)
    (trans : ∀ {x y z}, below x y → below y z → below x z) (n : Json.Number)
    (rest : List Json.Number) :
    ∃ m ∈ n :: rest, reduceWith choose ((n :: rest).map .number) = .number m ∧
      ∀ k ∈ n :: rest, below (unitsOf k) (unitsOf m) := by
  have hchoose : ∀ a ∈ (n :: rest).map Json.number, ∀ b ∈ (n :: rest).map Json.number,
      (choose a b = a ∨ choose a b = b) ∧ below (unitsAt a) (unitsAt (choose a b)) ∧
        below (unitsAt b) (unitsAt (choose a b)) := by
    simp only [List.forall_mem_map]
    intro a _ b _
    obtain ⟨m, hm, hchosen, ha, hb⟩ := h a b
    rw [hm]
    exact ⟨hchosen.imp (congrArg _) (congrArg _), ha, hb⟩
  obtain ⟨hmem, hextreme⟩ := @reduceWith_extreme choose
    (fun v w => below (unitsAt v) (unitsAt w)) (fun _ => refl _) trans _ (by simp) hchoose
  obtain ⟨m, hm, hreduce⟩ := List.mem_map.1 hmem
  rw [← hreduce] at hextreme ⊢
  exact ⟨m, hm, rfl, fun k hk => hextreme _ (List.mem_map_of_mem hk)⟩

theorem numeric_ofBinary64 (x : Binary64) : Numeric (.ofBinary64 x) := by
  cases x with
  | finite x => exact .number _
  | infinity negative => exact .null
  | nan => exact .null

theorem word_of_natAbs_lt {i : Int} (h : i.natAbs < 0x8000000000000000) : Json.Word i := by
  unfold Json.Word
  omega

theorem word_of_lt {n : Nat} (h : n < 2 ^ 64) : Json.Word n := by
  unfold Json.Word
  omega

theorem ofInt_of_word {i : Int} (h : Json.Word i) : Json.ofInt i = .number (.int i h) := by
  unfold Json.ofInt
  exact dif_pos h

theorem numeric_ofInt (i : Int) : Numeric (.ofInt i) := by
  unfold Json.ofInt
  split
  · exact .number _
  · split
    · exact .number _
    · exact .null

theorem numeric_numberValue (x : Binary64) : Numeric (numberValue x) := by
  unfold numberValue
  cases wholeInt? x with
  | none => exact numeric_ofBinary64 x
  | some i => exact numeric_ofInt i

theorem numeric_asNumber (stored : Json) : Numeric (asNumber stored) := by
  cases stored with
  | number n => exact .number n
  | string s =>
    unfold asNumber
    dsimp only
    split
    · exact numeric_numberValue _
    · exact .null
  | bool b => exact numeric_ofInt (if b then 1 else 0)
  | _ => exact .null

theorem numeric_sumOf (values : List Json) : Numeric (sumOf values) := by
  unfold sumOf
  dsimp only
  split
  · exact numeric_numberValue _
  · exact numeric_ofBinary64 _

theorem numeric_meanOf (values : List Json) : Numeric (meanOf values) := by
  unfold meanOf
  split
  · exact .null
  · exact numeric_ofBinary64 _

theorem numeric_reduceWith {choose : Json → Json → Json} {below : Int → Int → Prop}
    (h : Chooses choose below) (refl : ∀ x, below x x)
    (trans : ∀ {x y z}, below x y → below y z → below x z) {values : List Json}
    (hn : ∀ v ∈ values, Numeric v) :
    Numeric (reduceWith choose (presentOf values)) := by
  rw [presentOf_numeric hn]
  cases numbersOf values with
  | nil => exact .null
  | cons n rest =>
    obtain ⟨m, -, hreduce, -⟩ := reduceWith_numbers h refl trans n rest
    rw [hreduce]
    exact .number m

inductive SameNumber : Json → Json → Prop where
  | refl (v : Json) : SameNumber v v
  | units {a b : Json.Number} (h : unitsOf a = unitsOf b) : SameNumber (.number a) (.number b)

theorem reduceWith_sameUnits {choose : Json → Json → Json} {below : Int → Int → Prop}
    (h : Chooses choose below) (refl : ∀ x, below x x)
    (trans : ∀ {x y z}, below x y → below y z → below x z)
    (antisymm : ∀ {x y}, below x y → below y x → x = y) {numbers others : List Json.Number}
    (hu : ∀ u, u ∈ numbers.map unitsOf ↔ u ∈ others.map unitsOf) :
    SameNumber (reduceWith choose (numbers.map .number))
      (reduceWith choose (others.map .number)) := by
  cases numbers with
  | nil =>
    have hnil : others = [] := by
      refine List.eq_nil_iff_forall_not_mem.2 fun n hn => ?_
      exact absurd ((hu _).2 (List.mem_map_of_mem hn)) List.not_mem_nil
    rw [hnil]
    exact .refl _
  | cons a as =>
    cases others with
    | nil => exact absurd ((hu _).1 List.mem_cons_self) List.not_mem_nil
    | cons b bs =>
      obtain ⟨m, hm, hreduce, hextreme⟩ := reduceWith_numbers h refl trans a as
      obtain ⟨k, hk, hreduce', hextreme'⟩ := reduceWith_numbers h refl trans b bs
      obtain ⟨m', hm', hmu⟩ := List.mem_map.1 ((hu _).1 (List.mem_map_of_mem hm))
      obtain ⟨k', hk', hku⟩ := List.mem_map.1 ((hu _).2 (List.mem_map_of_mem hk))
      rw [hreduce, hreduce']
      exact .units (antisymm (hmu ▸ hextreme' m' hm') (hku ▸ hextreme k' hk'))

theorem reduceWith_perm {choose : Json → Json → Json} {below : Int → Int → Prop}
    (h : Chooses choose below) (refl : ∀ x, below x x)
    (trans : ∀ {x y z}, below x y → below y z → below x z)
    (antisymm : ∀ {x y}, below x y → below y x → x = y)
    {values others : List Json} (hn : ∀ v ∈ values, Numeric v) (hp : values.Perm others) :
    SameNumber (reduceWith choose (presentOf values)) (reduceWith choose (presentOf others)) := by
  have hnumbers : (numbersOf values).Perm (numbersOf others) := hp.filterMap _
  rw [presentOf_numeric hn, presentOf_numeric fun v hv => hn v (hp.mem_iff.2 hv)]
  exact reduceWith_sameUnits h refl trans antisymm fun _ => (hnumbers.map unitsOf).mem_iff

def integerOf : Json.Number → Int
  | .int i _ => i
  | .float _ => 0

/-- Integers whose absolute values together are held exactly. -/
def ExactlySummed (numbers : List Json.Number) : Prop :=
  (∀ n ∈ numbers, n.isInt = true) ∧ (numbers.map fun n => (integerOf n).natAbs).sum < exactLimit

instance (numbers : List Json.Number) : Decidable (ExactlySummed numbers) :=
  inferInstanceAs (Decidable (_ ∧ _))

/-- Where every integer is held and every partial sum as well, nothing is rounded. -/
theorem foldl_held (numbers : List Json.Number) (start : Int)
    (hint : ∀ n ∈ numbers, n.isInt = true) (hheld : ∀ n ∈ numbers, HeldInteger (integerOf n))
    (hparts : ∀ k ≤ numbers.length, HeldInteger (start + ((numbers.take k).map integerOf).sum)) :
    numbers.foldl (fun total n => total + n.toBinary64) (Binary64.ofInt start) =
      Binary64.ofInt (start + (numbers.map integerOf).sum) := by
  induction numbers generalizing start with
  | nil => rw [List.foldl_nil, List.map_nil, List.sum_nil, Int.add_zero]
  | cons n rest ih =>
    cases n with
    | float x => exact absurd (hint _ List.mem_cons_self) Bool.false_ne_true
    | int i word =>
      have hstart : HeldInteger start := by
        have h := hparts 0 (Nat.zero_le _)
        rwa [List.take_zero, List.map_nil, List.sum_nil, Int.add_zero] at h
      have hadd : Binary64.ofInt start + Binary64.ofInt i = Binary64.ofInt (start + i) :=
        Binary64.ofInt_add_of_held hstart (hheld (.int i word) List.mem_cons_self)
      have hnext (k : Nat) (hk : k ≤ rest.length) :
          HeldInteger (start + i + ((rest.take k).map integerOf).sum) := by
        have h := hparts (k + 1) (Nat.succ_le_succ hk)
        rwa [List.take_succ_cons, List.map_cons, List.sum_cons, integerOf, ← Int.add_assoc] at h
      rw [List.foldl_cons, Json.Number.toBinary64, hadd, List.map_cons, List.sum_cons, integerOf,
        ← Int.add_assoc]
      exact ih (start + i) (fun m hm => hint m (List.mem_cons_of_mem _ hm))
        (fun m hm => hheld m (List.mem_cons_of_mem _ hm)) hnext

theorem sumOf_held {values : List Json} (hint : ∀ n ∈ numbersOf values, n.isInt = true)
    (hheld : ∀ n ∈ numbersOf values, HeldInteger (integerOf n))
    (hparts : ∀ k ≤ (numbersOf values).length,
      HeldInteger (((numbersOf values).take k).map integerOf).sum)
    (hlt : ((numbersOf values).map integerOf).sum.natAbs < 0x8000000000000000) :
    sumOf values = .ofInt ((numbersOf values).map integerOf).sum := by
  have hfold := foldl_held (numbersOf values) 0 hint hheld fun k hk => by
    rw [Int.zero_add]
    exact hparts k hk
  have htotal : HeldInteger ((numbersOf values).map integerOf).sum := by
    have h := hparts _ (le_refl _)
    rwa [List.take_length] at h
  rw [Int.zero_add] at hfold
  unfold sumOf
  simp only [List.all_eq_true.2 hint, if_true]
  rw [Binary64.zero_eq_ofInt, hfold, numberValue_of_whole (wholeInt?_of_held htotal hlt)]

theorem natAbs_sum_take_le (numbers : List Json.Number) (k : Nat) :
    ((numbers.take k).map integerOf).sum.natAbs ≤
      (numbers.map fun n => (integerOf n).natAbs).sum := by
  induction numbers generalizing k with
  | nil => simp
  | cons n rest ih =>
    cases k with
    | zero => simp
    | succ k =>
      have hrest := ih k
      rw [List.take_succ_cons, List.map_cons, List.sum_cons, List.map_cons, List.sum_cons]
      omega

theorem sumOf_exact {values : List Json} (h : ExactlySummed (numbersOf values)) :
    sumOf values = .ofInt ((numbersOf values).map integerOf).sum := by
  obtain ⟨hint, hsum⟩ := h
  have hpart (k : Nat) : (((numbersOf values).take k).map integerOf).sum.natAbs ≤ exactLimit :=
    (natAbs_sum_take_le _ k).trans hsum.le
  have hone (n : Json.Number) (hn : n ∈ numbersOf values) : (integerOf n).natAbs ≤ exactLimit :=
    (List.single_le_sum (fun _ _ => Nat.zero_le _) _ (List.mem_map_of_mem hn)).trans hsum.le
  refine sumOf_held hint (fun n hn => heldInteger_of_le (hone n hn))
    (fun k _ => heldInteger_of_le (hpart k)) ?_
  have htotal := hpart (numbersOf values).length
  rw [List.take_length] at htotal
  exact lt_of_le_of_lt htotal (by decide)

theorem sumOf_perm {values others : List Json} (h : ExactlySummed (numbersOf values))
    (hp : values.Perm others) : sumOf values = sumOf others := by
  have hnumbers : (numbersOf values).Perm (numbersOf others) := hp.filterMap _
  have hother : ExactlySummed (numbersOf others) := by
    refine ⟨fun n hn => h.1 n (hnumbers.mem_iff.2 hn), ?_⟩
    rw [← (hnumbers.map fun n => (integerOf n).natAbs).sum_eq]
    exact h.2
  rw [sumOf_exact h, sumOf_exact hother, (hnumbers.map integerOf).sum_eq]

end Indicators.Pipeline
