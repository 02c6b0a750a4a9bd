import Indicators.Proofs.Pipeline.Reductions

set_option autoImplicit false

/-! Integers are compared and added as floats. An extreme of integers is one of them, and what
exceeds it has the same float; a sum is exact while every partial sum is a float. -/

namespace Indicators.Pipeline

open Indicators Indicators.Number

def integerNumber (x : Int64) : Json.Number := .int x.toInt (Json.word_int64 x)

theorem unitsOf_integer (x : Int64) : unitsOf (integerNumber x) = roundedUnits x.toInt := by
  obtain ⟨f, hf, -, hvalue⟩ := Binary64.ofInt_rounded (wordSized_int64 x)
  unfold unitsOf integerNumber
  rw [Json.Number.toBinary64, hf, ← hvalue]
  rfl

theorem numbersOf_integers (xs : List Int64) :
    numbersOf (xs.map Json.ofInt64) = xs.map integerNumber := by
  unfold numbersOf
  rw [List.filterMap_map]
  exact congrFun List.filterMap_eq_map xs

theorem extreme_integers {choose : Json → Json → Json} {below : Int → Int → Prop}
    (h : Chooses choose below) (refl : ∀ x, below x x)
    (trans : ∀ {x y z}, below x y → below y z → below x z) {xs : List Int64} (hne : xs ≠ []) :
    ∃ m ∈ xs, reduceWith choose (presentOf (xs.map Json.ofInt64)) = .ofInt64 m ∧
      ∀ x ∈ xs, below (roundedUnits x.toInt) (roundedUnits m.toInt) := by
  have hnumeric : ∀ v ∈ xs.map Json.ofInt64, Numeric v := by
    intro v hv
    obtain ⟨x, -, rfl⟩ := List.mem_map.1 hv
    exact .number (integerNumber x)
  cases xs with
  | nil => exact absurd rfl hne
  | cons first rest =>
    obtain ⟨n, hn, hreduce, hextreme⟩ :=
      reduceWith_numbers h refl trans (integerNumber first) (rest.map integerNumber)
    rw [← List.map_cons] at hn hreduce hextreme
    obtain ⟨m, hm, rfl⟩ := List.mem_map.1 hn
    refine ⟨m, hm, ?_, fun x hx => ?_⟩
    · rw [presentOf_numeric hnumeric, numbersOf_integers, hreduce]
      rfl
    · rw [← unitsOf_integer, ← unitsOf_integer]
      exact hextreme _ (List.mem_map_of_mem hx)

theorem le_or_sameFloat {x y : Int64}
    (h : roundedUnits x.toInt ≤ roundedUnits y.toInt) :
    x.toInt ≤ y.toInt ∨ SameFloat x.toInt y.toInt := by
  rcases Int.le_total x.toInt y.toInt with hle | hge
  · exact .inl hle
  · have hback := roundedUnits_mono hge
    have hiff := Binary64.sameFloat_iff (wordSized_int64 x) (wordSized_int64 y)
    exact .inr (hiff.2 (le_antisymm h hback))

/-- One of the integers, and extreme among them. -/
def Extreme (below : Int → Int → Prop) (xs : List Int64) (result : Json) : Prop :=
  ∃ m ∈ xs, result = .ofInt64 m ∧ ∀ x ∈ xs, below x.toInt m.toInt

def AllApart (xs : List Int64) : Prop := ∀ x ∈ xs, ∀ y ∈ xs, Apart x.toInt y.toInt

theorem allApart_iff {xs : List Int64} :
    (∀ i ∈ xs.map Int64.toInt, ∀ j ∈ xs.map Int64.toInt, Apart i j) ↔ AllApart xs := by
  unfold AllApart
  simp only [List.forall_mem_map]

/-- Decided over the integers: there are too many words to go through them all. -/
instance (xs : List Int64) : Decidable (AllApart xs) := decidable_of_iff _ allApart_iff

theorem allApart_of_le {xs : List Int64} (h : ∀ x ∈ xs, x.toInt.natAbs ≤ exactLimit) :
    AllApart xs :=
  fun x hx y hy => apart_of_le (h x hx) (h y hy)

theorem Extreme.of_allApart {below : Int → Int → Prop} {xs : List Int64} {result : Json}
    (h : Extreme (fun x m => below x m ∨ SameFloat x m) xs result) (ha : AllApart xs)
    (refl : ∀ x, below x x) : Extreme below xs result := by
  obtain ⟨m, hm, hresult, hextreme⟩ := h
  refine ⟨m, hm, hresult, fun x hx => ?_⟩
  rcases hextreme x hx with hbelow | hsame
  · exact hbelow
  · rw [ha x hx m hm hsame]
    exact refl _

theorem reduces_max {xs : List Int64} (hne : xs ≠ []) :
    Extreme (fun x m => x ≤ m ∨ SameFloat x m) xs
      (Accumulator.max.reduce (xs.map Json.ofInt64)) := by
  obtain ⟨m, hm, hreduce, hextreme⟩ := extreme_integers laterMax_chooses le_refl le_trans hne
  exact ⟨m, hm, hreduce, fun x hx => le_or_sameFloat (hextreme x hx)⟩

theorem reduces_min {xs : List Int64} (hne : xs ≠ []) :
    Extreme (fun x m => x ≥ m ∨ SameFloat x m) xs
      (Accumulator.min.reduce (xs.map Json.ofInt64)) := by
  obtain ⟨m, hm, hreduce, hextreme⟩ :=
    extreme_integers earlierMin_chooses le_refl (fun h h' => le_trans h' h) hne
  exact ⟨m, hm, hreduce, fun x hx => (le_or_sameFloat (hextreme x hx)).imp_right Eq.symm⟩

def total (xs : List Int64) : Int := (xs.map Int64.toInt).sum

/-- Every integer and every sum of the first ones is a float, and the whole sum lies within 64
signed bits. -/
structure SumsHeld (xs : List Int64) : Prop where
  operands : ∀ x ∈ xs, HeldInteger x.toInt
  parts : ∀ k ≤ xs.length, HeldInteger (total (xs.take k))
  word : (total xs).natAbs < 0x8000000000000000

theorem SumsHeld.of_le {xs : List Int64} (h : ∀ x ∈ xs, x.toInt.natAbs ≤ exactLimit)
    (hparts : ∀ k ≤ xs.length, (total (xs.take k)).natAbs ≤ exactLimit) : SumsHeld xs := by
  have htotal := hparts _ (le_refl _)
  rw [List.take_length] at htotal
  exact ⟨fun x hx => heldInteger_of_le (h x hx), fun k hk => heldInteger_of_le (hparts k hk),
    lt_of_le_of_lt htotal (by decide)⟩

theorem integerOf_integers (xs : List Int64) :
    ((xs.map integerNumber).map integerOf).sum = total xs := by
  rw [List.map_map]
  rfl

theorem reduces_sum {xs : List Int64} (h : SumsHeld xs) :
    Accumulator.sum.reduce (xs.map Json.ofInt64) = .ofInt (total xs) := by
  have hnumbers := numbersOf_integers xs
  have hint : ∀ n ∈ numbersOf (xs.map Json.ofInt64), n.isInt = true := by
    rw [hnumbers]
    intro n hn
    obtain ⟨x, -, rfl⟩ := List.mem_map.1 hn
    rfl
  have hheld : ∀ n ∈ numbersOf (xs.map Json.ofInt64), HeldInteger (integerOf n) := by
    rw [hnumbers]
    intro n hn
    obtain ⟨x, hx, rfl⟩ := List.mem_map.1 hn
    exact h.operands x hx
  have hparts : ∀ k ≤ (numbersOf (xs.map Json.ofInt64)).length,
      HeldInteger (((numbersOf (xs.map Json.ofInt64)).take k).map integerOf).sum := by
    rw [hnumbers, List.length_map]
    intro k hk
    rw [← List.map_take, integerOf_integers]
    exact h.parts k hk
  have hsum := sumOf_held hint hheld hparts
  rw [hnumbers, integerOf_integers] at hsum
  exact hsum h.word

/-- What the reductions of a group make of integers, in whatever order its documents give them. -/
theorem reduces_integers {operand : Expr} {docs : List Json} {xs : List Int64} (name : String)
    (hne : docs ≠ []) (h : docs.map (operand.eval ·) = xs.map Json.ofInt64) :
    let greatest := (Aggregate.mk .max operand name).eval docs
    let least := (Aggregate.mk .min operand name).eval docs
    Extreme (fun x m => x ≤ m ∨ SameFloat x m) xs greatest ∧
    Extreme (fun x m => x ≥ m ∨ SameFloat x m) xs least ∧
    (AllApart xs → Extreme (· ≤ ·) xs greatest ∧ Extreme (· ≥ ·) xs least) ∧
    (SumsHeld xs → (Aggregate.mk .sum operand name).eval docs = .ofInt (total xs)) ∧
    ((∀ x ∈ xs, x.toInt.natAbs ≤ exactLimit) → AllApart xs ∧
      ((∀ k ≤ xs.length, (total (xs.take k)).natAbs ≤ exactLimit) → SumsHeld xs)) := by
  have hxs : xs ≠ [] := by
    rintro rfl
    exact hne (List.map_eq_nil_iff.1 h)
  intro greatest least
  have hgreatest : Extreme (fun x m => x ≤ m ∨ SameFloat x m) xs greatest := by
    have hmax := reduces_max hxs
    rwa [← h] at hmax
  have hleast : Extreme (fun x m => x ≥ m ∨ SameFloat x m) xs least := by
    have hmin := reduces_min hxs
    rwa [← h] at hmin
  refine ⟨hgreatest, hleast,
    fun ha => ⟨hgreatest.of_allApart ha le_refl, hleast.of_allApart ha le_refl⟩, fun hs => ?_,
    fun hle => ⟨allApart_of_le hle, SumsHeld.of_le hle⟩⟩
  have hsum := reduces_sum hs
  rwa [← h] at hsum

def numbered (xs : List Int64) : List Json := xs.map fun x => .object [("n", .ofInt64 x)]

def farIntegers : List Int64 := [1152921504606847488, 1152921504606846976]

theorem reduces_integers_far :
    numbered farIntegers ≠ [] ∧
      (numbered farIntegers).map ((Expr.field "n").eval ·) = farIntegers.map Json.ofInt64 ∧
      AllApart farIntegers ∧ SumsHeld farIntegers ∧
      (∃ m ∈ farIntegers, (Aggregate.mk .max (.field "n") "m").eval (numbered farIntegers) =
        .ofInt64 m ∧ ∀ x ∈ farIntegers, x.toInt ≤ m.toInt) ∧
      (∃ m ∈ farIntegers, (Aggregate.mk .min (.field "n") "m").eval (numbered farIntegers) =
        .ofInt64 m ∧ ∀ x ∈ farIntegers, x.toInt ≥ m.toInt) ∧
      (Aggregate.mk .sum (.field "n") "m").eval (numbered farIntegers) =
        .ofInt 2305843009213694464 := by
  have hne : numbered farIntegers ≠ [] := by decide
  have hoperands : (numbered farIntegers).map ((Expr.field "n").eval ·) =
      farIntegers.map Json.ofInt64 := by decide +kernel
  have hapart : AllApart farIntegers := by decide +kernel
  have hheld : ∀ i ∈ farIntegers.map Int64.toInt, HeldInteger i := by decide +kernel
  have hsums : SumsHeld farIntegers :=
    ⟨List.forall_mem_map.1 hheld, by decide +kernel, by decide +kernel⟩
  obtain ⟨-, -, hextremes, hsum, -⟩ := reduces_integers "m" hne hoperands
  obtain ⟨hgreatest, hleast⟩ := hextremes hapart
  exact ⟨hne, hoperands, hapart, hsums, hgreatest, hleast, hsum hsums⟩

/-- From 2^53 on the later of two integers may pass for the greatest, the earlier for the least, and
the sum of a single one may be another. -/
theorem extremes_beyond_limit :
    (numbered [9007199254740993, 9007199254740992]).map ((Expr.field "n").eval ·) =
        [9007199254740993, 9007199254740992].map Json.ofInt64 ∧
      (Aggregate.mk .max (.field "n") "m").eval
        (numbered [9007199254740993, 9007199254740992]) = .ofInt64 9007199254740992 ∧
      (Aggregate.mk .min (.field "n") "m").eval
        (numbered [9007199254740993, 9007199254740992]) = .ofInt64 9007199254740993 ∧
      (Aggregate.mk .sum (.field "n") "m").eval (numbered [9007199254740993]) =
        .ofInt 9007199254740992 := by
  decide +kernel

end Indicators.Pipeline
