import Indicators.Proofs.Number.Rounding
import Indicators.Pipeline.Value

set_option autoImplicit false

/-! Integers of at most 53 digits are held exactly, and of integers that are held the sum is rounded
once; at 2^53 adding one changes nothing any more. -/

namespace Indicators.Number

/-- The greatest integer below which no integer is missing. -/
def exactLimit : Nat := 2 ^ 53

theorem magnitude_one_pos : 0 < one := by
  unfold one
  generalize 1074 = n
  exact Nat.two_pow_pos n

theorem pow_mul_one (k : Nat) : 2 ^ k * one = Nat.pow 2 (k + 1074) := by
  unfold one
  generalize 1074 = n
  exact (Nat.pow_add 2 k n).symm

theorem pow_lt_limit {k : Nat} (h : k < 2098) : Nat.pow 2 k < limit := by
  unfold limit
  generalize 2098 = n at h
  exact Nat.pow_lt_pow_right (by decide) h

theorem held_pow_mul_one {k : Nat} (h : k < 1024) : Held (2 ^ k * one) := by
  rw [pow_mul_one]
  have hk := @lastPlace_dvd 1 (k + 1074) (by decide)
  rw [Nat.one_mul] at hk
  exact ⟨pow_lt_limit (by omega), hk⟩

theorem held_mul_one {n : Nat} (h : n ≤ exactLimit) : Held (n * one) := by
  have h53 : exactLimit * one < limit := by
    unfold exactLimit
    exact (held_pow_mul_one (by decide)).1
  refine ⟨lt_of_le_of_lt (Nat.mul_le_mul_right _ h) h53, ?_⟩
  unfold one
  generalize 1074 = s
  exact lastPlace_dvd h

def HeldInteger (i : Int) : Prop := Held (i.natAbs * one)

instance (i : Int) : Decidable (HeldInteger i) := inferInstanceAs (Decidable (Held _))

theorem heldInteger_of_le {i : Int} (h : i.natAbs ≤ exactLimit) : HeldInteger i := held_mul_one h

namespace Binary64

theorem round_of_held (negative : Bool) {units den : Nat} (hd : 0 < den) (held : Held units) :
    round negative (units * den) den = .finite ⟨negative, units, held⟩ := by
  have h := nearest_of_held hd held
  unfold round
  rw [dif_pos (by rw [h]; exact held.1)]
  simp only [h]

theorem round_le_of_le_mul (negative : Bool) {num den units : Nat} (hd : 0 < den)
    (held : Held units) (h : num ≤ units * den) :
    ∃ x : Finite64, round negative num den = .finite x ∧ x.negative = negative ∧
      x.units ≤ units := by
  have hle := nearest_le_of_le_mul hd held h
  unfold round
  rw [dif_pos (lt_of_le_of_lt hle held.1)]
  exact ⟨_, rfl, rfl, hle⟩

theorem ofInt_of_held {i : Int} (h : HeldInteger i) :
    ofInt i = .finite ⟨i < 0, i.natAbs * one, h⟩ := by
  have hr := round_of_held (decide (i < 0)) Nat.one_pos h
  rwa [Nat.mul_one] at hr

theorem ofInt_eq {i : Int} (h : i.natAbs ≤ exactLimit) :
    ofInt i = .finite ⟨i < 0, i.natAbs * one, held_mul_one h⟩ := ofInt_of_held (held_mul_one h)

theorem zero_eq_ofInt : zero false = ofInt 0 := by
  rw [ofInt_eq (by decide)]
  simp [zero]

theorem ofInt_finite {i : Int} (h : i.natAbs ≤ 2 ^ 64) : ∃ x : Finite64, ofInt i = .finite x := by
  have held : Held (2 ^ 64 * one) := held_pow_mul_one (by decide)
  have hle : i.natAbs * one ≤ 2 ^ 64 * one * 1 := by
    rw [Nat.mul_one]
    exact Nat.mul_le_mul_right _ h
  obtain ⟨x, hx, -, -⟩ := round_le_of_le_mul (decide (i < 0)) Nat.one_pos held hle
  exact ⟨x, hx⟩

theorem signed_natAbs_mul (i : Int) (u : Nat) :
    (if decide (i < 0) = true then -((i.natAbs * u : Nat) : Int) else ((i.natAbs * u : Nat) : Int)) =
      i * u := by
  by_cases h : i < 0
  · have hi : (i.natAbs : Int) = -i := by omega
    rw [if_pos (decide_eq_true h), Nat.cast_mul, hi, Int.neg_mul, Int.neg_neg]
  · have hi : (i.natAbs : Int) = i := by omega
    rw [if_neg (by simpa using h), Nat.cast_mul, hi]

/-- The exact sum is rounded once, as the integer itself would be. -/
theorem ofInt_add_of_held {a b : Int} (ha : HeldInteger a) (hb : HeldInteger b) :
    ofInt a + ofInt b = ofInt (a + b) := by
  have hone : (0 : Int) < (one : Int) := Int.natCast_pos.2 magnitude_one_pos
  have hsum : a * (one : Int) + b * (one : Int) = (a + b) * (one : Int) := (Int.add_mul _ _ _).symm
  rw [ofInt_of_held ha, ofInt_of_held hb]
  change add (.finite _) (.finite _) = _
  simp only [add, Finite64.value, signed_natAbs_mul, hsum]
  split
  · next h =>
    have h0 : a + b = 0 := (Int.mul_eq_zero.1 h).resolve_right hone.ne'
    rw [h0, ← zero_eq_ofInt]
    congr 1
    rw [Bool.and_eq_false_iff, decide_eq_false_iff_not, decide_eq_false_iff_not]
    omega
  · have habs : ((a + b) * (one : Int)).natAbs = (a + b).natAbs * one := by
      rw [Int.natAbs_mul, Int.natAbs_natCast]
    have hneg : decide ((a + b) * (one : Int) < 0) = decide (a + b < 0) := by
      rw [decide_eq_decide]
      exact ⟨fun h => Int.neg_of_mul_neg_left h hone, fun h => Int.mul_neg_of_neg_of_pos h hone⟩
    rw [habs, hneg]
    rfl

theorem ofInt_add_ofInt {a b : Int} (ha : a.natAbs ≤ exactLimit) (hb : b.natAbs ≤ exactLimit) :
    ofInt a + ofInt b = ofInt (a + b) :=
  ofInt_add_of_held (heldInteger_of_le ha) (heldInteger_of_le hb)

theorem ofInt_limit_add_one : ofInt (exactLimit : Int) + ofInt 1 = ofInt (exactLimit : Int) := by
  decide +kernel

end Binary64

end Indicators.Number
