import Indicators.Proofs.Number.Integers

set_option autoImplicit false

/-! Rounding keeps the order of integers, so the floats of two of them compare as they do
themselves, unless both have the same float. -/

namespace Indicators.Number

def SameFloat (a b : Int) : Prop := Binary64.ofInt a = Binary64.ofInt b

instance (a b : Int) : Decidable (SameFloat a b) :=
  inferInstanceAs (Decidable (Binary64.ofInt a = Binary64.ofInt b))

/-- Equal integers, or integers with different floats. -/
def Apart (a b : Int) : Prop := SameFloat a b → a = b

instance (a b : Int) : Decidable (Apart a b) :=
  inferInstanceAs (Decidable (SameFloat a b → a = b))

theorem Apart.symm {a b : Int} (h : Apart a b) : Apart b a := fun hsame => (h hsame.symm).symm

def WordSized (i : Int) : Prop := i.natAbs ≤ 2 ^ 64

def roundedUnits (i : Int) : Int :=
  if i < 0 then -(nearest (i.natAbs * one) 1 : Int) else nearest (i.natAbs * one) 1

theorem nearest_whole_mono {m n : Nat} (h : m ≤ n) : nearest (m * one) 1 ≤ nearest (n * one) 1 :=
  nearest_mono 1 (Nat.mul_le_mul_right _ h)

theorem nearest_whole {n : Nat} (h : Held (n * one)) : nearest (n * one) 1 = n * one := by
  have hn := nearest_of_held Nat.one_pos h
  rwa [Nat.mul_one] at hn

theorem one_le_nearest {n : Nat} (h : 0 < n) : one ≤ nearest (n * one) 1 := by
  calc one = 1 * one := (Nat.one_mul one).symm
    _ = nearest (1 * one) 1 := (nearest_whole (held_mul_one (by decide))).symm
    _ ≤ nearest (n * one) 1 := nearest_whole_mono h

theorem roundedUnits_natAbs (i : Int) : (roundedUnits i).natAbs = nearest (i.natAbs * one) 1 := by
  unfold roundedUnits
  split <;> omega

theorem roundedUnits_mono {a b : Int} (h : a ≤ b) : roundedUnits a ≤ roundedUnits b := by
  unfold roundedUnits
  split
  · split
    · have := nearest_whole_mono (show b.natAbs ≤ a.natAbs by omega)
      omega
    · omega
  · split
    · omega
    · have := nearest_whole_mono (show a.natAbs ≤ b.natAbs by omega)
      omega

theorem roundedUnits_neg_iff (i : Int) : roundedUnits i < 0 ↔ i < 0 := by
  have hone := magnitude_one_pos
  unfold roundedUnits
  split
  · next h =>
    have := one_le_nearest (show 0 < i.natAbs by omega)
    omega
  · omega

theorem roundedUnits_of_held {i : Int} (h : HeldInteger i) : roundedUnits i = i * one := by
  unfold roundedUnits
  rw [nearest_whole h, ← Binary64.signed_natAbs_mul i one]
  simp only [decide_eq_true_eq]

namespace Binary64

theorem ofInt_rounded {i : Int} (h : WordSized i) :
    ∃ x : Finite64, ofInt i = .finite x ∧ x.negative = decide (i < 0) ∧
      x.value = roundedUnits i := by
  obtain ⟨x, hx⟩ := ofInt_finite h
  refine ⟨x, hx, ?_⟩
  unfold ofInt round at hx
  split at hx
  · injection hx with hx
    subst hx
    refine ⟨rfl, ?_⟩
    unfold Finite64.value roundedUnits
    simp only [decide_eq_true_eq]
  · cases hx

theorem sameFloat_iff {a b : Int} (ha : WordSized a) (hb : WordSized b) :
    SameFloat a b ↔ roundedUnits a = roundedUnits b := by
  obtain ⟨x, hx, hxneg, hxval⟩ := ofInt_rounded ha
  obtain ⟨y, hy, hyneg, hyval⟩ := ofInt_rounded hb
  unfold SameFloat
  rw [hx, hy, ← hxval, ← hyval]
  constructor
  · intro h
    rw [finite.inj h]
  · intro h
    have hneg : x.negative = y.negative := by
      rw [hxneg, hyneg, decide_eq_decide, ← roundedUnits_neg_iff, ← hxval, h, hyval,
        roundedUnits_neg_iff]
    unfold Finite64.value at h
    rw [hneg] at h
    obtain ⟨xneg, xunits, xheld⟩ := x
    obtain ⟨yneg, yunits, yheld⟩ := y
    obtain rfl : xneg = yneg := hneg
    obtain rfl : xunits = yunits := by
      dsimp only at h
      split at h <;> omega
    rfl

/-- Floats of integers compare as the integers do, where they are not the same. -/
theorem compare?_ofInt {a b : Int} (ha : WordSized a) (hb : WordSized b) :
    (ofInt a).compare? (ofInt b) = some (if SameFloat a b then .eq else compare a b) := by
  have hsame := sameFloat_iff ha hb
  obtain ⟨x, hx, -, hxval⟩ := ofInt_rounded ha
  obtain ⟨y, hy, -, hyval⟩ := ofInt_rounded hb
  rw [hx, hy]
  simp only [compare?, Finite64.compare, hxval, hyval]
  refine congrArg some ?_
  split
  · next h => rw [Int.compare_eq_eq, ← hsame]; exact h
  · next h =>
    rw [hsame] at h
    rcases Int.lt_trichotomy a b with hlt | rfl | hgt
    · have hle := roundedUnits_mono hlt.le
      rw [Int.compare_eq_lt.2 hlt, Int.compare_eq_lt]
      omega
    · exact absurd rfl h
    · have hle := roundedUnits_mono hgt.le
      rw [Int.compare_eq_gt.2 hgt, Int.compare_eq_gt]
      omega

end Binary64

/-- An integer of at most 53 digits shares its float with no other one up to 2^53. -/
theorem apart_of_le {a b : Int} (ha : a.natAbs ≤ exactLimit) (hb : b.natAbs ≤ exactLimit) :
    Apart a b := by
  intro h
  have hone : (0 : Int) < (one : Int) := Int.natCast_pos.2 magnitude_one_pos
  have hlimit : exactLimit ≤ 2 ^ 64 := by decide
  rw [Binary64.sameFloat_iff (ha.trans hlimit) (hb.trans hlimit),
    roundedUnits_of_held (heldInteger_of_le ha), roundedUnits_of_held (heldInteger_of_le hb)] at h
  exact Int.eq_of_mul_eq_mul_right hone.ne' h

theorem apart_of_lt {a b : Int} (ha : a.natAbs < exactLimit) (hb : WordSized b) : Apart a b := by
  intro h
  refine apart_of_le ha.le ?_ h
  by_contra hbeyond
  have hlimit : exactLimit ≤ 2 ^ 64 := by decide
  have hlt := (Nat.mul_lt_mul_right magnitude_one_pos).2 ha
  have hle : exactLimit * one ≤ a.natAbs * one := by
    rw [Binary64.sameFloat_iff (ha.le.trans hlimit) hb] at h
    calc exactLimit * one
        = nearest (exactLimit * one) 1 := (nearest_whole (held_mul_one (le_refl _))).symm
      _ ≤ nearest (b.natAbs * one) 1 := nearest_whole_mono (by omega)
      _ = nearest (a.natAbs * one) 1 := by rw [← roundedUnits_natAbs, ← h, roundedUnits_natAbs]
      _ = a.natAbs * one := nearest_whole (held_mul_one ha.le)
  omega

end Indicators.Number
