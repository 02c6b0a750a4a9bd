import Indicators.Proofs.Number.Integers

set_option autoImplicit false

namespace Indicators.Number

/-- Equal, or zeros of either sign. -/
inductive Alike : Binary64 → Binary64 → Prop where
  | refl (x : Binary64) : Alike x x
  | finite {x y : Finite64} (h : x.value = y.value) : Alike (.finite x) (.finite y)

theorem Finite64.natAbs_value (x : Finite64) : x.value.natAbs = x.units := by
  unfold value
  split <;> omega

theorem Finite64.eq_or_zero {x y : Finite64} (h : x.value = y.value) :
    x = y ∨ (x.units = 0 ∧ y.units = 0) := by
  have hunits : x.units = y.units := by rw [← x.natAbs_value, h, y.natAbs_value]
  obtain ⟨xneg, xunits, xheld⟩ := x
  obtain ⟨yneg, yunits, yheld⟩ := y
  obtain rfl : xunits = yunits := hunits
  unfold Finite64.value at h
  by_cases hzero : xunits = 0
  · exact .inr ⟨hzero, hzero⟩
  · left
    cases xneg with
    | false =>
      cases yneg with
      | false => rfl
      | true =>
        have hopposite : (xunits : Int) = -xunits := h
        omega
    | true =>
      cases yneg with
      | false =>
        have hopposite : -(xunits : Int) = xunits := h
        omega
      | true => rfl

namespace Alike

theorem zeros (a b : Bool) : Alike (Binary64.zero a) (Binary64.zero b) := by
  refine finite ?_
  cases a <;> cases b <;> rfl

theorem compare? {x y : Binary64} (h : Alike x y) (z : Binary64) :
    x.compare? z = y.compare? z := by
  cases h with
  | refl => rfl
  | finite h => cases z <;> simp only [Binary64.compare?, Finite64.compare, h]

theorem add_finite {x y z w : Finite64} (h : x.value = y.value) (h' : z.value = w.value) :
    Alike (.finite x + .finite z) (.finite y + .finite w) := by
  change Alike (Binary64.add (.finite x) (.finite z)) (Binary64.add (.finite y) (.finite w))
  simp only [Binary64.add, h, h']
  split
  · exact zeros _ _
  · exact .refl _

theorem add {x y z w : Binary64} (h : Alike x y) (h' : Alike z w) : Alike (x + z) (y + w) := by
  cases h with
  | refl =>
    cases h' with
    | refl => exact .refl _
    | finite h' =>
      cases x with
      | finite x => exact add_finite rfl h'
      | infinity a => exact .refl _
      | nan => exact .refl _
  | finite h =>
    cases h' with
    | refl =>
      cases z with
      | finite z => exact add_finite h rfl
      | infinity a => exact .refl _
      | nan => exact .refl _
    | finite h' => exact add_finite h h'

theorem round_zero (negative : Bool) (den : Nat) :
    Binary64.round negative 0 den = .zero negative := by
  have hzero : nearest 0 den = 0 := by simp [nearest]
  have hlt : nearest 0 den < limit := hzero.symm ▸ Binary64.limit_pos
  unfold Binary64.round Binary64.zero
  rw [dif_pos hlt]
  simp only [hzero]

theorem div {x y : Binary64} (h : Alike x y) (z : Binary64) : Alike (x / z) (y / z) := by
  change Alike (x.div z) (y.div z)
  cases h with
  | refl => exact .refl _
  | @finite x y h =>
    rcases Finite64.eq_or_zero h with rfl | ⟨hx, hy⟩
    · exact .refl _
    · cases z with
      | nan => exact .refl _
      | infinity b => exact zeros _ _
      | finite z =>
        simp only [Binary64.div, hx, hy, Nat.zero_mul, round_zero, if_true]
        split
        · exact .refl _
        · exact zeros _ _

end Alike

theorem alike_foldl {α β : Type} {f : α → Binary64} {g : β → Binary64} {xs : List α} {ys : List β}
    (h : List.Forall₂ (fun x y => Alike (f x) (g y)) xs ys) {a b : Binary64} (hab : Alike a b) :
    Alike (xs.foldl (fun total x => total + f x) a) (ys.foldl (fun total y => total + g y) b) := by
  induction h generalizing a b with
  | nil => exact hab
  | cons hxy _ ih => exact ih (hab.add hxy)

end Indicators.Number
