import Mathlib.Tactic.Ring
import Indicators.Number.Binary64

set_option autoImplicit false

/-! `nearest` is monotone and leaves a held magnitude as it is, so an exact result can be compared
with held magnitudes before it is rounded. -/

namespace Indicators.Number

theorem lastPlace_pos (units : Nat) : 0 < lastPlace units := Nat.two_pow_pos _

theorem nearest_bounds (num den : Nat) :
    num / den / lastPlace (num / den) * lastPlace (num / den) ≤ nearest num den ∧
      nearest num den ≤ (num / den / lastPlace (num / den) + 1) * lastPlace (num / den) := by
  unfold nearest
  rw [Nat.div_div_eq_div_mul]
  dsimp only
  split
  · exact ⟨Nat.mul_le_mul_right _ (Nat.le_succ _), le_refl _⟩
  · exact ⟨le_refl _, Nat.mul_le_mul_right _ (Nat.le_succ _)⟩

theorem nearest_mul_self {units den : Nat} (hd : 0 < den) (h : lastPlace units ∣ units) :
    nearest (units * den) den = units := by
  obtain ⟨k, hk⟩ := h
  have hq : units * den / den = units := Nat.mul_div_cancel _ hd
  have hp := lastPlace_pos units
  have hexact : units * den = den * lastPlace units * k := by
    calc units * den = lastPlace units * k * den := by rw [← hk]
      _ = den * lastPlace units * k := by ring
  have hrest : units * den % (den * lastPlace units) = 0 := by
    rw [hexact, Nat.mul_mod_right]
  have hlow : units * den / (den * lastPlace units) = k := by
    rw [hexact, Nat.mul_div_cancel_left _ (Nat.mul_pos hd hp)]
  unfold nearest
  rw [hq]
  dsimp only
  rw [hrest, hlow]
  have hstep : 0 < den * lastPlace units := Nat.mul_pos hd hp
  rw [if_neg (by omega), Nat.mul_comm, ← hk]

theorem nearest_of_held {units den : Nat} (hd : 0 < den) (h : Held units) :
    nearest (units * den) den = units := nearest_mul_self hd h.2

theorem lastPlace_eq (units : Nat) : lastPlace units = 2 ^ (max units.log2 52 - 52) := by
  unfold lastPlace
  rw [Nat.pow_eq]
  congr 1
  omega

/-- Where the last place grows, the coarser grid begins above everything on the finer one. -/
theorem nearest_le_of_lastPlace_lt {num num' den : Nat}
    (h : lastPlace (num / den) < lastPlace (num' / den)) :
    nearest num den ≤ nearest num' den := by
  have hlow : num / den / lastPlace (num / den) + 1 ≤ 2 ^ 53 := div_lastPlace_lt _
  rw [lastPlace_eq (num / den), lastPlace_eq (num' / den)] at h
  have hexp := (Nat.pow_lt_pow_iff_right (by decide : 1 < 2)).1 h
  have hne : num' / den ≠ 0 := by
    intro h0
    rw [h0, Nat.log2_zero] at hexp
    omega
  have hlow' : 2 ^ 52 ≤ num' / den / lastPlace (num' / den) := by
    rw [lastPlace_eq, Nat.le_div_iff_mul_le (Nat.two_pow_pos _), ← Nat.pow_add]
    calc 2 ^ (52 + (max (num' / den).log2 52 - 52))
        = 2 ^ (num' / den).log2 := by congr 1; omega
      _ ≤ num' / den := Nat.log2_self_le hne
  calc nearest num den
      ≤ (num / den / lastPlace (num / den) + 1) * lastPlace (num / den) := (nearest_bounds _ _).2
    _ ≤ 2 ^ 53 * lastPlace (num / den) := Nat.mul_le_mul_right _ hlow
    _ = 2 ^ (53 + (max (num / den).log2 52 - 52)) := by rw [lastPlace_eq, ← Nat.pow_add]
    _ ≤ 2 ^ (52 + (max (num' / den).log2 52 - 52)) :=
      Nat.pow_le_pow_right (by decide) (by omega)
    _ = 2 ^ 52 * lastPlace (num' / den) := by rw [lastPlace_eq, ← Nat.pow_add]
    _ ≤ num' / den / lastPlace (num' / den) * lastPlace (num' / den) :=
      Nat.mul_le_mul_right _ hlow'
    _ ≤ nearest num' den := (nearest_bounds _ _).1

theorem lastPlace_mono {a b : Nat} (h : a ≤ b) : lastPlace a ≤ lastPlace b := by
  rw [lastPlace_eq, lastPlace_eq]
  have hlog : a.log2 ≤ b.log2 := by
    by_cases ha : a = 0
    · subst ha
      simp
    · exact (Nat.le_log2 (by omega)).2 ((Nat.log2_self_le ha).trans h)
  exact Nat.pow_le_pow_right (by decide) (by omega)

/-- On one grid, a greater value has a greater quotient, or the same one and a greater rest. -/
theorem nearest_le_of_lastPlace_eq {num num' den : Nat} (h : num ≤ num')
    (hp : lastPlace (num / den) = lastPlace (num' / den)) :
    nearest num den ≤ nearest num' den := by
  have hquot : num / (den * lastPlace (num' / den)) ≤ num' / (den * lastPlace (num' / den)) :=
    Nat.div_le_div_right h
  rcases Nat.lt_or_eq_of_le hquot with hlt | heq
  · refine (nearest_bounds num den).2.trans (le_trans ?_ (nearest_bounds num' den).1)
    rw [hp, Nat.div_div_eq_div_mul, Nat.div_div_eq_div_mul]
    exact Nat.mul_le_mul_right _ hlt
  · have hrest : num % (den * lastPlace (num' / den)) ≤
        num' % (den * lastPlace (num' / den)) := by
      have a := Nat.div_add_mod num (den * lastPlace (num' / den))
      have b := Nat.div_add_mod num' (den * lastPlace (num' / den))
      rw [heq] at a
      omega
    unfold nearest
    dsimp only
    rw [hp, heq]
    split
    · rw [if_pos (by omega)]
    · split
      · exact Nat.mul_le_mul_right _ (Nat.le_succ _)
      · exact le_refl _

theorem nearest_mono {num num' : Nat} (den : Nat) (h : num ≤ num') :
    nearest num den ≤ nearest num' den := by
  have hp : lastPlace (num / den) ≤ lastPlace (num' / den) :=
    lastPlace_mono (Nat.div_le_div_right h)
  rcases Nat.lt_or_eq_of_le hp with hlt | heq
  · exact nearest_le_of_lastPlace_lt hlt
  · exact nearest_le_of_lastPlace_eq h heq

theorem nearest_le_of_le_mul {num den units : Nat} (hd : 0 < den) (held : Held units)
    (h : num ≤ units * den) : nearest num den ≤ units := by
  calc nearest num den ≤ nearest (units * den) den := nearest_mono den h
    _ = units := nearest_of_held hd held

end Indicators.Number
