import Indicators.Number.Decimal
import Indicators.Proofs.Number.Integers
import Mathlib.Tactic.Linarith

set_option autoImplicit false

/-! Every value between the ends of the interval of a held magnitude rounds to it. The shortest
decimal of a magnitude lies between them, and so does every decimal of the same value. -/

namespace Indicators.Number

theorem lastPlace_of_bounds {q s : Nat} (hq : q < 2 ^ (53 + s)) (h : s = 0 ∨ 2 ^ (52 + s) ≤ q) :
    lastPlace q = 2 ^ s := by
  rw [lastPlace_eq]
  congr 1
  by_cases h0 : q = 0
  · subst h0
    have hpos := Nat.two_pow_pos (52 + s)
    simp only [Nat.log2_zero]
    omega
  · have hlt := (Nat.log2_lt h0).2 hq
    rcases h with rfl | hle
    · omega
    · have hge := (Nat.le_log2 h0).2 hle
      omega

/-- The grid of a held magnitude: `k` steps of the last place, with 53 digits unless it is 1. -/
theorem Held.grid {units : Nat} (held : Held units) :
    ∃ k s, units = k * 2 ^ s ∧ lastPlace units = 2 ^ s ∧ k < 2 ^ 53 ∧ (s = 0 ∨ 2 ^ 52 ≤ k) := by
  obtain ⟨k, hk⟩ := held.2
  have hp := lastPlace_pos units
  have hdiv : units / lastPlace units = k := Nat.div_eq_of_eq_mul_right hp hk
  have hlt : units / lastPlace units < 2 ^ 53 := div_lastPlace_lt units
  refine ⟨k, units.log2 - 52, ?_, rfl, hdiv ▸ hlt, ?_⟩
  · rw [Nat.mul_comm]
    exact hk
  · by_cases hs : units.log2 ≤ 52
    · exact .inl (by omega)
    · right
      have hne : units ≠ 0 := by
        rintro rfl
        exact hs (by decide)
      have hself := Nat.log2_self_le hne
      rw [← hdiv, Nat.le_div_iff_mul_le hp, lastPlace_eq, ← Nat.pow_add]
      calc 2 ^ (52 + (max units.log2 52 - 52)) = 2 ^ units.log2 := by congr 1; omega
        _ ≤ units := hself

theorem div_step {num step k : Nat} (hlow : k * step ≤ num) (hhigh : num < (k + 1) * step) :
    num / step = k ∧ num % step = num - k * step := by
  have hdiv := Nat.div_eq_of_lt_le hlow hhigh
  have hmod := Nat.div_add_mod num step
  rw [hdiv, Nat.mul_comm] at hmod
  exact ⟨hdiv, by omega⟩

theorem nearest_down {num den place k : Nat} (hp : lastPlace (num / den) = place)
    (hstep : 0 < den * place) (hlow : k * (den * place) ≤ num)
    (hhigh : 2 * num ≤ (2 * k + 1) * (den * place))
    (htie : 2 * num = (2 * k + 1) * (den * place) → k % 2 = 0) :
    nearest num den = k * place := by
  unfold nearest
  dsimp only
  rw [hp]
  generalize den * place = step at *
  have hk : (2 * k + 1) * step = 2 * (k * step) + step := by ring
  have hk1 : (k + 1) * step = k * step + step := by ring
  obtain ⟨hdiv, hmod⟩ := div_step hlow (by omega)
  rw [hdiv, hmod, if_neg]
  rintro (h | ⟨h, hodd⟩)
  · omega
  · have heven := htie (by omega)
    omega

theorem nearest_up {num den place k : Nat} (hp : lastPlace (num / den) = place)
    (hlow : (2 * k + 1) * (den * place) ≤ 2 * num) (hhigh : num < (k + 1) * (den * place))
    (htie : 2 * num = (2 * k + 1) * (den * place) → k % 2 = 1) :
    nearest num den = (k + 1) * place := by
  unfold nearest
  dsimp only
  rw [hp]
  generalize den * place = step at *
  have hk : (2 * k + 1) * step = 2 * (k * step) + step := by ring
  have hk1 : (k + 1) * step = k * step + step := by ring
  obtain ⟨hdiv, hmod⟩ := div_step (by omega) hhigh
  rw [hdiv, hmod, if_pos]
  by_cases h : 2 * num = (2 * k + 1) * step
  · exact .inr ⟨by omega, htie h⟩
  · exact .inl (by omega)

/-- The value `num / den` lies in the interval of a magnitude. -/
structure Within (units num den : Nat) : Prop where
  low : lowerEnd units * den ≤ 4 * num
  high : 4 * num ≤ upperEnd units * den
  ends : 4 * num = lowerEnd units * den ∨ 4 * num = upperEnd units * den →
    units / lastPlace units % 2 = 0

theorem upperEnd_grid {units : Nat} (held : Held units) :
    ∃ k s, units = k * 2 ^ s ∧ upperEnd units = (4 * k + 2) * 2 ^ s ∧ k < 2 ^ 53 ∧
      (s = 0 ∨ 2 ^ 52 ≤ k) ∧ units / lastPlace units = k := by
  obtain ⟨k, s, hu, hp, hk, hs⟩ := held.grid
  refine ⟨k, s, hu, ?_, hk, hs, ?_⟩
  · unfold upperEnd
    rw [hp, hu]
    ring
  · rw [hp, hu, Nat.mul_div_cancel _ (Nat.two_pow_pos s)]

/-- The lower end lies half a step of the grid below the magnitude, which is finer below a power of
two. -/
theorem lowerEnd_grid {units : Nat} (held : Held units) (hpos : 0 < units) :
    ∃ m t, units = (m + 1) * 2 ^ t ∧ lowerEnd units = (4 * m + 2) * 2 ^ t ∧ m < 2 ^ 53 ∧
      (t = 0 ∨ 2 ^ 52 ≤ m) ∧ (units / lastPlace units % 2 = 0 → m % 2 = 1) := by
  obtain ⟨k, s, hu, hp, hk, hs⟩ := held.grid
  have hk0 : k ≠ 0 := by
    rintro rfl
    omega
  have hquot : units / lastPlace units = k := by
    rw [hp, hu, Nat.mul_div_cancel _ (Nat.two_pow_pos s)]
  have hend : units = Nat.pow 2 52 * lastPlace units ↔ k = 2 ^ 52 := by
    rw [hp]
    conv_lhs => lhs; rw [hu]
    exact Nat.mul_right_cancel_iff (Nat.two_pow_pos s)
  unfold lowerEnd
  dsimp only
  by_cases hboundary : k = 2 ^ 52 ∧ s ≠ 0
  · obtain ⟨hk52, hs0⟩ := hboundary
    obtain ⟨t, rfl⟩ := Nat.exists_eq_succ_of_ne_zero hs0
    have hpow : 2 ^ (t + 1) = 2 * 2 ^ t := by ring
    have hne : lastPlace units ≠ 1 := by
      have ht := Nat.two_pow_pos t
      rw [hp]
      omega
    rw [if_pos ⟨hend.2 hk52, hne⟩]
    refine ⟨2 ^ 53 - 1, t, ?_, ?_, by omega, .inr (by omega), fun _ => by decide⟩
    · rw [hu, hk52, hpow]
      ring_nf
    · rw [hp, hu, hk52, hpow]
      omega
  · rw [if_neg]
    · refine ⟨k - 1, s, ?_, ?_, by omega, by omega, ?_⟩
      · rw [Nat.sub_add_cancel (by omega)]
        exact hu
      · have hsplit : k * 2 ^ s = (k - 1) * 2 ^ s + 2 ^ s := by
          rw [← Nat.succ_mul]
          congr 1
          omega
        rw [hp, hu, hsplit]
        ring_nf
        omega
      · rw [hquot]
        omega
    · rw [hend, hp]
      rintro ⟨h52, hne⟩
      exact hboundary ⟨h52, fun h0 => hne (by rw [h0, Nat.pow_zero])⟩

theorem lastPlace_quotient {k s num den : Nat} (hden : 0 < den) (hk : k < 2 ^ 53)
    (hs : s = 0 ∨ 2 ^ 52 ≤ k) (hlow : k * (den * 2 ^ s) ≤ num)
    (hhigh : num < (k + 1) * (den * 2 ^ s)) : lastPlace (num / den) = 2 ^ s := by
  have hlt : num / den < (k + 1) * 2 ^ s := by
    rw [Nat.div_lt_iff_lt_mul hden]
    linarith
  have hle : k * 2 ^ s ≤ num / den := by
    rw [Nat.le_div_iff_mul_le hden]
    linarith
  refine lastPlace_of_bounds (hlt.trans_le ?_) (hs.imp id fun h52 => le_trans ?_ hle)
  · rw [Nat.pow_add]
    exact Nat.mul_le_mul_right _ (by omega)
  · rw [Nat.pow_add]
    exact Nat.mul_le_mul_right _ h52

theorem nearest_of_within {units num den : Nat} (held : Held units) (hpos : 0 < units)
    (hden : 0 < den) (h : Within units num den) : nearest num den = units := by
  by_cases habove : units * den ≤ num
  · obtain ⟨k, s, hu, hend, hk, hs, hquot⟩ := upperEnd_grid held
    have hstep : 0 < den * 2 ^ s := Nat.mul_pos hden (Nat.two_pow_pos s)
    have hhigh : 2 * num ≤ (2 * k + 1) * (den * 2 ^ s) := by
      have hends := h.high
      rw [hend] at hends
      linarith
    have hlow : k * (den * 2 ^ s) ≤ num := by
      rw [hu] at habove
      linarith
    have hplace := lastPlace_quotient hden hk hs hlow (by linarith)
    rw [hu]
    refine nearest_down hplace hstep hlow hhigh fun htie => ?_
    rw [← hquot]
    refine h.ends (.inr ?_)
    rw [hend]
    linarith
  · obtain ⟨m, t, hu, hend, hm, ht, hodd⟩ := lowerEnd_grid held hpos
    have hlow : (2 * m + 1) * (den * 2 ^ t) ≤ 2 * num := by
      have hends := h.low
      rw [hend] at hends
      linarith
    have hhigh : num < (m + 1) * (den * 2 ^ t) := by
      rw [hu] at habove
      linarith
    have hplace := lastPlace_quotient hden hm ht (by linarith) hhigh
    rw [hu]
    refine nearest_up hplace hlow hhigh fun htie => hodd (h.ends (.inl ?_))
    rw [hend]
    linarith

theorem Within.scale {units num den c : Nat} (hc : 0 < c) :
    Within units (num * c) (den * c) ↔ Within units num den := by
  have hmul (bound : Nat) : bound * (den * c) = bound * den * c := (Nat.mul_assoc _ _ _).symm
  have hnum : 4 * (num * c) = 4 * num * c := (Nat.mul_assoc _ _ _).symm
  constructor
  · rintro ⟨hlow, hhigh, hends⟩
    rw [hmul, hnum] at hlow hhigh
    rw [hmul, hmul, hnum, Nat.mul_left_inj hc.ne', Nat.mul_left_inj hc.ne'] at hends
    exact ⟨Nat.le_of_mul_le_mul_right hlow hc, Nat.le_of_mul_le_mul_right hhigh hc, hends⟩
  · rintro ⟨hlow, hhigh, hends⟩
    constructor
    · rw [hmul, hnum]
      exact Nat.mul_le_mul_right c hlow
    · rw [hmul, hnum]
      exact Nat.mul_le_mul_right c hhigh
    · rwa [hmul, hmul, hnum, Nat.mul_left_inj hc.ne', Nat.mul_left_inj hc.ne']

def Decimal.numerator (d : Decimal) : Nat := d.digits * Nat.pow 10 d.exponent.toNat * one

def Decimal.denominator (d : Decimal) : Nat := Nat.pow 10 (-d.exponent).toNat

theorem Decimal.denominator_pos (d : Decimal) : 0 < d.denominator :=
  Nat.pow_pos (by decide)

theorem readsBack_iff {units : Nat} {d : Decimal} :
    readsBack units d = true ↔ Within units d.numerator d.denominator := by
  have hnum : d.digits * (Decimal.scale d.exponent).1 = 4 * d.numerator := by
    unfold Decimal.scale Decimal.numerator
    ring
  unfold readsBack Decimal.compareQuarters
  rw [hnum, show (Decimal.scale d.exponent).2 = d.denominator from rfl]
  generalize hlow : lowerEnd units * d.denominator = low
  generalize hhigh : upperEnd units * d.denominator = high
  simp only [Bool.and_eq_true, Bool.or_eq_true, beq_iff_eq, Nat.compare_eq_gt, Nat.compare_eq_eq,
    Nat.compare_eq_lt]
  constructor
  · rintro ⟨hl, hh⟩
    refine ⟨by omega, by omega, ?_⟩
    rw [hlow, hhigh]
    omega
  · rintro ⟨hl, hh, hends⟩
    rw [hlow] at hl hends
    rw [hhigh] at hh hends
    omega

theorem readsBack_mul_ten (units digits : Nat) (exponent : Int) :
    readsBack units ⟨digits * 10, exponent⟩ = readsBack units ⟨digits, exponent + 1⟩ := by
  rw [Bool.eq_iff_iff, readsBack_iff, readsBack_iff]
  unfold Decimal.numerator Decimal.denominator
  dsimp only
  by_cases hneg : exponent < 0
  · have hzero : exponent.toNat = 0 := by omega
    have hzero' : (exponent + 1).toNat = 0 := by omega
    have hsucc : (-exponent).toNat = (-(exponent + 1)).toNat + 1 := by omega
    have hnum : digits * 10 * Nat.pow 10 0 * one = digits * Nat.pow 10 0 * one * 10 := by ring
    rw [hzero, hzero', hsucc, hnum]
    exact Within.scale (by decide)
  · have hzero : (-exponent).toNat = 0 := by omega
    have hzero' : (-(exponent + 1)).toNat = 0 := by omega
    have hsucc : (exponent + 1).toNat = exponent.toNat + 1 := by omega
    have hpow : Nat.pow 10 (exponent.toNat + 1) = 10 * Nat.pow 10 exponent.toNat :=
      Nat.mul_comm _ _
    have hnum : digits * (10 * Nat.pow 10 exponent.toNat) * one =
      digits * 10 * Nat.pow 10 exponent.toNat * one := by ring
    rw [hzero, hzero', hsucc, hpow, hnum]

theorem readsBack_mul_pow (units digits : Nat) (exponent : Int) (k : Nat) :
    readsBack units ⟨digits * 10 ^ k, exponent⟩ = readsBack units ⟨digits, exponent + k⟩ := by
  induction k generalizing exponent with
  | zero => simp
  | succ k ih =>
    rw [Nat.pow_succ, ← Nat.mul_assoc, readsBack_mul_ten, ih]
    congr 2
    omega

theorem readsBack_strip (units fuel : Nat) (d : Decimal) :
    readsBack units (d.strip fuel) = readsBack units d := by
  induction fuel generalizing d with
  | zero => rfl
  | succ fuel ih =>
    unfold Decimal.strip
    split
    · next h =>
      rw [ih, ← readsBack_mul_ten, Nat.div_mul_cancel (Nat.dvd_of_mod_eq_zero h.1)]
    · rfl

theorem readsBack_onGrid {tie : Tie} {units : Nat} {exponent : Int} {d : Decimal}
    (h : onGrid tie units exponent = some d) : readsBack units d = true := by
  unfold onGrid at h
  obtain ⟨perDigit, perQuarter⟩ := Decimal.scale exponent
  dsimp only at h
  generalize 4 * units * perQuarter / perDigit = low at h
  split at h
  · cases h
  · next hbelow habove =>
    cases h
    exact hbelow
  · next hbelow habove =>
    cases h
    exact habove
  · next hbelow habove =>
    split at h <;> cases h
    · exact hbelow
    · exact habove
    · split
      · exact hbelow
      · exact habove
    · exact habove

theorem within_self {units den : Nat} (held : Held units) (hpos : 0 < units) (hden : 0 < den) :
    Within units (units * den) den := by
  obtain ⟨m, t, hu, hlow, -⟩ := lowerEnd_grid held hpos
  have hstep : 0 < 2 ^ t * den := Nat.mul_pos (Nat.two_pow_pos t) hden
  have hplace : 0 < lastPlace units * den := Nat.mul_pos (lastPlace_pos units) hden
  have hbelow : lowerEnd units * den < 4 * (units * den) := by
    rw [hlow, hu]
    linarith
  have habove : 4 * (units * den) < upperEnd units * den := by
    unfold upperEnd
    linarith
  exact ⟨hbelow.le, habove.le, fun h => by omega⟩

theorem readsBack_exactDecimal {units : Nat} (held : Held units) (hpos : 0 < units) :
    readsBack units (exactDecimal units) = true := by
  rw [readsBack_iff]
  have hten (n : Nat) : Nat.pow 5 n * Nat.pow 2 n = Nat.pow 10 n := (Nat.mul_pow 5 2 n).symm
  have hnum : (exactDecimal units).numerator = units * (exactDecimal units).denominator := by
    unfold Decimal.numerator Decimal.denominator exactDecimal one
    dsimp only
    rw [show (-1074 : Int).toNat = 0 from rfl, show (-(-1074) : Int).toNat = 1074 from rfl, ← hten 1074]
    generalize 1074 = n
    rw [show Nat.pow 10 0 = 1 from rfl]
    ring
  rw [hnum]
  exact within_self held hpos (Decimal.denominator_pos _)

/-- The shortest decimal of a magnitude reads back. -/
theorem readsBack_shortest {units : Nat} (held : Held units) (hpos : 0 < units) (tie : Tie) :
    readsBack units (shortest tie units) = true := by
  unfold shortest
  dsimp only
  rw [readsBack_strip]
  cases h : (List.range 17).findSome? fun n =>
      onGrid tie units (magnitudeExponent units - (n + 1 : Nat)) with
  | none => exact readsBack_exactDecimal held hpos
  | some d =>
    obtain ⟨n, -, hn⟩ := List.exists_of_findSome?_eq_some h
    exact readsBack_onGrid hn

theorem lowerEnd_pos {units : Nat} (held : Held units) (hpos : 0 < units) :
    2 ≤ lowerEnd units := by
  obtain ⟨m, t, -, hlow, -⟩ := lowerEnd_grid held hpos
  have ht := Nat.two_pow_pos t
  rw [hlow]
  calc 2 ≤ (4 * m + 2) * 1 := by omega
    _ ≤ (4 * m + 2) * 2 ^ t := Nat.mul_le_mul_left _ ht

theorem upperEnd_le {units : Nat} (held : Held units) (hpos : 0 < units) :
    upperEnd units ≤ 6 * units := by
  have hle := Nat.le_of_dvd hpos held.2
  unfold upperEnd
  omega

theorem two_pow_le_ten_pow (n : Nat) : 2 ^ (3 * n) ≤ Nat.pow 10 n := by
  rw [Nat.pow_mul]
  exact Nat.pow_le_pow_left (by decide) n

theorem limit_le_pow {k : Nat} (h : 2098 ≤ k) : limit ≤ Nat.pow 2 k := by
  unfold limit
  generalize 2098 = n at h
  exact Nat.pow_le_pow_right (by decide) h

theorem two_mul_limit_le {k : Nat} (h : 1025 ≤ k) : 2 * limit ≤ 2 ^ k * one := by
  have hexp : k + 1074 = k + 1073 + 1 := rfl
  rw [pow_mul_one, hexp, Nat.pow_eq, Nat.pow_succ, Nat.mul_comm]
  exact Nat.mul_le_mul_right 2 (limit_le_pow (by omega))

theorem guards_of_readsBack {units : Nat} (held : Held units) (hpos : 0 < units) {d : Decimal}
    (h : readsBack units d = true) :
    d.digits ≠ 0 ∧ d.exponent ≤ 400 ∧ -(400 + (d.digits.log2 : Int)) ≤ d.exponent := by
  have hw := readsBack_iff.1 h
  have hden := d.denominator_pos
  have hlow : 2 * d.denominator ≤ 4 * d.numerator :=
    (Nat.mul_le_mul_right _ (lowerEnd_pos held hpos)).trans hw.low
  have hdigits : d.digits ≠ 0 := by
    intro h0
    unfold Decimal.numerator at hlow
    rw [h0, Nat.zero_mul, Nat.zero_mul] at hlow
    omega
  refine ⟨hdigits, ?_, ?_⟩
  · by_contra hbig
    have hone : d.denominator = 1 := by
      unfold Decimal.denominator
      rw [show (-d.exponent).toNat = 0 by omega, Nat.pow_eq, Nat.pow_zero]
    have hhigh : 4 * d.numerator ≤ 6 * limit := by
      calc 4 * d.numerator ≤ upperEnd units * d.denominator := hw.high
        _ ≤ 6 * limit := by
          rw [hone, Nat.mul_one]
          exact (upperEnd_le held hpos).trans (Nat.mul_le_mul_left _ held.1.le)
    have hnum : 2 * limit ≤ d.numerator := by
      refine (@two_mul_limit_le (3 * d.exponent.toNat) (by omega)).trans ?_
      unfold Decimal.numerator
      exact Nat.mul_le_mul_right _
        ((two_pow_le_ten_pow _).trans (Nat.le_mul_of_pos_left _ (Nat.pos_of_ne_zero hdigits)))
    have hlimit : 0 < limit := Binary64.limit_pos
    omega
  · by_contra hsmall
    have hnum : d.numerator < 2 ^ (d.digits.log2 + 1) * one := by
      unfold Decimal.numerator
      rw [show d.exponent.toNat = 0 by omega, show Nat.pow 10 0 = 1 from rfl, Nat.mul_one]
      exact Nat.mul_lt_mul_of_pos_right Nat.lt_log2_self magnitude_one_pos
    have hbig : 2 ^ (d.digits.log2 + 1 + 1) * one ≤ d.denominator := by
      rw [pow_mul_one]
      exact (Nat.pow_le_pow_right (by decide) (by omega)).trans (two_pow_le_ten_pow _)
    have hdouble : 2 ^ (d.digits.log2 + 1 + 1) * one = 2 * (2 ^ (d.digits.log2 + 1) * one) := by
      rw [Nat.pow_succ, Nat.mul_comm _ 2, Nat.mul_assoc]
    omega

/-- A decimal in the interval of a magnitude is read as that magnitude. -/
theorem ofDecimal_of_readsBack (negative : Bool) {units : Nat} (held : Held units)
    (hpos : 0 < units) {d : Decimal} (h : readsBack units d = true) :
    Binary64.ofDecimal negative d.digits d.exponent = .finite ⟨negative, units, held⟩ := by
  obtain ⟨hdigits, hhigh, hlow⟩ := guards_of_readsBack held hpos h
  have hnear : nearest d.numerator d.denominator = units :=
    nearest_of_within held hpos d.denominator_pos (readsBack_iff.1 h)
  unfold Binary64.ofDecimal
  rw [if_neg hdigits, if_neg (by omega), if_neg (by omega)]
  change Binary64.round negative d.numerator d.denominator = _
  unfold Binary64.round
  rw [dif_pos (hnear.symm ▸ held.1)]
  simp only [hnear]

end Indicators.Number
