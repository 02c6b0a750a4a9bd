set_option autoImplicit false

/-! A finite magnitude is a natural number of units of 2^-1074. Every operation computes exactly and
rounds once: to the nearest held value, on a tie to the one with the even significand. There is one
NaN. -/

namespace Indicators.Number

def one : Nat := Nat.pow 2 1074

/-- The first magnitude beyond the format: 2^1024, in units. -/
def limit : Nat := Nat.pow 2 2098

/-- The weight of the last of the 53 significant digits of a magnitude. -/
def lastPlace (units : Nat) : Nat := Nat.pow 2 (units.log2 - 52)

/-- A magnitude is held when it is in range and has at most 53 significant binary digits. -/
def Held (units : Nat) : Prop := units < limit ∧ lastPlace units ∣ units

instance (units : Nat) : Decidable (Held units) :=
  inferInstanceAs (Decidable (_ ∧ _))

/-- A finite number: a sign and a held magnitude. Zero has both signs. -/
structure Finite64 where
  negative : Bool
  units : Nat
  held : Held units
deriving DecidableEq

inductive Binary64 where
  | finite (x : Finite64)
  | infinity (negative : Bool)
  | nan
deriving DecidableEq

/-- The magnitude nearest to `num / den` units; a tie goes to the even significand. -/
def nearest (num den : Nat) : Nat :=
  let place := lastPlace (num / den)
  let step := den * place
  let low := num / step
  let rest := num % step
  if step < 2 * rest ∨ (step = 2 * rest ∧ low % 2 = 1) then (low + 1) * place else low * place

theorem log2_mul_pow (k s : Nat) (hk : k ≠ 0) : (k * Nat.pow 2 s).log2 = k.log2 + s := by
  induction s with
  | zero => simp
  | succ s ih =>
    have hp : 0 < Nat.pow 2 s := Nat.two_pow_pos s
    have hne : k * Nat.pow 2 s ≠ 0 := Nat.mul_ne_zero hk (Nat.ne_of_gt hp)
    have step : k * Nat.pow 2 (s + 1) = 2 * (k * Nat.pow 2 s) := by
      rw [Nat.mul_left_comm, Nat.mul_comm 2 (Nat.pow 2 s)]; rfl
    rw [step, Nat.log2_two_mul hne, ih]
    omega

theorem lastPlace_dvd {k s : Nat} (hk : k ≤ Nat.pow 2 53) :
    lastPlace (k * Nat.pow 2 s) ∣ k * Nat.pow 2 s := by
  unfold lastPlace
  by_cases h0 : k = 0
  · subst h0; simp
  rw [log2_mul_pow k s h0]
  by_cases htop : k = Nat.pow 2 53
  · have hlog : k.log2 = 53 := htop ▸ Nat.log2_two_pow
    have hsum : k * Nat.pow 2 s = Nat.pow 2 (53 + s) := htop ▸ (Nat.pow_add 2 53 s).symm
    rw [hlog, hsum]
    exact Nat.pow_dvd_pow 2 (by omega)
  · have hlog : k.log2 < 53 := (Nat.log2_lt h0).2 (Nat.lt_of_le_of_ne hk htop)
    exact Nat.dvd_trans (Nat.pow_dvd_pow 2 (by omega)) (Nat.dvd_mul_left _ _)

theorem div_lastPlace_lt (q : Nat) : q / lastPlace q < Nat.pow 2 53 := by
  unfold lastPlace
  refine (Nat.div_lt_iff_lt_mul (Nat.two_pow_pos _)).2 ?_
  calc q < Nat.pow 2 (q.log2 + 1) := Nat.lt_log2_self
    _ ≤ Nat.pow 2 (53 + (q.log2 - 52)) := Nat.pow_le_pow_right (by decide) (by omega)
    _ = Nat.pow 2 53 * Nat.pow 2 (q.log2 - 52) := Nat.pow_add 2 53 _

theorem lastPlace_dvd_nearest (num den : Nat) :
    lastPlace (nearest num den) ∣ nearest num den := by
  have hlow : num / (den * lastPlace (num / den)) < Nat.pow 2 53 := by
    rw [← Nat.div_div_eq_div_mul]
    exact div_lastPlace_lt _
  unfold nearest
  simp only
  split
  · exact lastPlace_dvd (by omega)
  · exact lastPlace_dvd (by omega)

namespace Binary64

theorem limit_pos : 0 < limit := by
  unfold limit
  generalize 2098 = n
  exact Nat.two_pow_pos n

theorem held_zero : Held 0 := ⟨limit_pos, Nat.dvd_zero _⟩

def zero (negative : Bool) : Binary64 := .finite ⟨negative, 0, held_zero⟩

def round (negative : Bool) (num den : Nat) : Binary64 :=
  if h : nearest num den < limit then
    .finite ⟨negative, nearest num den, h, lastPlace_dvd_nearest num den⟩
  else .infinity negative

def ofInt (i : Int) : Binary64 := round (i < 0) (i.natAbs * one) 1

/-- The number nearest to `digits · 10 ^ exponent`. The two guards only skip work: beyond them
the value is above every held one, or below half of the least. -/
def ofDecimal (negative : Bool) (digits : Nat) (exponent : Int) : Binary64 :=
  if digits = 0 then zero negative
  else if 400 < exponent then .infinity negative
  else if exponent < -(400 + (digits.log2 : Int)) then zero negative
  else round negative (digits * Nat.pow 10 exponent.toNat * one) (Nat.pow 10 (-exponent).toNat)

end Binary64

namespace Finite64

def value (x : Finite64) : Int := if x.negative then -(x.units : Int) else x.units

def toBinary64 (x : Finite64) : Binary64 := .finite x

def compare (x y : Finite64) : Ordering := Ord.compare x.value y.value

def isWhole (x : Finite64) : Bool := x.units % one = 0

def truncate (x : Finite64) : Int := x.value.tdiv one

end Finite64

namespace Binary64

def finite? : Binary64 → Option Finite64
  | .finite x => some x
  | _ => none

def isFinite (x : Binary64) : Bool := x.finite?.isSome

def add : Binary64 → Binary64 → Binary64
  | .nan, _ | _, .nan => .nan
  | .infinity a, .infinity b => if a = b then .infinity a else .nan
  | .infinity a, .finite _ => .infinity a
  | .finite _, .infinity b => .infinity b
  | .finite x, .finite y =>
    let sum := x.value + y.value
    if sum = 0 then zero (x.negative && y.negative) else round (sum < 0) sum.natAbs 1

def mul : Binary64 → Binary64 → Binary64
  | .nan, _ | _, .nan => .nan
  | .infinity a, .infinity b => .infinity (a ^^ b)
  | .infinity a, .finite y => if y.units = 0 then .nan else .infinity (a ^^ y.negative)
  | .finite x, .infinity b => if x.units = 0 then .nan else .infinity (x.negative ^^ b)
  | .finite x, .finite y => round (x.negative ^^ y.negative) (x.units * y.units) one

def div : Binary64 → Binary64 → Binary64
  | .nan, _ | _, .nan => .nan
  | .infinity _, .infinity _ => .nan
  | .infinity a, .finite y => .infinity (a ^^ y.negative)
  | .finite x, .infinity b => zero (x.negative ^^ b)
  | .finite x, .finite y =>
    if y.units = 0 then
      if x.units = 0 then .nan else .infinity (x.negative ^^ y.negative)
    else round (x.negative ^^ y.negative) (x.units * one) y.units

def neg : Binary64 → Binary64
  | .nan => .nan
  | .infinity a => .infinity (!a)
  | .finite x => .finite { x with negative := !x.negative }

instance : Add Binary64 := ⟨add⟩
instance : Mul Binary64 := ⟨mul⟩
instance : Div Binary64 := ⟨div⟩
instance : Neg Binary64 := ⟨neg⟩

/-- The order of the values; a NaN compares with nothing, and the two zeros are equal. -/
def compare? : Binary64 → Binary64 → Option Ordering
  | .nan, _ | _, .nan => none
  | .finite x, .finite y => some (x.compare y)
  | .infinity a, .infinity b => some (if a = b then .eq else if a then .lt else .gt)
  | .infinity a, .finite _ => some (if a then .lt else .gt)
  | .finite _, .infinity b => some (if b then .gt else .lt)

def sameValue (x y : Binary64) : Bool := x.compare? y == some .eq

def roundHalfAway : Binary64 → Binary64
  | .finite x => round x.negative ((2 * x.units + one) / (2 * one) * one) 1
  | x => x

end Binary64

end Indicators.Number
