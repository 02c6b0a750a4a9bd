import Indicators.Calendar.Date
import Mathlib.Data.Int.Init
import Mathlib.Tactic.IntervalCases

set_option autoImplicit false

namespace Indicators.Calendar

/-- The days of an era before one of its days, without the leap days. -/
def withoutLeapDays (ofEra : Nat) : Nat := ofEra - ofEra / 1460 + ofEra / 36524 - ofEra / 146096

def daysBefore (year : Nat) : Nat := 365 * year + year / 4 - year / 100

theorem withoutLeapDays_mono {m n : Nat} (h : m ≤ n) : withoutLeapDays m ≤ withoutLeapDays n := by
  -- Day 1460 · k starts no new day without leap days; day 146096 also begins a century.
  have hstep (d : Nat) : withoutLeapDays d ≤ withoutLeapDays (d + 1) := by
    have hera (d : Nat) : d / 146096 = d / 36524 / 4 := (Nat.div_div_eq_div_mul d 36524 4).symm
    unfold withoutLeapDays
    rw [hera, hera]
    omega
  induction h with
  | refl => exact Nat.le_refl _
  | step _ ih => exact Nat.le_trans ih (hstep _)

theorem withoutLeapDays_before :
    ∀ year < 400, 365 * year ≤ withoutLeapDays (daysBefore year) ∧
      withoutLeapDays (daysBefore (year + 1) - 1) < 365 * (year + 1) := by
  decide +kernel

theorem yearOfEra_bounds {ofEra year : Nat} (h : ofEra < 146097)
    (hyear : year = withoutLeapDays ofEra / 365) :
    year < 400 ∧ daysBefore year ≤ ofEra ∧ ofEra ≤ daysBefore year + 365 := by
  have hlt : year < 400 := by
    unfold withoutLeapDays at hyear
    omega
  have hnext : daysBefore (year + 1) ≤ daysBefore year + 366 := by
    unfold daysBefore
    omega
  refine ⟨hlt, ?_, ?_⟩
  · rcases Nat.lt_or_ge ofEra (daysBefore year) with hbelow | hbelow
    · obtain ⟨before, rfl⟩ : ∃ before, year = before + 1 := by
        refine Nat.exists_eq_succ_of_ne_zero ?_
        rintro rfl
        cases hbelow
      have hmono := withoutLeapDays_mono (Nat.le_sub_one_of_lt hbelow)
      have hbefore := (withoutLeapDays_before before (by omega)).2
      omega
    · exact hbelow
  · rcases Nat.lt_or_ge (daysBefore year + 365) ofEra with habove | habove
    · by_cases hlast : year + 1 < 400
      · have hmono : withoutLeapDays (daysBefore (year + 1)) ≤ withoutLeapDays ofEra :=
          withoutLeapDays_mono (by omega)
        have hafter := (withoutLeapDays_before (year + 1) hlast).1
        omega
      · unfold daysBefore at habove
        omega
    · exact habove

theorem dayNumber_fromMarch {year : Int} {fromMarch day : Nat} (h : fromMarch < 12) :
    (if fromMarch < 10 then Date.mk year (fromMarch + 3) (day + 1)
      else Date.mk (year + 1) (fromMarch - 9) (day + 1)).dayNumber =
        daysToMarch year + daysToMonth fromMarch + day - epochDay := by
  split
  · next hlow =>
    have hmonth : 2 < fromMarch + 3 := by omega
    simp [Date.dayNumber, hmonth]
  · next hhigh =>
    have hmonth : ¬ 2 < fromMarch - 9 := by omega
    have hback : fromMarch - 9 + 9 = fromMarch := by omega
    simp [Date.dayNumber, hmonth, hback]

theorem daysToMarch_era (era : Int) {year : Nat} (h : year < 400) :
    daysToMarch (era * 400 + year) = era * 146097 + daysBefore year := by
  have hfour : (era * 400 + year) / 4 = era * 100 + (year / 4 : Nat) := by omega
  have hcentury : (era * 400 + year) / 100 = era * 4 + (year / 100 : Nat) := by omega
  have hera : (era * 400 + year) / 400 = era := by omega
  unfold daysToMarch daysBefore
  rw [hfour, hcentury, hera]
  omega

/-- The date of a day number has that number. -/
theorem dayNumber_ofDayNumber (number : Int) : (Date.ofDayNumber number).dayNumber = number := by
  unfold Date.ofDayNumber
  dsimp only
  generalize hofEra : ((number + epochDay) % 146097).toNat = ofEra
  generalize hera : (number + epochDay) / 146097 = era
  have hnumber : number = era * 146097 + ofEra - epochDay := by omega
  generalize hyear : (ofEra - ofEra / 1460 + ofEra / 36524 - ofEra / 146096) / 365 = year
  obtain ⟨hlt, hfirst, hlast⟩ := yearOfEra_bounds (by omega) hyear.symm
  change (if _ then _ else _ : Date).dayNumber = _
  rw [← daysBefore]
  generalize hofYear : ofEra - daysBefore year = ofYear
  have hmonth : daysToMonth ((5 * ofYear + 2) / 153) ≤ ofYear := by
    unfold daysToMonth
    omega
  rw [dayNumber_fromMarch (by omega), hnumber, daysToMarch_era era hlt]
  omega

theorem ofDayNumber_injective {m n : Int} (h : Date.ofDayNumber m = Date.ofDayNumber n) :
    m = n := by
  rw [← dayNumber_ofDayNumber m, h, dayNumber_ofDayNumber]

def Date.NoLater (d e : Date) : Prop :=
  d.year < e.year ∨ d.year = e.year ∧ (d.month < e.month ∨ d.month = e.month ∧ d.day ≤ e.day)

instance (d e : Date) : Decidable (d.NoLater e) := inferInstanceAs (Decidable (_ ∨ _))

def monthNumber (year : Int) (month : Nat) : Int := 12 * year + (month - 1)

def monthStart (number : Int) : Int :=
  (Date.mk (number / 12) (number % 12 + 1).toNat 1).dayNumber

theorem daysToMarch_pred (year : Int) :
    daysToMarch year = daysToMarch (year - 1) + 337 + daysInMonth year 2 := by
  have hleap : isLeap year = true ↔ year % 4 = 0 ∧ (year % 100 ≠ 0 ∨ year % 400 = 0) := by
    simp [isLeap]
  unfold daysToMarch daysInMonth
  rw [if_pos rfl]
  split
  · next h => rw [hleap] at h; omega
  · next h => rw [hleap] at h; omega

theorem monthStart_eq {month : Nat} (hfirst : 1 ≤ month) (hlast : month ≤ 12) (year : Int) :
    monthStart (monthNumber year month) = (Date.mk year month 1).dayNumber := by
  have hyear : monthNumber year month / 12 = year := by
    unfold monthNumber
    omega
  have hmonth : (monthNumber year month % 12 + 1).toNat = month := by
    unfold monthNumber
    omega
  unfold monthStart
  rw [hyear, hmonth]

theorem dayNumber_eq {d : Date} (hfirst : 1 ≤ d.month) (hlast : d.month ≤ 12) :
    d.dayNumber = monthStart (monthNumber d.year d.month) + d.day - 1 := by
  rw [monthStart_eq hfirst hlast]
  unfold Date.dayNumber
  dsimp only
  split <;> omega

/-- From March on the lengths of the months do not depend on the year, except for the last. -/
theorem daysToMonth_succ (year : Int) {fromMarch : Nat} (h : fromMarch < 11) :
    daysToMonth (fromMarch + 1) =
      daysToMonth fromMarch + daysInMonth year ((fromMarch + 2) % 12 + 1) := by
  interval_cases fromMarch <;> rfl

theorem dayNumber_next {month : Nat} (hfirst : 1 ≤ month) (hlast : month < 12) (year : Int) :
    (Date.mk year (month + 1) 1).dayNumber =
      (Date.mk year month 1).dayNumber + daysInMonth year month := by
  unfold Date.dayNumber
  dsimp only
  obtain rfl | rfl | hspring : month = 1 ∨ month = 2 ∨ 2 < month := by omega
  · have hdays : daysToMonth (1 + 1 + 9) = daysToMonth (1 + 9) + daysInMonth year 1 :=
      daysToMonth_succ year (by decide)
    rw [if_neg (by decide), if_neg (by decide)]
    omega
  · have hyear := daysToMarch_pred year
    have hstart : daysToMonth (2 + 1 - 3) = 0 := rfl
    have hend : daysToMonth (2 + 9) = 337 := rfl
    rw [if_pos (by decide), if_neg (by decide)]
    omega
  · have hdays := daysToMonth_succ year (show month - 3 < 11 by omega)
    have hmonth : (month - 3 + 2) % 12 + 1 = month := by omega
    have hnext : month + 1 - 3 = month - 3 + 1 := by omega
    rw [hmonth] at hdays
    rw [if_pos (by omega), if_pos hspring, hnext]
    omega

theorem dayNumber_newYear (year : Int) :
    (Date.mk (year + 1) 1 1).dayNumber = (Date.mk year 12 1).dayNumber + daysInMonth year 12 := by
  have hdays : daysToMonth (1 + 9) = daysToMonth (12 - 3) + daysInMonth year 12 :=
    daysToMonth_succ year (by decide)
  unfold Date.dayNumber
  dsimp only
  rw [if_neg (by decide), if_pos (by decide), Int.add_sub_cancel]
  omega

theorem monthStart_next {month : Nat} (hfirst : 1 ≤ month) (hlast : month ≤ 12) (year : Int) :
    monthStart (monthNumber year month + 1) =
      monthStart (monthNumber year month) + daysInMonth year month := by
  rw [monthStart_eq hfirst hlast]
  by_cases hdecember : month = 12
  · subst hdecember
    have hnext : monthNumber year 12 + 1 = monthNumber (year + 1) 1 := by
      unfold monthNumber
      omega
    rw [hnext, monthStart_eq (by decide) (by decide), dayNumber_newYear]
  · have hnext : monthNumber year month + 1 = monthNumber year (month + 1) := by
      unfold monthNumber
      omega
    rw [hnext, monthStart_eq (by omega) (by omega), dayNumber_next hfirst (by omega)]

theorem monthStart_mono {i j : Int} (h : i ≤ j) : monthStart i ≤ monthStart j := by
  induction j, h using Int.leInduction with
  | base => exact le_refl _
  | succ j _ ih =>
    have hmonth : monthNumber (j / 12) (j % 12 + 1).toNat = j := by
      unfold monthNumber
      omega
    have hnext := @monthStart_next (j % 12 + 1).toNat (by omega) (by omega) (j / 12)
    rw [hmonth] at hnext
    omega

theorem dayNumber_lt {d e : Date} (hd : d.Valid) (he : e.Valid)
    (h : monthNumber d.year d.month < monthNumber e.year e.month) : d.dayNumber < e.dayNumber := by
  obtain ⟨-, -, hfirst, hlast, -, hday⟩ := hd
  obtain ⟨-, -, hfirst', hlast', hday', -⟩ := he
  have hstart := dayNumber_eq hfirst hlast
  have hstart' := dayNumber_eq hfirst' hlast'
  calc d.dayNumber
      < monthStart (monthNumber d.year d.month) + daysInMonth d.year d.month := by omega
    _ = monthStart (monthNumber d.year d.month + 1) := (monthStart_next hfirst hlast d.year).symm
    _ ≤ monthStart (monthNumber e.year e.month) := monthStart_mono (by omega)
    _ ≤ e.dayNumber := by omega

/-- Dates are in order as their days are. -/
theorem dayNumber_le_iff {d e : Date} (hd : d.Valid) (he : e.Valid) :
    d.dayNumber ≤ e.dayNumber ↔ d.NoLater e := by
  have hlt := dayNumber_lt hd he
  have hgt := dayNumber_lt he hd
  obtain ⟨-, -, hfirst, hlast, -, -⟩ := hd
  obtain ⟨-, -, hfirst', hlast', -, -⟩ := he
  have hstart := dayNumber_eq hfirst hlast
  have hstart' := dayNumber_eq hfirst' hlast'
  unfold Date.NoLater
  rcases Int.lt_trichotomy (monthNumber d.year d.month) (monthNumber e.year e.month) with
    hless | hsame | hmore
  · have hbefore := hlt hless
    unfold monthNumber at hless
    omega
  · rw [hsame] at hstart
    unfold monthNumber at hsame hstart hstart'
    omega
  · have hafter := hgt hmore
    unfold monthNumber at hmore
    omega

end Indicators.Calendar
