import Indicators.Calendar.Timestamp
import Indicators.Proofs.Calendar.Days
import Indicators.Proofs.Number.Digits

set_option autoImplicit false

/-! Every number of a timestamp's text ends where no digit stands, so the text gives back the date,
the time of day and the fraction, and from second 60 that the moment lies in a leap second. -/

namespace Indicators.Calendar.Timestamp

open Indicators.Number

theorem allDigits_padded (width n : Nat) : AllDigits (padded width n) :=
  (allDigits_zeros _).append (allDigits_toDigits n)

theorem ofDigitChars_padded (width n : Nat) : Nat.ofDigitChars 10 (padded width n) 0 = n := by
  unfold padded
  rw [ofDigitChars_zeros, Nat.ofDigitChars_ten_toDigits]

theorem length_padded {width n : Nat} (hpos : 0 < width) (h : n < 10 ^ width) :
    (padded width n).length = width := by
  have hlen := (Nat.length_toDigits_le_iff (by decide) hpos).2 h
  simp [padded]
  omega

theorem padded_head (width n : Nat) : ∃ c rest, padded width n = c :: rest ∧ c.isDigit = true := by
  have hdigits := allDigits_padded width n
  cases hpad : padded width n with
  | nil => simp [padded] at hpad
  | cons c rest => exact ⟨c, rest, rfl, hdigits c (by simp [hpad])⟩

def yearSign (year : Int) : List Char :=
  if 0 ≤ year ∧ year ≤ 9999 then [] else if year < 0 then ['-'] else ['+']

theorem writeYear_eq (year : Int) : writeYear year = yearSign year ++ padded 4 year.natAbs := by
  unfold writeYear yearSign
  repeat' split
  all_goals rfl

theorem yearSign_eq_minus (year : Int) : yearSign year = ['-'] ↔ year < 0 := by
  unfold yearSign
  split
  · simp
    omega
  · split <;> simp [*]

theorem takeWhile_yearSign (year : Int) (width n : Nat) (rest : List Char) :
    (yearSign year ++ (padded width n ++ rest)).takeWhile (!·.isDigit) = yearSign year := by
  obtain ⟨c, digits, hpad, hc⟩ := padded_head width n
  have hdigits : (padded width n ++ rest).takeWhile (!·.isDigit) = [] := by simp [hpad, hc]
  rw [List.takeWhile_append_of_pos, hdigits, List.append_nil]
  unfold yearSign
  repeat' split
  all_goals exact List.all_eq_true.1 rfl

section

variable {rest rest' : List Char} (hs : Stops rest) (hs' : Stops rest')

include hs hs'

theorem padded_unique {width width' m n : Nat}
    (h : padded width m ++ rest = padded width' n ++ rest') : m = n ∧ rest = rest' := by
  obtain ⟨hdigits, hrest⟩ :=
    digits_unique (allDigits_padded width m) (allDigits_padded width' n) hs hs' h
  rw [← ofDigitChars_padded width m, hdigits, ofDigitChars_padded]
  exact ⟨rfl, hrest⟩

theorem writeYear_unique {year year' : Int}
    (h : writeYear year ++ rest = writeYear year' ++ rest') : year = year' ∧ rest = rest' := by
  rw [writeYear_eq, writeYear_eq, List.append_assoc, List.append_assoc] at h
  have hsign : yearSign year = yearSign year' := by
    rw [← takeWhile_yearSign year 4 year.natAbs rest, h, takeWhile_yearSign]
  rw [hsign] at h
  obtain ⟨habs, hrest⟩ := padded_unique hs hs' (List.append_cancel_left h)
  have hneg : year < 0 ↔ year' < 0 := by rw [← yearSign_eq_minus, hsign, yearSign_eq_minus]
  exact ⟨by omega, hrest⟩

end

theorem writeFraction_eq {nanos : Nat} (h : nanos < nanosPerSecond) :
    nanos = 0 ∧ writeFraction nanos = [] ∨
      ∃ width shown, writeFraction nanos = '.' :: padded width shown ∧
        (padded width shown).length = width ∧ nanos = shown * 10 ^ (9 - width) := by
  unfold nanosPerSecond at h
  unfold writeFraction
  split
  · next hzero => exact .inl ⟨hzero, rfl⟩
  · split
    · exact .inr ⟨3, nanos / 1000000, rfl, length_padded (by decide) (by omega), by omega⟩
    · split
      · exact .inr ⟨6, nanos / 1000, rfl, length_padded (by decide) (by omega), by omega⟩
      · exact .inr ⟨9, nanos, rfl, length_padded (by decide) (by omega), by omega⟩

theorem writeFraction_unique {nanos nanos' : Nat} (h : nanos < nanosPerSecond)
    (h' : nanos' < nanosPerSecond) {c : Char} (hc : c.isDigit = false) (hpoint : c ≠ '.')
    {rest : List Char}
    (he : writeFraction nanos ++ c :: rest = writeFraction nanos' ++ c :: rest) :
    nanos = nanos' := by
  have hs := stops_cons hc rest
  rcases writeFraction_eq h with ⟨hzero, hnone⟩ | ⟨width, shown, hsome, hlen, hvalue⟩ <;>
    rcases writeFraction_eq h' with ⟨hzero', hnone'⟩ | ⟨width', shown', hsome', hlen', hvalue'⟩
  · rw [hzero, hzero']
  · rw [hnone, hsome'] at he
    exact absurd (List.cons.inj he).1 hpoint
  · rw [hsome, hnone'] at he
    exact absurd (List.cons.inj he).1.symm hpoint
  · rw [hsome, hsome'] at he
    obtain ⟨hdigits, -⟩ := digits_unique (allDigits_padded width shown)
      (allDigits_padded width' shown') hs hs (List.cons.inj he).2
    have hwidth : width = width' := by rw [← hlen, hdigits, hlen']
    have hshown : shown = shown' := by
      rw [← ofDigitChars_padded width shown, hdigits, ofDigitChars_padded]
    rw [hvalue, hvalue', hwidth, hshown]

theorem stops_writeFraction (nanos : Nat) (rest : List Char) :
    Stops (writeFraction nanos ++ '+' :: rest) := by
  unfold writeFraction
  repeat' split
  all_goals exact stops_cons (by decide) _

theorem leap_iff (t : Timestamp) :
    nanosPerSecond ≤ t.nanos ↔
      (t.seconds % secondsPerDay).toNat % 60 + (if nanosPerSecond ≤ t.nanos then 1 else 0) =
        60 := by
  have hlast := t.onClock.2
  unfold secondsPerDay
  split <;> omega

theorem dayNumber_seconds (t : Timestamp) :
    t.seconds = t.dayNumber * secondsPerDay + (t.seconds % secondsPerDay).toNat := by
  unfold dayNumber secondsPerDay
  omega

/-- No two timestamps are written alike. -/
theorem write_injective {t u : Timestamp} (h : t.write = u.write) : t = u := by
  unfold write at h
  dsimp only at h
  have hlist := String.ofList_injective h
  simp only [List.append_assoc, List.cons_append] at hlist
  have hdash (rest : List Char) : Stops ('-' :: rest) := stops_cons (by decide) _
  have hcolon (rest : List Char) : Stops (':' :: rest) := stops_cons (by decide) _
  have htime (rest : List Char) : Stops ('T' :: rest) := stops_cons (by decide) _
  obtain ⟨hyear, hlist⟩ := writeYear_unique (hdash _) (hdash _) hlist
  obtain ⟨hmonth, hlist⟩ := padded_unique (hdash _) (hdash _) (List.cons.inj hlist).2
  obtain ⟨hday, hlist⟩ := padded_unique (htime _) (htime _) (List.cons.inj hlist).2
  obtain ⟨hhour, hlist⟩ := padded_unique (hcolon _) (hcolon _) (List.cons.inj hlist).2
  obtain ⟨hminute, hlist⟩ := padded_unique (hcolon _) (hcolon _) (List.cons.inj hlist).2
  obtain ⟨hsecond, hlist⟩ :=
    padded_unique (stops_writeFraction _ _) (stops_writeFraction _ _) (List.cons.inj hlist).2
  have hdate : Date.ofDayNumber t.dayNumber = Date.ofDayNumber u.dayNumber := by
    cases hd : Date.ofDayNumber t.dayNumber
    cases hd' : Date.ofDayNumber u.dayNumber
    simp_all
  have hdays := ofDayNumber_injective hdate
  have hleap : nanosPerSecond ≤ t.nanos ↔ nanosPerSecond ≤ u.nanos := by
    rw [leap_iff t, hsecond, ← leap_iff u]
  simp only [hleap] at hsecond
  have hofDay : (t.seconds % secondsPerDay).toNat = (u.seconds % secondsPerDay).toNat := by omega
  have hseconds : t.seconds = u.seconds := by
    rw [dayNumber_seconds t, dayNumber_seconds u, hdays, hofDay]
  have hnanos : t.nanos = u.nanos := by
    have hlt := t.onClock.1
    have hlt' := u.onClock.1
    have hshown := writeFraction_unique (by split <;> omega) (by split <;> omega) (by decide)
      (by decide) hlist
    simp only [hleap] at hshown
    split at hshown <;> omega
  cases t
  cases u
  simp_all

end Indicators.Calendar.Timestamp
