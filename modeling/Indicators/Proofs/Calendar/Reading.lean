import Indicators.Calendar.Reader
import Indicators.Proofs.Calendar.Writing
import Indicators.Proofs.Text.Blank

set_option autoImplicit false

namespace Indicators.Calendar

open Indicators.Number

section

variable {digits : List Char} (h : AllDigits digits)

include h

theorem readFixed_append {count : Nat} (hlen : digits.length = count) (rest : List Char) :
    readFixed count (digits ++ rest) = some (Nat.ofDigitChars 10 digits 0, rest) := by
  subst hlen
  have hall : digits.all Char.isDigit = true := List.all_eq_true.2 h
  unfold readFixed
  simp only [List.take_left, List.drop_left, hall, and_self, if_true]

theorem readFraction_append (hne : digits ≠ []) {rest : List Char} (hs : Stops rest) :
    readFraction (digits ++ rest) =
      some (Nat.ofDigitChars 10 (digits.take 9) 0 * 10 ^ (9 - (digits.take 9).length), rest) := by
  have hsome : (digits.take 9).isEmpty = false := by
    cases digits with
    | nil => exact absurd rfl hne
    | cons c tail => rfl
  unfold readFraction
  rw [takeWhile_digits h hs]
  dsimp only
  rw [hsome, if_neg Bool.false_ne_true, List.drop_left]
  rfl

end

theorem readFixed_padded {width n : Nat} (hpos : 0 < width) (h : n < 10 ^ width)
    (rest : List Char) :
    readFixed width (Timestamp.padded width n ++ rest) = some (n, rest) := by
  rw [readFixed_append (Timestamp.allDigits_padded width n) (Timestamp.length_padded hpos h),
    Timestamp.ofDigitChars_padded]

theorem bind_of_eq_some {α β : Type} {x : Option α} {a : α} {f : α → Option β} (h : x = some a) :
    x >>= f = f a := by
  rw [h]
  rfl

theorem readChar_self (c : Char) (rest : List Char) : readChar c (c :: rest) = some rest :=
  if_pos rfl

def readTime (date : Date) (text : List Char) : Option Timestamp := do
  let (hour, text) ← readFixed 2 text
  let text ← readChar ':' text
  let (minute, text) ← readFixed 2 text
  let text ← readChar ':' text
  let (second, text) ← readFixed 2 text
  if 23 < hour ∨ 59 < minute ∨ 60 < second then none
  let (nanos, text) ← match text with
    | '.' :: rest => readFraction rest
    | rest => some (0, rest)
  let (offset, text) ← readOffset text
  if !text.isEmpty then none
  let leap := second = 60
  let ofDay : Int := hour * 3600 + minute * 60 + (if leap then 59 else second : Nat)
  let nanos := if leap then nanosPerSecond + nanos else nanos
  let moment ← Timestamp.of? (date.dayNumber * secondsPerDay + ofDay) nanos
  return moment.unshift offset

theorem date_of? {date : Date} (h : date.Valid) (hyear : 0 ≤ date.year) :
    Date.of? date.year.natAbs date.month date.day = some date := by
  have habs : (date.year.natAbs : Int) = date.year := by omega
  unfold Date.of?
  rw [habs]
  exact if_pos h

theorem readTimestamp_date {date : Date} (h : date.Valid) (hfirst : 0 ≤ date.year)
    (hlast : date.year ≤ 9999) {separator : Char}
    (hsep : separator = 'T' ∨ separator = 't' ∨ separator = ' ') (rest : List Char) :
    readTimestamp (Timestamp.padded 4 date.year.natAbs ++ '-' ::
      (Timestamp.padded 2 date.month ++ '-' ::
        (Timestamp.padded 2 date.day ++ separator :: rest))) = readTime date rest := by
  have hdate := date_of? h hfirst
  obtain ⟨-, -, -, hmonth, -, hday⟩ := h
  have hdays : daysInMonth date.year date.month ≤ 31 := by
    unfold daysInMonth
    repeat' split
    all_goals decide
  unfold readTimestamp
  refine (bind_of_eq_some (readFixed_padded (by decide) (by omega) _)).trans ?_
  refine (bind_of_eq_some (readChar_self '-' _)).trans ?_
  refine (bind_of_eq_some (readFixed_padded (by decide) (by omega) _)).trans ?_
  refine (bind_of_eq_some (readChar_self '-' _)).trans ?_
  refine (bind_of_eq_some (readFixed_padded (by decide) (by omega) _)).trans ?_
  refine (bind_of_eq_some hdate).trans ?_
  rcases hsep with rfl | rfl | rfl <;> rfl

/-- What a clock runs ahead of UTC or behind it, and how that is written. -/
inductive Zone where
  | utc (letter : Char) (h : letter = 'Z' ∨ letter = 'z')
  | ahead (hours minutes : Nat) (h : hours ≤ 23 ∧ minutes ≤ 59)
  | behind (hours minutes : Nat) (h : hours ≤ 23 ∧ minutes ≤ 59)

namespace Zone

def written (sign : Char) (hours minutes : Nat) : List Char :=
  sign :: (Timestamp.padded 2 hours ++ ':' :: Timestamp.padded 2 minutes)

def text : Zone → List Char
  | utc letter _ => [letter]
  | ahead hours minutes _ => written '+' hours minutes
  | behind hours minutes _ => written '-' hours minutes

def minutes : Zone → Int
  | utc _ _ => 0
  | ahead hours minutes _ => hours * 60 + minutes
  | behind hours minutes _ => -(hours * 60 + minutes : Int)

theorem readOffset_written {sign : Char} (hsign : sign = '+' ∨ sign = '-') {hours minutes : Nat}
    (h : hours ≤ 23 ∧ minutes ≤ 59) :
    readOffset (written sign hours minutes) =
      some (if sign = '-' then -(hours * 60 + minutes : Int) else hours * 60 + minutes, []) := by
  have htwo (n : Nat) (hn : n ≤ 59) (rest : List Char) :
      readFixed 2 (Timestamp.padded 2 n ++ rest) = some (n, rest) :=
    readFixed_padded (by decide) (by omega) rest
  have hhours := htwo hours (by omega) (':' :: Timestamp.padded 2 minutes)
  have hminutes := htwo minutes h.2 []
  rw [List.append_nil] at hminutes
  have hrange : ¬ (23 < hours ∨ 59 < minutes) := by omega
  unfold written
  rcases hsign with rfl | rfl <;>
    simp [readOffset, hhours, hminutes, readChar_self, hrange]

theorem readOffset_text (z : Zone) : readOffset z.text = some (z.minutes, []) := by
  cases z with
  | utc letter h => rcases h with rfl | rfl <;> rfl
  | ahead hours minutes h => exact readOffset_written (.inl rfl) h
  | behind hours minutes h => exact readOffset_written (.inr rfl) h

theorem text_head (z : Zone) : ∃ c rest, z.text = c :: rest ∧ c.isDigit = false ∧ c ≠ '.' := by
  cases z with
  | utc letter h =>
    refine ⟨letter, [], rfl, ?_⟩
    rcases h with rfl | rfl <;> decide
  | ahead hours minutes h => exact ⟨'+', _, rfl, by decide⟩
  | behind hours minutes h => exact ⟨'-', _, rfl, by decide⟩

theorem stops_text (z : Zone) : Stops z.text := by
  obtain ⟨c, rest, htext, hc, -⟩ := z.text_head
  rw [htext]
  exact stops_cons hc rest

theorem endsVisible_text (z : Zone) : Text.EndsVisible z.text := by
  have hwritten (sign : Char) (hours minutes : Nat) :
      Text.EndsVisible (written sign hours minutes) := by
    obtain ⟨c, rest, hpad, -⟩ := Timestamp.padded_head 2 minutes
    have hne : Timestamp.padded 2 minutes ≠ [] := by
      rw [hpad]
      exact List.cons_ne_nil c rest
    have hlast := Text.endsVisible_digits (Timestamp.allDigits_padded 2 minutes) hne
    exact .cons sign (.append _ (.cons ':' hlast))
  cases z with
  | utc letter h =>
    refine ⟨letter, rfl, ?_⟩
    rcases h with rfl | rfl <;> decide
  | ahead hours minutes h => exact hwritten '+' hours minutes
  | behind hours minutes h => exact hwritten '-' hours minutes

end Zone

/-- A date and a time of day with any fraction, in the years that have four digits. -/
structure WallClock where
  date : Date
  valid : date.Valid
  years : 0 ≤ date.year ∧ date.year ≤ 9999
  separator : Char
  separates : separator = 'T' ∨ separator = 't' ∨ separator = ' '
  hour : Nat
  minute : Nat
  /-- Second 60 is a leap second. -/
  second : Nat
  onClock : hour ≤ 23 ∧ minute ≤ 59 ∧ second ≤ 60
  fraction : List Char
  digits : AllDigits fraction
  zone : Zone

namespace WallClock

def fractionText (w : WallClock) : List Char :=
  if w.fraction = [] then [] else '.' :: w.fraction

def timeText (w : WallClock) : List Char :=
  Timestamp.padded 2 w.hour ++ ':' :: (Timestamp.padded 2 w.minute ++ ':' ::
    (Timestamp.padded 2 w.second ++ (w.fractionText ++ w.zone.text)))

def text (w : WallClock) : List Char :=
  Timestamp.padded 4 w.date.year.natAbs ++ '-' :: (Timestamp.padded 2 w.date.month ++ '-' ::
    (Timestamp.padded 2 w.date.day ++ w.separator :: w.timeText))

def subsecond (w : WallClock) : Nat :=
  Nat.ofDigitChars 10 (w.fraction.take 9) 0 * 10 ^ (9 - (w.fraction.take 9).length)

def shown (w : WallClock) : Int :=
  w.date.dayNumber * secondsPerDay +
    (w.hour * 3600 + w.minute * 60 + (if w.second = 60 then 59 else w.second : Nat))

def nanos (w : WallClock) : Nat :=
  if w.second = 60 then nanosPerSecond + w.subsecond else w.subsecond

theorem subsecond_lt (w : WallClock) : w.subsecond < nanosPerSecond := by
  have hdigits : AllDigits (w.fraction.take 9) := fun c hc => w.digits c (List.mem_of_mem_take hc)
  have hlen : (w.fraction.take 9).length ≤ 9 := List.length_take_le 9 w.fraction
  have hlt := ofDigitChars_lt hdigits 0
  rw [Nat.zero_add, Nat.one_mul] at hlt
  calc w.subsecond
      < 10 ^ (w.fraction.take 9).length * 10 ^ (9 - (w.fraction.take 9).length) :=
        Nat.mul_lt_mul_of_pos_right hlt (Nat.pow_pos (by decide))
    _ = 10 ^ 9 := by rw [← Nat.pow_add, Nat.add_sub_cancel' hlen]
    _ = nanosPerSecond := rfl

theorem onClock_shown (w : WallClock) : OnClock w.shown w.nanos := by
  have hlt := w.subsecond_lt
  unfold OnClock shown nanos secondsPerDay
  split <;> omega

def moment (w : WallClock) : Timestamp :=
  Timestamp.unshift ⟨w.shown, w.nanos, w.onClock_shown⟩ w.zone.minutes

theorem of?_shown (w : WallClock) :
    ((Timestamp.of? w.shown w.nanos).bind fun t => some (t.unshift w.zone.minutes)) =
      some w.moment := by
  unfold Timestamp.of?
  rw [dif_pos w.onClock_shown]
  rfl

theorem readTime_timeText (w : WallClock) : readTime w.date w.timeText = some w.moment := by
  obtain ⟨hhour, hminute, hsecond⟩ := w.onClock
  have hrange : ¬ (23 < w.hour ∨ 59 < w.minute ∨ 60 < w.second) := by omega
  unfold readTime timeText
  refine (bind_of_eq_some (readFixed_padded (by decide) (by omega) _)).trans ?_
  refine (bind_of_eq_some (readChar_self ':' _)).trans ?_
  refine (bind_of_eq_some (readFixed_padded (by decide) (by omega) _)).trans ?_
  refine (bind_of_eq_some (readChar_self ':' _)).trans ?_
  refine (bind_of_eq_some (readFixed_padded (by decide) (by omega) _)).trans ?_
  refine (if_neg hrange).trans ?_
  dsimp only
  rw [← w.of?_shown]
  -- A point begins the fraction, since no offset begins with one.
  by_cases hf : w.fraction = []
  · obtain ⟨c, rest, htext, -, hc⟩ := w.zone.text_head
    have hzero : w.subsecond = 0 := by
      unfold subsecond
      rw [hf]
      rfl
    unfold fractionText nanos
    rw [if_pos hf, hzero, List.nil_append]
    split
    · next hpoint =>
      rw [htext] at hpoint
      exact absurd (List.cons.inj hpoint).1 hc
    · refine (bind_of_eq_some rfl).trans ?_
      exact bind_of_eq_some w.zone.readOffset_text
  · unfold fractionText
    rw [if_neg hf, List.cons_append]
    split
    · next hpoint =>
      obtain ⟨-, rfl⟩ := List.cons.inj hpoint
      refine (bind_of_eq_some (readFraction_append w.digits hf w.zone.stops_text)).trans ?_
      exact bind_of_eq_some w.zone.readOffset_text
    · next hpoint => exact absurd rfl (hpoint _)

theorem readTimestamp_text (w : WallClock) : readTimestamp w.text = some w.moment := by
  unfold text
  rw [readTimestamp_date w.valid w.years.1 w.years.2 w.separates, readTime_timeText]

theorem tight_text (w : WallClock) : Text.Tight w.text := by
  have hends : Text.EndsVisible w.text :=
    .append _ (.cons '-' (.append _ (.cons '-' (.append _ (.cons w.separator (.append _
      (.cons ':' (.append _ (.cons ':' (.append _ (.append _ w.zone.endsVisible_text)))))))))))
  obtain ⟨c, rest, hpad, hc⟩ := Timestamp.padded_head 4 w.date.year.natAbs
  unfold text at hends ⊢
  rw [hpad, List.cons_append] at hends ⊢
  exact .of_ends (Text.isBlank_digit hc) hends

/-- The written clock is read as its moment, never as a bare date. -/
theorem read?_text (w : WallClock) (endOfDay : Bool) :
    Timestamp.read? (String.ofList w.text) endOfDay = some w.moment := by
  unfold Timestamp.read?
  rw [String.toList_ofList, w.tight_text.trimList_eq]
  dsimp only
  rw [readTimestamp_text]

end WallClock

structure BareDate (text : String) (d : Date) : Prop where
  noTimestamp : readTimestamp (Text.trimList text.toList) = none
  date : readDate (Text.trimList text.toList) = some d

theorem valid_of_of? {year : Int} {month day : Nat} {d : Date}
    (h : Date.of? year month day = some d) : d.Valid := by
  unfold Date.of? at h
  dsimp only at h
  split at h
  · next hvalid => exact Option.some.inj h ▸ hvalid
  · cases h

theorem valid_of_readDate {text : List Char} {d : Date} (h : readDate text = some d) :
    d.Valid := by
  unfold readDate at h
  obtain ⟨⟨year, text⟩, -, h⟩ := Option.bind_eq_some_iff.1 h
  obtain ⟨text, -, h⟩ := Option.bind_eq_some_iff.1 h
  obtain ⟨⟨month, text⟩, -, h⟩ := Option.bind_eq_some_iff.1 h
  obtain ⟨text, -, h⟩ := Option.bind_eq_some_iff.1 h
  obtain ⟨⟨day, text⟩, -, h⟩ := Option.bind_eq_some_iff.1 h
  dsimp only at h
  split at h
  · cases h
  · exact valid_of_of? h

section

variable {text : String} {d : Date} (h : BareDate text d)

include h

theorem BareDate.valid : d.Valid := valid_of_readDate h.date

theorem BareDate.read? (endOfDay : Bool) :
    Timestamp.read? text endOfDay = some (if endOfDay then d.dayEnd else d.dayStart) := by
  unfold Timestamp.read?
  dsimp only
  rw [h.noTimestamp, h.date]
  rfl

end

end Indicators.Calendar
