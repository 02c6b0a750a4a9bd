import Indicators.Proofs.Number.Digits
import Indicators.Proofs.Number.Shortest

set_option autoImplicit false

namespace Indicators.Number

def splitFraction : List Char → List Char × List Char
  | '.' :: rest => (rest.takeWhile Char.isDigit, rest.dropWhile Char.isDigit)
  | rest => ([], rest)

def readPower (value : Int → Binary64) : List Char → Option Binary64
  | [] => some (value 0)
  | e :: rest =>
    if e = 'e' ∨ e = 'E' then
      let (down, power) := match rest with
        | '-' :: power => (true, power)
        | '+' :: power => (false, power)
        | power => (false, power)
      if power.isEmpty || !power.all Char.isDigit then none
      else
        let size : Int := Nat.ofDigitChars 10 power 0
        some (value (if down then -size else size))
    else none

theorem readDecimal_eq (negative : Bool) (text : List Char) :
    Binary64.readDecimal negative text =
      let parts := splitFraction (text.dropWhile Char.isDigit)
      let digits := text.takeWhile Char.isDigit ++ parts.1
      if digits.isEmpty then none
      else readPower (fun exponent => .ofDecimal negative (Nat.ofDigitChars 10 digits 0)
        (exponent - parts.1.length)) parts.2 := rfl

/-- What stands after the digits of a decimal: nothing, or a signed exponent. -/
def writtenPower : Option Int → List Char
  | none => []
  | some e => 'e' :: (if e < 0 then '-' else '+') :: Nat.toDigits 10 e.natAbs

theorem stops_writtenPower (power : Option Int) : Stops (writtenPower power) := by
  cases power with
  | none => exact stops_nil
  | some e => exact stops_cons (by decide) _

theorem splitFraction_writtenPower (power : Option Int) :
    splitFraction (writtenPower power) = ([], writtenPower power) := by
  cases power <;> rfl

theorem readPower_written (value : Int → Binary64) (power : Option Int) :
    readPower value (writtenPower power) = some (value (power.getD 0)) := by
  cases power with
  | none => rfl
  | some e =>
    have hne : (Nat.toDigits 10 e.natAbs).isEmpty = false := by simp
    have hall : (Nat.toDigits 10 e.natAbs).all Char.isDigit = true :=
      List.all_eq_true.2 (allDigits_toDigits e.natAbs)
    unfold writtenPower readPower
    by_cases hneg : e < 0
    · have habs : -(e.natAbs : Int) = e := by omega
      simp only [if_pos hneg, hne, hall, Nat.ofDigitChars_ten_toDigits]
      exact congrArg (fun e => some (value e)) habs
    · have habs : (e.natAbs : Int) = e := by omega
      simp only [if_neg hneg, hne, hall, Nat.ofDigitChars_ten_toDigits]
      exact congrArg (fun e => some (value e)) habs

section

variable (negative : Bool) {whole fraction : List Char}

theorem readDecimal_whole (h : AllDigits whole) (hne : whole ≠ []) (power : Option Int) :
    Binary64.readDecimal negative (whole ++ writtenPower power) =
      some (.ofDecimal negative (Nat.ofDigitChars 10 whole 0) (power.getD 0)) := by
  have hstops := stops_writtenPower power
  rw [readDecimal_eq, takeWhile_digits h hstops, dropWhile_digits h hstops,
    splitFraction_writtenPower]
  simp [hne, readPower_written]

theorem readDecimal_fraction (h : AllDigits whole) (hf : AllDigits fraction) (hne : whole ≠ [])
    (power : Option Int) :
    Binary64.readDecimal negative (whole ++ '.' :: (fraction ++ writtenPower power)) =
      some (.ofDecimal negative (Nat.ofDigitChars 10 (whole ++ fraction) 0)
        (power.getD 0 - fraction.length)) := by
  have hpoint : Stops ('.' :: (fraction ++ writtenPower power)) := stops_cons (by decide) _
  have hstops := stops_writtenPower power
  rw [readDecimal_eq, takeWhile_digits h hpoint, dropWhile_digits h hpoint, splitFraction,
    takeWhile_digits hf hstops, dropWhile_digits hf hstops]
  simp [hne, readPower_written]

end

section

variable (negative : Bool) {digits : List Char} (h : AllDigits digits)

include h

theorem readDecimal_below (zeros : Nat) :
    Binary64.readDecimal negative ('0' :: '.' :: (List.replicate zeros '0' ++ digits)) =
      some (.ofDecimal negative (Nat.ofDigitChars 10 digits 0)
        (-(zeros + digits.length : Nat))) := by
  have hfraction := (allDigits_zeros zeros).append h
  have hread := readDecimal_fraction negative (allDigits_zeros 1) hfraction (by decide) none
  have hzeros := ofDigitChars_zeros (zeros + 1) digits
  rw [List.replicate_succ, List.cons_append] at hzeros
  simpa [writtenPower, hzeros] using hread

theorem readDecimal_above (hne : digits ≠ []) (zeros : Nat) :
    Binary64.readDecimal negative (digits ++ List.replicate zeros '0') =
      some (.ofDecimal negative (Nat.ofDigitChars 10 digits 0 * 10 ^ zeros) 0) := by
  have hread := readDecimal_whole negative (h.append (allDigits_zeros zeros)) (by simp [hne]) none
  simpa [writtenPower, ofDigitChars_append_zeros] using hread

theorem readDecimal_above_point (hne : digits ≠ []) (zeros : Nat) :
    Binary64.readDecimal negative (digits ++ List.replicate zeros '0' ++ ['.', '0']) =
      some (.ofDecimal negative (Nat.ofDigitChars 10 digits 0 * 10 ^ (zeros + 1)) (-1)) := by
  have hread := readDecimal_fraction negative (h.append (allDigits_zeros zeros))
    (allDigits_zeros 1) (by simp [hne]) none
  have hzeros := ofDigitChars_append_zeros digits (zeros + 1)
  rw [List.replicate_succ'] at hzeros
  simpa [writtenPower, hzeros] using hread

theorem readDecimal_inside {point : Nat} (hpos : 0 < point) (hlt : point < digits.length) :
    Binary64.readDecimal negative (digits.take point ++ '.' :: digits.drop point) =
      some (.ofDecimal negative (Nat.ofDigitChars 10 digits 0) (point - digits.length : Int)) := by
  have hwhole : AllDigits (digits.take point) := fun c hc => h c (List.mem_of_mem_take hc)
  have hfraction : AllDigits (digits.drop point) := fun c hc => h c (List.mem_of_mem_drop hc)
  have hne : digits.take point ≠ [] := by
    rw [← List.length_pos_iff, List.length_take]
    omega
  have hread := readDecimal_fraction negative hwhole hfraction hne none
  have hexp : (0 : Int) - (digits.drop point).length = point - digits.length := by
    rw [List.length_drop]
    omega
  rw [List.take_append_drop, Option.getD_none, hexp] at hread
  simpa [writtenPower] using hread

theorem readDecimal_scientific (hne : digits ≠ []) (leading : Int) :
    Binary64.readDecimal negative (Style.scientific digits leading) =
      some (.ofDecimal negative (Nat.ofDigitChars 10 digits 0)
        (leading + 1 - digits.length)) := by
  cases digits with
  | nil => exact absurd rfl hne
  | cons first rest =>
    have hfirst : AllDigits [first] := fun c hc => h c (List.mem_of_mem_take (i := 1) hc)
    have hrest : AllDigits rest := fun c hc => h c (List.mem_cons_of_mem _ hc)
    cases rest with
    | nil =>
      have hread := readDecimal_whole negative hfirst (List.cons_ne_nil _ _) (some leading)
      have hexp : leading + 1 - [first].length = leading := by simp
      rw [hexp]
      exact hread
    | cons second rest =>
      have hread := readDecimal_fraction negative hfirst hrest (List.cons_ne_nil _ _)
        (some leading)
      have hexp : leading - (second :: rest).length =
          leading + 1 - (first :: second :: rest).length := by
        simp only [List.length_cons]
        omega
      rw [Option.getD_some, hexp] at hread
      exact hread

end

section

variable (negative : Bool) {units : Nat} (held : Held units) (hpos : 0 < units) {d : Decimal}

include hpos in
theorem readDecimal_positional (style : Style) (h : readsBack units d = true) :
    Binary64.readDecimal negative
        (style.positional (Nat.toDigits 10 d.digits)
          (d.exponent + (Nat.toDigits 10 d.digits).length)) =
      some (.finite ⟨negative, units, held⟩) := by
  obtain ⟨number, exponent⟩ := d
  have hdigits := allDigits_toDigits number
  have hvalue := @Nat.ofDigitChars_ten_toDigits number
  have hne := @Nat.toDigits_ne_nil number 10
  have hread (k : Nat) (e : Int) (he : e + k = exponent) :
      Binary64.ofDecimal negative (number * 10 ^ k) e = .finite ⟨negative, units, held⟩ := by
    refine @ofDecimal_of_readsBack negative units held hpos ⟨number * 10 ^ k, e⟩ ?_
    rw [readsBack_mul_pow, he]
    exact h
  have hread' (e : Int) (he : e = exponent) :
      Binary64.ofDecimal negative number e = .finite ⟨negative, units, held⟩ := by
    simpa using hread 0 e (by simpa using he)
  unfold Style.positional
  dsimp only
  generalize Nat.toDigits 10 number = digits at *
  split
  · rw [readDecimal_below negative hdigits, hvalue, hread' _ (by omega)]
  · split
    · have habove : exponent + digits.length - digits.length = exponent := by omega
      rw [habove]
      split
      · rw [readDecimal_above_point negative hdigits hne, hvalue, hread _ _ (by omega)]
      · rw [List.append_nil, readDecimal_above negative hdigits hne, hvalue, hread _ _ (by omega)]
    · rw [readDecimal_inside negative hdigits (by omega) (by omega), hvalue, hread' _ (by omega)]

theorem readDecimal_magnitude (style : Style) {units : Nat} (held : Held units) :
    Binary64.readDecimal negative (style.magnitude units) =
      some (.finite ⟨negative, units, held⟩) := by
  unfold Style.magnitude
  split
  · next hzero =>
    subst hzero
    split <;> rfl
  · next hne =>
    have hpos := Nat.pos_of_ne_zero hne
    have hshort := readsBack_shortest held hpos style.tie
    generalize shortest style.tie units = d at *
    dsimp only
    have hlen : d.exponent + (Nat.toDigits 10 d.digits).length - 1 + 1 =
        d.exponent + (Nat.toDigits 10 d.digits).length := by omega
    rw [hlen]
    split
    · exact readDecimal_positional negative held hpos style hshort
    · rw [readDecimal_scientific negative (allDigits_toDigits _) Nat.toDigits_ne_nil, hlen,
        Int.add_sub_cancel, Nat.ofDigitChars_ten_toDigits,
        ofDecimal_of_readsBack negative held hpos hshort]

end

theorem positional_head (style : Style) {c : Char} (hc : c.isDigit = true) (rest : List Char)
    (point : Int) :
    ∃ d tail, style.positional (c :: rest) point = d :: tail ∧ d.isDigit = true := by
  unfold Style.positional
  split
  · exact ⟨_, _, rfl, by decide⟩
  · split
    · exact ⟨c, _, rfl, hc⟩
    · obtain ⟨k, hk⟩ : ∃ k, point.toNat = k + 1 := ⟨point.toNat - 1, by omega⟩
      rw [hk]
      exact ⟨c, _, rfl, hc⟩

theorem magnitude_head (style : Style) (units : Nat) :
    ∃ c rest, style.magnitude units = c :: rest ∧ c.isDigit = true := by
  unfold Style.magnitude
  split
  · split <;> exact ⟨_, _, rfl, by decide⟩
  · have hdigits := allDigits_toDigits (shortest style.tie units).digits
    have hne := @Nat.toDigits_ne_nil (shortest style.tie units).digits 10
    generalize shortest style.tie units = d at *
    dsimp only
    generalize Nat.toDigits 10 d.digits = digits at *
    cases digits with
    | nil => exact absurd rfl hne
    | cons c rest =>
      have hc := hdigits c List.mem_cons_self
      split
      · exact positional_head style hc rest _
      · cases rest <;> exact ⟨c, _, rfl, hc⟩

theorem toLower_digit {c : Char} (h : c.isDigit = true) : c.toLower = c := by
  have hupper : ¬ (c.val ≥ 'A'.val ∧ c.val ≤ 'Z'.val) := by
    simp [Char.isDigit, UInt32.le_iff_toNat_le] at *
    omega
  exact dif_neg hupper

theorem readDecimal_body (negative : Bool) {c : Char} (hc : c.isDigit = true) (rest : List Char) :
    (let word := String.ofList ((c :: rest).map Char.toLower)
     if word = "inf" ∨ word = "infinity" then some (.infinity negative)
     else if word = "nan" then some .nan
     else Binary64.readDecimal negative (c :: rest)) =
      Binary64.readDecimal negative (c :: rest) := by
  have hword (word : String) (hw : word.toList.head? ≠ some c) :
      String.ofList ((c :: rest).map Char.toLower) ≠ word := by
    rintro rfl
    simp [toLower_digit hc] at hw
  have hne (d : Char) (hd : d.isDigit = false) : some d ≠ some c := by
    rintro ⟨⟩
    rw [hc] at hd
    cases hd
  dsimp only
  rw [if_neg, if_neg]
  · exact hword "nan" (hne 'n' (by decide))
  · rintro (h | h)
    · exact hword "inf" (hne 'i' (by decide)) h
    · exact hword "infinity" (hne 'i' (by decide)) h

theorem read?_signed (negative : Bool) {c : Char} (hc : c.isDigit = true) (rest : List Char) :
    Binary64.read? (String.ofList (if negative then '-' :: c :: rest else c :: rest)) =
      Binary64.readDecimal negative (c :: rest) := by
  unfold Binary64.read?
  rw [String.toList_ofList]
  cases negative with
  | true => exact readDecimal_body true hc rest
  | false =>
    rw [if_neg Bool.false_ne_true]
    split
    next hsign =>
      split at hsign
      · next hcons =>
        cases hcons
        cases hc
      · next hcons =>
        cases hcons
        cases hc
      · cases hsign
        exact readDecimal_body false hc rest

/-- A written number reads as that number. -/
theorem read?_write (style : Style) (x : Finite64) :
    Binary64.read? (style.write x) = some (.finite x) := by
  obtain ⟨negative, units, held⟩ := x
  obtain ⟨c, rest, htext, hc⟩ := magnitude_head style units
  have hread := readDecimal_magnitude negative style held
  rw [htext] at hread
  unfold Style.write
  rw [htext, read?_signed negative hc rest, hread]

theorem write_injective (style : Style) {x y : Finite64} (h : style.write x = style.write y) :
    x = y := by
  have hx := read?_write style x
  rw [h, read?_write style y] at hx
  cases hx
  rfl

end Indicators.Number
