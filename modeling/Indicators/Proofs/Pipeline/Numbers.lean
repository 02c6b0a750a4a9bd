import Indicators.Pipeline.Value
import Indicators.Proofs.Number.Comparison
import Indicators.Proofs.Number.Reading
import Indicators.Proofs.Text.Blank

set_option autoImplicit false

/-! A float that becomes its integer keeps its value, so a stored number compares with the literal
as it does with the float. -/

namespace Indicators.Number

theorem ofDecimal_whole (i : Int) :
    Binary64.ofDecimal (decide (i < 0)) i.natAbs 0 = Binary64.ofInt i := by
  unfold Binary64.ofDecimal
  split
  · next hzero =>
    obtain rfl : i = 0 := by omega
    exact Binary64.zero_eq_ofInt
  · rw [if_neg (by decide), if_neg (by omega)]
    have hpow : Nat.pow 10 (Int.toNat 0) = 1 := rfl
    have hpow' : Nat.pow 10 (Int.toNat (-0)) = 1 := rfl
    rw [hpow, hpow', Nat.mul_one]
    rfl

theorem writeInt_eq (i : Int) :
    ∃ c rest, c.isDigit = true ∧ Nat.toDigits 10 i.natAbs = c :: rest ∧
      Json.writeInt i = if decide (i < 0) = true then '-' :: c :: rest else c :: rest := by
  have hdigits := allDigits_toDigits i.natAbs
  cases htext : Nat.toDigits 10 i.natAbs with
  | nil => exact absurd htext Nat.toDigits_ne_nil
  | cons c rest =>
    rw [htext] at hdigits
    refine ⟨c, rest, hdigits c List.mem_cons_self, rfl, ?_⟩
    unfold Json.writeInt
    rw [htext]
    simp only [decide_eq_true_eq]

/-- The text of an integer reads as its float. -/
theorem read?_writeInt (i : Int) :
    Binary64.read? (String.ofList (Json.writeInt i)) = some (Binary64.ofInt i) := by
  obtain ⟨c, rest, hc, htext, hwrite⟩ := writeInt_eq i
  have hread := readDecimal_whole (decide (i < 0)) (allDigits_toDigits i.natAbs)
    Nat.toDigits_ne_nil none
  rw [writtenPower, List.append_nil, Nat.ofDigitChars_ten_toDigits, Option.getD_none,
    ofDecimal_whole, htext] at hread
  rw [hwrite, read?_signed _ hc, hread]

theorem tight_writeInt (i : Int) : Text.Tight (Json.writeInt i) := by
  obtain ⟨c, rest, hc, htext, hwrite⟩ := writeInt_eq i
  have hends : Text.EndsVisible (c :: rest) := by
    rw [← htext]
    exact Text.endsVisible_digits (allDigits_toDigits i.natAbs) Nat.toDigits_ne_nil
  rw [hwrite]
  split
  · exact .of_ends rfl (hends.cons '-')
  · exact .of_ends (Text.isBlank_digit hc) hends

end Indicators.Number

namespace Indicators.Pipeline

open Indicators Indicators.Number

theorem wordSized_int64 (x : Int64) : WordSized x.toInt := by
  obtain ⟨hlow, hhigh⟩ := Json.word_int64 x
  unfold WordSized
  omega

theorem readFinite?_writeInt {i : Int} (h : WordSized i) :
    readFinite? (Text.trim (String.ofList (Json.writeInt i))) = some (Binary64.ofInt i) := by
  obtain ⟨x, hx⟩ := Binary64.ofInt_finite h
  unfold readFinite?
  rw [Text.trim_ofList (tight_writeInt i), read?_writeInt, hx]
  rfl

theorem wholeInt?_of_held {i : Int} (h : HeldInteger i) (hlt : i.natAbs < 0x8000000000000000) :
    wholeInt? (Binary64.ofInt i) = some i := by
  have hunits : i.natAbs * one < 0x8000000000000000 * one :=
    (Nat.mul_lt_mul_right magnitude_one_pos).2 hlt
  have hone : (one : Int) ≠ 0 := (Int.natCast_pos.2 magnitude_one_pos).ne'
  rw [Binary64.ofInt_of_held h]
  simp only [wholeInt?, Finite64.isWhole, Nat.mul_mod_left, decide_true, Bool.true_and,
    decide_eq_true hunits, if_true, Finite64.truncate, Finite64.value, Binary64.signed_natAbs_mul]
  rw [Int.mul_tdiv_cancel _ hone]

theorem value_of_wholeInt? {x : Binary64} {i : Int} (h : wholeInt? x = some i) :
    ∃ f : Finite64, x = .finite f ∧ f.units = i.natAbs * one ∧ f.value = i * one ∧
      i.natAbs < 0x8000000000000000 := by
  cases x with
  | infinity negative => cases h
  | nan => cases h
  | finite f =>
    unfold wholeInt? at h
    dsimp only at h
    split at h
    next hwhole =>
      rw [Bool.and_eq_true, decide_eq_true_eq, Finite64.isWhole, decide_eq_true_eq] at hwhole
      obtain ⟨hdvd, hlt⟩ := hwhole
      obtain ⟨k, hk⟩ := Nat.dvd_of_mod_eq_zero hdvd
      rw [Nat.mul_comm] at hk
      -- The multiple of one that the units are, with the sign.
      obtain ⟨j, hj, hvalue⟩ : ∃ j : Int, j.natAbs = k ∧ f.value = j * one := by
        unfold Finite64.value
        rw [hk, Nat.cast_mul]
        split
        · exact ⟨-k, by omega, (Int.neg_mul _ _).symm⟩
        · exact ⟨k, by omega, rfl⟩
      have hone : (one : Int) ≠ 0 := (Int.natCast_pos.2 magnitude_one_pos).ne'
      have hi : f.truncate = j := by rw [Finite64.truncate, hvalue, Int.mul_tdiv_cancel _ hone]
      rw [hi, Option.some_inj] at h
      subst h
      rw [hk, Nat.mul_lt_mul_right magnitude_one_pos] at hlt
      exact ⟨f, rfl, hj ▸ hk, hvalue, hj ▸ hlt⟩
    · cases h

theorem numberValue_of_whole {x : Binary64} {i : Int} (h : wholeInt? x = some i) :
    numberValue x = .ofInt i := by
  simp only [numberValue, h]

/-- A literal compares as the number it stands for. -/
theorem compareLiteral_ofNumber (stored : Json.Number) (x : Binary64) :
    compareLiteral (.number stored) (.ofNumber x) = stored.toBinary64.compare? x := by
  unfold Literal.ofNumber
  cases hx : wholeInt? x with
  | none => rfl
  | some i =>
    obtain ⟨f, rfl, hunits, hvalue, hlt⟩ := value_of_wholeInt? hx
    have held : HeldInteger i := by
      unfold HeldInteger
      rw [← hunits]
      exact f.held
    have hword : (Int64.ofInt i).toInt = i := Int64.toInt_ofInt_of_le (by omega) (by omega)
    have hsame : (Finite64.mk (i < 0) (i.natAbs * one) held).value = f.value := by
      rw [hvalue]
      exact Binary64.signed_natAbs_mul i one
    dsimp only [compareLiteral]
    rw [hword, Binary64.ofInt_of_held held]
    cases stored.toBinary64 with
    | finite y => simp only [Binary64.compare?, Finite64.compare, hsame]
    | infinity negative => rfl
    | nan => rfl

end Indicators.Pipeline
