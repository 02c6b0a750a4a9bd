import Indicators.Json.Reader
import Indicators.Proofs.Number.Reading

set_option autoImplicit false

/-! A text shows by its first character what kind of value it is, and a written string and a written
number read back, so two values with one text are the same. -/

namespace Indicators.Json

open Indicators.Number

theorem hexUnit_control (n : Nat) (h : n < 32) :
    hexUnit '0' '0' (hexDigit (n / 16)) (hexDigit n) = some n := by
  decide +revert

theorem readString_unit {a b c d : Char} {n : Nat} (h : hexUnit a b c d = some n)
    (hlow : isLowHalf n = false) (hhigh : isHighHalf n = false) (rest : List Char) :
    readString 0 ('\\' :: 'u' :: a :: b :: c :: d :: rest) =
      (readString 0 rest).cons (Char.ofNat n) := by
  simp [readString, h, hlow, hhigh]

theorem readString_escape (c : Char) (rest : List Char) :
    readString 0 (escape c ++ rest) = (readString 0 rest).cons c := by
  unfold escape
  split
  · next h =>
    subst h
    rfl
  split
  · next h =>
    subst h
    rfl
  split
  · next h =>
    subst h
    rfl
  split
  · next h =>
    subst h
    rfl
  split
  · next h =>
    subst h
    rfl
  split
  · next h =>
    obtain rfl : c = Char.ofNat 8 := by rw [← h, Char.ofNat_toNat]
    rfl
  split
  · next h =>
    obtain rfl : c = Char.ofNat 12 := by rw [← h, Char.ofNat_toNat]
    rfl
  split
  · next h =>
    have hlow : isLowHalf c.toNat = false := by simp [isLowHalf]; omega
    have hhigh : isHighHalf c.toNat = false := by simp [isHighHalf]; omega
    have hread := readString_unit (hexUnit_control c.toNat h) hlow hhigh rest
    rwa [Char.ofNat_toNat] at hread
  · next hslash _ _ _ _ _ hlow => simp [readString, hslash, hlow]

theorem readString_written (chars rest : List Char) :
    readString 0 (chars.flatMap escape ++ '"' :: rest) = some (some chars, rest) := by
  induction chars with
  | nil => rfl
  | cons c chars ih =>
    rw [List.flatMap_cons, List.append_assoc, readString_escape, ih]
    rfl

theorem writeString_unique {s t : String} {r r' : List Char}
    (h : writeString s ++ r = writeString t ++ r') : s = t ∧ r = r' := by
  have hread (s : String) (r : List Char) :
      readString 0 ((writeString s ++ r).drop 1) = some (some s.toList, r) := by
    simpa [writeString] using readString_written s.toList r
  have heq := hread s r
  rw [h, hread t r'] at heq
  simp only [Option.some.injEq, Prod.mk.injEq, String.toList_inj] at heq
  exact ⟨heq.1.symm, heq.2.symm⟩

def isNumberChar (c : Char) : Bool := c.isDigit || ['-', '+', '.', 'e'].contains c

def NumberChars (text : List Char) : Prop := ∀ c ∈ text, isNumberChar c = true

/-- The text does not go on with a character of a number. -/
def Ends (text : List Char) : Prop := ∀ c ∈ text.head?, isNumberChar c = false

theorem numberChars_digits {digits : List Char} (h : AllDigits digits) : NumberChars digits :=
  fun c hc => by simp [isNumberChar, h c hc]

theorem NumberChars.append {first second : List Char} (h : NumberChars first)
    (h' : NumberChars second) : NumberChars (first ++ second) :=
  fun c hc => (List.mem_append.1 hc).elim (h c) (h' c)

theorem NumberChars.cons {c : Char} {rest : List Char} (hc : isNumberChar c = true)
    (h : NumberChars rest) : NumberChars (c :: rest) := by
  intro d hd
  rcases List.mem_cons.1 hd with rfl | hd
  · exact hc
  · exact h d hd

section

variable {digits : List Char}

theorem numberChars_positional (h : NumberChars digits) (style : Style) (point : Int) :
    NumberChars (style.positional digits point) := by
  have hzeros (n : Nat) := numberChars_digits (allDigits_zeros n)
  have htake (n : Nat) : NumberChars (digits.take n) := fun c hc => h c (List.mem_of_mem_take hc)
  have hdrop (n : Nat) : NumberChars (digits.drop n) := fun c hc => h c (List.mem_of_mem_drop hc)
  unfold Style.positional
  split
  · exact .cons (by decide) (.cons (by decide) ((hzeros _).append h))
  · split
    · refine (h.append (hzeros _)).append ?_
      split
      · exact .cons (by decide) (hzeros 1)
      · exact nofun
    · exact (htake _).append (.cons (by decide) (hdrop _))

theorem numberChars_scientific (h : NumberChars digits) (exponent : Int) :
    NumberChars (Style.scientific digits exponent) := by
  have hpower := numberChars_digits (allDigits_toDigits exponent.natAbs)
  have htail : NumberChars
      ('e' :: (if exponent < 0 then '-' else '+') :: Nat.toDigits 10 exponent.natAbs) :=
    .cons (by decide) (.cons (by split <;> decide) hpower)
  match digits, h with
  | [], h => exact h.append htail
  | [first], h => exact h.append htail
  | first :: second :: rest, h =>
    have hrest : NumberChars (second :: rest) := fun c hc => h c (List.mem_cons_of_mem _ hc)
    exact (NumberChars.cons (h first List.mem_cons_self) (.cons (by decide) hrest)).append htail

theorem numberChars_magnitude (style : Style) (units : Nat) :
    NumberChars (style.magnitude units) := by
  have hdigits (d : Decimal) := numberChars_digits (allDigits_toDigits d.digits)
  unfold Style.magnitude
  split
  · split <;> exact List.all_eq_true.1 rfl
  · dsimp only
    split
    · exact numberChars_positional (hdigits _) style _
    · exact numberChars_scientific (hdigits _) _

theorem magnitude_marked {style : Style} (h : style.wholeFraction = true) (units : Nat) :
    '.' ∈ style.magnitude units ∨ 'e' ∈ style.magnitude units := by
  unfold Style.magnitude
  by_cases hzero : units = 0
  · simp [hzero, h]
  · rw [if_neg hzero]
    dsimp only
    split
    · left
      unfold Style.positional
      split
      · simp
      · split <;> simp
    · right
      simp [Style.scientific]

end

theorem allDigits_writeInt (i : Int) : ∀ c ∈ writeInt i, c = '-' ∨ c.isDigit = true := by
  have hdigits := allDigits_toDigits i.natAbs
  unfold writeInt
  split
  · intro c hc
    exact (List.mem_cons.1 hc).imp id (hdigits c)
  · exact fun c hc => .inr (hdigits c hc)

theorem writeInt_injective {i j : Int} (h : writeInt i = writeInt j) : i = j := by
  have hhead (n : Nat) : (Nat.toDigits 10 n).head? ≠ some '-' := by
    intro hn
    have hdigit := allDigits_toDigits n '-' (List.mem_of_mem_head? hn)
    cases hdigit
  have habs {m n : Nat} (hm : Nat.toDigits 10 m = Nat.toDigits 10 n) : m = n := by
    rw [← @Nat.ofDigitChars_ten_toDigits m, hm, Nat.ofDigitChars_ten_toDigits]
  unfold writeInt at h
  split at h <;> split at h
  · have hsame := habs (List.cons.inj h).2
    omega
  · exact absurd (by rw [← h]; rfl) (hhead j.natAbs)
  · exact absurd (by rw [h]; rfl) (hhead i.natAbs)
  · have hsame := habs h
    omega

namespace Number

theorem numberChars_write (n : Number) : NumberChars n.write := by
  cases n with
  | int i word =>
    intro c hc
    rcases allDigits_writeInt i c hc with rfl | hdigit
    · decide
    · simp [isNumberChar, hdigit]
  | float x =>
    have hmagnitude := numberChars_magnitude floats x.units
    change NumberChars (floats.write x).toList
    unfold Style.write
    rw [String.toList_ofList]
    split
    · exact .cons (by decide) hmagnitude
    · exact hmagnitude

theorem float_marked (x : Finite64) :
    '.' ∈ (Number.float x).write ∨ 'e' ∈ (Number.float x).write := by
  have hmarked := @magnitude_marked floats rfl x.units
  change '.' ∈ (floats.write x).toList ∨ 'e' ∈ (floats.write x).toList
  unfold Style.write
  rw [String.toList_ofList]
  split
  · exact hmarked.imp (List.mem_cons_of_mem _) (List.mem_cons_of_mem _)
  · exact hmarked

theorem int_ne_float {i : Int} {word : Word i} {x : Finite64} :
    (Number.int i word).write ≠ (Number.float x).write := by
  intro h
  have hplain := allDigits_writeInt i
  change ∀ c ∈ (Number.int i word).write, _ at hplain
  rw [h] at hplain
  rcases float_marked x with hc | hc
  · exact absurd (hplain '.' hc) (by decide)
  · exact absurd (hplain 'e' hc) (by decide)

theorem write_inj {n m : Number} (h : n.write = m.write) : n = m := by
  cases n with
  | int i word =>
    cases m with
    | int j word' =>
      obtain rfl := writeInt_injective h
      rfl
    | float y => exact absurd h int_ne_float
  | float x =>
    cases m with
    | int j word' => exact absurd h.symm int_ne_float
    | float y => rw [write_injective floats (String.toList_inj.1 h)]

theorem write_unique {n m : Number} {r s : List Char} (hr : Ends r) (hs : Ends s)
    (h : n.write ++ r = m.write ++ s) : n = m ∧ r = s := by
  have htake {n : Number} {r : List Char} (hr : Ends r) :
      (n.write ++ r).takeWhile isNumberChar = n.write := by
    rw [List.takeWhile_append_of_pos n.numberChars_write]
    cases r with
    | nil => simp
    | cons c r => simp [hr c rfl]
  have hsame : n.write = m.write := by rw [← htake hr, h, htake hs]
  rw [hsame] at h
  exact ⟨write_inj hsame, List.append_cancel_left h⟩

end Number

/-- Which kind of value begins with a character, 6 for none. -/
def rankOf (c : Char) : Nat :=
  if c = 'n' then 0
  else if c = 't' ∨ c = 'f' then 1
  else if c = '-' ∨ c.isDigit then 2
  else if c = '"' then 3
  else if c = '[' then 4
  else if c = '{' then 5
  else 6

theorem rankOf_number {c : Char} (h : c = '-' ∨ c.isDigit = true) : rankOf c = 2 := by
  have hne (d : Char) (hd : ¬ (d = '-' ∨ d.isDigit = true)) : c ≠ d := fun e => hd (e ▸ h)
  unfold rankOf
  rw [if_neg (hne 'n' (by decide)), if_neg, if_pos h]
  exact fun he => he.elim (hne 't' (by decide)) (hne 'f' (by decide))

def rank : Json → Nat
  | .null => 0
  | .bool _ => 1
  | .number _ => 2
  | .string _ => 3
  | .array _ => 4
  | .object _ => 5

theorem Number.write_head (n : Number) :
    ∃ c rest, n.write = c :: rest ∧ (c = '-' ∨ c.isDigit = true) := by
  have hdigit {text : List Char} (h : ∃ c rest, text = c :: rest ∧ c.isDigit = true) :
      ∃ c rest, text = c :: rest ∧ (c = '-' ∨ c.isDigit = true) := by
    obtain ⟨c, rest, he, hc⟩ := h
    exact ⟨c, rest, he, .inr hc⟩
  cases n with
  | int i word =>
    change ∃ c rest, writeInt i = c :: rest ∧ _
    unfold writeInt
    split
    · exact ⟨_, _, rfl, .inl rfl⟩
    · have hdigits := allDigits_toDigits i.natAbs
      have hne := @Nat.toDigits_ne_nil i.natAbs 10
      generalize Nat.toDigits 10 i.natAbs = digits at *
      cases digits with
      | nil => exact absurd rfl hne
      | cons c rest => exact ⟨c, rest, rfl, .inr (hdigits c List.mem_cons_self)⟩
  | float x =>
    change ∃ c rest, (floats.write x).toList = c :: rest ∧ _
    unfold Style.write
    rw [String.toList_ofList]
    split
    · exact ⟨_, _, rfl, .inl rfl⟩
    · exact hdigit (magnitude_head floats x.units)

theorem write_head (v : Json) : ∃ c rest, write v = c :: rest ∧ rankOf c = rank v := by
  match v with
  | .null => exact ⟨_, _, rfl, rfl⟩
  | .bool true => exact ⟨_, _, rfl, rfl⟩
  | .bool false => exact ⟨_, _, rfl, rfl⟩
  | .string s => exact ⟨_, _, rfl, rfl⟩
  | .array [] => exact ⟨_, _, rfl, rfl⟩
  | .array (item :: rest) => exact ⟨_, _, rfl, rfl⟩
  | .object [] => exact ⟨_, _, rfl, rfl⟩
  | .object (m :: rest) => exact ⟨_, _, rfl, rfl⟩
  | .number n =>
    obtain ⟨c, rest, he, hc⟩ := n.write_head
    exact ⟨c, rest, he, rankOf_number hc⟩

theorem rank_eq {a b : Json} {r s : List Char} (h : write a ++ r = write b ++ s) :
    rank a = rank b := by
  obtain ⟨c, rest, ha, hc⟩ := write_head a
  obtain ⟨d, rest', hb, hd⟩ := write_head b
  rw [ha, hb] at h
  rw [← hc, ← hd, (List.cons.inj h).1]

theorem write_ne_close {v : Json} {c : Char} {r s : List Char} (hc : rankOf c = 6) :
    write v ++ r ≠ c :: s := by
  obtain ⟨d, rest, hv, hd⟩ := write_head v
  rw [hv]
  intro h
  rw [(List.cons.inj h).1, hc] at hd
  cases v <;> cases hd

theorem ends_nil : Ends [] := nofun

theorem ends_cons {c : Char} (h : isNumberChar c = false) (rest : List Char) :
    Ends (c :: rest) := by
  rintro d ⟨⟩
  exact h

theorem ends_items (items : List Json) (r : List Char) : Ends (writeItems items ++ r) := by
  cases items <;> exact ends_cons (by decide) _

theorem ends_members (members : List (String × Json)) (r : List Char) :
    Ends (writeMembers members ++ r) := by
  cases members <;> exact ends_cons (by decide) _

theorem array_of_rank {v : Json} (h : 4 = rank v) : ∃ items, v = .array items := by
  cases v with
  | array items => exact ⟨items, rfl⟩
  | _ => cases h

theorem object_of_rank {v : Json} (h : 5 = rank v) : ∃ members, v = .object members := by
  cases v with
  | object members => exact ⟨members, rfl⟩
  | _ => cases h

theorem scalar_unique {a b : Json} {r s : List Char} (ha : rank a < 4) (hr : Ends r)
    (hs : Ends s) (h : write a ++ r = write b ++ s) : a = b ∧ r = s := by
  have hrank := rank_eq h
  cases a with
  | null =>
    cases b with
    | null => exact ⟨rfl, List.append_cancel_left h⟩
    | _ => cases hrank
  | bool x =>
    cases b with
    | bool y => cases x <;> cases y <;> simp_all [write]
    | _ => cases hrank
  | number n =>
    cases b with
    | number m =>
      obtain ⟨rfl, hrest⟩ := Number.write_unique hr hs h
      exact ⟨rfl, hrest⟩
    | _ => cases hrank
  | string x =>
    cases b with
    | string y =>
      obtain ⟨rfl, hrest⟩ := writeString_unique h
      exact ⟨rfl, hrest⟩
    | _ => cases hrank
  | array items => simp [rank] at ha
  | object members => simp [rank] at ha

mutual

theorem write_unique (a b : Json) {r s : List Char} (hr : Ends r) (hs : Ends s)
    (h : write a ++ r = write b ++ s) : a = b ∧ r = s := by
  have hrank := rank_eq h
  match a with
  | .null | .bool _ | .number _ | .string _ => exact scalar_unique (by simp [rank]) hr hs h
  | .array [] =>
    obtain ⟨ys, rfl⟩ := array_of_rank hrank
    cases ys with
    | nil => exact ⟨rfl, List.append_cancel_left h⟩
    | cons y ys =>
      simp only [write, List.cons_append, List.append_assoc, List.cons.injEq, true_and] at h
      exact absurd h.symm (write_ne_close (by decide))
  | .array (x :: xs) =>
    obtain ⟨ys, rfl⟩ := array_of_rank hrank
    cases ys with
    | nil =>
      simp only [write, List.cons_append, List.append_assoc, List.cons.injEq, true_and] at h
      exact absurd h (write_ne_close (by decide))
    | cons y ys =>
      simp only [write, List.cons_append, List.append_assoc, List.cons.injEq, true_and] at h
      obtain ⟨rfl, hrest⟩ := write_unique x y (ends_items xs r) (ends_items ys s) h
      obtain ⟨rfl, hrs⟩ := writeItems_unique xs ys hrest
      exact ⟨rfl, hrs⟩
  | .object [] =>
    obtain ⟨ys, rfl⟩ := object_of_rank hrank
    cases ys with
    | nil => exact ⟨rfl, List.append_cancel_left h⟩
    | cons y ys =>
      obtain ⟨name, y⟩ := y
      simp [write, writeString] at h
  | .object ((name, x) :: xs) =>
    obtain ⟨ys, rfl⟩ := object_of_rank hrank
    cases ys with
    | nil => simp [write, writeString] at h
    | cons y ys =>
      obtain ⟨other, y⟩ := y
      simp only [write, List.cons_append, List.append_assoc, List.cons.injEq, true_and] at h
      obtain ⟨rfl, hvalue⟩ := writeString_unique h
      obtain ⟨rfl, hrest⟩ :=
        write_unique x y (ends_members xs r) (ends_members ys s) (List.cons.inj hvalue).2
      obtain ⟨rfl, hrs⟩ := writeMembers_unique xs ys hrest
      exact ⟨rfl, hrs⟩

theorem writeItems_unique (xs ys : List Json) {r s : List Char}
    (h : writeItems xs ++ r = writeItems ys ++ s) : xs = ys ∧ r = s := by
  match xs, ys with
  | [], [] => exact ⟨rfl, List.append_cancel_left h⟩
  | x :: xs, y :: ys =>
    simp only [writeItems, List.cons_append, List.append_assoc, List.cons.injEq, true_and] at h
    obtain ⟨rfl, hrest⟩ := write_unique x y (ends_items xs r) (ends_items ys s) h
    obtain ⟨rfl, hrs⟩ := writeItems_unique xs ys hrest
    exact ⟨rfl, hrs⟩
  | [], y :: ys => simp [writeItems] at h
  | x :: xs, [] => simp [writeItems] at h

theorem writeMembers_unique (xs ys : List (String × Json)) {r s : List Char}
    (h : writeMembers xs ++ r = writeMembers ys ++ s) : xs = ys ∧ r = s := by
  match xs, ys with
  | [], [] => exact ⟨rfl, List.append_cancel_left h⟩
  | (name, x) :: xs, (other, y) :: ys =>
    simp only [writeMembers, List.cons_append, List.append_assoc, List.cons.injEq, true_and] at h
    obtain ⟨rfl, hvalue⟩ := writeString_unique h
    obtain ⟨rfl, hrest⟩ :=
      write_unique x y (ends_members xs r) (ends_members ys s) (List.cons.inj hvalue).2
    obtain ⟨rfl, hrs⟩ := writeMembers_unique xs ys hrest
    exact ⟨rfl, hrs⟩
  | [], y :: ys => simp [writeMembers] at h
  | x :: xs, [] => simp [writeMembers] at h

end

/-- The text of a value determines the value. -/
theorem text_injective {a b : Json} (h : text a = text b) : a = b := by
  have hlists : write a ++ [] = write b ++ [] := by
    simpa [text] using congrArg String.toList h
  exact (write_unique a b ends_nil ends_nil hlists).1

end Indicators.Json
