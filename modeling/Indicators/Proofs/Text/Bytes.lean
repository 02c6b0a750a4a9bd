import Mathlib.Data.List.Basic

set_option autoImplicit false

/-! Texts are ordered by their characters, and their bytes in UTF-8 come in the same order. -/

namespace Indicators.Text

def bytesOf (s : String) : List UInt8 := s.toByteArray.data.toList

theorem bytesOf_eq (s : String) : bytesOf s = s.toList.flatMap String.utf8EncodeChar := by
  rw [bytesOf, ← String.utf8Encode_toList, List.utf8Encode, List.toList_data_toByteArray]

theorem toNat_lt (c : Char) : c.toNat < 0x110000 := by
  rcases c.valid with h | ⟨-, h⟩
  · exact Nat.lt_trans h (by decide)
  · exact h

/-- The bytes of a lesser character come first, whatever follows. -/
theorem encode_append_lt {c d : Char} (h : c < d) (u v : List UInt8) :
    String.utf8EncodeChar c ++ u < String.utf8EncodeChar d ++ v := by
  have hlt : c.val.toNat < d.val.toNat := h
  have hmax : d.val.toNat < 0x110000 := toNat_lt d
  unfold String.utf8EncodeChar
  dsimp only
  generalize c.val.toNat = m at *
  generalize d.val.toNat = n at *
  have hm := Nat.div_div_eq_div_mul m 64 64
  have hn := Nat.div_div_eq_div_mul n 64 64
  have hm' := Nat.div_div_eq_div_mul m 4096 64
  have hn' := Nat.div_div_eq_div_mul n 4096 64
  -- Of encodings of different length the longer one begins with a greater byte; those of one length
  -- differ first at the digit to the base 64 at which the numbers do.
  split_ifs <;> first
    | omega
    | simp only [List.cons_append, List.nil_append, List.cons_lt_cons_iff,
        UInt8.lt_iff_toNat_lt, ← UInt8.toNat_inj, UInt8.toNat_ofNat']
      simp (disch := omega) only [Nat.mod_eq_of_lt]
      omega

theorem flatMap_encode_lt {as bs : List Char} (h : as < bs) :
    as.flatMap String.utf8EncodeChar < bs.flatMap String.utf8EncodeChar := by
  induction as generalizing bs with
  | nil =>
    cases bs with
    | nil => exact absurd h (List.lt_irrefl [])
    | cons b bs =>
      rw [List.flatMap_nil, List.flatMap_cons]
      cases hb : String.utf8EncodeChar b with
      | nil => exact absurd hb String.utf8EncodeChar_ne_nil
      | cons first rest => exact List.nil_lt_cons _ _
  | cons a as ih =>
    cases bs with
    | nil => exact absurd h (List.not_lt_nil _)
    | cons b bs =>
      rw [List.flatMap_cons, List.flatMap_cons]
      rcases List.cons_lt_cons_iff.1 h with hab | ⟨rfl, hrest⟩
      · exact encode_append_lt hab _ _
      · exact List.append_left_lt (ih hrest)

theorem bytesOf_lt {s t : String} (h : s < t) : bytesOf s < bytesOf t := by
  rw [bytesOf_eq, bytesOf_eq]
  exact flatMap_encode_lt (String.lt_iff.1 h)

end Indicators.Text
