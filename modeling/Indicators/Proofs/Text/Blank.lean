import Indicators.Text.Blank

set_option autoImplicit false

namespace Indicators.Text

structure Tight (text : List Char) : Prop where
  first : ∀ c ∈ text.head?, isBlank c = false
  last : ∀ c ∈ text.getLast?, isBlank c = false

theorem dropBlanks_of_head {text : List Char} (h : ∀ c ∈ text.head?, isBlank c = false) :
    dropBlanks text = text := by
  cases text with
  | nil => rfl
  | cons c rest =>
    unfold dropBlanks
    rw [List.dropWhile_cons, h c rfl]
    rfl

theorem Tight.trimList_eq {text : List Char} (h : Tight text) : trimList text = text := by
  have hback : dropBlanks text.reverse = text.reverse := by
    refine dropBlanks_of_head ?_
    rw [List.head?_reverse]
    exact h.last
  unfold trimList
  rw [dropBlanks_of_head h.first, hback, List.reverse_reverse]

theorem trim_ofList {text : List Char} (h : Tight text) :
    trim (String.ofList text) = String.ofList text := by
  unfold trim
  rw [String.toList_ofList, h.trimList_eq]

/-- Blanks around a text that has none at its ends are cut off. -/
theorem trim_surrounded {before body after : List Char} (hb : ∀ c ∈ before, isBlank c = true)
    (ha : ∀ c ∈ after, isBlank c = true) (h : Tight body) (hne : body ≠ []) :
    trim (String.ofList (before ++ body ++ after)) = String.ofList body := by
  have hfront : dropBlanks (before ++ body ++ after) = body ++ after := by
    rw [List.append_assoc]
    refine (List.dropWhile_append_of_pos hb).trans (dropBlanks_of_head fun c hc => ?_)
    rw [List.head?_append, List.head?_eq_some_head hne, Option.some_or] at hc
    exact h.first c (List.head?_eq_some_head hne ▸ hc)
  have hback : dropBlanks (body ++ after).reverse = body.reverse := by
    rw [List.reverse_append]
    refine (List.dropWhile_append_of_pos fun c hc => ha c (List.mem_reverse.1 hc)).trans
      (dropBlanks_of_head fun c hc => ?_)
    rw [List.head?_reverse] at hc
    exact h.last c hc
  unfold trim trimList
  rw [String.toList_ofList, hfront, hback, List.reverse_reverse]

def EndsVisible (text : List Char) : Prop := ∃ c ∈ text.getLast?, isBlank c = false

theorem EndsVisible.append (before : List Char) {text : List Char} (h : EndsVisible text) :
    EndsVisible (before ++ text) := by
  obtain ⟨c, hlast, hc⟩ := h
  refine ⟨c, ?_, hc⟩
  rw [List.getLast?_append, hlast]
  rfl

theorem EndsVisible.cons (c : Char) {text : List Char} (h : EndsVisible text) :
    EndsVisible (c :: text) := h.append [c]

theorem Tight.of_ends {c : Char} {rest : List Char} (hc : isBlank c = false)
    (h : EndsVisible (c :: rest)) : Tight (c :: rest) := by
  constructor
  · rintro d ⟨⟩
    exact hc
  · obtain ⟨last, hlast, hvisible⟩ := h
    intro d hd
    rw [hlast] at hd
    obtain rfl := Option.some.inj hd
    exact hvisible

theorem isBlank_digit {c : Char} (h : c.isDigit = true) : isBlank c = false := by
  have hrange : 48 ≤ c.toNat ∧ c.toNat ≤ 57 := by
    simp only [Char.isDigit, Bool.and_eq_true, decide_eq_true_eq, UInt32.le_iff_toNat_le] at h
    exact h
  unfold isBlank
  simp only [Bool.or_eq_false_iff, Bool.and_eq_false_iff, decide_eq_false_iff_not,
    beq_eq_false_iff_ne]
  omega

theorem endsVisible_digits {digits : List Char} (h : ∀ c ∈ digits, c.isDigit = true)
    (hne : digits ≠ []) : EndsVisible digits := by
  exact ⟨digits.getLast hne, List.getLast?_eq_some_getLast hne,
    isBlank_digit (h _ (List.getLast_mem hne))⟩

end Indicators.Text
