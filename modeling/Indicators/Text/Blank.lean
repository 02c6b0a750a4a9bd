set_option autoImplicit false

/-! The characters with the Unicode property White_Space. A zero-width space and a byte order mark
are not among them. -/

namespace Indicators.Text

def isBlank (c : Char) : Bool :=
  let n := c.toNat
  (0x9 ≤ n && n ≤ 0xD) || n == 0x20 || n == 0x85 || n == 0xA0 || n == 0x1680 ||
    (0x2000 ≤ n && n ≤ 0x200A) || n == 0x2028 || n == 0x2029 || n == 0x202F || n == 0x205F ||
    n == 0x3000

def dropBlanks (text : List Char) : List Char := text.dropWhile isBlank

def trimList (text : List Char) : List Char := (dropBlanks (dropBlanks text).reverse).reverse

def trim (text : String) : String := String.ofList (trimList text.toList)

def trimmed? (text : String) : Option String :=
  if trim text = "" then none else some (trim text)

theorem dropBlanks_eq_nil_iff (text : List Char) :
    dropBlanks text = [] ↔ ∀ c ∈ text, isBlank c = true := by
  unfold dropBlanks
  induction text with
  | nil => simp
  | cons c text ih => by_cases h : isBlank c = true <;> simp [h, ih]

theorem dropBlanks_mem {c : Char} {text : List Char} (h : c ∈ text) :
    isBlank c = true ∨ c ∈ dropBlanks text := by
  unfold dropBlanks
  induction text with
  | nil => simp at h
  | cons d text ih =>
    by_cases hd : isBlank d = true
    · simp only [List.dropWhile_cons, hd, if_true]
      rcases List.mem_cons.1 h with rfl | h
      · exact .inl hd
      · exact ih h
    · exact .inr (by simpa [List.dropWhile_cons, hd] using h)

theorem trimList_eq_nil_iff (text : List Char) :
    trimList text = [] ↔ ∀ c ∈ text, isBlank c = true := by
  unfold trimList
  rw [List.reverse_eq_nil_iff, dropBlanks_eq_nil_iff]
  constructor
  · intro h c hc
    rcases dropBlanks_mem hc with hb | hm
    · exact hb
    · exact h c (List.mem_reverse.2 hm)
  · intro h c hc
    exact h c ((List.dropWhile_sublist isBlank).subset (List.mem_reverse.1 hc))

end Indicators.Text
