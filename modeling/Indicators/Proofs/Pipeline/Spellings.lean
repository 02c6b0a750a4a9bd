import Indicators.Proofs.Json.Text
import Indicators.Proofs.Number.Alike
import Indicators.Proofs.Pipeline.Reductions
import Mathlib.Data.List.Forall2

set_option autoImplicit false

/-! A document may hold a number or the text of that number, with white space around it. Converted
to numbers, both have one value. -/

namespace Indicators.Pipeline

open Indicators Indicators.Number

def Spells (s : String) (n : Json.Number) : Prop :=
  ∃ before after : String, before.toList.all Text.isBlank = true ∧
    after.toList.all Text.isBlank = true ∧ s = before ++ Json.text (.number n) ++ after

theorem isBlank_numberChar {c : Char} (h : Json.isNumberChar c = true) :
    Text.isBlank c = false := by
  unfold Json.isNumberChar at h
  rw [Bool.or_eq_true, List.contains_iff_mem] at h
  rcases h with h | h
  · exact Text.isBlank_digit h
  · simp only [List.mem_cons, List.not_mem_nil, or_false] at h
    rcases h with rfl | rfl | rfl | rfl <;> decide

theorem write_ne_nil (n : Json.Number) : n.write ≠ [] := by
  obtain ⟨c, rest, hwrite, -⟩ := n.write_head
  rw [hwrite]
  exact List.cons_ne_nil _ _

theorem tight_write (n : Json.Number) : Text.Tight n.write :=
  ⟨fun c hc => isBlank_numberChar (n.numberChars_write c (List.mem_of_mem_head? hc)),
    fun c hc => isBlank_numberChar (n.numberChars_write c (List.mem_of_mem_getLast? hc))⟩

theorem text_number (n : Json.Number) : Json.text (.number n) = String.ofList n.write := rfl

theorem read?_text (n : Json.Number) :
    Binary64.read? (Json.text (.number n)) = some n.toBinary64 := by
  rw [text_number]
  cases n with
  | int i word => exact read?_writeInt i
  | float x =>
    rw [Json.Number.write, String.ofList_toList]
    exact read?_write Json.floats x

theorem Spells.trim {s : String} {n : Json.Number} (h : Spells s n) :
    Text.trim s = Json.text (.number n) := by
  obtain ⟨before, after, hb, ha, rfl⟩ := h
  have hs : before ++ Json.text (.number n) ++ after =
      String.ofList (before.toList ++ n.write ++ after.toList) := by
    rw [text_number, String.ofList_append, String.ofList_append, String.ofList_toList,
      String.ofList_toList]
  rw [hs, Text.trim_surrounded (List.all_eq_true.1 hb) (List.all_eq_true.1 ha) (tight_write n)
    (write_ne_nil n), text_number]

theorem Spells.readFinite? {s : String} {n : Json.Number} (h : Spells s n) :
    readFinite? (Text.trim s) = some n.toBinary64 := by
  obtain ⟨x, hx⟩ := toBinary64_finite n
  unfold Pipeline.readFinite?
  rw [h.trim, read?_text, hx]
  rfl

theorem unitsOf_eq {n : Json.Number} {x : Finite64} (h : n.toBinary64 = .finite x) :
    unitsOf n = x.value := by
  unfold unitsOf
  rw [h]
  rfl

theorem alike_iff {a b : Json.Number} :
    Alike a.toBinary64 b.toBinary64 ↔ unitsOf a = unitsOf b := by
  obtain ⟨x, hx⟩ := toBinary64_finite a
  obtain ⟨y, hy⟩ := toBinary64_finite b
  rw [unitsOf_eq hx, unitsOf_eq hy, hx, hy]
  constructor
  · rintro (_ | h)
    · rfl
    · exact h
  · exact .finite

namespace SameNumber

theorem symm {v w : Json} (h : SameNumber v w) : SameNumber w v := by
  cases h with
  | refl => exact .refl _
  | units h => exact .units h.symm

theorem trans {u v w : Json} (h : SameNumber u v) (h' : SameNumber v w) : SameNumber u w := by
  cases h with
  | refl => exact h'
  | units h =>
    cases h' with
    | refl => exact .units h
    | units h' => exact .units (h.trans h')

end SameNumber

theorem sameNumber_numberValue (x : Binary64) :
    SameNumber (numberValue x) (.ofBinary64 x) := by
  unfold numberValue
  cases hx : wholeInt? x with
  | none => exact .refl _
  | some i =>
    obtain ⟨f, rfl, hunits, hvalue, hlt⟩ := value_of_wholeInt? hx
    have held : HeldInteger i := by
      unfold HeldInteger
      rw [← hunits]
      exact f.held
    have hint : unitsOf (.int i (word_of_natAbs_lt hlt)) = i * one := by
      rw [unitsOf, Json.Number.toBinary64, Binary64.ofInt_of_held held]
      exact Binary64.signed_natAbs_mul i one
    have hfloat : unitsOf (.float f) = i * one := (unitsOf_eq rfl).trans hvalue
    dsimp only
    rw [ofInt_of_word (word_of_natAbs_lt hlt)]
    exact .units (hint.trans hfloat.symm)

theorem sameNumber_ofBinary64 {x y : Binary64} (h : Alike x y) :
    SameNumber (.ofBinary64 x) (.ofBinary64 y) := by
  cases h with
  | refl => exact .refl _
  | finite h => exact .units h

theorem Spells.sameNumber {s : String} {n : Json.Number} (h : Spells s n) :
    SameNumber (.number n) (asNumber (.string s)) := by
  obtain ⟨x, hx⟩ := toBinary64_finite n
  have hfloat : SameNumber (.number n) (.ofBinary64 n.toBinary64) := by
    rw [hx]
    exact .units (unitsOf_eq hx)
  have hnumber : asNumber (.string s) = numberValue n.toBinary64 := by
    rw [asNumber, h.readFinite?]
  rw [hnumber]
  exact hfloat.trans (sameNumber_numberValue _).symm

/-- The same value, or a number here and its text there. -/
inductive SpelledLeaf : Json → Json → Prop where
  | same (v : Json) : SpelledLeaf v v
  | text {n : Json.Number} {s : String} (h : Spells s n) : SpelledLeaf (.number n) (.string s)
  | number {n : Json.Number} {s : String} (h : Spells s n) : SpelledLeaf (.string s) (.number n)

inductive SpelledEnd : Json → Json → Prop where
  | leaf {v w : Json} (h : SpelledLeaf v w) : SpelledEnd v w
  | array {items others : List Json} (h : List.Forall₂ SpelledEnd items others) :
    SpelledEnd (.array items) (.array others)

/-- The same, but for the values under a name, which are related by `next`; in arrays, under that
name in every item. -/
inductive SpelledMember (name : String) (next : Json → Json → Prop) : Json → Json → Prop where
  | same (v : Json) : SpelledMember name next v v
  | object {members others : List (String × Json)}
      (h : List.Forall₂ (fun m o => m.1 = o.1 ∧ (m.2 = o.2 ∨ (m.1 = name ∧ next m.2 o.2)))
        members others) :
      SpelledMember name next (.object members) (.object others)
  | array {items others : List Json} (h : List.Forall₂ (SpelledMember name next) items others) :
    SpelledMember name next (.array items) (.array others)

/-- Documents that are equal but for the spelling of numbers at the end of a path. -/
def SpelledAt : List String → Json → Json → Prop
  | [] => SpelledEnd
  | name :: rest => SpelledMember name (SpelledAt rest)

def SameAsNumber (v w : Json) : Prop := SameNumber (asNumber v) (asNumber w)

theorem SpelledEnd.sameAsNumber {v w : Json} (h : SpelledEnd v w) : SameAsNumber v w := by
  cases h with
  | leaf h =>
    cases h with
    | same => exact .refl _
    | text h => exact h.sameNumber
    | number h => exact h.sameNumber.symm
  | array h => exact .refl _

theorem forall₂_sameAsNumber (items : List Json) : List.Forall₂ SameAsNumber items items :=
  List.forall₂_same.2 fun _ _ => .refl _

section

variable {name : String} {next : Json → Json → Prop}

theorem lookup_spelled {members others : List (String × Json)}
    (h : List.Forall₂ (fun m o => m.1 = o.1 ∧ (m.2 = o.2 ∨ (m.1 = name ∧ next m.2 o.2)))
      members others) :
    Directory.lookup name members = Directory.lookup name others ∨
      ∃ a b, Directory.lookup name members = some a ∧ Directory.lookup name others = some b ∧
        next a b := by
  induction h with
  | nil => exact .inl rfl
  | @cons m o members others hmo _ ih =>
    obtain ⟨key, a⟩ := m
    obtain ⟨key', b⟩ := o
    obtain ⟨rfl, hab⟩ := hmo
    simp only [Directory.lookup]
    split
    · rcases hab with rfl | ⟨-, hab⟩
      · exact .inl rfl
      · exact .inr ⟨a, b, rfl, rfl, hab⟩
    · exact ih

/-- What is read at a path, as a number, does not depend on the spelling there. -/
theorem sameAsNumber_reach {names : List String} {doc other : Json}
    (h : SpelledAt names doc other) :
    SameAsNumber ((reach names doc).getD .null) ((reach names other).getD .null) := by
  induction names generalizing doc other with
  | nil => exact SpelledEnd.sameAsNumber h
  | cons name rest ih =>
    cases h with
    | same => exact .refl _
    | array h => exact .refl _
    | object h =>
      rw [reach, reachMember, reachMember]
      rcases lookup_spelled h with he | ⟨a, b, ha, hb, hab⟩
      · rw [he]
        exact .refl _
      · rw [ha, hb]
        exact ih hab

mutual

theorem listMember_spelled {list : Json → List Json}
    (hn : ∀ a b, next a b → List.Forall₂ SameAsNumber (list a) (list b)) :
    (doc other : Json) → SpelledMember name next doc other →
      List.Forall₂ SameAsNumber (listMember name list doc) (listMember name list other)
  | .object members, other, h => by
    cases h with
    | same => exact forall₂_sameAsNumber _
    | object h =>
      rw [listMember, listMember]
      rcases lookup_spelled h with he | ⟨a, b, ha, hb, hab⟩
      · rw [he]
        exact forall₂_sameAsNumber _
      · rw [ha, hb]
        exact hn a b hab
  | .array items, other, h => by
    cases h with
    | same => exact forall₂_sameAsNumber _
    | array h =>
      rw [listMember, listMember]
      exact listItems_spelled hn items _ h
  | .null, other, h | .bool _, other, h | .number _, other, h | .string _, other, h => by
    cases h
    exact forall₂_sameAsNumber _

theorem listItems_spelled {list : Json → List Json}
    (hn : ∀ a b, next a b → List.Forall₂ SameAsNumber (list a) (list b)) :
    (items others : List Json) → List.Forall₂ (SpelledMember name next) items others →
      List.Forall₂ SameAsNumber (listItems name list items) (listItems name list others)
  | [], others, h => by
    cases h
    exact .nil
  | item :: items, others, h => by
    cases h with
    | cons hitem hrest =>
      rw [listItems, listItems]
      exact List.rel_append (listMember_spelled hn item _ hitem)
        (listItems_spelled hn items _ hrest)

end

end

theorem listReached_spelled {names : List String} {doc other : Json}
    (h : SpelledAt names doc other) :
    List.Forall₂ SameAsNumber (listReached names doc) (listReached names other) := by
  induction names generalizing doc other with
  | nil =>
    cases h with
    | array h =>
      exact List.rel_append (h.imp fun _ _ => SpelledEnd.sameAsNumber) (.cons (.refl _) .nil)
    | leaf h =>
      cases h with
      | same => exact forall₂_sameAsNumber _
      | text h => exact .cons h.sameNumber .nil
      | number h => exact .cons h.sameNumber.symm .nil
  | cons name rest ih =>
    have hnext (a b : Json) (hab : SpelledAt rest a b) := ih hab
    exact listMember_spelled hnext doc other h

theorem related_sameNumber {v w : Json} (h : SameNumber v w) (op : Comparison) (x : Binary64) :
    related op v (.ofNumber x) = related op w (.ofNumber x) := by
  cases h with
  | refl => rfl
  | units h =>
    unfold related
    rw [compareLiteral_ofNumber, compareLiteral_ofNumber, (alike_iff.2 h).compare?]

theorem any_congr_forall₂ {α β : Type} {r : α → β → Prop} {p : α → Bool} {q : β → Bool}
    (hr : ∀ a b, r a b → p a = q b) {xs : List α} {ys : List β} (h : List.Forall₂ r xs ys) :
    xs.any p = ys.any q := by
  induction h with
  | nil => rfl
  | cons hab _ ih => rw [List.any_cons, List.any_cons, hr _ _ hab, ih]

theorem holds_compareAsNumber_spelled {path : String} {doc other : Json}
    (h : SpelledAt (segments path) doc other) (op : Comparison) (x : Binary64) :
    (Predicate.compareAsNumber path op (.ofNumber x)).holds doc =
      (Predicate.compareAsNumber path op (.ofNumber x)).holds other := by
  rw [Predicate.holds, Predicate.holds]
  have hrelated (v w : Json) (hvw : SameAsNumber v w) := related_sameNumber hvw op x
  exact any_congr_forall₂ hrelated (listReached_spelled h)

section

variable {values others : List Json} (h : List.Forall₂ SameNumber values others)

include h

theorem numbersOf_sameNumber :
    List.Forall₂ (fun a b => unitsOf a = unitsOf b) (numbersOf values) (numbersOf others) := by
  induction h with
  | nil => exact .nil
  | @cons v w values others hvw _ ih =>
    unfold numbersOf at ih ⊢
    cases hvw with
    | units hu => exact .cons hu ih
    | refl =>
      cases v with
      | number n => exact .cons rfl ih
      | _ => exact ih

theorem sameNumber_sumOf : SameNumber (sumOf values) (sumOf others) := by
  have hfloat (values : List Json) : SameNumber (sumOf values) (.ofBinary64
      ((numbersOf values).foldl (fun total n => total + n.toBinary64) (.zero false))) := by
    unfold sumOf
    dsimp only
    split
    · exact sameNumber_numberValue _
    · exact .refl _
  have htotal := alike_foldl ((numbersOf_sameNumber h).imp fun _ _ => alike_iff.2)
    (.refl (.zero false))
  exact (hfloat values).trans ((sameNumber_ofBinary64 htotal).trans (hfloat others).symm)

theorem sameNumber_meanOf : SameNumber (meanOf values) (meanOf others) := by
  have hnumbers := numbersOf_sameNumber h
  unfold meanOf
  cases hv : numbersOf values with
  | nil =>
    rw [hv] at hnumbers
    rw [List.forall₂_nil_left_iff.1 hnumbers]
    exact .refl _
  | cons n rest =>
    rw [hv] at hnumbers
    obtain ⟨m, others', hnm, hrest, ho⟩ := List.forall₂_cons_left_iff.1 hnumbers
    rw [ho] at hnumbers ⊢
    dsimp only
    rw [hnumbers.length_eq]
    have htotal := alike_foldl (hnumbers.imp fun _ _ => alike_iff.2) (.refl (.zero true))
    exact sameNumber_ofBinary64 (htotal.div _)

theorem sameNumber_reduceWith {choose : Json → Json → Json} {below : Int → Int → Prop}
    (hc : Chooses choose below) (refl : ∀ x, below x x)
    (trans : ∀ {x y z}, below x y → below y z → below x z)
    (antisymm : ∀ {x y}, below x y → below y x → x = y)
    (hv : ∀ v ∈ values, Numeric v) (ho : ∀ v ∈ others, Numeric v) :
    SameNumber (reduceWith choose (presentOf values)) (reduceWith choose (presentOf others)) := by
  have hunits : (numbersOf values).map unitsOf = (numbersOf others).map unitsOf := by
    rw [← List.forall₂_eq_eq_eq, List.forall₂_map_left_iff, List.forall₂_map_right_iff]
    exact numbersOf_sameNumber h
  rw [presentOf_numeric hv, presentOf_numeric ho]
  exact reduceWith_sameUnits hc refl trans antisymm fun _ => by rw [hunits]

/-- A reduction of numbers does not see which of two spellings an operand had. -/
theorem sameNumber_reduce (hv : ∀ v ∈ values, Numeric v) (ho : ∀ v ∈ others, Numeric v)
    {func : Accumulator} (hf : func ≠ .addToSet) :
    SameNumber (func.reduce values) (func.reduce others) := by
  cases func with
  | sum => exact sameNumber_sumOf h
  | avg => exact sameNumber_meanOf h
  | max => exact sameNumber_reduceWith h laterMax_chooses le_refl le_trans le_antisymm hv ho
  | min =>
    exact sameNumber_reduceWith h earlierMin_chooses le_refl (fun h h' => le_trans h' h)
      (fun h h' => le_antisymm h' h) hv ho
  | addToSet => exact absurd rfl hf

end

theorem sameNumber_eval {path : String} {docs others : List Json}
    (h : List.Forall₂ (SpelledAt (segments path)) docs others) {func : Accumulator}
    (hf : func ≠ .addToSet) (name : String) :
    SameNumber ((Aggregate.mk func (.toNumber (.field path)) name).eval docs)
      ((Aggregate.mk func (.toNumber (.field path)) name).eval others) := by
  have hnumeric (docs : List Json) :
      ∀ v ∈ docs.map ((Expr.toNumber (.field path)).eval ·), Numeric v := by
    intro v hv
    obtain ⟨doc, -, rfl⟩ := List.mem_map.1 hv
    exact numeric_asNumber _
  refine sameNumber_reduce ?_ (hnumeric docs) (hnumeric others) hf
  rw [List.forall₂_map_left_iff, List.forall₂_map_right_iff]
  exact h.imp fun _ _ => sameAsNumber_reach

end Indicators.Pipeline
