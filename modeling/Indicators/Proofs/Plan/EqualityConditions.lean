import Indicators.Proofs.Pipeline.Numbers
import Indicators.Proofs.Plan.Rows

set_option autoImplicit false

/-! A condition with `eq` holds of a document when some walk along the path ends at the value, or at
an array with the value among its items; one with `ne` holds of all other documents. -/

namespace Indicators.Pipeline

open Indicators Indicators.Number

/-- A walk along names, from a document to the value where it ends. -/
inductive Reaches : List String → Json → Json → Prop where
  | here (v : Json) : Reaches [] v v
  | member {name : String} {rest : List String} {members : List (String × Json)} {next v : Json}
      (hl : Directory.lookup name members = some next) (h : Reaches rest next v) :
      Reaches (name :: rest) (.object members) v
  | item {name : String} {rest : List String} {items : List Json} {next v : Json}
      (hi : next ∈ items) (h : Reaches (name :: rest) next v) :
      Reaches (name :: rest) (.array items) v

/-- What the end of a walk offers: itself and, as an array, its items. -/
def Offers (reached v : Json) : Prop := v = reached ∨ ∃ items, reached = .array items ∧ v ∈ items

theorem mem_listEnd {reached v : Json} : v ∈ listEnd reached ↔ Offers reached v := by
  unfold Offers
  cases reached with
  | array items => simp [listEnd, or_comm]
  | _ => simp [listEnd]

section

variable {name : String} {rest : List String} {v : Json}

mutual

theorem exists_walk
    (ih : ∀ next, v ∈ listReached rest next → ∃ w, Reaches rest next w ∧ Offers w v) :
    (doc : Json) → v ∈ listMember name (listReached rest) doc →
      ∃ w, Reaches (name :: rest) doc w ∧ Offers w v
  | .object members, h => by
    rw [listMember] at h
    cases hl : Directory.lookup name members with
    | none =>
      rw [hl] at h
      exact absurd h List.not_mem_nil
    | some next =>
      rw [hl] at h
      obtain ⟨w, hw, hv⟩ := ih next h
      exact ⟨w, .member hl hw, hv⟩
  | .array items, h => by
    rw [listMember] at h
    obtain ⟨next, hi, w, hw, hv⟩ := exists_walk_item ih items h
    exact ⟨w, .item hi hw, hv⟩
  | .null, h | .bool _, h | .number _, h | .string _, h => absurd h List.not_mem_nil

theorem exists_walk_item
    (ih : ∀ next, v ∈ listReached rest next → ∃ w, Reaches rest next w ∧ Offers w v) :
    (items : List Json) → v ∈ listItems name (listReached rest) items →
      ∃ next ∈ items, ∃ w, Reaches (name :: rest) next w ∧ Offers w v
  | [], h => absurd h List.not_mem_nil
  | item :: items, h => by
    rw [listItems] at h
    rcases List.mem_append.1 h with h | h
    · exact ⟨item, List.mem_cons_self, exists_walk ih item h⟩
    · obtain ⟨next, hi, hn⟩ := exists_walk_item ih items h
      exact ⟨next, List.mem_cons_of_mem _ hi, hn⟩

end

end

/-- The candidates of a path are what the ends of its walks offer. -/
theorem mem_listReached {names : List String} {doc v : Json} :
    v ∈ listReached names doc ↔ ∃ w, Reaches names doc w ∧ Offers w v := by
  constructor
  · intro h
    induction names generalizing doc with
    | nil => exact ⟨doc, .here doc, mem_listEnd.1 h⟩
    | cons name rest ih => exact exists_walk (fun _ => ih) doc h
  · rintro ⟨w, hw, hv⟩
    induction hw with
    | here w => exact mem_listEnd.2 hv
    | member hl _ ih =>
      rw [listReached, listMember, hl]
      exact ih hv
    | item hi _ ih =>
      rw [listReached_array (List.cons_ne_nil _ _)]
      exact List.mem_flatMap.2 ⟨_, hi, ih hv⟩

theorem related_eq_string {stored : Json} {text : String} :
    related .eq stored (.string text) = true ↔ stored = .string text := by
  unfold related
  cases stored with
  | string s =>
    rw [compareLiteral, Option.any_some, Comparison.holds, beq_iff_eq, Std.compare_eq_iff_eq,
      Json.string.injEq]
  | _ => simp [compareLiteral]

theorem related_eq_number {stored : Json} {x : Binary64} :
    related .eq stored (.ofNumber x) = true ↔
      ∃ n, stored = .number n ∧ n.toBinary64.sameValue x = true := by
  unfold related
  cases stored with
  | number n =>
    rw [compareLiteral_ofNumber]
    unfold Binary64.sameValue
    cases hc : n.toBinary64.compare? x <;> simp [Comparison.holds, hc]
  | _ => cases hx : wholeInt? x <;> simp [Literal.ofNumber, hx, compareLiteral]

end Indicators.Pipeline

namespace Indicators.Plan

open Indicators Indicators.Metric Indicators.Number Indicators.Pipeline

/-- A stored value is the value of a condition: its text, or a number equal to the one that the text
reads as. -/
def IsValue (value : String) (stored : Json) : Prop :=
  stored = .string value ∨
    ∃ x n, readFinite? (Text.trim value) = some x ∧ stored = .number n ∧
      n.toBinary64.sameValue x = true

def equals (value : String) (stored : Json) : Bool :=
  related .eq stored (.string value) ||
    (readFinite? (Text.trim value)).any fun x => related .eq stored (.ofNumber x)

theorem equals_iff {value : String} {stored : Json} :
    equals value stored = true ↔ IsValue value stored := by
  unfold equals IsValue
  rw [Bool.or_eq_true, related_eq_string]
  cases readFinite? (Text.trim value) with
  | none => simp
  | some x => simp [related_eq_number]

theorem any_or_any {α : Type} (xs : List α) (p q : α → Bool) :
    (xs.any p || xs.any q) = xs.any fun x => p x || q x := by
  rw [Bool.eq_iff_iff]
  simp only [Bool.or_eq_true, List.any_eq_true, and_or_left, exists_or]

theorem holds_eq_condition (base field value : String) (doc : Json) :
    (conditionPredicate base ⟨field, .eq, value⟩).holds doc =
      (candidates (within base field) doc).any (equals value) := by
  unfold conditionPredicate equals Condition.number?
  dsimp only
  cases readFinite? (Text.trim value) with
  | none => simp [Predicate.holds]
  | some x => simp [Predicate.holds, Predicate.holdAny_eq, any_or_any]

theorem holds_ne_condition (base field value : String) (doc : Json) :
    (conditionPredicate base ⟨field, .ne, value⟩).holds doc =
      !(candidates (within base field) doc).any (equals value) := by
  unfold conditionPredicate equals Condition.number?
  dsimp only
  cases readFinite? (Text.trim value) with
  | none => simp [Predicate.holds]
  | some x => simp [Predicate.holds, Predicate.holdAll_eq, ← Bool.not_or, any_or_any]

/-- Of a value and a path, `eq` holds of the documents that offer the value at the end of a walk,
and `ne` of all others. -/
theorem equality_conditions (base field value : String) (doc : Json) :
    let holds (op : Comparison) := (conditionPredicate base ⟨field, op, value⟩).holds doc
    (holds .ne = true ↔ ¬ holds .eq = true) ∧
    (holds .eq = true ↔ ∃ reached, Reaches (segments (within base field)) doc reached ∧
      ∃ stored, Offers reached stored ∧ IsValue value stored) := by
  intro holds
  have heq := holds_eq_condition base field value doc
  have hne := holds_ne_condition base field value doc
  constructor
  · unfold holds
    rw [heq, hne, Bool.not_eq_true', Bool.not_eq_true]
  · unfold holds
    rw [heq, List.any_eq_true]
    constructor
    · rintro ⟨stored, hs, he⟩
      obtain ⟨reached, hr, ho⟩ := mem_listReached.1 hs
      exact ⟨reached, hr, stored, ho, equals_iff.1 he⟩
    · rintro ⟨reached, hr, stored, ho, hv⟩
      exact ⟨stored, mem_listReached.2 ⟨reached, hr, ho⟩, equals_iff.2 hv⟩

end Indicators.Plan
