import Indicators.Pipeline.Emission
import Indicators.Proofs.Calendar.Writing
import Indicators.Proofs.Pipeline.Grouping
import Indicators.Proofs.Traversal

set_option autoImplicit false

/-! Literals, expressions and predicates can be read off their written form. A path can be any text,
also the name of an operator, so a predicate is told by what stands under its path. -/

namespace Indicators.Pipeline

open Indicators Indicators.Number Indicators.Calendar

/-- Both succeed, with the same result. -/
def Agree {α : Type} (x y : Emitted α) : Prop := ∃ a, x = .ok a ∧ y = .ok a

section

variable {α β γ : Type}

theorem agree_ok {a b : α} : Agree (.ok a) (.ok b) ↔ a = b := by
  constructor
  · rintro ⟨c, ⟨⟩, h⟩
    exact (Except.ok.inj h).symm
  · rintro rfl
    exact ⟨a, rfl, rfl⟩

theorem agree_map {f g : α → β} {x y : Emitted α} (h : Agree (f <$> x) (g <$> y)) :
    ∃ a b, x = .ok a ∧ y = .ok b ∧ f a = g b := by
  obtain ⟨c, hx, hy⟩ := h
  obtain ⟨a, rfl, hfa⟩ := map_eq_ok hx
  obtain ⟨b, rfl, hgb⟩ := map_eq_ok hy
  exact ⟨a, b, rfl, rfl, hfa.trans hgb.symm⟩

theorem Agree.symm {x y : Emitted α} (h : Agree x y) : Agree y x := by
  obtain ⟨a, hx, hy⟩ := h
  exact ⟨a, hy, hx⟩

theorem Agree.of_map {f : α → β} (hf : ∀ a b, f a = f b → a = b) {x y : Emitted α}
    (h : Agree (f <$> x) (f <$> y)) : Agree x y := by
  obtain ⟨a, b, rfl, rfl, hab⟩ := agree_map h
  exact ⟨a, rfl, congrArg Except.ok (hf a b hab).symm⟩

theorem return_eq_map (f : α → β) (x : Emitted α) : (do return f (← x)) = f <$> x := by
  cases x <;> rfl

theorem both_eq_ok {f : α → β → γ} {x : Emitted α} {y : Emitted β} {c : γ}
    (h : (do return f (← x) (← y)) = .ok c) : ∃ a b, x = .ok a ∧ y = .ok b ∧ f a b = c := by
  cases x with
  | error _ => cases h
  | ok a =>
    cases y with
    | error _ => cases h
    | ok b => exact ⟨a, b, rfl, rfl, Except.ok.inj h⟩

theorem agree_both {f g : α → β → γ} {x x' : Emitted α} {y y' : Emitted β}
    (h : Agree (do return f (← x) (← y)) (do return g (← x') (← y'))) :
    ∃ a b a' b', x = .ok a ∧ y = .ok b ∧ x' = .ok a' ∧ y' = .ok b' ∧ f a b = g a' b' := by
  obtain ⟨c, h, h'⟩ := h
  obtain ⟨a, b, rfl, rfl, hab⟩ := both_eq_ok h
  obtain ⟨a', b', rfl, rfl, hab'⟩ := both_eq_ok h'
  exact ⟨a, b, a', b', rfl, rfl, rfl, rfl, hab.trans hab'.symm⟩

theorem not_agree_nil_cons (y : Emitted α) (ys : Emitted (List α)) :
    ¬ Agree (.ok []) (do return (← y) :: (← ys)) := by
  rintro ⟨c, hx, hy⟩
  cases hx
  cases y <;> cases ys <;> cases hy

theorem Agree.of_cons {x y : Emitted α} {xs ys : Emitted (List α)}
    (h : Agree (do return (← x) :: (← xs)) (do return (← y) :: (← ys))) :
    Agree x y ∧ Agree xs ys := by
  obtain ⟨a, as, b, bs, rfl, rfl, rfl, rfl, hab⟩ := agree_both h
  obtain ⟨rfl, rfl⟩ := List.cons.inj hab
  exact ⟨⟨a, rfl, rfl⟩, ⟨as, rfl, rfl⟩⟩

end

theorem tagged_inj {name other : String} {a b : Json} :
    tagged name a = tagged other b ↔ name = other ∧ a = b := by
  simp [tagged]

theorem fieldRef_inj {path other : String} : fieldRef path = fieldRef other ↔ path = other := by
  simp [fieldRef, ← String.toList_inj]

theorem lookup_of_ofMembers {members members' : List (String × Json)}
    (h : Json.ofMembers members = Json.ofMembers members') (name : String) :
    Directory.lookup name members.reverse = Directory.lookup name members'.reverse := by
  have hread := congrArg (Json.member? name) h
  rwa [member?_ofMembers, member?_ofMembers] at hread

def formOf : Json → String
  | .null => "null"
  | .bool _ => "bool"
  | .number (.int _ _) => "int"
  | .number (.float _) => "float"
  | .string _ => "string"
  | .array _ => "array"
  | .object ((name, _) :: _) => name
  | .object [] => ""

def Literal.form : Literal → String
  | .null => "null"
  | .bool _ => "bool"
  | .int _ => "int"
  | .float _ => "float"
  | .string _ => "string"
  | .timestamp _ => "$date"

theorem Literal.form_emit {v : Literal} {j : Json} (h : v.emit = .ok j) : formOf j = v.form := by
  cases v with
  | float x =>
    cases x <;> cases h
    rfl
  | _ =>
    cases h
    rfl

theorem Literal.form_ne_array (v : Literal) : v.form ≠ "array" := by
  cases v <;> simp [form]

theorem Literal.emit_injective {v w : Literal} (h : Agree v.emit w.emit) : v = w := by
  obtain ⟨j, hv, hw⟩ := h
  have hform := (form_emit hv).symm.trans (form_emit hw)
  cases v with
  | null =>
    cases w with
    | null => rfl
    | _ => simp [form] at hform
  | bool b =>
    cases w with
    | bool c =>
      cases hv
      cases hw
      rfl
    | _ => simp [form] at hform
  | int i =>
    cases w with
    | int k =>
      cases hv
      simp [emit, Json.ofInt64, Int64.toInt_inj] at hw
      rw [hw]
    | _ => simp [form] at hform
  | float x =>
    cases w with
    | float y =>
      -- Only finite numbers are written.
      cases x <;> cases hv
      cases y <;> cases hw
      rfl
    | _ => simp [form] at hform
  | string s =>
    cases w with
    | string t =>
      cases hv
      cases hw
      rfl
    | _ => simp [form] at hform
  | timestamp t =>
    cases w with
    | timestamp u =>
      cases hv
      simp [emit, emitTimestamp, tagged] at hw
      rw [Timestamp.write_injective hw]
    | _ => simp [form] at hform

def Literal.marked : Literal → Bool
  | .string s => s.toList.head? == some '$'
  | _ => false

theorem Literal.emitOperand_eq (v : Literal) :
    v.emitOperand = if v.marked then tagged "$literal" <$> v.emit else v.emit := by
  cases v with
  | string s =>
    unfold emitOperand marked
    simp only [beq_iff_eq]
    split <;> rfl
  | _ => rfl

theorem Literal.emit_ne_tagged (v : Literal) (a : Json) : v.emit ≠ .ok (tagged "$literal" a) := by
  intro h
  have hform := form_emit h
  cases v <;> simp [form, formOf, tagged] at hform

theorem Literal.emitOperand_injective {v w : Literal} (h : Agree v.emitOperand w.emitOperand) :
    v = w := by
  have hne {v w : Literal} : ¬ Agree v.emit (tagged "$literal" <$> w.emit) := by
    rintro ⟨j, hv, hw⟩
    obtain ⟨a, -, rfl⟩ := map_eq_ok hw
    exact v.emit_ne_tagged a hv
  rw [emitOperand_eq, emitOperand_eq] at h
  cases hv : v.marked <;> cases hw : w.marked <;> simp only [hv, hw] at h
  · exact emit_injective h
  · exact absurd h hne
  · exact absurd h.symm hne
  · exact emit_injective (h.of_map fun a b h => (tagged_inj.1 h).2)

theorem emitToNumber_inj {a b : Json} (h : emitToNumber a = emitToNumber b) : a = b := by
  have hinput := lookup_of_ofMembers (tagged_inj.1 h).2 "input"
  simpa [Directory.lookup] using hinput

theorem emitToReferences_inj {a b : Json} (h : emitToReferences a = emitToReferences b) :
    a = b := by
  have hinput := lookup_of_ofMembers (tagged_inj.1 h).2 "input"
  simpa [Directory.lookup, emitAsArray, tagged] using hinput

theorem emitFirstElement_inj {a b : Json} (h : emitFirstElement a = emitFirstElement b) :
    a = b := by
  simpa [emitFirstElement, tagged] using h

theorem emitSize_inj {a b : Json} (h : emitSize a = emitSize b) : a = b := by
  simpa [emitSize, tagged] using h

def Expr.operator : Expr → String
  | .field _ => "field"
  | .literal _ => "literal"
  | .toNumber _ => "$convert"
  | .toReferences _ => "$map"
  | .firstElement _ => "$cond"
  | .coalesce _ => "$ifNull"
  | .size _ => "$size"

def operatorOf : Json → String
  | .string s => if s.toList.head? = some '$' then "field" else "literal"
  | .object ((name, _) :: _) => if name = "$literal" ∨ name = "$date" then "literal" else name
  | _ => "literal"

@[simp] theorem operatorOf_tagged (name : String) (body : Json) :
    operatorOf (tagged name body) =
      if name = "$literal" ∨ name = "$date" then "literal" else name := rfl

theorem operatorOf_map {α : Type} {f : α → Json} {written : Emitted α} {j : Json}
    {operator : String} (h : f <$> written = .ok j) (hf : ∀ a, operatorOf (f a) = operator) :
    operatorOf j = operator := by
  obtain ⟨a, -, rfl⟩ := map_eq_ok h
  exact hf a

/-- Of a text that begins as a path does the mark is read and not the text. -/
theorem operatorOf_operand {v : Literal} {j : Json} (h : v.emitOperand = .ok j) :
    operatorOf j = "literal" := by
  rw [Literal.emitOperand_eq] at h
  split at h
  · exact operatorOf_map h fun a => by simp
  · next hmarked =>
    cases v with
    | string s =>
      cases h
      exact if_neg (by simpa [Literal.marked] using hmarked)
    | float x =>
      cases x <;> cases h
      rfl
    | timestamp t =>
      cases h
      simp [emitTimestamp]
    | _ =>
      cases h
      rfl

theorem Expr.operatorOf_emit {e : Expr} {j : Json} (h : e.emit = .ok j) :
    operatorOf j = e.operator := by
  cases e with
  | field path =>
    cases h
    simp [operatorOf, fieldRef, operator]
  | literal v => exact operatorOf_operand h
  | toNumber e => exact operatorOf_map h fun a => by simp [emitToNumber, operator]
  | toReferences e => exact operatorOf_map h fun a => by simp [emitToReferences, operator]
  | firstElement e => exact operatorOf_map h fun a => by simp [emitFirstElement, operator]
  | coalesce es => exact operatorOf_map h fun a => by simp [operator]
  | size e => exact operatorOf_map h fun a => by simp [emitSize, operator]

theorem Expr.operator_agree {e e' : Expr} (h : Agree e.emit e'.emit) :
    e.operator = e'.operator := by
  obtain ⟨j, he, he'⟩ := h
  exact (operatorOf_emit he).symm.trans (operatorOf_emit he')

mutual

theorem Expr.emit_injective : (e e' : Expr) → Agree e.emit e'.emit → e = e'
  | .field path, e', h => by
    have hop := Expr.operator_agree h
    cases e' with
    | field other => rw [fieldRef_inj.1 (agree_ok.1 h)]
    | _ => simp [Expr.operator] at hop
  | .literal v, e', h => by
    have hop := Expr.operator_agree h
    cases e' with
    | literal w => rw [Literal.emitOperand_injective h]
    | _ => simp [Expr.operator] at hop
  | .toNumber e, e', h => by
    have hop := Expr.operator_agree h
    cases e' with
    | toNumber e' => rw [Expr.emit_injective e e' (h.of_map fun _ _ => emitToNumber_inj)]
    | _ => simp [Expr.operator] at hop
  | .toReferences e, e', h => by
    have hop := Expr.operator_agree h
    cases e' with
    | toReferences e' => rw [Expr.emit_injective e e' (h.of_map fun _ _ => emitToReferences_inj)]
    | _ => simp [Expr.operator] at hop
  | .firstElement e, e', h => by
    have hop := Expr.operator_agree h
    cases e' with
    | firstElement e' => rw [Expr.emit_injective e e' (h.of_map fun _ _ => emitFirstElement_inj)]
    | _ => simp [Expr.operator] at hop
  | .coalesce es, e', h => by
    have hop := Expr.operator_agree h
    cases e' with
    | coalesce es' =>
      have hitems : Agree (Expr.emitList es) (Expr.emitList es') :=
        h.of_map fun _ _ h => Json.array.inj (tagged_inj.1 h).2
      rw [Expr.emitList_injective es es' hitems]
    | _ => simp [Expr.operator] at hop
  | .size e, e', h => by
    have hop := Expr.operator_agree h
    cases e' with
    | size e' => rw [Expr.emit_injective e e' (h.of_map fun _ _ => emitSize_inj)]
    | _ => simp [Expr.operator] at hop

theorem Expr.emitList_injective :
    (es es' : List Expr) → Agree (Expr.emitList es) (Expr.emitList es') → es = es'
  | [], [], _ => rfl
  | [], e' :: es', h => absurd h (not_agree_nil_cons _ _)
  | e :: es, [], h => absurd h.symm (not_agree_nil_cons _ _)
  | e :: es, e' :: es', h => by
    rw [Expr.emit_injective e e' h.of_cons.1, Expr.emitList_injective es es' h.of_cons.2]

end

theorem Comparison.name_injective {op op' : Comparison} (h : op.name = op'.name) : op = op' := by
  cases op <;> cases op' <;> first | rfl | (revert h; decide)

theorem Comparison.name_ne_exists (op : Comparison) : op.name ≠ "$exists" := by
  cases op <;> decide

def Predicate.kind : Predicate → String
  | .compare _ _ _ => "compare"
  | .compareAsNumber _ _ _ => "compareAsNumber"
  | .between _ _ _ => "between"
  | .exists _ => "exists"
  | .and _ => "and"
  | .or _ => "or"

/-- The kind of a written predicate. Its path can be any text, so it is told by what stands under
it. -/
def kindOf : Json → String
  | .object [(name, .array _)] => if name = "$and" then "and" else "or"
  | .object [(_, .object [(name, operand)])] =>
    if formOf operand = "array" then "compareAsNumber"
    else if name = "$exists" then "exists" else "compare"
  | _ => "between"

theorem between_members (a b : Json) :
    Json.ofMembers [("$gte", a), ("$lte", b)] = .object [("$gte", a), ("$lte", b)] := by
  unfold Json.ofMembers Directory.ofList
  simp only [List.foldl_cons, List.foldl_nil, Directory.put]
  rw [if_neg (by decide), if_neg (by decide)]

theorem Predicate.kindOf_emit {p : Predicate} {j : Json} (h : p.emit = .ok j) :
    kindOf j = p.kind := by
  cases p with
  | compare path op v =>
    obtain ⟨a, hv, rfl⟩ := map_eq_ok h
    have hform := Literal.form_emit hv ▸ v.form_ne_array
    simp [kindOf, tagged, hform, op.name_ne_exists, kind]
  | compareAsNumber path op v =>
    obtain ⟨a, hv, rfl⟩ := map_eq_ok h
    simp [kindOf, tagged, formOf, kind]
  | between path first last =>
    obtain ⟨a, b, -, -, rfl⟩ := both_eq_ok h
    rw [between_members]
    rfl
  | «exists» path =>
    cases h
    simp [kindOf, tagged, formOf, kind]
  | and ps =>
    obtain ⟨items, -, rfl⟩ := map_eq_ok h
    simp [kindOf, tagged, kind]
  | or ps =>
    obtain ⟨items, -, rfl⟩ := map_eq_ok h
    simp [kindOf, tagged, kind]

theorem Predicate.kind_agree {p p' : Predicate} (h : Agree p.emit p'.emit) : p.kind = p'.kind := by
  obtain ⟨j, hp, hp'⟩ := h
  exact (kindOf_emit hp).symm.trans (kindOf_emit hp')

mutual

theorem Predicate.emit_injective : (p p' : Predicate) → Agree p.emit p'.emit → p = p'
  | .compare path op v, p', h => by
    have hkind := Predicate.kind_agree h
    cases p' with
    | compare path' op' w =>
      obtain ⟨a, b, hv, hw, hab⟩ := agree_map h
      simp only [tagged_inj] at hab
      obtain ⟨rfl, hop, rfl⟩ := hab
      rw [Comparison.name_injective hop, Literal.emit_injective ⟨a, hv, hw⟩]
    | _ => simp [Predicate.kind] at hkind
  | .compareAsNumber path op v, p', h => by
    have hkind := Predicate.kind_agree h
    cases p' with
    | compareAsNumber path' op' w =>
      obtain ⟨a, b, hv, hw, hab⟩ := agree_map h
      simp only [tagged_inj, Json.array.injEq, List.cons.injEq, true_and, and_true] at hab
      obtain ⟨hop, hpath, rfl⟩ := hab
      rw [fieldRef_inj.1 (emitToNumber_inj hpath), Comparison.name_injective hop,
        Literal.emit_injective ⟨a, hv, hw⟩]
    | _ => simp [Predicate.kind] at hkind
  | .between path first last, p', h => by
    have hkind := Predicate.kind_agree h
    cases p' with
    | between path' first' last' =>
      obtain ⟨a, b, a', b', hf, hl, hf', hl', hab⟩ := agree_both h
      simp only [between_members, tagged_inj, Json.object.injEq, List.cons.injEq, Prod.mk.injEq,
        true_and, and_true] at hab
      obtain ⟨rfl, rfl, rfl⟩ := hab
      rw [Literal.emit_injective ⟨a, hf, hf'⟩, Literal.emit_injective ⟨b, hl, hl'⟩]
    | _ => simp [Predicate.kind] at hkind
  | .exists path, p', h => by
    have hkind := Predicate.kind_agree h
    cases p' with
    | «exists» path' => rw [(tagged_inj.1 (agree_ok.1 h)).1]
    | _ => simp [Predicate.kind] at hkind
  | .and ps, p', h => by
    have hkind := Predicate.kind_agree h
    cases p' with
    | and ps' =>
      have hitems : Agree (Predicate.emitList ps) (Predicate.emitList ps') :=
        h.of_map fun _ _ h => Json.array.inj (tagged_inj.1 h).2
      rw [Predicate.emitList_injective ps ps' hitems]
    | _ => simp [Predicate.kind] at hkind
  | .or ps, p', h => by
    have hkind := Predicate.kind_agree h
    cases p' with
    | or ps' =>
      have hitems : Agree (Predicate.emitList ps) (Predicate.emitList ps') :=
        h.of_map fun _ _ h => Json.array.inj (tagged_inj.1 h).2
      rw [Predicate.emitList_injective ps ps' hitems]
    | _ => simp [Predicate.kind] at hkind

theorem Predicate.emitList_injective : (ps ps' : List Predicate) →
    Agree (Predicate.emitList ps) (Predicate.emitList ps') → ps = ps'
  | [], [], _ => rfl
  | [], p' :: ps', h => absurd h (not_agree_nil_cons _ _)
  | p :: ps, [], h => absurd h.symm (not_agree_nil_cons _ _)
  | p :: ps, p' :: ps', h => by
    rw [Predicate.emit_injective p p' h.of_cons.1, Predicate.emitList_injective ps ps' h.of_cons.2]

end

end Indicators.Pipeline
