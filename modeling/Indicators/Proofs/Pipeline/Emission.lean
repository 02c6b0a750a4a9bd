import Indicators.Pipeline.Emission
import Indicators.Proofs.Traversal

set_option autoImplicit false

/-! Each way of putting writings together keeps account of the literals, so a pipeline of writable
literals is always written, and otherwise the first of the others is reported. -/

namespace Indicators.Pipeline

open Indicators Indicators.Number

def Literal.fault? : Literal → Option EmissionError
  | .float (.finite _) => none
  | .float x => some (.nonFinite x)
  | _ => none

def Literal.NonFinite : Literal → Prop
  | .float x => x.isFinite = false
  | _ => False

theorem Literal.fault?_eq_some {v : Literal} {e : EmissionError} :
    v.fault? = some e ↔ ∃ x, v = .float x ∧ x.isFinite = false ∧ e = .nonFinite x := by
  constructor
  · intro h
    cases v with
    | float x =>
      cases x with
      | finite y => cases h
      | infinity negative => exact ⟨_, rfl, rfl, (Option.some.inj h).symm⟩
      | nan => exact ⟨_, rfl, rfl, (Option.some.inj h).symm⟩
    | _ => cases h
  · rintro ⟨x, rfl, hx, rfl⟩
    cases x with
    | finite y => cases hx
    | infinity negative => rfl
    | nan => rfl

theorem Literal.fault?_eq_none {v : Literal} : v.fault? = none ↔ ¬ v.NonFinite := by
  cases v with
  | float x => cases x <;> simp [fault?, NonFinite, Binary64.isFinite, Binary64.finite?]
  | _ => simp [fault?, NonFinite]

/-- Writing meets these literals in order, and fails on the first that cannot be written. -/
def Writes {α : Type} (written : Emitted α) (literals : List Literal) : Prop :=
  match literals.findSome? Literal.fault? with
  | none => ∃ a, written = .ok a
  | some e => written = .error e

section

variable {α β : Type}

theorem Writes.ok (a : α) : Writes (.ok a) [] := ⟨a, rfl⟩

theorem Writes.bind {written : Emitted α} {next : α → Emitted β} {first second : List Literal}
    (h : Writes written first) (hn : ∀ a, Writes (next a) second) :
    Writes (written >>= next) (first ++ second) := by
  unfold Writes at h ⊢
  rw [List.findSome?_append]
  cases hf : first.findSome? Literal.fault? with
  | some e =>
    simp only [hf] at h
    rw [h]
    rfl
  | none =>
    simp only [hf] at h
    obtain ⟨a, rfl⟩ := h
    exact hn a

theorem Writes.map {written : Emitted α} {literals : List Literal} (f : α → β)
    (h : Writes written literals) : Writes (f <$> written) literals := by
  have hb : Writes (written >>= fun a => .ok (f a)) (literals ++ []) :=
    h.bind fun a => .ok (f a)
  rw [List.append_nil] at hb
  cases written <;> exact hb

theorem Writes.mapM {write : α → Emitted β} {literals : α → List Literal} {items : List α}
    (h : ∀ a ∈ items, Writes (write a) (literals a)) :
    Writes (items.mapM write) (items.flatMap literals) := by
  induction items with
  | nil => exact .ok []
  | cons a rest ih =>
    have hrest := ih fun b hb => h b (List.mem_cons_of_mem a hb)
    rw [List.mapM_cons, List.flatMap_cons]
    exact (h a List.mem_cons_self).bind fun b => hrest.map (b :: ·)

theorem Writes.eq_error {written : Emitted α} {literals : List Literal}
    (h : Writes written literals) {e : EmissionError} :
    written = .error e ↔ literals.findSome? Literal.fault? = some e := by
  unfold Writes at h
  cases hf : literals.findSome? Literal.fault? with
  | none =>
    simp only [hf] at h
    obtain ⟨a, rfl⟩ := h
    simp
  | some f =>
    simp only [hf] at h
    rw [h]
    simp

theorem Writes.exists_ok {written : Emitted α} {literals : List Literal}
    (h : Writes written literals) (hl : ∀ v ∈ literals, v.fault? = none) :
    ∃ a, written = .ok a := by
  unfold Writes at h
  rwa [List.findSome?_eq_none_iff.2 hl] at h

end

mutual

def Expr.literals : Expr → List Literal
  | .field _ => []
  | .literal v => [v]
  | .toNumber e | .toReferences e | .firstElement e | .size e => e.literals
  | .coalesce es => Expr.literalsOf es

def Expr.literalsOf : List Expr → List Literal
  | [] => []
  | e :: es => e.literals ++ Expr.literalsOf es

end

mutual

def Predicate.literals : Predicate → List Literal
  | .compare _ _ v | .compareAsNumber _ _ v => [v]
  | .between _ first last => [first, last]
  | .exists _ => []
  | .and ps | .or ps => Predicate.literalsOf ps

def Predicate.literalsOf : List Predicate → List Literal
  | [] => []
  | p :: ps => p.literals ++ Predicate.literalsOf ps

end

def fieldLiterals (fields : List (String × Expr)) : List Literal :=
  fields.flatMap fun f => f.2.literals

def Stage.literals : Stage → List Literal
  | .filter predicate => predicate.literals
  | .unwind _ _ | .join _ => []
  | .group key aggregates =>
    fieldLiterals (key.getD []) ++ aggregates.flatMap fun a => a.operand.literals
  | .project fields _ => fieldLiterals fields

theorem writes_literal (v : Literal) : Writes v.emit [v] := by
  cases v with
  | float x =>
    cases x with
    | finite y => exact ⟨_, rfl⟩
    | infinity negative => exact rfl
    | nan => exact rfl
  | _ => exact ⟨_, rfl⟩

theorem writes_operand (v : Literal) : Writes v.emitOperand [v] := by
  cases v with
  | string s => exact ⟨_, rfl⟩
  | null => exact writes_literal .null
  | bool b => exact writes_literal (.bool b)
  | int i => exact writes_literal (.int i)
  | float x => exact writes_literal (.float x)
  | timestamp t => exact writes_literal (.timestamp t)

mutual

theorem writes_expr : (e : Expr) → Writes e.emit e.literals
  | .field _ => .ok _
  | .literal v => writes_operand v
  | .toNumber e => (writes_expr e).map _
  | .toReferences e => (writes_expr e).map _
  | .firstElement e => (writes_expr e).map _
  | .size e => (writes_expr e).map _
  | .coalesce es => (writes_exprs es).map _

theorem writes_exprs : (es : List Expr) → Writes (Expr.emitList es) (Expr.literalsOf es)
  | [] => .ok []
  | e :: es => (writes_expr e).bind fun _ => (writes_exprs es).map _

end

mutual

theorem writes_predicate : (p : Predicate) → Writes p.emit p.literals
  | .compare _ _ v => (writes_literal v).map _
  | .compareAsNumber _ _ v => (writes_literal v).map _
  | .between _ first last => (writes_literal first).bind fun _ => (writes_literal last).map _
  | .exists _ => .ok _
  | .and ps => (writes_predicates ps).map _
  | .or ps => (writes_predicates ps).map _

theorem writes_predicates :
    (ps : List Predicate) → Writes (Predicate.emitList ps) (Predicate.literalsOf ps)
  | [] => .ok []
  | p :: ps => (writes_predicate p).bind fun _ => (writes_predicates ps).map _

end

theorem writes_fields (fields : List (String × Expr)) :
    Writes (emitFields fields) (fieldLiterals fields) :=
  .mapM fun f _ => (writes_expr f.2).map _

theorem writes_key (key : Option (List (String × Expr))) :
    Writes (emitKey key) (fieldLiterals (key.getD [])) := by
  cases key with
  | none => exact .ok Json.null
  | some fields => exact (writes_fields fields).map _

theorem writes_stage (s : Stage) : Writes s.emit s.literals := by
  cases s with
  | filter predicate => exact (writes_predicate predicate).map _
  | unwind path index => exact .ok _
  | join spec => exact .ok _
  | group key aggregates =>
    have haggregates : Writes (aggregates.mapM Aggregate.emit)
        (aggregates.flatMap fun a => a.operand.literals) :=
      .mapM fun a _ => (writes_expr a.operand).map fun operand =>
        (a.name, tagged a.func.name operand)
    exact (writes_key key).bind fun _ => haggregates.map _
  | project fields keepInput => exact (writes_fields fields).map _

theorem writes_emit (stages : List Stage) : Writes (emit stages) (stages.flatMap Stage.literals) :=
  (Writes.mapM fun s _ => writes_stage s).map _

theorem emit_eq_ok {stages : List Stage} {out : Json} :
    emit stages = .ok out ↔
      ∃ items, out = .array items ∧ List.Forall₂ (fun s item => s.emit = .ok item) stages items := by
  have hitems (items : List Json) : stages.mapM (·.emit) = .ok items ↔
      List.Forall₂ (fun s item => Stage.emit s = .ok item) stages items :=
    mapM_eq_ok fun _ _ => Iff.rfl
  unfold emit
  constructor
  · intro h
    obtain ⟨items, hm, rfl⟩ := map_eq_ok h
    exact ⟨items, rfl, (hitems items).1 hm⟩
  · rintro ⟨items, rfl, h⟩
    rw [(hitems items).2 h]
    rfl

/-- A pipeline is not written exactly when some literal in it is no finite number, and the first of
those in the order of writing is reported. When it is written each stage gives one item, in
order. -/
theorem emit_fails_iff (stages : List Stage) :
    ((∃ e, emit stages = .error e) ↔ ∃ v ∈ stages.flatMap Stage.literals, v.NonFinite) ∧
      (∀ e, emit stages = .error e ↔ ∃ before x after,
        stages.flatMap Stage.literals = before ++ .float x :: after ∧
          (∀ v ∈ before, ¬ v.NonFinite) ∧ x.isFinite = false ∧ e = .nonFinite x) ∧
      ∀ out, emit stages = .ok out ↔
        ∃ items, out = .array items ∧
          List.Forall₂ (fun s item => s.emit = .ok item) stages items := by
  have herror := fun e => (writes_emit stages).eq_error (e := e)
  refine ⟨?_, fun e => ?_, fun out => emit_eq_ok⟩
  · simp only [herror, ← Option.ne_none_iff_exists', ne_eq, List.findSome?_eq_none_iff,
      Literal.fault?_eq_none, not_forall, not_not, exists_prop]
  · rw [herror, List.findSome?_eq_some_iff]
    constructor
    · rintro ⟨before, v, after, hsplit, hfault, hbefore⟩
      obtain ⟨x, rfl, hx, rfl⟩ := Literal.fault?_eq_some.1 hfault
      exact ⟨before, x, after, hsplit, fun v hv => Literal.fault?_eq_none.1 (hbefore v hv), hx, rfl⟩
    · rintro ⟨before, x, after, hsplit, hbefore, hx, rfl⟩
      exact ⟨before, .float x, after, hsplit, Literal.fault?_eq_some.2 ⟨x, rfl, hx, rfl⟩,
        fun v hv => Literal.fault?_eq_none.2 (hbefore v hv)⟩

end Indicators.Pipeline
