import Indicators.Proofs.Pipeline.Reductions
import Indicators.Proofs.Plan.Rows

set_option autoImplicit false

/-! The key of a row and the key of the document that its group became are the same as long as the
positions are the same. -/

namespace Indicators.Plan

open Indicators Indicators.Metric Indicators.Number Indicators.Pipeline Indicators.Schema

def levelDoc (name : String) (key value : Json) : Json :=
  .object (Directory.put name value [("_id", key)])

theorem isObject_levelDoc (name : String) (key value : Json) :
    (levelDoc name key value).isObject = true := rfl

theorem member?_levelDoc_id {name : String} (h : name ≠ "_id") (key value : Json) :
    (levelDoc name key value).member? "_id" = some key := by
  change Directory.lookup "_id" (Directory.put name value [("_id", key)]) = _
  rw [Directory.lookup_put_of_ne h.symm]
  rfl

theorem valueAt_levelDoc {name : String} (h : '.' ∉ name.toList) (key value : Json) :
    valueAt name (levelDoc name key value) = value := by
  unfold levelDoc
  rw [valueAt_name h, Directory.lookup_put_self]
  rfl

theorem levelDoc_result (value : Json) :
    levelDoc resultName .null value = .object [("_id", .null), (resultName, value)] := by
  have hne : "_id" ≠ resultName := by decide
  have hlt : ¬ resultName < "_id" := by decide
  simp only [levelDoc, Directory.put, if_neg hne, if_neg hlt]

def rollupResult (op : Operation) (operands : List Json) : Json :=
  if op = .distinct then .ofNat (distinctOf operands).length
  else (accumulatorOf op).reduce operands

theorem groupDoc_levelDoc (name : String) (func : Accumulator) (operand : Expr)
    (bucket : Json × List Json) :
    groupDoc [⟨func, operand, name⟩] bucket =
      levelDoc name bucket.1 (func.reduce (bucket.2.map (operand.eval ·))) := by
  rw [groupDoc_single]
  rfl

theorem projectDoc_single {name : String} (h : '.' ∉ name.toList) {doc key value : Json}
    {e : Expr} (hid : identifierOf doc = .object [("_id", key)]) (hv : e.eval doc = value) :
    projectDoc [(name, e)] false doc = levelDoc name key value := by
  unfold projectDoc
  rw [if_neg Bool.false_ne_true, hid, List.map_cons, List.map_nil]
  simp only [hv, List.foldl_cons, List.foldl_nil, setField]
  rw [segments_of_not_mem h]
  rfl

theorem identifierOf_levelDoc {name : String} (h : name ≠ "_id") (key value : Json) :
    identifierOf (levelDoc name key value) = .object [("_id", key)] := by
  unfold identifierOf
  rw [member?_levelDoc_id h]

theorem size_eval {name : String} {doc : Json} {items : List Json}
    (h : valueAt name doc = .array items) :
    (Expr.size (.field name)).eval doc = .ofNat items.length := by
  simp only [Expr.eval, h, itemCount]

theorem run_rollup (collection : String → List Json) (docs : List Json) (o : Outline)
    (layout : Layout) (level : Nat) (op : Operation) :
    run collection docs (o.rollup layout level op) =
      (buckets (groupKey (groupKeyOf layout (o.isInnermost level) level)) docs).map fun b =>
        levelDoc (o.resultKey level) b.1
          (rollupResult op (b.2.map ((o.operand layout level op).eval ·))) := by
  unfold Outline.rollup rollupResult
  split
  · next h =>
    subst h
    change ((buckets _ docs).map (groupDoc _)).map (projectDoc _ false) = _
    rw [List.map_map]
    refine List.map_congr_left fun b _ => ?_
    rw [Function.comp_apply, groupDoc_levelDoc]
    refine projectDoc_single (resultKey_simple o level) (identifierOf_levelDoc (by decide) _ _) ?_
    exact size_eval (valueAt_levelDoc (by decide) b.1 _)
  · next h =>
    change (buckets _ docs).map (groupDoc _) = _
    exact List.map_congr_left fun b _ => groupDoc_levelDoc _ _ _ b

/-- What a rollup is given for a value: a one where it counts. -/
def counted (op : Operation) (value : Json) : Json :=
  if counts op then .number oneNumber else value

theorem rollupResult_counted (op : Operation) (values : List Json) :
    rollupResult op (values.map (counted op)) = reduction op values := by
  have ones (hc : counts op = true) :
      values.map (counted op) = List.replicate values.length (.number oneNumber) := by
    rw [← List.map_const']
    exact List.map_congr_left fun v _ => if_pos hc
  have same (hc : counts op = false) : values.map (counted op) = values := by
    refine (List.map_congr_left fun v _ => ?_).trans (List.map_id values)
    rw [counted, hc, if_neg Bool.false_ne_true, id]
  unfold rollupResult
  cases op with
  | count => rw [ones rfl, if_neg (by decide), accumulatorOf, Accumulator.reduce, sumOf_ones, reduction]
  | percentage =>
    rw [ones rfl, if_neg (by decide), accumulatorOf, Accumulator.reduce, sumOf_ones, reduction]
  | sum => rw [same rfl, if_neg (by decide), accumulatorOf, Accumulator.reduce, reduction]
  | average => rw [same rfl, if_neg (by decide), accumulatorOf, Accumulator.reduce, reduction]
  | max => rw [same rfl, if_neg (by decide), accumulatorOf, Accumulator.reduce, reduction]
  | min => rw [same rfl, if_neg (by decide), accumulatorOf, Accumulator.reduce, reduction]
  | distinct => rw [same rfl, if_pos rfl, reduction]

theorem numeric_reduction {op : Operation} {values : List Json}
    (h : op.isNumeric = true → ∀ v ∈ values, Numeric v) : Numeric (reduction op values) := by
  cases op with
  | count =>
    rw [reduction]
    exact numeric_ofInt _
  | percentage =>
    rw [reduction]
    exact numeric_ofInt _
  | distinct =>
    rw [reduction]
    exact numeric_ofInt _
  | sum => exact numeric_sumOf values
  | average => exact numeric_meanOf values
  | max => exact numeric_reduceWith laterMax_chooses le_refl le_trans (h rfl)
  | min =>
    exact numeric_reduceWith earlierMin_chooses le_refl (fun hx hy => le_trans hy hx) (h rfl)

/-- The key of the group that a row belongs to. -/
def keyOf (names : List String) (row : Json) : Json :=
  .ofMembers ((documentName :: names).zip (trail names row))

theorem zip_trail (names : List String) (row : Json) :
    (documentName :: names).zip (trail names row) =
      (documentName, valueAt "_id" row) :: names.map fun name => (name, valueAt name row) := by
  unfold trail
  rw [List.zip_cons_cons]
  congr 1
  induction names with
  | nil => rfl
  | cons name rest ih => rw [List.map_cons, List.zip_cons_cons, ih, List.map_cons]

theorem Marks.document {names : List String} (h : Marks names) : (documentName :: names).Nodup :=
  List.nodup_cons.2 ⟨fun hm => (h.index _ hm).ne_document rfl, h.nodup⟩

theorem keyOf_injective {names : List String} (h : Marks names) {row other : Json}
    (he : keyOf names row = keyOf names other) : trail names row = trail names other := by
  injection he with he
  exact Directory.ofList_zip_injective h.document (by simp [trail_length])
    (by simp [trail_length]) he

theorem Rows.keys {names : List String} {rows : List Json} (h : Rows names rows)
    (marks : Marks names) : (rows.map (keyOf names)).Nodup := by
  have ha := h.apart
  rw [List.Nodup, List.pairwise_map] at ha ⊢
  exact ha.imp fun hne he => hne (keyOf_injective marks he)

theorem keyOf_congr {names : List String} {row other : Json}
    (h : trail names row = trail names other) : keyOf names row = keyOf names other := by
  unfold keyOf
  rw [h]

theorem lookup_keyOf {names : List String} (h : Marks names) (row : Json) {name : String}
    {value : Json} (hm : (name, value) ∈ (documentName, valueAt "_id" row) ::
      names.map fun name => (name, valueAt name row)) :
    ∃ members, keyOf names row = .object members ∧
      Directory.lookup name members = some value := by
  refine ⟨_, rfl, ?_⟩
  have hnames : ((documentName :: names).zip (trail names row)).map (·.1) =
      documentName :: names := List.map_fst_zip (by simp [trail_length])
  refine @Directory.lookup_ofList_of_mem _ _ (by rw [hnames]; exact h.document) (name, value) ?_
  rw [zip_trail]
  exact hm

theorem groupKeyOf_pos (layout : Layout) (innermost : Bool) {level : Nat} (h : 0 < level) :
    groupKeyOf layout innermost level =
      some ((documentName, .field (if innermost then "_id" else "_id." ++ documentName)) ::
        (layout.indexesAbove level).map fun index =>
          (index, .field (if innermost then index else "_id." ++ index))) := by
  cases level with
  | zero => exact absurd h (Nat.lt_irrefl 0)
  | succ above => rfl

theorem groupKey_row (layout : Layout) {level : Nat} (h : 0 < level) (row : Json) :
    groupKey (groupKeyOf layout true level) row = keyOf (layout.indexesAbove level) row := by
  rw [groupKeyOf_pos layout true h]
  unfold keyOf
  rw [zip_trail]
  simp only [groupKey, if_true, List.map_cons, List.map_map, Function.comp_def, Expr.eval]

theorem groupKey_doc (layout : Layout) {level : Nat} (h : 0 < level) {below : List String}
    (marks : Marks below) (hsub : ∀ name ∈ layout.indexesAbove level, name ∈ below)
    {doc row : Json} (hid : doc.member? "_id" = some (keyOf below row)) :
    groupKey (groupKeyOf layout false level) doc = keyOf (layout.indexesAbove level) row := by
  have read {name : String} {value : Json} (hs : '.' ∉ name.toList)
      (hm : (name, value) ∈ (documentName, valueAt "_id" row) ::
        below.map fun name => (name, valueAt name row)) :
      valueAt ("_id." ++ name) doc = value := by
    obtain ⟨members, hk, hl⟩ := lookup_keyOf marks row hm
    rw [valueAt_inside_id hs (hid.trans (congrArg some hk)), hl]
    rfl
  have hdoc : valueAt ("_id." ++ documentName) doc = valueAt "_id" row :=
    read (by decide) List.mem_cons_self
  have hnames : (layout.indexesAbove level).map (fun name => (name, valueAt ("_id." ++ name) doc)) =
      (layout.indexesAbove level).map fun name => (name, valueAt name row) := by
    refine List.map_congr_left fun name hn => ?_
    have hb := hsub name hn
    rw [read (marks.index name hb).simple
      (List.mem_cons_of_mem _ (List.mem_map.2 ⟨name, hb, rfl⟩))]
  rw [groupKeyOf_pos layout false h]
  unfold keyOf
  rw [zip_trail]
  simp only [groupKey, Bool.false_eq_true, if_false, List.map_cons, List.map_map,
    Function.comp_def, Expr.eval, hdoc, hnames]

end Indicators.Plan
