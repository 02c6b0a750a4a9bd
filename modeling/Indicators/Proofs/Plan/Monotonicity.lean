import Indicators.Proofs.Plan.Simulation
import Mathlib.Data.List.Flatten
import Mathlib.Data.List.Forall2

set_option autoImplicit false

/-! Filters, descents and joins keep a sublist of rows a sublist. The innermost rollup turns it into
a subset of identifiers, and every other rollup sees its input through the identifiers only. -/

namespace Indicators.Plan

open Indicators Indicators.Metric Indicators.Pipeline Indicators.Schema

def Rowwise : Stage → Prop
  | .group _ _ => False
  | _ => True

theorem apply_sublist (collection : String → List Json) {stage : Stage} (hl : Rowwise stage)
    {rows others : List Json} (h : rows.Sublist others) :
    (stage.apply collection rows).Sublist (stage.apply collection others) := by
  cases stage with
  | group key aggregates => exact hl.elim
  | filter predicate => exact h.filter _
  | unwind path index => exact h.flatMap _
  | join spec => exact h.map _
  | project fields keepInput => exact h.map _

theorem run_sublist (collection : String → List Json) {stages : List Stage}
    (hl : ∀ stage ∈ stages, Rowwise stage) {rows others : List Json}
    (h : rows.Sublist others) :
    (run collection rows stages).Sublist (run collection others stages) := by
  induction stages generalizing rows others with
  | nil => exact h
  | cons stage rest ih =>
    exact ih (fun s hs => hl s (List.mem_cons_of_mem _ hs))
      (apply_sublist collection (hl stage List.mem_cons_self) h)

theorem conditionStages_rowwise (base : String) (conditions : List Condition) :
    ∀ stage ∈ conditionStages base conditions, Rowwise stage := by
  intro stage hs
  unfold conditionStages at hs
  split at hs
  · exact absurd hs List.not_mem_nil
  · rw [List.mem_singleton.1 hs]
    trivial

theorem descentStages_rowwise (placed : Placement) :
    ∀ stage ∈ placed.descentStages, Rowwise stage := by
  intro stage hs
  rcases mem_descentStages hs with ⟨_, _, rfl⟩ | ⟨_, rfl⟩ | ⟨_, _, rfl⟩ <;> trivial

theorem sectionStages_rowwise (layout : Layout) : ∀ stage ∈ layout.sectionStages, Rowwise stage := by
  intro stage hs
  rcases mem_sectionStages hs with ⟨_, rfl⟩ | ⟨_, _, rfl⟩ <;> trivial

theorem levelStages_rowwise (o : Outline) (layout : Layout) :
    ∀ stage ∈ levelStages o layout, Rowwise stage := by
  intro stage hs
  obtain ⟨base, conditions, hs⟩ | ⟨placed, hs⟩ := mem_levelStages hs
  · exact conditionStages_rowwise base conditions stage hs
  · exact descentStages_rowwise placed stage hs

structure Keyed (docs : List Json) : Prop where
  objects : ∀ doc ∈ docs, doc.isObject = true
  distinct : (docs.map (Json.member? "_id")).Nodup

/-- Every identifier of the documents is one of the others, and none repeats. -/
structure Covered (docs others : List Json) : Prop where
  keyed : Keyed docs
  keyedOthers : Keyed others
  subset : ∀ doc ∈ docs, ∃ other ∈ others, doc.member? "_id" = other.member? "_id"

theorem Covered.length_le {docs others : List Json} (h : Covered docs others) :
    docs.length ≤ others.length := by
  have hsub : docs.map (Json.member? "_id") ⊆ others.map (Json.member? "_id") := by
    intro id hid
    obtain ⟨doc, hd, rfl⟩ := List.mem_map.1 hid
    obtain ⟨other, ho, he⟩ := h.subset doc hd
    rw [he]
    exact List.mem_map_of_mem ho
  simpa using (h.keyed.distinct.subperm hsub).length_le

section

variable (collection : String → List Json) (o : Outline) (layout : Layout)

theorem member?_rollup (docs : List Json) (level : Nat) (op : Operation) :
    (run collection docs (o.rollup layout level op)).map (Json.member? "_id") =
      ((docs.map (groupKey (groupKeyOf layout (o.isInnermost level) level))).eraseDups).map
        some := by
  rw [run_rollup, List.map_map, ← buckets_keys, List.map_map]
  exact List.map_congr_left fun b _ => member?_levelDoc_id (resultKey_ne_id o level) _ _

theorem keyed_rollup (docs : List Json) (level : Nat) (op : Operation) :
    Keyed (run collection docs (o.rollup layout level op)) := by
  constructor
  · intro doc hd
    rw [run_rollup] at hd
    obtain ⟨b, -, rfl⟩ := List.mem_map.1 hd
    exact isObject_levelDoc _ _ _
  · rw [member?_rollup]
    exact (nodup_eraseDups _).map (Option.some_injective Json)

theorem covered_rollup {docs others : List Json} (level : Nat) (op : Operation)
    (h : ∀ doc ∈ docs, ∃ other ∈ others,
      groupKey (groupKeyOf layout (o.isInnermost level) level) doc =
        groupKey (groupKeyOf layout (o.isInnermost level) level) other) :
    Covered (run collection docs (o.rollup layout level op))
      (run collection others (o.rollup layout level op)) := by
  refine ⟨keyed_rollup collection o layout docs level op,
    keyed_rollup collection o layout others level op, fun doc hd => ?_⟩
  have hid := List.mem_map_of_mem (f := Json.member? "_id") hd
  rw [member?_rollup, List.mem_map] at hid
  obtain ⟨key, hk, he⟩ := hid
  rw [List.mem_eraseDups, List.mem_map] at hk
  obtain ⟨row, hr, rfl⟩ := hk
  obtain ⟨other, ho, hsame⟩ := h row hr
  have hin : some (groupKey (groupKeyOf layout (o.isInnermost level) level) row) ∈
      (run collection others (o.rollup layout level op)).map (Json.member? "_id") := by
    rw [member?_rollup, hsame]
    exact List.mem_map_of_mem (List.mem_eraseDups.2 (List.mem_map_of_mem ho))
  obtain ⟨found, hf, hfid⟩ := List.mem_map.1 hin
  exact ⟨found, hf, he.symm.trans hfid.symm⟩

end

theorem valueAt_id_congr {doc other : Json} (hd : doc.isObject = true)
    (ho : other.isObject = true) (h : doc.member? "_id" = other.member? "_id") (name : String) :
    valueAt ("_id." ++ name) doc = valueAt ("_id." ++ name) other := by
  have hsegments : segments ("_id." ++ name) = "_id" :: segments name := by
    have hsplit : "_id." ++ name = "_id" ++ "." ++ name := rfl
    have hid : segments "_id" = ["_id"] := segments_of_not_mem (by decide)
    rw [hsplit, segments_append, hid]
    rfl
  cases doc with
  | object members =>
    cases other with
    | object otherMembers =>
      rw [Json.member?, Json.member?] at h
      unfold valueAt
      rw [hsegments, reach, reachMember, reachMember, h]
    | _ => cases ho
  | _ => cases hd

theorem groupKey_id_congr (layout : Layout) {doc other : Json} (hd : doc.isObject = true)
    (ho : other.isObject = true) (h : doc.member? "_id" = other.member? "_id") (level : Nat) :
    groupKey (groupKeyOf layout false level) doc =
      groupKey (groupKeyOf layout false level) other := by
  cases level with
  | zero => rfl
  | succ above =>
    rw [groupKeyOf_pos layout false (Nat.succ_pos above)]
    simp only [groupKey, Bool.false_eq_true, if_false, List.map_cons, List.map_map,
      Function.comp_def, Expr.eval, valueAt_id_congr hd ho h]

structure Tightens (changed l : Level) : Prop where
  fieldPath : changed.fieldPath = l.fieldPath
  operation : changed.operation = l.operation
  conditions : l.conditions ⊆ changed.conditions

theorem run_conditionStages_sublist (collection : String → List Json) (base : String)
    {conditions fewer : List Condition} (hsub : fewer ⊆ conditions) {rows others : List Json}
    (h : rows.Sublist others) :
    (run collection rows (conditionStages base conditions)).Sublist
      (run collection others (conditionStages base fewer)) := by
  rw [run_conditionStages, run_conditionStages]
  refine .trans (List.monotone_filter_right rows fun row hr => ?_) (h.filter _)
  rw [List.all_eq_true] at hr ⊢
  exact fun condition hc => hr condition (hsub hc)

section

variable {changed levels : List Level} (ht : List.Forall₂ Tightens changed levels)

include ht

theorem operations_of_tightens : changed.map (·.operation) = levels.map (·.operation) := by
  induction ht with
  | nil => rfl
  | cons h _ ih => rw [List.map_cons, List.map_cons, h.operation, ih]

theorem fields_of_tightens : changed.map (·.fieldPath) = levels.map (·.fieldPath) := by
  induction ht with
  | nil => rfl
  | cons h _ ih => rw [List.map_cons, List.map_cons, h.fieldPath, ih]

theorem placeLevels_of_tightens (types : FieldTypes) (sectionName : Option String)
    (isInnermost : Nat → Bool) (position : Position) (i : Nat) :
    placeLevels types sectionName isInnermost position (outlinesFrom i changed) =
      placeLevels types sectionName isInnermost position (outlinesFrom i levels) := by
  induction ht generalizing position i with
  | nil => rfl
  | cons h _ ih =>
    simp only [outlinesFrom, placeLevels, ih, descend, outlineOf, h.fieldPath]

end

/-- Stages of levels turn a sublist of rows into a covered list of documents. On the innermost
level the keys are those of rows, above it they lie in the identifiers. -/
theorem covered_stagesFrom (collection : String → List Json) {o : Outline} (layout : Layout)
    {changed levels : List Level} (ht : List.Forall₂ Tightens changed levels) {i : Nat}
    {placements : List Placement} (hne : levels ≠ []) (hdepth : i + levels.length = o.depth)
    (hlen : placements.length = levels.length) {rows others : List Json}
    (h : rows.Sublist others) :
    Covered (run collection rows (stagesFrom o layout ((outlinesFrom i changed).zip placements)))
      (run collection others
        (stagesFrom o layout ((outlinesFrom i levels).zip placements))) := by
  induction ht generalizing i placements rows others with
  | nil => exact absurd rfl hne
  | @cons l' l inner' inner hl htin ih =>
    obtain ⟨here, below, rfl⟩ := List.exists_cons_of_length_eq_add_one hlen
    have hin := isInnermost_iff hdepth
    rw [List.length_cons] at hdepth
    have hrows := run_sublist collection (descentStages_rowwise here)
      (run_conditionStages_sublist collection here.base hl.conditions h)
    simp only [outlinesFrom, List.zip_cons_cons, stagesFrom, run_append]
    change Covered (run _ _ (o.rollup layout i l'.operation))
      (run _ _ (o.rollup layout i l.operation))
    rw [hl.operation]
    cases htin with
    | nil =>
      -- Fewer rows: each has itself on the other side.
      refine covered_rollup collection o layout i l.operation fun row hr => ⟨row, ?_, rfl⟩
      exact hrows.subset hr
    | cons =>
      -- Fewer identifiers: the key of this level lies inside them, whatever else a document holds.
      have hcovered := @ih (i + 1) below (List.cons_ne_nil _ _) (by omega) (by simpa using hlen)
        _ _ hrows
      refine covered_rollup collection o layout i l.operation fun doc hd => ?_
      obtain ⟨other, ho, he⟩ := hcovered.subset doc hd
      refine ⟨other, ho, ?_⟩
      rw [hin]
      exact groupKey_id_congr layout (hcovered.keyed.objects doc hd)
        (hcovered.keyedOthers.objects other ho) he i

theorem length_below (collection : String → List Json) {o : Outline} (layout : Layout)
    {changed inner : List Level} (ht : List.Forall₂ Tightens changed inner) (here : Placement)
    {below : List Placement} (hdepth : 1 + inner.length = o.depth)
    (hlen : below.length = inner.length) {rows others : List Json} (h : rows.Sublist others) :
    (run collection rows (here.descentStages ++
        stagesFrom o layout ((outlinesFrom 1 changed).zip below))).length ≤
      (run collection others (here.descentStages ++
        stagesFrom o layout ((outlinesFrom 1 inner).zip below))).length := by
  have hrows := run_sublist collection (descentStages_rowwise here) h
  rw [run_append, run_append]
  cases ht with
  | nil => exact hrows.length_le
  | cons hl hrest =>
    exact (covered_stagesFrom collection layout (.cons hl hrest) (List.cons_ne_nil _ _) hdepth
      hlen hrows).length_le

end Indicators.Plan
