import Indicators.Proofs.Pipeline.Grouping
import Indicators.Proofs.Plan.Meaning
import Indicators.Proofs.Plan.Names

set_option autoImplicit false

/-! A descent replaces a row by one row for each child of its element: the child stands at the next
base, the identifier and the positions noted before are the same, and the new position differs from
child to child. -/

namespace Indicators.Plan

open Indicators Indicators.Calendar Indicators.Metric Indicators.Pipeline Indicators.Schema

theorem holds_conditionPredicate (base : String) (c : Condition) (row : Json) :
    (conditionPredicate base c).holds row = meets c (elementAt base row) := by
  unfold conditionPredicate meets
  cases c.number? with
  | none => cases c.op <;> simp [Predicate.holds, candidates_within]
  | some x =>
    cases c.op <;>
      simp [Predicate.holds, Predicate.holdAll_eq, Predicate.holdAny_eq, candidates_within]

theorem filter_flatMap_single {α β : Type} (keep : α → Bool) (f : α → List β) (xs : List α) :
    (xs.filter keep).flatMap f = xs.flatMap fun x => if keep x then f x else [] := by
  induction xs with
  | nil => rfl
  | cons x rest ih =>
    rw [List.filter_cons, List.flatMap_cons, ← ih]
    cases keep x <;> rfl

theorem run_conditionStages (collection : String → List Json) (rows : List Json) (base : String)
    (conditions : List Condition) :
    run collection rows (conditionStages base conditions) =
      rows.filter fun row => conditions.all (meets · (elementAt base row)) := by
  unfold conditionStages
  split
  · next h =>
    rw [List.isEmpty_iff.1 h]
    exact (List.filter_eq_self.2 fun _ _ => rfl).symm
  · refine List.filter_congr fun row _ => ?_
    rw [Predicate.holds_all, List.all_map]
    simp only [Function.comp_def, holds_conditionPredicate]

theorem compare_swap (s t : Timestamp) : (s.compare t).swap = t.compare s := by
  unfold Timestamp.compare
  rw [Ordering.swap_then]
  congr 1
  · exact Std.OrientedOrd.eq_swap.symm
  · exact Std.OrientedOrd.eq_swap.symm

theorem compareLiteral_timestamp (stored : Json) (t : Timestamp) :
    compareLiteral stored (.timestamp t) = (storedTimestamp stored).map (·.compare t) := by
  cases stored <;> rfl

theorem related_bounds (range : DateRange) (stored : Json) :
    (related .ge stored (.timestamp range.first) && related .le stored (.timestamp range.last)) =
      (storedTimestamp stored).any fun t => range.first.le t && t.le range.last := by
  unfold related
  rw [compareLiteral_timestamp, compareLiteral_timestamp]
  cases storedTimestamp stored with
  | none => rfl
  | some t =>
    simp only [Option.map_some, Option.any_some, Timestamp.le, ← compare_swap t range.first]
    cases t.compare range.first <;> rfl

theorem run_dateStage (collection : String → List Json) (docs : List Json)
    (locator : DateLocator) (types : FieldTypes) (sectionPath : List String) (range : DateRange) :
    run collection docs [dateStage locator types sectionPath range] =
      docs.filter (inRange locator types sectionPath range) := by
  refine List.filter_congr fun doc _ => ?_
  unfold inRange
  rw [Predicate.holds]
  simp only [related_bounds]

/-- What tells rows apart: the identifier of their document and the positions under the names. -/
def trail (names : List String) (row : Json) : List Json :=
  valueAt "_id" row :: names.map (valueAt · row)

/-- Names for positions, once each. -/
structure Marks (names : List String) : Prop where
  index : ∀ name ∈ names, IndexName name
  nodup : names.Nodup

/-- Objects no two of which have the same trail. -/
structure Rows (names : List String) (rows : List Json) : Prop where
  objects : ∀ row ∈ rows, row.isObject = true
  apart : (rows.map (trail names)).Nodup

/-- Rows in place of one row, each with an item of its own at the base. -/
structure Descends (names : List String) (base index : String) (items : List Json) (row : Json)
    (below : List Json) : Prop where
  objects : ∀ child ∈ below, child.isObject = true
  elements : below.map (elementAt base) = items
  trails : ∀ child ∈ below, trail names child = trail names row
  positions : (below.map (valueAt index)).Nodup

theorem Marks.append {names : List String} {name : String} (h : Marks names)
    (hn : IndexName name) (hfree : name ∉ names) : Marks (names ++ [name]) := by
  constructor
  · intro n hmem
    rcases List.mem_append.1 hmem with hm | hm
    · exact h.index n hm
    · rw [List.mem_singleton.1 hm]
      exact hn
  · rw [List.nodup_append]
    refine ⟨h.nodup, List.nodup_singleton _, fun a ha b hb => ?_⟩
    rw [List.mem_singleton.1 hb]
    exact fun e => hfree (e ▸ ha)

theorem trail_append (names : List String) (name : String) (row : Json) :
    trail (names ++ [name]) row = trail names row ++ [valueAt name row] := by
  simp [trail]

theorem trail_length (names : List String) (row : Json) :
    (trail names row).length = names.length + 1 := by
  simp [trail]

theorem Rows.filter {names : List String} {rows : List Json} (h : Rows names rows)
    (keep : Json → Bool) : Rows names (rows.filter keep) := by
  refine ⟨fun row hr => h.objects row (List.mem_of_mem_filter hr), ?_⟩
  exact h.apart.sublist (List.filter_sublist.map _)

theorem Rows.descend {names : List String} {base index : String} {rows : List Json}
    {items below : Json → List Json} (h : Rows names rows)
    (hd : ∀ row ∈ rows, Descends names base index (items row) row (below row)) :
    Rows (names ++ [index]) (rows.flatMap below) := by
  constructor
  · intro child hc
    obtain ⟨row, hr, hc⟩ := List.mem_flatMap.1 hc
    exact (hd row hr).objects child hc
  · rw [List.map_flatMap, List.nodup_flatMap]
    constructor
    · intro row hr
      have hpos := (hd row hr).positions
      rw [List.Nodup, List.pairwise_map] at hpos ⊢
      refine hpos.imp fun hne he => hne ?_
      rw [trail_append, trail_append] at he
      exact List.singleton_inj.1 (List.append_inj_right' he rfl)
    · have hap := h.apart
      rw [List.Nodup, List.pairwise_map] at hap
      refine hap.imp_of_mem fun {a b} ha hb hne t hta htb => hne ?_
      obtain ⟨c, hc, rfl⟩ := List.mem_map.1 hta
      obtain ⟨d, hdm, he⟩ := List.mem_map.1 htb
      rw [trail_append, trail_append] at he
      rw [← (hd a ha).trails c hc, ← (hd b hb).trails d hdm]
      exact (List.append_inj_left' he rfl).symm

theorem trail_setField {names : List String} (h : Marks names) {path : String}
    (hr : DataRoot (rootOf path)) (new row : Json) :
    trail names (setField path new row) = trail names row := by
  have hid : rootOf "_id" = "_id" := rootOf_of_not_mem (by decide)
  unfold trail
  rw [valueAt_setField_of_ne (by rw [hid]; exact hr.not_id.symm)]
  congr 1
  refine List.map_congr_left fun name hn => valueAt_setField_of_ne ?_ new row
  rw [(h.index name hn).root]
  exact (h.index name hn).ne_root hr

theorem trail_setField_index {names : List String} (h : Marks names) {index : String}
    (hi : IndexName index) (hfree : index ∉ names) (new row : Json) :
    trail names (setField index new row) = trail names row := by
  have hid : rootOf "_id" = "_id" := rootOf_of_not_mem (by decide)
  unfold trail
  rw [valueAt_setField_of_ne (by rw [hid, hi.root]; exact hi.ne_id.symm)]
  congr 1
  refine List.map_congr_left fun name hn => valueAt_setField_of_ne ?_ new row
  rw [(h.index name hn).root, hi.root]
  exact fun e => hfree (e ▸ hn)

theorem positionValue_injective {i j : Nat} (h : positionValue i = positionValue j) : i = j := by
  unfold positionValue at h
  split at h <;> split at h
  · next hi hj =>
    unfold Json.ofNat Json.ofInt at h
    rw [dif_pos hi, dif_pos hj] at h
    injection h with h
    injection h with h
    exact Int.ofNat_inj.1 h
  · unfold Json.ofNat Json.ofInt at h
    rw [dif_pos ‹_›] at h
    cases h
  · unfold Json.ofNat Json.ofInt at h
    rw [dif_pos ‹_›] at h
    cases h
  · injection h with h
    exact Nat.repr_injective h

theorem nodup_positions {α : Type} (items : List α) :
    (items.mapIdx fun i _ => positionValue i).Nodup := by
  rw [List.Nodup, List.pairwise_iff_getElem]
  intro i j hi hj hlt he
  rw [List.getElem_mapIdx, List.getElem_mapIdx] at he
  exact absurd (positionValue_injective he) (by omega)

section

variable {names : List String} {path index : String} {row : Json}

theorem element_setField_of_ne (hp : path ≠ "") (h : rootOf path ≠ rootOf index)
    (position : Json) : elementAt path (setField index position row) = elementAt path row := by
  rw [elementAt_of_ne hp, elementAt_of_ne hp]
  exact valueAt_setField_of_ne h position row

theorem unwindDoc_array {items : List Json} (h : valueAt path row = .array items) :
    unwindDoc path (some index) row =
      items.mapIdx fun i item => setField index (positionValue i) (setField path item row) := by
  unfold unwindDoc
  rw [h]
  rfl

theorem unwindDoc_null (h : valueAt path row = .null) : unwindDoc path (some index) row = [] := by
  unfold unwindDoc
  rw [h]

theorem unwindDoc_single (h : ∀ items, valueAt path row ≠ .array items)
    (hn : valueAt path row ≠ .null) :
    unwindDoc path (some index) row = [setField index .null row] := by
  unfold unwindDoc
  split
  · next he => exact absurd he (h _)
  · next he => exact absurd he hn
  · rfl

theorem manyOf_single {v : Json} (h : ∀ items, v ≠ .array items) (hn : v ≠ .null) :
    manyOf v = [v] := by
  unfold manyOf
  split
  · exact absurd rfl hn
  · exact absurd rfl (h _)
  · rfl

/-- Unwinding puts rows in place of a row, one for each item, and each holds its item. -/
theorem unwindDoc_elements (hp : path ≠ "") (h : rootOf path ≠ rootOf index)
    (ho : row.isObject = true) :
    (∀ child ∈ unwindDoc path (some index) row, child.isObject = true) ∧
      (unwindDoc path (some index) row).map (elementAt path) = manyOf (valueAt path row) := by
  by_cases harray : ∃ items, valueAt path row = .array items
  · obtain ⟨items, hv⟩ := harray
    rw [unwindDoc_array hv, hv]
    constructor
    · intro child hc
      obtain ⟨i, hlt, rfl⟩ := List.mem_mapIdx.1 hc
      rw [isObject_setField, isObject_setField]
      exact ho
    · refine List.ext_getElem (by simp [manyOf]) fun i h1 h2 => ?_
      rw [List.getElem_map, List.getElem_mapIdx, element_setField_of_ne hp h,
        elementAt_of_ne hp, valueAt_setField_self path _ ho]
      rfl
  · have hno : ∀ items, valueAt path row ≠ .array items := fun items he => harray ⟨items, he⟩
    by_cases hn : valueAt path row = .null
    · rw [unwindDoc_null hn, hn]
      exact ⟨fun _ hc => absurd hc List.not_mem_nil, rfl⟩
    · rw [unwindDoc_single hno hn, manyOf_single hno hn]
      constructor
      · intro child hc
        rw [List.mem_singleton.1 hc, isObject_setField]
        exact ho
      · rw [List.map_singleton, element_setField_of_ne hp h, elementAt_of_ne hp]

theorem unwindDoc_trails (marks : Marks names) (hr : DataRoot (rootOf path))
    (hi : IndexName index) (hfree : index ∉ names) :
    ∀ child ∈ unwindDoc path (some index) row, trail names child = trail names row := by
  intro child hc
  unfold unwindDoc at hc
  split at hc
  · obtain ⟨i, hlt, rfl⟩ := List.mem_mapIdx.1 hc
    exact (trail_setField_index marks hi hfree _ _).trans (trail_setField marks hr _ _)
  · exact absurd hc List.not_mem_nil
  · rw [List.mem_singleton.1 hc]
    exact trail_setField_index marks hi hfree _ _

theorem unwindDoc_positions (ho : row.isObject = true) :
    ((unwindDoc path (some index) row).map (valueAt index)).Nodup := by
  unfold unwindDoc
  split
  · next items _ =>
    have hpositions : (items.mapIdx fun i item => markIndex (some index) (positionValue i)
          (setField path item row)).map (valueAt index) =
        items.mapIdx fun i _ => positionValue i := by
      refine List.ext_getElem (by simp) fun i h1 h2 => ?_
      rw [List.getElem_map, List.getElem_mapIdx, List.getElem_mapIdx]
      exact valueAt_setField_self index _ ((isObject_setField path _ row).trans ho)
    rw [hpositions]
    exact nodup_positions items
  · exact List.nodup_nil
  · exact List.nodup_singleton _

theorem unwind_descends (marks : Marks names) (hp : path ≠ "") (hr : DataRoot (rootOf path))
    (hi : IndexName index) (hfree : index ∉ names) (ho : row.isObject = true) :
    Descends names path index (manyOf (valueAt path row)) row
      (unwindDoc path (some index) row) := by
  have hne : rootOf path ≠ rootOf index := by
    rw [hi.root]
    exact (hi.ne_root hr).symm
  obtain ⟨hobjects, helements⟩ := unwindDoc_elements hp hne ho
  exact ⟨hobjects, helements, unwindDoc_trails marks hr hi hfree, unwindDoc_positions ho⟩

end

def Joining.attached (j : Joining) (collection : String → List Json) (path : String)
    (row : Json) : Json :=
  setField j.output (.array (children collection (.table j.target) (valueAt path row)))
    (setField j.references (.array ((manyOf (valueAt path row)).map asReference)) row)

def Joining.below (j : Joining) (collection : String → List Json) (path : String)
    (row : Json) : List Json :=
  unwindDoc j.output (some j.index) (j.attached collection path row)

theorem matched_references (j : Join) (hid : j.foreignField = "_id") (stored document : Json) :
    j.matched ((manyOf stored).map asReference) document = refersTo stored document := by
  unfold Join.matched refersTo
  rw [hid]
  simp only [List.any_map, Function.comp_def]

theorem attach_references (j : Joining) (collection : String → List Json) (path : String)
    {row : Json} (ho : row.isObject = true) :
    Join.attach ⟨j.target.physicalCollection, j.references, "_id", j.output⟩
        (collection j.target.physicalCollection)
        (projectDoc [(j.references, .toReferences (.field path))] true row) =
      j.attached collection path row := by
  have hproject : projectDoc [(j.references, .toReferences (.field path))] true row =
      setField j.references (.array ((manyOf (valueAt path row)).map asReference)) row := rfl
  unfold Join.attach Joining.attached
  simp only [hproject, valueAt_setField_self _ _ ho, manyOf, children]
  congr 2
  exact List.filter_congr fun document _ => matched_references
    ⟨j.target.physicalCollection, j.references, "_id", j.output⟩ rfl _ document

theorem run_joining (j : Joining) (collection : String → List Json) (path : String)
    {rows : List Json} (ho : ∀ row ∈ rows, row.isObject = true) :
    run collection rows (j.stages path) = rows.flatMap (j.below collection path) := by
  have hattach : (rows.map (projectDoc [(j.references, .toReferences (.field path))] true)).map
      (Join.attach ⟨j.target.physicalCollection, j.references, "_id", j.output⟩
        (collection j.target.physicalCollection)) =
      rows.map (j.attached collection path) := by
    rw [List.map_map]
    exact List.map_congr_left fun row hr => attach_references j collection path (ho row hr)
  calc run collection rows (j.stages path)
      = ((rows.map (projectDoc [(j.references, .toReferences (.field path))] true)).map
          (Join.attach ⟨j.target.physicalCollection, j.references, "_id", j.output⟩
            (collection j.target.physicalCollection))).flatMap
          (unwindDoc j.output (some j.index)) := rfl
    _ = rows.flatMap (j.below collection path) := by
      rw [hattach, List.flatMap_map]
      rfl

theorem isObject_attached (j : Joining) (collection : String → List Json) (path : String)
    (row : Json) : (j.attached collection path row).isObject = row.isObject := by
  unfold Joining.attached
  rw [isObject_setField, isObject_setField]

theorem valueAt_attached (j : Joining) (collection : String → List Json) (path : String)
    {row : Json} (ho : row.isObject = true) :
    valueAt j.output (j.attached collection path row) =
      .array (children collection (.table j.target) (valueAt path row)) := by
  unfold Joining.attached
  refine valueAt_setField_self _ _ ?_
  rw [isObject_setField]
  exact ho

theorem trail_attached {names : List String} (marks : Marks names) {j : Joining}
    (hout : DataRoot (rootOf j.output)) (hrefs : DataRoot (rootOf j.references))
    (collection : String → List Json) (path : String) (row : Json) :
    trail names (j.attached collection path row) = trail names row := by
  unfold Joining.attached
  exact (trail_setField marks hout _ _).trans (trail_setField marks hrefs _ _)

theorem joinOf_descends {names : List String} (marks : Marks names) (level : Nat)
    (target : JoinTarget) (hfree : "_idx_l" ++ toString level ∉ names)
    (collection : String → List Json) (path : String) {row : Json} (ho : row.isObject = true) :
    Descends names ("_joined_l" ++ toString level) ("_idx_l" ++ toString level)
      (children collection (.table target) (valueAt path row)) row
      ((joinOf level target).below collection path row) := by
  have hout : DataRoot (rootOf (joinOf level target).output) := by
    change DataRoot (rootOf ("_joined_l" ++ toString level))
    rw [rootOf_of_not_mem (joinedName_simple level)]
    exact joinedName_root level
  have hrefs : DataRoot (rootOf (joinOf level target).references) := by
    change DataRoot (rootOf ("_refs_l" ++ toString level))
    rw [rootOf_of_not_mem (referencesName_simple level)]
    exact referencesName_root level
  have hd := unwind_descends marks (joinedName_ne_empty level) hout (levelIndex_name level) hfree
    ((isObject_attached (joinOf level target) collection path row).trans ho)
  have hv : valueAt ("_joined_l" ++ toString level)
      ((joinOf level target).attached collection path row) = _ :=
    valueAt_attached (joinOf level target) collection path ho
  have ht := trail_attached marks hout hrefs collection path row
  rw [hv] at hd
  exact ⟨hd.objects, hd.elements, fun child hc => (hd.trails child hc).trans ht, hd.positions⟩

end Indicators.Plan
