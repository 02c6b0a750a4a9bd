import Indicators.Proofs.Plan.Places
import Indicators.Proofs.Plan.Results

set_option autoImplicit false

/-! The stages of rows are written inward and the rollups outward, and they know of each other by
names alone. -/

namespace Indicators.Plan

open Indicators Indicators.Metric Indicators.Pipeline Indicators.Schema

def positionName? : Stage → Option String
  | .unwind _ index => index
  | _ => none

def positionsOf (stages : List Stage) : List String := stages.filterMap positionName?

def groupsOf (stages : List Stage) : List Stage := stages.filter isGroup

/-- The stages of the rows of one level. -/
def levelPart (level : OutlineLevel × Placement) : List Stage :=
  conditionStages level.2.base level.1.conditions ++ level.2.descentStages

def levelParts (o : Outline) (layout : Layout) : List (List Stage) :=
  (o.levels.zip layout.levels).map levelPart

def stagesAbove (o : Outline) (layout : Layout) (k : Nat) : List Stage :=
  layout.sectionStages ++ ((levelParts o layout).take k).flatten

/-- The stages end with the rollup of an operation, which leaves its result under a name. -/
def EndsWriting (op : Operation) (name : String) (stages : List Stage) : Prop :=
  ∃ earlier key operand, stages = earlier ++
    if op = .distinct then
      [.group key [⟨.addToSet, operand, setName⟩], .project [(name, .size (.field setName))] false]
    else [.group key [⟨accumulatorOf op, operand, name⟩]]

def keyNames (key : Option (List (String × Expr))) : List String := (key.getD []).map (·.1)

/-- The group of level `k` of a plan, where `before` are the stages before it. -/
structure LevelGroup (c : Configuration) (layout : Layout) (k : Nat) (l : Level)
    (before : List Stage) (key : Option (List (String × Expr))) (aggregate : Aggregate) :
    Prop where
  func : aggregate.func = accumulatorOf l.operation
  keyed : 0 < k → keyNames key =
    documentName :: positionsOf (stagesAbove (Outline.ofConfiguration c) layout k)
  distinct : (keyNames key).Nodup
  /-- The innermost group reads what its rows hold. -/
  innermost : 0 < k → k + 1 = c.depth → key = some ((documentName, .field "_id") ::
    (positionsOf before).map fun name => (name, .field name))
  /-- Every other group reads its key inside the identifiers that the group just before it left. -/
  shallower : 0 < k → k + 1 < c.depth →
    key = some ((keyNames key).map fun name => (name, .field ("_id." ++ name))) ∧
      (∀ name ∈ keyNames key, segments ("_id." ++ name) = ["_id", name]) ∧
      ∃ keyBelow aggregates, (groupsOf before).getLast? = some (.group keyBelow aggregates) ∧
        keyNames key ⊆ keyNames keyBelow
  operand : counts l.operation = false → ∀ below ∈ c.toList[k + 1]?, ∃ name,
    aggregate.operand = .field name ∧ segments name = [name] ∧
      EndsWriting below.operation name before

theorem positionsOf_append (first second : List Stage) :
    positionsOf (first ++ second) = positionsOf first ++ positionsOf second :=
  List.filterMap_append

theorem positionsOf_sectionStages (layout : Layout) :
    positionsOf layout.sectionStages = layout.sectionUnwindings.map (·.index) := by
  have hfilter : positionsOf (layout.sectionName.map fun name =>
      Stage.filter (.exists name)).toList = [] := by
    cases layout.sectionName <;> rfl
  unfold Layout.sectionStages
  rw [positionsOf_append, hfilter, List.nil_append]
  unfold positionsOf
  rw [List.filterMap_map]
  exact congrFun List.filterMap_eq_map' _

theorem positionsOf_conditionStages (base : String) (conditions : List Condition) :
    positionsOf (conditionStages base conditions) = [] := by
  unfold conditionStages
  split <;> rfl

theorem positionsOf_descentStages (placed : Placement) :
    positionsOf placed.descentStages = placed.descent.index?.toList := by
  unfold Placement.descentStages
  cases placed.descent <;> rfl

theorem positionsOf_levelPart (level : OutlineLevel × Placement) :
    positionsOf (levelPart level) = level.2.descent.index?.toList := by
  unfold levelPart
  rw [positionsOf_append, positionsOf_conditionStages, positionsOf_descentStages, List.nil_append]

theorem positionsOf_levelParts (levels : List (OutlineLevel × Placement)) :
    positionsOf (levels.map levelPart).flatten =
      (levels.map (·.2)).filterMap (·.descent.index?) := by
  induction levels with
  | nil => rfl
  | cons level rest ih =>
    rw [List.map_cons, List.flatten_cons, positionsOf_append, positionsOf_levelPart, ih,
      List.map_cons, List.filterMap_cons]
    cases level.2.descent.index? <;> rfl

theorem length_levels (c : Configuration) : (Outline.ofConfiguration c).levels.length = c.depth := by
  rw [levels_ofConfiguration, outlinesFrom_length, Levels.length_toList]

/-- The positions written above a level are those that its group is keyed on. -/
theorem positionsOf_stagesAbove {c : Configuration} {layout : Layout}
    (h : layout.levels.length = c.depth) (k : Nat) :
    positionsOf (stagesAbove (Outline.ofConfiguration c) layout k) = layout.indexesAbove k := by
  have hlen := length_levels c
  unfold stagesAbove levelParts Layout.indexesAbove
  rw [positionsOf_append, positionsOf_sectionStages, ← List.map_take, positionsOf_levelParts,
    List.map_take, List.map_snd_zip (by omega)]

theorem index?_descentAt (types : FieldTypes) (sectionPath : List String) (levels : List Level)
    (i : Nat) (l : Level) : ∀ name ∈ (descentAt types sectionPath levels i l).index?,
      name = "_idx_l" ++ toString i := by
  unfold descentAt
  split
  · exact nofun
  · cases plannedKind types sectionPath levels i l <;> simp [Descent.index?, joinOf]

theorem levelIndexes_sublist (types : FieldTypes) (sectionPath : List String)
    (levels : List Level) (k : Nat) :
    (((levels.mapIdx (placementAt types sectionPath levels)).take k).filterMap
      (·.descent.index?)).Sublist ((List.range k).map fun i => "_idx_l" ++ toString i) := by
  induction k with
  | zero => exact .slnil
  | succ k ih =>
    rw [List.take_add_one, List.range_succ, List.filterMap_append, List.map_append]
    refine ih.append ?_
    rw [List.getElem?_mapIdx]
    cases levels[k]? with
    | none => exact List.nil_sublist _
    | some l =>
      have hname := index?_descentAt types sectionPath levels k l
      cases h : (descentAt types sectionPath levels k l).index? with
      | none => simp [placementAt, h]
      | some name => simp [placementAt, h, hname name h]

theorem levelIndexes_nodup (k : Nat) :
    ((List.range k).map fun i => "_idx_l" ++ toString i).Nodup :=
  List.nodup_range.map fun _ _ => append_toString_injective

theorem sectionIndexes_eq (sectionPath : List String) :
    (subformUnwindings sectionPath).map (·.index) =
      (List.range (sectionPath.length - 1)).map fun k => "_idx_s" ++ toString (k + 1) := by
  unfold subformUnwindings
  rw [List.map_map]
  rfl

theorem sectionUnwindings_of? {o : Outline} {types : FieldTypes} {sectionPath : List String}
    {layout : Layout} (h : Layout.of? o types sectionPath = .ok layout) :
    layout.sectionUnwindings = subformUnwindings sectionPath := by
  obtain ⟨placements, -, hl⟩ := bind_eq_ok.1 h
  injection hl with hl
  rw [← hl]

theorem marks_indexesAbove {c : Configuration} {types : FieldTypes} {sectionPath : List String}
    {layout : Layout} (h : Layout.of? (Outline.ofConfiguration c) types sectionPath = .ok layout)
    (k : Nat) : Marks (layout.indexesAbove k) := by
  obtain ⟨-, hlevels⟩ := layout_ok h
  have hsection := sectionUnwindings_of? h
  have hsub := levelIndexes_sublist types sectionPath c.toList k
  unfold Layout.indexesAbove
  rw [hlevels, hsection, sectionIndexes_eq]
  constructor
  case index =>
    intro name hname
    rcases List.mem_append.1 hname with hs | hl
    · obtain ⟨i, -, rfl⟩ := List.mem_map.1 hs
      exact sectionIndex_name (i + 1)
    · obtain ⟨i, -, rfl⟩ := List.mem_map.1 (hsub.subset hl)
      exact levelIndex_name i
  case nodup =>
    refine List.Nodup.append ?_ ((levelIndexes_nodup k).sublist hsub) fun name hs hl => ?_
    · exact List.nodup_range.map fun _ _ he => Nat.succ_injective (append_toString_injective he)
    · obtain ⟨i, -, rfl⟩ := List.mem_map.1 hs
      obtain ⟨j, -, he⟩ := List.mem_map.1 (hsub.subset hl)
      exact levelIndex_ne_sectionIndex j (i + 1) he

theorem groupsOf_append (first second : List Stage) :
    groupsOf (first ++ second) = groupsOf first ++ groupsOf second := List.filter_append ..

theorem groupsOf_rowwise {stages : List Stage} (h : ∀ stage ∈ stages, Rowwise stage) :
    groupsOf stages = [] := by
  refine List.filter_eq_nil_iff.2 fun stage hs => ?_
  simpa using not_isGroup (h stage hs)

section

variable (o : Outline) (layout : Layout)

def levelAggregate (k : Nat) (op : Operation) : Aggregate :=
  ⟨accumulatorOf op, o.operand layout k op, if op = .distinct then setName else o.resultKey k⟩

def levelGroup (k : Nat) (op : Operation) : Stage :=
  .group (groupKeyOf layout (o.isInnermost k) k) [levelAggregate o layout k op]

def sizing (k : Nat) (op : Operation) : List Stage :=
  if op = .distinct then [.project [(o.resultKey k, .size (.field setName))] false] else []

theorem rollup_eq (k : Nat) (op : Operation) :
    o.rollup layout k op = levelGroup o layout k op :: sizing o k op := by
  unfold Outline.rollup levelGroup levelAggregate sizing
  split <;> rfl

theorem groupsOf_rollup (k : Nat) (op : Operation) :
    groupsOf (o.rollup layout k op) = [levelGroup o layout k op] := by
  rw [rollup_eq]
  unfold sizing groupsOf
  split <;> rfl

theorem endsWriting_rollup (earlier : List Stage) (k : Nat) (op : Operation) :
    EndsWriting op (o.resultKey k) (earlier ++ o.rollup layout k op) := by
  refine ⟨earlier, groupKeyOf layout (o.isInnermost k) k, o.operand layout k op, ?_⟩
  unfold Outline.rollup
  split
  · next h =>
    subst h
    rfl
  · rfl

theorem length_groupsOf_rollups {rollups : List (List Stage)}
    (h : ∀ rollup ∈ rollups, ∃ level op, rollup = o.rollup layout level op) :
    (groupsOf rollups.flatten).length = rollups.length := by
  induction rollups with
  | nil => rfl
  | cons rollup rest ih =>
    obtain ⟨level, op, rfl⟩ := h rollup List.mem_cons_self
    have hrest := ih fun r hr => h r (List.mem_cons_of_mem _ hr)
    simp [groupsOf_append, groupsOf_rollup, hrest]

end

section

variable {c : Configuration} {layout : Layout}

theorem length_rollups_ofConfiguration (c : Configuration) (layout : Layout) :
    ((Outline.ofConfiguration c).rollups layout).length = c.depth := by
  rw [length_rollups, Outline.depth_ofConfiguration]

theorem rollups_getElem? {k : Nat} {l : Level} (hl : c.toList[k]? = some l) :
    ((Outline.ofConfiguration c).rollups layout)[c.depth - 1 - k]? =
      some ((Outline.ofConfiguration c).rollup layout k l.operation) := by
  have hk : k < c.depth := (List.getElem?_eq_some_iff.1 hl).1
  have hlen : ((Outline.ofConfiguration c).operations.mapIdx
      ((Outline.ofConfiguration c).rollup layout)).length = c.depth := by
    rw [List.length_mapIdx, ← Outline.depth_ofConfiguration]
    rfl
  unfold Outline.rollups
  rw [List.getElem?_reverse (by omega), hlen, List.getElem?_mapIdx,
    show c.depth - 1 - (c.depth - 1 - k) = k by omega]
  change Option.map _ (c.toList.map (·.operation))[k]? = _
  rw [List.getElem?_map, hl]
  rfl

def rollupsBelow (c : Configuration) (layout : Layout) (k : Nat) : List (List Stage) :=
  ((Outline.ofConfiguration c).rollups layout).take (c.depth - 1 - k)

theorem rollupsBelow_innermost {k : Nat} (h : k + 1 = c.depth) : rollupsBelow c layout k = [] := by
  unfold rollupsBelow
  rw [show c.depth - 1 - k = 0 by omega, List.take_zero]

theorem rollupsBelow_succ {k : Nat} {below : Level} (hb : c.toList[k + 1]? = some below) :
    rollupsBelow c layout k = rollupsBelow c layout (k + 1) ++
      [(Outline.ofConfiguration c).rollup layout (k + 1) below.operation] := by
  have hk : k + 1 < c.depth := (List.getElem?_eq_some_iff.1 hb).1
  have hat := @rollups_getElem? c layout (k + 1) below hb
  unfold rollupsBelow
  rw [show c.depth - 1 - k = c.depth - 1 - (k + 1) + 1 by omega, List.take_add_one, hat]
  rfl

theorem flatten_rollups {k : Nat} {l : Level} (hl : c.toList[k]? = some l) :
    ∃ after, ((Outline.ofConfiguration c).rollups layout).flatten =
      (rollupsBelow c layout k).flatten ++
        levelGroup (Outline.ofConfiguration c) layout k l.operation :: after := by
  obtain ⟨hlt, hrollup⟩ := List.getElem?_eq_some_iff.1 (@rollups_getElem? c layout k l hl)
  have hsplit := List.take_append_drop (c.depth - 1 - k) ((Outline.ofConfiguration c).rollups layout)
  rw [List.drop_eq_getElem_cons hlt, hrollup, rollup_eq] at hsplit
  have hflat := congrArg List.flatten hsplit
  rw [List.flatten_append, List.flatten_cons, List.cons_append] at hflat
  exact ⟨_, hflat.symm⟩

theorem length_groupsOf_below (k : Nat) (hk : k < c.depth) :
    (groupsOf (rollupsBelow c layout k).flatten).length = c.depth - 1 - k := by
  have hlen := length_rollups_ofConfiguration c layout
  unfold rollupsBelow
  rw [length_groupsOf_rollups (Outline.ofConfiguration c) layout fun rollup hr =>
    rollup_of_mem _ layout (List.mem_of_mem_take hr), List.length_take]
  omega

theorem keyNames_groupKeyOf (innermost : Bool) {k : Nat} (hk : 0 < k) :
    keyNames (groupKeyOf layout innermost k) = documentName :: layout.indexesAbove k := by
  rw [groupKeyOf_pos layout innermost hk]
  simp [keyNames, List.map_map, Function.comp_def]

end

section

variable {c : Configuration} {types : FieldTypes} {sectionPath : List String} {layout : Layout}

theorem marks_keyNames (h : Layout.of? (Outline.ofConfiguration c) types sectionPath = .ok layout)
    {innermost : Bool} {k : Nat} : (keyNames (groupKeyOf layout innermost k)).Nodup ∧
      ∀ name ∈ keyNames (groupKeyOf layout innermost k), '.' ∉ name.toList := by
  have hmarks := marks_indexesAbove h k
  cases k with
  | zero => exact ⟨.nil, nofun⟩
  | succ above =>
    rw [keyNames_groupKeyOf innermost (Nat.succ_pos above)]
    refine ⟨hmarks.document, fun name hname => ?_⟩
    rcases List.mem_cons.1 hname with rfl | hm
    · decide
    · exact (hmarks.index name hm).simple

theorem indexesAbove_subset (layout : Layout) (k : Nat) :
    layout.indexesAbove k ⊆ layout.indexesAbove (k + 1) := by
  unfold Layout.indexesAbove
  rw [List.take_add_one, List.filterMap_append, ← List.append_assoc]
  exact List.subset_append_left _ _

theorem indexesAbove_innermost
    (h : Layout.of? (Outline.ofConfiguration c) types sectionPath = .ok layout) {k : Nat}
    (hk : k + 1 = c.depth) : layout.indexesAbove c.depth = layout.indexesAbove k := by
  obtain ⟨-, hlevels⟩ := layout_ok h
  have hdescent (l : Level) :
      (placementAt types sectionPath c.toList k l).descent = .innermost := if_pos hk
  unfold Layout.indexesAbove
  rw [← hk, List.take_add_one, List.filterMap_append, hlevels, List.getElem?_mapIdx]
  cases c.toList[k]? <;> simp [hdescent, Descent.index?]

theorem levelGroup_spec
    (h : Layout.of? (Outline.ofConfiguration c) types sectionPath = .ok layout) {k : Nat}
    {l : Level} (hl : c.toList[k]? = some l) {rows : List Stage}
    (hpositions : positionsOf rows = layout.indexesAbove c.depth) :
    LevelGroup c layout k l (rows ++ (rollupsBelow c layout k).flatten)
      (groupKeyOf layout ((Outline.ofConfiguration c).isInnermost k) k)
      (levelAggregate (Outline.ofConfiguration c) layout k l.operation) := by
  have hk : k < c.depth := (List.getElem?_eq_some_iff.1 hl).1
  have hlevels : layout.levels.length = c.depth := by
    rw [(layout_ok h).2, List.length_mapIdx, Levels.length_toList]
  have hin := isInnermost_ofConfiguration c k
  obtain ⟨hdistinct, hsimple⟩ := @marks_keyNames c types sectionPath layout h
    ((Outline.ofConfiguration c).isInnermost k) k
  constructor
  case func => rfl
  case distinct => exact hdistinct
  case keyed =>
    intro hpos
    rw [keyNames_groupKeyOf _ hpos, positionsOf_stagesAbove hlevels]
  case innermost =>
    intro hpos hlast
    have htrue : (Outline.ofConfiguration c).isInnermost k = true := by
      rw [hin, beq_iff_eq]
      exact hlast
    rw [rollupsBelow_innermost hlast, List.flatten_nil, List.append_nil, hpositions,
      indexesAbove_innermost h hlast, groupKeyOf_pos layout _ hpos, htrue]
    rfl
  case shallower =>
    intro hpos hlt
    obtain ⟨below, hb⟩ : ∃ below, c.toList[k + 1]? = some below :=
      ⟨_, List.getElem?_eq_getElem hlt⟩
    have hfalse : (Outline.ofConfiguration c).isInnermost k = false := by
      rw [hin, beq_eq_false_iff_ne]
      exact Nat.ne_of_lt hlt
    refine ⟨?_, fun name hname => segments_inside_id (hsimple name hname),
      groupKeyOf layout ((Outline.ofConfiguration c).isInnermost (k + 1)) (k + 1),
      [levelAggregate (Outline.ofConfiguration c) layout (k + 1) below.operation], ?_, ?_⟩
    · rw [keyNames_groupKeyOf _ hpos, groupKeyOf_pos layout _ hpos, hfalse]
      rfl
    · rw [rollupsBelow_succ hb, List.flatten_append, List.flatten_singleton, ← List.append_assoc,
        groupsOf_append, groupsOf_rollup, List.getLast?_concat]
      rfl
    · rw [keyNames_groupKeyOf _ hpos, keyNames_groupKeyOf _ (Nat.succ_pos k)]
      exact List.cons_subset_cons documentName (indexesAbove_subset layout k)
  case operand =>
    intro hcounts below hb
    have hlt : k + 1 < c.depth := (List.getElem?_eq_some_iff.1 hb).1
    have hfalse : (Outline.ofConfiguration c).isInnermost k = false := by
      rw [hin, beq_eq_false_iff_ne]
      exact Nat.ne_of_lt hlt
    refine ⟨(Outline.ofConfiguration c).resultKey (k + 1), ?_,
      segments_of_not_mem (resultKey_simple _ _), ?_⟩
    · unfold levelAggregate Outline.operand
      rw [hcounts, if_neg Bool.false_ne_true, hfalse, if_neg Bool.false_ne_true]
    · rw [rollupsBelow_succ hb, List.flatten_append, List.flatten_singleton, ← List.append_assoc]
      exact endsWriting_rollup _ layout _ (k + 1) below.operation

end

/-- The stages of the rows of a plan. -/
def rowStages (dates : Option Stage) (c : Configuration) (layout : Layout) : List Stage :=
  dates.toList ++ stagesAbove (Outline.ofConfiguration c) layout c.depth

section

variable {c : Configuration} {layout : Layout}

theorem length_levelParts (h : layout.levels.length = c.depth) :
    (levelParts (Outline.ofConfiguration c) layout).length = c.depth := by
  have hlen := length_levels c
  unfold levelParts
  rw [List.length_map, List.length_zip]
  omega

theorem stagesAbove_depth (h : layout.levels.length = c.depth) :
    stagesAbove (Outline.ofConfiguration c) layout c.depth =
      layout.sectionStages ++ levelStages (Outline.ofConfiguration c) layout := by
  unfold stagesAbove
  rw [List.take_of_length_le (Nat.le_of_eq (length_levelParts h))]
  rfl

theorem compile_rowStages {locator : DateLocator} {schema : Schema} {q : Query}
    (h : compile locator schema c = .ok q) :
    ∃ layout, Layout.of? (Outline.ofConfiguration c) schema.types c.outer.sectionPath = .ok layout ∧
      q.stages =
        rowStages (c.effectiveDateRange.map (dateStage locator schema.types c.outer.sectionPath)) c
          layout ++ ((Outline.ofConfiguration c).rollups layout).flatten := by
  obtain ⟨layout, hl, hq⟩ := bind_eq_ok.1 h
  injection hq with hq
  subst hq
  have hlevels : layout.levels.length = c.depth := by
    rw [(layout_ok hl).2, List.length_mapIdx, Levels.length_toList]
  refine ⟨layout, hl, ?_⟩
  unfold rowStages
  rw [stagesAbove_depth hlevels, ← List.append_assoc]
  rfl

theorem rowStages_rowwise (range : Option DateRange) (locator : DateLocator) (types : FieldTypes)
    (sectionPath : List String) (h : layout.levels.length = c.depth) :
    ∀ stage ∈ rowStages (range.map (dateStage locator types sectionPath)) c layout,
      Rowwise stage := by
  intro stage hs
  unfold rowStages at hs
  rw [stagesAbove_depth h] at hs
  simp only [List.mem_append] at hs
  rcases hs with hs | hs | hs
  · obtain ⟨range, -, rfl⟩ := Option.map_eq_some_iff.1 (Option.mem_toList.1 hs)
    trivial
  · exact sectionStages_rowwise layout stage hs
  · exact levelStages_rowwise _ layout stage hs

theorem positionsOf_rowStages (range : Option DateRange) (locator : DateLocator)
    (types : FieldTypes) (sectionPath : List String) (h : layout.levels.length = c.depth) :
    positionsOf (rowStages (range.map (dateStage locator types sectionPath)) c layout) =
      layout.indexesAbove c.depth := by
  unfold rowStages
  rw [positionsOf_append, positionsOf_stagesAbove h]
  cases range <;> rfl

end

/-- A plan has one group for each level, innermost first. The group of a level is keyed on the
document and all positions written above the level, and every name that it reads is one that the
stages before it wrote. -/
theorem compile_shares_names {locator : DateLocator} {schema : Schema} {c : Configuration}
    {q : Query} (h : compile locator schema c = .ok q) :
    ∃ layout, Layout.of? (Outline.ofConfiguration c) schema.types c.outer.sectionPath = .ok layout ∧
      (levelParts (Outline.ofConfiguration c) layout).length = c.depth ∧
      beforeGroup q.stages =
        (c.effectiveDateRange.map (dateStage locator schema.types c.outer.sectionPath)).toList ++
          stagesAbove (Outline.ofConfiguration c) layout c.depth ∧
      (groupsOf q.stages).length = c.depth ∧
      ∀ (k : Nat) (l : Level), c.toList[k]? = some l → ∃ before key aggregate after,
        q.stages = before ++ .group key [aggregate] :: after ∧
          (groupsOf before).length = c.depth - 1 - k ∧
          LevelGroup c layout k l before key aggregate := by
  obtain ⟨layout, hl, hq⟩ := compile_rowStages h
  have hlevels : layout.levels.length = c.depth := by
    rw [(layout_ok hl).2, List.length_mapIdx, Levels.length_toList]
  have hrows := rowStages_rowwise c.effectiveDateRange locator schema.types c.outer.sectionPath
    hlevels
  have hpositions := positionsOf_rowStages c.effectiveDateRange locator schema.types
    c.outer.sectionPath hlevels
  have hnone := groupsOf_rowwise hrows
  have hbefore := beforeGroup_append hrows (beforeGroup_rollups (Outline.ofConfiguration c) layout)
  refine ⟨layout, hl, length_levelParts hlevels, by rw [hq, hbefore]; rfl, ?_,
    fun k l hat => ?_⟩
  · rw [hq, groupsOf_append, hnone, List.nil_append,
      length_groupsOf_rollups _ layout fun rollup hr => rollup_of_mem _ layout hr,
      length_rollups_ofConfiguration]
  · have hk : k < c.depth := (List.getElem?_eq_some_iff.1 hat).1
    obtain ⟨after, hafter⟩ := @flatten_rollups c layout k l hat
    refine ⟨_, _, _, after, ?_, ?_, levelGroup_spec hl hat hpositions⟩
    · rw [hq, hafter, List.append_assoc]
      rfl
    · rw [groupsOf_append, hnone, List.nil_append, length_groupsOf_below k hk]

def hostingSchema : Schema := ⟨⟨"1", "students", none, []⟩, hostingTypes⟩

def hostingDistinct : Configuration :=
  { hosting with inner := [hosted .max "hosts", hosted .distinct "info.rooms", hosted .average "beds"] }

theorem compile_shares_names_hosting :
    ∃ q layout, compile .sectionWalk hostingSchema hostingDistinct = .ok q ∧
      Layout.of? (Outline.ofConfiguration hostingDistinct) hostingTypes ["mobility", "visits"] =
        .ok layout ∧
      (groupsOf q.stages).length = 4 ∧
      ∃ before key aggregate after, q.stages = before ++ .group key [aggregate] :: after ∧
        (groupsOf before).length = 2 ∧
        LevelGroup hostingDistinct layout 1 (hosted .max "hosts") before key aggregate := by
  obtain ⟨q, hq⟩ : ∃ q, compile .sectionWalk hostingSchema hostingDistinct = .ok q := ⟨_, rfl⟩
  obtain ⟨layout, hl, -, -, hgroups, hlevel⟩ := compile_shares_names hq
  exact ⟨q, layout, hq, hl, hgroups, hlevel 1 _ rfl⟩

end Indicators.Plan
