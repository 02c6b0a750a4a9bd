import Indicators.Plan.Compile
import Indicators.Proofs.Metric.Validation
import Mathlib.Data.List.Basic

set_option autoImplicit false

/-! The flat stages of a plan read as brackets: the filter and the descent of a level, everything
that belongs to the levels below it, and the rollup of the level. -/

namespace Indicators.Plan

open Indicators Indicators.Metric Indicators.Pipeline Indicators.Schema

def outlineOf (index : Nat) (l : Level) : OutlineLevel :=
  ⟨index, l.fieldPath, l.operation, l.conditions⟩

def outlinesFrom (index : Nat) : List Level → List OutlineLevel
  | [] => []
  | l :: inner => outlineOf index l :: outlinesFrom (index + 1) inner

theorem level?_ofConfiguration (c : Configuration) (index : Nat) :
    (Outline.ofConfiguration c).level? index = (c.toList[index]?).map (outlineOf index) := by
  unfold Outline.level? Outline.ofConfiguration
  simp only [List.getElem?_map]
  cases c.toList[index]? <;> rfl

theorem filterMap_range_outlines (levels : List Level) (k : Nat) :
    (List.range levels.length).filterMap (fun i => (levels[i]?).map (outlineOf (k + i))) =
      outlinesFrom k levels := by
  induction levels generalizing k with
  | nil => rfl
  | cons l inner ih =>
    rw [List.length_cons, List.range_succ_eq_map, List.filterMap_cons, List.filterMap_map,
      outlinesFrom, ← ih (k + 1)]
    simp only [List.getElem?_cons_zero, Option.map_some, Nat.add_zero]
    congr 2
    funext i
    rw [Function.comp_apply, List.getElem?_cons_succ, Nat.succ_eq_add_one, Nat.add_right_comm,
      Nat.add_assoc]

theorem levels_ofConfiguration (c : Configuration) :
    (Outline.ofConfiguration c).levels = outlinesFrom 0 c.toList := by
  have h := filterMap_range_outlines c.toList 0
  simp only [Nat.zero_add] at h
  unfold Outline.levels
  rw [Outline.depth_ofConfiguration, ← Levels.length_toList, ← h]
  congr 1
  funext i
  exact level?_ofConfiguration c i

theorem mapIdx_operations {α : Type} (levels : List Level) (k : Nat)
    (f : Nat → Operation → α) :
    (levels.map (·.operation)).mapIdx (fun i => f (k + i)) =
      (outlinesFrom k levels).map fun l => f l.index l.operation := by
  induction levels generalizing k with
  | nil => rfl
  | cons l inner ih =>
    rw [List.map_cons, List.mapIdx_cons, outlinesFrom, List.map_cons, ← ih (k + 1)]
    congr 2
    funext i
    rw [Nat.add_right_comm, Nat.add_assoc]

theorem outlinesFrom_length (levels : List Level) (k : Nat) :
    (outlinesFrom k levels).length = levels.length := by
  have h := congrArg List.length (mapIdx_operations levels k fun i _ => i)
  simpa using h.symm

theorem placeLevels_cons {types : FieldTypes} {sectionName : Option String}
    {isInnermost : Nat → Bool} {position : Position} {level : OutlineLevel}
    {rest : List OutlineLevel} {placements : List Placement}
    (h : placeLevels types sectionName isInnermost position (level :: rest) = .ok placements) :
    ∃ descent next below,
      (if isInnermost level.index then descent = .innermost
        else descend types sectionName position level = .ok (descent, next)) ∧
      placeLevels types sectionName isInnermost next rest = .ok below ∧
      placements =
        ⟨position.base, level.field.map (within position.base),
          kindOf types sectionName (position.schemaPath level.field), position.joined,
          descent⟩ :: below := by
  rw [placeLevels] at h
  split at h
  · next hin =>
    cases hb : placeLevels types sectionName isInnermost { position with joined := false } rest with
    | error e => simp [hb, bind, Except.bind, pure, Except.pure] at h
    | ok below =>
      simp only [hb, bind, Except.bind, pure, Except.pure, Except.ok.injEq] at h
      exact ⟨.innermost, _, below, by rw [if_pos hin], hb, h.symm⟩
  · next hin =>
    cases hd : descend types sectionName position level with
    | error e => simp [hd, bind, Except.bind] at h
    | ok step =>
      obtain ⟨descent, next⟩ := step
      cases hb : placeLevels types sectionName isInnermost next rest with
      | error e => simp [hd, hb, bind, Except.bind] at h
      | ok below =>
        simp only [hd, hb, bind, Except.bind, pure, Except.pure, Except.ok.injEq] at h
        exact ⟨descent, next, below, by rw [if_neg hin], hb, h.symm⟩

theorem placeLevels_length {types : FieldTypes} {sectionName : Option String}
    {isInnermost : Nat → Bool} {levels : List OutlineLevel} {position : Position}
    {placements : List Placement}
    (h : placeLevels types sectionName isInnermost position levels = .ok placements) :
    placements.length = levels.length := by
  induction levels generalizing position placements with
  | nil =>
    injection h with h
    rw [← h]
    rfl
  | cons level rest ih =>
    obtain ⟨descent, next, below, -, hb, rfl⟩ := placeLevels_cons h
    rw [List.length_cons, List.length_cons, ih hb]

theorem descend_ok {types : FieldTypes} {sectionName : Option String} {position next : Position}
    {level : OutlineLevel} {descent : Descent}
    (h : descend types sectionName position level = .ok (descent, next)) :
    ∃ field, level.field = some field ∧
      match kindOf types sectionName (position.schemaPath level.field) with
      | .table target =>
        descent = .join (joinOf level.index target) ∧
          next = ⟨"_joined_l" ++ toString level.index, none, true⟩
      | _ =>
        descent = .unwind ⟨within position.base field, "_idx_l" ++ toString level.index⟩ ∧
          next = ⟨within position.base field, position.schemaPath level.field, false⟩ := by
  unfold descend at h
  cases hf : level.field with
  | none => rw [hf] at h; cases h
  | some field =>
    rw [hf] at h
    refine ⟨field, rfl, ?_⟩
    dsimp only at h ⊢
    split at h
    · cases h
    · cases hk : kindOf types sectionName (position.schemaPath (some field)) with
      | table target =>
        rw [hk] at h
        injection h with h
        injection h with hd hn
        exact ⟨hd.symm, hn.symm⟩
      | scalar | date | subform =>
        rw [hk] at h
        injection h with h
        injection h with hd hn
        exact ⟨hd.symm, hn.symm⟩

theorem mem_sectionStages {layout : Layout} {stage : Stage} (h : stage ∈ layout.sectionStages) :
    (∃ name, stage = .filter (.exists name)) ∨ ∃ path index, stage = .unwind path index := by
  rcases List.mem_append.1 h with h | h
  · obtain ⟨name, -, rfl⟩ := Option.map_eq_some_iff.1 (Option.mem_toList.1 h)
    exact .inl ⟨name, rfl⟩
  · obtain ⟨step, -, rfl⟩ := List.mem_map.1 h
    exact .inr ⟨step.path, some step.index, rfl⟩

theorem mem_descentStages {placed : Placement} {stage : Stage} (h : stage ∈ placed.descentStages) :
    (∃ path index, stage = .unwind path index) ∨ (∃ spec, stage = .join spec) ∨
      ∃ name path, stage = .project [(name, .toReferences (.field path))] true := by
  unfold Placement.descentStages at h
  split at h
  · exact absurd h List.not_mem_nil
  · exact .inl ⟨_, _, List.mem_singleton.1 h⟩
  · simp only [Joining.stages, List.mem_cons, List.not_mem_nil, or_false] at h
    rcases h with rfl | rfl | rfl
    · exact .inr (.inr ⟨_, _, rfl⟩)
    · exact .inr (.inl ⟨_, rfl⟩)
    · exact .inl ⟨_, _, rfl⟩

theorem mem_levelStages {o : Outline} {layout : Layout} {stage : Stage}
    (h : stage ∈ levelStages o layout) :
    (∃ base conditions, stage ∈ conditionStages base conditions) ∨
      ∃ placed : Placement, stage ∈ placed.descentStages := by
  obtain ⟨⟨level, placed⟩, -, h⟩ := List.mem_flatMap.1 h
  exact (List.mem_append.1 h).imp (fun h => ⟨_, _, h⟩) fun h => ⟨placed, h⟩

def stagesFrom (o : Outline) (layout : Layout) : List (OutlineLevel × Placement) → List Stage
  | [] => []
  | (level, placed) :: rest =>
    conditionStages placed.base level.conditions ++ placed.descentStages ++
      stagesFrom o layout rest ++ o.rollup layout level.index level.operation

theorem flatMap_append_rollups (o : Outline) (layout : Layout)
    (pairs : List (OutlineLevel × Placement)) :
    (pairs.flatMap fun p => conditionStages p.2.base p.1.conditions ++ p.2.descentStages) ++
        ((pairs.map fun p => o.rollup layout p.1.index p.1.operation).reverse.flatten) =
      stagesFrom o layout pairs := by
  induction pairs with
  | nil => rfl
  | cons p rest ih =>
    rw [stagesFrom, ← ih]
    simp only [List.flatMap_cons, List.map_cons, List.reverse_cons, List.flatten_append,
      List.flatten_cons, List.flatten_nil, List.append_nil, List.append_assoc]

theorem levelStages_rollupStages (c : Configuration) {layout : Layout}
    (h : layout.levels.length = c.toList.length) :
    levelStages (Outline.ofConfiguration c) layout ++
        rollupStages (Outline.ofConfiguration c) layout =
      stagesFrom (Outline.ofConfiguration c) layout
        ((outlinesFrom 0 c.toList).zip layout.levels) := by
  have hlen := outlinesFrom_length c.toList 0
  have hroll : (Outline.ofConfiguration c).operations.mapIdx
        ((Outline.ofConfiguration c).rollup layout) =
      ((outlinesFrom 0 c.toList).zip layout.levels).map fun p =>
        (Outline.ofConfiguration c).rollup layout p.1.index p.1.operation := by
    have hi := mapIdx_operations c.toList 0 ((Outline.ofConfiguration c).rollup layout)
    simp only [Nat.zero_add] at hi
    have hz : (outlinesFrom 0 c.toList) =
        ((outlinesFrom 0 c.toList).zip layout.levels).map (·.1) :=
      (List.map_fst_zip (by omega)).symm
    refine hi.trans ?_
    conv_lhs => rw [hz]
    rw [List.map_map]
    rfl
  rw [← flatMap_append_rollups, ← hroll, ← levels_ofConfiguration]
  rfl

/-- A rollup reads the fields and the operations of an outline, not its conditions. -/
theorem rollup_congr {o o' : Outline} (hf : o.fields = o'.fields)
    (ho : o.operations = o'.operations) (layout : Layout) (level : Nat) (op : Operation) :
    o.rollup layout level op = o'.rollup layout level op := by
  have hkey (k : Nat) : o.resultKey k = o'.resultKey k := by
    cases k with
    | zero => rfl
    | succ above => rw [Outline.resultKey, Outline.resultKey, hf]
  unfold Outline.rollup Outline.operand Outline.isInnermost Outline.depth
  simp only [hkey, ho]

theorem stagesFrom_congr {o o' : Outline} (hf : o.fields = o'.fields)
    (ho : o.operations = o'.operations) (layout : Layout)
    (pairs : List (OutlineLevel × Placement)) :
    stagesFrom o layout pairs = stagesFrom o' layout pairs := by
  induction pairs with
  | nil => rfl
  | cons p rest ih => rw [stagesFrom, stagesFrom, ih, rollup_congr hf ho]

def startOf (sectionPath : List String) : Position :=
  ⟨dotted sectionPath, some (dotted (sectionPath.drop 1)), false⟩

def layoutOf (sectionPath : List String) (placements : List Placement) : Layout :=
  ⟨sectionPath.head?, subformUnwindings sectionPath, placements⟩

/-- The stages of a plan: dates, section, and the nested levels in their places. -/
theorem compile_ok {locator : DateLocator} {schema : Schema} {c : Configuration} {q : Query}
    (h : compile locator schema c = .ok q) :
    ∃ placements : List Placement,
      placeLevels schema.types c.outer.sectionPath.head? (Outline.ofConfiguration c).isInnermost
        (startOf c.outer.sectionPath) (outlinesFrom 0 c.toList) = .ok placements ∧
      q.collection = schema.template.physicalCollection ∧
      q.stages =
        (c.effectiveDateRange.map
          (dateStage locator schema.types c.outer.sectionPath)).toList ++
        (layoutOf c.outer.sectionPath placements).sectionStages ++
        stagesFrom (Outline.ofConfiguration c) (layoutOf c.outer.sectionPath placements)
          ((outlinesFrom 0 c.toList).zip placements) := by
  unfold compile Layout.of? at h
  dsimp only at h
  rw [levels_ofConfiguration] at h
  change (do
    let layout ← (do
      let levels ← placeLevels schema.types c.outer.sectionPath.head?
        (Outline.ofConfiguration c).isInnermost (startOf c.outer.sectionPath)
        (outlinesFrom 0 c.toList)
      pure (layoutOf c.outer.sectionPath levels))
    pure _) = _ at h
  obtain ⟨layout, hl, h⟩ := bind_eq_ok.1 h
  obtain ⟨placements, hp, hl⟩ := bind_eq_ok.1 hl
  injection hl with hl
  injection h with h
  subst hl h
  have hlen : (layoutOf c.outer.sectionPath placements).levels.length = c.toList.length :=
    (placeLevels_length hp).trans (outlinesFrom_length c.toList 0)
  refine ⟨placements, hp, rfl, ?_⟩
  change _ ++ levelStages _ _ ++ rollupStages _ _ = _
  rw [List.append_assoc, levelStages_rollupStages c hlen]
  rfl

theorem compile_of_places {locator : DateLocator} {schema : Schema} {c : Configuration}
    {placements : List Placement}
    (h : placeLevels schema.types c.outer.sectionPath.head? (Outline.ofConfiguration c).isInnermost
      (startOf c.outer.sectionPath) (outlinesFrom 0 c.toList) = .ok placements) :
    ∃ q, compile locator schema c = .ok q := by
  unfold startOf at h
  simp only [compile, Layout.of?, levels_ofConfiguration, h]
  exact ⟨_, rfl⟩

end Indicators.Plan
