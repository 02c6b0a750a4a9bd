import Indicators.Proofs.Plan.Nesting
import Indicators.Proofs.Plan.Rollups

set_option autoImplicit false

/-! The invariant of a level on its way through the stages: its rows are objects with trails of
their own, and its element in a row lies at the base of the level. The stages of the level and those
below it leave one document for each row whose element contributes anything, keyed by the trail of
the row. -/

namespace Indicators.Plan

open Indicators Indicators.Metric Indicators.Pipeline Indicators.Schema

/-- Levels from an index on have these places in a layout, and the names for positions above them
are not used again below. -/
structure Placed (types : FieldTypes) (sectionName : Option String) (o : Outline)
    (layout : Layout) (i : Nat) (levels : List Level) (position : Position)
    (placements : List Placement) : Prop where
  depth : i + levels.length = o.depth
  placed : placeLevels types sectionName o.isInnermost position (outlinesFrom i levels) =
    .ok placements
  rest : layout.levels.drop i = placements
  marks : Marks (layout.indexesAbove i)
  free : ∀ k, i ≤ k → "_idx_l" ++ toString k ∉ layout.indexesAbove i

theorem isInnermost_iff {o : Outline} {i : Nat} {l : Level} {inner : List Level}
    (h : i + (l :: inner).length = o.depth) : o.isInnermost i = inner.isEmpty := by
  rw [List.length_cons] at h
  unfold Outline.isInnermost
  cases inner with
  | nil => simpa using h
  | cons next rest =>
    rw [List.length_cons] at h
    simp only [List.isEmpty_cons, beq_eq_false_iff_ne]
    omega

theorem levels_split {layout : Layout} {i : Nat} {here : Placement} {below : List Placement}
    (h : layout.levels.drop i = here :: below) :
    layout.levels[i]? = some here ∧ layout.levels.drop (i + 1) = below ∧
      layout.levels.take (i + 1) = layout.levels.take i ++ [here] := by
  have hget : layout.levels[i]? = some here := by
    rw [← List.head?_drop, h]
    rfl
  refine ⟨hget, ?_, ?_⟩
  · rw [← List.tail_drop, h]
    rfl
  · rw [List.take_add_one, hget]
    rfl

theorem indexesAbove_succ {layout : Layout} {i : Nat} {here : Placement} {index : String}
    (h : layout.levels.take (i + 1) = layout.levels.take i ++ [here])
    (hi : here.descent.index? = some index) :
    layout.indexesAbove (i + 1) = layout.indexesAbove i ++ [index] := by
  unfold Layout.indexesAbove
  rw [h, List.filterMap_append, List.append_assoc]
  congr 2
  rw [List.filterMap_cons, hi]
  rfl

def kindAt (types : FieldTypes) (sectionName : Option String) (position : Position)
    (l : Level) : FieldKind :=
  kindOf types sectionName (pathInside position.schemaBase l.fieldPath)

def Reaches (position : Position) (l : Level) : Prop :=
  ∀ field, l.fieldPath = some field →
    within position.base field ≠ "" ∧ DataRoot (rootOf (within position.base field))

/-- A descent goes to the next position, and puts the rows `below` in place of a row. -/
structure Leads (collection : String → List Json) (types : FieldTypes)
    (sectionName : Option String) (names : List String) (i : Nat) (l : Level)
    (position next : Position) (placed : Placement) (below : Json → List Json) : Prop where
  base_ne : next.base ≠ ""
  root : DataRoot (rootOf next.base)
  index : placed.descent.index? = some ("_idx_l" ++ toString i)
  inside : next.schemaBase =
    if joins (kindAt types sectionName position l) then none
    else pathInside position.schemaBase l.fieldPath
  joined : next.joined = joins (kindAt types sectionName position l)
  run : ∀ rows : List Json, (∀ row ∈ rows, row.isObject = true) →
    run collection rows placed.descentStages = rows.flatMap below
  descends : ∀ row : Json, row.isObject = true →
    Descends names next.base ("_idx_l" ++ toString i)
      (children collection (kindAt types sectionName position l)
        (valueAt (l.fieldPath.getD "") (elementAt position.base row))) row (below row)

section

variable (collection : String → List Json) {types : FieldTypes} {sectionName : Option String}
  {names : List String} {i : Nat} {l : Level} {position next : Position} {descent : Descent}

theorem leads_of_unwind (marks : Marks names) (hfree : "_idx_l" ++ toString i ∉ names)
    {field : String} (hf : l.fieldPath = some field)
    (hp : within position.base field ≠ "") (hr : DataRoot (rootOf (within position.base field)))
    (hk : joins (kindAt types sectionName position l) = false) (kind : FieldKind) :
    Leads collection types sectionName names i l position
      ⟨within position.base field, pathInside position.schemaBase l.fieldPath, false⟩
      ⟨position.base, l.fieldPath.map (within position.base), kind, position.joined,
        .unwind ⟨within position.base field, "_idx_l" ++ toString i⟩⟩
      (unwindDoc (within position.base field) (some ("_idx_l" ++ toString i))) := by
  have hchildren (stored : Json) :
      children collection (kindAt types sectionName position l) stored = manyOf stored := by
    cases h : kindAt types sectionName position l with
    | table target => rw [h] at hk; cases hk
    | _ => rfl
  refine ⟨hp, hr, rfl, by rw [hk, if_neg Bool.false_ne_true], hk.symm, fun rows _ => rfl, ?_⟩
  intro row ho
  rw [hchildren, hf, Option.getD_some, ← valueAt_within]
  exact unwind_descends marks hp hr (levelIndex_name i) hfree ho

theorem leads_of_join (marks : Marks names) (hfree : "_idx_l" ++ toString i ∉ names)
    {field : String} (hf : l.fieldPath = some field) {target : JoinTarget}
    (hk : kindAt types sectionName position l = .table target) (kind : FieldKind) :
    Leads collection types sectionName names i l position
      ⟨"_joined_l" ++ toString i, none, true⟩
      ⟨position.base, l.fieldPath.map (within position.base), kind, position.joined,
        .join (joinOf i target)⟩
      ((joinOf i target).below collection (within position.base field)) := by
  refine ⟨joinedName_ne_empty i, ?_, rfl, by rw [hk]; rfl, by rw [hk]; rfl, ?_, ?_⟩
  · rw [rootOf_of_not_mem (joinedName_simple i)]
    exact joinedName_root i
  · intro rows ho
    rw [hf]
    exact run_joining (joinOf i target) collection (within position.base field) ho
  · intro row ho
    rw [hk, hf, Option.getD_some, ← valueAt_within]
    exact joinOf_descends marks i target hfree collection _ ho

theorem exists_leads (hd : descend types sectionName position (outlineOf i l) = .ok (descent, next))
    (marks : Marks names) (hfree : "_idx_l" ++ toString i ∉ names)
    (hreach : Reaches position l) (kind : FieldKind) :
    ∃ below, Leads collection types sectionName names i l position next
      ⟨position.base, l.fieldPath.map (within position.base), kind, position.joined, descent⟩
      below := by
  obtain ⟨field, hf, hstep⟩ := descend_ok hd
  obtain ⟨hp, hr⟩ := hreach field hf
  cases hk : kindAt types sectionName position l with
  | table target =>
    rw [show kindOf types sectionName (position.schemaPath (outlineOf i l).field) = .table target
      from hk] at hstep
    obtain ⟨rfl, rfl⟩ := hstep
    exact ⟨_, leads_of_join collection marks hfree hf hk kind⟩
  | _ =>
    rw [show kindOf types sectionName (position.schemaPath (outlineOf i l).field) = _
      from hk] at hstep
    obtain ⟨rfl, rfl⟩ := hstep
    exact ⟨_, leads_of_unwind collection marks hfree hf hp hr (by rw [hk]; rfl) kind⟩

end

theorem eval_operand (base : String) (kind : FieldKind) (joined : Bool) (descent : Descent)
    (l : Level) (row : Json) :
    (Placement.operand ⟨base, l.fieldPath.map (within base), kind, joined, descent⟩
        l.operation).eval row =
      operandOf joined l (elementAt base row) := by
  unfold Placement.operand operandOf
  cases l.fieldPath with
  | none => rfl
  | some field =>
    have hsingle : (if joined then
          Expr.coalesce [.firstElement (.field (within base field)), .field (within base field)]
        else .field (within base field)).eval row =
        if joined && !(firstItem (valueAt field (elementAt base row))).isNull then
          firstItem (valueAt field (elementAt base row))
        else valueAt field (elementAt base row) := by
      cases joined with
      | false => simp [Expr.eval, valueAt_within]
      | true =>
        simp only [if_true, Expr.eval, Expr.evalFirst, valueAt_within, Bool.true_and]
        cases (firstItem (valueAt field (elementAt base row))).isNull with
        | false => rfl
        | true =>
          cases valueAt field (elementAt base row) <;> rfl
    simp only [Option.map_some]
    cases l.operation.isNumeric with
    | false => simpa using hsingle
    | true =>
      rw [if_pos rfl, if_pos rfl, Expr.eval, hsingle]

def elementValue (collection : String → List Json) (types : FieldTypes)
    (sectionName : Option String) (position : Position) : List Level → Json → Option Json
  | [], _ => none
  | l :: inner, element =>
    reduced l.operation
      (contributions collection types sectionName position.schemaBase position.joined (l :: inner)
        element)

def rowValues (collection : String → List Json) (types : FieldTypes)
    (sectionName : Option String) (position : Position) (levels : List Level)
    (row : Json) : List Json :=
  contributions collection types sectionName position.schemaBase position.joined levels
    (elementAt position.base row)

theorem flatMap_rowValues (collection : String → List Json) (types : FieldTypes)
    (sectionName : Option String) (position : Position) (levels : List Level)
    (rows : List Json) :
    rows.flatMap (rowValues collection types sectionName position levels) =
      (rows.map (elementAt position.base)).flatMap
        (contributions collection types sectionName position.schemaBase position.joined levels) := by
  rw [List.flatMap_map]
  rfl

/-- Documents in place of rows before the rollup of a level: for each row one for every value
that its element contributes, with the key of the row. -/
structure Blocks (collection : String → List Json) (types : FieldTypes)
    (sectionName : Option String) (o : Outline) (layout : Layout) (i : Nat) (l : Level)
    (inner : List Level) (position : Position) (stages : List Stage) (rows : List Json)
    (block : Json → List Json) : Prop where
  run : run collection rows stages = rows.flatMap block
  operands : ∀ row ∈ rows,
    (block row).map ((o.operand layout i l.operation).eval ·) =
      (rowValues collection types sectionName position (l :: inner) row).map (counted l.operation)
  keys : 0 < i → ∀ row ∈ rows, ∀ doc ∈ block row,
    groupKey (groupKeyOf layout (o.isInnermost i) i) doc = keyOf (layout.indexesAbove i) row

section

variable {collection : String → List Json} {types : FieldTypes} {sectionName : Option String}
  {o : Outline} {layout : Layout} {i : Nat} {l : Level} {inner : List Level}
  {position next : Position} {placements : List Placement} {here : Placement}

theorem blocks_innermost (hin : o.isInnermost i = true) {kind : FieldKind}
    (hget : layout.levels[i]? = some
      ⟨position.base, l.fieldPath.map (within position.base), kind, position.joined, .innermost⟩)
    (rows : List Json) :
    Blocks collection types sectionName o layout i l [] position
      (conditionStages position.base l.conditions) rows
      fun row => if l.conditions.all (meets · (elementAt position.base row)) then [row] else [] := by
  refine ⟨?_, ?_, ?_⟩
  · rw [run_conditionStages, ← filter_flatMap_single _ fun row => [row], List.flatMap_singleton']
  · intro row _
    have hop : (o.operand layout i l.operation).eval row =
        counted l.operation (operandOf position.joined l (elementAt position.base row)) := by
      unfold Outline.operand counted innermostOperand
      rw [hin, hget]
      cases counts l.operation with
      | true => rfl
      | false => exact eval_operand _ _ _ _ l row
    unfold rowValues contributions
    split
    · rw [List.map_singleton, List.map_singleton, hop]
    · rfl
  · intro hi row _ doc hd
    rw [hin, groupKey_row layout hi]
    split at hd
    · rw [List.mem_singleton.1 hd]
    · exact absurd hd List.not_mem_nil

theorem rowValues_cons {below : Json → List Json} {names : List String} (hne : inner ≠ [])
    (h : Leads collection types sectionName names i l position next here below) {row : Json}
    (ho : row.isObject = true) :
    rowValues collection types sectionName position (l :: inner) row =
      if l.conditions.all (meets · (elementAt position.base row)) then
        (below row).filterMap fun child =>
          elementValue collection types sectionName next inner (elementAt next.base child)
      else [] := by
  cases inner with
  | nil => exact absurd rfl hne
  | cons following rest =>
    unfold rowValues
    rw [contributions]
    split
    · have helements := (h.descends row ho).elements
      have hinside := h.inside
      have hjoined := h.joined
      unfold kindAt at helements hinside hjoined
      dsimp only
      rw [← hinside, ← hjoined, ← helements, List.filterMap_map]
      rfl
    · rfl

def settled (collection : String → List Json) (types : FieldTypes) (sectionName : Option String)
    (o : Outline) (layout : Layout) (i : Nat) (levels : List Level) (position : Position)
    (rows : List Json) : List Json :=
  rows.filterMap fun row =>
    (elementValue collection types sectionName position levels (elementAt position.base row)).map
      (levelDoc (o.resultKey i) (keyOf (layout.indexesAbove i) row))

theorem mem_settled {levels : List Level} {rows : List Json} {doc : Json}
    (h : doc ∈ settled collection types sectionName o layout i levels position rows) :
    ∃ row ∈ rows, ∃ value,
      doc = levelDoc (o.resultKey i) (keyOf (layout.indexesAbove i) row) value := by
  obtain ⟨row, hr, hv⟩ := List.mem_filterMap.1 h
  obtain ⟨value, -, he⟩ := Option.map_eq_some_iff.1 hv
  exact ⟨row, hr, value, he.symm⟩

/-- On any other level the block of a kept row is what the levels below make of its children. -/
theorem blocks_between {below : Json → List Json} {stages : List Stage} {rows : List Json}
    (hin : o.isInnermost i = false) (hne : inner ≠ [])
    (h : Leads collection types sectionName (layout.indexesAbove i) i l position next here below)
    (habove : layout.indexesAbove (i + 1) = layout.indexesAbove i ++ ["_idx_l" ++ toString i])
    (marks : Marks (layout.indexesAbove (i + 1))) (hrows : Rows (layout.indexesAbove i) rows)
    (ih : ∀ rows, Rows (layout.indexesAbove (i + 1)) rows → run collection rows stages =
      settled collection types sectionName o layout (i + 1) inner next rows) :
    Blocks collection types sectionName o layout i l inner position
      (conditionStages position.base l.conditions ++ here.descentStages ++ stages) rows
      fun row => if l.conditions.all (meets · (elementAt position.base row)) then
        settled collection types sectionName o layout (i + 1) inner next (below row) else [] := by
  refine ⟨?_, ?_, ?_⟩
  -- The levels below settle the rows that the kept ones descend to.
  · have hkept := hrows.filter fun row => l.conditions.all (meets · (elementAt position.base row))
    have hbelow := hkept.descend fun row hr => h.descends row (hkept.objects row hr)
    rw [← habove] at hbelow
    rw [run_append, run_append, run_conditionStages, h.run _ hkept.objects, ih _ hbelow]
    unfold settled
    rw [List.filterMap_flatMap, ← filter_flatMap_single]
  -- A settled document holds the value of one child as its result.
  · intro row hr
    have hop (key value : Json) : (o.operand layout i l.operation).eval
        (levelDoc (o.resultKey (i + 1)) key value) = counted l.operation value := by
      unfold Outline.operand counted
      rw [hin]
      cases counts l.operation with
      | true => rfl
      | false => exact valueAt_levelDoc (resultKey_simple o (i + 1)) key value
    rw [rowValues_cons hne h (hrows.objects row hr)]
    split
    · unfold settled
      rw [List.map_filterMap, List.map_filterMap]
      refine List.filterMap_congr fun child _ => ?_
      rw [Option.map_map]
      congr 1
      funext value
      exact hop _ value
    · rfl
  -- Its key is that of a row below, and those have the trail of this row.
  · intro hi row hr doc hd
    split at hd
    · obtain ⟨child, hc, value, rfl⟩ := mem_settled hd
      rw [hin, groupKey_doc layout hi marks (fun name hn => by
          rw [habove]
          exact List.mem_append_left _ hn)
        (member?_levelDoc_id (resultKey_ne_id o (i + 1)) _ value)]
      exact keyOf_congr ((h.descends row (hrows.objects row hr)).trails child hc)
    · exact absurd hd List.not_mem_nil

theorem isEmpty_block {stages : List Stage} {rows : List Json} {block : Json → List Json}
    (h : Blocks collection types sectionName o layout i l inner position stages rows block)
    {row : Json} (hr : row ∈ rows) :
    (block row).isEmpty =
      (rowValues collection types sectionName position (l :: inner) row).isEmpty := by
  have hlen := congrArg List.isEmpty (h.operands row hr)
  rwa [List.isEmpty_map, List.isEmpty_map] at hlen

theorem blocks_rollup {stages : List Stage} {rows : List Json} {block : Json → List Json}
    (h : Blocks collection types sectionName o layout i l inner position stages rows block)
    (hi : 0 < i) (marks : Marks (layout.indexesAbove i)) (hrows : Rows (layout.indexesAbove i) rows) :
    run collection rows (stages ++ o.rollup layout i l.operation) =
      settled collection types sectionName o layout i (l :: inner) position rows := by
  rw [run_append, h.run, run_rollup, buckets_flatMap (h.keys hi) (hrows.keys marks), List.map_map,
    ← List.filterMap_eq_map, List.filterMap_filter]
  refine List.filterMap_congr fun row hr => ?_
  unfold elementValue reduced
  rw [isEmpty_block h hr]
  change _ = Option.map _ (if List.isEmpty (rowValues collection types sectionName position
    (l :: inner) row) then none else some (reduction l.operation
      (rowValues collection types sectionName position (l :: inner) row)))
  cases he : List.isEmpty (rowValues collection types sectionName position (l :: inner) row) with
  | true => rfl
  | false =>
    simp only [Bool.not_false, if_true, Bool.false_eq_true, if_false, Option.map_some,
      Function.comp_apply]
    rw [h.operands row hr, rollupResult_counted]

theorem run_outermost {op : Operation} {docs values : List Json}
    (h : docs.map ((o.operand layout 0 op).eval ·) = values.map (counted op)) :
    run collection docs (o.rollup layout 0 op) = resultDocs (reduced op values) := by
  have hone : buckets (groupKey none) docs = if docs.isEmpty then [] else [(.null, docs)] := by
    have hb := @buckets_append (groupKey none) .null docs [] (fun _ _ => rfl)
      (fun _ h => absurd h List.not_mem_nil)
    rw [List.append_nil] at hb
    exact hb.trans (List.append_nil _)
  have hempty : docs.isEmpty = values.isEmpty := by
    have hi := congrArg List.isEmpty h
    rwa [List.isEmpty_map, List.isEmpty_map] at hi
  rw [run_rollup, groupKeyOf, hone]
  unfold resultDocs reduced
  rw [← hempty]
  cases docs.isEmpty with
  | true => rfl
  | false =>
    rw [if_neg Bool.false_ne_true, if_neg Bool.false_ne_true, List.map_singleton, h,
      rollupResult_counted]
    exact congrArg (fun doc => [doc]) (levelDoc_result _)

theorem reaches_of_base (hne : position.base ≠ "") (hr : DataRoot (rootOf position.base))
    (l : Level) : Reaches position l := by
  intro field _
  refine ⟨within_ne_empty hne field, ?_⟩
  rw [rootOf_within hne]
  exact hr

theorem Placed.below {descent : Descent} {kind : FieldKind}
    (h : Placed types sectionName o layout i (l :: inner) position
      (⟨position.base, l.fieldPath.map (within position.base), kind, position.joined, descent⟩ ::
        placements))
    (hplaced : placeLevels types sectionName o.isInnermost next (outlinesFrom (i + 1) inner) =
      .ok placements)
    (hindex : descent.index? = some ("_idx_l" ++ toString i)) :
    layout.indexesAbove (i + 1) = layout.indexesAbove i ++ ["_idx_l" ++ toString i] ∧
      Placed types sectionName o layout (i + 1) inner next placements := by
  obtain ⟨-, hrest, htake⟩ := levels_split h.rest
  have habove := indexesAbove_succ htake hindex
  have hdepth := h.depth
  rw [List.length_cons] at hdepth
  refine ⟨habove, by omega, hplaced, hrest, ?_, ?_⟩
  · rw [habove]
    exact h.marks.append (levelIndex_name i) (h.free i (Nat.le_refl i))
  · intro k hk hm
    rw [habove] at hm
    rcases List.mem_append.1 hm with hm | hm
    · exact h.free k (by omega) hm
    · have he := append_toString_injective (List.mem_singleton.1 hm)
      omega

/-- Wherever levels are placed on data, their stages leave one document for each row whose element
has a value. -/
def Settles (collection : String → List Json) (types : FieldTypes) (sectionName : Option String)
    (o : Outline) (layout : Layout) (i : Nat) (levels : List Level) : Prop :=
  ∀ (position : Position) (placements : List Placement) (rows : List Json),
    Placed types sectionName o layout i levels position placements → position.base ≠ "" →
    DataRoot (rootOf position.base) → Rows (layout.indexesAbove i) rows →
    run collection rows (stagesFrom o layout ((outlinesFrom i levels).zip placements)) =
      settled collection types sectionName o layout i levels position rows

theorem exists_blocks
    (h : Placed types sectionName o layout i (l :: inner) position placements)
    (hreach : Reaches position l)
    (ih : inner ≠ [] → Settles collection types sectionName o layout (i + 1) inner) :
    ∃ stages,
      stagesFrom o layout ((outlinesFrom i (l :: inner)).zip placements) =
        stages ++ o.rollup layout i l.operation ∧
      ∀ rows, Rows (layout.indexesAbove i) rows → ∃ block,
        Blocks collection types sectionName o layout i l inner position stages rows block := by
  obtain ⟨descent, next, below, hdescent, hplaced, rfl⟩ := placeLevels_cons h.placed
  have hin := isInnermost_iff h.depth
  change (if o.isInnermost i = true then _ else _) at hdescent
  cases inner with
  | nil =>
    rw [hin, List.isEmpty_nil, if_pos rfl] at hdescent
    subst hdescent
    refine ⟨_, ?_, fun rows _ => ⟨_, blocks_innermost hin (levels_split h.rest).1 rows⟩⟩
    rw [outlinesFrom, List.zip_cons_cons, stagesFrom, outlinesFrom, List.zip_nil_left, stagesFrom,
      Placement.descentStages, List.append_nil, List.append_nil]
    rfl
  | cons following rest =>
    rw [hin, List.isEmpty_cons, if_neg Bool.false_ne_true] at hdescent
    have hfree := h.free i (Nat.le_refl i)
    obtain ⟨rowsBelow, hleads⟩ := exists_leads collection hdescent h.marks hfree hreach
      (kindOf types sectionName (position.schemaPath (outlineOf i l).field))
    obtain ⟨habove, hnext⟩ := h.below hplaced hleads.index
    refine ⟨_, rfl, fun rows hrows => ⟨_, blocks_between hin (List.cons_ne_nil _ _) hleads habove
      hnext.marks hrows ?_⟩⟩
    intro rows hr
    exact ih (List.cons_ne_nil _ _) next below rows hnext hleads.base_ne hleads.root hr

theorem settles (levels : List Level) (hne : levels ≠ []) (hi : 0 < i) :
    Settles collection types sectionName o layout i levels := by
  -- Only a level that is not the innermost one asks for the claim about those below it.
  induction levels generalizing i with
  | nil => exact absurd rfl hne
  | cons l inner ih =>
    intro position placements rows h hbase hroot hrows
    obtain ⟨stages, hstages, hblocks⟩ :=
      exists_blocks h (reaches_of_base hbase hroot l) fun hin => ih hin (Nat.succ_pos i)
    obtain ⟨block, hblock⟩ := hblocks rows hrows
    rw [hstages]
    exact blocks_rollup hblock hi h.marks hrows

theorem exists_operands (collection : String → List Json)
    (h : Placed types sectionName o layout 0 (l :: inner) position placements)
    (hreach : Reaches position l) :
    ∃ stages,
      stagesFrom o layout ((outlinesFrom 0 (l :: inner)).zip placements) =
        stages ++ o.rollup layout 0 l.operation ∧
      ∀ rows, Rows (layout.indexesAbove 0) rows →
        (run collection rows stages).map ((o.operand layout 0 l.operation).eval ·) =
          (rows.flatMap (rowValues collection types sectionName position (l :: inner))).map
            (counted l.operation) := by
  have below (hin : inner ≠ []) : Settles collection types sectionName o layout 1 inner :=
    settles inner hin Nat.one_pos
  obtain ⟨stages, hstages, hblocks⟩ := exists_blocks h hreach below
  refine ⟨stages, hstages, fun rows hrows => ?_⟩
  obtain ⟨block, hblock⟩ := hblocks rows hrows
  rw [hblock.run, List.map_flatMap, List.map_flatMap]
  exact List.flatMap_congr hblock.operands

end

end Indicators.Plan
