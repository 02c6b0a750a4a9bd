import Indicators.Proofs.Plan.Correctness
import Indicators.Proofs.Plan.SharedNames

set_option autoImplicit false

/-! Every descent adds the name of its position to the names by which rows are told apart, so no two
rows agree on the identifier and all positions, and the innermost group takes its rows one by one.
-/

namespace Indicators.Plan

open Indicators Indicators.Metric Indicators.Pipeline Indicators.Schema

theorem buckets_of_nodup {key : Json → Json} {docs : List Json} (h : (docs.map key).Nodup) :
    buckets key docs = docs.map fun doc => (key doc, [doc]) := by
  have hkey : ∀ p ∈ docs, ∀ doc ∈ [p], key doc = key p :=
    fun p _ doc hd => congrArg key (List.mem_singleton.1 hd)
  have hblocks := buckets_flatMap hkey h
  rw [List.flatMap_singleton'] at hblocks
  simpa using hblocks

section

variable (collection : String → List Json) {types : FieldTypes} {sectionName : Option String}
  {o : Outline} {layout : Layout} {i : Nat} {position next : Position}
  {placements : List Placement}

/-- One level keeps some of its rows and replaces each by rows with one more position. -/
theorem run_levelPart {l : Level} {here : Placement} {below : Json → List Json} {rows : List Json}
    (h : Leads collection types sectionName (layout.indexesAbove i) i l position next here below)
    (hbase : here.base = position.base)
    (habove : layout.indexesAbove (i + 1) = layout.indexesAbove i ++ ["_idx_l" ++ toString i])
    (hrows : Rows (layout.indexesAbove i) rows) :
    Rows (layout.indexesAbove (i + 1))
      (run collection rows (levelPart (outlineOf i l, here))) := by
  have hkept := hrows.filter fun row => l.conditions.all (meets · (elementAt position.base row))
  change Rows _ (run collection rows (conditionStages here.base l.conditions ++ here.descentStages))
  rw [run_append, hbase, run_conditionStages, h.run _ hkept.objects, habove]
  exact hkept.descend fun row hr => h.descends row (hkept.objects row hr)

theorem run_levelPart_innermost {l : Level} {here : Placement} {names : List String}
    {rows : List Json} (h : here.descent = .innermost) (hrows : Rows names rows) :
    Rows names (run collection rows (levelPart (outlineOf i l, here))) := by
  have hstages : here.descentStages = [] := by rw [Placement.descentStages, h]
  unfold levelPart
  rw [hstages, List.append_nil, run_conditionStages]
  exact hrows.filter _

theorem run_levels {l : Level} {inner : List Level} {rows : List Json}
    (h : Placed types sectionName o layout i (l :: inner) position placements)
    (hreach : Reaches position l) (hrows : Rows (layout.indexesAbove i) rows) :
    Rows (layout.indexesAbove (o.depth - 1))
      (run collection rows
        (((outlinesFrom i (l :: inner)).zip placements).flatMap levelPart)) := by
  induction inner generalizing i l position placements rows with
  | nil =>
    -- The last level is the innermost one, from which nothing is descended.
    obtain ⟨descent, next, below, hdescent, hplaced, rfl⟩ := placeLevels_cons h.placed
    have hin := isInnermost_iff h.depth
    change (if o.isInnermost i = true then _ else _) at hdescent
    rw [hin, List.isEmpty_nil, if_pos rfl] at hdescent
    have hlast : o.depth - 1 = i := by
      have hdepth := h.depth
      rw [List.length_singleton] at hdepth
      omega
    rw [hlast, outlinesFrom, List.zip_cons_cons, outlinesFrom, List.zip_nil_left,
      List.flatMap_singleton]
    exact run_levelPart_innermost collection hdescent hrows
  | cons following rest ih =>
    -- Every other level leads into the next one and adds the name of its position.
    obtain ⟨descent, next, below, hdescent, hplaced, rfl⟩ := placeLevels_cons h.placed
    have hin := isInnermost_iff h.depth
    change (if o.isInnermost i = true then _ else _) at hdescent
    rw [hin, List.isEmpty_cons, if_neg Bool.false_ne_true] at hdescent
    obtain ⟨rowsBelow, hleads⟩ := exists_leads collection hdescent h.marks (h.free i (Nat.le_refl i))
      hreach (kindOf types sectionName (position.schemaPath (outlineOf i l).field))
    obtain ⟨habove, hnext⟩ := h.below hplaced hleads.index
    rw [outlinesFrom, List.zip_cons_cons, List.flatMap_cons, run_append]
    exact ih hnext (reaches_of_base hleads.base_ne hleads.root following)
      (run_levelPart collection hleads rfl habove hrows)

end

def rowsOf (collection : String → List Json) (c : Configuration) (layout : Layout)
    (docs : List Json) : List Json :=
  run collection docs (layout.sectionStages ++ levelStages (Outline.ofConfiguration c) layout)

section

variable {types : FieldTypes} {c : Configuration} {layout : Layout}

theorem rows_rowsOf (collection : String → List Json) {docs : List Json} (hv : Validated c)
    (hu : Unreserved c)
    (hl : Layout.of? (Outline.ofConfiguration c) types c.outer.sectionPath = .ok layout)
    (hd : Identified docs) :
    Rows (layout.indexesAbove (c.depth - 1)) (rowsOf collection c layout docs) := by
  unfold Layout.of? at hl
  rw [levels_ofConfiguration] at hl
  obtain ⟨placements, hplaced, hl⟩ := bind_eq_ok.1 hl
  injection hl with hl
  subst hl
  obtain ⟨hmarks, hrun⟩ := run_sectionStages collection placements hu.entries
    fun s hs => .of_not_reserved (hu.head s hs)
  have hsection := (hrun hd.rows).1
  rw [← indexesAbove_zero c.outer.sectionPath placements] at hsection
  have hlevels := run_levels collection (placed_outermost hplaced hmarks)
    (reaches_outermost hv hu) hsection
  rw [Outline.depth_ofConfiguration] at hlevels
  rw [rowsOf, run_append, levelStages, levels_ofConfiguration]
  exact hlevels

theorem rollupStages_innermost (c : Configuration) (layout : Layout) :
    ∃ aggregates later, rollupStages (Outline.ofConfiguration c) layout =
      .group (groupKeyOf layout true (c.depth - 1)) aggregates :: later := by
  have hlast : c.depth - 1 + 1 = c.depth := Nat.succ_pred_eq_of_pos (Nat.succ_pos _)
  obtain ⟨l, hat⟩ : ∃ l, c.toList[c.depth - 1]? = some l := by
    refine ⟨_, List.getElem?_eq_getElem ?_⟩
    rw [Levels.length_toList]
    omega
  obtain ⟨after, hafter⟩ := @flatten_rollups c layout (c.depth - 1) l hat
  rw [rollupsBelow_innermost hlast, List.flatten_nil, List.nil_append] at hafter
  rw [levelGroup, isInnermost_ofConfiguration, Levels.length_toList, hlast, beq_self_eq_true]
    at hafter
  exact ⟨_, after, hafter⟩

/-- No two rows of a plan agree on the identifier of their document and all positions above the
innermost level. So below other levels the innermost group makes one bucket of every row. -/
theorem siblings_apart (collection : String → List Json) {docs : List Json} (hv : Validated c)
    (hu : Unreserved c)
    (hl : Layout.of? (Outline.ofConfiguration c) types c.outer.sectionPath = .ok layout)
    (hd : Identified docs) :
    (rowsOf collection c layout docs).Pairwise (fun row other =>
      ¬ (valueAt "_id" row = valueAt "_id" other ∧ ∀ index ∈ layout.indexesAbove (c.depth - 1),
        valueAt index row = valueAt index other)) ∧
    (2 ≤ c.depth → ∃ key aggregates later,
      rollupStages (Outline.ofConfiguration c) layout = .group key aggregates :: later ∧
        buckets (groupKey key) (rowsOf collection c layout docs) =
          (rowsOf collection c layout docs).map fun row => (groupKey key row, [row])) := by
  have hrows := rows_rowsOf collection hv hu hl hd
  constructor
  · have hapart := hrows.apart
    rw [List.Nodup, List.pairwise_map] at hapart
    refine hapart.imp fun hne hsame => hne ?_
    unfold trail
    rw [hsame.1, List.map_congr_left hsame.2]
  · intro hdepth
    obtain ⟨aggregates, later, hstages⟩ := rollupStages_innermost c layout
    refine ⟨_, aggregates, later, hstages, buckets_of_nodup ?_⟩
    have hkeys := hrows.keys (marks_indexesAbove hl (c.depth - 1))
    rwa [← List.map_congr_left fun row _ => groupKey_row layout (by omega) row] at hkeys

end

def hostingDraft : Draft :=
  ⟨{ collection := some "students", operation := "sum", fieldPath := some "events",
     sectionPath := ["mobility", "visits"] },
    [{ operation := "max", fieldPath := some "hosts" },
      { operation := "sum", fieldPath := some "info.rooms" },
      { operation := "average", fieldPath := some "beds" }]⟩

theorem hosting_validated : Validated hosting := ⟨hostingDraft, by decide +kernel⟩

theorem hosting_unreserved : Unreserved hosting := by
  refine ⟨by decide, ?_, fun h => absurd h (by decide)⟩
  rintro s ⟨⟩
  decide

/-- The same hotel is stored twice, and its two rooms are equal. -/
def inns (collection : String) : List Json :=
  let room := Json.object [("beds", .ofNat 2)]
  let inn := Json.object [("_id", .string "h"), ("info", .object [("rooms", .array [room, room])])]
  if collection = "hotels_data" then [inn, inn] else []

def mobility : Json :=
  let visit := Json.object [("events", .object [("hosts", .string "h")])]
  .object [("visits", .array [visit, visit])]

def travellers : List Json :=
  [.object [("_id", .string "a"), ("mobility", mobility)],
    .object [("_id", .string "b"), ("mobility", mobility)]]

theorem travellers_identified : Identified travellers := ⟨by decide, by decide⟩

theorem siblings_apart_travellers :
    Validated hosting ∧ Unreserved hosting ∧
      Layout.of? (Outline.ofConfiguration hosting) hostingTypes ["mobility", "visits"] =
        .ok hostingLayout ∧
      Identified travellers ∧ (rowsOf inns hosting hostingLayout travellers).length = 16 ∧
      (rowsOf inns hosting hostingLayout travellers).Pairwise (fun row other =>
        ¬ (valueAt "_id" row = valueAt "_id" other ∧
          ∀ index ∈ ["_idx_s1", "_idx_l0", "_idx_l1", "_idx_l2"],
            valueAt index row = valueAt index other)) ∧
      ∃ key aggregates later,
        rollupStages (Outline.ofConfiguration hosting) hostingLayout =
          .group key aggregates :: later ∧
        buckets (groupKey key) (rowsOf inns hosting hostingLayout travellers) =
          (rowsOf inns hosting hostingLayout travellers).map fun row =>
            (groupKey key row, [row]) := by
  have hl : Layout.of? (Outline.ofConfiguration hosting) hostingTypes hosting.outer.sectionPath =
      .ok hostingLayout := by rfl
  obtain ⟨hpairs, hbuckets⟩ :=
    siblings_apart inns hosting_validated hosting_unreserved hl travellers_identified
  exact ⟨hosting_validated, hosting_unreserved, hl, travellers_identified, by decide +kernel,
    hpairs, hbuckets (by decide)⟩

end Indicators.Plan
