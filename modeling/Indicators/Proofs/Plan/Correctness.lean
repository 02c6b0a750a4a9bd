import Indicators.Proofs.Metric.Validation
import Indicators.Proofs.Plan.Sections
import Indicators.Proofs.Plan.Simulation

set_option autoImplicit false

namespace Indicators.Plan

open Indicators Indicators.Metric Indicators.Pipeline Indicators.Schema

/-- The paths of a configuration do not begin with a reserved name, and no section is empty. -/
structure Unreserved (c : Configuration) : Prop where
  entries : ∀ s ∈ c.outer.sectionPath, s ≠ ""
  head : ∀ s ∈ c.outer.sectionPath.head?, ¬ Reserved (rootOf s)
  field : c.outer.sectionPath = [] → ∀ f ∈ c.outer.fieldPath, ¬ Reserved (rootOf f)

/-- Objects whose identifiers differ. -/
structure Identified (docs : List Json) : Prop where
  objects : ∀ doc ∈ docs, doc.isObject = true
  distinct : (docs.map (valueAt "_id")).Nodup

theorem Identified.rows {docs : List Json} (h : Identified docs) : Rows [] docs := by
  refine ⟨h.objects, ?_⟩
  have hd := h.distinct
  rw [List.Nodup, List.pairwise_map] at hd ⊢
  exact hd.imp fun hne he => hne (List.cons.inj he).1

theorem reaches_outermost {c : Configuration} (hv : Validated c) (hu : Unreserved c) :
    Reaches (startOf c.outer.sectionPath) c.outer := by
  cases hs : c.outer.sectionPath with
  | nil =>
    intro field hf
    exact ⟨hv.field_ne_empty hf, .of_not_reserved (hu.field hs field hf)⟩
  | cons first chain =>
    have hne : first ≠ "" := hu.entries first (hs ▸ List.mem_cons_self)
    have hr : ¬ Reserved (rootOf first) := hu.head first (by rw [hs]; rfl)
    obtain ⟨hb, hroot⟩ := dotted_root hne chain
    refine reaches_of_base hb ?_ c.outer
    rw [startOf, hroot]
    exact .of_not_reserved hr

theorem run_dateStages (collection : String → List Json) (docs : List Json)
    (locator : DateLocator) (types : FieldTypes) (sectionPath : List String)
    (range : Option DateRange) :
    run collection docs (range.map (dateStage locator types sectionPath)).toList =
      docs.filter fun doc => range.all (inRange locator types sectionPath · doc) := by
  cases range with
  | none => exact (List.filter_eq_self.2 fun _ _ => rfl).symm
  | some range => exact run_dateStage collection docs locator types sectionPath range

theorem indexesAbove_zero (sectionPath : List String) (placements : List Placement) :
    (layoutOf sectionPath placements).indexesAbove 0 = sectionIndexes sectionPath :=
  List.append_nil _

theorem placed_outermost {types : FieldTypes} {c : Configuration} {placements : List Placement}
    (h : placeLevels types c.outer.sectionPath.head? (Outline.ofConfiguration c).isInnermost
      (startOf c.outer.sectionPath) (outlinesFrom 0 c.toList) = .ok placements)
    (marks : Marks (sectionIndexes c.outer.sectionPath)) :
    Placed types c.outer.sectionPath.head? (Outline.ofConfiguration c)
      (layoutOf c.outer.sectionPath placements) 0 (c.outer :: c.inner)
      (startOf c.outer.sectionPath) placements := by
  refine ⟨?_, h, rfl, ?_, ?_⟩
  · rw [Outline.depth_ofConfiguration, Nat.zero_add]
    rfl
  · rw [indexesAbove_zero]
    exact marks
  · intro k _
    rw [indexesAbove_zero]
    exact levelIndex_not_mem_sectionIndexes _ k

/-- Before the outermost rollup stand the operands that the documents contribute. -/
theorem compile_operands (collection : String → List Json) {locator : DateLocator}
    {schema : Schema} {c : Configuration} {q : Query} (hv : Validated c) (hu : Unreserved c)
    (hq : compile locator schema c = .ok q) :
    ∃ layout stages,
      q.stages = stages ++ (Outline.ofConfiguration c).rollup layout 0 c.outer.operation ∧
      ∀ docs, Identified docs →
        (run collection docs stages).map
            (((Outline.ofConfiguration c).operand layout 0 c.outer.operation).eval ·) =
          (docs.flatMap (documentContributions collection locator schema.types c)).map
            (counted c.outer.operation) := by
  obtain ⟨placements, hplaced, -, hstages⟩ := compile_ok hq
  obtain ⟨hmarks, hrun⟩ := run_sectionStages collection placements hu.entries
    fun s hs => .of_not_reserved (hu.head s hs)
  have hindexes := indexesAbove_zero c.outer.sectionPath placements
  obtain ⟨stages, hlevels, hoperands⟩ :=
    exists_operands collection (placed_outermost hplaced hmarks) (reaches_outermost hv hu)
  refine ⟨layoutOf c.outer.sectionPath placements,
    (c.effectiveDateRange.map (dateStage locator schema.types c.outer.sectionPath)).toList ++
      (layoutOf c.outer.sectionPath placements).sectionStages ++ stages, ?_, fun docs hd => ?_⟩
  · rw [hstages, show c.toList = c.outer :: c.inner from rfl, hlevels, ← List.append_assoc]
  · have hkept := hd.rows.filter fun doc =>
      c.effectiveDateRange.all (inRange locator schema.types c.outer.sectionPath · doc)
    obtain ⟨hrows, helements⟩ := hrun hkept
    rw [run_append, run_append, run_dateStages, hoperands _ (hindexes ▸ hrows)]
    congr 1
    rw [flatMap_rowValues, startOf, helements, List.flatMap_assoc, filter_flatMap_single]
    rfl

/-- The documents that the stages of a configuration give are those of its meaning. -/
theorem run_compile (collection : String → List Json) {locator : DateLocator} {schema : Schema}
    {c : Configuration} {q : Query} {docs : List Json} (hv : Validated c) (hu : Unreserved c)
    (hq : compile locator schema c = .ok q) (hd : Identified docs) :
    run collection docs q.stages =
      resultDocs (meaning collection locator schema.types c docs) := by
  obtain ⟨layout, stages, hstages, hoperands⟩ := compile_operands collection hv hu hq
  rw [hstages, run_append]
  exact run_outermost (hoperands docs hd)

def staysDraft : Draft :=
  ⟨{ collection := some "guests", operation := "max", fieldPath := some "stays",
     sectionPath := ["history"] },
    [{ operation := "Sum", fieldPath := some "nights", conditions := [⟨"paid", "eq", "yes"⟩] }]⟩

def stays : Configuration :=
  ⟨⟨"guests", .max, some "stays", ["history"], [], none, none, none⟩,
    [⟨"guests", .sum, some "nights", ["history"], [⟨"paid", .eq, "yes"⟩], none, none, none⟩]⟩

def bareSchema : Schema := ⟨⟨"1", "guests", none, []⟩, {}⟩

def staysQuery : Query :=
  ⟨"guests",
    [.filter (.exists "history"), .unwind "history.stays" (some "_idx_l0"),
      .filter (.compare "history.stays.paid" .eq (.string "yes")),
      .group (some [("doc", .field "_id"), ("_idx_l0", .field "_idx_l0")])
        [⟨.sum, .toNumber (.field "history.stays.nights"), "resultOf_stays"⟩],
      .group none [⟨.max, .field "resultOf_stays", "result"⟩]]⟩

def stay (nights : Nat) (paid : String) : Json :=
  .object [("nights", .ofNat nights), ("paid", .string paid)]

def guests : List Json :=
  [.object [("_id", .string "a"),
      ("history", .object [("stays", .array [stay 3 "yes", stay 9 "no", stay 4 "yes"])])],
    .object [("_id", .string "b"), ("history", .object [("stays", stay 2 "yes")])],
    .object [("_id", .string "c")]]

theorem stays_validated : Validated stays := ⟨staysDraft, by decide +kernel⟩

theorem stays_unreserved : Unreserved stays := by
  refine ⟨by decide, ?_, fun h => absurd h (by decide)⟩
  rintro s ⟨⟩
  decide

theorem guests_identified : Identified guests := ⟨by decide, by decide⟩

theorem run_compile_stays :
    Validated stays ∧ Unreserved stays ∧
      compile .sectionWalk bareSchema stays = .ok staysQuery ∧ Identified guests ∧
      run (fun _ => []) guests staysQuery.stages =
        [.object [("_id", .null), ("result", .ofNat 4)]] := by
  refine ⟨stays_validated, stays_unreserved, by rfl, guests_identified, ?_⟩
  have hq : compile .sectionWalk bareSchema stays = .ok staysQuery := by rfl
  rw [run_compile _ stays_validated stays_unreserved hq guests_identified]
  decide +kernel

end Indicators.Plan
