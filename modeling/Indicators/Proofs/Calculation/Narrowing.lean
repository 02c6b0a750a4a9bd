import Indicators.Proofs.Calculation.Values
import Indicators.Proofs.Calendar.Order
import Indicators.Proofs.Plan.DateBounds
import Indicators.Proofs.Plan.Monotonicity

set_option autoImplicit false

/-! More conditions and a shorter window of time move no level, so the plan differs in its filters
alone. They keep a sublist of the rows, and from there on fewer rows are fewer documents to count.
-/

namespace Indicators.Calculation

open Indicators Indicators.Calendar Indicators.Metric Indicators.Pipeline Indicators.Plan
open Indicators.Schema

/-- A window on the same field that lies in the other one. -/
structure Shortens (changed range : DateRange) : Prop where
  pathSegments : changed.pathSegments = range.pathSegments
  first : range.first.le changed.first = true
  last : changed.last.le range.last = true

/-- A level with all conditions of another and any date range, otherwise the same. -/
structure AddsConditions (changed l : Level) : Prop where
  conditions : l.conditions ⊆ changed.conditions
  others : changed = { l with conditions := changed.conditions, dateRange := changed.dateRange }

/-- Conditions are added on some levels, and the date range that counts may be shortened. -/
structure Narrows (changed c : Configuration) : Prop where
  levels : List.Forall₂ AddsConditions changed.toList c.toList
  dates : Option.Rel Shortens changed.effectiveDateRange c.effectiveDateRange

theorem Shortens.refl (range : DateRange) : Shortens range range :=
  ⟨rfl, Timestamp.le_refl _, Timestamp.le_refl _⟩

theorem AddsConditions.tightens {changed l : Level} (h : AddsConditions changed l) :
    Tightens changed l :=
  ⟨(congrArg Level.fieldPath h.others :), (congrArg Level.operation h.others :), h.conditions⟩

theorem AddsConditions.sectionPath {changed l : Level} (h : AddsConditions changed l) :
    changed.sectionPath = l.sectionPath :=
  (congrArg Level.sectionPath h.others :)

theorem shortens_same (range : Option DateRange) : Option.Rel Shortens range range := by
  cases range with
  | none => exact .none
  | some range => exact .some (.refl range)

theorem inRange_of_shortens {changed range : DateRange} (h : Shortens changed range)
    {locator : DateLocator} {types : FieldTypes} {sectionPath : List String} {doc : Json}
    (hd : inRange locator types sectionPath changed doc = true) :
    inRange locator types sectionPath range doc = true := by
  unfold inRange at hd ⊢
  rw [h.pathSegments, List.any_eq_true] at hd
  obtain ⟨stored, hs, hd⟩ := hd
  obtain ⟨t, ht, hd⟩ := (Option.any_eq_true _ _).1 hd
  obtain ⟨hfirst, hlast⟩ := Bool.and_eq_true_iff.1 hd
  refine List.any_eq_true.2 ⟨stored, hs, (Option.any_eq_true _ _).2 ⟨t, ht, ?_⟩⟩
  exact Bool.and_eq_true_iff.2
    ⟨Timestamp.le_trans h.first hfirst, Timestamp.le_trans hlast h.last⟩

theorem run_dateStages_sublist (collection : String → List Json) (docs : List Json)
    {changed range : Option DateRange} (h : Option.Rel Shortens changed range)
    (locator : DateLocator) (types : FieldTypes) (sectionPath : List String) :
    (run collection docs (changed.map (dateStage locator types sectionPath)).toList).Sublist
      (run collection docs (range.map (dateStage locator types sectionPath)).toList) := by
  rw [run_dateStages, run_dateStages]
  refine List.monotone_filter_right docs fun doc hd => ?_
  cases h with
  | none => rfl
  | some h => exact inRange_of_shortens h hd

/-- The stages before the outermost rollup, the outermost level here and the others below. -/
def stagesBefore (locator : DateLocator) (schema : Schema) (c : Configuration) (here : Placement)
    (below : List Placement) : List Stage :=
  (c.effectiveDateRange.map (dateStage locator schema.types c.outer.sectionPath)).toList ++
    (layoutOf c.outer.sectionPath (here :: below)).sectionStages ++
    conditionStages here.base c.outer.conditions ++
    (here.descentStages ++
      stagesFrom (Outline.ofConfiguration c) (layoutOf c.outer.sectionPath (here :: below))
        ((outlinesFrom 1 c.inner).zip below))

theorem length_stagesBefore (collection : String → List Json) (docs : List Json)
    (locator : DateLocator) (schema : Schema) {changed c : Configuration} (hn : Narrows changed c)
    (here : Placement) {below : List Placement} (hlen : below.length = c.inner.length) :
    (run collection docs (stagesBefore locator schema changed here below)).length ≤
      (run collection docs (stagesBefore locator schema c here below)).length := by
  obtain ⟨houter, hinner⟩ := List.forall₂_cons.1 hn.levels
  have hlevels := hn.levels.imp fun _ _ h => h.tightens
  have hdepth : 1 + c.inner.length = (Outline.ofConfiguration c).depth := by
    rw [Outline.depth_ofConfiguration, Nat.add_comm]
    rfl
  have hsame (layout : Layout) (pairs : List (OutlineLevel × Placement)) :
      stagesFrom (Outline.ofConfiguration changed) layout pairs =
        stagesFrom (Outline.ofConfiguration c) layout pairs :=
    stagesFrom_congr (fields_of_tightens hlevels) (operations_of_tightens hlevels) layout pairs
  unfold stagesBefore
  rw [houter.sectionPath, hsame]
  -- One part of the stages after the other: dates, section, outermost filter, and what lies below.
  have hdates := run_dateStages_sublist collection docs hn.dates locator schema.types
    c.outer.sectionPath
  have hsection := run_sublist collection
    (sectionStages_rowwise (layoutOf c.outer.sectionPath (here :: below))) hdates
  have hrows := run_conditionStages_sublist collection here.base houter.conditions hsection
  simpa only [run_append] using
    length_below collection _ (hinner.imp fun _ _ h => h.tightens) here hdepth hlen hrows

/-- A count is the number of documents before the outermost rollup. -/
theorem resultOf_compile_count {locator : DateLocator} {schema : Schema} {c : Configuration}
    {q : Query} (hop : c.outer.operation = .count) (hq : compile locator schema c = .ok q) :
    ∃ here below,
      placeLevels schema.types c.outer.sectionPath.head? (Outline.ofConfiguration c).isInnermost
        (startOf c.outer.sectionPath) (outlinesFrom 0 c.toList) = .ok (here :: below) ∧
      below.length = c.inner.length ∧
      ∀ collection docs, Calculator.resultOf (run collection docs q.stages) =
        countValue
          (run collection docs (stagesBefore locator schema c here below)).length := by
  obtain ⟨placements, hplaced, -, hstages⟩ := compile_ok hq
  have hlen := (placeLevels_length hplaced).trans (outlinesFrom_length _ 0)
  obtain ⟨here, below, rfl⟩ := List.exists_cons_of_length_eq_add_one hlen
  refine ⟨here, below, hplaced, Nat.succ.inj hlen, fun collection docs => ?_⟩
  have hsplit : q.stages = stagesBefore locator schema c here below ++
      (Outline.ofConfiguration c).rollup (layoutOf c.outer.sectionPath (here :: below)) 0
        .count := by
    rw [hstages, ← hop]
    change _ ++ (_ ++ _ ++ _ ++ _) = _
    unfold stagesBefore
    simp only [List.append_assoc]
    rfl
  rw [hsplit, run_append, resultOf_count]

theorem placeLevels_of_narrows {changed c : Configuration} (hn : Narrows changed c)
    (types : FieldTypes) :
    placeLevels types changed.outer.sectionPath.head? (Outline.ofConfiguration changed).isInnermost
        (startOf changed.outer.sectionPath) (outlinesFrom 0 changed.toList) =
      placeLevels types c.outer.sectionPath.head? (Outline.ofConfiguration c).isInnermost
        (startOf c.outer.sectionPath) (outlinesFrom 0 c.toList) := by
  have hsection := (List.forall₂_cons.1 hn.levels).1.sectionPath
  have hlevels := hn.levels.imp fun _ _ h => h.tightens
  have hinnermost : (Outline.ofConfiguration changed).isInnermost =
      (Outline.ofConfiguration c).isInnermost := by
    unfold Outline.isInnermost Outline.depth Outline.ofConfiguration
    rw [operations_of_tightens hlevels]
  rw [hsection, hinnermost, placeLevels_of_tightens hlevels]

theorem resultOf_narrows (collection : String → List Json) {locator : DateLocator}
    {schema : Schema} {changed c : Configuration} {less q : Query}
    (hop : c.outer.operation = .count) (hn : Narrows changed c)
    (hless : compile locator schema changed = .ok less) (hq : compile locator schema c = .ok q)
    (docs : List Json) :
    ∃ m n, m ≤ n ∧ Calculator.resultOf (run collection docs less.stages) = countValue m ∧
      Calculator.resultOf (run collection docs q.stages) = countValue n := by
  have houter := (List.forall₂_cons.1 hn.levels).1
  obtain ⟨here, below, hplaced, hlen, hcount⟩ := resultOf_compile_count hop hq
  obtain ⟨here', below', hplaced', -, hcount'⟩ :=
    resultOf_compile_count (houter.tightens.operation.trans hop) hless
  -- The places are the same, so the two plans are compared in the same stages.
  rw [placeLevels_of_narrows hn] at hplaced'
  have hsame := hplaced'.symm.trans hplaced
  injection hsame with hsame
  injection hsame with hhere hbelow
  subst hhere hbelow
  exact ⟨_, _, length_stagesBefore collection docs locator schema hn here' hlen,
    hcount' collection docs, hcount collection docs⟩

/-- Whatever the collections hold, a narrower configuration has a plan where the other one has, and
it counts no more. -/
theorem count_narrows {locator : DateLocator} {schema : Schema} {changed c : Configuration}
    {q : Query} (hop : c.outer.operation = .count) (hn : Narrows changed c)
    (hq : compile locator schema c = .ok q) :
    ∃ less, compile locator schema changed = .ok less ∧ less.collection = q.collection ∧
      ∀ collection docs, ∃ a b : Int64,
        Calculator.resultOf (run collection docs less.stages) = .int a ∧
        Calculator.resultOf (run collection docs q.stages) = .int b ∧
        0 ≤ a.toInt ∧ a.toInt ≤ b.toInt := by
  obtain ⟨placements, hplaced, hcollection, -⟩ := compile_ok hq
  rw [← placeLevels_of_narrows hn] at hplaced
  obtain ⟨less, hless⟩ : ∃ less, compile locator schema changed = .ok less :=
    compile_of_places hplaced
  obtain ⟨_, -, hcollection', -⟩ := compile_ok hless
  refine ⟨less, hless, hcollection'.trans hcollection.symm, fun collection docs => ?_⟩
  obtain ⟨m, n, hle, hm, hn'⟩ := resultOf_narrows collection hop hn hless hq docs
  refine ⟨_, _, hm, hn', ?_, ?_⟩
  · rw [toInt_count]
    exact Int.natCast_nonneg _
  · rw [toInt_count, toInt_count]
    omega

def secondAt (n : Int) : Timestamp := ⟨n, 0, Timestamp.onClock_of_lt n (by decide)⟩

def staysOf (first last : Int) (conditions : List Condition) : Configuration :=
  ⟨⟨"guests", .count, some "stays", ["history"], [],
      some ⟨["history", "since"], secondAt first, secondAt last⟩, none, none⟩,
    [⟨"guests", .sum, some "nights", ["history"], conditions, none, none, none⟩]⟩

def staysOfQuery (first last : Int) (filters : List Stage) : Query :=
  ⟨"guests",
    [.filter (.between "history.since" (.timestamp (secondAt first)) (.timestamp (secondAt last))),
      .filter (.exists "history"), .unwind "history.stays" (some "_idx_l0")] ++ filters ++
    [.group (some [("doc", .field "_id"), ("_idx_l0", .field "_idx_l0")])
        [⟨.sum, .toNumber (.field "history.stays.nights"), "resultOf_stays"⟩],
      .group none [⟨.sum, .literal (.int 1), "result"⟩]]⟩

def since (second : Nat) (stays : List Json) : Json :=
  .object [("since", .ofNat (second * 1000)), ("stays", .array stays)]

def guestsSince : List Json :=
  [.object [("_id", .string "a"), ("history", since 15 [stay 3 "yes", stay 9 "no", stay 4 "yes"])],
    .object [("_id", .string "b"), ("history", since 25 [stay 2 "yes"])]]

theorem count_narrows_stays :
    Narrows (staysOf 10 20 [⟨"paid", .eq, "yes"⟩]) (staysOf 0 30 []) ∧
      compile .sectionWalk bareSchema (staysOf 0 30 []) = .ok (staysOfQuery 0 30 []) ∧
      ∃ less, compile .sectionWalk bareSchema (staysOf 10 20 [⟨"paid", .eq, "yes"⟩]) = .ok less ∧
        less.collection = "guests" ∧ ∃ a b : Int64,
          Calculator.resultOf (run (fun _ => []) guestsSince less.stages) = .int a ∧
          Calculator.resultOf
            (run (fun _ => []) guestsSince (staysOfQuery 0 30 []).stages) = .int b ∧
          0 ≤ a.toInt ∧ a.toInt ≤ b.toInt := by
  have hn : Narrows (staysOf 10 20 [⟨"paid", .eq, "yes"⟩]) (staysOf 0 30 []) :=
    ⟨.cons ⟨List.nil_subset _, rfl⟩ (.cons ⟨List.nil_subset _, rfl⟩ .nil),
      .some ⟨rfl, by decide, by decide⟩⟩
  have hq : compile .sectionWalk bareSchema (staysOf 0 30 []) = .ok (staysOfQuery 0 30 []) := by rfl
  obtain ⟨less, hless, hcollection, hcount⟩ := count_narrows rfl hn hq
  exact ⟨hn, hq, less, hless, hcollection, hcount _ guestsSince⟩

example :
    Calculator.resultOf (run (fun _ => []) guestsSince (staysOfQuery 10 20
      [.filter (.compare "history.stays.paid" .eq (.string "yes"))]).stages) = .int 2 ∧
    Calculator.resultOf (run (fun _ => []) guestsSince (staysOfQuery 0 30 []).stages) =
      .int 4 := by
  decide +kernel

end Indicators.Calculation
