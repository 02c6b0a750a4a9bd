import Indicators.Proofs.Plan.Correctness

set_option autoImplicit false

/-! A plan reads a configuration by its outline, its section path and its effective date range. New
bounds leave the first two as they are and the range on its path. -/

namespace Indicators.Metric

open Indicators.Calendar

def DateRange.withBounds (first last : Timestamp) (r : DateRange) : DateRange :=
  { r with first := first, last := last }

theorem Level.withDateBounds_twice (first last first' last' : Timestamp) (l : Level) :
    (l.withDateBounds first last).withDateBounds first' last' = l.withDateBounds first' last' := by
  unfold Level.withDateBounds
  rw [Option.map_map]
  rfl

namespace Configuration

theorem withDateBounds_twice (first last first' last' : Timestamp) (c : Configuration) :
    withDateBounds first' last' (withDateBounds first last c) = withDateBounds first' last' c := by
  have hlevel : Level.withDateBounds first' last' ∘ Level.withDateBounds first last =
      Level.withDateBounds first' last' :=
    funext (Level.withDateBounds_twice first last first' last')
  unfold withDateBounds Levels.map
  rw [List.map_map, hlevel, Level.withDateBounds_twice]

theorem effectiveDateRange_withDateBounds (first last : Timestamp) (c : Configuration) :
    effectiveDateRange (withDateBounds first last c) =
      c.effectiveDateRange.map (DateRange.withBounds first last) := by
  unfold effectiveDateRange
  rw [List.map_findSome?, withDateBounds, Levels.toList_map, List.findSome?_map]
  rfl

theorem effectiveDateRange_eq_none {c : Configuration} :
    c.effectiveDateRange = none ↔ ∀ l ∈ c.toList, l.dateRange = none :=
  List.findSome?_eq_none_iff

end Configuration

end Indicators.Metric

namespace Indicators.Plan

open Indicators.Calendar Indicators.Metric Indicators.Pipeline Indicators.Schema

theorem outline_withDateBounds (first last : Timestamp) (c : Configuration) :
    Outline.ofConfiguration (c.withDateBounds first last) = Outline.ofConfiguration c := by
  unfold Outline.ofConfiguration Configuration.withDateBounds
  simp only [Levels.toList_map, List.map_map]
  rfl

/-- The plan of a configuration as if no level had a date range. -/
def undated (schema : Schema) (c : Configuration) : Except PlanError Query := do
  let outline := Outline.ofConfiguration c
  let layout ← Layout.of? outline schema.types c.outer.sectionPath
  return ⟨schema.template.physicalCollection,
    layout.sectionStages ++ levelStages outline layout ++ rollupStages outline layout⟩

def Query.after (first : Option Stage) (q : Query) : Query :=
  { q with stages := first.toList ++ q.stages }

theorem undated_withDateBounds (schema : Schema) (first last : Timestamp) (c : Configuration) :
    undated schema (c.withDateBounds first last) = undated schema c := by
  unfold undated
  rw [outline_withDateBounds]
  rfl

theorem compile_eq_undated (locator : DateLocator) (schema : Schema) (c : Configuration) :
    compile locator schema c =
      (undated schema c).map (Query.after
        (c.effectiveDateRange.map (dateStage locator schema.types c.outer.sectionPath))) := by
  unfold compile undated
  dsimp only
  cases Layout.of? (Outline.ofConfiguration c) schema.types c.outer.sectionPath with
  | error e => rfl
  | ok layout => simp [Except.map, Query.after, bind, Except.bind, pure, Except.pure]

/-- New bounds make no plan and break none. In a plan they change the bounds of the leading date
filter where any level has a date range, and nothing where none has. Of two pairs the last
counts. -/
theorem compile_withDateBounds (locator : DateLocator) (schema : Schema) (c : Configuration)
    (first last : Timestamp) :
    (∀ e, compile locator schema (c.withDateBounds first last) = .error e ↔
      compile locator schema c = .error e) ∧
    (∀ q, compile locator schema c = .ok q →
      ((∀ l ∈ c.toList, l.dateRange = none) →
        compile locator schema (c.withDateBounds first last) = .ok q) ∧
      ((∃ l ∈ c.toList, l.dateRange ≠ none) →
        ∃ path oldFirst oldLast rest,
          q.stages = .filter (.between path oldFirst oldLast) :: rest ∧
          compile locator schema (c.withDateBounds first last) =
            .ok ⟨q.collection,
              .filter (.between path (.timestamp first) (.timestamp last)) :: rest⟩)) ∧
    ∀ first' last', (c.withDateBounds first last).withDateBounds first' last' =
      c.withDateBounds first' last' := by
  have hplan := compile_eq_undated locator schema c
  have hchanged := compile_eq_undated locator schema (c.withDateBounds first last)
  rw [undated_withDateBounds, Configuration.effectiveDateRange_withDateBounds] at hchanged
  refine ⟨?_, ?_, fun first' last' =>
    Configuration.withDateBounds_twice first last first' last' c⟩
  · intro e
    rw [hplan, hchanged]
    cases undated schema c with
    | error e' => rfl
    | ok q => exact ⟨nofun, nofun⟩
  · intro q hq
    rw [hplan] at hq
    rw [hchanged]
    cases hu : undated schema c with
    | error e =>
      rw [hu] at hq
      cases hq
    | ok bare =>
      rw [hu] at hq
      cases hr : c.effectiveDateRange with
      | none =>
        have hnone := Configuration.effectiveDateRange_eq_none.1 hr
        rw [hr] at hq
        exact ⟨fun _ => hq, fun ⟨l, hl, hdated⟩ => absurd (hnone l hl) hdated⟩
      | some range =>
        have hdated : ¬ ∀ l ∈ c.toList, l.dateRange = none := fun hnone => by
          rw [Configuration.effectiveDateRange_eq_none.2 hnone] at hr
          cases hr
        rw [hr] at hq
        injection hq with hq
        subst hq
        exact ⟨fun hnone => absurd hnone hdated, fun _ => ⟨_, _, _, bare.stages, rfl, rfl⟩⟩

def hour (n : Int) : Timestamp := ⟨n * 3600, 0, Timestamp.onClock_of_lt _ (by decide)⟩

def nightsSince (first last : Timestamp) : Configuration :=
  ⟨⟨"guests", .sum, some "stays", ["history"], [], none, none, none⟩,
    [⟨"guests", .sum, some "nights", ["history"], [], some ⟨["history", "since"], first, last⟩,
      none, none⟩]⟩

def nightsQuery (first last : Timestamp) : Query :=
  ⟨"guests",
    [.filter (.between "history.since" (.timestamp first) (.timestamp last)),
      .filter (.exists "history"), .unwind "history.stays" (some "_idx_l0"),
      .group (some [("doc", .field "_id"), ("_idx_l0", .field "_idx_l0")])
        [⟨.sum, .toNumber (.field "history.stays.nights"), "resultOf_stays"⟩],
      .group none [⟨.sum, .field "resultOf_stays", "result"⟩]]⟩

/-- The new bounds may be the wrong way round. -/
theorem compile_withDateBounds_nights :
    compile .sectionWalk bareSchema (nightsSince (hour 1) (hour 2)) =
        .ok (nightsQuery (hour 1) (hour 2)) ∧
      compile .sectionWalk bareSchema
          ((nightsSince (hour 1) (hour 2)).withDateBounds (hour 4) (hour 3)) =
        .ok (nightsQuery (hour 4) (hour 3)) := by
  have hq : compile .sectionWalk bareSchema (nightsSince (hour 1) (hour 2)) =
      .ok (nightsQuery (hour 1) (hour 2)) := by rfl
  obtain ⟨-, hplans, -⟩ := compile_withDateBounds .sectionWalk bareSchema
    (nightsSince (hour 1) (hour 2)) (hour 4) (hour 3)
  have hdated : ∃ l ∈ (nightsSince (hour 1) (hour 2)).toList, l.dateRange ≠ none :=
    ⟨_, List.mem_cons_of_mem _ List.mem_cons_self, Option.some_ne_none _⟩
  obtain ⟨path, oldFirst, oldLast, rest, hstages, hchanged⟩ := (hplans _ hq).2 hdated
  injection hstages with hfilter hrest
  injection hfilter with hfilter
  injection hfilter with hpath
  subst hpath hrest
  exact ⟨hq, hchanged⟩

end Indicators.Plan
