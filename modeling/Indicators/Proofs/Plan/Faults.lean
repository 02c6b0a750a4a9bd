import Indicators.Proofs.Metric.Acceptance
import Indicators.Proofs.Plan.Places

set_option autoImplicit false

/-! A checked configuration has a field wherever planning goes further, so only a reference that
leads nowhere stops it. What lies below a table is not looked up, and the innermost level is not
gone beyond. -/

namespace Indicators.Plan

open Indicators Indicators.Metric Indicators.Pipeline Indicators.Schema

/-- Planning cannot go beyond the level: no level above it is a table, and its field is recorded as
a reference to an unknown template. -/
structure Stuck (types : FieldTypes) (c : Configuration) (level : Nat) (field template : String) :
    Prop where
  inner : level + 1 < c.depth
  tables : ∀ k < level, joins (recordedKind types c.outer.sectionPath c.toList k) = false
  path : field = insidePath c.outer.sectionPath c.toList level
  dangling : ∃ first ∈ c.outer.sectionPath.head?, types.dangling? first field = some template

structure FirstStuck (types : FieldTypes) (c : Configuration) (level : Nat)
    (field template : String) : Prop where
  stuck : Stuck types c level field template
  first : ∀ k < level, ∀ field template, ¬ Stuck types c k field template

section

variable {types : FieldTypes} {sectionPath : List String} {levels : List Level}

theorem tableAbove?_eq_none {i : Nat} :
    tableAbove? types sectionPath levels i = none ↔
      ∀ k < i, joins (recordedKind types sectionPath levels k) = false := by
  unfold tableAbove?
  simp [List.find?_eq_none]

theorem danglingOf_eq_some {sectionName : Option String} {path field template : String} :
    danglingOf types sectionName (some path) = some (field, template) ↔
      field = path ∧ ∃ first ∈ sectionName, types.dangling? first path = some template := by
  cases sectionName with
  | none => simp [danglingOf]
  | some first =>
    cases h : types.dangling? first path with
    | none => simp [danglingOf, h]
    | some found => simp [danglingOf, h, eq_comm]

theorem fault?_eq_some {i : Nat} {e : PlanError} :
    fault? types sectionPath levels i = some e ↔
      ∃ field template, e = .unresolvedJoinTarget i field template ∧
        (∀ k < i, joins (recordedKind types sectionPath levels k) = false) ∧
        field = insidePath sectionPath levels i ∧
        ∃ first ∈ sectionPath.head?, types.dangling? first field = some template := by
  unfold fault?
  cases h : tableAbove? types sectionPath levels i with
  | none =>
    have habove := tableAbove?_eq_none.1 h
    simp only [Option.map_eq_some_iff, Prod.exists, danglingOf_eq_some]
    constructor
    · rintro ⟨field, template, ⟨rfl, hd⟩, rfl⟩
      exact ⟨_, template, rfl, habove, rfl, hd⟩
    · rintro ⟨field, template, rfl, -, rfl, hd⟩
      exact ⟨_, template, ⟨rfl, hd⟩, rfl⟩
  | some j =>
    refine ⟨nofun, fun ⟨_, _, _, habove, _⟩ => ?_⟩
    rw [tableAbove?_eq_none.2 habove] at h
    cases h

end

theorem stuck_iff {types : FieldTypes} {c : Configuration} {level : Nat}
    {field template : String} :
    Stuck types c level field template ↔ level < c.depth - 1 ∧
      fault? types c.outer.sectionPath c.toList level =
        some (.unresolvedJoinTarget level field template) := by
  rw [fault?_eq_some]
  constructor
  · rintro ⟨hinner, htables, hfield, hdangling⟩
    exact ⟨by omega, field, template, rfl, htables, hfield, hdangling⟩
  · rintro ⟨hlt, found, other, he, htables, hfield, hdangling⟩
    cases he
    exact ⟨by omega, htables, hfield, hdangling⟩

theorem findSome?_range {β : Type} {f : Nat → Option β} {n : Nat} {b : β} :
    (List.range n).findSome? f = some b ↔ ∃ i < n, f i = some b ∧ ∀ k < i, f k = none := by
  induction n with
  | zero => simp
  | succ n ih =>
    rw [List.range_succ, List.findSome?_append, List.findSome?_singleton, Option.or_eq_some_iff, ih,
      List.findSome?_eq_none_iff]
    simp only [List.mem_range]
    constructor
    · rintro (⟨i, hi, hf, hfirst⟩ | ⟨hnone, hf⟩)
      · exact ⟨i, by omega, hf, hfirst⟩
      · exact ⟨n, by omega, hf, hnone⟩
    · rintro ⟨i, hi, hf, hfirst⟩
      by_cases hin : i = n
      · subst hin
        exact .inr ⟨hfirst, hf⟩
      · exact .inl ⟨i, by omega, hf, hfirst⟩

theorem findSome?_fault {types : FieldTypes} {c : Configuration} {e : PlanError} :
    (List.range (c.depth - 1)).findSome? (fault? types c.outer.sectionPath c.toList) = some e ↔
      ∃ level field template, e = .unresolvedJoinTarget level field template ∧
        FirstStuck types c level field template := by
  rw [findSome?_range]
  constructor
  · rintro ⟨level, hlt, hf, hfirst⟩
    obtain ⟨field, template, rfl, -⟩ := fault?_eq_some.1 hf
    refine ⟨level, field, template, rfl, stuck_iff.2 ⟨hlt, hf⟩, fun k hk field template hs => ?_⟩
    have hfault := (stuck_iff.1 hs).2
    rw [hfirst k hk] at hfault
    cases hfault
  · rintro ⟨level, field, template, rfl, hs, hfirst⟩
    obtain ⟨hlt, hf⟩ := stuck_iff.1 hs
    refine ⟨level, hlt, hf, fun k hk => ?_⟩
    by_contra hne
    obtain ⟨e, he⟩ := Option.ne_none_iff_exists'.1 hne
    obtain ⟨field, template, rfl, -⟩ := fault?_eq_some.1 he
    exact hfirst k hk field template (stuck_iff.2 ⟨by omega, he⟩)

theorem compile_eq_error {locator : DateLocator} {schema : Schema} {c : Configuration}
    {e : PlanError} (hc : Connected c.toList) :
    compile locator schema c = .error e ↔
      ∃ level field template, e = .unresolvedJoinTarget level field template ∧
        FirstStuck schema.types c level field template := by
  have hplaces := @places_eq schema.types c.outer.sectionPath c hc
  unfold startOf at hplaces
  rw [← findSome?_fault]
  simp only [compile, Layout.of?, levels_ofConfiguration, hplaces]
  cases (List.range (c.depth - 1)).findSome?
      (fault? schema.types c.outer.sectionPath c.toList) with
  | none => simp [bind, Except.bind, pure, Except.pure]
  | some found => simp [bind, Except.bind]

theorem connected_of_checked {d : Draft} {c : Configuration} (h : d.configuration = .ok c) :
    Connected c.toList := by
  obtain ⟨collection, -, hlevels⟩ := configuration_eq_ok.1 h
  obtain ⟨hlen, hread⟩ := checkLevels_ok hlevels
  intro i l hi hl
  obtain ⟨draft, hdraft⟩ : ∃ draft, d.toList[i]? = some draft :=
    ⟨_, List.getElem?_eq_getElem (by omega)⟩
  have hfield := (hread i draft l hdraft hl).fits.field (.inr (by omega))
  exact Option.ne_none_iff_exists'.1 hfield

structure SameAbove (c other : Configuration) : Prop where
  sectionPath : other.outer.sectionPath = c.outer.sectionPath
  fields : (other.toList.map (·.fieldPath)).dropLast = (c.toList.map (·.fieldPath)).dropLast

namespace SameAbove

variable {types : FieldTypes} {c other : Configuration}

theorem symm (h : SameAbove c other) : SameAbove other c :=
  ⟨h.sectionPath.symm, h.fields.symm⟩

theorem depth (h : SameAbove c other) : other.depth = c.depth := by
  have hlen := congrArg List.length h.fields
  simp only [List.length_dropLast, List.length_map, Levels.length_toList] at hlen
  unfold Levels.depth at hlen ⊢
  omega

theorem fieldPath (h : SameAbove c other) {i : Nat} (hi : i + 1 < c.depth) :
    other.toList[i]?.map (·.fieldPath) = c.toList[i]?.map (·.fieldPath) := by
  have hat := congrArg (·[i]?) h.fields
  have hi : i < c.depth - 1 := by omega
  simpa only [List.getElem?_dropLast, List.length_map, Levels.length_toList, h.depth, if_pos hi,
    List.getElem?_map] using hat

theorem connected (h : SameAbove c other) (hc : Connected c.toList) : Connected other.toList := by
  intro i l hi hl
  have hi : i + 1 < c.depth := h.depth ▸ hi
  have hat := h.fieldPath hi
  rw [hl, Option.map_some] at hat
  obtain ⟨above, habove, hfield⟩ := Option.map_eq_some_iff.1 hat.symm
  rw [← hfield]
  exact hc i above hi habove

theorem insidePath_eq (h : SameAbove c other) {i : Nat} (hi : i + 1 < c.depth) :
    insidePath other.outer.sectionPath other.toList i =
      insidePath c.outer.sectionPath c.toList i := by
  have htake : (other.toList.map (·.fieldPath)).take (i + 1) =
      (c.toList.map (·.fieldPath)).take (i + 1) := by
    apply List.ext_getElem?
    intro k
    by_cases hk : k < i + 1
    · have hat := h.fieldPath (show k + 1 < c.depth by omega)
      simpa only [List.getElem?_take, if_pos hk, List.getElem?_map] using hat
    · simp [hk]
  have hfields := congrArg (List.filterMap id) htake
  simp only [← List.map_take, List.filterMap_map] at hfields
  unfold insidePath fieldsAbove fieldsBetween
  rw [h.sectionPath]
  exact congrArg _ hfields

theorem recordedKind_eq (h : SameAbove c other) {i : Nat} (hi : i + 1 < c.depth) :
    recordedKind types other.outer.sectionPath other.toList i =
      recordedKind types c.outer.sectionPath c.toList i := by
  unfold recordedKind
  rw [h.insidePath_eq hi, h.sectionPath]

theorem stuck (h : SameAbove c other) {level : Nat} {field template : String}
    (hs : Stuck types c level field template) : Stuck types other level field template := by
  constructor
  case inner => exact h.depth ▸ hs.inner
  case tables =>
    intro k hk
    have hinner := hs.inner
    rw [h.recordedKind_eq (by omega)]
    exact hs.tables k hk
  case path => exact hs.path.trans (h.insidePath_eq hs.inner).symm
  case dangling => exact h.sectionPath ▸ hs.dangling

theorem firstStuck_iff (h : SameAbove c other) {level : Nat} {field template : String} :
    FirstStuck types other level field template ↔ FirstStuck types c level field template :=
  ⟨fun ⟨hs, hfirst⟩ => ⟨h.symm.stuck hs, fun k hk _ _ hk' => hfirst k hk _ _ (h.stuck hk')⟩,
    fun ⟨hs, hfirst⟩ => ⟨h.stuck hs, fun k hk _ _ hk' => hfirst k hk _ _ (h.symm.stuck hk')⟩⟩

end SameAbove

/-- A checked configuration never lacks a field. It compiles unless planning is stuck at a level,
and then the first such level is reported. The field of the innermost level has no part in it. -/
theorem compile_fails {d : Draft} {c : Configuration} (hd : d.configuration = .ok c)
    (locator : DateLocator) (schema : Schema) :
    (∀ level, compile locator schema c ≠ .error (.missingField level)) ∧
      (∀ level field template,
        compile locator schema c = .error (.unresolvedJoinTarget level field template) ↔
          FirstStuck schema.types c level field template) ∧
      ((∀ level field template, ¬ FirstStuck schema.types c level field template) →
        ∃ q, compile locator schema c = .ok q) ∧
      ∀ other, SameAbove c other → ∀ e,
        (compile locator schema other = .error e ↔ compile locator schema c = .error e) := by
  have hc := connected_of_checked hd
  refine ⟨fun level hmissing => ?_, fun level field template => ?_, fun hnone => ?_,
    fun other hsame e => ?_⟩
  · obtain ⟨_, _, _, he, -⟩ := (compile_eq_error hc).1 hmissing
    cases he
  · rw [compile_eq_error hc]
    constructor
    · rintro ⟨_, _, _, he, hfirst⟩
      cases he
      exact hfirst
    · exact fun hfirst => ⟨level, field, template, rfl, hfirst⟩
  · cases h : compile locator schema c with
    | ok q => exact ⟨q, rfl⟩
    | error e =>
      obtain ⟨level, field, template, -, hfirst⟩ := (compile_eq_error hc).1 h
      exact absurd hfirst (hnone level field template)
  · rw [compile_eq_error (hsame.connected hc), compile_eq_error hc]
    simp only [hsame.firstStuck_iff]

def gradesDraft : Draft :=
  ⟨{ collection := some "students", operation := "sum", fieldPath := some "stays",
     sectionPath := ["mobility"] },
    [{ operation := "max", fieldPath := some "legacy" },
      { operation := "average", fieldPath := some "grade" }]⟩

def grades : Configuration :=
  ⟨⟨"students", .sum, some "stays", ["mobility"], [], none, none, none⟩,
    [⟨"students", .max, some "legacy", ["mobility"], [], none, none, none⟩,
      ⟨"students", .average, some "grade", ["mobility"], [], none, none, none⟩]⟩

def gradesSchema : Schema :=
  ⟨⟨"1", "students", none, []⟩,
    { kinds := [("mobility", [("stays", .subform), ("stays.legacy", .scalar)])]
      dangling := [("mobility", [("stays.legacy", "99"), ("stays.legacy.grade", "98")])] }⟩

theorem compile_fails_grades :
    gradesDraft.configuration = .ok grades ∧
      FirstStuck gradesSchema.types grades 1 "stays.legacy" "99" ∧
      compile .sectionWalk gradesSchema grades =
        .error (.unresolvedJoinTarget 1 "stays.legacy" "99") := by
  have hd : gradesDraft.configuration = .ok grades := by decide +kernel
  obtain ⟨-, hstuck, -, -⟩ := compile_fails hd .sectionWalk gradesSchema
  have hfirst := (hstuck 1 "stays.legacy" "99").1 rfl
  exact ⟨hd, hfirst, (hstuck _ _ _).2 hfirst⟩

end Indicators.Plan
