import Indicators.Proofs.Plan.Sections

set_option autoImplicit false

/-! Inside the section planning stands at the path of the fields above; below the first table it
stands in the documents that the table joins, and nothing is looked up any more. So every level has
a place in closed form. -/

namespace Indicators.Plan

open Indicators Indicators.Metric Indicators.Pipeline Indicators.Schema

def under (base : String) (fields : List String) : String := fields.foldl within base

theorem under_append (base : String) (fields : List String) (field : String) :
    under base (fields ++ [field]) = within (under base fields) field := by
  simp [under]

theorem under_dotted {names : List String} (hne : names ≠ []) (hbase : dotted names ≠ "")
    (fields : List String) : under (dotted names) fields = dotted (names ++ fields) := by
  induction fields generalizing names with
  | nil => simp [under]
  | cons field rest ih =>
    have hstep := dotted_within hne hbase field
    have hnext : dotted (names ++ [field]) ≠ "" := hstep ▸ within_ne_empty hbase field
    have hrest := ih (by simp) hnext
    rw [List.append_assoc, List.singleton_append] at hrest
    rw [← hrest, hstep]
    rfl

theorem under_empty {field : String} (h : field ≠ "") (rest : List String) :
    under "" (field :: rest) = dotted (field :: rest) := by
  have hfirst : within "" field = dotted [field] := by simp [within, dotted]
  have hpath := under_dotted (List.cons_ne_nil field []) h rest
  rw [← hfirst] at hpath
  exact hpath

/-- The fields of the levels from one index to before another, outermost first. -/
def fieldsBetween (levels : List Level) (first last : Nat) : List String :=
  ((levels.take last).drop first).filterMap (·.fieldPath)

def fieldsAbove (levels : List Level) (i : Nat) : List String := fieldsBetween levels 0 i

theorem fieldsBetween_self (levels : List Level) (i : Nat) : fieldsBetween levels i i = [] := by
  have h : (levels.take i).drop i = [] :=
    List.drop_eq_nil_of_le (by rw [List.length_take]; omega)
  simp [fieldsBetween, h]

theorem fieldsBetween_succ {levels : List Level} {i first : Nat} {l : Level} {field : String}
    (hl : levels[i]? = some l) (hf : l.fieldPath = some field) (hfirst : first ≤ i) :
    fieldsBetween levels first (i + 1) = fieldsBetween levels first i ++ [field] := by
  have hi := (List.getElem?_eq_some_iff.1 hl).1
  have hlen : first ≤ (levels.take i).length := by rw [List.length_take]; omega
  unfold fieldsBetween
  rw [List.take_add_one, hl, List.drop_append_of_le_length hlen, List.filterMap_append]
  simp [hf]

def Connected (levels : List Level) : Prop :=
  ∀ i l, i + 1 < levels.length → levels[i]? = some l → ∃ field, l.fieldPath = some field

section

variable (types : FieldTypes) (sectionPath : List String) (levels : List Level)

def insidePath (i : Nat) : String :=
  under (dotted (sectionPath.drop 1)) (fieldsAbove levels (i + 1))

def recordedKind (i : Nat) : FieldKind :=
  kindOf types sectionPath.head? (some (insidePath sectionPath levels i))

def tableAbove? (i : Nat) : Option Nat :=
  (List.range i).find? fun k => joins (recordedKind types sectionPath levels k)

def positionAt (i : Nat) : Position :=
  match tableAbove? types sectionPath levels i with
  | none =>
    ⟨under (dotted sectionPath) (fieldsAbove levels i),
      some (under (dotted (sectionPath.drop 1)) (fieldsAbove levels i)), false⟩
  | some j => ⟨under ("_joined_l" ++ toString j) (fieldsBetween levels (j + 1) i), none, i == j + 1⟩

/-- What planning has to report at a level that it goes beyond. -/
def fault? (i : Nat) : Option PlanError :=
  match tableAbove? types sectionPath levels i with
  | none =>
    (danglingOf types sectionPath.head? (some (insidePath sectionPath levels i))).map fun d =>
      .unresolvedJoinTarget i d.1 d.2
  | some _ => none

def plannedKind (i : Nat) (l : Level) : FieldKind :=
  kindOf types sectionPath.head? ((positionAt types sectionPath levels i).schemaPath l.fieldPath)

def descentAt (i : Nat) (l : Level) : Descent :=
  if i + 1 = levels.length then .innermost
  else match plannedKind types sectionPath levels i l with
    | .table target => .join (joinOf i target)
    | _ =>
      .unwind ⟨within (positionAt types sectionPath levels i).base (l.fieldPath.getD ""),
        "_idx_l" ++ toString i⟩

def placementAt (i : Nat) (l : Level) : Placement :=
  let position := positionAt types sectionPath levels i
  { base := position.base
    path := l.fieldPath.map (within position.base)
    kind := plannedKind types sectionPath levels i l
    joined := position.joined
    descent := descentAt types sectionPath levels i l }

end

variable {types : FieldTypes} {sectionPath : List String} {levels : List Level}

theorem tableAbove?_succ (i : Nat) :
    tableAbove? types sectionPath levels (i + 1) =
      (tableAbove? types sectionPath levels i).or
        (if joins (recordedKind types sectionPath levels i) then some i else none) := by
  unfold tableAbove?
  rw [List.range_succ, List.find?_append, List.find?_singleton]

theorem tableAbove?_lt {i j : Nat} (h : tableAbove? types sectionPath levels i = some j) :
    j < i := List.mem_range.1 (List.mem_of_find?_eq_some h)

theorem insidePath_eq {i : Nat} {l : Level} {field : String} (hl : levels[i]? = some l)
    (hf : l.fieldPath = some field) :
    insidePath sectionPath levels i =
      within (under (dotted (sectionPath.drop 1)) (fieldsAbove levels i)) field := by
  unfold insidePath fieldsAbove
  rw [fieldsBetween_succ hl hf (Nat.zero_le i), under_append]

/-- Above every table planning looks up the path inside the section, below one nothing. -/
theorem schemaPath_positionAt {i : Nat} {l : Level} {field : String} (hl : levels[i]? = some l)
    (hf : l.fieldPath = some field) :
    (positionAt types sectionPath levels i).schemaPath l.fieldPath =
      match tableAbove? types sectionPath levels i with
      | none => some (insidePath sectionPath levels i)
      | some _ => none := by
  unfold positionAt
  cases tableAbove? types sectionPath levels i with
  | none => rw [hf, insidePath_eq hl hf]; rfl
  | some j => rfl

theorem plannedKind_eq {i : Nat} {l : Level} {field : String} (hl : levels[i]? = some l)
    (hf : l.fieldPath = some field) :
    plannedKind types sectionPath levels i l =
      match tableAbove? types sectionPath levels i with
      | none => recordedKind types sectionPath levels i
      | some _ => .scalar := by
  unfold plannedKind
  rw [schemaPath_positionAt hl hf]
  cases tableAbove? types sectionPath levels i with
  | none => rfl
  | some j => cases sectionPath.head? <;> rfl

theorem positionAt_succ {i : Nat} {l : Level} {field : String} (hl : levels[i]? = some l)
    (hf : l.fieldPath = some field) :
    positionAt types sectionPath levels (i + 1) =
      match plannedKind types sectionPath levels i l with
      | .table _ => ⟨"_joined_l" ++ toString i, none, true⟩
      | _ =>
        ⟨within (positionAt types sectionPath levels i).base field,
          (positionAt types sectionPath levels i).schemaPath l.fieldPath, false⟩ := by
  rw [plannedKind_eq hl hf, schemaPath_positionAt hl hf]
  unfold positionAt
  rw [tableAbove?_succ]
  cases htable : tableAbove? types sectionPath levels i with
  | none =>
    have hfields := fieldsBetween_succ hl hf (Nat.zero_le i)
    rw [insidePath_eq hl hf]
    cases recordedKind types sectionPath levels i with
    | table target => simp [joins, fieldsBetween_self, under]
    | scalar | date | subform => simp [joins, fieldsAbove, hfields, under_append]
  | some j =>
    have hlt := tableAbove?_lt htable
    have hne : i ≠ j := by omega
    simp [fieldsBetween_succ hl hf hlt, under_append, hne]

theorem danglingOf_positionAt {i : Nat} {l : Level} {field : String} (hl : levels[i]? = some l)
    (hf : l.fieldPath = some field) :
    ((danglingOf types sectionPath.head?
        ((positionAt types sectionPath levels i).schemaPath l.fieldPath)).map fun d =>
          PlanError.unresolvedJoinTarget i d.1 d.2) = fault? types sectionPath levels i := by
  unfold fault?
  rw [schemaPath_positionAt hl hf]
  cases tableAbove? types sectionPath levels i <;> rfl

theorem descend_positionAt {i : Nat} {l : Level} {field : String} (hl : levels[i]? = some l)
    (hf : l.fieldPath = some field) (hin : i + 1 < levels.length) :
    descend types sectionPath.head? (positionAt types sectionPath levels i) (outlineOf i l) =
      match fault? types sectionPath levels i with
      | some e => .error e
      | none =>
        .ok (descentAt types sectionPath levels i l, positionAt types sectionPath levels (i + 1)) := by
  rw [← danglingOf_positionAt hl hf, positionAt_succ hl hf]
  unfold descend descentAt
  rw [if_neg (by omega)]
  simp only [hf, outlineOf, plannedKind, Option.getD_some]
  cases danglingOf types sectionPath.head?
      ((positionAt types sectionPath levels i).schemaPath (some field)) with
  | some d => rfl
  | none =>
    cases kindOf types sectionPath.head?
      ((positionAt types sectionPath levels i).schemaPath (some field)) <;> rfl

variable {isInnermost : Nat → Bool}

theorem placeLevels_innermost (hin : ∀ k, isInnermost k = (k + 1 == levels.length)) {i : Nat}
    {l : Level} (hlast : i + 1 = levels.length) :
    placeLevels types sectionPath.head? isInnermost (positionAt types sectionPath levels i)
        [outlineOf i l] = .ok [placementAt types sectionPath levels i l] := by
  have h : isInnermost (outlineOf i l).index = true := by simp [hin, outlineOf, hlast]
  unfold placeLevels
  rw [h]
  simp [placeLevels, placementAt, descentAt, plannedKind, hlast, outlineOf, bind, Except.bind,
    pure, Except.pure]

theorem placeLevels_inner (hin : ∀ k, isInnermost k = (k + 1 == levels.length)) {i : Nat}
    {l : Level} {field : String} (hl : levels[i]? = some l) (hf : l.fieldPath = some field)
    (hlast : i + 1 < levels.length) (rest : List OutlineLevel) :
    placeLevels types sectionPath.head? isInnermost (positionAt types sectionPath levels i)
        (outlineOf i l :: rest) =
      match fault? types sectionPath levels i with
      | some e => .error e
      | none =>
        (placementAt types sectionPath levels i l :: ·) <$>
          placeLevels types sectionPath.head? isInnermost
            (positionAt types sectionPath levels (i + 1)) rest := by
  have h : isInnermost (outlineOf i l).index = false := by
    simp only [hin, outlineOf, beq_eq_false_iff_ne]
    omega
  rw [placeLevels, h, if_neg Bool.false_ne_true, descend_positionAt hl hf hlast]
  cases fault? types sectionPath levels i with
  | some e => rfl
  | none =>
    change (placeLevels _ _ _ _ rest >>= fun below => pure (_ :: below)) = _
    cases placeLevels types sectionPath.head? isInnermost
      (positionAt types sectionPath levels (i + 1)) rest <;> rfl

/-- Planning reports the first fault of the levels that it goes beyond, or else gives every level
its place. -/
theorem placeLevels_positionAt (hc : Connected levels)
    (hin : ∀ k, isInnermost k = (k + 1 == levels.length)) {n i : Nat}
    (hn : i + n = levels.length) :
    placeLevels types sectionPath.head? isInnermost (positionAt types sectionPath levels i)
        (outlinesFrom i (levels.drop i)) =
      match (List.range' i (n - 1)).findSome? (fault? types sectionPath levels) with
      | some e => .error e
      | none =>
        .ok ((levels.drop i).mapIdx fun k l => placementAt types sectionPath levels (i + k) l) := by
  induction n generalizing i with
  | zero =>
    rw [List.drop_eq_nil_of_le (by omega)]
    rfl
  | succ n ih =>
    have hi : i < levels.length := by omega
    obtain ⟨l, hl⟩ : ∃ l, levels[i]? = some l := ⟨_, List.getElem?_eq_getElem hi⟩
    have hdrop : levels.drop i = l :: levels.drop (i + 1) := by
      rw [List.drop_eq_getElem_cons hi, (List.getElem?_eq_some_iff.1 hl).2]
    rw [hdrop, outlinesFrom, Nat.add_sub_cancel]
    cases n with
    | zero =>
      rw [List.drop_eq_nil_of_le (by omega)]
      exact placeLevels_innermost hin (by omega)
    | succ n =>
      obtain ⟨field, hf⟩ := hc i l (by omega) hl
      rw [placeLevels_inner hin hl hf (by omega), List.range'_succ, List.findSome?_cons]
      cases fault? types sectionPath levels i with
      | some e => rfl
      | none =>
        have hrest := ih (i := i + 1) (by omega)
        rw [Nat.add_sub_cancel] at hrest
        simp only [hrest]
        cases (List.range' (i + 1) n).findSome? (fault? types sectionPath levels) with
        | some e => rfl
        | none =>
          simp only [List.mapIdx_cons, Nat.add_zero, Nat.add_right_comm i _ 1, ← Nat.add_assoc]
          rfl

theorem positionAt_zero :
    positionAt types sectionPath levels 0 = startOf sectionPath := rfl

theorem isInnermost_ofConfiguration (c : Configuration) (i : Nat) :
    (Outline.ofConfiguration c).isInnermost i = (i + 1 == c.toList.length) := by
  unfold Outline.isInnermost
  rw [Outline.depth_ofConfiguration, Levels.length_toList]

theorem places_eq {c : Configuration} (hc : Connected c.toList) :
    placeLevels types sectionPath.head? (Outline.ofConfiguration c).isInnermost
        (startOf sectionPath) (outlinesFrom 0 c.toList) =
      match (List.range (c.depth - 1)).findSome? (fault? types sectionPath c.toList) with
      | some e => .error e
      | none => .ok (c.toList.mapIdx (placementAt types sectionPath c.toList)) := by
  have h := @placeLevels_positionAt types sectionPath _ _ hc (isInnermost_ofConfiguration c)
    c.depth 0 (Nat.zero_add _)
  rw [positionAt_zero, ← List.range_eq_range'] at h
  simpa using h

theorem connected_of_places {sectionName : Option String} {i : Nat} {position : Position}
    {placements : List Placement} (hin : ∀ k, isInnermost k = (k + 1 == i + levels.length))
    (h : placeLevels types sectionName isInnermost position (outlinesFrom i levels) =
      .ok placements) : Connected levels := by
  induction levels generalizing i position placements with
  | nil => exact fun _ _ hlt => absurd hlt (Nat.not_lt_zero _)
  | cons l inner ih =>
    obtain ⟨descent, next, below, hd, hb, -⟩ := placeLevels_cons h
    rw [List.length_cons] at hin
    have hinner := ih (i := i + 1) (fun k => by rw [hin, Nat.add_right_comm, Nat.add_assoc]) hb
    intro k level hlt hlevel
    rw [List.length_cons] at hlt
    cases k with
    | zero =>
      cases hlevel
      have hbeyond : isInnermost (outlineOf i l).index = false := by
        simp only [hin, outlineOf, beq_eq_false_iff_ne]
        omega
      rw [hbeyond, if_neg Bool.false_ne_true] at hd
      obtain ⟨field, hf, -⟩ := descend_ok hd
      exact ⟨field, hf⟩
    | succ k => exact hinner k level (by omega) hlevel

theorem layout_ok {c : Configuration} {layout : Layout}
    (h : Layout.of? (Outline.ofConfiguration c) types sectionPath = .ok layout) :
    Connected c.toList ∧
      layout.levels = c.toList.mapIdx (placementAt types sectionPath c.toList) := by
  unfold Layout.of? at h
  rw [levels_ofConfiguration] at h
  obtain ⟨placements, hp, hl⟩ := bind_eq_ok.1 h
  injection hl with hl
  subst hl
  have hc := connected_of_places (fun k => by rw [isInnermost_ofConfiguration, Nat.zero_add]) hp
  refine ⟨hc, ?_⟩
  have heq := @places_eq types sectionPath c hc
  rw [show placeLevels types sectionPath.head? (Outline.ofConfiguration c).isInnermost
    (startOf sectionPath) (outlinesFrom 0 c.toList) = .ok placements from hp] at heq
  cases hfault : (List.range (c.depth - 1)).findSome? (fault? types sectionPath c.toList) with
  | some e => rw [hfault] at heq; cases heq
  | none => rw [hfault] at heq; exact Except.ok.inj heq

theorem tableAbove?_filter {i m : Nat} (h : i ≤ m) :
    tableAbove? types sectionPath levels i =
      (tableAbove? types sectionPath levels m).filter (· < i) := by
  induction m, h using Nat.le_induction with
  | base =>
    cases htable : tableAbove? types sectionPath levels i with
    | none => rfl
    | some j => simp [Option.filter, tableAbove?_lt htable]
  | succ m hm ih =>
    rw [ih, tableAbove?_succ]
    cases tableAbove? types sectionPath levels m with
    | some j => rfl
    | none =>
      by_cases hj : joins (recordedKind types sectionPath levels m) = true
      · simp [hj, Option.filter, hm]
      · simp [hj]

def Layout.firstTable? (layout : Layout) : Option Nat :=
  layout.levels.dropLast.findIdx? (joins ·.kind)

theorem findIdx?_kinds (hc : Connected levels) {n : Nat} (hn : n + 1 ≤ levels.length) :
    ((levels.mapIdx (placementAt types sectionPath levels)).take n).findIdx? (joins ·.kind) =
      tableAbove? types sectionPath levels n := by
  induction n with
  | zero => rfl
  | succ n ih =>
    obtain ⟨l, hl⟩ : ∃ l, levels[n]? = some l := ⟨_, List.getElem?_eq_getElem (by omega)⟩
    obtain ⟨field, hf⟩ := hc n l hn hl
    have hlen : ((levels.mapIdx (placementAt types sectionPath levels)).take n).length = n := by
      simp only [List.length_take, List.length_mapIdx]
      omega
    have hkind : (placementAt types sectionPath levels n l).kind =
        match tableAbove? types sectionPath levels n with
        | none => recordedKind types sectionPath levels n
        | some _ => .scalar := plannedKind_eq hl hf
    rw [List.take_add_one, List.findIdx?_append, ih (by omega), hlen, List.getElem?_mapIdx, hl,
      tableAbove?_succ]
    cases htable : tableAbove? types sectionPath levels n with
    | some j => rfl
    | none =>
      rw [htable] at hkind
      simp only [Option.map_some, Option.toList_some, List.findIdx?_singleton, hkind]
      split <;> simp

theorem firstTable?_eq {c : Configuration} {layout : Layout}
    (h : Layout.of? (Outline.ofConfiguration c) types sectionPath = .ok layout) :
    layout.firstTable? = tableAbove? types sectionPath c.toList (c.depth - 1) := by
  obtain ⟨hc, hlevels⟩ := layout_ok h
  unfold Layout.firstTable?
  rw [hlevels, List.dropLast_eq_take, List.length_mapIdx]
  exact findIdx?_kinds hc (by rw [Levels.length_toList]; unfold Levels.depth; omega)

def UpTo (table? : Option Nat) (i : Nat) : Prop := ∀ j ∈ table?, i ≤ j

/-- The plan of a level, where `table?` is the first level that joins. -/
structure PlannedLevel (types : FieldTypes) (first : String) (chain : List String)
    (c : Configuration) (table? : Option Nat) (i : Nat) (l : Level) (placed : Placement) :
    Prop where
  path : UpTo table? i → l.fieldPath ≠ none →
    placed.path = some (dotted (first :: chain ++ fieldsAbove c.toList (i + 1)))
  kind : UpTo table? i → l.fieldPath ≠ none →
    placed.kind = (types.get? first (insidePath (first :: chain) c.toList i)).getD .scalar
  /-- What is looked up is the path without the section. -/
  inside : UpTo table? i → l.fieldPath ≠ none → c.outer.fieldPath ≠ some "" →
    placed.path = some (first ++ "." ++ insidePath (first :: chain) c.toList i)
  unwinds : i + 1 < c.depth → table? ≠ some i →
    ∃ path, placed.path = some path ∧ placed.descent = .unwind ⟨path, "_idx_l" ++ toString i⟩
  joins : table? = some i →
    ∃ step, placed.descent = .join step ∧ placed.kind = .table step.target ∧
      step.output = "_joined_l" ++ toString i
  innermost : i + 1 = c.depth → placed.descent = .innermost
  below : ∀ j ∈ table?, j < i →
    placed.base = dotted (("_joined_l" ++ toString j) :: fieldsBetween c.toList (j + 1) i) ∧
      placed.kind = .scalar
  joined : placed.joined = true ↔ ∃ j ∈ table?, i = j + 1

theorem outer_field {c : Configuration} {i : Nat} {l : Level} (hc : Connected c.toList)
    (hl : c.toList[i]? = some l) (hf : l.fieldPath ≠ none) :
    ∃ field, c.outer.fieldPath = some field ∧
      fieldsAbove c.toList (i + 1) = field :: fieldsBetween c.inner 0 i := by
  have hfield : ∃ field, c.outer.fieldPath = some field := by
    cases i with
    | zero =>
      cases hl
      exact Option.ne_none_iff_exists'.1 hf
    | succ i => exact hc 0 c.outer (by have := (List.getElem?_eq_some_iff.1 hl).1; omega) rfl
  obtain ⟨field, hf⟩ := hfield
  refine ⟨field, hf, ?_⟩
  simp [fieldsAbove, fieldsBetween, Levels.toList, hf]

theorem dotted_inside {first : String} {chain : List String}
    (hentries : ∀ entry ∈ first :: chain, entry ≠ "") {c : Configuration} {i : Nat} {l : Level}
    (hc : Connected c.toList) (hl : c.toList[i]? = some l) (hf : l.fieldPath ≠ none)
    (houter : c.outer.fieldPath ≠ some "") :
    dotted (first :: chain ++ fieldsAbove c.toList (i + 1)) =
      first ++ "." ++ insidePath (first :: chain) c.toList i := by
  obtain ⟨field, hfield, hfields⟩ := outer_field hc hl hf
  unfold insidePath
  rw [hfields]
  cases chain with
  | nil =>
    have hne : field ≠ "" := fun e => houter (e ▸ hfield)
    change _ = first ++ "." ++ under "" (field :: _)
    rw [under_empty hne]
    rfl
  | cons entry rest =>
    have hentry := (dotted_root (hentries entry (by simp)) rest).1
    change _ = first ++ "." ++ under (dotted (entry :: rest)) _
    rw [under_dotted (List.cons_ne_nil entry rest) hentry]
    rfl

section

variable {first : String} {chain : List String} {i : Nat} {l : Level}

theorem base_up_to (hbase : dotted (first :: chain) ≠ "")
    (h : tableAbove? types (first :: chain) levels i = none) :
    (positionAt types (first :: chain) levels i).base =
      dotted (first :: chain ++ fieldsAbove levels i) := by
  unfold positionAt
  rw [h, under_dotted (List.cons_ne_nil first chain) hbase]

theorem path_up_to (hbase : dotted (first :: chain) ≠ "")
    (h : tableAbove? types (first :: chain) levels i = none) (hl : levels[i]? = some l)
    (hf : l.fieldPath ≠ none) :
    (placementAt types (first :: chain) levels i l).path =
      some (dotted (first :: chain ++ fieldsAbove levels (i + 1))) := by
  obtain ⟨field, hf⟩ := Option.ne_none_iff_exists'.1 hf
  have hne := List.cons_ne_nil first chain
  change l.fieldPath.map (within (positionAt types (first :: chain) levels i).base) = _
  rw [hf, Option.map_some, base_up_to hbase h, fieldsAbove, fieldsAbove,
    fieldsBetween_succ hl hf (Nat.zero_le i), ← under_dotted hne hbase, ← under_dotted hne hbase,
    under_append]

theorem kind_up_to (h : tableAbove? types sectionPath levels i = none) (hl : levels[i]? = some l)
    (hf : l.fieldPath ≠ none) :
    plannedKind types sectionPath levels i l = recordedKind types sectionPath levels i := by
  obtain ⟨field, hf⟩ := Option.ne_none_iff_exists'.1 hf
  rw [plannedKind_eq hl hf, h]

theorem position_below {j : Nat} (h : tableAbove? types sectionPath levels i = some j) :
    positionAt types sectionPath levels i =
      ⟨dotted (("_joined_l" ++ toString j) :: fieldsBetween levels (j + 1) i), none, i == j + 1⟩ := by
  have hpath := under_dotted (List.cons_ne_nil ("_joined_l" ++ toString j) [])
    (joinedName_ne_empty j) (fieldsBetween levels (j + 1) i)
  unfold positionAt
  rw [h]
  exact congrArg (Position.mk · none (i == j + 1)) hpath

theorem kind_below {j : Nat} (h : tableAbove? types sectionPath levels i = some j) :
    plannedKind types sectionPath levels i l = .scalar := by
  unfold plannedKind
  rw [position_below h]
  cases sectionPath.head? <;> rfl

theorem descentAt_unwind (hlast : i + 1 ≠ levels.length) {field : String}
    (hf : l.fieldPath = some field)
    (hk : joins (plannedKind types sectionPath levels i l) = false) :
    descentAt types sectionPath levels i l =
      .unwind ⟨within (positionAt types sectionPath levels i).base field,
        "_idx_l" ++ toString i⟩ := by
  unfold descentAt
  rw [if_neg hlast, hf]
  cases h : plannedKind types sectionPath levels i l with
  | table target => rw [h] at hk; cases hk
  | _ => rfl

end

theorem joins_iff {kind : FieldKind} : joins kind = true ↔ ∃ target, kind = .table target := by
  cases kind <;> simp [joins]

section

variable {c : Configuration} {i : Nat} {l : Level}

def tableIn (types : FieldTypes) (sectionPath : List String) (c : Configuration) :
    Option Nat := tableAbove? types sectionPath c.toList (c.depth - 1)

theorem tableIn_spec {j : Nat} (h : tableIn types sectionPath c = some j) :
    j + 1 < c.depth ∧ joins (recordedKind types sectionPath c.toList j) = true := by
  have hlt := tableAbove?_lt h
  unfold tableIn tableAbove? at h
  exact ⟨by omega, List.find?_some (p := fun k => joins (recordedKind types sectionPath c.toList k)) h⟩

theorem tableAbove?_eq (hi : i < c.depth) :
    tableAbove? types sectionPath c.toList i = (tableIn types sectionPath c).filter (· < i) :=
  tableAbove?_filter (by omega)

theorem tableAbove?_up_to (hi : i < c.depth) (h : UpTo (tableIn types sectionPath c) i) :
    tableAbove? types sectionPath c.toList i = none := by
  rw [tableAbove?_eq hi]
  cases ht : tableIn types sectionPath c with
  | none => rfl
  | some j => simpa [Option.filter] using h j ht

theorem tableAbove?_eq_some {j : Nat} (hi : i < c.depth) :
    tableAbove? types sectionPath c.toList i = some j ↔
      j ∈ tableIn types sectionPath c ∧ j < i := by
  rw [tableAbove?_eq hi]
  simp [Option.filter_eq_some_iff]

theorem tableIn_eq_some (hi : i + 1 < c.depth)
    (h : tableAbove? types sectionPath c.toList i = none)
    (hj : joins (recordedKind types sectionPath c.toList i) = true) :
    tableIn types sectionPath c = some i := by
  have hsucc : tableAbove? types sectionPath c.toList (i + 1) = some i := by
    rw [tableAbove?_succ, h, if_pos hj]
    rfl
  exact ((tableAbove?_eq_some hi).1 hsucc).1

theorem descent_unwinds (hc : Connected c.toList) (hl : c.toList[i]? = some l)
    (hi : i + 1 < c.depth) (ht : tableIn types sectionPath c ≠ some i) :
    ∃ path, (placementAt types sectionPath c.toList i l).path = some path ∧
      (placementAt types sectionPath c.toList i l).descent =
        .unwind ⟨path, "_idx_l" ++ toString i⟩ := by
  obtain ⟨field, hf⟩ := hc i l hi hl
  have hkind : joins (plannedKind types sectionPath c.toList i l) = false := by
    cases h : tableAbove? types sectionPath c.toList i with
    | none =>
      rw [kind_up_to h hl (by simp [hf])]
      exact Bool.eq_false_iff.2 fun hj => ht (tableIn_eq_some hi h hj)
    | some j => rw [kind_below h]; rfl
  refine ⟨within (positionAt types sectionPath c.toList i).base field, ?_,
    descentAt_unwind (Nat.ne_of_lt hi) hf hkind⟩
  change l.fieldPath.map _ = _
  rw [hf, Option.map_some]

theorem descent_joins (hc : Connected c.toList) (hl : c.toList[i]? = some l)
    (ht : tableIn types sectionPath c = some i) :
    ∃ step, (placementAt types sectionPath c.toList i l).descent = .join step ∧
      (placementAt types sectionPath c.toList i l).kind = .table step.target ∧
      step.output = "_joined_l" ++ toString i := by
  obtain ⟨hi, hj⟩ := tableIn_spec ht
  obtain ⟨field, hf⟩ := hc i l hi hl
  have habove : tableAbove? types sectionPath c.toList i = none :=
    tableAbove?_up_to (by omega) fun j hmem => by
      rw [Option.mem_def.1 hmem] at ht
      injection ht with ht
      omega
  obtain ⟨target, htarget⟩ := joins_iff.1 hj
  have hkind : plannedKind types sectionPath c.toList i l = .table target :=
    (kind_up_to habove hl (by simp [hf])).trans htarget
  refine ⟨joinOf i target, ?_, hkind, rfl⟩
  change descentAt types sectionPath c.toList i l = _
  unfold descentAt
  rw [if_neg (show i + 1 ≠ c.toList.length from Nat.ne_of_lt hi), hkind]

theorem joined_iff (hi : i < c.depth) :
    (placementAt types sectionPath c.toList i l).joined = true ↔
      ∃ j ∈ tableIn types sectionPath c, i = j + 1 := by
  change (positionAt types sectionPath c.toList i).joined = true ↔ _
  cases h : tableAbove? types sectionPath c.toList i with
  | none =>
    have hfalse : (positionAt types sectionPath c.toList i).joined = false := by
      unfold positionAt
      rw [h]
    rw [hfalse]
    refine ⟨nofun, fun ⟨j, hj, hij⟩ => ?_⟩
    rw [(tableAbove?_eq_some hi).2 ⟨hj, by omega⟩] at h
    cases h
  | some j =>
    have hj := ((tableAbove?_eq_some hi).1 h).1
    rw [position_below h]
    simp [Option.mem_def.1 hj]

end

theorem plannedLevel {first : String} {chain : List String}
    (hentries : ∀ entry ∈ first :: chain, entry ≠ "") {c : Configuration} {i : Nat} {l : Level}
    (hc : Connected c.toList) (hl : c.toList[i]? = some l) :
    PlannedLevel types first chain c (tableIn types (first :: chain) c) i l
      (placementAt types (first :: chain) c.toList i l) := by
  have hi : i < c.depth := (List.getElem?_eq_some_iff.1 hl).1
  have hbase := (dotted_root (hentries first List.mem_cons_self) chain).1
  have habove := @tableAbove?_up_to types (first :: chain) c i hi
  constructor
  case path => exact fun h hf => path_up_to hbase (habove h) hl hf
  case kind => exact fun h hf => kind_up_to (habove h) hl hf
  case inside =>
    intro h hf houter
    rw [path_up_to hbase (habove h) hl hf, dotted_inside hentries hc hl hf houter]
  case unwinds => exact descent_unwinds hc hl
  case joins => exact descent_joins hc hl
  case innermost => exact fun h => if_pos h
  case below =>
    intro j hj hlt
    have htable := (tableAbove?_eq_some hi).2 ⟨hj, hlt⟩
    exact ⟨congrArg Position.base (position_below htable), kind_below htable⟩
  case joined => exact joined_iff hi

/-- Levels inside the section are planned at their paths and looked up there. The first of them that
is a table, unless it is innermost, is the only one that joins, and everything below it is planned
inside the documents that it joins. -/
theorem layout_places {first : String} {chain : List String}
    (hentries : ∀ entry ∈ first :: chain, entry ≠ "") {c : Configuration} {layout : Layout}
    (h : Layout.of? (Outline.ofConfiguration c) types (first :: chain) = .ok layout) :
    layout.levels.length = c.depth ∧
      (∀ (i : Nat) (l : Level) (placed : Placement), c.toList[i]? = some l →
        layout.levels[i]? = some placed →
          PlannedLevel types first chain c layout.firstTable? i l placed) ∧
      ∀ (i k : Nat) (placed other : Placement), layout.levels[i]? = some placed →
        layout.levels[k]? = some other → placed.descent.isJoin = true →
          other.descent.isJoin = true → i = k := by
  obtain ⟨hc, hlevels⟩ := layout_ok h
  rw [show layout.firstTable? = tableIn types (first :: chain) c from firstTable?_eq h, hlevels]
  have hplanned (i : Nat) (placed : Placement)
      (hp : (c.toList.mapIdx (placementAt types (first :: chain) c.toList))[i]? = some placed) :
      ∃ l, c.toList[i]? = some l ∧
        PlannedLevel types first chain c (tableIn types (first :: chain) c) i l placed := by
    rw [List.getElem?_mapIdx] at hp
    obtain ⟨l, hl, rfl⟩ := Option.map_eq_some_iff.1 hp
    exact ⟨l, hl, plannedLevel hentries hc hl⟩
  have hjoin (i : Nat) (placed : Placement)
      (hp : (c.toList.mapIdx (placementAt types (first :: chain) c.toList))[i]? = some placed)
      (hd : placed.descent.isJoin = true) : tableIn types (first :: chain) c = some i := by
    obtain ⟨l, hl, hplan⟩ := hplanned i placed hp
    have hi : i < c.depth := (List.getElem?_eq_some_iff.1 hl).1
    by_contra ht
    by_cases hlast : i + 1 = c.depth
    · rw [hplan.innermost hlast] at hd
      cases hd
    · obtain ⟨path, -, hu⟩ := hplan.unwinds (by omega) ht
      rw [hu] at hd
      cases hd
  refine ⟨List.length_mapIdx, fun i l placed hl hp => ?_, fun i k placed other hp ho hd he => ?_⟩
  · obtain ⟨found, hfound, hplan⟩ := hplanned i placed hp
    cases hfound.symm.trans hl
    exact hplan
  · have hi := hjoin i placed hp hd
    rw [hjoin k other ho he] at hi
    exact (Option.some.inj hi).symm

def hosted (operation : Operation) (field : String) : Level :=
  ⟨"students", operation, some field, ["mobility", "visits"], [], none, none, none⟩

def hosting : Configuration :=
  ⟨hosted .sum "events", [hosted .max "hosts", hosted .sum "info.rooms", hosted .average "beds"]⟩

def hotels : JoinTarget := ⟨"7", "Hotels", "hotels_data"⟩

def hostingTypes : FieldTypes :=
  { kinds := [("mobility", [("visits.events", .subform), ("visits.events.hosts", .table hotels)])] }

def hostingLayout : Layout :=
  ⟨some "mobility", [⟨"mobility.visits", "_idx_s1"⟩],
    [⟨"mobility.visits", some "mobility.visits.events", .subform, false,
        .unwind ⟨"mobility.visits.events", "_idx_l0"⟩⟩,
      ⟨"mobility.visits.events", some "mobility.visits.events.hosts", .table hotels, false,
        .join ⟨hotels, "_refs_l1", "_joined_l1", "_idx_l1"⟩⟩,
      ⟨"_joined_l1", some "_joined_l1.info.rooms", .scalar, true,
        .unwind ⟨"_joined_l1.info.rooms", "_idx_l2"⟩⟩,
      ⟨"_joined_l1.info.rooms", some "_joined_l1.info.rooms.beds", .scalar, false, .innermost⟩]⟩

theorem layout_places_hosting :
    (∀ entry ∈ ["mobility", "visits"], entry ≠ "") ∧
      Layout.of? (Outline.ofConfiguration hosting) hostingTypes ["mobility", "visits"] =
        .ok hostingLayout ∧
      hostingLayout.levels.length = 4 ∧ hostingLayout.firstTable? = some 1 ∧
      ∀ placed ∈ hostingLayout.levels[2]?,
        PlannedLevel hostingTypes "mobility" ["visits"] hosting (some 1) 2
          (hosted .sum "info.rooms") placed := by
  have hentries : ∀ entry ∈ ["mobility", "visits"], entry ≠ "" := by decide
  have hlayout : Layout.of? (Outline.ofConfiguration hosting) hostingTypes
      ["mobility", "visits"] = .ok hostingLayout := by rfl
  obtain ⟨hdepth, hplanned, -⟩ := layout_places hentries hlayout
  exact ⟨hentries, hlayout, hdepth, rfl, fun placed hp => hplanned 2 _ placed rfl hp⟩

end Indicators.Plan
