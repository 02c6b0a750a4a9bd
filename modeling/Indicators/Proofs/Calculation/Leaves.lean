import Indicators.Proofs.Calculation.Values
import Indicators.Proofs.Plan.Results

set_option autoImplicit false

/-! Where the section path names every subform down to the field, the metric reduces all that is
stored. A field path does not open the subforms it runs through: what it reads there is a list, and
a list is no number. -/

namespace Indicators.Calculation

open Indicators Indicators.Metric Indicators.Number Indicators.Pipeline Indicators.Plan
open Indicators.Schema

/-- An object in which every subform of the chain that is there is an array of such objects. -/
def shaped : List String → Json → Bool
  | [], element => element.isObject
  | name :: rest, element => element.isObject &&
    match reach (segments name) element with
    | none => true
    | some (.array items) => items.all (shaped rest)
    | some _ => false

def shapedDocument (name : String) (chain : List String) (doc : Json) : Bool :=
  doc.isObject && (reach (segments name) doc).all (shaped chain)

def itemsOf : Option Json → List Json
  | some (.array items) => items
  | _ => []

/-- What is stored under a field in all items of the last subform of a chain. -/
def leaves (field : String) : List String → Json → List Json
  | [], element => (reach (segments field) element).toList
  | name :: rest, element => (itemsOf (reach (segments name) element)).flatMap (leaves field rest)

def documentLeaves (name : String) (chain : List String) (field : String) (doc : Json) :
    List Json :=
  (reach (segments name) doc).toList.flatMap (leaves field chain)

def reducing (op : Operation) (collection : String) (sectionPath : List String) (field : String) :
    Configuration :=
  ⟨⟨collection, op, some field, sectionPath, [], none, none, none⟩, []⟩

theorem numbersOf_presentOf (values : List Json) :
    numbersOf (presentOf values) = numbersOf values := by
  unfold numbersOf presentOf
  rw [List.filterMap_filter]
  refine List.filterMap_congr fun v _ => ?_
  cases v <;> rfl

theorem reduction_presentOf {op : Operation} (h : op.isNumeric = true) (values : List Json) :
    reduction op (presentOf values) = reduction op values := by
  have hpresent : presentOf (presentOf values) = presentOf values := by
    unfold presentOf
    rw [List.filter_filter]
    simp
  cases op with
  | sum => simp only [reduction, sumOf, numbersOf_presentOf]
  | average => simp only [reduction, meanOf, numbersOf_presentOf]
  | max => simp only [reduction, hpresent]
  | min => simp only [reduction, hpresent]
  | _ => cases h

theorem ofJson_reduction_nil {op : Operation} (h : op.isNumeric = true) :
    MetricValue.ofJson (reduction op []) = .zero := by
  cases op with
  | sum => decide +kernel
  | average => rfl
  | max => rfl
  | min => rfl
  | _ => cases h

theorem ofJson_reduced {op : Operation} (h : op.isNumeric = true) (values : List Json) :
    MetricValue.ofJson ((reduced op values).getD .null) = .ofJson (reduction op values) := by
  unfold reduced
  cases values with
  | nil => exact (ofJson_reduction_nil h).symm
  | cons v rest => rfl

theorem presentOf_flatMap {α : Type} (f : α → List Json) (xs : List α) :
    presentOf (xs.flatMap f) = xs.flatMap fun x => presentOf (f x) :=
  List.filter_flatMap

def onlyPlacement (types : FieldTypes) (sectionPath : List String) (field : String) : Placement :=
  ⟨dotted sectionPath, some (within (dotted sectionPath) field),
    kindOf types sectionPath.head? ((startOf sectionPath).schemaPath (some field)), false, .innermost⟩

/-- A metric of one level reduces what its field holds in the elements of the section. -/
theorem compile_reducing {op : Operation} (hop : op.isNumeric = true) (locator : DateLocator)
    (schema : Schema) (collection : String) (sectionPath : List String) (field : String) :
    ∃ q, compile locator schema (reducing op collection sectionPath field) = .ok q ∧
      ∀ (foreign : String → List Json) (docs : List Json),
        Calculator.resultOf (run foreign docs q.stages) =
          .ofJson (reduction op (((run foreign docs
            (layoutOf sectionPath [onlyPlacement schema.types sectionPath field]).sectionStages).map
              (elementAt (dotted sectionPath))).map fun e => asNumber (valueAt field e))) := by
  have hplaced : placeLevels schema.types sectionPath.head?
      (Outline.ofConfiguration (reducing op collection sectionPath field)).isInnermost
      (startOf sectionPath) (outlinesFrom 0 (reducing op collection sectionPath field).toList) =
      .ok [onlyPlacement schema.types sectionPath field] := rfl
  obtain ⟨q, hq⟩ : ∃ q, compile locator schema (reducing op collection sectionPath field) = .ok q :=
    compile_of_places hplaced
  obtain ⟨placements, hsame, -, hstages⟩ := compile_ok hq
  obtain rfl := Except.ok.inj (hplaced.symm.trans hsame)
  refine ⟨q, hq, fun foreign docs => ?_⟩
  have hoperand (row : Json) :
      ((Outline.ofConfiguration (reducing op collection sectionPath field)).operand
          (layoutOf sectionPath [onlyPlacement schema.types sectionPath field]) 0 op).eval row =
        asNumber (valueAt field (elementAt (dotted sectionPath) row)) := by
    have hin : (Outline.ofConfiguration
        (reducing op collection sectionPath field)).isInnermost 0 = true := rfl
    unfold Outline.operand
    rw [counts_of_isNumeric hop, if_neg Bool.false_ne_true, hin, if_pos rfl]
    refine (eval_operand (dotted sectionPath) _ false .innermost
      (reducing op collection sectionPath field).outer row).trans ?_
    simp only [operandOf, reducing, hop, Bool.false_and, if_true]
    rfl
  have hsplit : q.stages =
      (layoutOf sectionPath [onlyPlacement schema.types sectionPath field]).sectionStages ++
        (Outline.ofConfiguration (reducing op collection sectionPath field)).rollup
          (layoutOf sectionPath [onlyPlacement schema.types sectionPath field]) 0 op := by
    rw [hstages]
    rfl
  rw [hsplit, run_append, run_rollup_zero, resultOf_resultDocs, ofJson_reduced hop, List.map_map]
  simp only [hoperand]
  rfl

theorem shapedDocument_section {name : String} {chain : List String} {doc : Json}
    (h : shapedDocument name chain doc = true) :
    doc.isObject = true ∧ ∀ element, reach (segments name) doc = some element →
      shaped chain element = true := by
  unfold shapedDocument at h
  rw [Bool.and_eq_true] at h
  refine ⟨h.1, fun element he => ?_⟩
  have hall := h.2
  rwa [he] at hall

theorem isObject_of_shaped {chain : List String} {element : Json} (h : shaped chain element = true) :
    element.isObject = true := by
  cases chain with
  | nil => exact h
  | cons name rest => exact (Bool.and_eq_true _ _ ▸ h).1

theorem subform_of_shaped {name : String} {rest : List String} {element : Json}
    (h : shaped (name :: rest) element = true) :
    reach (segments name) element = none ∨ ∃ items,
      reach (segments name) element = some (.array items) ∧ ∀ item ∈ items, shaped rest item = true := by
  rw [shaped, Bool.and_eq_true] at h
  obtain ⟨-, h⟩ := h
  split at h
  · next hnone => exact .inl hnone
  · next items harray => exact .inr ⟨items, harray, List.all_eq_true.1 h⟩
  · cases h

theorem sectionElements_shaped {name : String} {chain : List String} {doc : Json}
    (h : shapedDocument name chain doc = true) :
    sectionElements (name :: chain) doc =
      (reach (segments name) doc).toList.flatMap fun element => openChain [element] chain := by
  obtain ⟨-, hsection⟩ := shapedDocument_section h
  rw [sectionElements]
  unfold candidates valueAt
  cases hr : reach (segments name) doc with
  | none =>
    rw [listReached_of_reach_none hr]
    rfl
  | some element =>
    rw [listReached_of_reach_object hr (isObject_of_shaped (hsection element hr))]
    simp

theorem openChain_nil (chain : List String) : openChain [] chain = [] := by
  induction chain with
  | nil => rfl
  | cons name rest ih => exact ih

theorem presentOf_openChain (field : String) {chain : List String} {element : Json}
    (h : shaped chain element = true) :
    presentOf ((openChain [element] chain).map fun e => asNumber (valueAt field e)) =
      presentOf ((leaves field chain element).map asNumber) := by
  induction chain generalizing element with
  | nil =>
    have hopen : openChain [element] [] = [element] := rfl
    rw [hopen, List.map_singleton, leaves]
    unfold valueAt
    cases reach (segments field) element <;> rfl
  | cons name rest ih =>
    have hopen : openChain [element] (name :: rest) =
        openChain (manyOf (valueAt name element)) rest := by
      rw [openChain_cons, List.flatMap_singleton]
    rw [hopen, leaves]
    unfold valueAt
    obtain hnone | ⟨items, harray, hitems⟩ := subform_of_shaped h
    · rw [hnone, Option.getD_none, manyOf, openChain_nil]
      rfl
    · have hsplit : openChain items rest = items.flatMap fun item => openChain [item] rest := by
        rw [← openChain_flatMap, List.flatMap_singleton']
      rw [harray, Option.getD_some, manyOf, itemsOf, hsplit, List.map_flatMap, List.map_flatMap,
        presentOf_flatMap, presentOf_flatMap]
      exact List.flatMap_congr fun item hi => ih (hitems item hi)

theorem valueAt_null (path : String) : valueAt path .null = .null := rfl

/-- A path through a subform reads a list or nothing, and neither is a number. -/
theorem asNumber_through_subform {name : String} {rest : List String} {field : String}
    {element : Json} (h : shaped (name :: rest) element = true) :
    asNumber (valueAt (dotted (name :: rest ++ [field])) element) = .null := by
  unfold valueAt
  rw [List.cons_append, segments_dotted, List.flatMap_cons, reach_append]
  obtain hnone | ⟨items, harray, -⟩ := subform_of_shaped h
  · rw [hnone]
    rfl
  · rw [harray, Option.bind_some, reach_array]
    rfl

theorem reduction_congr {op : Operation} (h : op.isNumeric = true) {values others : List Json}
    (he : presentOf values = presentOf others) : reduction op values = reduction op others := by
  rw [← reduction_presentOf h values, he, reduction_presentOf h]

/-- With the subforms in the section path a metric reduces all leaves. With the subforms in the
field path it has nothing to reduce. -/
theorem resultOf_leaves {op : Operation} (hop : op.isNumeric = true) {name : String}
    (hname : name ≠ "") {chain : List String} (hchain : chain ≠ [])
    (hfree : rootOf name ∉ sectionIndexes (name :: chain)) (locator : DateLocator)
    (schema : Schema) (collection field : String) :
    ∃ deep flat,
      compile locator schema (reducing op collection (name :: chain) field) = .ok deep ∧
      compile locator schema (reducing op collection [name] (dotted (chain ++ [field]))) =
        .ok flat ∧
      ∀ (foreign : String → List Json) (docs : List Json),
        (∀ doc ∈ docs, shapedDocument name chain doc = true) →
        Calculator.resultOf (run foreign docs deep.stages) =
          .ofJson (reduction op ((docs.flatMap (documentLeaves name chain field)).map asNumber)) ∧
        Calculator.resultOf (run foreign docs flat.stages) = .zero := by
  obtain ⟨deep, hdeep, hrunDeep⟩ :=
    compile_reducing hop locator schema collection (name :: chain) field
  obtain ⟨flat, hflat, hrunFlat⟩ :=
    compile_reducing hop locator schema collection [name] (dotted (chain ++ [field]))
  refine ⟨deep, flat, hdeep, hflat, fun foreign docs hshaped => ⟨?_, ?_⟩⟩
  · have hobjects : ∀ doc ∈ docs, doc.isObject = true := fun doc hd =>
      (shapedDocument_section (hshaped doc hd)).1
    have helements := sectionStages_elements foreign chain
      [onlyPlacement schema.types (name :: chain) field] hname hfree hobjects
    rw [hrunDeep]
    refine congrArg MetricValue.ofJson (reduction_congr hop ?_)
    rw [helements, List.map_flatMap, List.map_flatMap, presentOf_flatMap, presentOf_flatMap]
    refine List.flatMap_congr fun doc hd => ?_
    rw [sectionElements_shaped (hshaped doc hd), documentLeaves, List.map_flatMap,
      List.map_flatMap, presentOf_flatMap, presentOf_flatMap]
    refine List.flatMap_congr fun element he => presentOf_openChain field ?_
    exact (shapedDocument_section (hshaped doc hd)).2 element (Option.mem_toList.1 he)
  -- A section path of one name opens nothing, so every document is read once, and as null.
  · obtain ⟨first, rest, rfl⟩ := List.exists_cons_of_ne_nil hchain
    have hnull : ∀ doc ∈ docs, asNumber (valueAt (dotted (first :: rest ++ [field]))
        (elementAt (dotted [name]) doc)) = .null := by
      intro doc hd
      obtain ⟨-, hsection⟩ := shapedDocument_section (hshaped doc hd)
      rw [dotted, elementAt_of_ne hname, valueAt.eq_1 name]
      cases hr : reach (segments name) doc with
      | none => exact congrArg asNumber (valueAt_null _)
      | some element => exact asNumber_through_subform (hsection element hr)
    rw [hrunFlat, ← ofJson_reduction_nil hop]
    refine congrArg MetricValue.ofJson (reduction_congr hop ?_)
    rw [presentOf, List.map_map, List.filter_eq_nil_iff.2]
    · rfl
    · intro v hv
      obtain ⟨row, hr, rfl⟩ := List.mem_map.1 hv
      have hd : row ∈ docs := List.mem_of_mem_filter hr
      rw [Function.comp_apply, hnull row hd]
      decide

def eventSections (name : String) : List Schema.Section :=
  [⟨name, [⟨"Events", .subform, [⟨"Rank", .number, [], none⟩], none⟩]⟩]

def eventSchema (name : String) : Schema :=
  ⟨⟨"1", "Students", none, eventSections name⟩, resolve (eventSections name) []⟩

def eventsOf (ranks : List Nat) : Json :=
  .object [("Events", .array (ranks.map fun rank => .object [("Rank", .ofNat rank)]))]

def student (name id : String) (ranks : List Nat) : Json :=
  .ofMembers [("_id", .string id), (name, eventsOf ranks)]

def students : List Json := [student "Mobility" "a" [5, 2], student "Mobility" "b" [3]]

def nameless : Json := .object [("", eventsOf [7]), ("Events", .object [("Rank", .ofNat 4)])]

def ranksBy (name : String) (inner : List String) (field : String) (docs : List Json) :
    Except PlanError MetricValue := do
  let q ← compile .sectionWalk (eventSchema name)
    (reducing .sum "Students" (name :: inner) field)
  return Calculator.resultOf (run (fun _ => []) docs q.stages)

/-- Seven and three are ten, but not where the field path runs through the events. A section that
is named as a position is written over, and one without a name is not read by a field path. -/
theorem ranks_through_subform :
    ((eventSchema "Mobility").types.get? "Mobility" "Events" = some .subform ∧
      (eventSchema "Mobility").types.get? "Mobility" "Events.Rank" = some .scalar ∧
      (∀ doc ∈ students, shapedDocument "Mobility" ["Events"] doc = true) ∧
      students.flatMap (documentLeaves "Mobility" ["Events"] "Rank") =
        [.ofNat 5, .ofNat 2, .ofNat 3] ∧
      ranksBy "Mobility" ["Events"] "Rank" students = .ok (.int 10) ∧
      ranksBy "Mobility" [] "Events.Rank" students = .ok (.int 0)) ∧
    (shapedDocument "_idx_s1" ["Events"] (student "_idx_s1" "c" [7]) = true ∧
      documentLeaves "_idx_s1" ["Events"] "Rank" (student "_idx_s1" "c" [7]) = [.ofNat 7] ∧
      ranksBy "_idx_s1" ["Events"] "Rank" [student "_idx_s1" "c" [7]] = .ok (.int 0)) ∧
    (shapedDocument "" ["Events"] nameless = true ∧
      documentLeaves "" ["Events"] "Rank" nameless = [.ofNat 7] ∧
      ranksBy "" [] "Events.Rank" [nameless] = .ok (.int 4)) := by
  refine ⟨⟨?_, ?_, ?_, ?_, ?_, ?_⟩, ⟨?_, ?_, ?_⟩, ?_, ?_, ?_⟩ <;> decide +kernel

theorem resultOf_leaves_students :
    Operation.sum.isNumeric = true ∧ "Mobility" ≠ "" ∧ ["Events"] ≠ [] ∧
      rootOf "Mobility" ∉ sectionIndexes ["Mobility", "Events"] ∧
      (∀ doc ∈ students, shapedDocument "Mobility" ["Events"] doc = true) ∧
      ∃ deep flat,
        compile .sectionWalk (eventSchema "Mobility")
          (reducing .sum "Students" ["Mobility", "Events"] "Rank") = .ok deep ∧
        compile .sectionWalk (eventSchema "Mobility")
          (reducing .sum "Students" ["Mobility"] "Events.Rank") = .ok flat ∧
        Calculator.resultOf (run (fun _ => []) students deep.stages) = .int 10 ∧
        Calculator.resultOf (run (fun _ => []) students flat.stages) = .zero := by
  have hname : "Mobility" ≠ "" := by decide
  have hchain : ["Events"] ≠ [] := List.cons_ne_nil _ _
  have hfree : rootOf "Mobility" ∉ sectionIndexes ["Mobility", "Events"] := by decide +kernel
  have hshaped : ∀ doc ∈ students, shapedDocument "Mobility" ["Events"] doc = true := by
    decide +kernel
  obtain ⟨deep, flat, hdeep, hflat, hrun⟩ := @resultOf_leaves .sum rfl "Mobility" hname ["Events"]
    hchain hfree .sectionWalk (eventSchema "Mobility") "Students" "Rank"
  obtain ⟨hleaves, hzero⟩ := hrun (fun _ => []) students hshaped
  have hten : MetricValue.ofJson (reduction .sum
      ((students.flatMap (documentLeaves "Mobility" ["Events"] "Rank")).map asNumber)) = .int 10 := by
    decide +kernel
  exact ⟨rfl, hname, hchain, hfree, hshaped, deep, flat, hdeep, hflat, hleaves.trans hten, hzero⟩

end Indicators.Calculation
