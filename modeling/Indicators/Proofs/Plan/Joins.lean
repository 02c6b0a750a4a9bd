import Indicators.Proofs.Pipeline.References
import Indicators.Proofs.Plan.Rows
import Indicators.Proofs.Plan.Nesting
import Mathlib.Data.List.Dedup
import Mathlib.Data.List.Perm.Basic

set_option autoImplicit false

/-! The join goes through the documents of the other collection, not through the references: it
attaches every document that any reference refers to, in the order of the collection and as often as
it stands there. -/

namespace Indicators.Plan

open Indicators Indicators.Metric Indicators.Pipeline Indicators.Schema

theorem placeLevels_join {types : FieldTypes} {sectionName : Option String}
    {isInnermost : Nat → Bool} {levels : List OutlineLevel} {position : Position}
    {placements : List Placement}
    (h : placeLevels types sectionName isInnermost position levels = .ok placements)
    {placed : Placement} (hp : placed ∈ placements) {step : Joining}
    (hd : placed.descent = .join step) :
    ∃ level path, step = joinOf level step.target ∧ placed.path = some path := by
  induction levels generalizing position placements with
  | nil =>
    injection h with h
    subst h
    cases hp
  | cons level rest ih =>
    obtain ⟨descent, next, below, hhere, hbelow, rfl⟩ := placeLevels_cons h
    rcases List.mem_cons.1 hp with rfl | hp
    · split at hhere
      · subst hhere
        cases hd
      · obtain ⟨field, hfield, hkind⟩ := descend_ok hhere
        split at hkind
        · obtain ⟨rfl, -⟩ := hkind
          cases hd
          exact ⟨_, _, rfl, by rw [hfield]; rfl⟩
        · rw [hkind.1] at hd
          cases hd
    · exact ih hbelow hp

theorem Layout.joinStages {outline : Outline} {types : FieldTypes} {sectionPath : List String}
    {layout : Layout} (h : Layout.of? outline types sectionPath = .ok layout) {placed : Placement}
    (hp : placed ∈ layout.levels) {step : Joining} (hd : placed.descent = .join step) :
    ∃ level path, step = joinOf level step.target ∧ placed.path = some path ∧
      placed.descentStages = step.stages path := by
  obtain ⟨placements, hplaced, hl⟩ := bind_eq_ok.1 h
  injection hl with hl
  subst hl
  obtain ⟨level, path, hstep, hpath⟩ := placeLevels_join hplaced hp hd
  refine ⟨level, path, hstep, hpath, ?_⟩
  unfold Placement.descentStages
  rw [hd, hpath]
  rfl

theorem run_attaching (j : Joining) (collection : String → List Json) (path : String) {row : Json}
    (ho : row.isObject = true) :
    run collection [row] ((j.stages path).take 2) = [j.attached collection path row] :=
  congrArg (fun attached => [attached]) (attach_references j collection path ho)

theorem refersTo_iff {stored document : Json} :
    refersTo stored document = true ↔
      valueAt "_id" document ≠ .null ∧
        ∃ r ∈ manyOf stored, compareValues (asReference r) (valueAt "_id" document) = .eq := by
  have hnull (v : Json) : v.isNull = false ↔ v ≠ .null := by cases v <;> simp [Json.isNull]
  simp [refersTo, hnull]

theorem refersTo_of_identifier {stored document r : Json} (hr : r ∈ manyOf stored)
    (hid : valueAt "_id" document = asReference r) (hn : asReference r ≠ .null) :
    refersTo stored document = true :=
  refersTo_iff.2 ⟨hid ▸ hn, r, hr, hid ▸ compareValues_self _⟩

theorem not_marked_of_refersTo {stored document : Json} (h : refersTo stored document = true) :
    ¬ Marked (valueAt "_id" document) := by
  obtain ⟨-, r, -, hr⟩ := refersTo_iff.1 h
  exact not_marked_of_compareValues hr

/-- A planned join attaches the documents that the stored value refers to. They are those whose
identifier is a reference as it is stored, or the text of a reference with an `$oid`; a document
whose own identifier has an `$oid` is never among them. -/
theorem join_attaches {outline : Outline} {types : FieldTypes} {sectionPath : List String}
    {layout : Layout} (hl : Layout.of? outline types sectionPath = .ok layout) {placed : Placement}
    (hp : placed ∈ layout.levels) {step : Joining} (hd : placed.descent = .join step)
    (collection : String → List Json) {row : Json} (ho : row.isObject = true) :
    ∃ path joined rowAfter, placed.path = some path ∧
      run collection [row] (placed.descentStages.take 2) = [rowAfter] ∧
      valueAt step.output rowAfter = .array joined ∧
      joined = (collection step.target.physicalCollection).filter (refersTo (valueAt path row)) ∧
      (∀ r ∈ manyOf (valueAt path row), r ≠ .null → ¬ Marked r →
        ∀ document ∈ collection step.target.physicalCollection,
          valueAt "_id" document = r → document ∈ joined) ∧
      (∀ r ∈ manyOf (valueAt path row), ∀ id, r.member? "$oid" = some (.string id) →
        ∀ document ∈ collection step.target.physicalCollection,
          valueAt "_id" document = .string id → document ∈ joined) ∧
      ∀ document ∈ joined, ¬ Marked (valueAt "_id" document) := by
  obtain ⟨level, path, -, hpath, hstages⟩ := Layout.joinStages hl hp hd
  refine ⟨path, _, _, hpath, hstages ▸ run_attaching step collection path ho,
    valueAt_attached step collection path ho, rfl, ?_, ?_, ?_⟩
  · intro r hr hn hm document hdoc hid
    have hself := asReference_eq_self hm
    exact List.mem_filter.2 ⟨hdoc, refersTo_of_identifier hr (hid.trans hself.symm)
      fun he => hn (hself.symm.trans he)⟩
  · intro r hr id hoid document hdoc hid
    have htext := asReference_eq_text hoid
    exact List.mem_filter.2 ⟨hdoc, refersTo_of_identifier hr (hid.trans htext.symm)
      fun he => nomatch htext.symm.trans he⟩
  · intro document hdoc
    exact not_marked_of_refersTo (List.mem_filter.1 hdoc).2

def projects : JoinTarget := ⟨"tpl-projects", "Projects", "projects_data"⟩

def participating : Configuration :=
  ⟨⟨"Students", .count, some "Projects", ["Mobility"], [], none, none, none⟩,
    [⟨"Students", .count, none, ["Mobility"], [], none, none, none⟩]⟩

def participatingTypes : FieldTypes := { kinds := [("Mobility", [("Projects", .table projects)])] }

def projectsPlaced : Placement :=
  ⟨"Mobility", some "Mobility.Projects", .table projects, false, .join (joinOf 0 projects)⟩

def participatingLayout : Layout :=
  ⟨some "Mobility", [], [projectsPlaced, ⟨"_joined_l0", none, .scalar, true, .innermost⟩]⟩

theorem participating_planned :
    Layout.of? (Outline.ofConfiguration participating) participatingTypes ["Mobility"] =
      .ok participatingLayout := by rfl

def participant (references : List Json) : Json :=
  .object [("Mobility", .object [("Projects", .array references)]), ("_id", .string "s1")]

def withMark (id : String) : Json := .object [("$oid", .string id)]

def project (id : Json) : Json := .object [("_id", id)]

theorem join_attaches_projects :
    Layout.of? (Outline.ofConfiguration participating) participatingTypes ["Mobility"] =
        .ok participatingLayout ∧
      projectsPlaced ∈ participatingLayout.levels ∧
      projectsPlaced.descent = .join (joinOf 0 projects) ∧
      (participant [.string "p1", withMark "p2", .ofNat 7]).isObject = true ∧
      ∃ rowAfter,
        run (fun _ => [.string "p2", withMark "p2", .ofNat 7, .string "p3", .string "p1"].map project)
            [participant [.string "p1", withMark "p2", .ofNat 7]]
            (projectsPlaced.descentStages.take 2) = [rowAfter] ∧
          valueAt "_joined_l0" rowAfter =
            .array ([.string "p2", .ofNat 7, .string "p1"].map project) := by
  have hp : projectsPlaced ∈ participatingLayout.levels := List.mem_cons_self
  have ho : (participant [.string "p1", withMark "p2", .ofNat 7]).isObject = true := rfl
  obtain ⟨path, joined, rowAfter, hpath, hrun, hvalue, hjoined, -⟩ :=
    join_attaches participating_planned hp rfl
      (fun _ => [.string "p2", withMark "p2", .ofNat 7, .string "p3", .string "p1"].map project) ho
  cases hpath
  refine ⟨participating_planned, hp, rfl, ho, rowAfter, hrun, hvalue.trans ?_⟩
  rw [hjoined]
  decide +kernel

/-- A project whose identifier has an `$oid` is not attached to a student who names it so. -/
theorem marked_project_not_attached :
    projectsPlaced ∈ participatingLayout.levels ∧
      withMark "p1" ∈ manyOf (valueAt "Mobility.Projects" (participant [withMark "p1"])) ∧
      valueAt "_id" (project (withMark "p1")) = withMark "p1" ∧
      (run (fun _ => [project (withMark "p1")]) [participant [withMark "p1"]]
        (projectsPlaced.descentStages.take 2)).map (valueAt "_joined_l0") = [.array []] := by
  refine ⟨List.mem_cons_self, ?_, ?_, ?_⟩ <;> decide +kernel

theorem refersTo_texts {refs : List String} {document : Json} :
    refersTo (.array (refs.map .string)) document = true ↔
      ∃ s ∈ refs, valueAt "_id" document = .string s := by
  rw [refersTo_iff]
  simp only [manyOf, List.mem_map]
  constructor
  · rintro ⟨-, r, ⟨s, hs, rfl⟩, hr⟩
    exact ⟨s, hs, compareValues_string.1 hr⟩
  · rintro ⟨s, hs, hid⟩
    have hn : valueAt "_id" document ≠ .null := by simp [hid]
    exact ⟨hn, _, ⟨s, hs, rfl⟩, compareValues_string.2 hid⟩

theorem elements_joined {outline : Outline} {types : FieldTypes} {sectionPath : List String}
    {layout : Layout} (hl : Layout.of? outline types sectionPath = .ok layout) {placed : Placement}
    (hp : placed ∈ layout.levels) {step : Joining} (hd : placed.descent = .join step)
    (collection : String → List Json) {row : Json} (ho : row.isObject = true) {path : String}
    (hpath : placed.path = some path) :
    (run collection [row] placed.descentStages).map (valueAt step.output) =
      (collection step.target.physicalCollection).filter (refersTo (valueAt path row)) := by
  obtain ⟨level, found, hstep, hfound, hstages⟩ := Layout.joinStages hl hp hd
  cases hpath.symm.trans hfound
  have hobjects : ∀ r ∈ [row], r.isObject = true := List.forall_mem_singleton.2 ho
  have hrun := run_joining step collection path hobjects
  rw [List.flatMap_singleton] at hrun
  rw [hstages, hrun, hstep]
  have marks : Marks [] := ⟨nofun, List.nodup_nil⟩
  have hdescends := joinOf_descends marks level step.target List.not_mem_nil collection path ho
  have hread : elementAt ("_joined_l" ++ toString level) = valueAt ("_joined_l" ++ toString level) :=
    funext (elementAt_of_ne (joinedName_ne_empty level))
  exact hread ▸ hdescends.elements

/-- Where every text of a list is the value of one element, the elements with any of these values
are as many as the different texts. -/
theorem length_filter_texts {α : Type} {value : α → Json} {elements : List α} {keep : α → Bool}
    {texts : List String} (hone : ∀ s ∈ texts, (elements.map value).count (.string s) = 1)
    (hkeep : ∀ x, keep x = true ↔ ∃ s ∈ texts, value x = .string s) :
    ((elements.filter keep).map value).Nodup ∧
      (elements.filter keep).length = texts.dedup.length := by
  have hmem (v : Json) : v ∈ (elements.filter keep).map value ↔ v ∈ texts.dedup.map .string := by
    simp only [List.mem_map, List.mem_filter, List.mem_dedup]
    constructor
    · rintro ⟨x, ⟨-, hx⟩, rfl⟩
      obtain ⟨s, hs, he⟩ := (hkeep x).1 hx
      exact ⟨s, hs, he.symm⟩
    · rintro ⟨s, hs, rfl⟩
      have hpos : 0 < (elements.map value).count (.string s) := by rw [hone s hs]; exact Nat.one_pos
      obtain ⟨x, hx, he⟩ := List.mem_map.1 (List.count_pos_iff.1 hpos)
      exact ⟨x, ⟨hx, (hkeep x).2 ⟨s, hs, he⟩⟩, he⟩
  have hnodup : ((elements.filter keep).map value).Nodup := by
    refine List.nodup_iff_count_le_one.2 fun v => ?_
    by_cases hv : v ∈ (elements.filter keep).map value
    · obtain ⟨s, hs, rfl⟩ := List.mem_map.1 ((hmem v).1 hv)
      rw [← hone s (List.mem_dedup.1 hs)]
      exact (List.filter_sublist.map value).count_le _
    · rw [List.count_eq_zero_of_not_mem hv]
      exact Nat.zero_le 1
  have hdedup : (texts.dedup.map Json.string).Nodup :=
    (List.nodup_dedup texts).map fun _ _ h => Json.string.inj h
  have hperm := (List.perm_ext_iff_of_nodup hnodup hdedup).2 hmem
  exact ⟨hnodup, by simpa using hperm.length_eq⟩

theorem length_dedup_eq_iff {texts : List String} :
    texts.dedup.length = texts.length ↔ texts.Nodup := by
  rw [← List.dedup_eq_self]
  exact ⟨fun h => (List.dedup_sublist texts).eq_of_length h, fun h => congrArg List.length h⟩

/-- Where each of a list of references is the identifier of one document, a row becomes one row for
each document that is referred to at all: one for every different reference, and as many as there
are references only when none is repeated. -/
theorem rows_of_references {outline : Outline} {types : FieldTypes} {sectionPath : List String}
    {layout : Layout} (hl : Layout.of? outline types sectionPath = .ok layout) {placed : Placement}
    (hp : placed ∈ layout.levels) {step : Joining} (hd : placed.descent = .join step)
    {path : String} (hpath : placed.path = some path) (collection : String → List Json) {row : Json}
    (ho : row.isObject = true) {refs : List String}
    (hrefs : valueAt path row = .array (refs.map .string))
    (hone : ∀ s ∈ refs,
      ((collection step.target.physicalCollection).map (valueAt "_id")).count (.string s) = 1) :
    let rows := run collection [row] placed.descentStages
    rows.length = refs.dedup.length ∧ (rows.length = refs.length ↔ refs.Nodup) ∧
      ∀ document ∈ collection step.target.physicalCollection,
        (rows.map (valueAt step.output)).count document =
          if ∃ s ∈ refs, valueAt "_id" document = .string s then 1 else 0 := by
  intro rows
  have helements : rows.map (valueAt step.output) = _ :=
    elements_joined hl hp hd collection ho hpath
  rw [hrefs] at helements
  obtain ⟨hnodup, hlength⟩ := length_filter_texts hone fun _ => refersTo_texts
  have hrows : rows.length = refs.dedup.length := by
    rw [← hlength, ← helements, List.length_map]
  refine ⟨hrows, hrows ▸ length_dedup_eq_iff, fun document hdoc => ?_⟩
  rw [helements]
  split
  · next h =>
    exact List.count_eq_one_of_mem (List.Nodup.of_map _ hnodup)
      (List.mem_filter.2 ⟨hdoc, refersTo_texts.2 h⟩)
  · next h =>
    refine List.count_eq_zero_of_not_mem fun hm => h ?_
    exact refersTo_texts.1 (List.mem_filter.1 hm).2

theorem rows_of_references_projects :
    Layout.of? (Outline.ofConfiguration participating) participatingTypes ["Mobility"] =
        .ok participatingLayout ∧
      projectsPlaced ∈ participatingLayout.levels ∧
      projectsPlaced.descent = .join (joinOf 0 projects) ∧
      (∀ s ∈ ["p2", "p1", "p2"],
        (([.string "p1", .string "p2", .string "p3"].map project).map (valueAt "_id")).count
          (.string s) = 1) ∧
      let rows := run (fun _ => [.string "p1", .string "p2", .string "p3"].map project)
        [participant (["p2", "p1", "p2"].map .string)] projectsPlaced.descentStages
      rows.length = 2 ∧ (rows.map (valueAt "_joined_l0")).count (project (.string "p2")) = 1 ∧
        (rows.map (valueAt "_joined_l0")).count (project (.string "p3")) = 0 := by
  have hp : projectsPlaced ∈ participatingLayout.levels := List.mem_cons_self
  have hone : ∀ s ∈ ["p2", "p1", "p2"],
      (([.string "p1", .string "p2", .string "p3"].map project).map (valueAt "_id")).count
        (.string s) = 1 := by decide +kernel
  have hrefs : valueAt "Mobility.Projects" (participant (["p2", "p1", "p2"].map .string)) =
      .array (["p2", "p1", "p2"].map .string) := by decide +kernel
  obtain ⟨hlength, -, hcount⟩ := rows_of_references participating_planned hp rfl rfl
    (fun _ => [.string "p1", .string "p2", .string "p3"].map project) rfl hrefs hone
  refine ⟨participating_planned, hp, rfl, hone, hlength, ?_, ?_⟩
  · exact (hcount _ (by decide +kernel)).trans (if_pos (by decide +kernel))
  · exact (hcount _ (by decide +kernel)).trans (if_neg (by decide +kernel))

/-- A student who names one project twice is one row. -/
theorem repeated_reference_joined_once :
    projectsPlaced ∈ participatingLayout.levels ∧
      valueAt "Mobility.Projects" (participant [.string "p1", .string "p1"]) =
        .array (["p1", "p1"].map .string) ∧
      (([.string "p1", .string "p2"].map project).map (valueAt "_id")).Nodup ∧
      (run (fun _ => [.string "p1", .string "p2"].map project)
        [participant [.string "p1", .string "p1"]]
        projectsPlaced.descentStages).map (valueAt "_joined_l0") = [project (.string "p1")] := by
  refine ⟨List.mem_cons_self, ?_, ?_, ?_⟩ <;> decide +kernel

end Indicators.Plan
