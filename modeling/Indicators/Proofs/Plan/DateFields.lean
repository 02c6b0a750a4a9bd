import Indicators.Plan.DateField
import Indicators.Proofs.Plan.Places
import Indicators.Proofs.Schema.Listing

set_option autoImplicit false

/-! A walk takes, for the section and then for every prefix of the path, the first recorded name
that is spelled like the segments up to the case of ASCII letters, and it never turns back. -/

namespace Indicators.Plan

open Indicators Indicators.Pipeline Indicators.Schema Indicators.Text

def folded (text : String) : List Char := text.toList.map Char.toLower

theorem sameIgnoringAsciiCase_iff {a b : String} :
    sameIgnoringAsciiCase a b = true ↔ folded a = folded b := beq_iff_eq

theorem folded_append (a b : String) : folded (a ++ b) = folded a ++ folded b := by
  unfold folded
  rw [String.toList_append, List.map_append]

theorem folded_eq_nil {a : String} : folded a = [] ↔ a = "" := by
  unfold folded
  rw [List.map_eq_nil_iff, String.toList_eq_nil_iff]

theorem folded_within {a b path other : String} (h : folded a = folded b)
    (hp : folded path = folded other) : folded (within a path) = folded (within b other) := by
  have hempty : a = "" ↔ b = "" := by rw [← folded_eq_nil, h, folded_eq_nil]
  unfold within
  by_cases ha : a = ""
  · rw [if_pos ha, if_pos (hempty.1 ha), hp]
  · rw [if_neg ha, if_neg (fun hb => ha (hempty.2 hb))]
    simp only [folded_append, h, hp]

theorem folded_under {a b : String} (h : folded a = folded b) (names : List String) :
    folded (under a names) = folded (under b names) := by
  induction names generalizing a b with
  | nil => exact h
  | cons name rest ih => exact ih (folded_within h rfl)

theorem folded_of_findName? {names : List String} {text found : String}
    (h : findName? names text = some found) : folded found = folded text := by
  have hsame := List.find?_some h
  exact sameIgnoringAsciiCase_iff.1 hsame

/-- No other spelling of a name is listed before it. -/
def SpelledFirst (names : List String) (name : String) : Prop :=
  ∀ other ∈ names, sameIgnoringAsciiCase other name = true → ¬ other < name

instance (names : List String) (name : String) : Decidable (SpelledFirst names name) :=
  inferInstanceAs (Decidable (∀ other ∈ names, _ → _))

theorem findName?_of_spelledFirst {names : List String} (ordered : names.Pairwise (· < ·))
    {name : String} (hm : name ∈ names) (hf : SpelledFirst names name) :
    findName? names name = some name := by
  obtain ⟨before, after, rfl⟩ := List.append_of_mem hm
  refine List.find?_eq_some_iff_append.2
    ⟨sameIgnoringAsciiCase_iff.2 rfl, before, after, rfl, fun other ho => ?_⟩
  have hlt : other < name := (List.pairwise_append.1 ordered).2.2 other ho name List.mem_cons_self
  rw [Bool.not_eq_true', Bool.eq_false_iff]
  exact fun hsame => hf other (List.mem_append_left _ ho) hsame hlt

theorem folded_of_walkFields {paths names : List String} {path found : String}
    (h : walkFields paths path names = some found) : folded found = folded (under path names) := by
  induction names generalizing path with
  | nil => exact congrArg folded (Option.some.inj h).symm
  | cons name rest ih =>
    obtain ⟨next, hnext, hrest⟩ := Option.bind_eq_some_iff.1 h
    exact (ih hrest).trans (folded_under (folded_of_findName? hnext) rest)

theorem walkFields_of_spelledFirst {paths : List String} (ordered : paths.Pairwise (· < ·))
    {names : List String} {path : String}
    (h : ∀ i < names.length, under path (names.take (i + 1)) ∈ paths ∧
      SpelledFirst paths (under path (names.take (i + 1)))) :
    walkFields paths path names = some (under path names) := by
  induction names generalizing path with
  | nil => rfl
  | cons name rest ih =>
    obtain ⟨hm, hf⟩ := h 0 (Nat.succ_pos _)
    have hname : findName? paths (within path name) = some (within path name) :=
      findName?_of_spelledFirst ordered hm hf
    have hrest := @ih (within path name) fun i hi => h (i + 1) (Nat.succ_lt_succ hi)
    rw [walkFields, hname]
    exact hrest

theorem walkSections_cons (types : FieldTypes) (first field : String) (rest : List String) :
    walkSections types (first :: field :: rest) =
      (findName? types.sectionNames first).bind fun sectionName =>
        (walkFields (types.paths sectionName) "" (field :: rest)).bind fun path =>
          some (within sectionName path) := rfl

theorem dotted_section {sectionName : String} (h : sectionName ≠ "") (field : String)
    (rest : List String) :
    dotted (sectionName :: field :: rest) = within sectionName (dotted (field :: rest)) := by
  rw [dotted_cons_cons, within, if_neg h]

/-- For a field that is recorded with all its prefixes, a section walk finds a path that is spelled
like its name up to the case of ASCII letters. It is the name itself where the section and every
prefix are listed before their other spellings. -/
theorem walk_finds_named {types : FieldTypes} (ordered : types.Ordered)
    (sectionPath : List String) {sectionName field : String} (hs : sectionName ≠ "")
    (hf : field ≠ "") {rest : List String}
    (recorded : ∀ i < (field :: rest).length,
      dotted ((field :: rest).take (i + 1)) ∈ types.paths sectionName) :
    let located := locateDateField .sectionWalk types sectionPath (sectionName :: field :: rest)
    let named := dotted (sectionName :: field :: rest)
    sameIgnoringAsciiCase located named = true ∧
      (SpelledFirst types.sectionNames sectionName →
        (∀ i < (field :: rest).length,
          SpelledFirst (types.paths sectionName) (dotted ((field :: rest).take (i + 1)))) →
        located = named) := by
  have hunder (names : List String) : under "" (field :: names) = dotted (field :: names) :=
    under_empty hf names
  intro located named
  have hnamed : named = within sectionName (dotted (field :: rest)) := dotted_section hs field rest
  have hlocated : located = (walkSections types (sectionName :: field :: rest)).getD named := rfl
  rw [walkSections_cons] at hlocated
  constructor
  · rw [sameIgnoringAsciiCase_iff, hlocated]
    -- Where the walk stops short the segments are taken as they are.
    cases hsection : findName? types.sectionNames sectionName with
    | none => rfl
    | some found =>
      cases hfields : walkFields (types.paths found) "" (field :: rest) with
      | none => rw [Option.bind_some, hfields]; rfl
      | some path =>
        have hpath := folded_of_walkFields hfields
        rw [hunder] at hpath
        rw [Option.bind_some, hfields, Option.bind_some, Option.getD_some, hnamed]
        exact folded_within (folded_of_findName? hsection) hpath
  · intro hsection hprefixes
    have hlisted : sectionName ∈ types.sectionNames :=
      ordered.mem_sectionNames.2 ⟨_, recorded 0 (Nat.succ_pos _)⟩
    have hfound : findName? types.sectionNames sectionName = some sectionName :=
      findName?_of_spelledFirst ordered.sections.names hlisted hsection
    have hfields : walkFields (types.paths sectionName) "" (field :: rest) =
        some (dotted (field :: rest)) := by
      rw [← hunder]
      refine walkFields_of_spelledFirst (ordered.paths_increasing sectionName) fun i hi => ?_
      rw [List.take_succ_cons, hunder]
      exact ⟨recorded i hi, hprefixes i hi⟩
    rw [hlocated, hfound, Option.bind_some, hfields, Option.bind_some, Option.getD_some, hnamed]

def spellings : FieldTypes :=
  ((((({} : FieldTypes).insert "mobility" "Events" .date).insert "Mobility" "events.HELD" .date).insert
    "Mobility" "events" .subform).insert "Mobility" "Events" .subform).insert "Mobility" "Events.Held"
      .date

theorem spellings_ordered : spellings.Ordered :=
  ((((FieldTypes.ordered_empty.insert _ _ _).insert _ _ _).insert _ _ _).insert _ _ _).insert _ _ _

theorem walk_finds_named_held :
    spellings.Ordered ∧
      (∀ i < 2, dotted (["Events", "Held"].take (i + 1)) ∈ spellings.paths "Mobility") ∧
      SpelledFirst spellings.sectionNames "Mobility" ∧
      (∀ i < 2, SpelledFirst (spellings.paths "Mobility")
        (dotted (["Events", "Held"].take (i + 1)))) ∧
      locateDateField .sectionWalk spellings [] ["Mobility", "Events", "Held"] =
        "Mobility.Events.Held" := by
  have hrecorded : ∀ i < ["Events", "Held"].length,
      dotted (["Events", "Held"].take (i + 1)) ∈ spellings.paths "Mobility" := by decide +kernel
  have hsection : SpelledFirst spellings.sectionNames "Mobility" := by decide +kernel
  have hprefixes : ∀ i < ["Events", "Held"].length, SpelledFirst (spellings.paths "Mobility")
      (dotted (["Events", "Held"].take (i + 1))) := by decide +kernel
  have hs : "Mobility" ≠ "" := by decide
  have hf : "Events" ≠ "" := by decide
  obtain ⟨-, hnamed⟩ := walk_finds_named spellings_ordered [] hs hf hrecorded
  exact ⟨spellings_ordered, hrecorded, hsection, hprefixes, hnamed hsection hprefixes⟩

def twoSections : FieldTypes :=
  (({} : FieldTypes).insert "general" "Date" .date).insert "General" "Date" .date

def namelessSection : FieldTypes := ({} : FieldTypes).insert "" "Date" .date

def namelessField : FieldTypes :=
  ((({} : FieldTypes).insert "General" "" .subform).insert "General" ".Date" .date).insert "General"
    "Date" .date

/-- Another spelling of the section, an empty section and an empty first name each lead away from
the field that is named. -/
theorem walk_diverted :
    (twoSections.Ordered ∧ "Date" ∈ twoSections.paths "general" ∧
      locateDateField .sectionWalk twoSections [] ["general", "Date"] = "General.Date" ∧
      dotted ["general", "Date"] = "general.Date") ∧
    (namelessSection.Ordered ∧ "Date" ∈ namelessSection.paths "" ∧
      locateDateField .sectionWalk namelessSection [] ["", "Date"] = "Date" ∧
      dotted ["", "Date"] = ".Date") ∧
    namelessField.Ordered ∧
      (∀ i < 2, dotted (["", "Date"].take (i + 1)) ∈ namelessField.paths "General") ∧
      locateDateField .sectionWalk namelessField [] ["General", "", "Date"] = "General.Date" ∧
      dotted ["General", "", "Date"] = "General..Date" := by
  have htwo : twoSections.Ordered := (FieldTypes.ordered_empty.insert _ _ _).insert _ _ _
  have hsection : namelessSection.Ordered := FieldTypes.ordered_empty.insert _ _ _
  have hfield : namelessField.Ordered :=
    ((FieldTypes.ordered_empty.insert _ _ _).insert _ _ _).insert _ _ _
  refine ⟨⟨htwo, ?_, ?_, ?_⟩, ⟨hsection, ?_, ?_, ?_⟩, hfield, ?_, ?_, ?_⟩ <;> decide +kernel

end Indicators.Plan
