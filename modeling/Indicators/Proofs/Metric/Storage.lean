import Indicators.Json.Equality
import Indicators.Metric.Draft
import Indicators.Proofs.Directory
import Indicators.Proofs.Source.Records

set_option autoImplicit false

/-! What a draft lacks is left out and keeps its initial value when it is read back, and an empty
list, an empty text and an absent value stay apart. -/

namespace Indicators.Metric

open Indicators Indicators.Json Indicators.Source Indicators.Source.Node

section

variable {σ α : Type} {rules : List (FieldRule σ)} {name : String} {levels : Nat}

theorem builds_present {aliases : List String} {read : Node → Decoded α} {write : α → Json}
    {value : Option α} {set : Option α → σ → σ} (built : σ)
    (hrule : rules.find? (·.goesBy name) = some (.may name aliases (asOptional read) set))
    (hread : ∀ a ∈ value, (write a).height < levels → read (ofJson (write a)) = .ok a)
    (hnull : ∀ a ∈ value, (ofJson (write a)).isAbsent = false)
    (hlevels : heightMembers (present name write value) < levels)
    (hdefault : set none built = built) :
    Builds rules (present name write value) built (set value built) := by
  cases value with
  | none =>
    rw [hdefault]
    exact .nil
  | some a =>
    have hheight : (write a).height < levels := by
      simpa [present, heightMembers] using hlevels
    refine .cons hrule rfl ?_ .nil
    unfold FieldRule.may asOptional
    simp only [hnull a rfl, hread a rfl hheight, Bool.false_eq_true, if_false]
    rfl

theorem builds_nonempty {aliases : List String} {read : Node → Decoded (List α)}
    {write : List α → Json} {items : List α} {set : List α → σ → σ} (built : σ)
    (hrule : rules.find? (·.goesBy name) = some (.may name aliases read set))
    (hread : (write items).height < levels → read (ofJson (write items)) = .ok items)
    (hlevels : heightMembers (nonempty name write items) < levels)
    (hdefault : set [] built = built) :
    Builds rules (nonempty name write items) built (set items built) := by
  cases items with
  | nil =>
    rw [hdefault]
    exact .nil
  | cons a rest =>
    have hheight : (write (a :: rest)).height < levels := by
      simpa [nonempty, heightMembers] using hlevels
    refine .cons hrule rfl ?_ .nil
    unfold FieldRule.may
    simp only [hread hheight]
    rfl

end

theorem DraftCondition.json_eq (c : DraftCondition) :
    c.json = .object
      [("field", .string c.field), ("operator", .string c.operator),
        ("value", .string c.value)] := by
  have hnames : ["field", "operator", "value"].Pairwise (· < ·) := by decide
  exact congrArg Json.object
    (Directory.ofList_eq_of_perm (Directory.increasing_of_names hnames) (.refl _))

theorem DraftRange.json_eq (r : DraftRange) :
    r.json = .object
      [("end", .string r.last), ("pathSegments", texts r.pathSegments),
        ("start", .string r.first)] := by
  have hnames : ["end", "pathSegments", "start"].Pairwise (· < ·) := by decide
  exact congrArg Json.object (Directory.ofList_eq_of_perm (Directory.increasing_of_names hnames)
    (List.perm_append_singleton _ [_, _]))

theorem restores_texts : Restores (fun levels => asList levels fun _ => asText) texts :=
  restores_list restores_text

theorem restores_condition : Restores DraftCondition.read DraftCondition.json := by
  intro c levels hl
  obtain ⟨levels, rfl⟩ : ∃ n, levels = n + 1 := ⟨levels - 1, by omega⟩
  rw [DraftCondition.json_eq]
  rfl

theorem restores_conditions :
    Restores (fun levels => asList levels DraftCondition.read) conditionsJson :=
  restores_list restores_condition

theorem restores_range : Restores DraftRange.read DraftRange.json := by
  intro r levels hl
  obtain ⟨levels, rfl⟩ : ∃ n, levels = n + 1 := ⟨levels - 1, by omega⟩
  rw [DraftRange.json_eq] at hl ⊢
  simp only [height, heightMembers] at hl
  have hpath : asList levels (fun _ => asText) (ofJson (texts r.pathSegments)) =
      .ok r.pathSegments := restores_texts _ levels (by omega)
  exact asRecord_of_builds (.cons rfl rfl rfl <| .cons rfl rfl (congrArg (Functor.map _) hpath) <|
    .cons rfl rfl rfl .nil) (by simp) (by simp [DraftRange.rules, FieldRule.must])

def DraftLevel.members (l : DraftLevel) (sub : Option Json) : List (String × Json) :=
  present "collection" Json.string l.collection ++
    (nonempty "conditions" conditionsJson l.conditions ++
      (present "dateRangeFilter" DraftRange.json l.dateRange ++
        (present "fieldPath" Json.string l.fieldPath ++
          (present "label" Json.string l.label ++
            ([("operation", .string l.operation)] ++
              (nonempty "sectionPath" texts l.sectionPath ++
                (present "sharedConditions" conditionsJson l.sharedConditions ++
                  present "subConfiguration" id sub)))))))

def memberNames : List String :=
  ["collection", "conditions", "dateRangeFilter", "fieldPath", "label", "operation", "sectionPath",
    "sharedConditions", "subConfiguration"]

theorem names_present {α : Type} (name : String) (write : α → Json) (value : Option α) :
    ((present name write value).map (·.1)).Sublist [name] := by
  cases value <;> simp [present]

theorem names_nonempty {α : Type} (name : String) (write : List α → Json) (items : List α) :
    ((nonempty name write items).map (·.1)).Sublist [name] := by
  cases items <;> simp [nonempty]

theorem DraftLevel.names_members (l : DraftLevel) (sub : Option Json) :
    ((l.members sub).map (·.1)).Sublist memberNames := by
  unfold members
  simp only [List.map_append]
  exact (names_present ..).append <| (names_nonempty ..).append <| (names_present ..).append <|
    (names_present ..).append <| (names_present ..).append <| (List.Sublist.refl _).append <|
    (names_nonempty ..).append <| (names_present ..).append (names_present ..)

theorem DraftLevel.increasing_members (l : DraftLevel) (sub : Option Json) :
    Directory.Increasing (l.members sub) := by
  have hnames : memberNames.Pairwise (· < ·) := by decide
  exact Directory.increasing_of_names (hnames.sublist (l.names_members sub))

theorem DraftLevel.json_eq (l : DraftLevel) (sub : Option Json) :
    l.json sub = .object (l.members sub) := by
  refine congrArg Json.object (Directory.ofList_eq_of_perm (l.increasing_members sub) ?_)
  rw [List.perm_iff_count]
  intro m
  simp only [members, List.count_append]
  omega

theorem Draft.json_under (l : DraftLevel) (sub : Option Draft) :
    Draft.json (.under l sub) = .object (l.members (sub.map Draft.json)) := by
  rw [← DraftLevel.json_eq]
  cases sub <;> rfl

theorem present_map {α : Type} (name : String) (write : α → Json) (value : Option α) :
    present name id (value.map write) = present name write value := by
  cases value <;> rfl

/-- The members of a level build it, above what was read of the levels below it. -/
theorem builds_members {levels : Nat} {readSub : Node → Decoded Draft} (l : DraftLevel)
    {sub : Option Draft}
    (hsub : ∀ d ∈ sub, d.json.height < levels → readSub (ofJson d.json) = .ok d)
    (hl : heightMembers (l.members (sub.map Draft.json)) < levels) :
    Builds (Draft.rules levels readSub) (l.members (sub.map Draft.json)) ⟨{}, []⟩
      (.under l sub) := by
  simp only [DraftLevel.members, present_map, heightMembers_append, Nat.max_lt] at hl ⊢
  obtain ⟨hcollection, hconditions, hrange, hfield, hlabel, -, hsection, hshared, hsubs⟩ := hl
  have hrule : (Draft.rules levels readSub).find? (·.goesBy "subConfiguration") =
      some (.may "subConfiguration" ["subConfiguracion"] (asOptional readSub) fun v d =>
        .under d.outer v) := rfl
  -- Every step reads the next member, or finds its field still as it was at the start.
  refine .append (builds_present _ rfl (fun _ _ _ => rfl) (fun _ _ => rfl) hcollection rfl) ?_
  refine .append (builds_nonempty _ rfl (restores_conditions _ _) hconditions rfl) ?_
  refine .append (builds_present _ rfl (fun r _ => restores_range r _) (fun _ _ => rfl) hrange
    rfl) ?_
  refine .append (builds_present _ rfl (fun _ _ _ => rfl) (fun _ _ => rfl) hfield rfl) ?_
  refine .append (builds_present _ rfl (fun _ _ _ => rfl) (fun _ _ => rfl) hlabel rfl) ?_
  refine .append (.cons rfl rfl rfl .nil) ?_
  refine .append (builds_nonempty _ rfl (restores_texts _ _) hsection rfl) ?_
  refine .append (builds_present _ rfl (fun c _ => restores_conditions c _) (fun _ _ => rfl) hshared
    rfl) ?_
  exact builds_present ⟨l, []⟩ hrule hsub (fun d _ => by rw [Draft.json, DraftLevel.json_eq]; rfl)
    hsubs rfl

theorem restores_under (l : DraftLevel) {sub : Option Draft}
    (hsub : ∀ d ∈ sub, ∀ levels, d.json.height < levels →
      Draft.read levels (ofJson d.json) = .ok d) (levels : Nat)
    (hl : (Draft.json (.under l sub)).height < levels) :
    Draft.read levels (ofJson (Draft.json (.under l sub))) = .ok (.under l sub) := by
  rw [Draft.json_under] at hl ⊢
  rw [height] at hl
  obtain ⟨levels, rfl⟩ : ∃ n, levels = n + 1 := ⟨levels - 1, by omega⟩
  refine asRecord_of_builds (builds_members l (fun d hd => hsub d hd levels) (by omega)) ?_ ?_
  · exact (l.increasing_members _).nodup
  · simp [Draft.rules, FieldRule.may]

theorem restores_draft : Restores Draft.read Draft.json := by
  rintro ⟨outer, inner⟩
  induction inner generalizing outer with
  | nil => exact @restores_under outer none nofun
  | cons l inner ih =>
    refine @restores_under outer (some ⟨l, inner⟩) ?_
    rintro _ ⟨⟩
    exact ih l

/-- A stored draft is read back as it was. -/
theorem decodeValue_json (d : Draft) : decodeValue Draft.read d.json = .ok d :=
  restores_draft d _ (Nat.lt_succ_self _)

end Indicators.Metric
