import Indicators.Proofs.Directory
import Indicators.Proofs.Schema.Loading
import Indicators.Proofs.Schema.Recording

set_option autoImplicit false

/-! Only the templates that the references name are looked up. Every table that is reached names its
reference among them, so the fields are resolved as with the targets of the whole catalog. -/

namespace Indicators.Schema

open Indicators

theorem mem_fieldReferences {fields : List Field} {id : String} :
    id ∈ fieldReferences fields ↔ ∃ f ∈ fields, id ∈ f.references := by
  induction fields with
  | nil => simp [fieldReferences]
  | cons f rest ih => simp [fieldReferences, ih]

theorem Field.mem_references {f : Field} {id : String} :
    id ∈ f.references ↔
      (f.type = .table ∧ f.reference = some id) ∨ id ∈ fieldReferences f.subFields := by
  obtain ⟨name, type, subFields, reference⟩ := f
  rw [Field.references, List.mem_append]
  refine or_congr ?_ Iff.rfl
  split
  · next h => simp [h]
  · next h => simp [h]

theorem ReachedAt.mem_fieldReferences {fields : List Field} {address : List Nat}
    {names : List String} {f : Field} {id : String} (h : ReachedAt fields address names f)
    (table : f.type = .table) (reference : f.reference = some id) :
    id ∈ fieldReferences fields := by
  induction h with
  | here hf =>
    exact Schema.mem_fieldReferences.2
      ⟨_, List.mem_of_getElem? hf, Field.mem_references.2 (.inl ⟨table, reference⟩)⟩
  | inside hf _ _ ih =>
    exact Schema.mem_fieldReferences.2
      ⟨_, List.mem_of_getElem? hf, Field.mem_references.2 (.inr (ih table reference))⟩

theorem DefinedAt.mem_references {sections : List Section} {address : List Nat}
    {sectionName path id : String} {f : Field} (h : DefinedAt sections address sectionName path f)
    (table : f.type = .table) (reference : f.reference = some id) : id ∈ references sections := by
  obtain ⟨hs, hreached⟩ := h
  exact Directory.mem_sorted.2 (List.mem_flatMap.2
    ⟨_, List.mem_of_getElem? hs, hreached.mem_fieldReferences table reference⟩)

section

variable {ts us : Directory JoinTarget}

theorem Field.kind_congr {f : Field} (h : f.type = .table → f.target? ts = f.target? us) :
    f.kind ts = f.kind us := by
  unfold Field.kind
  split
  · rfl
  · rfl
  · next htable => rw [h htable]
  · rfl

theorem Field.isDangling_congr {f : Field} (h : f.type = .table → f.target? ts = f.target? us) :
    f.isDangling ts = f.isDangling us := by
  unfold Field.isDangling
  by_cases htable : f.type = .table
  · rw [h htable]
  · rw [beq_false_of_ne htable]
    rfl

theorem resolve_congr {sections : List Section}
    (h : ∀ id ∈ references sections, ts.lookup id = us.lookup id) :
    resolve sections ts = resolve sections us := by
  unfold resolve
  refine List.foldl_ext _ _ _ fun t ⟨sectionName, path, f⟩ hd => ?_
  obtain ⟨address, hdefined⟩ := mem_sectionDefinitions.1 hd
  -- Of a field that is no table the reference is not collected, but neither is it read.
  have htarget (htable : f.type = .table) : f.target? ts = f.target? us := by
    unfold Field.target?
    cases hreference : f.reference with
    | none => rfl
    | some id => exact h id (hdefined.mem_references htable hreference)
  unfold FieldTypes.record
  dsimp only
  rw [Field.kind_congr htarget, Field.isDangling_congr htarget]

end

def Catalog.targets (c : Catalog) : Directory JoinTarget :=
  c.templates.foldr (fun template targets => targets.put template.id template.target) []

theorem Catalog.lookup_targets (c : Catalog) (id : String) :
    c.targets.lookup id = (c.byId id).map Template.target := by
  unfold Catalog.targets Catalog.byId
  induction c.templates with
  | nil => rfl
  | cons template rest ih =>
    rw [List.foldr_cons, List.find?_cons]
    by_cases h : template.id = id
    · rw [← h, Directory.lookup_put_self, beq_self_eq_true]
      rfl
    · rw [Directory.lookup_put_of_ne (Ne.symm h), ih, beq_false_of_ne h]

/-- A catalog that answers every look-up. -/
def Catalog.registry (c : Catalog) : Registry := ⟨c, []⟩

theorem Catalog.registry_byName (c : Catalog) (name : String) :
    c.registry.byName name = .ok (c.byName name) := rfl

theorem Catalog.registry_byId (c : Catalog) (id : String) :
    c.registry.byId id = .ok (c.byId id) := rfl

theorem Catalog.registry_targets (c : Catalog) (ids : List String) :
    ∃ targets, c.registry.targets ids = .ok targets ∧
      ∀ id, targets.lookup id = if id ∈ ids then c.targets.lookup id else none := by
  induction ids with
  | nil => exact ⟨[], rfl, fun id => by simp [Directory.lookup]⟩
  | cons first rest ih =>
    obtain ⟨targets, hrest, hlookup⟩ := ih
    have hfirst := c.lookup_targets first
    rw [Registry.targets, registry_byId, hrest]
    cases hfound : c.byId first with
    | none =>
      rw [hfound] at hfirst
      refine ⟨targets, rfl, fun id => ?_⟩
      rw [hlookup]
      by_cases h : id = first
      · simp [h, hfirst]
      · simp [h]
    | some template =>
      rw [hfound] at hfirst
      refine ⟨targets.put first template.target, rfl, fun id => ?_⟩
      by_cases h : id = first
      · rw [h, Directory.lookup_put_self, hfirst]
        simp
      · rw [Directory.lookup_put_of_ne h, hlookup]
        simp [h]

theorem Catalog.registry_schema (c : Catalog) (collection : String) :
    c.registry.schema collection =
      match c.byName collection with
      | none => .error (.templateNotFound collection)
      | some template => .ok ⟨template, resolve template.sections c.targets⟩ := by
  unfold Registry.schema
  rw [registry_byName]
  cases c.byName collection with
  | none => rfl
  | some template =>
    obtain ⟨targets, htargets, hlookup⟩ := c.registry_targets (references template.sections)
    have hresolve : resolve template.sections targets = resolve template.sections c.targets :=
      resolve_congr fun id hid => by rw [hlookup, if_pos hid]
    change (do
      let targets ← c.registry.targets (references template.sections)
      return (⟨template, resolve template.sections targets⟩ : Schema)) = _
    rw [htargets]
    change Except.ok (⟨template, resolve template.sections targets⟩ : Schema) = _
    rw [hresolve]

theorem Catalog.byName_eq_none (c : Catalog) {name : String} :
    c.byName name = none ↔ ∀ template ∈ c.templates, template.name ≠ name := by
  simp [Catalog.byName]

theorem Catalog.byName_eq_some (c : Catalog) {name : String} {found : Template} :
    c.byName name = some found ↔ ∃ before after, c.templates = before ++ found :: after ∧
      found.name = name ∧ ∀ template ∈ before, template.name ≠ name := by
  unfold Catalog.byName
  rw [List.find?_eq_some_iff_append]
  constructor
  · rintro ⟨hname, before, after, hsplit, hbefore⟩
    exact ⟨before, after, hsplit, by simpa using hname, fun t ht => by simpa using hbefore t ht⟩
  · rintro ⟨before, after, hsplit, hname, hbefore⟩
    exact ⟨by simpa using hname, before, after, hsplit, fun t ht => by simpa using hbefore t ht⟩

/-- What is loaded once some collections have been asked for, also where that failed. -/
def Loaded.after (r : Registry) (collections : List String) : Loaded :=
  collections.foldl (fun l collection => ((load r collection).run.run l).2) {}

def Registry.loadAfter (r : Registry) (earlier : List String) (collection : String) :
    Except LoadError Schema :=
  ((load r collection).run.run (Loaded.after r earlier)).1

theorem Loaded.faithful_after (r : Registry) (collections : List String) :
    (Loaded.after r collections).Faithful r := by
  have run (l : Loaded) (h : l.Faithful r) :
      (collections.foldl (fun l c => ((load r c).run.run l).2) l).Faithful r := by
    induction collections generalizing l with
    | nil => exact h
    | cons first rest ih => exact ih _ (gives_load r first l h).2
  exact run {} (faithful_empty r)

theorem Registry.loadAfter_eq (r : Registry) (earlier : List String) (collection : String) :
    r.loadAfter earlier collection = r.schema collection :=
  (gives_load r collection _ (Loaded.faithful_after r earlier)).1

theorem Catalog.loadAfter_eq_ok (c : Catalog) {earlier : List String} {collection : String}
    {schema : Schema} :
    c.registry.loadAfter earlier collection = .ok schema ↔
      c.byName collection = some schema.template ∧
        schema.types = resolve schema.template.sections c.targets := by
  rw [Registry.loadAfter_eq, c.registry_schema]
  obtain ⟨template, types⟩ := schema
  cases c.byName collection with
  | none => simp
  | some found =>
    simp only [Except.ok.injEq, Schema.mk.injEq, Option.some.injEq]
    constructor
    · rintro ⟨rfl, rfl⟩
      exact ⟨rfl, rfl⟩
    · rintro ⟨rfl, rfl⟩
      exact ⟨rfl, rfl⟩

theorem Catalog.get?_resolve_known {c : Catalog} {sections : List Section}
    {sectionName path id : String} {f : Field}
    (last : Last (DefinedAt sections · sectionName path ·) f) (table : f.type = .table)
    (reference : f.reference = some id) (known : ∃ template ∈ c.templates, template.id = id) :
    ∃ template ∈ c.templates, template.id = id ∧
      (resolve sections c.targets).get? sectionName path = some (.table template.target) := by
  obtain ⟨template, hfound⟩ : ∃ template, c.byId id = some template := by
    rw [← Option.isSome_iff_exists]
    unfold Catalog.byId
    rw [List.find?_isSome]
    simpa using known
  have hlookup : c.targets.lookup id = some template.target := by
    rw [c.lookup_targets, hfound]
    rfl
  refine ⟨template, List.mem_of_find?_eq_some hfound, by simpa using List.find?_some hfound, ?_⟩
  exact get?_resolve.2 ⟨f, last, .table table reference hlookup⟩

/-- Loading fails just for the names that no template has. Otherwise it gives the first template of
the name, resolved with the targets of the whole catalog, so no known reference is left without its
target. -/
theorem load_keeps_references (c : Catalog) (earlier : List String) (collection : String) :
    (c.registry.loadAfter earlier collection = .error (.templateNotFound collection) ↔
      ∀ template ∈ c.templates, template.name ≠ collection) ∧
    (∀ schema, c.registry.loadAfter earlier collection = .ok schema ↔
      (∃ before after, c.templates = before ++ schema.template :: after ∧
        schema.template.name = collection ∧ ∀ template ∈ before, template.name ≠ collection) ∧
      schema.types = resolve schema.template.sections c.targets) ∧
    ∀ schema, c.registry.loadAfter earlier collection = .ok schema →
      ∀ sectionName path f id, Last (DefinedAt schema.template.sections · sectionName path ·) f →
        f.type = .table → f.reference = some id → (∃ template ∈ c.templates, template.id = id) →
        ∃ template ∈ c.templates, template.id = id ∧
          schema.types.get? sectionName path = some (.table template.target) := by
  refine ⟨?_, fun schema => ?_, fun schema h sectionName path f id last table reference known => ?_⟩
  · rw [Registry.loadAfter_eq, c.registry_schema, ← c.byName_eq_none]
    cases c.byName collection <;> simp
  · rw [c.loadAfter_eq_ok, c.byName_eq_some]
  · rw [(c.loadAfter_eq_ok.1 h).2]
    exact Catalog.get?_resolve_known last table reference known

def host : Field := ⟨"Host", .table, [], some "tpl-hosts"⟩

def stays : Template :=
  ⟨"tpl-stays", "Stays", none,
    [⟨"Lodging", [⟨"Nights", .subform, [⟨"Date", .date, [], none⟩, host], none⟩]⟩]⟩

def lodgings : Catalog where
  templates :=
    [stays, ⟨"tpl-hosts", "Hosts", some "hosts_data", []⟩, ⟨"tpl-hosts", "Landlords", none, []⟩,
      ⟨"tpl-inns", "Stays", none, []⟩]

theorem load_keeps_references_lodgings :
    lodgings.registry.loadAfter ["Rooms", "Hosts"] "Rooms" = .error (.templateNotFound "Rooms") ∧
    ∃ schema, lodgings.registry.loadAfter ["Rooms", "Hosts"] "Stays" = .ok schema ∧
      Last (DefinedAt schema.template.sections · "Lodging" "Nights.Host" ·) host ∧
      ∃ template ∈ lodgings.templates, template.id = "tpl-hosts" ∧
        schema.types.get? "Lodging" "Nights.Host" = some (.table template.target) := by
  obtain ⟨hmissing, -, -⟩ := load_keeps_references lodgings ["Rooms", "Hosts"] "Rooms"
  obtain ⟨-, hfound, hknown⟩ := load_keeps_references lodgings ["Rooms", "Hosts"] "Stays"
  have hload := (hfound ⟨stays, resolve stays.sections lodgings.targets⟩).2
    ⟨⟨[], _, rfl, rfl, fun _ h => absurd h List.not_mem_nil⟩, rfl⟩
  have hlast : Last (DefinedAt stays.sections · "Lodging" "Nights.Host" ·) host :=
    last_definedAt.2 rfl
  refine ⟨hmissing.2 (by decide), _, hload, hlast, ?_⟩
  exact hknown _ hload "Lodging" "Nights.Host" host "tpl-hosts" hlast rfl rfl
    ⟨_, .tail _ (.head _), rfl⟩

end Indicators.Schema
