import Indicators.Proofs.Directory
import Indicators.Proofs.Schema.Recording
import Indicators.Proofs.Text.Bytes

set_option autoImplicit false

namespace Indicators.Schema

open Indicators Indicators.Text

/-- Sections and their paths are in order, and every section has a path. -/
structure FieldTypes.Ordered (t : FieldTypes) : Prop where
  sections : Directory.Increasing t.kinds
  paths : ∀ d ∈ t.kinds, Directory.Increasing d.2
  nonempty : ∀ d ∈ t.kinds, d.2 ≠ []

namespace FieldTypes

def recorded (t : FieldTypes) : List (String × String) :=
  t.kinds.flatMap fun d => d.2.names.map fun path => (d.1, path)

theorem ordered_empty : Ordered {} := by
  constructor
  · exact List.Pairwise.nil
  · intro d hd
    cases hd
  · intro d hd
    cases hd

variable {t : FieldTypes}

theorem Ordered.insert (h : t.Ordered) (sectionName path : String) (kind : FieldKind) :
    (t.insert sectionName path kind).Ordered := by
  -- Only the section that is written to changes, and a new one starts from nothing.
  have hinner : Directory.Increasing ((t.kinds.lookup sectionName).getD []) := by
    cases hfound : t.kinds.lookup sectionName with
    | none => exact List.Pairwise.nil
    | some d => exact h.paths _ (Directory.mem_of_lookup hfound)
  constructor
  · exact h.sections.put _ _
  · intro d hd
    rcases Directory.mem_put hd with rfl | hbefore
    · exact hinner.put path kind
    · exact h.paths d hbefore
  · intro d hd
    rcases Directory.mem_put hd with rfl | hbefore
    · exact Directory.put_ne_nil path kind _
    · exact h.nonempty d hbefore

theorem Ordered.record (h : t.Ordered) (targets : Directory JoinTarget)
    (d : String × String × Field) : (t.record targets d).Ordered := by
  have hmarked (reference : String) : (t.markDangling d.1 d.2.1 reference).Ordered :=
    ⟨h.sections, h.paths, h.nonempty⟩
  unfold FieldTypes.record
  dsimp only
  split
  · exact (hmarked _).insert _ _ _
  · exact h.insert _ _ _

theorem Ordered.foldl (h : t.Ordered) (targets : Directory JoinTarget)
    (ds : List (String × String × Field)) : (ds.foldl (FieldTypes.record targets) t).Ordered := by
  induction ds generalizing t with
  | nil => exact h
  | cons d rest ih => exact ih (h.record targets d)

theorem ordered_resolve (sections : List Section) (targets : Directory JoinTarget) :
    (resolve sections targets).Ordered := ordered_empty.foldl targets _

theorem mem_paths {sectionName path : String} :
    path ∈ t.paths sectionName ↔
      ∃ d, t.kinds.lookup sectionName = some d ∧ path ∈ Directory.names d := by
  unfold paths
  cases t.kinds.lookup sectionName <;> simp [Directory.names]

theorem mem_paths_iff_get? {sectionName path : String} :
    path ∈ t.paths sectionName ↔ ∃ kind, t.get? sectionName path = some kind := by
  rw [mem_paths]
  unfold get? lookupUnder
  cases t.kinds.lookup sectionName with
  | none => simp
  | some d => simp [Directory.mem_names]

theorem Ordered.paths_increasing (h : t.Ordered) (sectionName : String) :
    (t.paths sectionName).Pairwise (· < ·) := by
  unfold FieldTypes.paths
  cases hfound : t.kinds.lookup sectionName with
  | none => exact List.Pairwise.nil
  | some d => exact (h.paths _ (Directory.mem_of_lookup hfound)).names

theorem Ordered.mem_sectionNames (h : t.Ordered) {sectionName : String} :
    sectionName ∈ t.sectionNames ↔ ∃ path, path ∈ t.paths sectionName := by
  rw [sectionNames, Directory.mem_names]
  constructor
  · rintro ⟨d, hd⟩
    obtain ⟨e, he⟩ := List.exists_mem_of_ne_nil d (h.nonempty _ (Directory.mem_of_lookup hd))
    exact ⟨e.1, mem_paths.2 ⟨d, hd, List.mem_map_of_mem he⟩⟩
  · rintro ⟨path, hp⟩
    obtain ⟨d, hd, -⟩ := mem_paths.1 hp
    exact ⟨d, hd⟩

theorem Ordered.mem_recorded (h : t.Ordered) {sectionName path : String} :
    (sectionName, path) ∈ t.recorded ↔ path ∈ t.paths sectionName := by
  rw [mem_paths, recorded, List.mem_flatMap]
  constructor
  · rintro ⟨d, hd, hp⟩
    obtain ⟨_, hname, he⟩ := List.mem_map.1 hp
    cases he
    exact ⟨d.2, h.sections.lookup_of_mem hd, hname⟩
  · rintro ⟨d, hd, hp⟩
    exact ⟨(sectionName, d), Directory.mem_of_lookup hd, List.mem_map_of_mem hp⟩

theorem Ordered.nodup_recorded (h : t.Ordered) : t.recorded.Nodup := by
  refine List.pairwise_flatMap.2 ⟨fun d hd => List.pairwise_map.2 ?_, h.sections.imp ?_⟩
  · refine (h.paths d hd).names.imp fun hlt he => ?_
    cases he
    exact String.lt_irrefl _ hlt
  · intro d e hlt x hx y hy he
    obtain ⟨_, -, rfl⟩ := List.mem_map.1 hx
    obtain ⟨_, -, rfl⟩ := List.mem_map.1 hy
    obtain ⟨hsame, -⟩ := Prod.mk.inj he
    rw [hsame] at hlt
    exact String.lt_irrefl _ hlt

theorem size_eq (t : FieldTypes) : t.size = t.recorded.length := by
  unfold size recorded
  induction t.kinds with
  | nil => rfl
  | cons d rest ih =>
    rw [List.foldr_cons, ih, List.flatMap_cons, List.length_append, List.length_map,
      Directory.names, List.length_map]

end FieldTypes

theorem exists_definedAt_iff {sections : List Section} {sectionName : String} :
    (∃ path address f, DefinedAt sections address sectionName path f) ↔
      ∃ s ∈ sections, s.name = sectionName ∧ s.fields ≠ [] := by
  constructor
  · rintro ⟨_, _, _, ⟨hs, hreached⟩⟩
    refine ⟨_, List.mem_of_getElem? hs, rfl, fun hempty => ?_⟩
    rw [hempty] at hreached
    cases hreached <;> contradiction
  · rintro ⟨s, hs, rfl, hne⟩
    obtain ⟨i, hi⟩ := List.mem_iff_getElem?.1 hs
    have hfirst : s.fields[0]? = some (s.fields.head hne) := by
      rw [← List.head?_eq_getElem?, List.head?_eq_some_head hne]
    exact ⟨_, _, _, .intro hi (.here hfirst)⟩

/-- The kinds of all that is defined in a list of sections, and of nothing else. -/
structure Records (sections : List Section) (targets : Directory JoinTarget) (t : FieldTypes) :
    Prop where
  defined : ∀ sectionName path, (∃ kind, t.get? sectionName path = some kind) ↔
    ∃ address f, DefinedAt sections address sectionName path f
  kind : ∀ sectionName path kind, t.get? sectionName path = some kind ↔
    ∃ f, Last (DefinedAt sections · sectionName path ·) f ∧ HasKind targets f kind
  paths : ∀ sectionName path, path ∈ t.paths sectionName ↔
    ∃ address f, DefinedAt sections address sectionName path f
  /-- In the order of bytes, and so each path once. -/
  pathOrder : ∀ sectionName, (t.paths sectionName).Pairwise fun p q => bytesOf p < bytesOf q
  sectionNames : ∀ sectionName, sectionName ∈ t.sectionNames ↔
    ∃ s ∈ sections, s.name = sectionName ∧ s.fields ≠ []
  sectionOrder : t.sectionNames.Pairwise fun s u => bytesOf s < bytesOf u
  /-- The size counts what is defined, each section and path once. -/
  size : ∃ distinct : List (String × String), distinct.Nodup ∧
    (∀ sectionName path, (sectionName, path) ∈ distinct ↔
      ∃ address f, DefinedAt sections address sectionName path f) ∧ t.size = distinct.length

theorem resolve_records (sections : List Section) (targets : Directory JoinTarget) :
    Records sections targets (resolve sections targets) := by
  have hordered := FieldTypes.ordered_resolve sections targets
  have hpaths (sectionName path : String) :
      path ∈ (resolve sections targets).paths sectionName ↔
        ∃ address f, DefinedAt sections address sectionName path f :=
    FieldTypes.mem_paths_iff_get?.trans get?_resolve_isSome
  constructor
  case defined => exact fun _ _ => get?_resolve_isSome
  case kind => exact fun _ _ _ => get?_resolve
  case paths => exact hpaths
  case pathOrder => exact fun sectionName => (hordered.paths_increasing sectionName).imp bytesOf_lt
  case sectionNames =>
    intro sectionName
    simp only [hordered.mem_sectionNames, hpaths, exists_definedAt_iff]
  case sectionOrder => exact hordered.sections.names.imp bytesOf_lt
  case size =>
    refine ⟨_, hordered.nodup_recorded, fun sectionName path => ?_, FieldTypes.size_eq _⟩
    rw [hordered.mem_recorded, hpaths]

end Indicators.Schema
