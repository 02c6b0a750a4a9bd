import Indicators.Proofs.Schema.References
import Mathlib.Algebra.BigOperators.Group.Finset.Basic

set_option autoImplicit false

/-! A collection that has been loaded takes no look-up. Any other takes one for its name and one for
each identifier that its template refers to; without a template it is never kept, so it takes one
each time it is asked for. -/

namespace Indicators.Schema

open Indicators

namespace Catalog

/-- The identifiers that the template of a collection refers to. -/
def referencesOf (c : Catalog) (collection : String) : List String :=
  match c.byName collection with
  | some template => references template.sections
  | none => []

def Knows (c : Catalog) (collection : String) : Prop := (c.byName collection).isSome = true

instance (c : Catalog) : DecidablePred c.Knows :=
  fun collection => inferInstanceAs (Decidable ((c.byName collection).isSome = true))

end Catalog

/-- What asking for a collection gives, and what is loaded afterwards. -/
inductive Loads (c : Catalog) (collection : String) (l : Loaded) :
    Except LoadError Schema × Loaded → Prop where
  | kept {schema : Schema} (old : collection ∈ l.schemas.names) :
      Loads c collection l (.ok schema, l)
  | found {schema : Schema} (new : collection ∉ l.schemas.names) (known : c.Knows collection) :
      Loads c collection l (.ok schema,
        ⟨l.schemas.put collection schema, l.lookups + (1 + (c.referencesOf collection).length)⟩)
  | missed {e : LoadError} (new : collection ∉ l.schemas.names) (unknown : ¬ c.Knows collection) :
      Loads c collection l (.error e, ⟨l.schemas, l.lookups + 1⟩)

variable {c : Catalog} {collection : String} {l : Loaded}

theorem run_loadTargets (c : Catalog) (ids : List String) (l : Loaded) :
    ∃ targets, (loadTargets c.registry ids).run.run l =
      (.ok targets, ⟨l.schemas, l.lookups + ids.length⟩) := by
  induction ids generalizing l with
  | nil => exact ⟨[], rfl⟩
  | cons id rest ih =>
    obtain ⟨targets, htargets⟩ := ih ⟨l.schemas, l.lookups + 1⟩
    have hanswered : (answered (c.registry.byId id)).run.run l =
        (.ok (c.byId id), ⟨l.schemas, l.lookups + 1⟩) := rfl
    have hlength : l.lookups + 1 + rest.length = l.lookups + (rest.length + 1) := by omega
    rw [loadTargets, run_bind, hanswered]
    dsimp only
    rw [run_bind, htargets, List.length_cons, ← hlength]
    exact ⟨_, rfl⟩

theorem loads_anew (c : Catalog) (new : l.schemas.lookup collection = none) :
    Loads c collection l ((loadAnew c.registry collection).run.run l) := by
  have habsent := Directory.lookup_eq_none.1 new
  have hanswered : (answered (c.registry.byName collection)).run.run l =
      (.ok (c.byName collection), ⟨l.schemas, l.lookups + 1⟩) := rfl
  rw [loadAnew, run_bind, hanswered]
  cases hname : c.byName collection with
  | none => exact .missed habsent (by simp [Catalog.Knows, hname])
  | some template =>
    obtain ⟨targets, htargets⟩ :=
      run_loadTargets c (references template.sections) ⟨l.schemas, l.lookups + 1⟩
    have hreferences : c.referencesOf collection = references template.sections := by
      rw [Catalog.referencesOf, hname]
    have hkeep (schema : Schema) (n : Nat) :
        Loaded.keep ⟨l.schemas, l.lookups + 1 + n⟩ collection schema =
          ⟨l.schemas.put collection schema, l.lookups + (1 + n)⟩ := by
      rw [Loaded.keep, new, Nat.add_assoc]
    dsimp only
    rw [run_bind, htargets]
    change Loads c collection l (.ok ⟨template, resolve template.sections targets⟩,
      Loaded.keep ⟨l.schemas, l.lookups + 1 + (references template.sections).length⟩ collection _)
    rw [hkeep, ← hreferences]
    exact .found habsent (by simp [Catalog.Knows, hname])

theorem loads (c : Catalog) (collection : String) (l : Loaded) :
    Loads c collection l ((load c.registry collection).run.run l) := by
  cases hfound : l.schemas.lookup collection with
  | some schema =>
    rw [run_load_kept _ hfound]
    exact .kept (Directory.mem_names.2 ⟨schema, hfound⟩)
  | none =>
    rw [run_load_new _ hfound]
    exact loads_anew c hfound

theorem Loads.ok_mem {schema : Schema} {after : Loaded}
    (h : Loads c collection l (.ok schema, after)) : collection ∈ after.schemas.names := by
  cases h with
  | kept old => exact old
  | found new known => exact (Directory.mem_names_put _ _).2 (.inl rfl)

/-- What each collection takes once if the catalog knows it, and one look-up each time if not. -/
def Catalog.lookupsFor (c : Catalog) (collections : List String) : Nat :=
  (∑ collection ∈ collections.toFinset with c.Knows collection,
      (1 + (c.referencesOf collection).toFinset.card)) +
    collections.countP fun collection => ¬ c.Knows collection

theorem Catalog.card_referencesOf (c : Catalog) (collection : String) :
    (c.referencesOf collection).toFinset.card = (c.referencesOf collection).length := by
  refine List.toFinset_card_of_nodup ?_
  unfold Catalog.referencesOf
  cases c.byName collection with
  | none => exact List.nodup_nil
  | some template => exact Directory.nodup_sorted _

section

variable {collections : List String}

theorem lookupsFor_cons_known (known : c.Knows collection) :
    c.lookupsFor (collection :: collections) =
      if collection ∈ collections then c.lookupsFor collections
      else c.lookupsFor collections + (1 + (c.referencesOf collection).length) := by
  unfold Catalog.lookupsFor
  rw [List.toFinset_cons, List.countP_cons_of_neg (by simpa using known)]
  split
  · next hmem => rw [Finset.insert_eq_of_mem (List.mem_toFinset.2 hmem)]
  · next hnew =>
    rw [Finset.filter_insert, if_pos known, Finset.sum_insert, c.card_referencesOf]
    · omega
    · exact fun h => hnew (List.mem_toFinset.1 (Finset.mem_filter.1 h).1)

theorem lookupsFor_cons_unknown (unknown : ¬ c.Knows collection) :
    c.lookupsFor (collection :: collections) = c.lookupsFor collections + 1 := by
  unfold Catalog.lookupsFor
  rw [List.toFinset_cons, Finset.filter_insert, if_neg unknown,
    List.countP_cons_of_pos (by simpa using unknown)]
  omega

theorem lookupsFor_perm {others : List String} (h : collections.Perm others) :
    c.lookupsFor collections = c.lookupsFor others := by
  unfold Catalog.lookupsFor
  rw [List.toFinset_eq_of_perm _ _ h, h.countP_eq]

end

/-- What is loaded after these collections have been asked for. -/
structure Asked (c : Catalog) (asked : List String) (l : Loaded) : Prop where
  lookups : l.lookups = c.lookupsFor asked
  names : ∀ name, name ∈ l.schemas.names ↔ name ∈ asked ∧ c.Knows name

theorem asked_nothing (c : Catalog) : Asked c [] {} where
  lookups := rfl
  names name := by simp [Directory.names]

section

variable {asked : List String} {r : Except LoadError Schema × Loaded}

theorem Asked.loads (h : Asked c asked l) (hl : Loads c collection l r) :
    Asked c (collection :: asked) r.2 := by
  obtain ⟨hlookups, hnames⟩ := h
  cases hl with
  | kept old =>
    obtain ⟨hasked, hknown⟩ := (hnames collection).1 old
    refine ⟨?_, fun name => ?_⟩
    · rw [lookupsFor_cons_known hknown, if_pos hasked]
      exact hlookups
    · rw [hnames, List.mem_cons]
      exact ⟨fun hn => ⟨.inr hn.1, hn.2⟩,
        fun hn => ⟨hn.1.elim (fun he => he ▸ hasked) id, hn.2⟩⟩
  | found new known =>
    have hnew : collection ∉ asked := fun hasked => new ((hnames collection).2 ⟨hasked, known⟩)
    refine ⟨?_, fun name => ?_⟩
    · rw [lookupsFor_cons_known known, if_neg hnew, ← hlookups]
    · rw [Directory.mem_names_put, hnames, List.mem_cons, or_and_right]
      exact or_congr_left ⟨fun he => ⟨he, he ▸ known⟩, And.left⟩
  | missed new unknown =>
    refine ⟨?_, fun name => ?_⟩
    · rw [lookupsFor_cons_unknown unknown, ← hlookups]
    · rw [hnames, List.mem_cons, or_and_right]
      exact ⟨.inr, fun hn => hn.elim (fun he => absurd (he.1 ▸ he.2) unknown) id⟩

theorem Asked.loads_again (h : Asked c asked l) (hasked : collection ∈ asked)
    (hknown : c.Knows collection) (hl : Loads c collection l r) : Asked c asked r.2 := by
  cases hl with
  | kept old => exact h
  | found new known => exact absurd ((h.names collection).2 ⟨hasked, hknown⟩) new
  | missed new unknown => exact absurd hknown unknown

end

end Indicators.Schema
