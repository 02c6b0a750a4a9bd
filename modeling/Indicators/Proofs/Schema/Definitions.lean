import Indicators.Pipeline.Path
import Indicators.Schema.FieldTypes
import Mathlib.Data.List.Basic
import Mathlib.Data.List.Induction

set_option autoImplicit false

/-! A field has an address: the position of its section, and then of every field on the way down to
it. The definitions stand in the order of addresses, each once, so the last one that has a property
is the one with the greatest address. -/

namespace Indicators.Schema

open Indicators Indicators.Pipeline

/-- The field at an address below a list of fields, and the names on the way to it. Only what is
inside a subform is reached. -/
inductive ReachedAt : List Field → List Nat → List String → Field → Prop where
  | here {fields : List Field} {i : Nat} {f : Field} (found : fields[i]? = some f) :
    ReachedAt fields [i] [f.name] f
  | inside {fields : List Field} {i : Nat} {f g : Field} {address : List Nat}
    {names : List String} (found : fields[i]? = some f) (subform : f.type = .subform)
    (below : ReachedAt f.subFields address names g) :
    ReachedAt fields (i :: address) (f.name :: names) g

/-- The field at an address is a definition of this path of this section. -/
inductive DefinedAt (sections : List Section) : List Nat → String → String → Field → Prop where
  | intro {i : Nat} {s : Section} {address : List Nat} {names : List String} {f : Field}
    (found : sections[i]? = some s) (reached : ReachedAt s.fields address names f) :
    DefinedAt sections (i :: address) s.name (dotted names) f

def Last (stands : List Nat → Field → Prop) (f : Field) : Prop :=
  ∃ address, stands address f ∧ ∀ later g, address < later → ¬ stands later g

section

variable {α β γ : Type}

def InOrder (entries : List (List Nat × β)) : Prop := entries.Pairwise fun d e => d.1 < e.1

def numbered (block : α → List (List Nat × β)) (i : Nat) (xs : List α) : List (List Nat × β) :=
  (xs.zipIdx i).flatMap fun x => (block x.1).map fun e => (x.2 :: e.1, e.2)

theorem numbered_cons (block : α → List (List Nat × β)) (i : Nat) (x : α) (rest : List α) :
    numbered block i (x :: rest) =
      (block x).map (fun e => (i :: e.1, e.2)) ++ numbered block (i + 1) rest := by
  rw [numbered, List.zipIdx_cons, List.flatMap_cons]
  rfl

theorem mem_numbered {block : α → List (List Nat × β)} {xs : List α} {address : List Nat} {b : β} :
    (address, b) ∈ numbered block 0 xs ↔
      ∃ i x inner, xs[i]? = some x ∧ (inner, b) ∈ block x ∧ address = i :: inner := by
  unfold numbered
  simp only [List.mem_flatMap, List.mem_map, Prod.exists, List.mem_zipIdx_iff_getElem?,
    Prod.mk.injEq]
  constructor
  · rintro ⟨x, i, hx, inner, _, hb, rfl, rfl⟩
    exact ⟨i, x, inner, hx, hb, rfl⟩
  · rintro ⟨i, x, inner, hx, hb, rfl⟩
    exact ⟨x, i, hx, inner, b, hb, rfl, rfl⟩

theorem inOrder_numbered {block : α → List (List Nat × β)} {xs : List α}
    (h : ∀ x ∈ xs, InOrder (block x)) (i : Nat) : InOrder (numbered block i xs) := by
  refine List.pairwise_flatMap.2 ⟨fun x hx => ?_, ?_⟩
  · refine List.pairwise_map.2 ((h x.1 (List.fst_mem_of_mem_zipIdx hx)).imp fun hlt => ?_)
    exact List.cons_lt_cons_iff.2 (.inr ⟨rfl, hlt⟩)
  · have hpositions : ((xs.zipIdx i).map Prod.snd).Pairwise (· < ·) := by
      rw [List.zipIdx_map_snd]
      exact List.pairwise_lt_range'
    refine (List.pairwise_map.1 hpositions).imp fun hlt d hd e he => ?_
    obtain ⟨_, -, rfl⟩ := List.mem_map.1 hd
    obtain ⟨_, -, rfl⟩ := List.mem_map.1 he
    exact List.cons_lt_cons_iff.2 (.inl hlt)

/-- A search from the end finds the entry with the greatest address of those that answer. -/
theorem findSome?_last {entries : List (List Nat × β)} (h : InOrder entries)
    {answer : β → Option γ} {c : γ} :
    (entries.map (·.2)).reverse.findSome? answer = some c ↔
      ∃ e ∈ entries, answer e.2 = some c ∧
        ∀ later ∈ entries, e.1 < later.1 → answer later.2 = none := by
  -- The search starts at the end: either the last entry answers, and no address is greater than
  -- its own, or it does not, and the search goes on with the entries before it.
  induction entries using List.reverseRecOn with
  | nil => simp
  | append_singleton entries last ih =>
    obtain ⟨hbefore, -, hlast⟩ := List.pairwise_append.1 h
    have hlt : ∀ e ∈ entries, e.1 < last.1 := fun e he => hlast e he last List.mem_cons_self
    rw [List.map_append, List.map_singleton, List.reverse_append, List.reverse_singleton,
      List.singleton_append, List.findSome?_cons]
    cases hfound : answer last.2 with
    | some found =>
      constructor
      · intro he
        refine ⟨last, by simp, hfound.trans he, fun later hl hlater => ?_⟩
        rcases List.mem_append.1 hl with hl | hl
        · exact absurd hlater (List.lt_asymm (hlt later hl))
        · rw [List.mem_singleton.1 hl] at hlater
          exact absurd hlater (List.lt_irrefl _)
      · rintro ⟨e, he, hc, hnone⟩
        rcases List.mem_append.1 he with he | he
        · rw [hnone last (by simp) (hlt e he)] at hfound
          cases hfound
        · rw [List.mem_singleton.1 he] at hc
          exact hfound.symm.trans hc
    | none =>
      rw [ih hbefore]
      constructor
      · rintro ⟨e, he, hc, hnone⟩
        refine ⟨e, List.mem_append_left _ he, hc, fun later hl hlater => ?_⟩
        rcases List.mem_append.1 hl with hl | hl
        · exact hnone later hl hlater
        · rw [List.mem_singleton.1 hl]
          exact hfound
      · rintro ⟨e, he, hc, hnone⟩
        rcases List.mem_append.1 he with he | he
        · exact ⟨e, he, hc, fun later hl => hnone later (List.mem_append_left _ hl)⟩
        · rw [List.mem_singleton.1 he, hfound] at hc
          cases hc

end

mutual

def Field.located : Field → List (List Nat × List String × Field)
  | ⟨name, type, subFields, reference⟩ =>
    ([], [name], ⟨name, type, subFields, reference⟩) ::
      if type = .subform then
        (locatedFrom 0 subFields).map fun e => (e.1, name :: e.2.1, e.2.2)
      else []

def locatedFrom (i : Nat) : List Field → List (List Nat × List String × Field)
  | [] => []
  | field :: rest => field.located.map (fun e => (i :: e.1, e.2)) ++ locatedFrom (i + 1) rest

end

theorem locatedFrom_eq (i : Nat) (fields : List Field) :
    locatedFrom i fields = numbered Field.located i fields := by
  induction fields generalizing i with
  | nil => rfl
  | cons field rest ih => rw [locatedFrom, numbered_cons, ih]

theorem Field.mem_located {f g : Field} {address : List Nat} {names : List String} :
    (address, names, g) ∈ f.located ↔
      (address = [] ∧ names = [f.name] ∧ g = f) ∨
        (f.type = .subform ∧ ∃ inner, (address, inner, g) ∈ locatedFrom 0 f.subFields ∧
          names = f.name :: inner) := by
  obtain ⟨name, type, subFields, reference⟩ := f
  rw [Field.located, List.mem_cons]
  refine or_congr (by simp) ?_
  split
  · next h =>
    simp only [List.mem_map, Prod.exists, Prod.mk.injEq, h, true_and]
    constructor
    · rintro ⟨_, inner, _, hm, rfl, rfl, rfl⟩
      exact ⟨inner, hm, rfl⟩
    · rintro ⟨inner, hm, rfl⟩
      exact ⟨_, inner, _, hm, rfl, rfl, rfl⟩
  · next h => simp [h]

theorem mem_locatedFrom {fields : List Field} {address : List Nat} {names : List String}
    {f : Field} :
    (address, names, f) ∈ locatedFrom 0 fields ↔ ReachedAt fields address names f := by
  rw [locatedFrom_eq]
  constructor
  · intro h
    -- On the address, because every number of it leads into the fields of another field.
    induction address generalizing fields names with
    | nil =>
      obtain ⟨_, _, _, -, -, he⟩ := mem_numbered.1 h
      cases he
    | cons i below ih =>
      obtain ⟨_, g, _, hg, hm, he⟩ := mem_numbered.1 h
      cases he
      rcases Field.mem_located.1 hm with ⟨rfl, rfl, rfl⟩ | ⟨hs, inner, hinner, rfl⟩
      · exact .here hg
      · rw [locatedFrom_eq] at hinner
        exact .inside hg hs (ih hinner)
  · intro h
    induction h with
    | here hf => exact mem_numbered.2 ⟨_, _, [], hf, Field.mem_located.2 (.inl ⟨rfl, rfl, rfl⟩), rfl⟩
    | inside hf hs _ ih =>
      rw [← locatedFrom_eq] at ih
      exact mem_numbered.2 ⟨_, _, _, hf, Field.mem_located.2 (.inr ⟨hs, _, ih, rfl⟩), rfl⟩

mutual

theorem Field.inOrder_located : (f : Field) → InOrder f.located
  | ⟨name, type, subFields, reference⟩ => by
    rw [Field.located]
    refine List.pairwise_cons.2 ⟨fun e he => ?_, ?_⟩
    · split at he
      · obtain ⟨inner, hm, rfl⟩ := List.mem_map.1 he
        rw [locatedFrom_eq] at hm
        obtain ⟨i, _, rest, -, -, haddress⟩ := mem_numbered.1 hm
        rw [haddress]
        exact List.nil_lt_cons i rest
      · exact absurd he List.not_mem_nil
    · split
      · refine List.pairwise_map.2 ?_
        rw [locatedFrom_eq]
        exact inOrder_numbered (inOrder_each subFields) 0
      · exact List.Pairwise.nil

theorem inOrder_each : (fields : List Field) → ∀ f ∈ fields, InOrder f.located
  | [], _, h => absurd h List.not_mem_nil
  | field :: rest, f, h => by
    rcases List.mem_cons.1 h with he | h
    · rw [he]
      exact Field.inOrder_located field
    · exact inOrder_each rest f h

end

theorem ReachedAt.names_ne_nil {fields : List Field} {address : List Nat} {names : List String}
    {f : Field} (h : ReachedAt fields address names f) : names ≠ [] := by
  cases h <;> exact List.cons_ne_nil _ _

theorem dotted_cons (name : String) {names : List String} (h : names ≠ []) :
    dotted (name :: names) = name ++ "." ++ dotted names := by
  cases names with
  | nil => exact absurd rfl h
  | cons next rest => rfl

mutual

theorem Field.definitions_eq (before : String) : (f : Field) →
    f.definitions before = f.located.map fun e => (before ++ dotted e.2.1, e.2.2)
  | ⟨name, type, subFields, reference⟩ => by
    rw [Field.definitions, Field.located, List.map_cons]
    congr 1
    split
    · rw [fieldDefinitions_eq (before ++ name ++ ".") 0 subFields, List.map_map]
      refine List.map_congr_left fun e he => ?_
      have hne := (mem_locatedFrom.1 he).names_ne_nil
      rw [Function.comp_apply, dotted_cons name hne]
      simp only [String.append_assoc]
    · rfl

theorem fieldDefinitions_eq (before : String) (i : Nat) : (fields : List Field) →
    fieldDefinitions before fields =
      (locatedFrom i fields).map fun e => (before ++ dotted e.2.1, e.2.2)
  | [] => rfl
  | field :: rest => by
    rw [fieldDefinitions, locatedFrom, List.map_append, List.map_map,
      Field.definitions_eq before field, fieldDefinitions_eq before (i + 1) rest]
    rfl

end

def located (sections : List Section) : List (List Nat × String × String × Field) :=
  numbered (fun s => (locatedFrom 0 s.fields).map fun e => (e.1, s.name, dotted e.2.1, e.2.2)) 0
    sections

theorem mem_located {sections : List Section} {address : List Nat} {sectionName path : String}
    {f : Field} :
    (address, sectionName, path, f) ∈ located sections ↔
      DefinedAt sections address sectionName path f := by
  unfold located
  rw [mem_numbered]
  constructor
  · rintro ⟨i, s, inner, hs, hm, rfl⟩
    obtain ⟨⟨_, names, _⟩, hinner, he⟩ := List.mem_map.1 hm
    cases he
    exact .intro hs (mem_locatedFrom.1 hinner)
  · rintro ⟨hs, hreached⟩
    exact ⟨_, _, _, hs, List.mem_map.2 ⟨_, mem_locatedFrom.2 hreached, rfl⟩, rfl⟩

theorem inOrder_located (sections : List Section) : InOrder (located sections) := by
  refine inOrder_numbered (fun s _ => List.pairwise_map.2 ?_) 0
  rw [locatedFrom_eq]
  exact inOrder_numbered (inOrder_each s.fields) 0

theorem sectionDefinitions_eq (sections : List Section) :
    sectionDefinitions sections = (located sections).map (·.2) := by
  have hempty (s : String) : "" ++ s = s := String.empty_append
  unfold sectionDefinitions located numbered
  rw [List.map_flatMap]
  conv_lhs => rw [← List.zipIdx_map_fst 0 sections, List.flatMap_map]
  refine List.flatMap_congr fun s _ => ?_
  rw [fieldDefinitions_eq "" 0, List.map_map, List.map_map, List.map_map]
  refine List.map_congr_left fun e _ => ?_
  simp [hempty]

theorem mem_sectionDefinitions {sections : List Section} {sectionName path : String} {f : Field} :
    (sectionName, path, f) ∈ sectionDefinitions sections ↔
      ∃ address, DefinedAt sections address sectionName path f := by
  rw [sectionDefinitions_eq, List.mem_map]
  constructor
  · rintro ⟨⟨address, _⟩, hm, rfl⟩
    exact ⟨address, mem_located.1 hm⟩
  · rintro ⟨address, hd⟩
    exact ⟨_, mem_located.2 hd, rfl⟩

theorem findSome?_definitions {γ : Type} {sections : List Section}
    {answer : String × String × Field → Option γ} {c : γ} :
    (sectionDefinitions sections).reverse.findSome? answer = some c ↔
      ∃ address sectionName path f, DefinedAt sections address sectionName path f ∧
        answer (sectionName, path, f) = some c ∧
        ∀ later sectionName path g, address < later →
          DefinedAt sections later sectionName path g → answer (sectionName, path, g) = none := by
  rw [sectionDefinitions_eq, findSome?_last (inOrder_located sections)]
  constructor
  · rintro ⟨⟨address, sectionName, path, f⟩, hm, hc, hnone⟩
    exact ⟨address, sectionName, path, f, mem_located.1 hm, hc,
      fun later _ _ g hlt hg => hnone _ (mem_located.2 hg) hlt⟩
  · rintro ⟨address, sectionName, path, f, hd, hc, hnone⟩
    exact ⟨_, mem_located.2 hd, hc,
      fun later hl hlt => hnone _ _ _ _ hlt (mem_located.1 hl)⟩

end Indicators.Schema
