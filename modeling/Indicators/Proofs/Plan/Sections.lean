import Indicators.Proofs.Plan.Nesting
import Indicators.Proofs.Plan.Rows

set_option autoImplicit false

namespace Indicators.Plan

open Indicators Indicators.Pipeline

theorem openChain_cons (elements : List Json) (name : String) (chain : List String) :
    openChain elements (name :: chain) =
      openChain (elements.flatMap fun e => manyOf (valueAt name e)) chain := rfl

theorem openChain_flatMap {α : Type} (f : α → List Json) (xs : List α) (chain : List String) :
    openChain (xs.flatMap f) chain = xs.flatMap fun x => openChain (f x) chain := by
  induction chain generalizing f with
  | nil => rfl
  | cons name rest ih =>
    rw [openChain_cons, List.flatMap_assoc, ih]
    rfl

def unwindingsFrom (before : List String) : List String → List Unwinding
  | [] => []
  | name :: rest =>
    ⟨dotted (before ++ [name]), "_idx_s" ++ toString before.length⟩ ::
      unwindingsFrom (before ++ [name]) rest

theorem map_range_unwindings (before chain : List String) (hne : before ≠ []) :
    ((List.range chain.length).map fun k => Unwinding.mk
        (dotted ((before ++ chain).take (before.length + k + 1)))
        ("_idx_s" ++ toString (before.length + k))) =
      unwindingsFrom before chain := by
  induction chain generalizing before with
  | nil => rfl
  | cons name rest ih =>
    have hlen : (before ++ [name]).length = before.length + 1 := by simp
    rw [List.length_cons, List.range_succ_eq_map, List.map_cons, List.map_map, unwindingsFrom,
      ← ih (before ++ [name]) (by simp), hlen]
    congr 1
    · rw [Nat.add_zero, List.take_append, List.take_of_length_le (by omega),
        Nat.add_sub_cancel_left]
      rfl
    · refine List.map_congr_left fun k _ => ?_
      rw [Function.comp_apply, List.append_assoc, List.singleton_append, Nat.succ_eq_add_one,
        Nat.add_comm k 1, ← Nat.add_assoc]

theorem subformUnwindings_cons (first : String) (chain : List String) :
    subformUnwindings (first :: chain) = unwindingsFrom [first] chain := by
  rw [← map_range_unwindings [first] chain (by simp)]
  unfold subformUnwindings
  rw [List.length_cons, Nat.add_sub_cancel]
  refine List.map_congr_left fun k _ => ?_
  rw [List.singleton_append, List.length_singleton, Nat.add_comm 1 k]

theorem dotted_cons_cons (first second : String) (rest : List String) :
    dotted (first :: second :: rest) = first ++ "." ++ dotted (second :: rest) := rfl

theorem dotted_append_single {before : List String} (hne : before ≠ []) (name : String) :
    dotted (before ++ [name]) = dotted before ++ "." ++ name := by
  induction before with
  | nil => exact absurd rfl hne
  | cons first rest ih =>
    cases rest with
    | nil => rfl
    | cons second rest =>
      have h := ih (by simp)
      rw [List.cons_append] at h
      rw [List.cons_append, List.cons_append, dotted_cons_cons, h, dotted_cons_cons]
      simp only [String.append_assoc]

theorem dotted_root {first : String} (hne : first ≠ "") (rest : List String) :
    dotted (first :: rest) ≠ "" ∧ rootOf (dotted (first :: rest)) = rootOf first := by
  cases rest with
  | nil => exact ⟨hne, rfl⟩
  | cons second rest =>
    have hwithin : dotted (first :: second :: rest) = within first (dotted (second :: rest)) := by
      rw [dotted_cons_cons, within, if_neg hne]
    rw [hwithin]
    exact ⟨within_ne_empty hne _, rootOf_within hne _⟩

theorem dotted_within {before : List String} (hne : before ≠ []) (hbase : dotted before ≠ "")
    (name : String) : dotted (before ++ [name]) = within (dotted before) name := by
  rw [dotted_append_single hne, within, if_neg hbase]

theorem rootOf_dotted {before : List String} (hne : before ≠ []) (hbase : dotted before ≠ "")
    (name : String) :
    dotted (before ++ [name]) ≠ "" ∧ rootOf (dotted (before ++ [name])) = rootOf (dotted before) := by
  rw [dotted_within hne hbase]
  exact ⟨within_ne_empty hbase name, rootOf_within hbase name⟩

/-- Running the unwindings of a chain opens the chain. Only their positions must not be written
over what they open. -/
theorem unwindings_elements (collection : String → List Json) (chain : List String)
    {before : List String} (hne : before ≠ []) (hbase : dotted before ≠ "")
    (hfree : rootOf (dotted before) ∉ (unwindingsFrom before chain).map (·.index))
    {rows : List Json} (ho : ∀ row ∈ rows, row.isObject = true) :
    (run collection rows ((unwindingsFrom before chain).map Unwinding.stage)).map
        (elementAt (dotted (before ++ chain))) =
      openChain (rows.map (elementAt (dotted before))) chain := by
  -- Each step opens one subform and makes the base grow by its name.
  induction chain generalizing before rows with
  | nil =>
    rw [List.append_nil]
    rfl
  | cons name rest ih =>
    obtain ⟨hbase', hroot⟩ := rootOf_dotted hne hbase name
    rw [unwindingsFrom, List.map_cons, List.mem_cons, not_or] at hfree
    obtain ⟨hhere, hrest⟩ := hfree
    have hindex : rootOf (dotted (before ++ [name])) ≠
        rootOf ("_idx_s" ++ toString before.length) := by
      rw [hroot, (sectionIndex_name before.length).root]
      exact hhere
    have hstep := fun row (hr : row ∈ rows) => unwindDoc_elements hbase' hindex (ho row hr)
    have hobjects : ∀ child ∈ rows.flatMap (unwindDoc (dotted (before ++ [name]))
        (some ("_idx_s" ++ toString before.length))), child.isObject = true := by
      intro child hc
      obtain ⟨row, hr, hc⟩ := List.mem_flatMap.1 hc
      exact (hstep row hr).1 child hc
    have hopen := ih (by simp) hbase' (hroot ▸ hrest) hobjects
    rw [List.append_assoc, List.singleton_append] at hopen
    refine hopen.trans ?_
    rw [openChain_cons, List.map_flatMap, List.flatMap_map]
    congr 1
    refine List.flatMap_congr fun row hr => (hstep row hr).2.trans ?_
    rw [dotted_within hne hbase, valueAt_within]

theorem subform_descends {names : List String} (marks : Marks names) {before : List String}
    (name : String) (hne : before ≠ []) (hbase : dotted before ≠ "")
    (hroot : DataRoot (rootOf (dotted before))) (k : Nat)
    (hfree : "_idx_s" ++ toString k ∉ names) {row : Json} (ho : row.isObject = true) :
    Descends names (dotted (before ++ [name])) ("_idx_s" ++ toString k)
      (manyOf (valueAt name (elementAt (dotted before) row))) row
      (unwindDoc (dotted (before ++ [name])) (some ("_idx_s" ++ toString k)) row) := by
  rw [dotted_within hne hbase, ← valueAt_within]
  refine unwind_descends marks (within_ne_empty hbase name) ?_ (sectionIndex_name k) hfree ho
  rw [rootOf_within hbase]
  exact hroot

theorem run_unwindings (collection : String → List Json) (chain : List String)
    {before names : List String} (hne : before ≠ []) (hbase : dotted before ≠ "")
    (hroot : DataRoot (rootOf (dotted before))) (marks : Marks names)
    (hfree : ∀ k, before.length ≤ k → "_idx_s" ++ toString k ∉ names) :
    Marks (names ++ (unwindingsFrom before chain).map (·.index)) ∧
      ∀ {rows : List Json}, Rows names rows →
        Rows (names ++ (unwindingsFrom before chain).map (·.index))
          (run collection rows ((unwindingsFrom before chain).map Unwinding.stage)) := by
  induction chain generalizing before names with
  | nil =>
    rw [unwindingsFrom, List.map_nil, List.append_nil]
    exact ⟨marks, id⟩
  | cons name rest ih =>
    obtain ⟨hbase', hroot'⟩ := rootOf_dotted hne hbase name
    have hfree' : ∀ k, (before ++ [name]).length ≤ k →
        "_idx_s" ++ toString k ∉ names ++ ["_idx_s" ++ toString before.length] := by
      intro k hk hm
      rw [List.length_append, List.length_singleton] at hk
      rcases List.mem_append.1 hm with hm | hm
      · exact hfree k (by omega) hm
      · have he := append_toString_injective (List.mem_singleton.1 hm)
        omega
    obtain ⟨hmarks, hopen⟩ := ih (by simp) hbase' (hroot' ▸ hroot)
      (marks.append (sectionIndex_name before.length) (hfree _ (Nat.le_refl _))) hfree'
    simp only [List.append_assoc, List.singleton_append] at hmarks hopen
    refine ⟨hmarks, fun {rows} hrows => ?_⟩
    have hd := fun row (hr : row ∈ rows) => subform_descends marks name hne hbase hroot
      before.length (hfree _ (Nat.le_refl _)) (hrows.objects row hr)
    exact hopen (hrows.descend hd)

theorem sectionIndex_of_mem {chain before : List String} {name : String}
    (h : name ∈ (unwindingsFrom before chain).map (·.index)) :
    ∃ k : Nat, name = "_idx_s" ++ toString k := by
  induction chain generalizing before with
  | nil => exact absurd h List.not_mem_nil
  | cons first rest ih =>
    rcases List.mem_cons.1 h with rfl | h
    · exact ⟨_, rfl⟩
    · exact ih h

def sectionIndexes (sectionPath : List String) : List String :=
  (subformUnwindings sectionPath).map (·.index)

theorem levelIndex_not_mem_sectionIndexes (sectionPath : List String) (k : Nat) :
    "_idx_l" ++ toString k ∉ sectionIndexes sectionPath := by
  unfold sectionIndexes
  cases sectionPath with
  | nil => exact List.not_mem_nil
  | cons first chain =>
    rw [subformUnwindings_cons]
    intro h
    obtain ⟨j, hj⟩ := sectionIndex_of_mem h
    exact levelIndex_ne_sectionIndex k j hj

theorem DataRoot.not_mem_sectionIndexes {root : String} (h : DataRoot root)
    (sectionPath : List String) : root ∉ sectionIndexes sectionPath := by
  unfold sectionIndexes
  cases sectionPath with
  | nil => exact List.not_mem_nil
  | cons first chain =>
    rw [subformUnwindings_cons]
    intro hm
    obtain ⟨k, rfl⟩ := sectionIndex_of_mem hm
    exact (sectionIndex_name k).ne_root h rfl

/-- The section stages turn documents into the elements of their sections. -/
theorem sectionStages_elements (collection : String → List Json) {first : String}
    (chain : List String) (placements : List Placement) (hne : first ≠ "")
    (hfree : rootOf first ∉ sectionIndexes (first :: chain)) {docs : List Json}
    (ho : ∀ doc ∈ docs, doc.isObject = true) :
    (run collection docs (layoutOf (first :: chain) placements).sectionStages).map
        (elementAt (dotted (first :: chain))) =
      docs.flatMap (sectionElements (first :: chain)) := by
  unfold sectionIndexes at hfree
  unfold layoutOf Layout.sectionStages
  rw [subformUnwindings_cons] at hfree ⊢
  have hkept : ∀ doc ∈ docs.filter (Predicate.holds · (.exists first)), doc.isObject = true :=
    fun doc hd => ho doc (List.mem_of_mem_filter hd)
  have helements := unwindings_elements collection chain (List.cons_ne_nil first []) hne hfree hkept
  rw [run_append]
  refine helements.trans ?_
  rw [← List.flatMap_pure_eq_map, openChain_flatMap, filter_flatMap_single]
  refine List.flatMap_congr fun doc _ => ?_
  rw [Predicate.holds, sectionElements, Function.comp_apply, dotted, elementAt_of_ne hne]
  cases (candidates first doc).isEmpty <;> rfl

theorem run_sectionStages (collection : String → List Json) {sectionPath : List String}
    (placements : List Placement) (hentries : ∀ s ∈ sectionPath, s ≠ "")
    (hroot : ∀ s ∈ sectionPath.head?, DataRoot (rootOf s)) :
    Marks (sectionIndexes sectionPath) ∧ ∀ {docs : List Json}, Rows [] docs →
      Rows (sectionIndexes sectionPath)
        (run collection docs (layoutOf sectionPath placements).sectionStages) ∧
      (run collection docs (layoutOf sectionPath placements).sectionStages).map
          (elementAt (dotted sectionPath)) =
        docs.flatMap (sectionElements sectionPath) := by
  have hmarks : Marks [] := ⟨fun _ h => absurd h List.not_mem_nil, List.nodup_nil⟩
  cases sectionPath with
  | nil =>
    refine ⟨hmarks, fun {docs} hdocs => ⟨hdocs, ?_⟩⟩
    exact (List.map_id docs).trans (List.flatMap_singleton' docs).symm
  | cons first chain =>
    have hne := hentries first List.mem_cons_self
    have hr := hroot first rfl
    obtain ⟨hm, hopen⟩ := run_unwindings collection chain (List.cons_ne_nil first []) hne hr hmarks
      (fun _ _ => List.not_mem_nil)
    rw [List.nil_append, ← subformUnwindings_cons] at hm hopen
    refine ⟨hm, fun {docs} hdocs => ⟨?_, sectionStages_elements collection chain placements hne
      (hr.not_mem_sectionIndexes _) hdocs.objects⟩⟩
    have hrows := hopen (hdocs.filter (Predicate.holds · (.exists first)))
    unfold layoutOf Layout.sectionStages
    rw [run_append]
    exact hrows

end Indicators.Plan
