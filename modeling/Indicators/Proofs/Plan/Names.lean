import Indicators.Plan.Rollup
import Indicators.Proofs.Pipeline.Paths
import Std.Data.String.ToNat

set_option autoImplicit false

/-! Positions, references and joined documents are kept in fields whose names hold no dots and
differ from each other, and data whose path begins with none of them is never overwritten. -/

namespace Indicators.Plan

open Indicators Indicators.Pipeline

/-- A name for positions, and no path. -/
structure IndexName (name : String) : Prop where
  begins : "_idx_".toList <+: name.toList
  simple : '.' ∉ name.toList

/-- A first name that neither the identifier nor a position has. -/
structure DataRoot (name : String) : Prop where
  not_id : name ≠ "_id"
  not_index : ¬ "_idx_".toList <+: name.toList

def Reserved (name : String) : Prop :=
  name = "_id" ∨ ∃ first ∈ ["_idx_", "_refs_", "_joined_"], first.toList <+: name.toList

instance (name : String) : Decidable (Reserved name) := inferInstanceAs (Decidable (_ ∨ _))

theorem DataRoot.of_not_reserved {name : String} (h : ¬ Reserved name) : DataRoot name :=
  ⟨fun e => h (.inl e), fun hp => h (.inr ⟨"_idx_", by decide, hp⟩)⟩

theorem IndexName.ne_root {name root : String} (hn : IndexName name) (hr : DataRoot root) :
    name ≠ root := fun e => hr.not_index (e ▸ hn.begins)

theorem IndexName.ne_id {name : String} (h : IndexName name) : name ≠ "_id" := by
  rintro rfl
  exact absurd h.begins (by decide)

theorem IndexName.ne_document {name : String} (h : IndexName name) : name ≠ documentName := by
  rintro rfl
  exact absurd h.begins (by decide)

theorem IndexName.root {name : String} (h : IndexName name) : rootOf name = name :=
  rootOf_of_not_mem h.simple

theorem dot_not_mem_toString (n : Nat) : '.' ∉ (toString n).toList := by
  intro h
  have hd : ('.' : Char).isDigit = true := by
    rw [Nat.toString_eq_repr, Nat.toList_repr] at h
    exact Nat.isDigit_of_mem_toDigits (by decide) (by decide) h
  exact absurd hd (by decide)

theorem dot_not_mem_append {first : String} (h : '.' ∉ first.toList) (n : Nat) :
    '.' ∉ (first ++ toString n).toList := by
  rw [String.toList_append, List.mem_append]
  exact fun hm => hm.elim h (dot_not_mem_toString n)

theorem append_toString_injective {first : String} {m n : Nat}
    (h : first ++ toString m = first ++ toString n) : m = n := by
  have hl := congrArg String.toList h
  rw [String.toList_append, String.toList_append] at hl
  have hs := String.toList_inj.1 (List.append_cancel_left hl)
  exact Nat.repr_injective hs

theorem levelIndex_name (level : Nat) : IndexName ("_idx_l" ++ toString level) := by
  refine ⟨?_, dot_not_mem_append (by decide) level⟩
  rw [String.toList_append]
  exact (by decide : "_idx_".toList <+: "_idx_l".toList).trans (List.prefix_append _ _)

theorem sectionIndex_name (k : Nat) : IndexName ("_idx_s" ++ toString k) := by
  refine ⟨?_, dot_not_mem_append (by decide) k⟩
  rw [String.toList_append]
  exact (by decide : "_idx_".toList <+: "_idx_s".toList).trans (List.prefix_append _ _)

theorem levelIndex_ne_sectionIndex (level k : Nat) :
    "_idx_l" ++ toString level ≠ "_idx_s" ++ toString k := by
  intro h
  have hl := congrArg (fun s => s.toList.take 6) h
  simp only [String.toList_append] at hl
  rw [List.take_append_of_le_length (by decide), List.take_append_of_le_length (by decide)] at hl
  exact absurd hl (by decide)

/-- The second character tells names of data from those of identifiers and positions. -/
theorem dataRoot_of_second {name : String} (h : name.toList[1]? ≠ some 'i') : DataRoot name := by
  constructor
  · rintro rfl
    exact h rfl
  · rintro ⟨rest, hr⟩
    rw [← hr] at h
    exact h rfl

theorem joinedName_root (level : Nat) : DataRoot ("_joined_l" ++ toString level) := by
  refine dataRoot_of_second ?_
  rw [String.toList_append, List.getElem?_append_left (by decide)]
  decide

theorem referencesName_root (level : Nat) : DataRoot ("_refs_l" ++ toString level) := by
  refine dataRoot_of_second ?_
  rw [String.toList_append, List.getElem?_append_left (by decide)]
  decide

theorem joinedName_simple (level : Nat) : '.' ∉ ("_joined_l" ++ toString level).toList :=
  dot_not_mem_append (by decide) level

theorem joinedName_ne_empty (level : Nat) : "_joined_l" ++ toString level ≠ "" := by
  intro e
  have hl := congrArg String.toList e
  simp at hl

theorem referencesName_simple (level : Nat) : '.' ∉ ("_refs_l" ++ toString level).toList :=
  dot_not_mem_append (by decide) level

theorem dotsToUnderscores_simple (s : String) : '.' ∉ (dotsToUnderscores s).toList := by
  unfold dotsToUnderscores
  rw [String.toList_ofList, List.mem_map]
  rintro ⟨c, -, hc⟩
  split at hc
  · exact absurd hc (by decide)
  · next h => exact h hc

theorem resultKey_simple (o : Outline) (level : Nat) : '.' ∉ (o.resultKey level).toList := by
  cases level with
  | zero => exact (by decide : '.' ∉ resultName.toList)
  | succ above =>
    rw [Outline.resultKey, String.toList_append, List.mem_append]
    exact fun h => h.elim (by decide) (dotsToUnderscores_simple _)

theorem resultKey_ne_id (o : Outline) (level : Nat) : o.resultKey level ≠ "_id" := by
  cases level with
  | zero => exact (by decide : resultName ≠ "_id")
  | succ above =>
    intro h
    have hl := congrArg (fun s => s.toList.head?) h
    simp only [Outline.resultKey, String.toList_append] at hl
    rw [List.head?_append_of_ne_nil _ (by decide)] at hl
    exact absurd hl (by decide)

end Indicators.Plan
