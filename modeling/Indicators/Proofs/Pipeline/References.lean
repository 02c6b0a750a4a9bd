import Indicators.Proofs.Json.Text
import Indicators.Proofs.Pipeline.ValueOrder

set_option autoImplicit false

/-! A stored reference that is an object with an `$oid` becomes a text before it is compared, so it
compares equal to its own text and to no object any more. -/

namespace Indicators.Pipeline

open Indicators

theorem compareValues_string {s : String} {v : Json} :
    compareValues (.string s) v = .eq ↔ v = .string s := by
  refine ⟨fun h => ?_, fun h => h ▸ compareValues_self _⟩
  cases v with
  | string t => rw [Std.LawfulEqOrd.eq_of_compare (show compare s t = .eq from h)]
  | _ => cases h

theorem compareValues_object {v : Json} {members : List (String × Json)} :
    compareValues v (.object members) = .eq ↔ v = .object members := by
  refine ⟨fun h => ?_, fun h => h ▸ compareValues_self _⟩
  cases v with
  | object others => exact Json.text_injective (Std.LawfulEqOrd.eq_of_compare h)
  | _ => cases h

def Marked (v : Json) : Prop := ∃ id, v.member? "$oid" = some (.string id)

theorem Marked.object {v : Json} (h : Marked v) : ∃ members, v = .object members := by
  obtain ⟨id, h⟩ := h
  cases v with
  | object members => exact ⟨members, rfl⟩
  | _ => cases h

theorem asReference_eq_text {v : Json} {id : String} (h : v.member? "$oid" = some (.string id)) :
    asReference v = .string id := by
  unfold asReference
  rw [h]

theorem asReference_eq_self {v : Json} (h : ¬ Marked v) : asReference v = v := by
  unfold asReference
  split
  · next id he => exact absurd ⟨id, he⟩ h
  · rfl

theorem not_marked_asReference (v : Json) : ¬ Marked (asReference v) := by
  by_cases h : Marked v
  · obtain ⟨id, hid⟩ := h
    rw [asReference_eq_text hid]
    rintro ⟨_, he⟩
    cases he
  · rwa [asReference_eq_self h]

theorem not_marked_of_compareValues {r v : Json} (h : compareValues (asReference r) v = .eq) :
    ¬ Marked v := by
  intro hv
  obtain ⟨members, rfl⟩ := hv.object
  rw [compareValues_object] at h
  exact not_marked_asReference r (h ▸ hv)

end Indicators.Pipeline
