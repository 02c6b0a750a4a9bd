import Indicators.Metric.Validation
import Indicators.Proofs.Traversal

set_option autoImplicit false

namespace Indicators.Metric

open Indicators

/-- A draft was accepted as this configuration. -/
def Validated (c : Configuration) : Prop := ∃ d : Draft, d.configuration = .ok c

theorem filled_ne_empty {text : Option String} {s : String} (h : filled text = some s) :
    s ≠ "" := by
  unfold filled Text.trimmed? at h
  obtain ⟨t, -, ht⟩ := Option.bind_eq_some_iff.1 h
  split at ht
  · cases ht
  · next hne =>
    injection ht with ht
    exact ht ▸ hne

theorem check_fieldPath {level : Nat} {hasInner : Bool} {collection : String}
    {sectionPath : List String} {d : DraftLevel} {l : Level}
    (h : d.check level hasInner collection sectionPath = .ok l) :
    l.fieldPath = filled d.fieldPath := by
  unfold DraftLevel.check at h
  obtain ⟨op, -, h⟩ := bind_eq_ok.1 h
  dsimp only at h
  split at h
  · cases h
  obtain ⟨_, -, h⟩ := bind_eq_ok.1 h
  obtain ⟨conditions, -, h⟩ := bind_eq_ok.1 h
  obtain ⟨shared, -, h⟩ := bind_eq_ok.1 h
  obtain ⟨range, -, h⟩ := bind_eq_ok.1 h
  injection h with h
  rw [← h]

theorem Validated.field_ne_empty {c : Configuration} (h : Validated c) {field : String}
    (hf : c.outer.fieldPath = some field) : field ≠ "" := by
  obtain ⟨d, hd⟩ := h
  unfold Draft.configuration Draft.check at hd
  split at hd
  · cases hd
  · obtain ⟨outer, ho, hd⟩ := bind_eq_ok.1 hd
    obtain ⟨inner, -, hd⟩ := bind_eq_ok.1 hd
    injection hd with hd
    subst hd
    exact filled_ne_empty ((check_fieldPath ho).symm.trans hf)

end Indicators.Metric
