set_option autoImplicit false

/-! A nested metric is a chain: every level but the innermost has exactly one level below it. -/

namespace Indicators.Metric

structure Levels (α : Type) where
  outer : α
  inner : List α
deriving DecidableEq, Repr

namespace Levels

variable {α β : Type}

def toList (c : Levels α) : List α := c.outer :: c.inner

def under (outer : α) (c : Option (Levels α)) : Levels α :=
  ⟨outer, match c with
    | some c => c.toList
    | none => []⟩

def depth (c : Levels α) : Nat := c.inner.length + 1

def map (f : α → β) (c : Levels α) : Levels β := ⟨f c.outer, c.inner.map f⟩

theorem toList_map (f : α → β) (c : Levels α) : (c.map f).toList = c.toList.map f := rfl

theorem length_toList (c : Levels α) : c.toList.length = c.depth := rfl

end Levels

end Indicators.Metric
