import Indicators.Calendar.Reader

set_option autoImplicit false

namespace Indicators.Calendar

namespace Timestamp

theorem le_iff {a b : Timestamp} :
    a.le b = true ↔ a.seconds < b.seconds ∨ a.seconds = b.seconds ∧ a.nanos ≤ b.nanos := by
  unfold le compare
  rw [bne_iff_ne, Ne, Ordering.then_eq_gt, Int.compare_eq_gt, Int.compare_eq_eq,
    Nat.compare_eq_gt]
  omega

theorem le_refl (a : Timestamp) : a.le a = true := le_iff.2 (.inr ⟨rfl, Nat.le_refl _⟩)

theorem le_trans {a b c : Timestamp} (hab : a.le b = true) (hbc : b.le c = true) :
    a.le c = true := by
  rw [le_iff] at *
  omega

end Timestamp

def Timestamp.PastLastMilli (t : Timestamp) : Prop :=
  t.seconds % secondsPerDay = secondsPerDay - 1 ∧ 999000000 < t.nanos

instance (t : Timestamp) : Decidable t.PastLastMilli := inferInstanceAs (Decidable (_ ∧ _))

/-- The days from one to another, the last one up to its last whole millisecond. -/
def OnDays (d e : Date) (t : Timestamp) : Prop :=
  d.dayNumber ≤ t.dayNumber ∧ t.dayNumber ≤ e.dayNumber ∧
    (t.dayNumber = e.dayNumber → ¬ t.PastLastMilli)

instance (d e : Date) (t : Timestamp) : Decidable (OnDays d e t) :=
  inferInstanceAs (Decidable (_ ∧ _ ∧ _))

theorem between_iff {d e : Date} {t : Timestamp} :
    (d.dayStart.le t && t.le e.dayEnd) = true ↔ OnDays d e t := by
  rw [Bool.and_eq_true, Timestamp.le_iff, Timestamp.le_iff]
  unfold OnDays Timestamp.PastLastMilli Timestamp.dayNumber Date.dayStart Date.dayEnd
    Timestamp.onDay secondsPerDay
  dsimp only
  omega

theorem dayStart_le_dayEnd {d e : Date} (h : d.dayNumber ≤ e.dayNumber) :
    d.dayStart.le e.dayEnd = true := by
  rw [Timestamp.le_iff]
  unfold Date.dayStart Date.dayEnd Timestamp.onDay secondsPerDay
  dsimp only
  omega

end Indicators.Calendar
