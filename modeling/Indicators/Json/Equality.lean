import Indicators.Json.Basic

set_option autoImplicit false

namespace Indicators.Json

mutual

def same : Json → Json → Bool
  | .null, .null => true
  | .bool a, .bool b => a == b
  | .number a, .number b => a == b
  | .string a, .string b => a == b
  | .array a, .array b => sameItems a b
  | .object a, .object b => sameMembers a b
  | _, _ => false

def sameItems : List Json → List Json → Bool
  | [], [] => true
  | a :: as, b :: bs => same a b && sameItems as bs
  | _, _ => false

def sameMembers : List (String × Json) → List (String × Json) → Bool
  | [], [] => true
  | (m, a) :: as, (n, b) :: bs => m == n && same a b && sameMembers as bs
  | _, _ => false

end

mutual

theorem same_refl : (a : Json) → same a a = true
  | .null => rfl
  | .bool _ => by simp [same]
  | .number _ => by simp [same]
  | .string _ => by simp [same]
  | .array items => by simp [same, sameItems_refl items]
  | .object members => by simp [same, sameMembers_refl members]

theorem sameItems_refl : (as : List Json) → sameItems as as = true
  | [] => rfl
  | a :: as => by simp [sameItems, same_refl a, sameItems_refl as]

theorem sameMembers_refl : (as : List (String × Json)) → sameMembers as as = true
  | [] => rfl
  | (_, a) :: as => by simp [sameMembers, same_refl a, sameMembers_refl as]

end

mutual

theorem eq_of_same : (a b : Json) → same a b = true → a = b
  | .null, b => by cases b <;> simp [same]
  | .bool _, b => by cases b <;> simp [same]
  | .number _, b => by cases b <;> simp [same]
  | .string _, b => by cases b <;> simp [same]
  | .array as, b => by
    cases b <;> simp [same]
    next bs => exact eq_of_sameItems as bs
  | .object as, b => by
    cases b <;> simp [same]
    next bs => exact eq_of_sameMembers as bs

theorem eq_of_sameItems : (as bs : List Json) → sameItems as bs = true → as = bs
  | [], bs => by cases bs <;> simp [sameItems]
  | a :: as, bs => by
    cases bs with
    | nil => simp [sameItems]
    | cons b bs =>
      simp only [sameItems, Bool.and_eq_true, List.cons.injEq]
      exact fun h => ⟨eq_of_same a b h.1, eq_of_sameItems as bs h.2⟩

theorem eq_of_sameMembers :
    (as bs : List (String × Json)) → sameMembers as bs = true → as = bs
  | [], bs => by cases bs <;> simp [sameMembers]
  | (m, a) :: as, bs => by
    cases bs with
    | nil => simp [sameMembers]
    | cons b bs =>
      obtain ⟨n, b⟩ := b
      simp only [sameMembers, Bool.and_eq_true, List.cons.injEq, Prod.mk.injEq, beq_iff_eq]
      exact fun h => ⟨⟨h.1.1, eq_of_same a b h.1.2⟩, eq_of_sameMembers as bs h.2⟩

end

instance : DecidableEq Json := fun a b =>
  if h : same a b = true then .isTrue (eq_of_same a b h)
  else .isFalse fun e => h (e ▸ same_refl a)

end Indicators.Json
