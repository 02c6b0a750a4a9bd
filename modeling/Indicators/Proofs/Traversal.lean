import Mathlib.Data.List.Forall2

set_option autoImplicit false

namespace Indicators

theorem bind_eq_ok {ε α β : Type} {x : Except ε α} {f : α → Except ε β} {b : β} :
    x >>= f = .ok b ↔ ∃ a, x = .ok a ∧ f a = .ok b := by
  cases x <;> simp [bind, Except.bind]

theorem map_eq_ok {ε α β : Type} {f : α → β} {x : Except ε α} {b : β} (h : f <$> x = .ok b) :
    ∃ a, x = .ok a ∧ f a = b := by
  cases x with
  | error _ => cases h
  | ok a => exact ⟨a, rfl, Except.ok.inj h⟩

section

variable {ε α β : Type} {f : α → Except ε β} {R : α → β → Prop}

theorem mapM_eq_ok (h : ∀ a b, f a = .ok b ↔ R a b) {items : List α} {results : List β} :
    items.mapM f = .ok results ↔ List.Forall₂ R items results := by
  induction items generalizing results with
  | nil => cases results <;> simp [pure, Except.pure]
  | cons a rest ih =>
    rw [List.mapM_cons, bind_eq_ok]
    cases results with
    | nil =>
      refine ⟨fun ⟨b, _, h⟩ => ?_, nofun⟩
      obtain ⟨bs, -, hnil⟩ := bind_eq_ok.1 h
      cases hnil
    | cons b bs =>
      rw [List.forall₂_cons, ← h, ← ih]
      constructor
      · rintro ⟨b', hb, hrest⟩
        obtain ⟨bs', hbs, heq⟩ := bind_eq_ok.1 hrest
        cases heq
        exact ⟨hb, hbs⟩
      · rintro ⟨hb, hbs⟩
        exact ⟨b, hb, bind_eq_ok.2 ⟨bs, hbs, rfl⟩⟩

theorem getElem?_of_mapM {items : List α} {results : List β} (h : items.mapM f = .ok results)
    {i : Nat} {a : α} (ha : items[i]? = some a) : ∃ b, f a = .ok b ∧ results[i]? = some b := by
  induction items generalizing results i with
  | nil => cases ha
  | cons first rest ih =>
    rw [List.mapM_cons] at h
    obtain ⟨b, hb, h⟩ := bind_eq_ok.1 h
    obtain ⟨bs, hbs, h⟩ := bind_eq_ok.1 h
    cases h
    cases i with
    | zero =>
      cases ha
      exact ⟨b, hb, rfl⟩
    | succ i => exact ih hbs ha

theorem optionMapM_eq_ok (h : ∀ a b, f a = .ok b ↔ R a b) {item : Option α} {result : Option β} :
    item.mapM f = .ok result ↔ Option.Rel R item result := by
  cases item with
  | none =>
    cases result with
    | none => exact ⟨fun _ => .none, fun _ => rfl⟩
    | some b => exact ⟨nofun, nofun⟩
  | some a =>
    have hmap : (some a).mapM f = some <$> f a := rfl
    cases hf : f a with
    | error e =>
      rw [hmap, hf]
      refine ⟨nofun, ?_⟩
      rintro ⟨hr⟩
      cases hf.symm.trans ((h _ _).2 hr)
    | ok b =>
      rw [hmap, hf]
      constructor
      · rintro ⟨⟩
        exact .some ((h a b).1 hf)
      · rintro ⟨hr⟩
        cases hf.symm.trans ((h _ _).2 hr)
        rfl

theorem exists_forall₂ {P : α → Prop} (h : ∀ a, (∃ b, R a b) ↔ P a) {items : List α} :
    (∃ results, List.Forall₂ R items results) ↔ ∀ a ∈ items, P a := by
  induction items with
  | nil => exact ⟨fun _ _ hm => absurd hm List.not_mem_nil, fun _ => ⟨[], .nil⟩⟩
  | cons a rest ih =>
    rw [List.forall_mem_cons, ← ih, ← h]
    constructor
    · rintro ⟨_, hr⟩
      cases hr with
      | cons hb hbs => exact ⟨⟨_, hb⟩, _, hbs⟩
    · rintro ⟨⟨b, hb⟩, bs, hbs⟩
      exact ⟨b :: bs, .cons hb hbs⟩

theorem exists_optionRel {P : α → Prop} (h : ∀ a, (∃ b, R a b) ↔ P a) {item : Option α} :
    (∃ result, Option.Rel R item result) ↔ ∀ a ∈ item, P a := by
  cases item with
  | none => exact ⟨fun _ _ hm => absurd hm (Option.not_mem_none _), fun _ => ⟨none, .none⟩⟩
  | some a =>
    simp only [Option.mem_some_iff, forall_eq', ← h]
    constructor
    · rintro ⟨_, hr⟩
      cases hr with
      | some hb => exact ⟨_, hb⟩
    · rintro ⟨b, hb⟩
      exact ⟨some b, .some hb⟩

end

end Indicators
