import Indicators.Proofs.Traversal
import Indicators.Source.Decode

set_option autoImplicit false

/-! A reader restores a writer when it reads whatever the writer gives, wherever it may enter as
many lists and records as the value nests. -/

namespace Indicators.Json

open Indicators

theorem height_le_heightItems {items : List Json} {item : Json} (h : item ∈ items) :
    item.height ≤ heightItems items := by
  induction items with
  | nil => cases h
  | cons first rest ih =>
    rw [heightItems]
    rcases List.mem_cons.1 h with rfl | hr
    · exact Nat.le_max_left ..
    · exact Nat.le_trans (ih hr) (Nat.le_max_right ..)

theorem heightMembers_append (first second : List (String × Json)) :
    heightMembers (first ++ second) = max (heightMembers first) (heightMembers second) := by
  induction first with
  | nil => simp [heightMembers]
  | cons m rest ih => rw [List.cons_append, heightMembers, heightMembers, ih, Nat.max_assoc]

end Indicators.Json

namespace Indicators.Source

open Indicators

/-- What is written is read back where there are levels enough. -/
def Restores {α : Type} (read : Nat → Node → Decoded α) (write : α → Json) : Prop :=
  ∀ a levels, (write a).height < levels → read levels (.ofJson (write a)) = .ok a

namespace Node

theorem ofItems_eq (items : List Json) : ofItems items = items.map ofJson := by
  induction items with
  | nil => rfl
  | cons item rest ih => rw [ofItems, ih, List.map_cons]

theorem restores_text : Restores (fun _ => asText) Json.string := fun _ _ _ => rfl

theorem restores_list {α : Type} {read : Nat → Node → Decoded α} {write : α → Json}
    (h : Restores read write) :
    Restores (fun levels => asList levels read) fun items => .array (items.map write) := by
  intro items levels hl
  rw [Json.height] at hl
  obtain ⟨levels, rfl⟩ : ∃ n, levels = n + 1 := ⟨levels - 1, by omega⟩
  rw [ofJson, ofItems_eq, List.map_map]
  change (items.map _).mapM (read levels) = .ok items
  rw [mapM_eq_ok fun _ _ => Iff.rfl, List.forall₂_map_left_iff, List.forall₂_same]
  intro a ha
  have ha := Json.height_le_heightItems (List.mem_map_of_mem (f := write) ha)
  exact h a levels (by omega)

section

variable {σ : Type} {rules : List (FieldRule σ)}

/-- Members that the rules take under their own names, and what they make of a record. -/
inductive Builds (rules : List (FieldRule σ)) : List (String × Json) → σ → σ → Prop
  | nil {built : σ} : Builds rules [] built built
  | cons {rule : FieldRule σ} {name : String} {value : Json} {change : σ → σ}
    {rest : List (String × Json)} {built final : σ}
    (hrule : rules.find? (·.goesBy name) = some rule) (hname : rule.name = name)
    (hread : rule.read (.ofJson value) = .ok change)
    (hrest : Builds rules rest (change built) final) :
    Builds rules ((name, value) :: rest) built final

theorem Builds.append {first second : List (String × Json)} {start built final : σ}
    (h : Builds rules first start built) (h' : Builds rules second built final) :
    Builds rules (first ++ second) start final := by
  induction h with
  | nil => exact h'
  | cons hrule hname hread _ ih => exact .cons hrule hname hread (ih h')

theorem readEntries_of_builds {members : List (String × Json)} {built final : σ}
    (h : Builds rules members built final) (distinct : (members.map (·.1)).Nodup)
    {seen : List String} (hseen : ∀ m ∈ members, m.1 ∉ seen)
    (hrequired : ∀ rule ∈ rules, rule.required = true →
      rule.name ∈ seen ∨ rule.name ∈ members.map (·.1)) :
    readEntries rules (ofMembers members) seen built = .ok final := by
  induction h generalizing seen with
  | nil =>
    rw [ofMembers, readEntries, if_pos]
    rw [List.all_eq_true]
    intro rule hr
    cases hreq : rule.required with
    | false => rfl
    | true => simpa using hrequired rule hr hreq
  | @cons rule name value change rest built final hrule hname hread _ ih =>
    subst hname
    rw [List.map_cons, List.nodup_cons] at distinct
    obtain ⟨hnew, hlater⟩ := List.forall_mem_cons.1 hseen
    have hunseen : seen.contains rule.name = false := by simpa using hnew
    have hnext : readEntries rules (ofMembers rest) (rule.name :: seen) (change built) =
        .ok final := by
      refine ih distinct.2 (fun m hm hc => ?_) fun r hr hreq => ?_
      · rcases List.mem_cons.1 hc with he | hs
        · exact distinct.1 (List.mem_map.2 ⟨m, hm, he⟩)
        · exact hlater m hm hs
      · rcases hrequired r hr hreq with hs | hm
        · exact .inl (List.mem_cons_of_mem _ hs)
        · rcases List.mem_cons.1 hm with he | hm
          · exact .inl (he ▸ List.mem_cons_self)
          · exact .inr hm
    rw [ofMembers, readEntries]
    refine bind_eq_ok.2 ⟨rule.name, rfl, ?_⟩
    simp only [hrule, hunseen, Bool.false_eq_true, if_false]
    exact bind_eq_ok.2 ⟨change, hread, hnext⟩

/-- A record with members of different names, all required ones among them, is read as what its
members build. -/
theorem asRecord_of_builds {members : List (String × Json)} {start final : σ}
    (h : Builds rules members start final) (distinct : (members.map (·.1)).Nodup)
    (hrequired : ∀ rule ∈ rules, rule.required = true → rule.name ∈ members.map (·.1)) :
    asRecord rules start (.ofJson (.object members)) = .ok final :=
  readEntries_of_builds h distinct (fun _ _ => List.not_mem_nil)
    fun rule hr hreq => .inr (hrequired rule hr hreq)

end

end Node

end Indicators.Source
