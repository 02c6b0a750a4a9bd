import Indicators.Proofs.Schema.Definitions

set_option autoImplicit false

/-! A mark of a reference in vain is never taken back: it is that of the last definition that refers
in vain, also where a later definition of the path has replaced its kind. -/

namespace Indicators.Schema

open Indicators

theorem lookupUnder_putUnder {α : Type} (outer inner outer' inner' : String) (value : α)
    (d : Directory (Directory α)) :
    FieldTypes.lookupUnder outer' inner' (FieldTypes.putUnder outer inner value d) =
      if outer = outer' ∧ inner = inner' then some value
      else FieldTypes.lookupUnder outer' inner' d := by
  split
  · next h =>
    obtain ⟨rfl, rfl⟩ := h
    exact FieldTypes.lookupUnder_putUnder_self outer inner value d
  · next h =>
    refine FieldTypes.lookupUnder_putUnder_of_ne (fun he => h ?_) value d
    cases he
    exact ⟨rfl, rfl⟩

/-- Where every step either answers or leaves what is read as it was, the last answer is read. -/
theorem read_foldl {σ δ β γ : Type} {step : σ → δ → σ} (read : σ → Option γ) {find : δ → Option β}
    {value : β → γ} (h : ∀ t d, read (step t d) = ((find d).map value).or (read t)) (ds : List δ)
    (t : σ) :
    read (ds.foldl step t) = ((ds.reverse.findSome? find).map value).or (read t) := by
  induction ds generalizing t with
  | nil => rfl
  | cons d rest ih =>
    rw [List.foldl_cons, ih, h, List.reverse_cons, List.findSome?_append, List.findSome?_singleton,
      Option.map_or, Option.or_assoc]

section

variable (targets : Directory JoinTarget)

inductive HasKind (f : Field) : FieldKind → Prop where
  | subform (type : f.type = .subform) : HasKind f .subform
  | date (type : f.type = .date) : HasKind f .date
  | table {id : String} {target : JoinTarget} (type : f.type = .table)
    (reference : f.reference = some id) (known : targets.lookup id = some target) :
    HasKind f (.table target)
  | scalar (other : f.type ≠ .subform ∧ f.type ≠ .date)
    (unknown : f.type = .table → ∀ id, f.reference = some id → targets.lookup id = none) :
    HasKind f .scalar

def InVain (f : Field) : Prop :=
  f.type = .table ∧ ∀ id, f.reference = some id → targets.lookup id = none

variable {targets} {f : Field}

theorem target?_eq_none : f.target? targets = none ↔
    ∀ id, f.reference = some id → targets.lookup id = none := by
  unfold Field.target?
  cases f.reference <;> simp

theorem isDangling_iff : f.isDangling targets = true ↔ InVain targets f := by
  unfold Field.isDangling InVain
  rw [Bool.and_eq_true, beq_iff_eq, Option.isNone_iff_eq_none, target?_eq_none]

theorem hasKind_kind (f : Field) : HasKind targets f (f.kind targets) := by
  unfold Field.kind
  split
  · next h => exact .subform h
  · next h => exact .date h
  · next h =>
    split
    · next target htarget =>
      obtain ⟨id, hid, hknown⟩ := Option.bind_eq_some_iff.1 htarget
      exact .table h hid hknown
    · next hnone => exact .scalar (by simp [h]) fun _ => target?_eq_none.1 hnone
  · next hs hd ht => exact .scalar ⟨hs, hd⟩ fun h => absurd h ht

theorem hasKind_iff {kind : FieldKind} : HasKind targets f kind ↔ f.kind targets = kind := by
  constructor
  · intro h
    unfold Field.kind
    cases h with
    | subform h => rw [h]
    | date h => rw [h]
    | table h hid hknown => simp [h, Field.target?, hid, hknown]
    | scalar hother hunknown =>
      split
      · next h => exact absurd h hother.1
      · next h => exact absurd h hother.2
      · next h => rw [target?_eq_none.2 (hunknown h)]
      · rfl
  · rintro rfl
    exact hasKind_kind f

end

section

variable (keep : Field → Bool) (targets : Directory JoinTarget) (sectionName path : String)

def definitionFor (d : String × String × Field) : Option Field :=
  if (d.1 = sectionName ∧ d.2.1 = path) ∧ keep d.2.2 = true then some d.2.2 else none

variable {keep sectionName path} {sections : List Section} {f : Field}

theorem findSome?_definitionFor :
    (sectionDefinitions sections).reverse.findSome? (definitionFor keep sectionName path) = some f ↔
      Last (fun address g => DefinedAt sections address sectionName path g ∧ keep g = true) f := by
  rw [findSome?_definitions]
  simp only [definitionFor, Option.ite_none_right_eq_some, Option.some.injEq, ite_eq_right_iff,
    reduceCtorEq, imp_false, Last]
  constructor
  · rintro ⟨address, _, _, _, hf, ⟨⟨⟨rfl, rfl⟩, hkeep⟩, rfl⟩, hlast⟩
    refine ⟨address, ⟨hf, hkeep⟩, fun later g hlt hg => ?_⟩
    exact hlast later _ _ g hlt hg.1 ⟨⟨rfl, rfl⟩, hg.2⟩
  · rintro ⟨address, ⟨hf, hkeep⟩, hlast⟩
    refine ⟨address, _, _, f, hf, ⟨⟨⟨rfl, rfl⟩, hkeep⟩, rfl⟩, fun later s p g hlt hg hsame => ?_⟩
    obtain ⟨⟨rfl, rfl⟩, hkeep⟩ := hsame
    exact hlast later g hlt ⟨hg, hkeep⟩

theorem last_definedAt :
    Last (DefinedAt sections · sectionName path ·) f ↔
      (sectionDefinitions sections).reverse.findSome?
        (definitionFor (fun _ => true) sectionName path) = some f := by
  rw [findSome?_definitionFor]
  simp only [and_true]

theorem exists_last {address : List Nat} (h : DefinedAt sections address sectionName path f) :
    ∃ g, Last (DefinedAt sections · sectionName path ·) g := by
  have hm := mem_sectionDefinitions.2 ⟨address, h⟩
  have hsome : ((sectionDefinitions sections).reverse.findSome?
      (definitionFor (fun _ => true) sectionName path)).isSome :=
    List.findSome?_isSome_iff.2 ⟨_, List.mem_reverse.2 hm, by simp [definitionFor]⟩
  obtain ⟨g, hg⟩ := Option.isSome_iff_exists.1 hsome
  exact ⟨g, last_definedAt.2 hg⟩

variable (sectionName path)

theorem get?_record (t : FieldTypes) (d : String × String × Field) :
    (t.record targets d).get? sectionName path =
      ((definitionFor (fun _ => true) sectionName path d).map (·.kind targets)).or
        (t.get? sectionName path) := by
  obtain ⟨s, p, f⟩ := d
  have hkinds : (t.record targets (s, p, f)).kinds =
      FieldTypes.putUnder s p (f.kind targets) t.kinds := by
    unfold FieldTypes.record FieldTypes.insert FieldTypes.markDangling
    dsimp only
    split <;> rfl
  unfold FieldTypes.get? definitionFor
  rw [hkinds, lookupUnder_putUnder]
  simp only [and_true]
  split <;> rfl

theorem dangling?_record (t : FieldTypes) (d : String × String × Field) :
    (t.record targets d).dangling? sectionName path =
      ((definitionFor (Field.isDangling targets) sectionName path d).map (·.reference.getD "")).or
        (t.dangling? sectionName path) := by
  obtain ⟨s, p, f⟩ := d
  unfold FieldTypes.dangling? FieldTypes.record FieldTypes.insert definitionFor
  dsimp only
  cases f.isDangling targets with
  | false => simp
  | true =>
    simp only [if_true, and_true, FieldTypes.markDangling, lookupUnder_putUnder]
    split <;> rfl

variable {targets sectionName path}

theorem get?_resolve {kind : FieldKind} :
    (resolve sections targets).get? sectionName path = some kind ↔
      ∃ f, Last (DefinedAt sections · sectionName path ·) f ∧ HasKind targets f kind := by
  have hread := read_foldl (FieldTypes.get? · sectionName path)
    (get?_record targets sectionName path) (sectionDefinitions sections) {}
  unfold resolve
  rw [hread.trans Option.or_none, Option.map_eq_some_iff]
  simp only [last_definedAt, hasKind_iff]

theorem get?_resolve_isSome :
    (∃ kind, (resolve sections targets).get? sectionName path = some kind) ↔
      ∃ address f, DefinedAt sections address sectionName path f := by
  constructor
  · rintro ⟨kind, hkind⟩
    obtain ⟨f, ⟨address, hf, -⟩, -⟩ := get?_resolve.1 hkind
    exact ⟨address, f, hf⟩
  · rintro ⟨address, f, hf⟩
    obtain ⟨g, hg⟩ := exists_last hf
    exact ⟨g.kind targets, get?_resolve.2 ⟨g, hg, hasKind_kind g⟩⟩

end

/-- The mark of a path is the reference of the last of those of its definitions that refer in
vain. -/
theorem resolve_marks (sections : List Section) (targets : Directory JoinTarget)
    (sectionName path id : String) :
    (resolve sections targets).dangling? sectionName path = some id ↔
      ∃ f, Last (fun address f =>
        DefinedAt sections address sectionName path f ∧ InVain targets f) f ∧
          f.reference.getD "" = id := by
  have hread := read_foldl (FieldTypes.dangling? · sectionName path)
    (dangling?_record targets sectionName path) (sectionDefinitions sections) {}
  unfold resolve
  rw [hread.trans Option.or_none, Option.map_eq_some_iff]
  simp only [findSome?_definitionFor, isDangling_iff]

def vainHost : Field := ⟨"Host", .table, [], some "tpl-gone"⟩

def dateHost : Field := ⟨"Host", .date, [], none⟩

def twoHosts : List Section := [⟨"Stays", [vainHost, dateHost]⟩]

theorem mark_of_replaced :
    Last (DefinedAt twoHosts · "Stays" "Host" ·) dateHost ∧ ¬ InVain [] dateHost ∧
      (resolve twoHosts []).get? "Stays" "Host" = some .date ∧
      (resolve twoHosts []).dangling? "Stays" "Host" = some "tpl-gone" := by
  refine ⟨last_definedAt.2 rfl, ?_, rfl, rfl⟩
  rintro ⟨htable, -⟩
  cases htable

end Indicators.Schema
