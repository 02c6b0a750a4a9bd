import Indicators.Proofs.Pipeline.Projections

set_option autoImplicit false

/-! Paths of which neither begins with the other go the same way through objects until their names
differ, and there the write is in another member. Only an array on the way would be lost, since a
write replaces it by an object where reading fans out over its items. -/

namespace Indicators.Pipeline

open Indicators

/-- No array stands on the way to the last of the names: there is an object, nothing at all, or what
gives way to an object. -/
def Passable (names : List String) (doc : Json) : Prop :=
  ∀ before, before <+: names → before ≠ names → ∀ items, reach before doc ≠ some (.array items)

theorem passable_of_objects {names : List String} {doc : Json}
    (h : ∀ before, before <+: names → before ≠ names →
      reach before doc = none ∨ ∃ members, reach before doc = some (.object members)) :
    Passable names doc := by
  intro before hbefore hne items
  rcases h before hbefore hne with hnone | ⟨members, hobject⟩
  · rw [hnone]
    exact nofun
  · rw [hobject]
    exact nofun

theorem reach_membersOf {old : Option Json} (h : ∀ items, old ≠ some (.array items))
    {names : List String} (hne : names ≠ []) :
    reach names (.object (membersOf old)) = old.bind (reach names) := by
  cases names with
  | nil => exact absurd rfl hne
  | cons name rest =>
    cases old with
    | none => rfl
    | some v =>
      cases v with
      | array items => exact absurd rfl (h items)
      | _ => rfl

section

variable {name : String} {rest : List String} {members : List (String × Json)}

theorem Passable.first (h : Passable (name :: rest) (.object members)) (hrest : rest ≠ [])
    (items : List Json) : Directory.lookup name members ≠ some (.array items) := by
  have hname : [name] <+: name :: rest := ⟨rest, rfl⟩
  have hne : [name] ≠ name :: rest := fun e => hrest (List.cons.inj e).2.symm
  have hreach : reach [name] (.object members) = Directory.lookup name members :=
    Option.bind_fun_some _
  exact hreach ▸ h [name] hname hne items

theorem Passable.below (h : Passable (name :: rest) (.object members)) (hrest : rest ≠ []) :
    Passable rest (.object (membersOf (Directory.lookup name members))) := by
  intro before hbefore hne items
  by_cases hnil : before = []
  · rw [hnil]
    exact nofun
  · rw [reach_membersOf (h.first hrest) hnil]
    have hlonger : name :: before <+: name :: rest := List.cons_prefix_cons.2 ⟨rfl, hbefore⟩
    exact h (name :: before) hlonger (fun e => hne (List.cons.inj e).2) items

end

theorem reach_writeMembers_apart {names others : List String} (h : ¬ names <+: others)
    (h' : ¬ others <+: names) (new : Json) {members : List (String × Json)}
    (hway : Passable names (.object members)) :
    reach others (.object (writeMembers names new members)) = reach others (.object members) := by
  induction names generalizing others members with
  | nil => exact absurd List.nil_prefix h
  | cons name rest ih =>
    cases others with
    | nil => exact absurd List.nil_prefix h'
    | cons other rest' =>
      rw [reach, reachMember, reachMember]
      by_cases hname : other = name
      · subst hname
        -- Both paths go into one member, and there they still part.
        have hrest : ¬ rest <+: rest' := fun hp => h (List.cons_prefix_cons.2 ⟨rfl, hp⟩)
        have hrest' : ¬ rest' <+: rest := fun hp => h' (List.cons_prefix_cons.2 ⟨rfl, hp⟩)
        have hne : rest ≠ [] := by
          rintro rfl
          exact hrest List.nil_prefix
        have hne' : rest' ≠ [] := by
          rintro rfl
          exact hrest' List.nil_prefix
        rw [writeMembers_cons, Directory.lookup_put_self, Option.bind_some,
          ← reach_membersOf (hway.first hne) hne']
        cases rest with
        | nil => exact absurd rfl hne
        | cons next rest => exact ih hrest hrest' (hway.below hne)
      · rw [lookup_writeMembers_of_ne hname]

theorem reach_setField_apart {path other : String} (h : ¬ segments path <+: segments other)
    (h' : ¬ segments other <+: segments path) (new : Json) {doc : Json}
    (hway : Passable (segments path) doc) :
    reach (segments other) (setField path new doc) = reach (segments other) doc := by
  cases doc with
  | object members => exact reach_writeMembers_apart h h' new hway
  | _ => rfl

/-- What is written at a path of an object is read there, a second write replaces it, and a path of
which neither begins with the other reads as before, where no array stands on the way. -/
theorem setField_reads {doc : Json} (hdoc : doc.isObject = true) (path other : String)
    (v w : Json) :
    valueAt path (setField path v doc) = v ∧
    setField path w (setField path v doc) = setField path w doc ∧
    (¬ segments path <+: segments other → ¬ segments other <+: segments path →
      Passable (segments path) doc → valueAt other (setField path v doc) = valueAt other doc) := by
  refine ⟨valueAt_setField_self path v hdoc, setField_self path v w doc, fun h h' hway => ?_⟩
  unfold valueAt
  rw [reach_setField_apart h h' v hway]

def booking : Json :=
  .object [("Stay", .object [("Nights", .string "three")]),
    ("Tags", .array [.object [("Color", .string "red")]])]

theorem passable_booking : Passable (segments "Stay.Room.Floor") booking := by
  have hnames : segments "Stay.Room.Floor" = ["Stay", "Room", "Floor"] := by decide
  rw [hnames]
  refine passable_of_objects fun before hbefore hne => ?_
  simp only [List.prefix_cons_iff, List.prefix_nil] at hbefore
  obtain rfl | ⟨_, rfl, rfl | ⟨_, rfl, rfl | ⟨_, rfl, rfl⟩⟩⟩ := hbefore
  · exact .inr ⟨_, rfl⟩
  · exact .inr ⟨_, rfl⟩
  · exact .inl rfl
  · exact absurd rfl hne

theorem setField_reads_booking :
    booking.isObject = true ∧ Passable (segments "Stay.Room.Floor") booking ∧
      valueAt "Stay.Room.Floor" (setField "Stay.Room.Floor" (.string "first") booking) =
        .string "first" ∧
      setField "Stay.Room.Floor" .null (setField "Stay.Room.Floor" (.string "first") booking) =
        setField "Stay.Room.Floor" .null booking ∧
      valueAt "Stay.Nights" (setField "Stay.Room.Floor" (.string "first") booking) =
        .string "three" := by
  obtain ⟨hread, hagain, hbeside⟩ :=
    @setField_reads booking rfl "Stay.Room.Floor" "Stay.Nights" (.string "first") .null
  have hnights : valueAt "Stay.Nights" booking = .string "three" := by
    have hnames : segments "Stay.Nights" = ["Stay", "Nights"] := by decide
    rw [valueAt, hnames]
    rfl
  have hkept := hbeside (by decide) (by decide) passable_booking
  exact ⟨rfl, passable_booking, hread, hagain, hkept.trans hnights⟩

/-- An array on the way is replaced, with all that was read in its items. -/
example : valueAt "Tags.Color" booking = .array [.string "red"] ∧
    valueAt "Tags.Color" (setField "Tags.Size" (.string "small") booking) = .null := by
  have hcolor : segments "Tags.Color" = ["Tags", "Color"] := by decide
  have hsize : segments "Tags.Size" = ["Tags", "Size"] := by decide
  simp only [valueAt, booking, setField, hcolor, hsize]
  exact ⟨rfl, rfl⟩

end Indicators.Pipeline
