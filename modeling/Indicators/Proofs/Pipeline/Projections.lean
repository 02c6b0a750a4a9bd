import Indicators.Pipeline.Run
import Indicators.Proofs.Directory
import Indicators.Proofs.Pipeline.Paths

set_option autoImplicit false

/-! Writes at paths neither of which lies inside the other can be made in either order, so a
projection whose names do not lie inside each other is determined by the directory of its fields. -/

namespace Indicators.Pipeline

open Indicators

theorem cutAtDots_join (text : List Char) :
    (cutAtDots text).1 ++ (cutAtDots text).2.flatMap ('.' :: ·) = text := by
  induction text with
  | nil => rfl
  | cons c rest ih =>
    by_cases h : c = '.'
    · simp [cutAtDots, h, ih]
    · simp [cutAtDots, h, ih]

theorem dotted_toList (first : List Char) (rest : List (List Char)) :
    (dotted (String.ofList first :: rest.map String.ofList)).toList =
      first ++ rest.flatMap ('.' :: ·) := by
  induction rest generalizing first with
  | nil => simp [dotted]
  | cons second rest ih =>
    have hdot : ".".toList = ['.'] := rfl
    have hstep : dotted (String.ofList first :: (second :: rest).map String.ofList) =
        String.ofList first ++ "." ++ dotted (String.ofList second :: rest.map String.ofList) := rfl
    rw [hstep, String.toList_append, String.toList_append, ih, hdot]
    simp

theorem dotted_segments (path : String) : dotted (segments path) = path := by
  refine String.toList_inj.1 ?_
  unfold segments
  rw [dotted_toList, cutAtDots_join]

theorem dotted_append {outer inner : List String} (ho : outer ≠ []) (hi : inner ≠ []) :
    dotted (outer ++ inner) = dotted outer ++ "." ++ dotted inner := by
  induction outer with
  | nil => exact absurd rfl ho
  | cons first rest ih =>
    cases rest with
    | nil =>
      cases inner with
      | nil => exact absurd rfl hi
      | cons second inner => rfl
    | cons second rest =>
      have hrest := ih (by simp)
      simp only [List.cons_append, dotted] at hrest ⊢
      rw [hrest]
      simp only [String.append_assoc]

/-- A path is inside another when it goes on after it. -/
def Inside (outer path : String) : Prop := ∃ rest, path = outer ++ "." ++ rest

theorem inside_iff {outer path : String} :
    Inside outer path ↔ outer.toList ++ ['.'] <+: path.toList := by
  have hdot : ".".toList = ['.'] := rfl
  constructor
  · rintro ⟨rest, rfl⟩
    simp [hdot]
  · rintro ⟨rest, hrest⟩
    refine ⟨String.ofList rest, String.toList_inj.1 ?_⟩
    simpa [hdot] using hrest.symm

instance (outer path : String) : Decidable (Inside outer path) := decidable_of_iff _ inside_iff.symm

theorem inside_of_begins {outer path : String} (h : segments outer <+: segments path)
    (hne : outer ≠ path) : Inside outer path := by
  obtain ⟨rest, hrest⟩ := h
  have hpath := dotted_segments path
  cases rest with
  | nil =>
    rw [← hrest, List.append_nil, dotted_segments] at hpath
    exact absurd hpath hne
  | cons first rest =>
    refine ⟨dotted (first :: rest), ?_⟩
    rw [← hpath, ← hrest, dotted_append (segments_ne_nil outer) (List.cons_ne_nil _ _),
      dotted_segments]

def writtenUnder (rest : List String) (new : Json) (old : Option Json) : Json :=
  match rest with
  | [] => new
  | next :: rest => .object (writeMembers (next :: rest) new (membersOf old))

theorem writeMembers_cons (name : String) (rest : List String) (new : Json)
    (members : List (String × Json)) :
    writeMembers (name :: rest) new members =
      Directory.put name (writtenUnder rest new (Directory.lookup name members)) members := by
  cases rest <;> rfl

theorem writeMembers_self (names : List String) (v w : Json) (members : List (String × Json)) :
    writeMembers names w (writeMembers names v members) = writeMembers names w members := by
  induction names generalizing members with
  | nil => rfl
  | cons name rest ih =>
    simp only [writeMembers_cons, Directory.lookup_put_self, Directory.put_put]
    cases rest with
    | nil => rfl
    | cons next rest => simp only [writtenUnder, membersOf, ih]

theorem writeMembers_comm {names others : List String} (h : ¬ names <+: others)
    (h' : ¬ others <+: names) (v w : Json) (members : List (String × Json)) :
    writeMembers others w (writeMembers names v members) =
      writeMembers names v (writeMembers others w members) := by
  induction names generalizing others members with
  | nil => exact absurd List.nil_prefix h
  | cons name rest ih =>
    cases others with
    | nil => exact absurd List.nil_prefix h'
    | cons other rest' =>
      simp only [writeMembers_cons]
      by_cases hname : name = other
      · subst hname
        -- Both writes go into the member of one name, and there the paths still part.
        have hrest : ¬ rest <+: rest' := fun hp => h (List.cons_prefix_cons.2 ⟨rfl, hp⟩)
        have hrest' : ¬ rest' <+: rest := fun hp => h' (List.cons_prefix_cons.2 ⟨rfl, hp⟩)
        simp only [Directory.lookup_put_self, Directory.put_put]
        cases rest with
        | nil => exact absurd List.nil_prefix hrest
        | cons next rest =>
          cases rest' with
          | nil => exact absurd List.nil_prefix hrest'
          | cons next' rest' => simp only [writtenUnder, membersOf, ih hrest hrest']
      · rw [Directory.lookup_put_of_ne (Ne.symm hname), Directory.lookup_put_of_ne hname,
          Directory.put_comm hname]

theorem setField_self (path : String) (v w : Json) (doc : Json) :
    setField path w (setField path v doc) = setField path w doc := by
  cases doc with
  | object members => simp only [setField, writeMembers_self]
  | _ => rfl

theorem setField_comm {path other : String} (hne : path ≠ other) (h : ¬ Inside path other)
    (h' : ¬ Inside other path) (v w : Json) (doc : Json) :
    setField other w (setField path v doc) = setField path v (setField other w doc) := by
  cases doc with
  | object members =>
    have hp : ¬ segments path <+: segments other := fun hp => h (inside_of_begins hp hne)
    have hp' : ¬ segments other <+: segments path :=
      fun hp => h' (inside_of_begins hp (Ne.symm hne))
    simp only [setField, writeMembers_comm hp hp']
  | _ => rfl

def Separate {α : Type} (fields : List (String × α)) : Prop :=
  ∀ f ∈ fields, ∀ g ∈ fields, ¬ Inside f.1 g.1

instance {α : Type} (fields : List (String × α)) : Decidable (Separate fields) :=
  inferInstanceAs (Decidable (∀ f ∈ fields, ∀ g ∈ fields, ¬ Inside f.1 g.1))

theorem Separate.map {α β : Type} {fields : List (String × α)} (h : Separate fields)
    (g : α → β) : Separate (fields.map fun f => (f.1, g f.2)) := by
  intro f hf f' hf'
  obtain ⟨e, he, rfl⟩ := List.mem_map.1 hf
  obtain ⟨e', he', rfl⟩ := List.mem_map.1 hf'
  exact h e he e' he'

theorem setFields_ofList {values : List (String × Json)} (h : Separate values) (doc : Json) :
    (Directory.ofList values).foldl (fun built f => setField f.1 f.2 built) doc =
      values.foldl (fun built f => setField f.1 f.2 built) doc :=
  Directory.foldl_ofList (fun built name v w => setField_self name w v built)
    (fun built e he f hf hne => setField_comm hne (h e he f hf) (h f hf e he) e.2 f.2 built) doc

/-- A projection onto separate names is that onto their directory. -/
theorem projectDoc_ofList {fields : List (String × Expr)} (h : Separate fields) (keepInput : Bool)
    (doc : Json) :
    projectDoc (Directory.ofList fields) keepInput doc = projectDoc fields keepInput doc := by
  have hvalues := h.map fun e : Expr => e.eval doc
  unfold projectDoc
  rw [← Directory.ofList_map, setFields_ofList hvalues]

end Indicators.Pipeline
