import Indicators.Pipeline.Path
import Mathlib.Data.List.Basic

set_option autoImplicit false

/-! A path inside another path reads inside what the outer one reads, also where arrays fan out on
the way. -/

namespace Indicators.Pipeline

open Indicators

theorem reachItems_eq (name : String) (next : Json → Option Json) (items : List Json) :
    reachItems name next items = items.filterMap (reachMember name next) := by
  induction items with
  | nil => rfl
  | cons item rest ih =>
    rw [reachItems, List.filterMap_cons, ih]
    cases reachMember name next item <;> rfl

theorem listItems_eq (name : String) (next : Json → List Json) (items : List Json) :
    listItems name next items = items.flatMap (listMember name next) := by
  induction items with
  | nil => rfl
  | cons item rest ih => rw [listItems, List.flatMap_cons, ih]

theorem reach_array (names : List String) (items : List Json) :
    reach names (.array items) = some (.array (items.filterMap (reach names))) := by
  cases names with
  | nil =>
    have h : items.filterMap (reach []) = items := List.filterMap_some
    rw [h]
    rfl
  | cons name rest =>
    rw [reach, reachMember, reachItems_eq]

theorem listReached_array {names : List String} (h : names ≠ []) (items : List Json) :
    listReached names (.array items) = items.flatMap (listReached names) := by
  cases names with
  | nil => exact absurd rfl h
  | cons name rest => rw [listReached, listMember, listItems_eq]

mutual

theorem reachMember_bind (name : String) (next : Json → Option Json) (inner : List String) :
    (doc : Json) →
      reachMember name (fun v => (next v).bind (reach inner)) doc =
        (reachMember name next doc).bind (reach inner)
  | .object members => by
    rw [reachMember, reachMember]
    cases Directory.lookup name members <;> rfl
  | .array items => by
    rw [reachMember, reachMember, Option.bind_some, reach_array,
      reachItems_bind name next inner items]
  | .null => rfl
  | .bool _ => rfl
  | .number _ => rfl
  | .string _ => rfl

theorem reachItems_bind (name : String) (next : Json → Option Json) (inner : List String) :
    (items : List Json) →
      reachItems name (fun v => (next v).bind (reach inner)) items =
        (reachItems name next items).filterMap (reach inner)
  | [] => rfl
  | item :: rest => by
    rw [reachItems, reachItems, reachMember_bind name next inner item,
      reachItems_bind name next inner rest]
    cases h : reachMember name next item with
    | none => rfl
    | some found =>
      rw [Option.bind_some, List.filterMap_cons]
      cases reach inner found <;> rfl

end

theorem reach_append (outer inner : List String) (doc : Json) :
    reach (outer ++ inner) doc = (reach outer doc).bind (reach inner) := by
  induction outer generalizing doc with
  | nil => rfl
  | cons name rest ih =>
    have hnext : reach (rest ++ inner) = fun v => (reach rest v).bind (reach inner) := funext ih
    rw [List.cons_append, reach, reach, hnext, reachMember_bind]

mutual

theorem listMember_flatMap (name : String) (next : Json → Option Json) {inner : List String}
    (h : inner ≠ []) : (doc : Json) →
      listMember name (fun v => (next v).toList.flatMap (listReached inner)) doc =
        (reachMember name next doc).toList.flatMap (listReached inner)
  | .object members => by
    rw [listMember, reachMember]
    cases Directory.lookup name members <;> rfl
  | .array items => by
    rw [listMember, reachMember, Option.toList_some, List.flatMap_singleton,
      listReached_array h, listItems_flatMap name next h items]
  | .null => rfl
  | .bool _ => rfl
  | .number _ => rfl
  | .string _ => rfl

theorem listItems_flatMap (name : String) (next : Json → Option Json) {inner : List String}
    (h : inner ≠ []) : (items : List Json) →
      listItems name (fun v => (next v).toList.flatMap (listReached inner)) items =
        (reachItems name next items).flatMap (listReached inner)
  | [] => rfl
  | item :: rest => by
    rw [listItems, reachItems, listMember_flatMap name next h item,
      listItems_flatMap name next h rest]
    cases reachMember name next item with
    | none => rfl
    | some found => rw [Option.toList_some, List.flatMap_singleton, List.flatMap_cons]

end

theorem listReached_append (outer : List String) {inner : List String} (h : inner ≠ [])
    (doc : Json) :
    listReached (outer ++ inner) doc = (reach outer doc).toList.flatMap (listReached inner) := by
  induction outer generalizing doc with
  | nil =>
    rw [List.nil_append, reach, Option.toList_some, List.flatMap_singleton]
  | cons name rest ih =>
    have hnext : listReached (rest ++ inner) =
        fun v => (reach rest v).toList.flatMap (listReached inner) := funext ih
    rw [List.cons_append, listReached, reach, hnext, listMember_flatMap name _ h]

theorem listReached_of_reach_none {names : List String} {doc : Json} (h : reach names doc = none) :
    listReached names doc = [] := by
  induction names generalizing doc with
  | nil => cases h
  | cons name rest ih =>
    cases doc with
    | object members =>
      rw [reach, reachMember] at h
      rw [listReached, listMember]
      cases hl : Directory.lookup name members with
      | none => rfl
      | some member =>
        rw [hl, Option.bind_some] at h
        exact ih h
    | array items =>
      rw [reach_array] at h
      cases h
    | _ => rfl

/-- An array on the way leaves an array, so what is none has been reached through objects and is
all there is. -/
theorem listReached_of_reach {names : List String} {doc v : Json}
    (h : reach names doc = some v) (hv : ∀ items, v ≠ .array items) :
    listReached names doc = [v] := by
  induction names generalizing doc with
  | nil =>
    obtain rfl := Option.some.inj h
    cases doc with
    | array items => exact absurd rfl (hv items)
    | _ => rfl
  | cons name rest ih =>
    cases doc with
    | object members =>
      rw [reach, reachMember] at h
      rw [listReached, listMember]
      cases hl : Directory.lookup name members with
      | none =>
        rw [hl] at h
        cases h
      | some member =>
        rw [hl, Option.bind_some] at h
        exact ih h
    | array items =>
      rw [reach_array] at h
      exact absurd (Option.some.inj h).symm (hv _)
    | _ => cases h

theorem listReached_of_reach_object {names : List String} {doc v : Json}
    (h : reach names doc = some v) (ho : v.isObject = true) : listReached names doc = [v] := by
  refine listReached_of_reach h fun items e => ?_
  rw [e] at ho
  cases ho

theorem candidates_of_valueAt {path : String} {doc v : Json} (h : valueAt path doc = v)
    (hnull : v ≠ .null) (hv : ∀ items, v ≠ .array items) : candidates path doc = [v] := by
  unfold valueAt at h
  unfold candidates
  cases hr : reach (segments path) doc with
  | none =>
    rw [hr] at h
    exact absurd h.symm hnull
  | some found =>
    rw [hr, Option.getD_some] at h
    exact listReached_of_reach (h ▸ hr) hv

def namesOf (base : String) : List String := if base = "" then [] else segments base

def elementAt (base : String) (doc : Json) : Json := (reach (namesOf base) doc).getD .null

theorem elementAt_of_ne {base : String} (h : base ≠ "") (doc : Json) :
    elementAt base doc = valueAt base doc := by
  unfold elementAt namesOf valueAt
  rw [if_neg h]

theorem segments_within (base path : String) :
    segments (within base path) = namesOf base ++ segments path := by
  unfold within namesOf
  split
  · rfl
  · exact segments_append base path

theorem within_ne_empty {base : String} (h : base ≠ "") (path : String) :
    within base path ≠ "" := by
  unfold within
  rw [if_neg h]
  intro e
  have hl := congrArg String.toList e
  simp at hl

theorem valueAt_within (base path : String) (doc : Json) :
    valueAt (within base path) doc = valueAt path (elementAt base doc) := by
  unfold valueAt elementAt
  rw [segments_within, reach_append]
  cases reach (namesOf base) doc with
  | none => rfl
  | some element => rfl

theorem candidates_within (base path : String) (doc : Json) :
    candidates (within base path) doc = candidates path (elementAt base doc) := by
  unfold candidates elementAt
  rw [segments_within, listReached_append _ (segments_ne_nil path)]
  cases reach (namesOf base) doc with
  | none => rfl
  | some element => rw [Option.toList_some, List.flatMap_singleton, Option.getD_some]

def rootOf (path : String) : String := String.ofList (cutAtDots path.toList).1

theorem segments_eq (path : String) : ∃ rest, segments path = rootOf path :: rest := ⟨_, rfl⟩

theorem rootOf_within {base : String} (h : base ≠ "") (path : String) :
    rootOf (within base path) = rootOf base := by
  obtain ⟨rest, hb⟩ := segments_eq base
  have hs := segments_within base path
  unfold namesOf at hs
  rw [if_neg h, hb] at hs
  exact (List.cons.inj hs).1

theorem cutAtDots_of_not_mem {text : List Char} (h : '.' ∉ text) :
    cutAtDots text = (text, []) := by
  induction text with
  | nil => rfl
  | cons c rest ih =>
    have hc : c ≠ '.' := fun e => h (e ▸ List.mem_cons_self)
    rw [cutAtDots, ih (fun hm => h (List.mem_cons_of_mem _ hm))]
    simp [hc]

theorem segments_of_not_mem {name : String} (h : '.' ∉ name.toList) : segments name = [name] := by
  unfold segments
  rw [cutAtDots_of_not_mem h]
  simp

theorem rootOf_of_not_mem {name : String} (h : '.' ∉ name.toList) : rootOf name = name := by
  unfold rootOf
  rw [cutAtDots_of_not_mem h]
  simp

theorem lookup_writeMembers_of_ne {name root : String} (h : name ≠ root) (rest : List String)
    (new : Json) (members : List (String × Json)) :
    Directory.lookup name (writeMembers (root :: rest) new members) =
      Directory.lookup name members := by
  cases rest with
  | nil => exact Directory.lookup_put_of_ne h _ _
  | cons next rest => exact Directory.lookup_put_of_ne h _ _

theorem reach_writeMembers (root : String) (rest : List String) (new : Json)
    (members : List (String × Json)) :
    reach (root :: rest) (.object (writeMembers (root :: rest) new members)) = some new := by
  induction rest generalizing root members with
  | nil => rw [writeMembers, reach, reachMember, Directory.lookup_put_self]; rfl
  | cons next rest ih =>
    rw [writeMembers, reach, reachMember, Directory.lookup_put_self, Option.bind_some]
    · exact ih next _
    · exact fun e => nomatch e

theorem reach_setField_self (path : String) (new : Json) {doc : Json} (h : doc.isObject = true) :
    reach (segments path) (setField path new doc) = some new := by
  cases doc with
  | object members => exact reach_writeMembers _ _ new members
  | _ => cases h

theorem reach_setField_of_ne {name path : String} (h : name ≠ rootOf path) (rest : List String)
    (new doc : Json) :
    reach (name :: rest) (setField path new doc) = reach (name :: rest) doc := by
  cases doc with
  | object members =>
    obtain ⟨tail, hs⟩ := segments_eq path
    rw [setField, hs, reach, reachMember, reachMember, lookup_writeMembers_of_ne h]
  | _ => rfl

theorem isObject_setField (path : String) (new doc : Json) :
    (setField path new doc).isObject = doc.isObject := by
  cases doc <;> rfl

theorem valueAt_setField_of_ne {path other : String} (h : rootOf other ≠ rootOf path)
    (new doc : Json) : valueAt other (setField path new doc) = valueAt other doc := by
  obtain ⟨rest, hs⟩ := segments_eq other
  unfold valueAt
  rw [hs, reach_setField_of_ne h]

theorem valueAt_setField_self (path : String) (new : Json) {doc : Json}
    (h : doc.isObject = true) : valueAt path (setField path new doc) = new := by
  unfold valueAt
  rw [reach_setField_self path new h]
  rfl

end Indicators.Pipeline
