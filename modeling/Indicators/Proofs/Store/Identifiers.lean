import Indicators.Proofs.Plan.Correctness
import Indicators.Proofs.Traversal
import Indicators.Store.Memory

set_option autoImplicit false

/-! Documents without an identifier are numbered across all collections. Nothing keeps the
identifiers made for them apart from those that documents bring along. -/

namespace Indicators.MemoryStore

open Indicators Indicators.Pipeline Indicators.Plan Indicators.Source

inductive Addition where
  | insert (collection : String) (doc : Json)
  | insertMany (collection : String) (docs : List Json)
  | load (collection text : String)

def Addition.apply (s : MemoryStore) : Addition → Decoded MemoryStore
  | .insert collection doc => .ok (s.insert collection doc)
  | .insertMany collection docs => .ok (s.insertMany collection docs)
  | .load collection text => (·.2) <$> s.load collection text

abbrev Entry := String × Json

def Addition.entries : Addition → List Entry
  | .insert collection doc => [(collection, doc)]
  | .insertMany collection docs => docs.map fun doc => (collection, doc)
  | .load collection text =>
    match Json.decodeText (Node.asList · Node.asJson) text with
    | .ok docs => docs.map fun doc => (collection, doc)
    | .error _ => []

def added (additions : List Addition) : List Entry := additions.flatMap Addition.entries

def insertAll (s : MemoryStore) (entries : List Entry) : MemoryStore :=
  entries.foldl (fun s e => s.insert e.1 e.2) s

theorem insertMany_eq (s : MemoryStore) (collection : String) (docs : List Json) :
    s.insertMany collection docs = s.insertAll (docs.map fun doc => (collection, doc)) := by
  unfold insertMany insertAll
  rw [List.foldl_map]

theorem Addition.apply_eq_ok {s next : MemoryStore} {a : Addition} (h : a.apply s = .ok next) :
    next = s.insertAll a.entries := by
  cases a with
  | insert collection doc =>
    cases h
    rfl
  | insertMany collection docs =>
    cases h
    exact insertMany_eq s collection docs
  | load collection text =>
    simp only [Addition.apply, MemoryStore.load] at h
    simp only [Addition.entries]
    cases hd : Json.decodeText (Node.asList · Node.asJson) text with
    | error e =>
      rw [hd] at h
      cases h
    | ok docs =>
      rw [hd] at h
      cases h
      exact insertMany_eq s collection docs

theorem foldlM_apply {s final : MemoryStore} {additions : List Addition}
    (h : additions.foldlM Addition.apply s = .ok final) :
    final = s.insertAll (added additions) := by
  unfold added
  induction additions generalizing s with
  | nil =>
    cases h
    rfl
  | cons a rest ih =>
    rw [List.foldlM_cons] at h
    obtain ⟨next, hnext, h⟩ := bind_eq_ok.1 h
    rw [ih h, Addition.apply_eq_ok hnext, List.flatMap_cons]
    unfold insertAll
    rw [List.foldl_append]

def givenId? (doc : Json) : Option Json := doc.member? "_id"

def givenIds (collection : String) (entries : List Entry) : List Json :=
  (entries.filter (·.1 = collection)).filterMap fun e => givenId? e.2

def madeId (collection : String) (number : Nat) : Json :=
  .string (collection ++ "-" ++ toString number)

/-- Documents without an identifier, numbered from the given number on. -/
def numbered (first : Nat) (entries : List Entry) : List (Entry × Nat) :=
  (entries.filter fun e => (givenId? e.2).isNone).zipIdx first

def madeIds (collection : String) (first : Nat) (entries : List Entry) : List Json :=
  ((numbered first entries).filter (·.1.1 = collection)).map fun n => madeId collection n.2

theorem madeId_injective {collection : String} {m n : Nat}
    (h : madeId collection m = madeId collection n) : m = n :=
  append_toString_injective (Json.string.inj h)

theorem madeIds_nodup (collection : String) (first : Nat) (entries : List Entry) :
    (madeIds collection first entries).Nodup := by
  have hnumbers : ((numbered first entries).map (·.2)).Nodup := by
    unfold numbered
    rw [List.zipIdx_map_snd]
    exact List.nodup_range'
  have hsome := hnumbers.sublist
    ((List.filter_sublist (p := fun n => n.1.1 = collection)).map Prod.snd)
  have hmade := hsome.map fun _ _ => @madeId_injective collection _ _
  rwa [List.map_map] at hmade

theorem identified_given {doc : Json} {id : Json} (h : givenId? doc = some id)
    (collection : String) (number : Nat) : identified collection number doc = (doc, false) := by
  cases doc with
  | object members =>
    have hfound : Directory.lookup "_id" members = some id := h
    simp only [identified, hfound]
  | _ => rfl

theorem identified_made {doc : Json} (hobject : doc.isObject = true) (h : givenId? doc = none)
    (collection : String) (number : Nat) :
    ∃ stored, identified collection number doc = (stored, true) ∧ stored.isObject = true ∧
      valueAt "_id" stored = madeId collection number := by
  cases doc with
  | object members =>
    have hmissing : Directory.lookup "_id" members = none := h
    simp only [identified, hmissing]
    refine ⟨_, rfl, rfl, ?_⟩
    rw [valueAt_name (by decide), Directory.lookup_put_self]
    rfl
  | _ => cases hobject

theorem documents_insert (s : MemoryStore) (collection other : String) (doc : Json) :
    (s.insert other doc).documents collection = s.documents collection ++
      if other = collection then [(identified other s.nextNumber doc).1] else [] := by
  unfold insert documents
  by_cases h : other = collection
  · subst h
    rw [if_pos rfl, Directory.lookup_put_self]
    rfl
  · rw [if_neg h, List.append_nil, Directory.lookup_put_of_ne (Ne.symm h)]

def storedIds (s : MemoryStore) (collection : String) : List Json :=
  (s.documents collection).map (valueAt "_id")

section

variable {s : MemoryStore} {doc : Json} (collection other : String)

theorem insert_given {id : Json} (h : givenId? doc = some id) :
    (s.insert other doc).nextNumber = s.nextNumber ∧
      (s.insert other doc).storedIds collection =
        s.storedIds collection ++ if other = collection then [id] else [] := by
  have hid : valueAt "_id" doc = id := by
    cases doc with
    | object members =>
      have hfound : Directory.lookup "_id" members = some id := h
      rw [valueAt_name (by decide), hfound]
      rfl
    | _ => cases h
  have hkept := identified_given h other s.nextNumber
  refine ⟨by simp [insert, hkept], ?_⟩
  unfold storedIds
  rw [documents_insert, hkept]
  split <;> simp [hid]

theorem insert_made (hobject : doc.isObject = true) (h : givenId? doc = none) :
    (s.insert other doc).nextNumber = s.nextNumber + 1 ∧
      (s.insert other doc).storedIds collection = s.storedIds collection ++
        if other = collection then [madeId collection s.nextNumber] else [] := by
  obtain ⟨stored, hmade, -, hid⟩ := identified_made hobject h other s.nextNumber
  refine ⟨by simp [insert, hmade], ?_⟩
  unfold storedIds
  rw [documents_insert, hmade]
  split
  · next hsame => simp [hid, hsame]
  · simp

theorem givenIds_cons (rest : List Entry) :
    givenIds collection ((other, doc) :: rest) =
      (if other = collection then (givenId? doc).toList else []) ++ givenIds collection rest := by
  unfold givenIds
  by_cases h : other = collection
  · cases hd : givenId? doc <;> simp [h, hd]
  · simp [h]

theorem madeIds_given {id : Json} (h : givenId? doc = some id) (first : Nat) (rest : List Entry) :
    madeIds collection first ((other, doc) :: rest) = madeIds collection first rest := by
  simp [madeIds, numbered, h]

theorem madeIds_made (h : givenId? doc = none) (first : Nat) (rest : List Entry) :
    madeIds collection first ((other, doc) :: rest) =
      (if other = collection then [madeId collection first] else []) ++
        madeIds collection (first + 1) rest := by
  by_cases ho : other = collection <;> simp [madeIds, numbered, h, ho]

end

/-- Up to their order the identifiers of a collection are those it had, those given and those
made. -/
theorem storedIds_insertAll (collection : String) {entries : List Entry}
    (hobjects : ∀ e ∈ entries, e.2.isObject = true) (s : MemoryStore) :
    ((s.insertAll entries).storedIds collection).Perm (s.storedIds collection ++
      (givenIds collection entries ++ madeIds collection s.nextNumber entries)) := by
  induction entries generalizing s with
  | nil => simp [insertAll, givenIds, madeIds, numbered]
  | cons e rest ih =>
    obtain ⟨other, doc⟩ := e
    obtain ⟨hobject, hrest⟩ := List.forall_mem_cons.1 hobjects
    have hnext := ih hrest (s.insert other doc)
    rw [givenIds_cons]
    cases h : givenId? doc with
    | some id =>
      obtain ⟨hnumber, hids⟩ := insert_given (s := s) collection other h
      rw [hnumber, hids, List.append_assoc] at hnext
      rw [madeIds_given collection other h, List.append_assoc]
      exact hnext
    | none =>
      obtain ⟨hnumber, hids⟩ := insert_made (s := s) collection other hobject h
      rw [hnumber, hids, List.append_assoc] at hnext
      rw [madeIds_made collection other h]
      refine hnext.trans (List.Perm.append_left _ ?_)
      have hnone : (if other = collection then (none : Option Json).toList else []) = [] :=
        ite_self _
      rw [hnone, List.nil_append]
      exact List.perm_append_comm_assoc _ _ _

theorem isObject_insertAll {collection : String} {entries : List Entry}
    (hobjects : ∀ e ∈ entries, e.2.isObject = true) {s : MemoryStore}
    (hs : ∀ doc ∈ s.documents collection, doc.isObject = true) :
    ∀ doc ∈ (s.insertAll entries).documents collection, doc.isObject = true := by
  induction entries generalizing s with
  | nil => exact hs
  | cons e rest ih =>
    obtain ⟨other, doc⟩ := e
    obtain ⟨hobject, hrest⟩ := List.forall_mem_cons.1 hobjects
    have hstored : (identified other s.nextNumber doc).1.isObject = true := by
      cases h : givenId? doc with
      | some id => rwa [identified_given h]
      | none =>
        obtain ⟨stored, hmade, hobject, -⟩ := identified_made hobject h other s.nextNumber
        rwa [hmade]
    refine ih hrest fun stored hm => ?_
    rw [documents_insert] at hm
    rcases List.mem_append.1 hm with hbefore | hlast
    · exact hs stored hbefore
    · split at hlast
      · rw [List.mem_singleton.1 hlast]
        exact hstored
      · cases hlast

/-- After calls that add objects to a store without documents, those of a collection being given
different identifiers, its documents differ in their identifiers exactly when no given one was made
for another document. -/
theorem identified_iff {start final : MemoryStore} {additions : List Addition}
    (hstart : start.collections = []) (hrun : additions.foldlM Addition.apply start = .ok final)
    (hobjects : ∀ e ∈ added additions, e.2.isObject = true) {collection : String}
    (hgiven : (givenIds collection (added additions)).Nodup) :
    Identified (final.documents collection) ↔
      ∀ id ∈ givenIds collection (added additions),
        id ∉ madeIds collection start.nextNumber (added additions) := by
  have hnone : start.documents collection = [] := by
    unfold documents
    rw [hstart]
    rfl
  have hids := storedIds_insertAll collection hobjects start
  have hkept : ∀ doc ∈ (start.insertAll (added additions)).documents collection,
      doc.isObject = true := isObject_insertAll hobjects (by simp [hnone])
  rw [← foldlM_apply hrun] at hids hkept
  have hfirst : start.storedIds collection = [] := by rw [storedIds, hnone, List.map_nil]
  rw [hfirst, List.nil_append] at hids
  have hdistinct : Identified (final.documents collection) ↔
      (final.storedIds collection).Nodup := ⟨fun h => h.distinct, fun h => ⟨hkept, h⟩⟩
  rw [hdistinct, hids.nodup_iff, List.nodup_append']
  exact ⟨fun h id hg hm => h.2.2 hg hm,
    fun h => ⟨hgiven, madeIds_nodup _ _ _, fun id hg hm => h id hg hm⟩⟩

def arrivals : List Addition :=
  [.insertMany "stays" [.ofMembers [("_id", .string "stays-1")], .ofMembers [("nights", .ofNat 2)]],
    .load "guests" "[{}]", .insert "stays" (.ofMembers [])]

theorem identified_iff_arrivals :
    ∃ final, arrivals.foldlM Addition.apply {} = .ok final ∧
      (∀ e ∈ added arrivals, e.2.isObject = true) ∧
      (givenIds "stays" (added arrivals)).Nodup ∧ Identified (final.documents "stays") := by
  have hobjects : ∀ e ∈ added arrivals, e.2.isObject = true := by decide +kernel
  have hgiven : (givenIds "stays" (added arrivals)).Nodup := by decide +kernel
  refine ⟨_, rfl, hobjects, hgiven, ?_⟩
  exact (identified_iff rfl rfl hobjects hgiven).2 (by decide +kernel)

def doubled : List Addition :=
  [.insert "stays" (.ofMembers [("_id", .string "stays-0")]), .insert "stays" (.ofMembers [])]

theorem given_identifier_made_again :
    (∀ e ∈ added doubled, e.2.isObject = true) ∧
      (∀ collection, (givenIds collection (added doubled)).Nodup) ∧
      ∃ final, doubled.foldlM Addition.apply {} = .ok final ∧
        ¬ Identified (final.documents "stays") := by
  refine ⟨by decide +kernel, fun collection => ?_, _, rfl, fun h => ?_⟩
  · by_cases h : "stays" = collection
    · subst h
      decide +kernel
    · have hother : (added doubled).filter (·.1 = collection) = [] := by
        simp [added, doubled, Addition.entries, h]
      rw [givenIds, hother]
      exact List.nodup_nil
  · exact absurd h.distinct (by decide +kernel)

end Indicators.MemoryStore
