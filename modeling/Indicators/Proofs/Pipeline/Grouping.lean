import Indicators.Pipeline.Run
import Indicators.Proofs.Directory
import Indicators.Proofs.Pipeline.Paths
import Mathlib.Data.List.Nodup
import Mathlib.Data.List.Perm.Subperm

set_option autoImplicit false

/-! Documents that stand in blocks of one key become one document for each block that is not empty.
The key of a group is the identifier of its document and can be read back part by part. -/

namespace Indicators.Pipeline

open Indicators

theorem buckets_eq (key : Json → Json) (docs : List Json) :
    buckets key docs =
      (docs.map key).eraseDups.map fun k => (k, docs.filter fun doc => key doc == k) := by
  unfold buckets
  simp only [List.map_map, List.filter_map]
  refine List.map_congr_left fun k _ => ?_
  simp [Function.comp_def]

theorem buckets_keys (key : Json → Json) (docs : List Json) :
    (buckets key docs).map (·.1) = (docs.map key).eraseDups := by
  rw [buckets_eq, List.map_map]
  exact List.map_id _

theorem mem_of_mem_bucket {key : Json → Json} {docs : List Json} {bucket : Json × List Json}
    (h : bucket ∈ buckets key docs) {doc : Json} (hd : doc ∈ bucket.2) : doc ∈ docs := by
  rw [buckets_eq] at h
  obtain ⟨k, -, rfl⟩ := List.mem_map.1 h
  exact List.mem_of_mem_filter hd

theorem eraseDups_map_const {α : Type} {f : α → Json} {k : Json} {xs : List α}
    (h : ∀ x ∈ xs, f x = k) : (xs.map f).eraseDups = if xs.isEmpty then [] else [k] := by
  induction xs with
  | nil => rfl
  | cons x rest ih =>
    have hx : f x = k := h x List.mem_cons_self
    rw [List.map_cons, List.eraseDups_cons, hx, List.filter_eq_nil_iff.2]
    · rfl
    · intro y hy
      obtain ⟨z, hz, rfl⟩ := List.mem_map.1 hy
      simp [h z (List.mem_cons_of_mem _ hz)]

/-- Induction where each element leaves some of those after it. -/
theorem filterInduction {P : List Json → Prop} (nil : P [])
    (cons : ∀ x rest, (∀ keep : Json → Bool, P (rest.filter keep)) → P (x :: rest))
    (xs : List Json) : P xs := by
  induction hn : xs.length using Nat.strongRecOn generalizing xs with
  | ind n ih =>
    cases xs with
    | nil => exact nil
    | cons x rest =>
      refine cons x rest fun keep => ih _ ?_ _ rfl
      have hle := List.length_filter_le keep rest
      rw [List.length_cons] at hn
      omega

theorem nodup_eraseDups (xs : List Json) : xs.eraseDups.Nodup := by
  induction xs using filterInduction with
  | nil => exact List.nodup_nil
  | cons x rest ih =>
    rw [List.eraseDups_cons, List.nodup_cons, List.mem_eraseDups, List.mem_filter]
    refine ⟨fun h => ?_, ih _⟩
    simp at h

theorem length_eraseDups (xs : List Json) : xs.eraseDups.length ≤ xs.length :=
  ((nodup_eraseDups xs).subperm fun _ hx => List.mem_eraseDups.1 hx).length_le

theorem length_eraseDups_le {xs ys : List Json} (h : ∀ x ∈ xs, x ∈ ys) :
    xs.eraseDups.length ≤ ys.eraseDups.length := by
  refine ((nodup_eraseDups xs).subperm fun x hx => ?_).length_le
  rw [List.mem_eraseDups] at hx ⊢
  exact h x hx

theorem buckets_append {key : Json → Json} {k : Json} {block later : List Json}
    (hblock : ∀ doc ∈ block, key doc = k) (hlater : ∀ doc ∈ later, key doc ≠ k) :
    buckets key (block ++ later) =
      (if block.isEmpty then [] else [(k, block)]) ++ buckets key later := by
  have hremove : (later.map key).removeAll (block.map key) = later.map key := by
    refine List.filter_eq_self.2 fun c hc => ?_
    obtain ⟨doc, hd, rfl⟩ := List.mem_map.1 hc
    rw [List.elem_eq_mem, Bool.not_eq_true', decide_eq_false_iff_not]
    intro hm
    obtain ⟨other, ho, he⟩ := List.mem_map.1 hm
    exact hlater doc hd (he ▸ hblock other ho)
  have hown : block.filter (fun doc => key doc == k) = block :=
    List.filter_eq_self.2 fun doc hd => beq_iff_eq.2 (hblock doc hd)
  have hnone : later.filter (fun doc => key doc == k) = [] :=
    List.filter_eq_nil_iff.2 fun doc hd => by simpa using hlater doc hd
  -- The key of the block comes first and once; no later key takes a document of the block.
  rw [buckets_eq, List.map_append, List.eraseDups_append, hremove, eraseDups_map_const hblock,
    List.map_append]
  congr 1
  · split
    · rfl
    · rw [List.map_cons, List.map_nil, List.filter_append, hown, hnone, List.append_nil]
  · rw [buckets_eq]
    refine List.map_congr_left fun c hc => ?_
    obtain ⟨doc, hd, rfl⟩ := List.mem_map.1 (List.mem_eraseDups.1 hc)
    have hskip : block.filter (fun other => key other == key doc) = [] :=
      List.filter_eq_nil_iff.2 fun other ho => by
        rw [hblock other ho]
        simpa using Ne.symm (hlater doc hd)
    rw [List.filter_append, hskip, List.nil_append]

/-- Documents that stand in blocks, each with a key of its own, are grouped block by block. -/
theorem buckets_flatMap {α : Type} {key : Json → Json} {keyOf : α → Json}
    {block : α → List Json} {parents : List α}
    (hkey : ∀ p ∈ parents, ∀ doc ∈ block p, key doc = keyOf p)
    (distinct : (parents.map keyOf).Nodup) :
    buckets key (parents.flatMap block) =
      (parents.filter fun p => !(block p).isEmpty).map fun p => (keyOf p, block p) := by
  induction parents with
  | nil => rfl
  | cons p rest ih =>
    rw [List.map_cons, List.nodup_cons] at distinct
    have hlater : ∀ doc ∈ rest.flatMap block, key doc ≠ keyOf p := by
      intro doc hd he
      obtain ⟨q, hq, hdq⟩ := List.mem_flatMap.1 hd
      have hk := hkey q (List.mem_cons_of_mem _ hq) doc hdq
      exact distinct.1 (List.mem_map.2 ⟨q, hq, hk.symm.trans he⟩)
    rw [List.flatMap_cons, buckets_append (hkey p List.mem_cons_self) hlater,
      ih (fun q hq => hkey q (List.mem_cons_of_mem _ hq)) distinct.2]
    by_cases he : (block p).isEmpty = true <;> simp [he]

theorem member?_ofMembers (name : String) (members : List (String × Json)) :
    (Json.ofMembers members).member? name = Directory.lookup name members.reverse :=
  Directory.lookup_ofList name members

theorem groupDoc_single (name : String) (func : Accumulator) (operand : Expr)
    (bucket : Json × List Json) :
    groupDoc [⟨func, operand, name⟩] bucket =
      .ofMembers [("_id", bucket.1), (name, func.reduce (bucket.2.map (operand.eval ·)))] := rfl

theorem valueAt_name {name : String} (h : '.' ∉ name.toList) (members : List (String × Json)) :
    valueAt name (.object members) = (Directory.lookup name members).getD .null := by
  unfold valueAt
  rw [segments_of_not_mem h, reach, reachMember]
  cases Directory.lookup name members <;> rfl

theorem segments_inside_id {name : String} (h : '.' ∉ name.toList) :
    segments ("_id." ++ name) = ["_id", name] := by
  have hid : segments "_id" = ["_id"] := segments_of_not_mem (by decide)
  have hsplit : "_id." ++ name = "_id" ++ "." ++ name := rfl
  rw [hsplit, segments_append, hid, segments_of_not_mem h]
  rfl

theorem valueAt_inside_id {name : String} (h : '.' ∉ name.toList) {doc : Json}
    {members : List (String × Json)} (hid : doc.member? "_id" = some (.object members)) :
    valueAt ("_id." ++ name) doc = (Directory.lookup name members).getD .null := by
  cases doc with
  | object outer =>
    unfold valueAt
    rw [segments_inside_id h, reach, reachMember]
    rw [show Directory.lookup "_id" outer = some (.object members) from hid, Option.bind_some,
      reach, reachMember]
    cases Directory.lookup name members <;> rfl
  | _ => cases hid

end Indicators.Pipeline
