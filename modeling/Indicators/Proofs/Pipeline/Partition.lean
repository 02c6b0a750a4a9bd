import Indicators.Proofs.Json.Text
import Indicators.Proofs.Pipeline.Reductions

set_option autoImplicit false

/-! Documents can be filed one after another, by a table from the texts of keys to the positions of
their buckets, and that gives the groups of a stage. -/

namespace Indicators.Pipeline

open Indicators Indicators.Number

/-- Buckets, and the position of each by the text of its key. -/
structure Files where
  buckets : List (Json × List Json)
  positions : Directory Nat

def Files.add (key : Json → Json) (files : Files) (doc : Json) : Files :=
  match Directory.lookup (key doc).text files.positions with
  | some i =>
    { files with buckets := files.buckets.modify i fun bucket => (bucket.1, bucket.2 ++ [doc]) }
  | none =>
    { buckets := files.buckets ++ [(key doc, [doc])]
      positions := Directory.put (key doc).text files.buckets.length files.positions }

def filed (key : Json → Json) (docs : List Json) : Files := docs.foldl (Files.add key) ⟨[], []⟩

section

variable {key : Json → Json} {docs : List Json} {doc : Json}

theorem keys_of_mem (h : key doc ∈ docs.map key) :
    ((docs ++ [doc]).map key).eraseDups = (docs.map key).eraseDups := by
  have hold : [key doc].removeAll (docs.map key) = [] :=
    List.filter_eq_nil_iff.2 fun k hk => by simpa [List.mem_singleton.1 hk] using h
  rw [List.map_append, List.map_singleton, List.eraseDups_append, hold]
  exact List.append_nil _

theorem keys_of_not_mem (h : key doc ∉ docs.map key) :
    ((docs ++ [doc]).map key).eraseDups = (docs.map key).eraseDups ++ [key doc] := by
  have hnew : [key doc].removeAll (docs.map key) = [key doc] :=
    List.filter_eq_self.2 fun k hk => by simpa [List.mem_singleton.1 hk] using h
  rw [List.map_append, List.map_singleton, List.eraseDups_append, hnew]
  rfl

theorem filter_concat (k : Json) :
    (docs ++ [doc]).filter (fun d => key d == k) =
      docs.filter (fun d => key d == k) ++ if key doc == k then [doc] else [] := by
  rw [List.filter_append, List.filter_singleton, Bool.cond_eq_ite]

theorem buckets_of_mem {i : Nat} (h : (docs.map key).eraseDups[i]? = some (key doc)) :
    buckets key (docs ++ [doc]) =
      (buckets key docs).modify i fun bucket => (bucket.1, bucket.2 ++ [doc]) := by
  have hmem : key doc ∈ docs.map key := List.mem_eraseDups.1 (List.mem_of_getElem? h)
  refine List.ext_getElem? fun j => ?_
  rw [buckets_eq, buckets_eq, keys_of_mem hmem, List.getElem?_modify, List.getElem?_map,
    List.getElem?_map]
  cases hj : (docs.map key).eraseDups[j]? with
  | none => rfl
  | some k =>
    -- The keys differ from each other, so the position tells whether the bucket is that of `doc`.
    have hsame : i = j ↔ key doc = k := by
      constructor
      · rintro rfl
        exact Option.some.inj (h.symm.trans hj)
      · rintro rfl
        obtain ⟨hi, -⟩ := List.getElem?_eq_some_iff.1 h
        exact (List.getElem?_inj hi (nodup_eraseDups _)).1 (h.trans hj.symm)
    simp only [Option.map_some, filter_concat]
    by_cases hk : key doc = k
    · simp [hsame.2 hk, hk]
    · simp [mt hsame.1 hk, hk]

theorem buckets_of_not_mem (h : key doc ∉ docs.map key) :
    buckets key (docs ++ [doc]) = buckets key docs ++ [(key doc, [doc])] := by
  rw [buckets_eq, buckets_eq, keys_of_not_mem h, List.map_append, List.map_singleton]
  congr 1
  · refine List.map_congr_left fun k hk => ?_
    have hne : key doc ≠ k := fun e => h (e ▸ List.mem_eraseDups.1 hk)
    rw [filter_concat, if_neg (by simpa using hne), List.append_nil]
  · have hnone : docs.filter (fun d => key d == key doc) = [] := by
      refine List.filter_eq_nil_iff.2 fun d hd he => h ?_
      rw [← beq_iff_eq.1 he]
      exact List.mem_map_of_mem hd
    rw [filter_concat, hnone, if_pos (by simp), List.nil_append]

end

theorem getElem?_concat_eq_some {xs : List String} {x y : String} {i : Nat} :
    (xs ++ [y])[i]? = some x ↔ xs[i]? = some x ∨ (i = xs.length ∧ y = x) := by
  rcases Nat.lt_trichotomy i xs.length with hlt | rfl | hgt
  · simp [List.getElem?_append_left hlt, Nat.ne_of_lt hlt]
  · simp
  · have hlong : (xs ++ [y]).length ≤ i := List.length_append.trans_le hgt
    simp [List.getElem?_eq_none hlong, List.getElem?_eq_none hgt.le, Nat.ne_of_gt hgt]

/-- After some documents: the buckets are theirs, and the positions lead from the text of a key to
where the key stands. -/
structure Filed (key : Json → Json) (docs : List Json) (files : Files) : Prop where
  buckets : files.buckets = buckets key docs
  positions : ∀ text i, Directory.lookup text files.positions = some i ↔
    ((docs.map key).eraseDups.map Json.text)[i]? = some text

theorem filed_nil (key : Json → Json) : Filed key [] ⟨[], []⟩ :=
  ⟨rfl, fun _ _ => ⟨nofun, nofun⟩⟩

theorem Filed.length {key : Json → Json} {docs : List Json} {files : Files}
    (h : Filed key docs files) : files.buckets.length = (docs.map key).eraseDups.length := by
  rw [h.buckets, ← buckets_keys, List.length_map]

theorem Filed.add {key : Json → Json} {docs : List Json} {files : Files}
    (h : Filed key docs files) (doc : Json) : Filed key (docs ++ [doc]) (files.add key doc) := by
  unfold Files.add
  cases hl : Directory.lookup (key doc).text files.positions with
  | some i =>
    have hat := (h.positions _ _).1 hl
    rw [List.getElem?_map, Option.map_eq_some_iff] at hat
    obtain ⟨k, hk, htext⟩ := hat
    obtain rfl := Json.text_injective htext
    have hmem : key doc ∈ docs.map key := List.mem_eraseDups.1 (List.mem_of_getElem? hk)
    constructor
    · rw [buckets_of_mem hk, h.buckets]
    · rw [keys_of_mem hmem]
      exact h.positions
  | none =>
    have hnot : key doc ∉ docs.map key := by
      intro hmem
      obtain ⟨i, hi⟩ := List.mem_iff_getElem?.1 (List.mem_eraseDups.2 hmem)
      have hfound := (h.positions (key doc).text i).2 (by rw [List.getElem?_map, hi]; rfl)
      rw [hl] at hfound
      cases hfound
    constructor
    · rw [buckets_of_not_mem hnot, h.buckets]
    · intro text i
      rw [keys_of_not_mem hnot, List.map_append, List.map_singleton, h.length,
        getElem?_concat_eq_some, ← h.positions, List.length_map]
      by_cases htext : text = (key doc).text
      · subst htext
        rw [Directory.lookup_put_self, hl]
        simp [eq_comm]
      · rw [Directory.lookup_put_of_ne htext]
        simp [Ne.symm htext]

theorem Filed.foldl {key : Json → Json} {done : List Json} {files : Files}
    (h : Filed key done files) (rest : List Json) :
    Filed key (done ++ rest) (rest.foldl (Files.add key) files) := by
  induction rest generalizing done files with
  | nil => rwa [List.append_nil]
  | cons doc rest ih =>
    have hnext := ih (h.add doc)
    rwa [List.append_assoc] at hnext

theorem filed_docs (key : Json → Json) (docs : List Json) : Filed key docs (filed key docs) :=
  (filed_nil key).foldl docs

def groups (key : Option (List (String × Expr))) (docs : List Json) : List (Json × List Json) :=
  (filed (groupKey key) docs).buckets

theorem groups_eq_buckets (key : Option (List (String × Expr))) (docs : List Json) :
    groups key docs = buckets (groupKey key) docs := (filed_docs (groupKey key) docs).buckets

structure Partition (key : Json → Json) (docs : List Json) (groups : List (Json × List Json)) :
    Prop where
  keys : groups.map (·.1) = (docs.map key).eraseDups
  distinct : (groups.map (·.1)).Nodup
  members : ∀ g ∈ groups, g.2 = docs.filter fun doc => key doc == g.1
  together : ∀ g ∈ groups, ∀ first ∈ g.2, ∀ second ∈ docs,
    (second ∈ g.2 ↔ key second = key first)
  once : ∀ doc ∈ docs, ∃! g, g ∈ groups ∧ doc ∈ g.2
  all : (groups.flatMap (·.2)).Perm docs

theorem flatMap_filter_perm {key : Json → Json} {ks : List Json} (distinct : ks.Nodup)
    {docs : List Json} (hall : ∀ doc ∈ docs, key doc ∈ ks) :
    (ks.flatMap fun k => docs.filter fun doc => key doc == k).Perm docs := by
  induction ks generalizing docs with
  | nil =>
    have hnone : docs = [] :=
      List.eq_nil_iff_forall_not_mem.2 fun doc hd => List.not_mem_nil (hall doc hd)
    rw [hnone]
    exact .nil
  | cons k rest ih =>
    obtain ⟨hk, hrest⟩ := List.nodup_cons.1 distinct
    -- The other keys share out what the first one leaves.
    have hothers : (rest.flatMap fun k' => docs.filter fun doc => key doc == k') =
        rest.flatMap fun k' =>
          (docs.filter fun doc => !(key doc == k)).filter fun doc => key doc == k' := by
      refine List.flatMap_congr fun k' hk' => ?_
      rw [List.filter_filter]
      refine List.filter_congr fun doc _ => ?_
      have hne : k' ≠ k := fun e => hk (e ▸ hk')
      by_cases he : key doc = k' <;> simp [he, hne]
    have hleft : ∀ doc ∈ docs.filter (fun doc => !(key doc == k)), key doc ∈ rest := by
      intro doc hd
      obtain ⟨hdoc, hne⟩ := List.mem_filter.1 hd
      exact (List.mem_cons.1 (hall doc hdoc)).resolve_left (by simpa using hne)
    rw [List.flatMap_cons, hothers]
    exact ((ih hrest hleft).append_left _).trans (List.filter_append_perm _ docs)

theorem partition_buckets (key : Json → Json) (docs : List Json) :
    Partition key docs (buckets key docs) := by
  have hmembers : ∀ g ∈ buckets key docs, g.2 = docs.filter fun doc => key doc == g.1 := by
    intro g hg
    rw [buckets_eq] at hg
    obtain ⟨k, -, rfl⟩ := List.mem_map.1 hg
    rfl
  have hkey {g : Json × List Json} (hg : g ∈ buckets key docs) {doc : Json} :
      doc ∈ g.2 ↔ doc ∈ docs ∧ key doc = g.1 := by
    rw [hmembers g hg, List.mem_filter, beq_iff_eq]
  constructor
  case keys => exact buckets_keys key docs
  case distinct =>
    rw [buckets_keys]
    exact nodup_eraseDups _
  case members => exact hmembers
  case together =>
    intro g hg first hfirst second hsecond
    rw [((hkey hg).1 hfirst).2, hkey hg]
    exact and_iff_right hsecond
  case once =>
    intro doc hd
    have hmem : key doc ∈ (buckets key docs).map (·.1) := by
      rw [buckets_keys]
      exact List.mem_eraseDups.2 (List.mem_map_of_mem hd)
    obtain ⟨g, hg, hkg⟩ := List.mem_map.1 hmem
    refine ⟨g, ⟨hg, (hkey hg).2 ⟨hd, hkg.symm⟩⟩, ?_⟩
    rintro other ⟨hother, hdo⟩
    have hko := ((hkey hother).1 hdo).2
    refine Prod.ext (hko.symm.trans hkg.symm) ?_
    rw [hmembers g hg, hmembers other hother, ← hko, hkg]
  case all =>
    have hflat : (buckets key docs).flatMap (·.2) =
        (docs.map key).eraseDups.flatMap fun k => docs.filter fun doc => key doc == k := by
      rw [buckets_eq, List.flatMap_map]
    rw [hflat]
    exact flatMap_filter_perm (nodup_eraseDups _) fun doc hd =>
      List.mem_eraseDups.2 (List.mem_map_of_mem hd)

theorem Partition.sum_lengths {key : Json → Json} {docs : List Json}
    {groups : List (Json × List Json)} (h : Partition key docs groups) :
    (groups.map (·.2.length)).sum = docs.length := by
  rw [← h.all.length_eq, List.length_flatMap]

/-- The last aggregate of a name decides what stands under it. -/
theorem member?_groupDoc {before after : List Aggregate} {a : Aggregate}
    (hlast : ∀ b ∈ after, b.name ≠ a.name) (bucket : Json × List Json) :
    (groupDoc (before ++ a :: after) bucket).member? a.name = some (a.eval bucket.2) := by
  unfold groupDoc
  rw [List.map_append, List.map_cons, ← List.cons_append]
  refine Directory.lookup_ofList_last _ fun e he => ?_
  obtain ⟨b, hb, rfl⟩ := List.mem_map.1 he
  exact hlast b hb

theorem member?_id_groupDoc {aggregates : List Aggregate}
    (h : ∀ a ∈ aggregates, a.name ≠ "_id") (bucket : Json × List Json) :
    (groupDoc aggregates bucket).member? "_id" = some bucket.1 := by
  unfold groupDoc
  rw [← List.nil_append (("_id", bucket.1) :: _)]
  refine Directory.lookup_ofList_last _ fun e he => ?_
  obtain ⟨a, ha, rfl⟩ := List.mem_map.1 he
  exact h a ha

def counting (name : String) : Aggregate := ⟨.sum, .literal (.int 1), name⟩

theorem counting_eval (name : String) {docs : List Json} (h : docs.length ≤ exactLimit) :
    (counting name).eval docs = .ofNat docs.length := by
  have hones : docs.map ((Expr.literal (.int 1)).eval ·) =
      List.replicate docs.length (.number oneNumber) := List.map_const' ..
  change sumOf (docs.map ((Expr.literal (.int 1)).eval ·)) = _
  rw [hones, sumOf_ones, Nat.min_eq_left h]

theorem numbersOf_counts {counts : List Nat} (h : ∀ n ∈ counts, n ≤ exactLimit) :
    (∀ n ∈ numbersOf (counts.map .ofNat), n.isInt = true) ∧
      (numbersOf (counts.map .ofNat)).map integerOf = counts.map Int.ofNat := by
  induction counts with
  | nil => exact ⟨fun n hn => (List.not_mem_nil hn).elim, rfl⟩
  | cons n rest ih =>
    obtain ⟨hint, hvalues⟩ := ih fun m hm => h m (List.mem_cons_of_mem _ hm)
    have hn : n ≤ exactLimit := h n List.mem_cons_self
    have word : Json.Word n := word_of_natAbs_lt (lt_of_le_of_lt hn (by decide))
    have hfirst : numbersOf ((n :: rest).map .ofNat) =
        .int n word :: numbersOf (rest.map .ofNat) := by
      rw [List.map_cons, Json.ofNat, ofInt_of_word word]
      rfl
    rw [hfirst, List.map_cons, List.map_cons, hvalues]
    exact ⟨List.forall_mem_cons.2 ⟨rfl, hint⟩, rfl⟩

theorem sumOf_counts {counts : List Nat} (h : counts.sum < exactLimit) :
    sumOf (counts.map .ofNat) = .ofNat counts.sum := by
  obtain ⟨hint, hvalues⟩ := numbersOf_counts fun n hn =>
    (List.single_le_sum (fun _ _ => Nat.zero_le _) n hn).trans h.le
  have hsizes : (numbersOf (counts.map .ofNat)).map (fun n => (integerOf n).natAbs) = counts :=
    calc _ = ((numbersOf (counts.map .ofNat)).map integerOf).map Int.natAbs :=
          List.map_map.symm
      _ = (counts.map Int.ofNat).map Int.natAbs := by rw [hvalues]
      _ = counts := by
          rw [List.map_map]
          exact List.map_id _
  have hexact : ExactlySummed (numbersOf (counts.map .ofNat)) := ⟨hint, by rwa [hsizes]⟩
  rw [sumOf_exact hexact, hvalues, Json.ofNat]
  congr 1
  exact (map_list_sum (Nat.castRingHom Int) counts).symm

/-- A group stage gives one document for each key of the documents, in the order of first
occurrence. Each document goes into the one group of its key, so the counts of the groups add up to
all the documents. -/
theorem group_partitions (collection : String → List Json) (docs : List Json)
    (key : Option (List (String × Expr))) (aggregates : List Aggregate) :
    Partition (groupKey key) docs (groups key docs) ∧
    Stage.apply collection docs (.group key aggregates) =
      (groups key docs).map (groupDoc aggregates) ∧
    ((∀ a ∈ aggregates, a.name ≠ "_id") →
      (Stage.apply collection docs (.group key aggregates)).map (·.member? "_id") =
        (groups key docs).map fun g => some g.1) ∧
    (∀ before after name, aggregates = before ++ counting name :: after →
      (∀ a ∈ after, a.name ≠ name) → docs.length < exactLimit →
      (Stage.apply collection docs (.group key aggregates)).map (·.member? name) =
        (groups key docs).map (fun g => some (.ofNat g.2.length)) ∧
      ((groups key docs).map (·.2.length)).sum = docs.length ∧
      Accumulator.sum.reduce
        ((Stage.apply collection docs (.group key aggregates)).filterMap (·.member? name)) =
        .ofNat docs.length) := by
  have hpartition : Partition (groupKey key) docs (groups key docs) := by
    rw [groups_eq_buckets]
    exact partition_buckets _ docs
  have hstage : Stage.apply collection docs (.group key aggregates) =
      (groups key docs).map (groupDoc aggregates) := by
    rw [groups_eq_buckets]
    rfl
  refine ⟨hpartition, hstage, fun hid => ?_, fun before after name haggregates hlast hlt => ?_⟩
  · rw [hstage, List.map_map]
    exact List.map_congr_left fun g _ => member?_id_groupDoc hid g
  · have hsum := hpartition.sum_lengths
    have hcount : ∀ g ∈ groups key docs,
        (groupDoc aggregates g).member? name = some (.ofNat g.2.length) := by
      intro g hg
      have hle : g.2.length ≤ docs.length := by
        rw [hpartition.members g hg]
        exact List.length_filter_le _ docs
      rw [haggregates, ← counting_eval name (hle.trans hlt.le)]
      exact member?_groupDoc (a := counting name) hlast g
    have hcounts : ((groups key docs).map (groupDoc aggregates)).filterMap (·.member? name) =
        ((groups key docs).map (·.2.length)).map .ofNat :=
      calc _ = (groups key docs).filterMap fun g => some (.ofNat g.2.length) := by
            rw [List.filterMap_map]
            exact List.filterMap_congr hcount
        _ = _ := by
            rw [List.filterMap_eq_map', List.map_map, Function.comp_def]
    refine ⟨?_, hsum, ?_⟩
    · rw [hstage, List.map_map]
      exact List.map_congr_left hcount
    · rw [hstage, hcounts]
      change sumOf _ = _
      rw [sumOf_counts (hsum ▸ hlt), hsum]

def tasks : List Json :=
  [.object [("state", .ofInt 1)],
    .object [("state", .number (.float ⟨false, one, by decide +kernel⟩))],
    .object [("owner", .null), ("state", .ofInt 1)],
    .object [("owner", .string "x"), ("state", .ofInt 1)]]

def byState : Option (List (String × Expr)) := some [("state", .field "state")]

/-- A number and the float of its value are two states. -/
theorem group_partitions_tasks :
    (∀ a ∈ [counting "tasks"], a.name ≠ "_id") ∧ tasks.length < exactLimit ∧
    (Stage.apply (fun _ => []) tasks (.group byState [counting "tasks"])).map (·.member? "_id") =
      (groups byState tasks).map (fun g => some g.1) ∧
    (Stage.apply (fun _ => []) tasks (.group byState [counting "tasks"])).map
      (·.member? "tasks") = [some (.ofNat 3), some (.ofNat 1)] ∧
    Accumulator.sum.reduce ((Stage.apply (fun _ => []) tasks
      (.group byState [counting "tasks"])).filterMap (·.member? "tasks")) = .ofNat 4 := by
  have hname : ∀ a ∈ [counting "tasks"], a.name ≠ "_id" := by decide +kernel
  have hlt : tasks.length < exactLimit := by decide
  obtain ⟨-, -, hid, hcounts⟩ := group_partitions (fun _ => []) tasks byState [counting "tasks"]
  obtain ⟨hmembers, -, hsum⟩ := hcounts [] [] "tasks" rfl nofun hlt
  exact ⟨hname, hlt, hid hname, hmembers.trans (by decide +kernel), hsum⟩

end Indicators.Pipeline
