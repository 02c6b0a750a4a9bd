import Indicators.Proofs.Plan.Correctness
import Indicators.Proofs.Plan.Monotonicity

set_option autoImplicit false

/-! Nothing is asked of the documents. Every rollup writes a number or null under the key of its
level, where the next one reads it. -/

namespace Indicators.Plan

open Indicators Indicators.Metric Indicators.Number Indicators.Pipeline Indicators.Schema

def isGroup : Stage → Bool
  | .group _ _ => true
  | _ => false

/-- The stages that make the rows of the first group. -/
def beforeGroup (stages : List Stage) : List Stage := stages.takeWhile (!isGroup ·)

/-- A group, or a group that collects a set and the projection to its size. -/
inductive IsRollup : List Stage → Prop where
  | group (key : Option (List (String × Expr))) (aggregate : Aggregate) :
    IsRollup [.group key [aggregate]]
  | sized (key : Option (List (String × Expr))) (aggregate : Aggregate) (name set : String) :
    IsRollup [.group key [aggregate], .project [(name, .size (.field set))] false]

def Carries (key : String) (docs : List Json) : Prop :=
  ∀ doc ∈ docs, ∃ value, doc.member? key = some value ∧ Numeric value

theorem not_isGroup {stage : Stage} (h : Rowwise stage) : (!isGroup stage) = true := by
  cases stage with
  | group key aggregates => exact h.elim
  | _ => rfl

theorem beforeGroup_append {rows rollups : List Stage} (hrows : ∀ stage ∈ rows, Rowwise stage)
    (hrollups : beforeGroup rollups = []) : beforeGroup (rows ++ rollups) = rows := by
  unfold beforeGroup at hrollups ⊢
  rw [List.takeWhile_append_of_pos fun stage hs => not_isGroup (hrows stage hs), hrollups,
    List.append_nil]

section

variable (collection : String → List Json) (o : Outline) (layout : Layout)

theorem isRollup_rollup (level : Nat) (op : Operation) : IsRollup (o.rollup layout level op) := by
  unfold Outline.rollup
  dsimp only
  split
  · exact .sized _ _ _ _
  · exact .group _ _

theorem length_rollup_le (docs : List Json) (level : Nat) (op : Operation) :
    (run collection docs (o.rollup layout level op)).length ≤ docs.length := by
  have hkeys := buckets_keys (groupKey (groupKeyOf layout (o.isInnermost level) level)) docs
  have hle := length_eraseDups (docs.map (groupKey (groupKeyOf layout (o.isInnermost level) level)))
  rw [← hkeys, List.length_map, List.length_map] at hle
  rwa [run_rollup, List.length_map]

theorem rollup_eq_nil {docs : List Json} {level : Nat} {op : Operation} :
    run collection docs (o.rollup layout level op) = [] ↔ docs = [] := by
  have h := buckets_keys (groupKey (groupKeyOf layout (o.isInnermost level) level)) docs
  rw [run_rollup, List.map_eq_nil_iff, ← List.map_eq_nil_iff (f := Prod.fst), h]
  cases docs with
  | nil => simp
  | cons doc rest => simp [List.eraseDups_cons]

theorem counted_operand (level : Nat) (op : Operation) (doc : Json) :
    counted op ((o.operand layout level op).eval doc) = (o.operand layout level op).eval doc := by
  unfold counted Outline.operand
  cases counts op <;> rfl

theorem rollupResult_operands (docs : List Json) (level : Nat) (op : Operation) :
    rollupResult op (docs.map ((o.operand layout level op).eval ·)) =
      reduction op (docs.map ((o.operand layout level op).eval ·)) := by
  rw [← rollupResult_counted, List.map_map]
  congr 2
  funext doc
  exact (counted_operand o layout level op doc).symm

theorem carries_rollup {docs : List Json} {level : Nat} {op : Operation}
    (h : op.isNumeric = true → ∀ doc ∈ docs, Numeric ((o.operand layout level op).eval doc)) :
    Carries (o.resultKey level) (run collection docs (o.rollup layout level op)) := by
  intro doc hd
  rw [run_rollup] at hd
  obtain ⟨bucket, hb, rfl⟩ := List.mem_map.1 hd
  refine ⟨_, Directory.lookup_put_self _ _ _, ?_⟩
  rw [rollupResult_operands]
  refine numeric_reduction fun hop v hv => ?_
  obtain ⟨row, hr, rfl⟩ := List.mem_map.1 hv
  exact h hop row (mem_of_mem_bucket hb hr)

/-- The rollups of a plan, innermost first. -/
def Outline.rollups : List (List Stage) := (o.operations.mapIdx (o.rollup layout)).reverse

theorem length_rollups : (o.rollups layout).length = o.depth := by
  unfold Outline.rollups Outline.depth
  rw [List.length_reverse, List.length_mapIdx]

theorem getElem?_rollups {k : Nat} (h : k < o.depth) :
    ∃ op, (o.rollups layout)[k]? = some (o.rollup layout (o.depth - 1 - k) op) := by
  have hlen : (o.operations.mapIdx (o.rollup layout)).length = o.depth := List.length_mapIdx
  unfold Outline.rollups
  rw [List.getElem?_reverse (by omega), hlen, List.getElem?_mapIdx]
  have hlt : o.depth - 1 - k < o.operations.length := by
    unfold Outline.depth at h ⊢
    omega
  rw [List.getElem?_eq_getElem hlt]
  exact ⟨_, rfl⟩

theorem rollup_of_mem {rollup : List Stage} (h : rollup ∈ o.rollups layout) :
    ∃ level op, rollup = o.rollup layout level op := by
  obtain ⟨level, hlevel, rfl⟩ := List.mem_mapIdx.1 (List.mem_reverse.1 h)
  exact ⟨level, _, rfl⟩

theorem run_rollups {rollups : List (List Stage)}
    (h : ∀ rollup ∈ rollups, ∃ level op, rollup = o.rollup layout level op) (docs : List Json) :
    (run collection docs rollups.flatten = [] ↔ docs = []) ∧
      (run collection docs rollups.flatten).length ≤ docs.length := by
  induction rollups generalizing docs with
  | nil => exact ⟨.rfl, Nat.le_refl _⟩
  | cons rollup rest ih =>
    obtain ⟨level, op, rfl⟩ := h rollup List.mem_cons_self
    obtain ⟨hnil, hlen⟩ := ih (fun r hr => h r (List.mem_cons_of_mem _ hr))
      (run collection docs (o.rollup layout level op))
    rw [List.flatten_cons, run_append]
    exact ⟨hnil.trans (rollup_eq_nil collection o layout),
      hlen.trans (length_rollup_le collection o layout docs level op)⟩

theorem counts_of_isNumeric {op : Operation} (h : op.isNumeric = true) : counts op = false := by
  cases op with
  | count => cases h
  | percentage => cases h
  | _ => rfl

theorem numeric_innermost {level : Nat} (h : o.isInnermost level = true) {op : Operation}
    (hop : op.isNumeric = true) (doc : Json) :
    Numeric ((o.operand layout level op).eval doc) := by
  unfold Outline.operand innermostOperand
  rw [counts_of_isNumeric hop, if_neg Bool.false_ne_true, if_pos h]
  cases layout.levels[level]? with
  | none => exact .null
  | some placed =>
    obtain ⟨base, path, kind, joined, descent⟩ := placed
    cases path with
    | none => exact .null
    | some path =>
      unfold Placement.operand
      dsimp only
      rw [if_pos hop]
      exact numeric_asNumber _

theorem numeric_above {level : Nat} (h : o.isInnermost level = false) {op : Operation}
    (hop : op.isNumeric = true) {docs : List Json} (hc : Carries (o.resultKey (level + 1)) docs) :
    ∀ doc ∈ docs, Numeric ((o.operand layout level op).eval doc) := by
  intro doc hd
  obtain ⟨value, hv, hn⟩ := hc doc hd
  unfold Outline.operand
  rw [counts_of_isNumeric hop, if_neg Bool.false_ne_true, h, if_neg Bool.false_ne_true, Expr.eval]
  cases doc with
  | object members =>
    rw [valueAt_name (resultKey_simple o (level + 1)), show Directory.lookup _ members = _ from hv]
    exact hn
  | _ => cases hv

/-- After the rollup of a level every document carries the result of the level. -/
theorem carries_rollups (docs : List Json) {k : Nat} (h : k < o.depth) :
    Carries (o.resultKey (o.depth - 1 - k))
      (run collection docs ((o.rollups layout).take (k + 1)).flatten) := by
  -- The innermost level converts its operands. Every other one reads the results of the level
  -- below, which the induction has carried.
  induction k with
  | zero =>
    obtain ⟨op, hop⟩ := getElem?_rollups o layout h
    have hin : o.isInnermost (o.depth - 1 - 0) = true := by
      unfold Outline.isInnermost
      rw [beq_iff_eq]
      omega
    rw [List.take_add_one, hop, List.take_zero, List.nil_append, Option.toList_some,
      List.flatten_singleton]
    exact carries_rollup collection o layout fun hnum doc _ =>
      numeric_innermost o layout hin hnum doc
  | succ k ih =>
    obtain ⟨op, hop⟩ := getElem?_rollups o layout h
    have hbelow := ih (by omega)
    have hlevel : o.depth - 1 - k = o.depth - 1 - (k + 1) + 1 := by omega
    have hin : o.isInnermost (o.depth - 1 - (k + 1)) = false := by
      unfold Outline.isInnermost
      rw [beq_eq_false_iff_ne]
      omega
    rw [hlevel] at hbelow
    rw [List.take_add_one, hop, Option.toList_some, List.flatten_append, List.flatten_singleton,
      run_append]
    exact carries_rollup collection o layout fun hnum => numeric_above o layout hin hnum hbelow

theorem run_rollup_zero (docs : List Json) (op : Operation) :
    run collection docs (o.rollup layout 0 op) =
      resultDocs (reduced op (docs.map ((o.operand layout 0 op).eval ·))) := by
  refine run_outermost ?_
  rw [List.map_map]
  exact List.map_congr_left fun doc _ => (counted_operand o layout 0 op doc).symm

end

theorem rollups_ofConfiguration (c : Configuration) (layout : Layout) :
    ∃ inner, (∀ rollup ∈ inner,
        ∃ level op, rollup = (Outline.ofConfiguration c).rollup layout level op) ∧
      (Outline.ofConfiguration c).rollups layout =
        inner ++ [(Outline.ofConfiguration c).rollup layout 0 c.outer.operation] := by
  refine ⟨((c.inner.map (·.operation)).mapIdx fun i =>
    (Outline.ofConfiguration c).rollup layout (i + 1)).reverse, fun rollup hr => ?_, ?_⟩
  · obtain ⟨level, hlevel, rfl⟩ := List.mem_mapIdx.1 (List.mem_reverse.1 hr)
    exact ⟨level + 1, _, rfl⟩
  · have hops : (Outline.ofConfiguration c).operations =
        c.outer.operation :: c.inner.map (·.operation) := rfl
    unfold Outline.rollups
    rw [hops, List.mapIdx_cons, List.reverse_cons]

theorem IsRollup.beforeGroup_append {rollup : List Stage} (h : IsRollup rollup)
    (rest : List Stage) : beforeGroup (rollup ++ rest) = [] := by
  cases h <;> rfl

theorem beforeGroup_rollups (o : Outline) (layout : Layout) :
    beforeGroup (o.rollups layout).flatten = [] := by
  cases h : o.rollups layout with
  | nil => rfl
  | cons rollup rest =>
    obtain ⟨level, op, rfl⟩ := rollup_of_mem o layout (h ▸ List.mem_cons_self)
    rw [List.flatten_cons]
    exact (isRollup_rollup o layout level op).beforeGroup_append rest.flatten

theorem reduction_count {op : Operation} (h : op ∈ [.count, .percentage, .distinct])
    (values : List Json) :
    ∃ n : Nat, n ≤ values.length ∧ reduction op values = .ofNat n ∧
      (op ≠ .distinct → n ≤ exactLimit) := by
  have hone (hr : reduction op values = .ofNat (min values.length exactLimit)) :
      ∃ n : Nat, n ≤ values.length ∧ reduction op values = .ofNat n ∧
        (op ≠ .distinct → n ≤ exactLimit) :=
    ⟨_, Nat.min_le_left _ _, hr, fun _ => Nat.min_le_right _ _⟩
  simp only [List.mem_cons, List.not_mem_nil, or_false] at h
  rcases h with rfl | rfl | rfl
  · exact hone rfl
  · exact hone rfl
  · refine ⟨_, ?_, rfl, fun hne => absurd rfl hne⟩
    rw [length_distinctOf]
    refine (length_eraseDups _).trans ?_
    rw [List.length_map]
    exact List.length_filter_le _ _

theorem compile_rollups {locator : DateLocator} {schema : Schema} {c : Configuration} {q : Query}
    (h : compile locator schema c = .ok q) :
    ∃ layout, q.stages =
      beforeGroup q.stages ++ ((Outline.ofConfiguration c).rollups layout).flatten := by
  obtain ⟨layout, -, hq⟩ := bind_eq_ok.1 h
  injection hq with hq
  subst hq
  refine ⟨layout, ?_⟩
  change _ ++ ((Outline.ofConfiguration c).rollups layout).flatten =
    beforeGroup (_ ++ ((Outline.ofConfiguration c).rollups layout).flatten) ++ _
  rw [beforeGroup_append _ (beforeGroup_rollups _ layout)]
  intro stage hs
  simp only [List.mem_append] at hs
  rcases hs with (hs | hs) | hs
  · obtain ⟨range, -, rfl⟩ := Option.map_eq_some_iff.1 (Option.mem_toList.1 hs)
    trivial
  · exact sectionStages_rowwise layout stage hs
  · exact levelStages_rowwise _ layout stage hs

/-- A plan results in one document when there is any row and in none otherwise. The result is a
number or null, for an operation that counts an integer of at most the number of rows, and on the
way every level leaves its result under its key. -/
theorem run_compile_numeric {locator : DateLocator} {schema : Schema} {c : Configuration}
    {q : Query} (hq : compile locator schema c = .ok q) :
    ∃ rollups : List (List Stage),
      q.stages = beforeGroup q.stages ++ rollups.flatten ∧
      rollups.length = c.depth ∧ (∀ rollup ∈ rollups, IsRollup rollup) ∧
      ∀ (collection : String → List Json) (docs : List Json),
        let rows := run collection docs (beforeGroup q.stages)
        (run collection docs q.stages).length ≤ 1 ∧
        (run collection docs q.stages = [] ↔ rows = []) ∧
        (∀ doc ∈ run collection docs q.stages,
          ∃ value, doc.member? resultName = some value ∧ Numeric value ∧
            (c.outer.operation ∈ [.count, .percentage, .distinct] →
              ∃ n : Nat, n ≤ rows.length ∧ value = .ofNat n ∧
                (c.outer.operation ≠ .distinct ∨ rows.length < 2 ^ 64 →
                  ∃ word, value = .number (.int n word)))) ∧
        ∀ k < c.depth,
          Carries ((Outline.ofConfiguration c).resultKey (c.depth - 1 - k))
            (run collection docs (beforeGroup q.stages ++ (rollups.take (k + 1)).flatten)) := by
  obtain ⟨layout, hstages⟩ := compile_rollups hq
  obtain ⟨inner, hinner, hsplit⟩ := rollups_ofConfiguration c layout
  have hdepth := Outline.depth_ofConfiguration c
  refine ⟨_, hstages, (length_rollups _ layout).trans hdepth, fun rollup hr => ?_,
    fun collection docs => ?_⟩
  · obtain ⟨level, op, rfl⟩ := rollup_of_mem _ layout hr
    exact isRollup_rollup _ layout level op
  intro rows
  have hcarries : ∀ k < c.depth, Carries ((Outline.ofConfiguration c).resultKey (c.depth - 1 - k))
      (run collection docs (beforeGroup q.stages ++
        (((Outline.ofConfiguration c).rollups layout).take (k + 1)).flatten)) := by
    intro k hk
    rw [run_append, ← hdepth]
    exact carries_rollups collection _ layout rows (hdepth ▸ hk)
  have hrun : run collection docs q.stages = run collection
      (run collection rows inner.flatten)
      ((Outline.ofConfiguration c).rollup layout 0 c.outer.operation) := by
    rw [hstages, run_append, hsplit, List.flatten_append, List.flatten_singleton, run_append]
  obtain ⟨hnil, hlen⟩ := run_rollups collection (Outline.ofConfiguration c) layout hinner rows
  refine ⟨?_, ?_, fun doc hd => ?_, hcarries⟩
  · rw [hrun, run_rollup_zero]
    cases reduced c.outer.operation _ <;> simp [resultDocs]
  · rw [hrun, rollup_eq_nil, hnil]
  -- The result is what the outermost level carries, and only its rollup says what a count is of.
  · have hlast := hcarries (c.depth - 1) (by unfold Levels.depth; omega)
    rw [Nat.sub_self, Nat.sub_add_cancel (by unfold Levels.depth; omega), ← hdepth,
      ← length_rollups _ layout, List.take_length, ← hstages] at hlast
    obtain ⟨value, hv, hn⟩ := hlast doc hd
    refine ⟨value, hv, hn, fun hop => ?_⟩
    rw [hrun, run_rollup_zero] at hd
    obtain ⟨found, hf, rfl⟩ := Option.map_eq_some_iff.1 (Option.mem_toList.1 hd)
    obtain rfl : found = value := Option.some.inj hv
    obtain ⟨n, hle, hred, hlimit⟩ := reduction_count hop _
    unfold reduced at hf
    split at hf
    · cases hf
    · have hvalue : found = .ofNat n := (Option.some.inj hf).symm.trans hred
      rw [List.length_map] at hle
      refine ⟨n, hle.trans hlen, hvalue, fun hword => ?_⟩
      have word : Json.Word n := by
        rcases hword with hne | hlt
        · exact word_of_lt ((hlimit hne).trans_lt (by decide))
        · exact word_of_lt ((hle.trans hlen).trans_lt hlt)
      exact ⟨word, hvalue.trans (ofInt_of_word word)⟩

/-- The stays in place of their nights. -/
def staysCounted : Configuration := { stays with outer := { stays.outer with operation := .count } }

def staysCountedQuery : Query :=
  ⟨"guests", staysQuery.stages.dropLast ++ [.group none [⟨.sum, .literal (.int 1), "result"⟩]]⟩

/-- Every guest stands twice, with one identifier. Six rows are kept, the two of each stay share a
group, and three stays are counted. -/
theorem run_compile_numeric_stays :
    (compile .sectionWalk bareSchema stays = .ok staysQuery ∧
      run (fun _ => []) (guests ++ guests) staysQuery.stages =
        [.object [("_id", .null), ("result", .ofNat 8)]] ∧
      (run (fun _ => []) (guests ++ guests) staysQuery.stages).length ≤ 1 ∧
      (run (fun _ => []) (guests ++ guests) staysQuery.stages = [] ↔
        run (fun _ => []) (guests ++ guests) (beforeGroup staysQuery.stages) = []) ∧
      ∃ rollups : List (List Stage), rollups.length = 2 ∧
        staysQuery.stages = beforeGroup staysQuery.stages ++ rollups.flatten ∧
        ∀ k < 2, Carries ((Outline.ofConfiguration stays).resultKey (2 - 1 - k))
          (run (fun _ => []) (guests ++ guests)
            (beforeGroup staysQuery.stages ++ (rollups.take (k + 1)).flatten))) ∧
    compile .sectionWalk bareSchema staysCounted = .ok staysCountedQuery ∧
      run (fun _ => []) (guests ++ guests) staysCountedQuery.stages =
        [.object [("_id", .null), ("result", .ofNat 3)]] ∧
      (run (fun _ => []) (guests ++ guests) (beforeGroup staysCountedQuery.stages)).length = 6 ∧
      ∃ n : Nat, n ≤ 6 ∧ Json.ofNat 3 = .ofNat n ∧ ∃ word, Json.ofNat 3 = .number (.int n word) := by
  have hq : compile .sectionWalk bareSchema stays = .ok staysQuery := by rfl
  have hc : compile .sectionWalk bareSchema staysCounted = .ok staysCountedQuery := by rfl
  have hmax : run (fun _ => []) (guests ++ guests) staysQuery.stages =
      [.object [("_id", .null), ("result", .ofNat 8)]] := by decide +kernel
  have hcount : run (fun _ => []) (guests ++ guests) staysCountedQuery.stages =
      [.object [("_id", .null), ("result", .ofNat 3)]] := by decide +kernel
  have hrows : (run (fun _ => []) (guests ++ guests)
      (beforeGroup staysCountedQuery.stages)).length = 6 := by decide +kernel
  obtain ⟨rollups, hstages, hlen, -, hrun⟩ := run_compile_numeric hq
  obtain ⟨hone, hnil, -, hcarries⟩ := hrun (fun _ => []) (guests ++ guests)
  obtain ⟨_, -, -, -, hruns⟩ := run_compile_numeric hc
  obtain ⟨-, -, hresult, -⟩ := hruns (fun _ => []) (guests ++ guests)
  rw [hcount, hrows] at hresult
  obtain ⟨value, hvalue, -, hcounts⟩ := hresult _ List.mem_cons_self
  obtain rfl : Json.ofNat 3 = value := Option.some.inj hvalue
  obtain ⟨n, hle, hn, hword⟩ := hcounts (by decide)
  exact ⟨⟨hq, hmax, hone, hnil, rollups, hlen, hstages, hcarries⟩, hc, hcount, hrows, n, hle, hn,
    hword (.inr (by decide))⟩

end Indicators.Plan
