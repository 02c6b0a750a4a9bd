import Indicators.Proofs.Metric.Validation
import Mathlib.Data.List.DropRight

set_option autoImplicit false

/-! Checking is a relation between a draft and a configuration, level by level: `Reads` says what a
part is read as. What a level takes from the levels around it comes from the nearest one that has
it. -/

namespace Indicators.Text

theorem trimList_trimList (text : List Char) : trimList (trimList text) = trimList text := by
  have hfront : dropBlanks (trimList text) = trimList text := by
    have hpre : trimList text <+: dropBlanks text := List.rdropWhile_prefix isBlank _
    have hself : dropBlanks (dropBlanks text) = dropBlanks text := List.dropWhile_idempotent ..
    unfold dropBlanks at hself
    rw [List.dropWhile_eq_self_iff] at hself
    refine List.dropWhile_eq_self_iff.2 fun hl => ?_
    have hlong := hl.trans_le hpre.length_le
    rw [hpre.getElem hl]
    exact hself hlong
  have hback : List.rdropWhile isBlank (trimList text) = trimList text :=
    List.rdropWhile_idempotent isBlank (dropBlanks text)
  rw [trimList, hfront]
  exact hback

theorem trim_trim (text : String) : trim (trim text) = trim text := by
  unfold trim
  rw [String.toList_ofList, trimList_trimList]

def Blank (text : String) : Prop := ∀ c ∈ text.toList, isBlank c = true

theorem trim_eq_empty {text : String} : trim text = "" ↔ Blank text := by
  have h : trim text = "" ↔ trimList text.toList = [] := by
    unfold trim
    rw [← String.toList_inj, String.toList_ofList]
    rfl
  rw [h, trimList_eq_nil_iff]
  rfl

def Trimmed (text : String) : Prop := text ≠ "" ∧ trim text = text

theorem trimmed?_eq_some {text s : String} : trimmed? text = some s ↔ s = trim text ∧ Trimmed s := by
  unfold trimmed?
  by_cases h : trim text = ""
  · rw [if_pos h, h]
    exact ⟨nofun, fun ⟨he, hs⟩ => absurd he hs.1⟩
  · rw [if_neg h, Option.some_inj]
    constructor
    · rintro rfl
      exact ⟨rfl, h, trim_trim text⟩
    · rintro ⟨rfl, -⟩
      rfl

theorem exists_trimmed? {text : String} : (∃ s, trimmed? text = some s) ↔ ¬ Blank text := by
  rw [← trim_eq_empty]
  unfold trimmed?
  split <;> simp [*]

end Indicators.Text

namespace Indicators.Metric

open Indicators Indicators.Calendar Indicators.Pipeline Indicators.Text

def operationNames : List String :=
  ["count", "sum", "average", "max", "min", "distinct", "percentage"]

def operatorNames : List String := ["eq", "ne", "gt", "gte", "lt", "lte"]

theorem checkOperation_ok {name : String} {op : Operation} :
    checkOperation name = .ok op ↔ op.name = name := by
  unfold checkOperation
  constructor
  · intro h
    cases hn : Operation.ofName? name with
    | none => rw [hn] at h; cases h
    | some found =>
      rw [hn] at h
      cases h
      unfold Operation.ofName? at hn
      simpa using List.find?_some hn
  · rintro rfl
    rw [Operation.ofName?_name]

theorem checkOperator_ok {word : String} {op : Comparison} :
    checkOperator word = .ok op ↔ op.word = word := by
  unfold checkOperator
  constructor
  · intro h
    cases hw : Comparison.ofWord? word with
    | none => rw [hw] at h; cases h
    | some found =>
      rw [hw] at h
      cases h
      unfold Comparison.ofWord? at hw
      simpa using List.find?_some hw
  · rintro rfl
    rw [Comparison.ofWord?_word]

theorem exists_name {name : String} :
    (∃ op : Operation, op.name = name) ↔ name ∈ operationNames := by
  constructor
  · rintro ⟨op, rfl⟩
    cases op <;> decide
  · intro h
    have hall : ∀ n ∈ operationNames, ∃ op : Operation, op.name = n := by
      simp only [operationNames, List.forall_mem_cons, List.not_mem_nil, false_implies,
        implies_true, and_true]
      exact ⟨⟨.count, rfl⟩, ⟨.sum, rfl⟩, ⟨.average, rfl⟩, ⟨.max, rfl⟩, ⟨.min, rfl⟩,
        ⟨.distinct, rfl⟩, ⟨.percentage, rfl⟩⟩
    exact hall name h

theorem exists_word {word : String} :
    (∃ op : Comparison, op.word = word) ↔ word ∈ operatorNames := by
  constructor
  · rintro ⟨op, rfl⟩
    cases op <;> decide
  · intro h
    have hall : ∀ w ∈ operatorNames, ∃ op : Comparison, op.word = w := by
      simp only [operatorNames, List.forall_mem_cons, List.not_mem_nil, false_implies,
        implies_true, and_true]
      exact ⟨⟨.eq, rfl⟩, ⟨.ne, rfl⟩, ⟨.gt, rfl⟩, ⟨.ge, rfl⟩, ⟨.lt, rfl⟩, ⟨.le, rfl⟩⟩
    exact hall word h

structure DraftCondition.Acceptable (c : DraftCondition) : Prop where
  operator : normalWord c.operator ∈ operatorNames
  field : ¬ Blank c.field

structure DraftCondition.Reads (c : DraftCondition) (checked : Condition) : Prop where
  operator : checked.op.word = normalWord c.operator
  field : checked.field = trim c.field
  trimmed : Trimmed checked.field
  value : checked.value = c.value

theorem DraftCondition.check_ok {level : Nat} {c : DraftCondition} {checked : Condition} :
    c.normalize.check level = .ok checked ↔ c.Reads checked := by
  have hop := @checkOperator_ok (normalWord c.operator)
  unfold DraftCondition.check DraftCondition.normalize
  rw [bind_eq_ok]
  constructor
  · rintro ⟨op, ho, h⟩
    cases hf : trimmed? c.field with
    | none => rw [hf] at h; cases h
    | some field =>
      rw [hf] at h
      cases h
      obtain ⟨htrim, htrimmed⟩ := trimmed?_eq_some.1 hf
      exact ⟨hop.1 ho, htrim, htrimmed, rfl⟩
  · intro h
    refine ⟨checked.op, hop.2 h.operator, ?_⟩
    rw [trimmed?_eq_some.2 ⟨h.field, h.trimmed⟩, ← h.value]
    rfl

theorem DraftCondition.exists_reads (c : DraftCondition) :
    (∃ checked, c.Reads checked) ↔ c.Acceptable := by
  constructor
  · rintro ⟨checked, h⟩
    exact ⟨exists_word.1 ⟨_, h.operator⟩,
      exists_trimmed?.1 ⟨_, trimmed?_eq_some.2 ⟨h.field, h.trimmed⟩⟩⟩
  · rintro ⟨hop, hfield⟩
    obtain ⟨op, ho⟩ := exists_word.2 hop
    obtain ⟨field, hf⟩ := exists_trimmed?.2 hfield
    obtain ⟨htrim, htrimmed⟩ := trimmed?_eq_some.1 hf
    exact ⟨⟨field, op, c.value⟩, ho, htrim, htrimmed, rfl⟩

structure DraftRange.Acceptable (r : DraftRange) : Prop where
  path : ∃ s ∈ r.pathSegments, ¬ Blank s
  bounds : ∃ first last, Timestamp.read? r.first false = some first ∧
    Timestamp.read? r.last true = some last ∧ first.le last = true

structure DraftRange.Reads (r : DraftRange) (checked : DateRange) : Prop where
  path : checked.pathSegments = (r.pathSegments.map trim).filter (· ≠ "")
  nonempty : checked.pathSegments ≠ []
  trimmed : ∀ s ∈ checked.pathSegments, Trimmed s
  first : Timestamp.read? r.first false = some checked.first
  last : Timestamp.read? r.last true = some checked.last
  ordered : checked.first.le checked.last = true

theorem checkTimestamp_ok {text : String} {endOfDay : Bool} {t : Timestamp} :
    checkTimestamp text endOfDay = .ok t ↔ Timestamp.read? text endOfDay = some t := by
  unfold checkTimestamp
  cases Timestamp.read? text endOfDay <;> simp

theorem filterMap_trimmed? (texts : List String) :
    texts.filterMap trimmed? = (texts.map trim).filter (· ≠ "") := by
  induction texts with
  | nil => rfl
  | cons s rest ih =>
    rw [List.filterMap_cons, List.map_cons, List.filter_cons, ← ih]
    unfold trimmed?
    by_cases h : trim s = "" <;> simp [h]

theorem DraftRange.check_ok {r : DraftRange} {checked : DateRange} :
    r.check = .ok checked ↔ r.Reads checked := by
  unfold DraftRange.check
  dsimp only
  constructor
  · intro h
    split at h
    · cases h
    next hne =>
    obtain ⟨first, hfirst, h⟩ := bind_eq_ok.1 h
    obtain ⟨last, hlast, h⟩ := bind_eq_ok.1 h
    split at h
    · next hle =>
      cases h
      refine ⟨filterMap_trimmed? _, by simpa using hne, fun s hs => ?_, checkTimestamp_ok.1 hfirst,
        checkTimestamp_ok.1 hlast, hle⟩
      obtain ⟨text, -, ht⟩ := List.mem_filterMap.1 hs
      exact (trimmed?_eq_some.1 ht).2
    · cases h
  · intro h
    have hne : (r.pathSegments.filterMap trimmed?).isEmpty = false := by
      rw [filterMap_trimmed?, ← h.path, List.isEmpty_eq_false_iff]
      exact h.nonempty
    rw [hne, if_neg Bool.false_ne_true]
    refine bind_eq_ok.2 ⟨_, checkTimestamp_ok.2 h.first, bind_eq_ok.2
      ⟨_, checkTimestamp_ok.2 h.last, ?_⟩⟩
    rw [if_pos h.ordered, filterMap_trimmed?, ← h.path]
    rfl

theorem DraftRange.exists_reads (r : DraftRange) : (∃ checked, r.Reads checked) ↔ r.Acceptable := by
  constructor
  · rintro ⟨checked, h⟩
    refine ⟨?_, checked.first, checked.last, h.first, h.last, h.ordered⟩
    obtain ⟨s, hs⟩ := List.exists_mem_of_ne_nil _ h.nonempty
    rw [h.path, ← filterMap_trimmed?] at hs
    obtain ⟨text, hm, ht⟩ := List.mem_filterMap.1 hs
    exact ⟨text, hm, exists_trimmed?.1 ⟨s, ht⟩⟩
  · rintro ⟨⟨text, hm, hblank⟩, first, last, hfirst, hlast, hle⟩
    obtain ⟨s, hs⟩ := exists_trimmed?.2 hblank
    have hmem : s ∈ r.pathSegments.filterMap trimmed? := List.mem_filterMap.2 ⟨text, hm, hs⟩
    refine ⟨⟨_, first, last⟩, filterMap_trimmed? _, List.ne_nil_of_mem hmem, fun s hs => ?_, hfirst,
      hlast, hle⟩
    obtain ⟨text, -, ht⟩ := List.mem_filterMap.1 hs
    exact (trimmed?_eq_some.1 ht).2

def Given (text : Option String) : Prop := ∃ s ∈ text, ¬ Blank s

theorem filled_eq_some {text : Option String} {s : String} :
    filled text = some s ↔ (text.map trim) = some s ∧ Trimmed s := by
  unfold filled
  cases text with
  | none => simp
  | some t =>
    rw [Option.bind_some, trimmed?_eq_some, Option.map_some, Option.some_inj]
    exact and_congr_left fun _ => eq_comm

theorem exists_filled {text : Option String} : (∃ s, filled text = some s) ↔ Given text := by
  unfold filled Given
  cases text with
  | none => simp
  | some t => simpa using exists_trimmed?

structure DraftLevel.Acceptable (l : DraftLevel) (level : Nat) (hasInner : Prop) : Prop where
  operation : normalWord l.operation ∈ operationNames
  outermost : 0 < level → normalWord l.operation ≠ "percentage"
  field : normalWord l.operation ≠ "count" ∨ hasInner → Given l.fieldPath
  conditions : ∀ c ∈ l.conditions, c.Acceptable
  shared : ∀ conditions ∈ l.sharedConditions, ∀ c ∈ conditions, c.Acceptable
  range : ∀ r ∈ l.dateRange, r.Acceptable

/-- What a level is read as, but for what it takes from the levels around it. -/
structure DraftLevel.Reads (l : DraftLevel) (checked : Level) : Prop where
  operation : checked.operation.name = normalWord l.operation
  field : checked.fieldPath = filled l.fieldPath
  conditions : List.Forall₂ DraftCondition.Reads l.conditions checked.conditions
  shared : Option.Rel (List.Forall₂ DraftCondition.Reads) l.sharedConditions
    checked.sharedConditions
  range : Option.Rel DraftRange.Reads l.dateRange checked.dateRange
  label : checked.label = l.label

structure Level.Fits (l : Level) (level : Nat) (hasInner : Prop) : Prop where
  outermost : 0 < level → l.operation ≠ .percentage
  field : l.operation ≠ .count ∨ hasInner → l.fieldPath ≠ none

def ownCollection (l : DraftLevel) : Option String := filled l.collection

def ownSection (l : DraftLevel) : Option (List String) :=
  if l.sectionPath.isEmpty then none else some l.sectionPath

theorem checkField_ok {level : Nat} {op : Operation} {hasInner : Bool} {field : Option String} :
    checkField level op hasInner field = .ok () ↔
      (op ≠ .count ∨ hasInner = true → field ≠ none) := by
  unfold checkField Operation.needsField
  cases field with
  | some s => simp
  | none =>
    by_cases hop : op = .count <;> cases hasInner <;> simp [hop]

theorem DraftLevel.check_ok {level : Nat} {hasInner : Bool} {collection : String}
    {sectionPath : List String} {l : DraftLevel} {checked : Level} :
    l.normalize.check level hasInner collection sectionPath = .ok checked ↔
      l.Reads checked ∧ checked.Fits level (hasInner = true) ∧
        checked.collection = (ownCollection l).getD collection ∧
        checked.sectionPath = (ownSection l).getD sectionPath := by
  have hop := @checkOperation_ok (normalWord l.operation)
  have hconditions {items : List DraftCondition} {results : List Condition} :
      (items.map DraftCondition.normalize).mapM (DraftCondition.check level) = .ok results ↔
        List.Forall₂ DraftCondition.Reads items results := by
    rw [List.mapM_map]
    exact mapM_eq_ok fun _ _ => DraftCondition.check_ok
  have hshared {items : Option (List DraftCondition)} {results : Option (List Condition)} :
      (items.map (·.map DraftCondition.normalize)).mapM
          (·.mapM (DraftCondition.check level)) = .ok results ↔
        Option.Rel (List.Forall₂ DraftCondition.Reads) items results := by
    rw [← optionMapM_eq_ok fun _ _ => hconditions]
    cases items <;> rfl
  have hrange {item : Option DraftRange} {result : Option DateRange} :
      item.mapM DraftRange.check = .ok result ↔ Option.Rel DraftRange.Reads item result :=
    optionMapM_eq_ok fun _ _ => DraftRange.check_ok
  have hsection : (ownSection l).getD sectionPath =
      if l.sectionPath.isEmpty then sectionPath else l.sectionPath := by
    unfold ownSection
    split <;> rfl
  unfold DraftLevel.check DraftLevel.normalize
  dsimp only
  rw [hsection]
  constructor
  · intro h
    obtain ⟨op, ho, h⟩ := bind_eq_ok.1 h
    split at h
    · cases h
    next hplace =>
    obtain ⟨⟨⟩, hfield, h⟩ := bind_eq_ok.1 h
    obtain ⟨conditions, hc, h⟩ := bind_eq_ok.1 h
    obtain ⟨shared, hs, h⟩ := bind_eq_ok.1 h
    obtain ⟨range, hr, h⟩ := bind_eq_ok.1 h
    cases h
    exact ⟨⟨hop.1 ho, rfl, hconditions.1 hc, hshared.1 hs, hrange.1 hr, rfl⟩,
      ⟨fun hpos he => hplace ⟨hpos, he⟩, checkField_ok.1 hfield⟩, rfl, rfl⟩
  · rintro ⟨hreads, hfits, hcollection, hpath⟩
    refine bind_eq_ok.2 ⟨checked.operation, hop.2 hreads.operation, ?_⟩
    rw [if_neg fun h => hfits.outermost h.1 h.2]
    refine bind_eq_ok.2 ⟨(), checkField_ok.2 (hreads.field ▸ hfits.field), ?_⟩
    refine bind_eq_ok.2 ⟨_, hconditions.2 hreads.conditions, ?_⟩
    refine bind_eq_ok.2 ⟨_, hshared.2 hreads.shared, ?_⟩
    refine bind_eq_ok.2 ⟨_, hrange.2 hreads.range, ?_⟩
    rw [← hreads.field, ← hreads.label, ← hpath]
    have hown : (filled l.collection).getD collection = checked.collection := hcollection.symm
    rw [hown]
    rfl

theorem name_injective {op other : Operation} (h : op.name = other.name) : op = other := by
  have hop := checkOperation_ok.2 h
  exact Except.ok.inj (hop.symm.trans (checkOperation_ok.2 rfl))

theorem DraftLevel.exists_check {level : Nat} {hasInner : Bool} {collection : String}
    {sectionPath : List String} {l : DraftLevel} :
    (∃ checked, l.normalize.check level hasInner collection sectionPath = .ok checked) ↔
      l.Acceptable level (hasInner = true) := by
  have hconditions := @exists_forall₂ _ _ _ _ DraftCondition.exists_reads
  constructor
  · rintro ⟨checked, h⟩
    obtain ⟨hreads, hfits, -⟩ := check_ok.1 h
    refine ⟨exists_name.1 ⟨_, hreads.operation⟩, fun hpos hname => ?_, fun hneed => ?_,
      hconditions.1 ⟨_, hreads.conditions⟩,
      (exists_optionRel fun _ => hconditions).1 ⟨_, hreads.shared⟩,
      (exists_optionRel DraftRange.exists_reads).1 ⟨_, hreads.range⟩⟩
    · exact hfits.outermost hpos (name_injective (hreads.operation.trans hname))
    · have hcount : checked.operation ≠ .count ∨ hasInner = true :=
        hneed.imp_left fun hne he => hne (hreads.operation.symm.trans (congrArg Operation.name he))
      have hfield := hfits.field hcount
      rw [hreads.field] at hfield
      exact exists_filled.1 (Option.ne_none_iff_exists'.1 hfield)
  · intro h
    obtain ⟨op, hop⟩ := exists_name.2 h.operation
    obtain ⟨conditions, hc⟩ := hconditions.2 h.conditions
    obtain ⟨shared, hs⟩ := (exists_optionRel fun _ => hconditions).2 h.shared
    obtain ⟨range, hr⟩ := (exists_optionRel DraftRange.exists_reads).2 h.range
    refine ⟨⟨_, op, filled l.fieldPath, _, conditions, range, shared, l.label⟩,
      check_ok.2 ⟨⟨hop, rfl, hc, hs, hr, rfl⟩, ⟨?_, ?_⟩, rfl, rfl⟩⟩
    · rintro hpos rfl
      exact h.outermost hpos hop.symm
    · intro hneed
      have hgiven : Given l.fieldPath := h.field <| hneed.imp_left fun hne he =>
        hne (name_injective (hop.trans he))
      exact Option.ne_none_iff_exists'.2 (exists_filled.2 hgiven)

/-- What the last level that has any has of its own. -/
def nearest? {α : Type} (own : DraftLevel → Option α) (levels : List DraftLevel) : Option α :=
  levels.reverse.findSome? own

theorem getD_nearest?_cons {α : Type} (own : DraftLevel → Option α) (l : DraftLevel)
    (levels : List DraftLevel) (outside : α) :
    (nearest? own (l :: levels)).getD outside =
      (nearest? own levels).getD ((own l).getD outside) := by
  unfold nearest?
  rw [List.reverse_cons, List.findSome?_append]
  cases levels.reverse.findSome? own with
  | some value => rfl
  | none => cases h : own l <;> simp [h]

/-- The reading of one of several levels. The first of them has the number `first` and lies inside
a collection and a section. -/
structure ReadsAmong (levels : List DraftLevel) (first : Nat) (collection : String)
    (sectionPath : List String) (i : Nat) (l : DraftLevel) (checked : Level) : Prop where
  own : l.Reads checked
  fits : checked.Fits (first + i) (i + 1 < levels.length)
  collection : checked.collection =
    (nearest? ownCollection (levels.take (i + 1))).getD collection
  sectionPath : checked.sectionPath = (nearest? ownSection (levels.take (i + 1))).getD sectionPath

theorem hasInner_iff {l : DraftLevel} {inner : List DraftLevel} :
    (!inner.isEmpty) = true ↔ 0 + 1 < (l :: inner).length := by
  cases inner <;> simp

theorem readsAmong_zero {l : DraftLevel} {inner : List DraftLevel} {first : Nat} {collection : String}
    {sectionPath : List String} {checked : Level} :
    ReadsAmong (l :: inner) first collection sectionPath 0 l checked ↔
      l.normalize.check first (!inner.isEmpty) collection sectionPath = .ok checked := by
  have hone {α : Type} (own : DraftLevel → Option α) (outside : α) :
      (nearest? own ((l :: inner).take (0 + 1))).getD outside = (own l).getD outside :=
    getD_nearest?_cons own l [] outside
  rw [DraftLevel.check_ok, hasInner_iff, ← hone ownCollection, ← hone ownSection]
  exact ⟨fun ⟨hown, hfits, hc, hs⟩ => ⟨hown, hfits, hc, hs⟩,
    fun ⟨hown, hfits, hc, hs⟩ => ⟨hown, hfits, hc, hs⟩⟩

theorem readsAmong_succ {l : DraftLevel} {inner : List DraftLevel} {first i : Nat}
    {collection : String} {sectionPath : List String} {below : DraftLevel} {checked : Level} :
    ReadsAmong (l :: inner) first collection sectionPath (i + 1) below checked ↔
      ReadsAmong inner (first + 1) ((ownCollection l).getD collection)
        ((ownSection l).getD sectionPath) i below checked := by
  have hindex : first + (i + 1) = first + 1 + i := by omega
  have hinner : i + 1 + 1 < (l :: inner).length ↔ i + 1 < inner.length := by simp
  constructor
  · rintro ⟨hown, hfits, hc, hs⟩
    rw [hinner, hindex] at hfits
    rw [List.take_succ_cons, getD_nearest?_cons] at hc hs
    exact ⟨hown, hfits, hc, hs⟩
  · rintro ⟨hown, hfits, hc, hs⟩
    rw [← hinner, ← hindex] at hfits
    rw [← getD_nearest?_cons, ← List.take_succ_cons] at hc hs
    exact ⟨hown, hfits, hc, hs⟩

theorem checkLevels_cons {first : Nat} {collection : String} {sectionPath : List String}
    {l : DraftLevel} {inner : List DraftLevel} {checked : List Level} :
    checkLevels first collection sectionPath ((l :: inner).map DraftLevel.normalize) = .ok checked ↔
      ∃ here below, l.normalize.check first (!inner.isEmpty) collection sectionPath = .ok here ∧
        checkLevels (first + 1) ((ownCollection l).getD collection) ((ownSection l).getD sectionPath)
          (inner.map DraftLevel.normalize) = .ok below ∧ checked = here :: below := by
  rw [List.map_cons, checkLevels, bind_eq_ok, List.isEmpty_map]
  constructor
  · rintro ⟨here, hh, h⟩
    obtain ⟨below, hb, h⟩ := bind_eq_ok.1 h
    cases h
    obtain ⟨-, -, hc, hs⟩ := DraftLevel.check_ok.1 hh
    rw [hc, hs] at hb
    exact ⟨here, below, hh, hb, rfl⟩
  · rintro ⟨here, below, hh, hb, rfl⟩
    obtain ⟨-, -, hc, hs⟩ := DraftLevel.check_ok.1 hh
    rw [← hc, ← hs] at hb
    exact ⟨here, hh, bind_eq_ok.2 ⟨below, hb, rfl⟩⟩

theorem checkLevels_ok {first : Nat} {collection : String} {sectionPath : List String}
    {levels : List DraftLevel} {checked : List Level}
    (h : checkLevels first collection sectionPath (levels.map DraftLevel.normalize) =
      .ok checked) :
    checked.length = levels.length ∧ ∀ (i : Nat) l level, levels[i]? = some l →
      checked[i]? = some level → ReadsAmong levels first collection sectionPath i l level := by
  -- General in what lies outside, because each level hands its own on to the levels below.
  induction levels generalizing first collection sectionPath checked with
  | nil =>
    rw [List.map_nil, checkLevels, Except.ok.injEq] at h
    rw [← h]
    exact ⟨rfl, fun i l level hl => by simp at hl⟩
  | cons l inner ih =>
    obtain ⟨here, below, hh, hb, rfl⟩ := checkLevels_cons.1 h
    obtain ⟨hlen, hread⟩ := ih hb
    refine ⟨congrArg (· + 1) hlen, fun i raw level hraw hlevel => ?_⟩
    cases i with
    | zero =>
      cases hraw
      cases hlevel
      exact readsAmong_zero.2 hh
    | succ i => exact readsAmong_succ.2 (hread i raw level hraw hlevel)

theorem acceptable_cons {l : DraftLevel} {inner : List DraftLevel} {first : Nat} :
    (∀ (i : Nat) raw, (l :: inner)[i]? = some raw →
        raw.Acceptable (first + i) (i + 1 < (l :: inner).length)) ↔
      l.Acceptable first (0 + 1 < (l :: inner).length) ∧
        ∀ (i : Nat) raw, inner[i]? = some raw →
          raw.Acceptable (first + 1 + i) (i + 1 < inner.length) := by
  have hindex (i : Nat) : first + (i + 1) = first + 1 + i := by omega
  have hshort (i : Nat) : i + 1 + 1 < (l :: inner).length ↔ i + 1 < inner.length := by simp
  constructor
  · intro h
    refine ⟨h 0 l rfl, fun i raw hraw => ?_⟩
    have hbelow := h (i + 1) raw hraw
    rwa [hindex, hshort] at hbelow
  · rintro ⟨hl, hbelow⟩ i raw hraw
    cases i with
    | zero =>
      cases hraw
      exact hl
    | succ i =>
      rw [hindex, hshort]
      exact hbelow i raw hraw

theorem exists_checkLevels {first : Nat} {collection : String} {sectionPath : List String}
    {levels : List DraftLevel} :
    (∃ checked, checkLevels first collection sectionPath (levels.map DraftLevel.normalize) =
      .ok checked) ↔
      ∀ (i : Nat) l, levels[i]? = some l → l.Acceptable (first + i) (i + 1 < levels.length) := by
  induction levels generalizing first collection sectionPath with
  | nil => exact ⟨fun _ => nofun, fun _ => ⟨[], rfl⟩⟩
  | cons l inner ih =>
    have hhere := @DraftLevel.exists_check first (!inner.isEmpty) collection sectionPath l
    rw [hasInner_iff] at hhere
    rw [acceptable_cons, ← hhere, ← ih]
    constructor
    · rintro ⟨checked, h⟩
      obtain ⟨here, below, hh, hb, -⟩ := checkLevels_cons.1 h
      exact ⟨⟨here, hh⟩, below, hb⟩
    · rintro ⟨⟨here, hh⟩, below, hb⟩
      exact ⟨_, checkLevels_cons.2 ⟨here, below, hh, hb, rfl⟩⟩

def Draft.Acceptable (d : Draft) : Prop :=
  Given d.outer.collection ∧
    ∀ (i : Nat) l, d.toList[i]? = some l → l.Acceptable i (i + 1 < d.depth)

structure Draft.ReadsAt (d : Draft) (i : Nat) (l : DraftLevel) (checked : Level) : Prop where
  own : l.Reads checked
  fits : checked.Fits i (i + 1 < d.depth)
  field : ∀ field ∈ checked.fieldPath, Trimmed field
  collection : nearest? ownCollection (d.toList.take (i + 1)) = some checked.collection
  trimmed : Trimmed checked.collection
  sectionPath : checked.sectionPath = (nearest? ownSection (d.toList.take (i + 1))).getD []

theorem configuration_eq_ok {d : Draft} {c : Configuration} :
    d.configuration = .ok c ↔ ∃ collection, filled d.outer.collection = some collection ∧
      checkLevels 0 collection [] (d.toList.map DraftLevel.normalize) = .ok c.toList := by
  have hchain (collection : String) : checkLevels 0 collection []
      (d.toList.map DraftLevel.normalize) =
        (d.outer.normalize.check 0 (!(d.inner.map DraftLevel.normalize).isEmpty) collection [] >>=
          fun outer => checkLevels 1 outer.collection outer.sectionPath
            (d.inner.map DraftLevel.normalize) >>= fun inner => pure (outer :: inner)) := by
    rw [Levels.toList, List.map_cons, checkLevels]
  have houter : d.normalize.outer.collection = d.outer.collection := by
    rw [Draft.normalize, Levels.map, DraftLevel.normalize]
  unfold Draft.configuration Draft.check
  rw [houter]
  simp only [hchain]
  cases filled d.outer.collection with
  | none => simp
  | some collection =>
    simp only [Option.some_inj, exists_eq_left']
    constructor
    · intro h
      obtain ⟨outer, ho, h⟩ := bind_eq_ok.1 h
      obtain ⟨inner, hi, h⟩ := bind_eq_ok.1 h
      cases h
      exact bind_eq_ok.2 ⟨outer, ho, bind_eq_ok.2 ⟨inner, hi, rfl⟩⟩
    · intro h
      obtain ⟨outer, ho, h⟩ := bind_eq_ok.1 h
      obtain ⟨inner, hi, h⟩ := bind_eq_ok.1 h
      obtain ⟨hhere, hbelow⟩ := List.cons.inj (Except.ok.inj h)
      refine bind_eq_ok.2 ⟨outer, ho, bind_eq_ok.2 ⟨inner, hi, ?_⟩⟩
      rw [hhere, hbelow]
      rfl

theorem nearest?_isSome {d : Draft} (h : (ownCollection d.outer).isSome = true) (i : Nat) :
    (nearest? ownCollection (d.toList.take (i + 1))).isSome = true := by
  unfold nearest?
  rw [List.findSome?_isSome_iff]
  exact ⟨d.outer, by simp [Levels.toList], h⟩

theorem trimmed_nearest? {levels : List DraftLevel} {collection : String}
    (h : nearest? ownCollection levels = some collection) : Trimmed collection := by
  obtain ⟨l, -, hl⟩ := List.exists_of_findSome?_eq_some h
  exact (filled_eq_some.1 hl).2

/-- A draft is accepted when every level is acceptable in its place and the outermost one has a
collection. A configuration that it is accepted as has the levels of the draft, each read from its
own level and the nearest ones around it. -/
theorem configuration_accepts (d : Draft) :
    ((∃ c, d.configuration = .ok c) ↔ d.Acceptable) ∧
      ∀ c, d.configuration = .ok c → c.depth = d.depth ∧
        ∀ (i : Nat) l level, d.toList[i]? = some l → c.toList[i]? = some level →
          d.ReadsAt i l level := by
  constructor
  · have hlevels := @exists_checkLevels 0
    simp only [Nat.zero_add] at hlevels
    unfold Draft.Acceptable
    rw [← exists_filled]
    constructor
    · rintro ⟨c, hc⟩
      obtain ⟨collection, hf, h⟩ := configuration_eq_ok.1 hc
      exact ⟨⟨collection, hf⟩, hlevels.1 ⟨_, h⟩⟩
    · rintro ⟨⟨collection, hf⟩, h⟩
      obtain ⟨checked, hchecked⟩ := (@hlevels collection [] d.toList).2 h
      have hlen := (checkLevels_ok hchecked).1
      cases checked with
      | nil => cases hlen
      | cons outer inner => exact ⟨⟨outer, inner⟩, configuration_eq_ok.2 ⟨collection, hf, hchecked⟩⟩
  · intro c hc
    obtain ⟨collection, hf, h⟩ := configuration_eq_ok.1 hc
    obtain ⟨hlen, hread⟩ := checkLevels_ok h
    refine ⟨hlen, fun i l level hl hlevel => ?_⟩
    obtain ⟨hown, hfits, hcollection, hsection⟩ := hread i l level hl hlevel
    rw [Nat.zero_add] at hfits
    have hsome : (ownCollection d.outer).isSome = true := by
      rw [ownCollection, hf]
      rfl
    obtain ⟨found, hnearest⟩ := Option.isSome_iff_exists.1 (nearest?_isSome hsome i)
    rw [hnearest, Option.getD_some] at hcollection
    refine ⟨hown, hfits, fun field hfield => ?_, hcollection ▸ hnearest,
      hcollection ▸ trimmed_nearest? hnearest, hsection⟩
    rw [hown.field] at hfield
    exact (filled_eq_some.1 hfield).2

end Indicators.Metric
