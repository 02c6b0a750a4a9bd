import Indicators.Proofs.Calculation.Values

set_option autoImplicit false

/-! A permutation of the documents permutes what they contribute and leaves the contribution of each
alone, because no group below the outermost one has rows of two documents. -/

namespace Indicators.Calculation

open Indicators Indicators.Metric Indicators.Number Indicators.Pipeline Indicators.Plan
open Indicators.Schema

theorem eq_reduction {op : Operation} {values : List Json} {v : Json}
    (h : reduced op values = some v) : v = reduction op values := by
  unfold reduced at h
  split at h
  · cases h
  · exact (Option.some.inj h).symm

theorem numeric_operandOf {l : Level} (h : l.operation.isNumeric = true) (joined : Bool)
    (element : Json) : Numeric (operandOf joined l element) := by
  unfold operandOf
  cases l.fieldPath with
  | none => exact .null
  | some field =>
    dsimp only
    rw [if_pos h]
    exact numeric_asNumber _

/-- What a numeric level has to reduce are numbers and nulls: on the innermost level they are
converted, above it they are results. -/
theorem numeric_contributions (collection : String → List Json) (types : FieldTypes)
    (sectionName : Option String) {l : Level} {inner : List Level}
    (h : l.operation.isNumeric = true) (inside : Option String) (joined : Bool) (element : Json) :
    ∀ v ∈ contributions collection types sectionName inside joined (l :: inner) element,
      Numeric v := by
  induction inner generalizing l inside joined element with
  | nil =>
    intro v hv
    rw [contributions] at hv
    split at hv
    · rw [List.mem_singleton.1 hv]
      exact numeric_operandOf h joined element
    · exact absurd hv List.not_mem_nil
  | cons next rest ih =>
    intro v hv
    rw [contributions] at hv
    split at hv
    · obtain ⟨child, -, hr⟩ := List.mem_filterMap.1 hv
      rw [eq_reduction hr]
      exact numeric_reduction fun hnext => ih hnext _ _ child
    · exact absurd hv List.not_mem_nil

theorem numeric_documentContributions (collection : String → List Json) (locator : DateLocator)
    (types : FieldTypes) {c : Configuration} (h : c.outer.operation.isNumeric = true)
    (doc : Json) :
    ∀ v ∈ documentContributions collection locator types c doc, Numeric v := by
  intro v hv
  unfold documentContributions at hv
  dsimp only at hv
  split at hv
  · obtain ⟨element, -, he⟩ := List.mem_flatMap.1 hv
    exact numeric_contributions collection types _ h _ _ element v he
  · exact absurd hv List.not_mem_nil

def Orderless (op : Operation) : Prop := op ≠ .sum ∧ op ≠ .average

theorem reduction_perm {op : Operation} {values others : List Json} (hp : values.Perm others)
    (hn : op.isNumeric = true → ∀ v ∈ values, Numeric v)
    (hop : Orderless op ∨ (op = .sum ∧ ExactlySummed (numbersOf values))) :
    SameNumber (reduction op values) (reduction op others) := by
  rcases hop with ⟨hs, ha⟩ | ⟨rfl, hexact⟩
  · cases op with
    | sum => exact absurd rfl hs
    | average => exact absurd rfl ha
    | count =>
      rw [reduction, reduction, hp.length_eq]
      exact .refl _
    | percentage =>
      rw [reduction, reduction, hp.length_eq]
      exact .refl _
    | distinct =>
      rw [reduction, reduction, length_distinctOf_perm hp]
      exact .refl _
    | max => exact reduceWith_perm laterMax_chooses le_refl le_trans le_antisymm (hn rfl) hp
    | min =>
      exact reduceWith_perm earlierMin_chooses le_refl (fun hx hy => le_trans hy hx)
        (fun hx hy => le_antisymm hy hx) (hn rfl) hp
  · rw [reduction, reduction, sumOf_perm hexact hp]
    exact .refl _

theorem reduced_perm {op : Operation} {values others : List Json} (hp : values.Perm others)
    (hn : op.isNumeric = true → ∀ v ∈ values, Numeric v)
    (hop : Orderless op ∨ (op = .sum ∧ ExactlySummed (numbersOf values))) :
    SameNumber ((reduced op values).getD .null) ((reduced op others).getD .null) := by
  unfold reduced
  have hempty : values.isEmpty = others.isEmpty := by
    rw [Bool.eq_iff_iff, List.isEmpty_iff_length_eq_zero, List.isEmpty_iff_length_eq_zero,
      hp.length_eq]
  rw [← hempty]
  cases values.isEmpty with
  | true =>
    rw [if_pos rfl, if_pos rfl]
    exact .refl _
  | false => exact reduction_perm hp hn hop

/-- What the outermost group of a query reduces, when that is its last stage. -/
def outermostOperands (collection : String → List Json) (q : Query) (docs : List Json) :
    List Json :=
  match q.stages.getLast? with
  | some (.group none [a]) => (run collection docs q.stages.dropLast).map (a.operand.eval ·)
  | _ => []

theorem outermostOperands_eq (collection : String → List Json) {q : Query} {stages : List Stage}
    {o : Outline} {layout : Layout} (h : q.stages = stages ++ o.rollup layout 0 .sum)
    (docs : List Json) :
    outermostOperands collection q docs =
      (run collection docs stages).map ((o.operand layout 0 .sum).eval ·) := by
  have hrollup : o.rollup layout 0 .sum =
      [.group none [⟨.sum, o.operand layout 0 .sum, resultName⟩]] := rfl
  unfold outermostOperands
  rw [h, hrollup, List.getLast?_concat, List.dropLast_concat]

/-- The result of a plan is the same for every order of its documents. -/
theorem resultOf_run_perm (collection : String → List Json) {locator : DateLocator}
    {schema : Schema} {c : Configuration} {q : Query} {docs others : List Json}
    (hv : Validated c) (hu : Unreserved c) (hq : compile locator schema c = .ok q)
    (hd : Identified docs) (hp : docs.Perm others)
    (hop : Orderless c.outer.operation ∨
      (c.outer.operation = .sum ∧
        ExactlySummed (numbersOf (outermostOperands collection q docs)))) :
    (Calculator.resultOf (run collection docs q.stages)).sameAs
      (Calculator.resultOf (run collection others q.stages)) = true := by
  have ho : Identified others :=
    ⟨fun doc hm => hd.objects doc (hp.mem_iff.2 hm),
      (hp.map (valueAt "_id")).nodup_iff.1 hd.distinct⟩
  obtain ⟨layout, stages, hstages, hoperands⟩ := compile_operands collection hv hu hq
  have hvalues := hp.flatMap_right (documentContributions collection locator schema.types c)
  rw [hstages, run_append, run_append, run_outermost (hoperands docs hd),
    run_outermost (hoperands others ho), resultOf_resultDocs, resultOf_resultDocs]
  refine sameAs_ofJson (reduced_perm hvalues ?_ ?_)
  · intro hn v hm
    obtain ⟨doc, -, hm⟩ := List.mem_flatMap.1 hm
    exact numeric_documentContributions collection locator schema.types hn doc v hm
  · refine hop.imp_right fun ⟨hsum, hexact⟩ => ⟨hsum, ?_⟩
    have hsame := hoperands docs hd
    rw [hsum] at hstages hsame
    rw [outermostOperands_eq collection hstages, hsame] at hexact
    have hcounted : counted .sum = id := rfl
    rwa [hcounted, List.map_id] at hexact

def nights : Configuration := { stays with outer := { stays.outer with operation := .sum } }

def nightsQuery : Query :=
  ⟨"guests", staysQuery.stages.dropLast ++ [.group none [⟨.sum, .field "resultOf_stays", "result"⟩]]⟩

theorem nights_validated : Validated nights :=
  ⟨{ staysDraft with outer := { staysDraft.outer with operation := "sum" } }, by decide +kernel⟩

theorem nights_unreserved : Unreserved nights :=
  ⟨stays_unreserved.entries, stays_unreserved.head, stays_unreserved.field⟩

theorem resultOf_run_nights :
    Validated nights ∧ Unreserved nights ∧
      compile .sectionWalk bareSchema nights = .ok nightsQuery ∧ Identified guests ∧
      ExactlySummed (numbersOf (outermostOperands (fun _ => []) nightsQuery guests)) ∧
      (Calculator.resultOf (run (fun _ => []) guests nightsQuery.stages)).sameAs
        (Calculator.resultOf (run (fun _ => []) guests.reverse nightsQuery.stages)) = true := by
  have hq : compile .sectionWalk bareSchema nights = .ok nightsQuery := by rfl
  have hexact : ExactlySummed (numbersOf (outermostOperands (fun _ => []) nightsQuery guests)) := by
    decide +kernel
  exact ⟨nights_validated, nights_unreserved, hq, guests_identified, hexact,
    resultOf_run_perm _ nights_validated nights_unreserved hq guests_identified
      guests.reverse_perm.symm (.inr ⟨rfl, hexact⟩)⟩

end Indicators.Calculation
