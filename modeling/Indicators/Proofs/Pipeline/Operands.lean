import Indicators.Proofs.Pipeline.Written

set_option autoImplicit false

/-! An operator writes its operand at fixed spots, some at more than one. A path is written as a
reference there and a text never is. Only the value of a converted comparison is written unmarked,
so a text with a leading dollar sign reads as a path there. -/

namespace Indicators.Json

open Indicators

inductive Step where
  | member (name : String)
  | item (index : Nat)
deriving DecidableEq

def step? : Step → Json → Option Json
  | .member name, value => value.member? name
  | .item index, .array items => items[index]?
  | .item _, _ => none

def at? (value : Json) : List Step → Option Json
  | [] => some value
  | s :: rest => (value.step? s).bind fun inner => inner.at? rest

theorem step?_item (index : Nat) (items : List Json) :
    (Json.array items).step? (.item index) = items[index]? := rfl

theorem step?_ofMembers (name : String) (members : List (String × Json)) :
    (ofMembers members).step? (.member name) = Directory.lookup name members.reverse :=
  Pipeline.member?_ofMembers name members

theorem at?_cons {value inner : Json} {s : Step} (h : value.step? s = some inner)
    (rest : List Step) : value.at? (s :: rest) = inner.at? rest := by
  rw [at?, h, Option.bind_some]

theorem at?_append {value inner : Json} {first : List Step} (h : value.at? first = some inner)
    (rest : List Step) : value.at? (first ++ rest) = inner.at? rest := by
  induction first generalizing value with
  | nil =>
    cases h
    rfl
  | cons s first ih =>
    obtain ⟨next, hs, hnext⟩ := Option.bind_eq_some_iff.1 h
    rw [List.cons_append, at?_cons hs, ih hnext]

end Indicators.Json

namespace Indicators.Pipeline

open Indicators Indicators.Json

theorem step?_tagged (name : String) (body : Json) :
    (tagged name body).step? (.member name) = some body := by
  simp [tagged, step?, member?, Directory.lookup]

def numberSpot : List Step := [.member "$convert", .member "input"]

/-- The test for an array, the array itself, and the test and the item of a single reference. -/
def referenceSpots : List (List Step) :=
  let many : List Step := [.member "$map", .member "input", .member "$cond"]
  let single : List Step := many ++ [.item 2, .member "$cond"]
  [many ++ [.item 0, .member "$isArray"], many ++ [.item 1],
    single ++ [.item 0, .member "$eq", .item 0, .member "$ifNull", .item 0],
    single ++ [.item 2, .item 0]]

def elementSpots : List (List Step) :=
  [[.member "$cond", .item 0, .member "$isArray"],
    [.member "$cond", .item 1, .member "$arrayElemAt", .item 0]]

def sizeSpot : List Step := [.member "$size", .member "$ifNull", .item 0]

theorem at?_emitToNumber (operand : Json) :
    (emitToNumber operand).at? numberSpot = some operand := by
  unfold emitToNumber numberSpot
  rw [at?_cons (step?_tagged _ _), at?, step?_ofMembers]
  rfl

theorem at?_emitToReferences (operand : Json) :
    ∀ spot ∈ referenceSpots, (emitToReferences operand).at? spot = some operand := by
  unfold emitToReferences referenceSpots emitAsArray
  simp [at?, step?_tagged, step?_ofMembers, step?_item, Directory.lookup]

theorem at?_emitFirstElement (operand : Json) :
    ∀ spot ∈ elementSpots, (emitFirstElement operand).at? spot = some operand := by
  unfold emitFirstElement elementSpots
  simp [at?, step?_tagged, step?_item]

theorem at?_emitSize (operand : Json) : (emitSize operand).at? sizeSpot = some operand := by
  unfold emitSize sizeSpot
  simp [at?, step?_tagged, step?_item]

/-- The expression stands inside another, which is written with it at this spot. -/
inductive Expr.StandsIn (x : Expr) : Expr → List Step → Prop
  | here : StandsIn x x []
  | toNumber {e : Expr} {spot : List Step} (inner : StandsIn x e spot) :
    StandsIn x (.toNumber e) (numberSpot ++ spot)
  | toReferences {e : Expr} {way spot : List Step} (hway : way ∈ referenceSpots)
    (inner : StandsIn x e spot) : StandsIn x (.toReferences e) (way ++ spot)
  | firstElement {e : Expr} {way spot : List Step} (hway : way ∈ elementSpots)
    (inner : StandsIn x e spot) : StandsIn x (.firstElement e) (way ++ spot)
  | coalesce {es : List Expr} {i : Nat} {e : Expr} {spot : List Step} (hitem : es[i]? = some e)
    (inner : StandsIn x e spot) :
    StandsIn x (.coalesce es) (.member "$ifNull" :: .item i :: spot)
  | size {e : Expr} {spot : List Step} (inner : StandsIn x e spot) :
    StandsIn x (.size e) (sizeSpot ++ spot)

mutual

/-- Each literal of an expression has a spot. -/
theorem Expr.exists_spot {v : Literal} :
    (e : Expr) → v ∈ e.literals → ∃ spot, (Expr.literal v).StandsIn e spot
  | .field path, h => absurd h List.not_mem_nil
  | .literal w, h => by
    rw [List.mem_singleton.1 h]
    exact ⟨_, .here⟩
  | .toNumber e, h => by
    obtain ⟨spot, hspot⟩ := Expr.exists_spot e h
    exact ⟨_, .toNumber hspot⟩
  | .toReferences e, h => by
    obtain ⟨spot, hspot⟩ := Expr.exists_spot e h
    exact ⟨_, .toReferences List.mem_cons_self hspot⟩
  | .firstElement e, h => by
    obtain ⟨spot, hspot⟩ := Expr.exists_spot e h
    exact ⟨_, .firstElement List.mem_cons_self hspot⟩
  | .coalesce es, h => by
    obtain ⟨i, e, spot, hitem, hspot⟩ := Expr.exists_item_spot es h
    exact ⟨_, .coalesce hitem hspot⟩
  | .size e, h => by
    obtain ⟨spot, hspot⟩ := Expr.exists_spot e h
    exact ⟨_, .size hspot⟩

theorem Expr.exists_item_spot {v : Literal} : (es : List Expr) → v ∈ Expr.literalsOf es →
    ∃ (i : Nat) (e : Expr) (spot : List Step), es[i]? = some e ∧ (Expr.literal v).StandsIn e spot
  | [], h => absurd h List.not_mem_nil
  | e :: es, h => by
    rcases List.mem_append.1 h with hfirst | hrest
    · obtain ⟨spot, hspot⟩ := Expr.exists_spot e hfirst
      exact ⟨0, e, spot, rfl, hspot⟩
    · obtain ⟨i, e', spot, hitem, hspot⟩ := Expr.exists_item_spot es hrest
      exact ⟨i + 1, e', spot, hitem, hspot⟩

end

def ShownAt (out : Json) (spot : List Step) (written : Emitted Json) : Prop :=
  ∃ j, written = .ok j ∧ out.at? spot = some j

section

variable {out inner : Json} {spot : List Step} {written : Emitted Json}

theorem ShownAt.cons (h : ShownAt inner spot written) {s : Step} (hs : out.step? s = some inner) :
    ShownAt out (s :: spot) written := by
  obtain ⟨j, hx, hj⟩ := h
  exact ⟨j, hx, (at?_cons hs spot).trans hj⟩

theorem ShownAt.append (h : ShownAt inner spot written) {way : List Step}
    (hw : out.at? way = some inner) : ShownAt out (way ++ spot) written := by
  obtain ⟨j, hx, hj⟩ := h
  exact ⟨j, hx, (at?_append hw spot).trans hj⟩

theorem ShownAt.item (h : ShownAt inner spot written) {items : List Json} {i : Nat}
    (hi : items[i]? = some inner) (name : String) :
    ShownAt (tagged name (.array items)) (.member name :: .item i :: spot) written :=
  (h.cons ((step?_item i items).trans hi)).cons (step?_tagged name _)

end

theorem Expr.emitList_eq (es : List Expr) : Expr.emitList es = es.mapM Expr.emit := by
  induction es with
  | nil => rfl
  | cons e es ih => rw [Expr.emitList, List.mapM_cons, ih]

theorem Expr.StandsIn.shown {x e : Expr} {spot : List Step} (h : x.StandsIn e spot) {out : Json}
    (he : e.emit = .ok out) : ShownAt out spot x.emit := by
  induction h generalizing out with
  | here => exact ⟨out, he, rfl⟩
  | toNumber _ ih =>
    obtain ⟨j, hj, rfl⟩ := map_eq_ok he
    exact (ih hj).append (at?_emitToNumber j)
  | toReferences hway _ ih =>
    obtain ⟨j, hj, rfl⟩ := map_eq_ok he
    exact (ih hj).append (at?_emitToReferences j _ hway)
  | firstElement hway _ ih =>
    obtain ⟨j, hj, rfl⟩ := map_eq_ok he
    exact (ih hj).append (at?_emitFirstElement j _ hway)
  | coalesce hitem _ ih =>
    obtain ⟨items, hitems, rfl⟩ := map_eq_ok he
    rw [emitList_eq] at hitems
    obtain ⟨j, hj, hi⟩ := getElem?_of_mapM hitems hitem
    exact (ih hj).item hi _
  | size _ ih =>
    obtain ⟨j, hj, rfl⟩ := map_eq_ok he
    exact (ih hj).append (at?_emitSize j)

def Named {α : Type} (entries : List (String × α)) (name : String) (value : α) : Prop :=
  Directory.lookup name (Directory.ofList entries) = some value

theorem Named.written {α : Type} {write : α → Emitted Json} {entries : List (String × α)}
    {members : List (String × Json)} {name : String} {value : α} (h : Named entries name value)
    (hw : entries.mapM (fun e => do return (e.1, ← write e.2)) = .ok members) :
    ∃ j, write value = .ok j ∧ Named members name j := by
  have hall := congrArg (fun d => Directory.lookup name (Directory.ofList d)) (written_entries hw)
  simp only [Directory.ofList_map, Directory.lookup_map] at hall
  unfold Named at h
  rw [h] at hall
  obtain ⟨j, hj, hvalue⟩ := Option.map_eq_some_iff.1 hall.symm
  exact ⟨j, hvalue.symm, hj⟩

theorem Named.step? {members : List (String × Json)} {name : String} {j : Json}
    (h : Named members name j) : (Json.ofMembers members).step? (.member name) = some j := h

theorem Named.cons {members : List (String × Json)} {name : String} {j : Json}
    (h : Named members name j) (first : String × Json) : Named (first :: members) name j := by
  unfold Named at h ⊢
  rw [Directory.lookup_ofList] at h ⊢
  rw [List.reverse_cons, Directory.lookup_append, h, Option.some_or]

theorem Named.first {members : List (String × Json)} {name : String} (j : Json)
    (h : ∀ m ∈ members, m.1 ≠ name) : Named ((name, j) :: members) name j :=
  @Directory.lookup_ofList_last _ name [] members j h

/-- The expression stands in a stage, which is written with it at this spot. -/
inductive Stage.Holds (x : Expr) : Stage → List Step → Prop
  | key {fields : List (String × Expr)} {aggregates : List Aggregate} {name : String} {e : Expr}
    {spot : List Step} (hkept : ∀ a ∈ aggregates, a.name ≠ "_id") (hname : Named fields name e)
    (inner : x.StandsIn e spot) :
    Holds x (.group (some fields) aggregates)
      (.member "$group" :: .member "_id" :: .member name :: spot)
  | aggregate {key : Option (List (String × Expr))} {aggregates : List Aggregate} {name : String}
    {func : Accumulator} {e : Expr} {spot : List Step}
    (hname : Named (aggregates.map Aggregate.entry) name (func, e)) (inner : x.StandsIn e spot) :
    Holds x (.group key aggregates)
      (.member "$group" :: .member name :: .member func.name :: spot)
  | project {fields : List (String × Expr)} {keepInput : Bool} {name : String} {e : Expr}
    {spot : List Step} (hname : Named fields name e) (inner : x.StandsIn e spot) :
    Holds x (.project fields keepInput)
      (.member (Stage.project fields keepInput).operator :: .member name :: spot)

theorem step?_project {fields : List (String × Expr)} {keepInput : Bool} {out : Json}
    (h : (Stage.project fields keepInput).emit = .ok out) :
    ∃ computed, emitFields fields = .ok computed ∧
      out.step? (.member (Stage.project fields keepInput).operator) =
        some (.ofMembers computed) := by
  rw [Stage.emit_project] at h
  obtain ⟨computed, hc, rfl⟩ := map_eq_ok h
  refine ⟨computed, hc, ?_⟩
  cases keepInput <;> exact step?_tagged _ _

theorem Stage.Holds.shown {x : Expr} {s : Stage} {spot : List Step} (h : s.Holds x spot)
    {out : Json} (hs : s.emit = .ok out) : ShownAt out spot x.emit := by
  cases h with
  | @key fields aggregates name e spot hkept hname inner =>
    obtain ⟨id, reductions, hid, hreductions, rfl⟩ := both_eq_ok hs
    obtain ⟨members, hmembers, rfl⟩ := map_eq_ok hid
    obtain ⟨j, hj, hnamed⟩ := hname.written hmembers
    have hown := Named.first (.ofMembers members) (names_of_written hreductions hkept)
    exact (((inner.shown hj).cons hnamed.step?).cons hown.step?).cons (step?_tagged _ _)
  | @aggregate key aggregates name func e spot hname inner =>
    obtain ⟨id, reductions, -, hreductions, rfl⟩ := both_eq_ok hs
    rw [mapM_entries] at hreductions
    obtain ⟨j, hj, hnamed⟩ := hname.written hreductions
    obtain ⟨operand, he, rfl⟩ := map_eq_ok hj
    have hown := hnamed.cons ("_id", id)
    exact (((inner.shown he).cons (step?_tagged _ _)).cons hown.step?).cons (step?_tagged _ _)
  | @project fields keepInput name e spot hname inner =>
    obtain ⟨computed, hcomputed, hstep⟩ := step?_project hs
    obtain ⟨j, hj, hnamed⟩ := hname.written hcomputed
    exact ((inner.shown hj).cons hnamed.step?).cons hstep

/-- A converted comparison in the predicate has this value, which is written at this spot. -/
inductive Predicate.Compares (v : Literal) : Predicate → List Step → Prop
  | here {path : String} {op : Comparison} :
    Compares v (.compareAsNumber path op v) [.member "$expr", .member op.name, .item 1]
  | and {ps : List Predicate} {i : Nat} {p : Predicate} {spot : List Step}
    (hitem : ps[i]? = some p) (inner : Compares v p spot) :
    Compares v (.and ps) (.member "$and" :: .item i :: spot)
  | or {ps : List Predicate} {i : Nat} {p : Predicate} {spot : List Step}
    (hitem : ps[i]? = some p) (inner : Compares v p spot) :
    Compares v (.or ps) (.member "$or" :: .item i :: spot)

theorem Predicate.emitList_eq (ps : List Predicate) :
    Predicate.emitList ps = ps.mapM Predicate.emit := by
  induction ps with
  | nil => rfl
  | cons p ps ih => rw [Predicate.emitList, List.mapM_cons, ih]

theorem Predicate.Compares.shown {v : Literal} {p : Predicate} {spot : List Step}
    (h : p.Compares v spot) {out : Json} (hp : p.emit = .ok out) : ShownAt out spot v.emit := by
  induction h generalizing out with
  | here =>
    obtain ⟨j, hj, rfl⟩ := map_eq_ok hp
    have hvalue : ShownAt j [] v.emit := ⟨j, hj, rfl⟩
    exact (hvalue.item rfl _).cons (step?_tagged _ _)
  | and hitem _ ih | or hitem _ ih =>
    obtain ⟨items, hitems, rfl⟩ := map_eq_ok hp
    rw [emitList_eq] at hitems
    obtain ⟨j, hj, hi⟩ := getElem?_of_mapM hitems hitem
    exact (ih hj).item hi _

/-- The expression stands in one of the stages, which are written with it at this spot. -/
inductive OperandAt (stages : List Stage) (x : Expr) : List Step → Prop
  | mk {i : Nat} {s : Stage} {spot : List Step} (hstage : stages[i]? = some s)
    (inner : s.Holds x spot) : OperandAt stages x (.item i :: spot)

/-- The value of a converted comparison, which is written at this spot. -/
inductive ComparedAt (stages : List Stage) (v : Literal) : List Step → Prop
  | mk {i : Nat} {p : Predicate} {spot : List Step} (hstage : stages[i]? = some (.filter p))
    (inner : p.Compares v spot) : ComparedAt stages v (.item i :: .member "$match" :: spot)

theorem exists_item {stages : List Stage} {out : Json} (h : emit stages = .ok out) {i : Nat}
    {s : Stage} (hs : stages[i]? = some s) :
    ∃ j, s.emit = .ok j ∧ out.step? (.item i) = some j := by
  obtain ⟨items, hitems, rfl⟩ := map_eq_ok h
  exact getElem?_of_mapM hitems hs

theorem OperandAt.shown {stages : List Stage} {x : Expr} {spot : List Step}
    (h : OperandAt stages x spot) {out : Json} (he : emit stages = .ok out) :
    ShownAt out spot x.emit := by
  obtain ⟨hstage, inner⟩ := h
  obtain ⟨j, hj, hstep⟩ := exists_item he hstage
  exact (inner.shown hj).cons hstep

theorem ComparedAt.shown {stages : List Stage} {v : Literal} {spot : List Step}
    (h : ComparedAt stages v spot) {out : Json} (he : emit stages = .ok out) :
    ShownAt out spot v.emit := by
  obtain ⟨hstage, inner⟩ := h
  obtain ⟨j, hj, hstep⟩ := exists_item he hstage
  obtain ⟨k, hk, rfl⟩ := map_eq_ok hj
  exact ((inner.shown hk).cons (step?_tagged _ _)).cons hstep

theorem Literal.operand_ne_fieldRef {v : Literal} {j : Json} (h : v.emitOperand = .ok j)
    (path : String) : j ≠ fieldRef path := by
  rintro rfl
  have hop := operatorOf_operand h
  simp [operatorOf, fieldRef] at hop

/-- In what a pipeline is written as, each path that is an operand stands as a reference at its
spots and no text that is one does. A text that a converted value is compared with stands as it is,
so there it reads as a reference when it begins with a dollar sign, and only then. -/
theorem references_are_paths {stages : List Stage} {out : Json} (h : emit stages = .ok out) :
    (∀ path spot, OperandAt stages (.field path) spot → out.at? spot = some (fieldRef path)) ∧
      (∀ text spot, OperandAt stages (.literal (.string text)) spot →
        ∃ j, out.at? spot = some j ∧ ∀ path, j ≠ fieldRef path) ∧
      ∀ text spot, ComparedAt stages (.string text) spot →
        ∃ j, out.at? spot = some j ∧ ∀ path, j = fieldRef path ↔ text = "$" ++ path := by
  refine ⟨fun path spot hat => ?_, fun text spot hat => ?_, fun text spot hat => ?_⟩
  · obtain ⟨j, hj, hshown⟩ := hat.shown h
    cases hj
    exact hshown
  · obtain ⟨j, hj, hshown⟩ := hat.shown h
    exact ⟨j, hshown, Literal.operand_ne_fieldRef hj⟩
  · obtain ⟨j, hj, hshown⟩ := hat.shown h
    cases hj
    exact ⟨_, hshown, fun path => by simp [fieldRef]⟩

def payments : List Stage :=
  [.filter (.and [.exists "paid", .compareAsNumber "paid" .ne (.string "$cash")]),
    .group (some [("way", .coalesce [.field "way", .literal (.string "$other")])])
      [⟨.sum, .toNumber (.field "paid"), "total"⟩]]

def waySpot (i : Nat) : List Step :=
  [.item 1, .member "$group", .member "_id", .member "way", .member "$ifNull", .item i]

def cashSpot : List Step :=
  [.item 0, .member "$match", .member "$and", .item 1, .member "$expr", .member "$ne", .item 1]

theorem way_held {i : Nat} {x : Expr}
    (h : [Expr.field "way", .literal (.string "$other")][i]? = some x) :
    OperandAt payments x (waySpot i) := .mk rfl (.key (by decide) rfl (.coalesce h .here))

theorem cash_compared : ComparedAt payments (.string "$cash") cashSpot := .mk rfl (.and rfl .here)

theorem references_are_paths_payments :
    ∃ out, emit payments = .ok out ∧ OperandAt payments (.field "way") (waySpot 0) ∧
      OperandAt payments (.literal (.string "$other")) (waySpot 1) ∧
      out.at? (waySpot 0) = some (fieldRef "way") ∧
      (∃ j, out.at? (waySpot 1) = some j ∧ ∀ path, j ≠ fieldRef path) ∧
      ∃ j, out.at? cashSpot = some j ∧ ∀ path, j = fieldRef path ↔ "$cash" = "$" ++ path := by
  obtain ⟨out, hout⟩ := (writes_emit payments).exists_ok (by decide)
  obtain ⟨hpath, htext, hcompared⟩ := references_are_paths hout
  exact ⟨out, hout, way_held rfl, way_held rfl, hpath _ _ (way_held rfl), htext _ _ (way_held rfl),
    hcompared _ _ cash_compared⟩

/-- The text that payments are compared with reads as a path. -/
theorem compared_text_read_as_path :
    ComparedAt payments (.string "$cash") cashSpot ∧
      ∃ out, emit payments = .ok out ∧ out.at? cashSpot = some (fieldRef "cash") := by
  obtain ⟨out, hout⟩ := (writes_emit payments).exists_ok (by decide)
  obtain ⟨j, hj, hshown⟩ := cash_compared.shown hout
  cases hj
  exact ⟨cash_compared, out, hout, hshown⟩

end Indicators.Pipeline
