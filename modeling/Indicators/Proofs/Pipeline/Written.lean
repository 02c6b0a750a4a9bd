import Indicators.Proofs.Json.Text
import Indicators.Proofs.Pipeline.Emission
import Indicators.Proofs.Pipeline.Projections
import Indicators.Proofs.Pipeline.Terms

set_option autoImplicit false

/-! The fields of a key, of a reduction and of a projection are written as members of one object,
which keeps their directory and forgets their order. Running a stage needs no more than that. -/

namespace Indicators.Pipeline

open Indicators Indicators.Calendar

section

variable {α : Type} {write : α → Emitted Json}

theorem written_entries {entries : List (String × α)} {members : List (String × Json)}
    (h : entries.mapM (fun e => do return (e.1, ← write e.2)) = .ok members) :
    entries.map (fun e => (e.1, write e.2)) = members.map fun m => (m.1, .ok m.2) := by
  induction entries generalizing members with
  | nil =>
    cases h
    rfl
  | cons e rest ih =>
    rw [List.mapM_cons] at h
    obtain ⟨m, ms, hm, hms, rfl⟩ := both_eq_ok h
    rw [return_eq_map] at hm
    obtain ⟨a, ha, rfl⟩ := map_eq_ok hm
    simp only [List.map_cons, ha, ih hms]

theorem eq_of_map_eq {β γ δ : Type} {f : β → δ} {g : γ → δ}
    (hf : ∀ x y z, f x = g z → f y = g z → x = y) {xs ys : List β} {zs : List γ}
    (hx : xs.map f = zs.map g) (hy : ys.map f = zs.map g) : xs = ys := by
  induction zs generalizing xs ys with
  | nil => rw [List.map_eq_nil_iff.1 hx, List.map_eq_nil_iff.1 hy]
  | cons z zs ih =>
    obtain ⟨x, xs, rfl, hxz, hxs⟩ := List.map_eq_cons_iff.1 hx
    obtain ⟨y, ys, rfl, hyz, hys⟩ := List.map_eq_cons_iff.1 hy
    rw [hf x y z hxz hyz, ih hxs hys]

/-- Where a member determines what it was written for, the object determines the directory. -/
theorem ofList_of_written (hw : ∀ x y, Agree (write x) (write y) → x = y)
    {entries others : List (String × α)} {members members' : List (String × Json)}
    (he : entries.mapM (fun e => do return (e.1, ← write e.2)) = .ok members)
    (ho : others.mapM (fun e => do return (e.1, ← write e.2)) = .ok members')
    (h : Directory.ofList members = Directory.ofList members') :
    Directory.ofList entries = Directory.ofList others := by
  have hentries := congrArg Directory.ofList (written_entries he)
  have hothers := congrArg Directory.ofList (written_entries ho)
  simp only [Directory.ofList_map] at hentries hothers
  rw [← h] at hothers
  refine eq_of_map_eq ?_ hentries hothers
  rintro ⟨name, x⟩ ⟨name', y⟩ ⟨_, j⟩ hx hy
  obtain ⟨rfl, hx⟩ := Prod.mk.inj hx
  obtain ⟨rfl, hy⟩ := Prod.mk.inj hy
  rw [hw x y ⟨j, hx, hy⟩]

end

theorem groupKey_of_agree {key key' : Option (List (String × Expr))}
    (h : Agree (emitKey key) (emitKey key')) (doc : Json) :
    groupKey key doc = groupKey key' doc := by
  cases key with
  | none =>
    cases key' with
    | none => rfl
    | some fields =>
      obtain ⟨j, hj, hf⟩ := h
      obtain ⟨members, -, rfl⟩ := map_eq_ok hf
      cases hj
  | some fields =>
    cases key' with
    | none =>
      obtain ⟨j, hf, hj⟩ := h
      obtain ⟨members, -, rfl⟩ := map_eq_ok hf
      cases hj
    | some fields' =>
      obtain ⟨members, members', hf, hf', hm⟩ := agree_map h
      have hfields := ofList_of_written Expr.emit_injective hf hf' (Json.object.inj hm)
      simp only [groupKey, Json.ofMembers, Directory.ofList_map _ fields,
        Directory.ofList_map _ fields', hfields]

def Aggregate.entry (a : Aggregate) : String × (Accumulator × Expr) := (a.name, a.func, a.operand)

def writeReduction (r : Accumulator × Expr) : Emitted Json := tagged r.1.name <$> r.2.emit

theorem mapM_entries (aggregates : List Aggregate) :
    aggregates.mapM (·.emit) =
      (aggregates.map Aggregate.entry).mapM fun e => do return (e.1, ← writeReduction e.2) := by
  induction aggregates with
  | nil => rfl
  | cons a rest ih =>
    rw [List.map_cons, List.mapM_cons, List.mapM_cons, ih]
    unfold Aggregate.emit Aggregate.entry writeReduction
    cases a.operand.emit <;> rfl

theorem Accumulator.name_injective {f g : Accumulator} (h : f.name = g.name) : f = g := by
  cases f <;> cases g <;> first | rfl | (revert h; decide)

theorem writeReduction_injective (r q : Accumulator × Expr)
    (h : Agree (writeReduction r) (writeReduction q)) : r = q := by
  obtain ⟨a, b, hr, hq, hab⟩ := agree_map h
  obtain ⟨hname, rfl⟩ := tagged_inj.1 hab
  exact Prod.ext (Accumulator.name_injective hname) (Expr.emit_injective _ _ ⟨a, hr, hq⟩)

def reduceOver (docs : List Json) (r : Accumulator × Expr) : Json :=
  r.1.reduce (docs.map (r.2.eval ·))

theorem reductions_eq (aggregates : List Aggregate) (docs : List Json) :
    aggregates.map (fun a => (a.name, a.eval docs)) =
      (aggregates.map Aggregate.entry).map fun e => (e.1, reduceOver docs e.2) := by
  rw [List.map_map]
  rfl

theorem groupDoc_of_written {aggregates aggregates' : List Aggregate}
    (hid : ∀ a ∈ aggregates, a.name ≠ "_id") (hid' : ∀ a ∈ aggregates', a.name ≠ "_id")
    (h : Directory.ofList (aggregates.map Aggregate.entry) =
      Directory.ofList (aggregates'.map Aggregate.entry)) :
    groupDoc aggregates = groupDoc aggregates' := by
  funext bucket
  have hnames {items : List Aggregate} (hi : ∀ a ∈ items, a.name ≠ "_id") :
      ∀ e ∈ items.map (fun a => (a.name, a.eval bucket.2)), e.1 ≠ "_id" := by
    intro e he
    obtain ⟨a, ha, rfl⟩ := List.mem_map.1 he
    exact hi a ha
  unfold groupDoc Json.ofMembers
  rw [Directory.ofList_cons _ (hnames hid), Directory.ofList_cons _ (hnames hid'), reductions_eq,
    reductions_eq, Directory.ofList_map, Directory.ofList_map, h]

theorem names_of_written {aggregates : List Aggregate} {members : List (String × Json)}
    (h : aggregates.mapM (·.emit) = .ok members) (hid : ∀ a ∈ aggregates, a.name ≠ "_id") :
    ∀ m ∈ members, m.1 ≠ "_id" := by
  rw [mapM_entries] at h
  have hnames := congrArg (List.map (·.1)) (written_entries h)
  simp only [List.map_map, Function.comp_def] at hnames
  intro m hm
  have hmem : m.1 ∈ members.map (·.1) := List.mem_map_of_mem hm
  rw [← hnames] at hmem
  obtain ⟨a, ha, hname⟩ := List.mem_map.1 hmem
  exact hname ▸ hid a ha

theorem emitUnwind_inj {path path' : String} {index index' : Option String}
    (h : emitUnwind path index = emitUnwind path' index') : path = path' ∧ index = index' := by
  cases index with
  | none =>
    cases index' with
    | none => exact ⟨fieldRef_inj.1 h, rfl⟩
    | some field' => cases h
  | some field =>
    cases index' with
    | none => cases h
    | some field' =>
      have hpath := lookup_of_ofMembers h "path"
      have hfield := lookup_of_ofMembers h "includeArrayIndex"
      simp [Directory.lookup, fieldRef_inj] at hpath hfield
      exact ⟨hpath, congrArg some hfield⟩

theorem Join.emit_injective {join join' : Join} (h : join.emit = join'.emit) : join = join' := by
  have hbody := (tagged_inj.1 h).2
  have hsource := lookup_of_ofMembers hbody "from"
  have hlocal := lookup_of_ofMembers hbody "localField"
  have hforeign := lookup_of_ofMembers hbody "foreignField"
  have houtput := lookup_of_ofMembers hbody "as"
  simp [Directory.lookup] at hsource hlocal hforeign houtput
  cases join
  cases join'
  simp_all

/-- No aggregate of a group takes the place of the key, and no name of a projection lies inside
another. -/
def Stage.Plain : Stage → Prop
  | .group _ aggregates => ∀ a ∈ aggregates, a.name ≠ "_id"
  | .project fields _ => Separate fields
  | _ => True

instance : (s : Stage) → Decidable s.Plain
  | .group _ aggregates => inferInstanceAs (Decidable (∀ a ∈ aggregates, a.name ≠ "_id"))
  | .project fields _ => inferInstanceAs (Decidable (Separate fields))
  | .filter _ | .unwind _ _ | .join _ => inferInstanceAs (Decidable True)

def Stage.operator : Stage → String
  | .filter _ => "$match"
  | .unwind _ _ => "$unwind"
  | .join _ => "$lookup"
  | .group _ _ => "$group"
  | .project _ true => "$addFields"
  | .project _ false => "$project"

theorem group_of_agree {key key' : Option (List (String × Expr))}
    {aggregates aggregates' : List Aggregate} (hid : ∀ a ∈ aggregates, a.name ≠ "_id")
    (hid' : ∀ a ∈ aggregates', a.name ≠ "_id")
    (h : Agree (Stage.group key aggregates).emit (Stage.group key' aggregates').emit) :
    groupKey key = groupKey key' ∧ groupDoc aggregates = groupDoc aggregates' := by
  obtain ⟨id, members, id', members', hk, ha, hk', ha', hbody⟩ := agree_both h
  obtain ⟨rfl, hmembers⟩ := Directory.ofList_cons_inj (names_of_written ha hid)
    (names_of_written ha' hid') (Json.object.inj (tagged_inj.1 hbody).2)
  rw [mapM_entries] at ha ha'
  have hentries := ofList_of_written writeReduction_injective ha ha' hmembers
  exact ⟨funext (groupKey_of_agree ⟨id, hk, hk'⟩), groupDoc_of_written hid hid' hentries⟩

theorem Stage.emit_project (fields : List (String × Expr)) (keepInput : Bool) :
    (Stage.project fields keepInput).emit =
      (fun computed => tagged (if keepInput then "$addFields" else "$project")
        (.ofMembers computed)) <$> emitFields fields := return_eq_map _ _

theorem projectDoc_of_agree {fields fields' : List (String × Expr)} {keepInput keepInput' : Bool}
    (hs : Separate fields) (hs' : Separate fields')
    (h : Agree (Stage.project fields keepInput).emit (Stage.project fields' keepInput').emit) :
    projectDoc fields keepInput = projectDoc fields' keepInput' := by
  rw [Stage.emit_project, Stage.emit_project] at h
  obtain ⟨members, members', hf, hf', hbody⟩ := agree_map h
  obtain ⟨hname, hobject⟩ := tagged_inj.1 hbody
  have hfields := ofList_of_written Expr.emit_injective hf hf' (Json.object.inj hobject)
  have hkeep : keepInput = keepInput' := by cases keepInput <;> cases keepInput' <;> simp_all
  funext doc
  rw [← projectDoc_ofList hs, hfields, hkeep, projectDoc_ofList hs']

theorem Stage.formOf_emit {s : Stage} {j : Json} (h : s.emit = .ok j) :
    formOf j = s.operator := by
  cases s with
  | filter predicate =>
    obtain ⟨a, -, rfl⟩ := map_eq_ok h
    rfl
  | unwind path index =>
    cases h
    rfl
  | join spec =>
    cases h
    rfl
  | group key aggregates =>
    obtain ⟨id, reductions, -, -, rfl⟩ := both_eq_ok h
    rfl
  | project fields keepInput =>
    rw [emit_project] at h
    obtain ⟨computed, -, rfl⟩ := map_eq_ok h
    cases keepInput <;> rfl

theorem Stage.apply_of_agree {s s' : Stage} (hs : s.Plain) (hs' : s'.Plain)
    (h : Agree s.emit s'.emit) (collection : String → List Json) (docs : List Json) :
    s.apply collection docs = s'.apply collection docs := by
  have hop : s.operator = s'.operator := by
    obtain ⟨j, hj, hj'⟩ := h
    exact (formOf_emit hj).symm.trans (formOf_emit hj')
  cases s with
  | filter predicate =>
    cases s' with
    | filter predicate' =>
      rw [Predicate.emit_injective predicate predicate' (h.of_map fun _ _ h => (tagged_inj.1 h).2)]
    | project fields keepInput => cases keepInput <;> simp [operator] at hop
    | _ => simp [operator] at hop
  | unwind path index =>
    cases s' with
    | unwind path' index' =>
      obtain ⟨rfl, rfl⟩ := emitUnwind_inj (tagged_inj.1 (agree_ok.1 h)).2
      rfl
    | project fields keepInput => cases keepInput <;> simp [operator] at hop
    | _ => simp [operator] at hop
  | join spec =>
    cases s' with
    | join spec' => rw [Join.emit_injective (agree_ok.1 h)]
    | project fields keepInput => cases keepInput <;> simp [operator] at hop
    | _ => simp [operator] at hop
  | group key aggregates =>
    cases s' with
    | group key' aggregates' =>
      obtain ⟨hkey, hdoc⟩ := group_of_agree hs hs' h
      simp only [apply, hkey, hdoc]
    | project fields keepInput => cases keepInput <;> simp [operator] at hop
    | _ => simp [operator] at hop
  | project fields keepInput =>
    cases s' with
    | project fields' keepInput' =>
      have hdoc := projectDoc_of_agree hs hs' h
      simp only [apply, hdoc]
    | _ => cases keepInput <;> simp [operator] at hop

theorem run_of_agree {first second : List Stage} (hf : ∀ s ∈ first, s.Plain)
    (hs : ∀ s ∈ second, s.Plain) (h : Agree (first.mapM Stage.emit) (second.mapM Stage.emit))
    (collection : String → List Json) (docs : List Json) :
    run collection docs first = run collection docs second := by
  induction first generalizing second docs with
  | nil =>
    cases second with
    | nil => rfl
    | cons s' rest' =>
      rw [List.mapM_cons] at h
      exact absurd h (not_agree_nil_cons _ _)
  | cons s rest ih =>
    cases second with
    | nil =>
      rw [List.mapM_cons] at h
      exact absurd h.symm (not_agree_nil_cons _ _)
    | cons s' rest' =>
      rw [List.mapM_cons, List.mapM_cons] at h
      obtain ⟨hstage, hrest⟩ := h.of_cons
      have happly := Stage.apply_of_agree (hf s List.mem_cons_self) (hs s' List.mem_cons_self)
        hstage collection docs
      have hrun := ih (fun t ht => hf t (List.mem_cons_of_mem _ ht))
        (fun t ht => hs t (List.mem_cons_of_mem _ ht)) hrest (s.apply collection docs)
      unfold run at hrun ⊢
      rw [List.foldl_cons, List.foldl_cons, hrun, happly]

/-- Pipelines that are written alike give the same documents. -/
theorem run_eq_of_text_eq {first second : List Stage} (hf : ∀ s ∈ first, s.Plain)
    (hs : ∀ s ∈ second, s.Plain) {a b : Json} (ha : emit first = .ok a) (hb : emit second = .ok b)
    (htext : a.text = b.text) (collection : String → List Json) (docs : List Json) :
    run collection docs first = run collection docs second := by
  have hab := Json.text_injective htext
  have h : Agree (emit first) (emit second) := ⟨a, ha, hab ▸ hb⟩
  exact run_of_agree hf hs (h.of_map fun _ _ => Json.array.inj) collection docs

def leapSecond : Timestamp := ⟨1483228799, 1000000000, by decide⟩

def tallied : List Stage :=
  [.filter (.compare "booked" .le (.timestamp leapSecond)),
    .group (some [("floor", .field "floor"), ("room", .field "room")])
      [⟨.max, .field "price", "dearest"⟩, ⟨.sum, .toNumber (.field "price"), "total"⟩],
    .project [("price.dearest", .field "dearest"), ("price.total", .field "total")] false]

/-- The same in another order, with a name that is given twice. -/
def retallied : List Stage :=
  [.filter (.compare "booked" .le (.timestamp leapSecond)),
    .group (some [("room", .literal (.string "$cellar")), ("floor", .field "floor"),
      ("room", .field "room")])
      [⟨.sum, .toNumber (.field "price"), "total"⟩, ⟨.max, .field "price", "dearest"⟩],
    .project [("price.total", .field "total"), ("price.dearest", .field "dearest")] false]

theorem run_eq_of_text_eq_tallied :
    (∀ s ∈ tallied, s.Plain) ∧ (∀ s ∈ retallied, s.Plain) ∧
      ∃ a b, emit tallied = .ok a ∧ emit retallied = .ok b ∧ a.text = b.text ∧
        ∀ collection docs, run collection docs tallied = run collection docs retallied := by
  have hplain : ∀ s ∈ tallied, s.Plain := by decide
  have hplain' : ∀ s ∈ retallied, s.Plain := by decide
  obtain ⟨a, ha⟩ := (writes_emit tallied).exists_ok (by decide)
  have hsame : emit retallied = emit tallied := by rfl
  have hb := hsame.trans ha
  exact ⟨hplain, hplain', a, a, ha, hb, rfl, run_eq_of_text_eq hplain hplain' ha hb rfl⟩

end Indicators.Pipeline
