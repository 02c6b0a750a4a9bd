import Indicators.Proofs.Calculation.Batch
import Indicators.Proofs.Schema.Lookups

set_option autoImplicit false

/-! Which entry loads a collection depends on the order in which they go on, but not the number of
look-ups: it depends on the collections that the entries ask for. -/

namespace Indicators.Calculation

open Indicators Indicators.Calendar Indicators.Metric Indicators.Plan Indicators.Schema

namespace Task

def collection (task : Task) : String := task.configuration.outer.collection

theorem collection_first (c : Configuration) : (first c).collection = c.outer.collection := by
  unfold first
  split <;> rfl

theorem collection_next {task following : Task} {value : MetricValue}
    (h : task.next value = .inl following) : following.collection = task.collection := by
  cases task with
  | only c => cases h
  | share c =>
    obtain rfl := Sum.inl.inj h
    change (denominator c).outer.collection = (numerator c).outer.collection
    unfold denominator
    split <;> rfl
  | whole c part => cases h

end Task

def wanted : Job → List String
  | .ok c => [c.outer.collection]
  | .error _ => []

def Slot.wanted : Slot → List String
  | .fresh job => Calculation.wanted job
  | _ => []

/-- The collection of a query that is under way is loaded. -/
def Settled (c : Catalog) (asked : List String) : Slot → Prop
  | .waiting task _ _ => task.collection ∈ asked ∧ c.Knows task.collection
  | _ => True

theorem Settled.mono {c : Catalog} {asked more : List String} {slot : Slot}
    (h : Settled c asked slot) (hsub : asked ⊆ more) : Settled c more slot := by
  cases slot with
  | waiting task q since => exact ⟨hsub h.1, h.2⟩
  | fresh job => trivial
  | finished outcome => trivial

namespace Calculator

variable {k : Calculator} {c : Catalog}

structure Serves (c : Catalog) (asked : List String) (r : Slot × Progress) : Prop where
  loaded : Asked c asked r.2.loaded
  settled : Settled c asked r.1
  wanted : r.1.wanted = []

theorem serves_finished {asked : List String} {p : Progress} (h : Asked c asked p.loaded)
    (outcome : Outcome) : Serves c asked (.finished outcome, p) := ⟨h, trivial, rfl⟩

theorem loads_compile (hk : k.registry = c.registry) (configuration : Configuration)
    (p : Progress) :
    ∃ result, Loads c configuration.outer.collection p.loaded
        (result, ((k.compile configuration).run.run p).2.loaded) ∧
      ∀ q, ((k.compile configuration).run.run p).1 = .ok q → ∃ schema, result = .ok schema := by
  have hloads := loads c configuration.outer.collection p.loaded
  rw [compile, run_bind, run_schemaOf, hk]
  cases hrun : (load c.registry configuration.outer.collection).run.run p.loaded with
  | mk result loaded =>
    rw [hrun] at hloads
    refine ⟨result, ?_, fun q hq => ?_⟩
    · cases result with
      | error e => exact hloads
      | ok schema =>
        dsimp only [Except.mapError]
        split <;> exact hloads
    · cases result with
      | error e => cases hq
      | ok schema => exact ⟨schema, rfl⟩

theorem serves_ask (hk : k.registry = c.registry) {asked : List String} (now : Nat)
    (task : Task) {p : Progress}
    (h : ∀ r, Loads c task.collection p.loaded r → Asked c asked r.2) :
    Serves c asked (k.ask now task p) := by
  obtain ⟨result, hloads, hok⟩ := loads_compile hk task.configuration p
  have hasked := h _ hloads
  rw [ask]
  cases hrun : (k.compile task.configuration).run.run p with
  | mk compiled after =>
    rw [hrun] at hloads hok hasked
    cases compiled with
    | error e => exact serves_finished hasked _
    | ok q =>
      obtain ⟨schema, rfl⟩ := hok q rfl
      have hloaded := (hasked.names _).1 hloads.ok_mem
      exact ⟨hasked, hloaded, rfl⟩

theorem serves_resume (hk : k.registry = c.registry) {asked : List String} {slot : Slot}
    {p : Progress} (now : Nat) (h : Asked c asked p.loaded) (hslot : Settled c asked slot) :
    Serves c (slot.wanted ++ asked) (k.resume now slot p) := by
  cases slot with
  | fresh job =>
    cases job with
    | error e => exact serves_finished h _
    | ok configuration =>
      refine serves_ask hk now _ fun r hr => ?_
      rw [Task.collection_first] at hr
      exact h.loads hr
  | waiting task q since =>
    rw [resume]
    split
    · split
      · next following hnext =>
        -- The second query of a percentage finds the schema that the first one has loaded.
        refine serves_ask hk now following fun r hr => ?_
        rw [Task.collection_next hnext] at hr
        exact h.loads_again hslot.1 hslot.2 hr
      · exact serves_finished h _
    · exact serves_finished h _
  | finished outcome => exact serves_finished h outcome

/-- What has been asked for and what is still wanted are together what the jobs want. -/
structure Accounts (c : Catalog) (jobs : List Job) (asked : List String) (b : Batch) : Prop where
  loaded : Asked c asked b.progress.loaded
  settled : ∀ slot ∈ b.window, Settled c asked slot
  balance : (asked ++ b.window.flatMap Slot.wanted ++ b.pending.flatMap wanted).Perm
    (jobs.flatMap wanted)

theorem accounts_start (c : Catalog) (jobs : List Job) :
    Accounts c jobs [] { pending := jobs } :=
  ⟨asked_nothing c, fun _ hs => absurd hs List.not_mem_nil, .refl _⟩

theorem flatMap_wanted_set {window : List Slot} {index : Nat} {slot new : Slot}
    (found : window[index]? = some slot) (hnew : new.wanted = []) :
    (window.flatMap Slot.wanted).Perm
      (slot.wanted ++ (window.set index new).flatMap Slot.wanted) := by
  obtain ⟨hlt, rfl⟩ := List.getElem?_eq_some_iff.1 found
  obtain ⟨before, after, hwindow, -, hset⟩ := @List.exists_of_set _ index new window hlt
  rw [hset]
  nth_rewrite 1 [hwindow]
  simp only [List.flatMap_append, List.flatMap_cons, hnew, List.nil_append]
  exact List.perm_append_comm_assoc ..

theorem accounts_step (hk : k.registry = c.registry) {jobs : List Job} {asked : List String}
    {b b' : Batch} {event : Event} (h : Accounts c jobs asked b)
    (hstep : k.step b event = some b') : ∃ asked, Accounts c jobs asked b' := by
  obtain ⟨hasked, hsettled, hbalance⟩ := h
  cases step_happened hstep with
  | @take job rest pending room =>
    refine ⟨asked, hasked, fun slot hs => ?_, ?_⟩
    · rcases List.mem_append.1 hs with hs | hs
      · exact hsettled slot hs
      · obtain rfl := List.mem_singleton.1 hs
        trivial
    · rw [pending] at hbalance
      simpa [Slot.wanted] using hbalance
  | @resume index now slot found moment =>
    obtain ⟨hafter, hslot, hwanted⟩ :=
      serves_resume hk now hasked (hsettled slot (List.mem_of_getElem? found))
    refine ⟨slot.wanted ++ asked, hafter, fun other hother => ?_, .trans ?_ hbalance⟩
    · rcases List.mem_or_eq_of_mem_set hother with ho | rfl
      · exact (hsettled other ho).mono (List.subset_append_right _ _)
      · exact hslot
    · -- What the entry has just asked for it no longer wants.
      have hset := flatMap_wanted_set found hwanted
      refine List.Perm.append_right _ ?_
      rw [List.append_assoc]
      exact (List.perm_append_comm_assoc ..).trans (hset.symm.append_left asked)
  | @deliver outcome rest front =>
    refine ⟨asked, hasked, fun slot hs => hsettled slot (front ▸ List.mem_cons_of_mem _ hs), ?_⟩
    rw [front] at hbalance
    exact hbalance

theorem Runs.lookups (hk : k.registry = c.registry) {jobs : List Job} {events : List Event}
    {b : Batch} (hrun : Runs k { pending := jobs } events b) (hend : b.IsComplete) :
    b.progress.loaded.lookups = c.lookupsFor (jobs.flatMap wanted) := by
  obtain ⟨asked, hloaded, -, hbalance⟩ :=
    hrun.invariant (I := fun b => ∃ asked, Accounts c jobs asked b) ⟨[], accounts_start c jobs⟩
      fun _ _ _ ⟨_, h⟩ hstep => accounts_step hk h hstep
  obtain ⟨hpending, hwindow⟩ := hend
  rw [hpending, hwindow] at hbalance
  rw [hloaded.lookups]
  exact lookupsFor_perm (by simpa using hbalance)

theorem outcomes_lookups (hk : k.registry = c.registry) {α : Type} {job : α → Job}
    {collection : α → String} (hjob : ∀ a, wanted (job a) = [collection a]) (items : List α) :
    ((k.outcomes (items.map job)).run {}).2.loaded.lookups =
      c.lookupsFor (items.map collection) := by
  obtain ⟨hend, events, hrun⟩ := complete_runs (k := k) { pending := items.map job }
  have hwanted : (items.map job).flatMap wanted = items.map collection := by
    rw [List.flatMap_map, List.map_eq_flatMap]
    exact List.flatMap_congr fun a _ => hjob a
  rw [← hwanted]
  exact hrun.lookups hk hend

/-- A batch takes the look-ups for its distinct known collections and one for every entry whose
collection is not known, in whatever order its entries go on and whether or not they fail. -/
theorem batch_lookups (k : Calculator) (c : Catalog) (hk : k.registry = c.registry) :
    (∀ configurations : List Configuration,
      ((k.series configurations).run {}).2.loaded.lookups =
        c.lookupsFor (configurations.map (·.outer.collection))) ∧
    (∀ indicators : List Indicator,
      ((k.readings none indicators).run {}).2.loaded.lookups =
        c.lookupsFor (indicators.map (·.configuration.outer.collection))) ∧
    (∀ (first last : Timestamp) (indicators : List Indicator), first.le last = true →
      ((k.readings (some (first, last)) indicators).run {}).2.loaded.lookups =
        c.lookupsFor (indicators.map (·.configuration.outer.collection))) ∧
    (∀ (jobs : List Job) (events : List Event) (b : Batch),
      Runs k { pending := jobs } events b → b.IsComplete →
        b.progress.loaded.lookups = c.lookupsFor (jobs.flatMap wanted)) := by
  refine ⟨fun configurations => ?_, fun indicators => ?_, fun first last indicators h => ?_,
    fun jobs events b hrun hend => hrun.lookups hk hend⟩
  · exact outcomes_lookups hk (fun _ => rfl) _
  · exact outcomes_lookups hk (fun _ => rfl) _
  · exact outcomes_lookups hk (fun i => by rw [job_within h]; rfl) indicators

/-- The bookings refer twice to the rooms, and once to a template that is not there. -/
def house : Catalog where
  templates :=
    [⟨"1", "bookings", none, [⟨"stay", [⟨"room", .table, [], some "2"⟩,
        ⟨"earlier", .table, [], some "2"⟩, ⟨"host", .table, [], some "9"⟩]⟩]⟩,
      ⟨"2", "rooms", none, []⟩]

def desk : Calculator := { hotel with registry := house.registry }

def share (collection : String) : Configuration :=
  ⟨⟨collection, .percentage, none, [], [], none, none, none⟩, []⟩

def requests : List Configuration :=
  [counting "ghosts", share "bookings", counting "rooms", counting "bookings", counting "ghosts"]

def listed : List Indicator := requests.map fun c => ⟨c.outer.collection, c.outer.collection, c⟩

theorem lookupsFor_requests : house.lookupsFor (requests.map (·.outer.collection)) = 6 := by
  decide

theorem runs_desk :
    ∃ b, Runs desk { pending := [.ok (share "bookings"), .ok (counting "bookings")] }
        [.take, .take, .resume 1, .resume 0, .resume 1, .resume 0, .resume 0, .deliver, .deliver]
        b ∧ b.IsComplete :=
  ⟨_, .next rfl <| .next rfl <| .next rfl <| .next rfl <| .next rfl <| .next rfl <| .next rfl <|
    .next rfl <| .next rfl <| .refl _, rfl, rfl⟩

theorem batch_lookups_desk :
    desk.registry = house.registry ∧
      ((desk.series requests).run {}).2.loaded.lookups = 6 ∧
      ((desk.readings none listed).run {}).2.loaded.lookups = 6 ∧
      (dawn.le dusk = true ∧
        ((desk.readings (some (dawn, dusk)) listed).run {}).2.loaded.lookups = 6) ∧
      ∃ b, Runs desk { pending := [.ok (share "bookings"), .ok (counting "bookings")] }
          [.take, .take, .resume 1, .resume 0, .resume 1, .resume 0, .resume 0, .deliver,
            .deliver] b ∧
        b.IsComplete ∧ b.progress.loaded.lookups = 3 := by
  obtain ⟨hseries, hreadings, hwithin, hruns⟩ := batch_lookups desk house rfl
  obtain ⟨b, hrun, hend⟩ := runs_desk
  refine ⟨rfl, (hseries _).trans lookupsFor_requests, (hreadings _).trans lookupsFor_requests,
    ⟨rfl, (hwithin _ _ _ rfl).trans lookupsFor_requests⟩, b, hrun, hend, ?_⟩
  exact (hruns _ _ b hrun hend).trans (by decide)

end Calculator

end Indicators.Calculation
