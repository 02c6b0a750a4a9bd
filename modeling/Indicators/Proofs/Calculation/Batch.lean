import Indicators.Calculation.Calculator
import Indicators.Proofs.Calculation.Alone
import Indicators.Proofs.Calculation.Values

set_option autoImplicit false

/-! Each entry of a batch has a prospect, the outcome that its configuration has alone. No event
changes a prospect: the shared schemas are those of the registry, and the clock never passes the
moment at which a waiting entry is due. -/

namespace Indicators.Calculation.Calculator

open Indicators Indicators.Calendar Indicators.Metric Indicators.Plan Indicators.Schema

inductive Runs (k : Calculator) : Batch → List Event → Batch → Prop where
  | refl (b : Batch) : Runs k b [] b
  | next {b u b' : Batch} {event : Event} {events : List Event} (h : k.step b event = some u)
      (tail : Runs k u events b') : Runs k b (event :: events) b'

variable {k : Calculator}

theorem Runs.invariant {I : Batch → Prop} {b b' : Batch} {events : List Event}
    (hrun : Runs k b events b') (hb : I b)
    (hstep : ∀ b event b', I b → k.step b event = some b' → I b') : I b' := by
  induction hrun with
  | refl b => exact hb
  | next h _ ih => exact ih (hstep _ _ _ hb h)

def jobOutcome (k : Calculator) (job : Job) : Outcome := job.bind k.alone

def continued (k : Calculator) (task : Task) (value : MetricValue) : Outcome :=
  match task.next value with
  | .inl following => k.outcome following
  | .inr value => .ok value

/-- What an entry is going to come to. -/
def prospect (k : Calculator) : Slot → Outcome
  | .fresh job => k.jobOutcome job
  | .waiting task q _ => (k.answer q).bind (k.continued task)
  | .finished outcome => outcome

def Punctual (k : Calculator) (clock : Nat) : Slot → Prop
  | .waiting _ q since =>
    clock ≤ since + min (k.store.latencyOf q.collection) k.settings.queryTimeoutMs
  | _ => True

theorem outcome_eq (task : Task) :
    k.outcome task = (k.queried task.configuration).bind (k.continued task) := by
  cases task with
  | only c => exact (bind_pure (k.queried c)).symm
  | share c => rfl
  | whole c part => rfl

theorem reply_due (q : Query) (since : Nat) :
    k.reply q since (since + min (k.store.latencyOf q.collection) k.settings.queryTimeoutMs) =
      k.answer q := by
  unfold reply answer
  by_cases h : k.settings.queryTimeoutMs < k.store.latencyOf q.collection
  · rw [if_pos h, if_neg (by omega)]
  · rw [if_neg h, if_pos (by omega)]

structure Upholds (k : Calculator) (now : Nat) (expected : Outcome) (r : Slot × Progress) : Prop where
  prospect : k.prospect r.1 = expected
  punctual : k.Punctual now r.1
  faithful : k.Faithful r.2

theorem upholds_finished {now : Nat} {outcome : Outcome} {p : Progress} (h : k.Faithful p) :
    Upholds k now outcome (.finished outcome, p) :=
  ⟨rfl, trivial, h⟩

theorem upholds_ask (now : Nat) (task : Task) {p : Progress} (h : k.Faithful p) :
    Upholds k now (k.outcome task) (k.ask now task p) := by
  obtain ⟨hq, hp⟩ := gives_compile task.configuration p h
  rw [outcome_eq, queried, ask]
  cases hrun : (k.compile task.configuration).run.run p with
  | mk result p' =>
    rw [hrun] at hq hp
    rw [← hq]
    cases result with
    | ok q => exact ⟨rfl, Nat.le_add_right _ _, hp⟩
    | error e => exact upholds_finished hp

theorem upholds_resume {clock due : Nat} {slot : Slot} {p : Progress} (h : k.Faithful p)
    (hdue : k.due? slot = some due) (hpunctual : k.Punctual clock slot) :
    Upholds k (max clock due) (k.prospect slot) (k.resume (max clock due) slot p) := by
  cases slot with
  | fresh job =>
    cases job with
    | ok c =>
      have hc : k.prospect (.fresh (.ok c)) = k.outcome (.first c) := alone_eq c
      rw [hc]
      exact upholds_ask _ _ h
    | error e => exact upholds_finished h
  | waiting task q since =>
    -- The entry goes on at the very moment it is due, so no late answer passes for one in time.
    obtain rfl := Option.some.inj hdue
    rw [Nat.max_eq_right hpunctual, resume, reply_due, prospect]
    cases k.answer q with
    | error e => exact upholds_finished h
    | ok value =>
      change Upholds k _ (k.continued task value) (match task.next value with
        | .inl following => k.ask _ following p
        | .inr value => (.finished (.ok value), p))
      unfold continued
      cases task.next value with
      | inl following => exact upholds_ask _ _ h
      | inr value => exact upholds_finished h
  | finished outcome => cases hdue

/-- A batch is on the way to the outcomes that the jobs have by themselves. -/
structure Tracks (k : Calculator) (jobs : List Job) (b : Batch) : Prop where
  faithful : k.Faithful b.progress
  punctual : ∀ slot ∈ b.window, k.Punctual b.clock slot
  prospects : b.delivered ++ b.window.map k.prospect ++ b.pending.map k.jobOutcome =
    jobs.map k.jobOutcome

theorem tracks_start {p : Progress} (h : k.Faithful p) (jobs : List Job) :
    Tracks k jobs { pending := jobs, progress := p } :=
  ⟨h, fun _ hs => absurd hs List.not_mem_nil, rfl⟩

theorem punctual_of_goesOn {b : Batch} {slot other : Slot} {now : Nat}
    (h : k.goesOn? b slot = some now) (hother : other ∈ b.window)
    (hpunctual : k.Punctual b.clock other) : k.Punctual now other := by
  obtain ⟨-, hall⟩ := Option.filter_eq_some_iff.1 h
  have hdue := List.all_eq_true.1 hall other hother
  cases other with
  | fresh job => trivial
  | waiting task q since =>
    have hle := of_decide_eq_true hdue
    exact Nat.le_trans hle (Nat.max_le.2 ⟨hpunctual, Nat.le_refl _⟩)
  | finished outcome => trivial

theorem tracks_step {jobs : List Job} {b b' : Batch} {event : Event} (h : Tracks k jobs b)
    (hstep : k.step b event = some b') : Tracks k jobs b' := by
  obtain ⟨hfaithful, hpunctual, hprospects⟩ := h
  cases step_happened hstep with
  | @take job rest pending room =>
    refine ⟨hfaithful, fun slot hs => ?_, ?_⟩
    · rcases List.mem_append.1 hs with hs | hs
      · exact hpunctual slot hs
      · obtain rfl := List.mem_singleton.1 hs
        trivial
    · rw [pending] at hprospects
      rw [← hprospects, List.map_append, ← List.append_assoc, List.append_assoc]
      rfl
  | @resume index now slot found moment =>
    obtain ⟨due, hdue, rfl⟩ := due_of_goesOn moment
    have hmem := List.mem_of_getElem? found
    obtain ⟨hp, hslot, hf⟩ := upholds_resume hfaithful hdue (hpunctual slot hmem)
    refine ⟨hf, fun other hother => ?_, ?_⟩
    · rcases List.mem_or_eq_of_mem_set hother with ho | rfl
      · exact punctual_of_goesOn moment ho (hpunctual other ho)
      · exact hslot
    · -- The slot changes, its prospect does not.
      obtain ⟨_, rfl⟩ := List.getElem?_eq_some_iff.1 found
      rw [← hprospects, List.map_set, hp, ← List.map_set, List.set_getElem_self]
  | @deliver outcome rest front =>
    refine ⟨hfaithful, fun slot hs => hpunctual slot (front ▸ List.mem_cons_of_mem _ hs), ?_⟩
    rw [front] at hprospects
    rw [← hprospects, List.append_assoc b.delivered]
    rfl

theorem Runs.delivered {p : Progress} (h : k.Faithful p) {jobs : List Job} {events : List Event}
    {b : Batch} (hrun : Runs k { pending := jobs, progress := p } events b)
    (hend : b.IsComplete) : b.delivered = jobs.map k.jobOutcome := by
  have htracks := hrun.invariant (tracks_start h jobs) fun _ _ _ => tracks_step
  obtain ⟨hpending, hwindow⟩ := hend
  have hp := htracks.prospects
  rw [hpending, hwindow] at hp
  simpa using hp

theorem due_isSome_of_not_finished {slot : Slot} (h : ∀ outcome, slot ≠ .finished outcome) :
    (k.due? slot).isSome = true := by
  cases slot with
  | finished outcome => exact absurd rfl (h outcome)
  | fresh job => rfl
  | waiting task q since => rfl

theorem exists_goesOn {b : Batch} {slot : Slot} (hs : slot ∈ b.window)
    (hdue : (k.due? slot).isSome = true) :
    ∃ first ∈ b.window, (k.goesOn? b first).isSome = true := by
  obtain ⟨due, hdue⟩ := Option.isSome_iff_exists.1 hdue
  -- The entry with the least of all moments.
  have hmem : max b.clock due ∈ b.window.filterMap fun s => (k.due? s).map (max b.clock) :=
    List.mem_filterMap.2 ⟨slot, hs, by rw [hdue]; rfl⟩
  obtain ⟨now, hnow⟩ := Option.isSome_iff_exists.1 (List.isSome_min?_of_mem hmem)
  obtain ⟨hmin, hle⟩ := List.min?_eq_some_iff.1 hnow
  obtain ⟨first, hfirst, hmoment⟩ := List.mem_filterMap.1 hmin
  refine ⟨first, hfirst, Option.isSome_iff_exists.2 ⟨now, ?_⟩⟩
  refine Option.filter_eq_some_iff.2 ⟨hmoment, List.all_eq_true.2 fun other ho => ?_⟩
  cases hother : k.due? other with
  | none => rfl
  | some due =>
    exact decide_eq_true (hle _ (List.mem_filterMap.2 ⟨other, ho, by rw [hother]; rfl⟩))

theorem step_resume_isSome {b : Batch} {index : Nat}
    (h : (b.window.findIdx? fun slot => (k.goesOn? b slot).isSome) = some index) :
    (k.step b (.resume index)).isSome = true := by
  obtain ⟨hlt, hgoes, -⟩ := List.findIdx?_eq_some_iff_getElem.1 h
  obtain ⟨now, hnow⟩ := Option.isSome_iff_exists.1 hgoes
  simp only [step, List.getElem?_eq_getElem hlt, Option.bind_eq_bind, Option.bind_some, hnow,
    Option.pure_def, Option.isSome_some]

theorem nextEvent_resume {b : Batch} {slot : Slot} {rest : List Slot}
    (hfull : ¬ (!b.pending.isEmpty && b.window.length < k.settings.concurrency) = true)
    (hw : b.window = slot :: rest) (hunfinished : ∀ outcome, slot ≠ .finished outcome) :
    ∃ index, (b.window.findIdx? fun slot => (k.goesOn? b slot).isSome) = some index ∧
      k.nextEvent b = some (.resume index) := by
  have hmem : slot ∈ b.window := hw ▸ List.mem_cons_self
  obtain ⟨first, hfirst, hgoes⟩ := exists_goesOn hmem (due_isSome_of_not_finished hunfinished)
  have hsome : (b.window.findIdx? fun slot => (k.goesOn? b slot).isSome).isSome = true := by
    rw [List.findIdx?_isSome]
    exact List.any_eq_true.2 ⟨first, hfirst, hgoes⟩
  obtain ⟨index, hindex⟩ := Option.isSome_iff_exists.1 hsome
  refine ⟨index, hindex, ?_⟩
  rw [nextEvent, if_neg hfull]
  rw [hw] at hindex ⊢
  cases slot with
  | finished outcome => exact absurd rfl (hunfinished outcome)
  | fresh job => exact congrArg (Option.map Event.resume) hindex
  | waiting task q since => exact congrArg (Option.map Event.resume) hindex

theorem isComplete_of_stuck {b : Batch} (h : (k.nextEvent b).bind (k.step b) = none) :
    b.IsComplete := by
  have hroom : 0 < k.settings.concurrency := Nat.le_max_right _ 1
  by_cases hfill : (!b.pending.isEmpty && b.window.length < k.settings.concurrency) = true
  · rw [nextEvent, if_pos hfill, Option.bind_some, step] at h
    obtain ⟨hpending, hlen⟩ := Bool.and_eq_true_iff.1 hfill
    cases hp : b.pending with
    | nil =>
      rw [hp] at hpending
      cases hpending
    | cons job rest =>
      rw [hp] at h
      exact absurd h (by simp [of_decide_eq_true hlen])
  · cases hw : b.window with
    | nil =>
      -- An empty window has room, so nothing is pending.
      refine ⟨List.isEmpty_iff.1 ?_, hw⟩
      rw [hw, List.length_nil, decide_eq_true hroom] at hfill
      simpa using hfill
    | cons slot rest =>
      exfalso
      by_cases hfinished : ∃ outcome, slot = .finished outcome
      · obtain ⟨outcome, rfl⟩ := hfinished
        rw [nextEvent, if_neg hfill, hw, Option.bind_some, step, hw] at h
        cases h
      · obtain ⟨index, hindex, hevent⟩ :=
          nextEvent_resume hfill hw fun outcome he => hfinished ⟨outcome, he⟩
        have hsome := step_resume_isSome hindex
        rw [hevent, Option.bind_some] at h
        rw [h] at hsome
        cases hsome

theorem complete_runs (b : Batch) :
    (k.complete b).IsComplete ∧ ∃ events, Runs k b events (k.complete b) := by
  fun_induction complete k b with
  | case1 b hstuck => exact ⟨isComplete_of_stuck hstuck, [], .refl b⟩
  | case2 b b' hnext ih =>
    obtain ⟨event, -, hstep⟩ := Option.bind_eq_some_iff.1 hnext
    obtain ⟨hend, events, hrun⟩ := ih
    exact ⟨hend, event :: events, .next hstep hrun⟩

theorem outcomes_eq {p : Progress} (h : k.Faithful p) (jobs : List Job) :
    ((k.outcomes jobs).run p).1 = jobs.map k.jobOutcome := by
  obtain ⟨hend, events, hrun⟩ := complete_runs (k := k) { pending := jobs, progress := p }
  exact hrun.delivered h hend

structure Refused (p : Progress) (b : Batch) : Prop where
  pending : ∀ job ∈ b.pending, ∃ e, job = .error e
  window : ∀ slot ∈ b.window, (∃ e, slot = .fresh (.error e)) ∨ ∃ outcome, slot = .finished outcome
  progress : b.progress = p

theorem refused_step {p : Progress} {b b' : Batch} {event : Event} (h : Refused p b)
    (hstep : k.step b event = some b') : Refused p b' := by
  obtain ⟨hpending, hwindow, hprogress⟩ := h
  cases step_happened hstep with
  | @take job rest pending room =>
    rw [pending] at hpending
    obtain ⟨e, rfl⟩ := hpending job List.mem_cons_self
    refine ⟨fun job hj => hpending job (List.mem_cons_of_mem _ hj), fun slot hs => ?_, hprogress⟩
    rcases List.mem_append.1 hs with hs | hs
    · exact hwindow slot hs
    · exact .inl ⟨e, List.mem_singleton.1 hs⟩
  | @resume index now slot found moment =>
    obtain ⟨outcome, hresume⟩ :
        ∃ outcome, k.resume now slot b.progress = (.finished outcome, b.progress) := by
      rcases hwindow slot (List.mem_of_getElem? found) with ⟨e, rfl⟩ | ⟨outcome, rfl⟩
      · exact ⟨.error e, rfl⟩
      · exact ⟨outcome, rfl⟩
    rw [hresume]
    refine ⟨hpending, fun other ho => ?_, hprogress⟩
    rcases List.mem_or_eq_of_mem_set ho with ho | rfl
    · exact hwindow other ho
    · exact .inr ⟨outcome, rfl⟩
  | @deliver outcome rest front =>
    exact ⟨hpending, fun slot hs => hwindow slot (front ▸ List.mem_cons_of_mem _ hs), hprogress⟩

theorem outcomes_refused {jobs : List Job} (h : ∀ job ∈ jobs, ∃ e, job = .error e)
    (p : Progress) : ((k.outcomes jobs).run p).2 = p := by
  obtain ⟨-, events, hrun⟩ := complete_runs (k := k) { pending := jobs, progress := p }
  have hstart : Refused p { pending := jobs, progress := p } :=
    ⟨h, fun _ hs => absurd hs List.not_mem_nil, rfl⟩
  exact (hrun.invariant hstart fun _ _ _ => refused_step).progress

def shown : Outcome → MetricValue
  | .ok value => value
  | .error _ => .zero

def failure? : Outcome → Option CalculationError
  | .ok _ => none
  | .error e => some e

theorem point_eq (c : Configuration) (outcome : Outcome) :
    point c outcome = ⟨c.outer.displayLabel, shown outcome⟩ := by
  cases outcome <;> rfl

theorem reading_eq (i : Indicator) (outcome : Outcome) :
    reading i outcome = ⟨i.id, i.name, shown outcome, failure? outcome⟩ := by
  cases outcome <;> rfl

theorem run_series (configurations : List Configuration) :
    ((k.series configurations).run {}).1 =
      configurations.map fun c => ⟨c.outer.displayLabel, shown (k.alone c)⟩ := by
  change List.zipWith point configurations ((k.outcomes (configurations.map .ok)).run {}).1 = _
  rw [outcomes_eq faithful_empty, List.map_map, List.zipWith_map_right, List.zipWith_self]
  exact List.map_congr_left fun c _ => point_eq c _

theorem run_readings (bounds : Option (Timestamp × Timestamp)) (indicators : List Indicator) :
    ((k.readings bounds indicators).run {}).1 =
      indicators.map fun i => ⟨i.id, i.name, shown (k.jobOutcome (job bounds i)),
        failure? (k.jobOutcome (job bounds i))⟩ := by
  change List.zipWith reading indicators
    ((k.outcomes (indicators.map (job bounds))).run {}).1 = _
  rw [outcomes_eq faithful_empty, List.map_map, List.zipWith_map_right, List.zipWith_self]
  exact List.map_congr_left fun i _ => reading_eq i _

theorem job_within {first last : Timestamp} (h : first.le last = true) (i : Indicator) :
    job (some (first, last)) i = .ok (i.configuration.withDateBounds first last) := by
  simp only [job, invertedBounds, h, if_true]

theorem job_inverted {first last : Timestamp} (h : first.le last = false) (i : Indicator) :
    job (some (first, last)) i =
      .error (.invalidConfiguration (.invertedDateRange first.write last.write)) := by
  simp only [job, invertedBounds, h, Bool.false_eq_true, if_false]

/-- The entries of a batch come out in order, each as its configuration does alone, in whatever
order they go on. Under an inverted range no entry is calculated. -/
theorem batch_isolated (k : Calculator) :
    (∀ configurations : List Configuration,
      ((k.series configurations).run {}).1 =
        configurations.map fun c => ⟨c.outer.displayLabel, shown (k.alone c)⟩) ∧
    (∀ indicators : List Indicator,
      ((k.readings none indicators).run {}).1 =
        indicators.map fun i =>
          ⟨i.id, i.name, shown (k.alone i.configuration), failure? (k.alone i.configuration)⟩) ∧
    (∀ (first last : Timestamp) (indicators : List Indicator), first.le last = true →
      ((k.readings (some (first, last)) indicators).run {}).1 =
        indicators.map fun i =>
          ⟨i.id, i.name, shown (k.alone (i.configuration.withDateBounds first last)),
            failure? (k.alone (i.configuration.withDateBounds first last))⟩) ∧
    (∀ (first last : Timestamp) (indicators : List Indicator), first.le last = false →
      ((k.readings (some (first, last)) indicators).run {}).1 =
          indicators.map (fun i => ⟨i.id, i.name, .zero,
            some (.invalidConfiguration (.invertedDateRange first.write last.write))⟩) ∧
        ((k.readings (some (first, last)) indicators).run {}).2.queries = []) ∧
    (∀ (jobs : List Job) (events : List Event) (b : Batch),
      Runs k { pending := jobs } events b → b.IsComplete →
        b.delivered = jobs.map fun job => job.bind k.alone) := by
  refine ⟨run_series, run_readings none, fun first last indicators h => ?_,
    fun first last indicators h => ?_, fun jobs events b hrun hend => ?_⟩
  · rw [run_readings]
    exact List.map_congr_left fun i _ => by rw [job_within h]; rfl
  · refine ⟨?_, ?_⟩
    · rw [run_readings]
      exact List.map_congr_left fun i _ => by rw [job_inverted h]; rfl
    · refine congrArg Progress.queries (outcomes_refused (fun job hj => ?_) {})
      obtain ⟨i, -, rfl⟩ := List.mem_map.1 hj
      exact ⟨_, job_inverted h i⟩
  · exact hrun.delivered faithful_empty hend

def hotel : Calculator where
  registry := ⟨⟨[⟨"1", "guests", none, []⟩, ⟨"2", "rooms", none, []⟩]⟩, []⟩
  store :=
    { collections := [("guests", [.object [("_id", .string "a")], .object [("_id", .string "b")]])]
      slow := [("rooms", 500)] }
  settings := { queryTimeoutMs := 50 }

def counting (collection : String) : Configuration :=
  ⟨⟨collection, .count, none, [], [], none, none, none⟩, []⟩

def listing : List Indicator :=
  [⟨"r", "Rooms", counting "rooms"⟩, ⟨"g", "Guests", counting "guests"⟩]

def dawn : Timestamp := ⟨0, 0, by decide⟩

def dusk : Timestamp := ⟨43200, 0, by decide⟩

theorem alone_rooms : hotel.alone (counting "rooms") = .error (.timeout "rooms" 50) := by rfl

theorem alone_ghosts : hotel.alone (counting "ghosts") = .error (.templateNotFound "ghosts") := by
  rfl

theorem alone_guests : hotel.alone (counting "guests") = .ok (.int 2) := by
  have hq : hotel.planned (counting "guests") = .ok ⟨"guests",
      (Outline.ofConfiguration (counting "guests")).rollup (layoutOf [] []) 0 .count⟩ := by rfl
  have ha : hotel.queried (counting "guests") = hotel.answer ⟨"guests",
      (Outline.ofConfiguration (counting "guests")).rollup (layoutOf [] []) 0 .count⟩ := by
    rw [queried, hq]
    rfl
  rw [alone_eq]
  change hotel.queried (counting "guests") = _
  rw [ha, answer, if_neg (by decide), fetch, Indicators.MemoryStore.aggregate, if_neg (by decide)]
  exact congrArg Except.ok (resultOf_count _ _ _ _)

theorem runs_hotel :
    ∃ b, Runs hotel { pending := [.ok (counting "rooms"), .ok (counting "guests")] }
        [.take, .take, .resume 0, .resume 1, .resume 1, .resume 0, .deliver, .deliver] b ∧
      b.IsComplete :=
  ⟨_, .next rfl <| .next rfl <| .next rfl <| .next rfl <| .next rfl <| .next rfl <| .next rfl <|
    .next rfl <| .refl _, rfl, rfl⟩

theorem batch_isolated_hotel :
    ((hotel.series [counting "rooms", counting "guests", counting "ghosts"]).run {}).1 =
        [⟨"rooms", .zero⟩, ⟨"guests", .int 2⟩, ⟨"ghosts", .zero⟩] ∧
      (dawn.le dusk = true ∧ ((hotel.readings (some (dawn, dusk)) listing).run {}).1 =
        [⟨"r", "Rooms", .zero, some (.timeout "rooms" 50)⟩, ⟨"g", "Guests", .int 2, none⟩]) ∧
      (dusk.le dawn = false ∧
        ((hotel.readings (some (dusk, dawn)) listing).run {}).2.queries = []) ∧
      ∃ b, Runs hotel { pending := [.ok (counting "rooms"), .ok (counting "guests")] }
          [.take, .take, .resume 0, .resume 1, .resume 1, .resume 0, .deliver, .deliver] b ∧
        b.IsComplete ∧ b.delivered = [.error (.timeout "rooms" 50), .ok (.int 2)] := by
  obtain ⟨hseries, -, hwithin, hinverted, hruns⟩ := batch_isolated hotel
  obtain ⟨b, hrun, hend⟩ := runs_hotel
  refine ⟨?_, ⟨rfl, ?_⟩, ⟨rfl, (hinverted _ _ _ rfl).2⟩, b, hrun, hend, ?_⟩
  · rw [hseries, List.map_cons, List.map_cons, List.map_cons, alone_rooms, alone_guests,
      alone_ghosts]
    rfl
  · rw [hwithin _ _ _ rfl]
    change [Reading.mk "r" "Rooms" (shown (hotel.alone (counting "rooms")))
        (failure? (hotel.alone (counting "rooms"))),
      Reading.mk "g" "Guests" (shown (hotel.alone (counting "guests")))
        (failure? (hotel.alone (counting "guests")))] = _
    rw [alone_rooms, alone_guests]
    rfl
  · rw [hruns _ _ b hrun hend]
    change [hotel.alone (counting "rooms"), hotel.alone (counting "guests")] = _
    rw [alone_rooms, alone_guests]

end Indicators.Calculation.Calculator
