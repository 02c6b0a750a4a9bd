import Indicators.Calculation.Single

set_option autoImplicit false

/-! The entries of a batch share the loaded schemas and run side by side, as many as the settings
allow. Only waiting takes time: when every entry waits, the clock moves to the first moment at which
one goes on. Outcomes leave in the order of the entries. -/

namespace Indicators.Calculation

open Indicators Indicators.Metric Indicators.Plan Indicators.Store

abbrev Job := Except CalculationError Configuration

/-- The query that a calculation is at: its only one, or one of the two of a percentage. -/
inductive Task where
  | only (c : Configuration)
  | share (c : Configuration)
  | whole (c : Configuration) (part : MetricValue)

namespace Task

def first (c : Configuration) : Task :=
  if c.outer.operation = .percentage then share c else only c

def configuration : Task → Configuration
  | only c => c
  | share c => numerator c
  | whole c _ => denominator c

def next : Task → MetricValue → Task ⊕ MetricValue
  | only _, value => .inr value
  | share c, value => .inl (whole c value)
  | whole _ part, value => .inr (percentage part value)

def weight : Task → Nat
  | share _ => 4
  | _ => 2

theorem one_lt_weight (task : Task) : 1 < task.weight := by
  cases task <;> simp [weight]

theorem weight_le (task : Task) : task.weight ≤ 4 := by
  cases task <;> simp [weight]

theorem weight_next {task following : Task} {value : MetricValue}
    (h : task.next value = .inl following) : following.weight < task.weight := by
  cases task with
  | share c =>
    obtain rfl := Sum.inl.inj h
    simp [weight]
  | only c => cases h
  | whole c part => cases h

end Task

inductive Slot where
  | fresh (job : Job)
  /-- The query of a task has been under way since a time. -/
  | waiting (task : Task) (query : Query) (since : Nat)
  | finished (outcome : Outcome)

def Slot.weight : Slot → Nat
  | fresh _ => 6
  | waiting task _ _ => task.weight
  | finished _ => 1

def Slot.weights : List Slot → Nat
  | [] => 0
  | slot :: rest => slot.weight + weights rest

structure Batch where
  pending : List Job
  window : List Slot := []
  delivered : List Outcome := []
  clock : Nat := 0
  progress : Progress := {}

namespace Batch

def weight (b : Batch) : Nat := 7 * b.pending.length + Slot.weights b.window

def IsComplete (b : Batch) : Prop := b.pending = [] ∧ b.window = []

end Batch

inductive Event where
  | take
  | resume (index : Nat)
  | deliver

namespace Calculator

def ask (k : Calculator) (now : Nat) (task : Task) (p : Progress) : Slot × Progress :=
  match (k.compile task.configuration).run.run p with
  | (.ok q, p) => (.waiting task q now, p.sent q)
  | (.error e, p) => (.finished (.error e), p)

def reply (k : Calculator) (q : Query) (since now : Nat) : Outcome :=
  if since + k.store.latencyOf q.collection ≤ now then k.fetch q else .error (k.overdue q)

def resume (k : Calculator) (now : Nat) (slot : Slot) (p : Progress) : Slot × Progress :=
  match slot with
  | .fresh (.ok c) => k.ask now (.first c) p
  | .fresh (.error e) => (.finished (.error e), p)
  | .waiting task q since =>
    match k.reply q since now with
    | .ok value =>
      match task.next value with
      | .inl task => k.ask now task p
      | .inr value => (.finished (.ok value), p)
    | .error e => (.finished (.error e), p)
  | .finished outcome => (.finished outcome, p)

/-- The first moment at which an entry goes on. -/
def due? (k : Calculator) : Slot → Option Nat
  | .fresh _ => some 0
  | .waiting _ q since =>
    some (since + min (k.store.latencyOf q.collection) k.settings.queryTimeoutMs)
  | .finished _ => none

/-- The moment at which an entry goes on if no other one does before. -/
def goesOn? (k : Calculator) (b : Batch) (slot : Slot) : Option Nat :=
  ((k.due? slot).map (max b.clock)).filter fun now =>
    b.window.all fun other => (k.due? other).all fun due => now ≤ max b.clock due

def step (k : Calculator) (b : Batch) : Event → Option Batch
  | .take =>
    match b.pending with
    | [] => none
    | job :: rest =>
      if b.window.length < k.settings.concurrency then
        some { b with pending := rest, window := b.window ++ [.fresh job] }
      else none
  | .resume index => do
    let slot ← b.window[index]?
    let now ← k.goesOn? b slot
    let (slot, progress) := k.resume now slot b.progress
    return { b with window := b.window.set index slot, clock := now, progress }
  | .deliver =>
    match b.window with
    | .finished outcome :: rest =>
      some { b with window := rest, delivered := b.delivered ++ [outcome] }
    | _ => none

/-- What comes next: the window is filled, else its first outcome leaves, else the first entry that
can go on does. -/
def nextEvent (k : Calculator) (b : Batch) : Option Event :=
  if !b.pending.isEmpty && b.window.length < k.settings.concurrency then some .take
  else match b.window with
    | .finished _ :: _ => some .deliver
    | window => (window.findIdx? fun slot => (k.goesOn? b slot).isSome).map .resume

inductive Happened (k : Calculator) (b : Batch) : Event → Batch → Prop where
  | take {job : Job} {rest : List Job} (pending : b.pending = job :: rest)
      (room : b.window.length < k.settings.concurrency) :
      Happened k b .take { b with pending := rest, window := b.window ++ [.fresh job] }
  | resume {index now : Nat} {slot : Slot} (found : b.window[index]? = some slot)
      (moment : k.goesOn? b slot = some now) :
      Happened k b (.resume index)
        { b with
          window := b.window.set index (k.resume now slot b.progress).1
          clock := now
          progress := (k.resume now slot b.progress).2 }
  | deliver {outcome : Outcome} {rest : List Slot} (front : b.window = .finished outcome :: rest) :
      Happened k b .deliver { b with window := rest, delivered := b.delivered ++ [outcome] }

theorem step_happened {k : Calculator} {b b' : Batch} {event : Event}
    (h : k.step b event = some b') : Happened k b event b' := by
  cases event with
  | take =>
    rw [step] at h
    split at h
    · cases h
    · next pending =>
      split at h
      · next room => exact Option.some.inj h ▸ .take pending room
      · cases h
  | resume index =>
    obtain ⟨slot, found, h⟩ := Option.bind_eq_some_iff.1 h
    obtain ⟨now, moment, h⟩ := Option.bind_eq_some_iff.1 h
    exact Option.some.inj h ▸ .resume found moment
  | deliver =>
    rw [step] at h
    split at h
    · next front => exact Option.some.inj h ▸ .deliver front
    · cases h

theorem due_of_goesOn {k : Calculator} {b : Batch} {slot : Slot} {now : Nat}
    (h : k.goesOn? b slot = some now) : ∃ due, k.due? slot = some due ∧ now = max b.clock due := by
  obtain ⟨h, -⟩ := Option.filter_eq_some_iff.1 h
  obtain ⟨due, hdue, he⟩ := Option.map_eq_some_iff.1 h
  exact ⟨due, hdue, he.symm⟩

theorem weight_ask (k : Calculator) (now : Nat) (task : Task) (p : Progress) :
    (k.ask now task p).1.weight ≤ task.weight := by
  rw [ask]
  split
  · exact Nat.le_refl _
  · exact Nat.le_of_lt task.one_lt_weight

theorem weight_resume (k : Calculator) (now : Nat) {slot : Slot} {due : Nat}
    (h : k.due? slot = some due) (p : Progress) :
    (k.resume now slot p).1.weight < slot.weight := by
  cases slot with
  | fresh job =>
    cases job with
    | ok c =>
      have hask := Nat.le_trans (k.weight_ask now (.first c) p) (Task.first c).weight_le
      exact Nat.lt_of_le_of_lt hask (by simp [Slot.weight])
    | error e => simp [resume, Slot.weight]
  | waiting task q since =>
    simp only [resume]
    split
    · split
      · next hnext => exact Nat.lt_of_le_of_lt (k.weight_ask now _ p) (Task.weight_next hnext)
      · exact task.one_lt_weight
    · exact task.one_lt_weight
  | finished outcome => cases h

theorem weights_append_fresh (slots : List Slot) (job : Job) :
    Slot.weights (slots ++ [.fresh job]) = Slot.weights slots + 6 := by
  induction slots with
  | nil => rfl
  | cons slot rest ih => rw [List.cons_append, Slot.weights, ih, Slot.weights, Nat.add_assoc]

theorem weights_set {slots : List Slot} {index : Nat} {old new : Slot}
    (found : slots[index]? = some old) (h : new.weight < old.weight) :
    Slot.weights (slots.set index new) < Slot.weights slots := by
  induction slots generalizing index with
  | nil => cases found
  | cons slot rest ih =>
    cases index with
    | zero =>
      obtain rfl := Option.some.inj found
      exact Nat.add_lt_add_right h _
    | succ index => exact Nat.add_lt_add_left (ih found) _

theorem weight_step {k : Calculator} {b b' : Batch} {event : Event}
    (h : k.step b event = some b') : b'.weight < b.weight := by
  cases step_happened h with
  | take pending room =>
    simp only [Batch.weight, pending, weights_append_fresh, List.length_cons]
    omega
  | resume found moment =>
    obtain ⟨due, hdue, -⟩ := due_of_goesOn moment
    exact Nat.add_lt_add_left (weights_set found (k.weight_resume _ hdue _)) _
  | deliver front =>
    simp only [Batch.weight, front, Slot.weights, Slot.weight]
    omega

def complete (k : Calculator) (b : Batch) : Batch :=
  match _happens : (k.nextEvent b).bind (k.step b) with
  | none => b
  | some b' => k.complete b'
termination_by b.weight
decreasing_by
  obtain ⟨event, -, h⟩ := Option.bind_eq_some_iff.1 _happens
  exact weight_step h

def outcomes (k : Calculator) (jobs : List Job) : StateM Progress (List Outcome) := fun shared =>
  let b := k.complete { pending := jobs, progress := shared }
  (b.delivered, b.progress)

end Calculator

end Indicators.Calculation
