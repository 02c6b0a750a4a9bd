import Indicators.Schema.Registry

set_option autoImplicit false

/-! Loading finds the schema that the registry has, with whatever has been loaded from it before,
and what is loaded stays true to the registry. -/

namespace Indicators

section Gives

variable {ε σ α β : Type} {I : σ → Prop}

/-- From every state of an invariant a computation has this result and keeps the invariant. -/
def Gives (I : σ → Prop) (x : ExceptT ε (StateM σ) α) (result : Except ε α) : Prop :=
  ∀ s, I s → (x.run.run s).1 = result ∧ I (x.run.run s).2

theorem Gives.pure (a : α) : Gives I (ε := ε) (Pure.pure a) (.ok a) :=
  fun _ hs => ⟨rfl, hs⟩

theorem Gives.throw (e : ε) : Gives I (α := α) (MonadExcept.throw e) (.error e) :=
  fun _ hs => ⟨rfl, hs⟩

theorem Gives.modify {f : σ → σ} (h : ∀ s, I s → I (f s)) :
    Gives I (ε := ε) (modify f) (.ok PUnit.unit) :=
  fun s hs => ⟨rfl, h s hs⟩

theorem run_bind (x : ExceptT ε (StateM σ) α) (f : α → ExceptT ε (StateM σ) β) (s : σ) :
    (x >>= f).run.run s =
      match x.run.run s with
      | (.ok a, s) => (f a).run.run s
      | (.error e, s) => (.error e, s) := by
  rw [ExceptT.run_bind, StateT.run_bind]
  obtain ⟨a | e, _⟩ := x.run.run s <;> rfl

theorem run_get (s : σ) : (get : ExceptT ε (StateM σ) σ).run.run s = (.ok s, s) := rfl

theorem Gives.bind {x : ExceptT ε (StateM σ) α} {f : α → ExceptT ε (StateM σ) β}
    {result : Except ε α} {g : α → Except ε β} (hx : Gives I x result)
    (hf : ∀ a, result = .ok a → Gives I (f a) (g a)) : Gives I (x >>= f) (result >>= g) := by
  intro s hs
  obtain ⟨hr, hi⟩ := hx s hs
  rw [run_bind]
  cases hrun : x.run.run s with
  | mk r s' =>
    rw [hrun] at hr hi
    subst hr
    cases r with
    | ok a => exact hf a rfl s' hi
    | error e => exact ⟨rfl, hi⟩

end Gives

end Indicators

namespace Indicators.Schema

open Indicators.Store

def Registry.targets (r : Registry) : List String → Except LoadError (Directory JoinTarget)
  | [] => return []
  | id :: rest => do
    let found ← (r.byId id).mapError .unreadable
    let targets ← r.targets rest
    return match found with
      | some template => targets.put id template.target
      | none => targets

def Registry.schema (r : Registry) (collection : String) : Except LoadError Schema := do
  match ← (r.byName collection).mapError .unreadable with
  | none => throw (.templateNotFound collection)
  | some template =>
    let targets ← r.targets (references template.sections)
    return ⟨template, resolve template.sections targets⟩

/-- What is loaded is what the registry has. -/
def Loaded.Faithful (r : Registry) (l : Loaded) : Prop :=
  ∀ collection schema, l.schemas.lookup collection = some schema →
    r.schema collection = .ok schema

theorem faithful_empty (r : Registry) : Loaded.Faithful r {} := by
  intro collection schema h
  cases h

theorem Loaded.Faithful.keep {r : Registry} {l : Loaded} (h : l.Faithful r) {collection : String}
    {schema : Schema} (hs : r.schema collection = .ok schema) :
    (l.keep collection schema).Faithful r := by
  intro other found hl
  unfold Loaded.keep at hl
  split at hl
  · exact h other found hl
  · by_cases ho : other = collection
    · subst ho
      rw [Directory.lookup_put_self] at hl
      exact Option.some.inj hl ▸ hs
    · rw [Directory.lookup_put_of_ne ho] at hl
      exact h other found hl

theorem gives_answered {r : Registry} {α : Type} (answer : Except AccessError α) :
    Gives (Loaded.Faithful r) (answered answer) (answer.mapError .unreadable) := by
  cases answer with
  | ok value => exact (Gives.modify fun _ h => h).bind fun _ _ => .pure value
  | error e => exact .throw _

theorem gives_loadTargets (r : Registry) (ids : List String) :
    Gives (Loaded.Faithful r) (loadTargets r ids) (r.targets ids) := by
  induction ids with
  | nil => exact .pure []
  | cons id rest ih =>
    exact (gives_answered _).bind fun found _ => ih.bind fun targets _ => .pure _

theorem gives_loadAnew (r : Registry) (collection : String) :
    Gives (Loaded.Faithful r) (loadAnew r collection) (r.schema collection) := by
  refine (gives_answered _).bind fun found hfound => ?_
  cases found with
  | none => exact .throw _
  | some template =>
    refine (gives_loadTargets r _).bind fun targets htargets => ?_
    have hschema : r.schema collection = .ok ⟨template, resolve template.sections targets⟩ := by
      rw [Registry.schema, hfound]
      change (do
        let targets ← r.targets (references template.sections)
        return (⟨template, resolve template.sections targets⟩ : Schema)) = _
      rw [htargets]
      rfl
    exact (Gives.modify fun l h => h.keep hschema).bind fun _ _ => .pure _

theorem run_load_kept (r : Registry) {collection : String} {l : Loaded} {schema : Schema}
    (found : l.schemas.lookup collection = some schema) :
    (load r collection).run.run l = (.ok schema, l) := by
  simp only [load, run_bind, run_get, found]
  rfl

theorem run_load_new (r : Registry) {collection : String} {l : Loaded}
    (new : l.schemas.lookup collection = none) :
    (load r collection).run.run l = (loadAnew r collection).run.run l := by
  simp only [load, run_bind, run_get, new]

theorem gives_load (r : Registry) (collection : String) :
    Gives (Loaded.Faithful r) (load r collection) (r.schema collection) := by
  intro l h
  cases found : l.schemas.lookup collection with
  | some schema =>
    -- What is found is the registry's own, because what is loaded is faithful.
    rw [run_load_kept r found]
    exact ⟨(h collection schema found).symm, h⟩
  | none =>
    rw [run_load_new r found]
    exact gives_loadAnew r collection l h

end Indicators.Schema
