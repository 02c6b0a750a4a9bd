set_option autoImplicit false

/-! Values by name, as a list of pairs. Writing keeps the names in increasing order and without
repetition; look-up takes the first value of a name, so the operations make sense for any list. -/

namespace Indicators

abbrev Directory (α : Type) := List (String × α)

namespace Directory

variable {α : Type}

def lookup (name : String) : Directory α → Option α
  | [] => none
  | (key, value) :: rest => if key = name then some value else lookup name rest

/-- Put a value under a name: in place of the one of that name, or before the first greater
name. -/
def put (name : String) (value : α) : Directory α → Directory α
  | [] => [(name, value)]
  | (key, old) :: rest =>
    if key = name then (name, value) :: rest
    else if name < key then (name, value) :: (key, old) :: rest
    else (key, old) :: put name value rest

def names (directory : Directory α) : List String := directory.map (·.1)

/-- All the given values, for a repeated name the last. -/
def ofList (entries : List (String × α)) : Directory α :=
  entries.foldl (fun built e => built.put e.1 e.2) []

def sorted (names : List String) : List String :=
  (ofList (names.map fun name => (name, ()))).names

theorem lookup_put_self (name : String) (value : α) (directory : Directory α) :
    (directory.put name value).lookup name = some value := by
  induction directory with
  | nil => simp [put, lookup]
  | cons m rest ih =>
    obtain ⟨key, old⟩ := m
    unfold put
    split
    · simp [lookup]
    · split
      · simp [lookup]
      · simp [lookup, *]

theorem lookup_put_of_ne {name other : String} (h : other ≠ name) (value : α)
    (directory : Directory α) :
    (directory.put name value).lookup other = directory.lookup other := by
  induction directory with
  | nil => simp [put, lookup, Ne.symm h]
  | cons m rest ih =>
    obtain ⟨key, old⟩ := m
    unfold put
    split
    · next hk => simp [lookup, hk, Ne.symm h]
    · split
      · simp [lookup, Ne.symm h]
      · simp [lookup, ih]

theorem put_put (name : String) (first second : α) (directory : Directory α) :
    (directory.put name first).put name second = directory.put name second := by
  induction directory with
  | nil => simp [put]
  | cons m rest ih =>
    obtain ⟨key, old⟩ := m
    by_cases same : key = name
    · simp [put, same]
    · by_cases below : name < key <;> simp [put, same, below, ih]

end Directory

end Indicators
