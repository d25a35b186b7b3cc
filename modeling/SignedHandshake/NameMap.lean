import SignedHandshake.Attempt
import SignedHandshake.Text.Basic

/-!
# Values by name (specification §5)

Engines and key factories are made once for each name and then used again. A `NameMap` holds the
ones there are.

- `NameMap.obtain`: the value under a name. It is made only if there is none yet, and kept only if
  making it succeeded.
- `NameMap.clear`: an empty map again. Nothing else ever takes a value away.
-/

namespace SignedHandshake

/-- Values by name, in the order in which their names first came up. -/
structure NameMap (α : Type) where
  entries : List (Text × α) := []

namespace NameMap

variable {α σ : Type}

/-- Nothing yet. -/
def empty : NameMap α := {}

instance : Inhabited (NameMap α) := ⟨empty⟩

/-- The value under a name. -/
def find? (map : NameMap α) (name : Text) : Option α :=
  map.entries.lookup name

/-- Whether there is a value under a name. -/
def contains (map : NameMap α) (name : Text) : Bool :=
  (map.find? name).isSome

/-- How many values there are. -/
def size (map : NameMap α) : Nat :=
  map.entries.length

/-- Replace the value under a name in a list, or add it behind all others. -/
def insertEntry (name : Text) (value : α) : List (Text × α) → List (Text × α)
  | [] => [(name, value)]
  | entry :: rest =>
    if entry.1 == name then (name, value) :: rest else entry :: insertEntry name value rest

/-- Keep a value under a name. -/
def insert (map : NameMap α) (name : Text) (value : α) : NameMap α :=
  { entries := insertEntry name value map.entries }

theorem lookup_insertEntry (name other : Text) (value : α) (entries : List (Text × α)) :
    (insertEntry name value entries).lookup other =
      if other = name then some value else entries.lookup other := by
  induction entries with
  | nil =>
    by_cases h : other = name
    · simp [insertEntry, h]
    · simp [insertEntry, List.lookup_cons, beq_false_of_ne h, h]
  | cons entry rest ih =>
    obtain ⟨key, held⟩ := entry
    by_cases hentry : key = name
    · -- the entry under `name` is replaced in its place
      by_cases h : other = name
      · simp [insertEntry, hentry, h]
      · simp [insertEntry, hentry, List.lookup_cons, beq_false_of_ne h, h]
    · by_cases hother : other = key
      · have h : other ≠ name := hother ▸ hentry
        simp [insertEntry, hentry, hother]
      · simp [insertEntry, hentry, List.lookup_cons, beq_false_of_ne hother, ih]

/-- A value is found under the name it was kept under, and nothing else changes. -/
theorem find?_insert (map : NameMap α) (name other : Text) (value : α) :
    (map.insert name value).find? other = if other = name then some value else map.find? other :=
  lookup_insertEntry name other value map.entries

@[simp] theorem find?_insert_self (map : NameMap α) (name : Text) (value : α) :
    (map.insert name value).find? name = some value := by
  simp [find?_insert]

theorem find?_insert_of_ne {name other : Text} (h : other ≠ name) (map : NameMap α) (value : α) :
    (map.insert name value).find? other = map.find? other := by
  simp [find?_insert, h]

@[simp] theorem find?_empty (name : Text) : (empty : NameMap α).find? name = none := rfl

/-- The value under a name, made first if there is none. -/
def obtain (make : Text → Attempt σ α) (name : Text) : Attempt (NameMap α × σ) α :=
  fun (map, state) =>
    match map.find? name with
    | some found => .ok found (map, state)
    | none =>
      match make name state with
      | .ok made state => .ok made (map.insert name made, state)
      | .error e state => .error e (map, state)

/-- What is there already is not made again. -/
theorem obtain_of_find? {make : Text → Attempt σ α} {map : NameMap α} {name : Text} {found : α}
    (h : map.find? name = some found) (state : σ) :
    obtain make name (map, state) = .ok found (map, state) := by
  simp [obtain, h]

/-- Drop all values. -/
def clear (_ : NameMap α) : NameMap α := empty

end NameMap

end SignedHandshake
