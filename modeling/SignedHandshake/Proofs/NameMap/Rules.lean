import Mathlib.Data.List.Forall2
import Mathlib.Data.List.Nodup
import SignedHandshake.NameMap
import SignedHandshake.Proofs.Attempt.Matching

/-!
# Rules for values by name

What obtaining a value may come to is said once (`NameMap.Obtains`): a value that is there is given,
and otherwise one is made, which may fail. All else that is known of maps follows from it.

- `NameMap.names`: the names that there are, and how they grow
  (`NameMap.GrewBy`, `NameMap.MayGain`).
- `NameMap.All`: what is known of all values goes on being known of them, if new
  ones are made to fit.
- `NameMap.Related`: maps with the same names and related values; obtaining keeps them related.
-/

namespace SignedHandshake.NameMap

variable {α β σ τ : Type}

/-! ## Obtaining a value -/

/-- What comes of obtaining the value under a name. -/
inductive Obtains (make : Text → Attempt σ α) (name : Text) (map : NameMap α) (state : σ) :
    Prop where
  /-- It is there. -/
  | found (value : α) (hfound : map.find? name = some value)
    (hobtain : obtain make name (map, state) = .ok value (map, state))
  /-- It is made and kept. -/
  | made (value : α) (after : σ) (hfound : map.find? name = none)
    (hmade : make name state = .ok value after)
    (hobtain : obtain make name (map, state) = .ok value (map.insert name value, after))
  /-- It cannot be made, and nothing is kept. -/
  | failed (e : Failure) (after : σ) (hfound : map.find? name = none)
    (hmade : make name state = .error e after)
    (hobtain : obtain make name (map, state) = .error e (map, after))

theorem obtains (make : Text → Attempt σ α) (name : Text) (map : NameMap α) (state : σ) :
    Obtains make name map state := by
  cases hfound : map.find? name with
  | some value => exact .found value hfound (obtain_of_find? hfound state)
  | none =>
    cases hmade : make name state with
    | ok value after => exact .made value after hfound hmade (by simp only [obtain, hfound, hmade])
    | error e after => exact .failed e after hfound hmade (by simp only [obtain, hfound, hmade])

/-! ## Names -/

/-- The names that there are values under, in the order in which they came up. -/
def names (map : NameMap α) : List Text :=
  map.entries.map Prod.fst

theorem length_names (map : NameMap α) : map.names.length = map.size :=
  List.length_map ..

theorem mem_names_iff {map : NameMap α} {name : Text} :
    name ∈ map.names ↔ ∃ value, map.find? name = some value := by
  obtain ⟨entries⟩ := map
  show name ∈ entries.map Prod.fst ↔ ∃ value, entries.lookup name = some value
  induction entries with
  | nil => simp
  | cons entry rest ih =>
    obtain ⟨key, value⟩ := entry
    rw [List.map_cons, List.mem_cons, ih, List.lookup_cons]
    by_cases hkey : name = key
    · simp [hkey]
    · simp [beq_false_of_ne hkey, hkey]

/-- A name that is new comes behind all others. -/
theorem names_insert (map : NameMap α) (name : Text) (value : α) :
    (map.insert name value).names = if name ∈ map.names then map.names
      else map.names ++ [name] := by
  obtain ⟨entries⟩ := map
  show (insertEntry name value entries).map Prod.fst =
    if name ∈ entries.map Prod.fst then entries.map Prod.fst else entries.map Prod.fst ++ [name]
  induction entries with
  | nil => rfl
  | cons entry rest ih =>
    obtain ⟨key, held⟩ := entry
    by_cases hkey : key = name
    · simp [insertEntry, hkey]
    · have hother : ¬ name = key := fun h => hkey h.symm
      simp only [insertEntry, beq_false_of_ne hkey, Bool.false_eq_true, if_false, List.map_cons, ih,
        List.mem_cons, hother, false_or]
      by_cases hmem : name ∈ rest.map Prod.fst
      · rw [if_pos hmem, if_pos hmem]
      · rw [if_neg hmem, if_neg hmem, List.cons_append]

/-- Nothing has changed but the value under `name`, which may be a new one behind all others. -/
structure GrewBy (name : Text) (before after : NameMap α) : Prop where
  names : after.names = before.names ∨ name ∉ before.names ∧ after.names = before.names ++ [name]
  others : ∀ other, other ≠ name → after.find? other = before.find? other

theorem GrewBy.refl (name : Text) (map : NameMap α) : GrewBy name map map :=
  ⟨.inl rfl, fun _ _ => rfl⟩

theorem GrewBy.insert {name : Text} {before after : NameMap α} (h : GrewBy name before after)
    (value : α) : GrewBy name before (after.insert name value) := by
  refine ⟨?_, fun other hother =>
      (find?_insert_of_ne hother after value).trans (h.others other hother)⟩
  rw [names_insert]
  rcases h.names with hsame | ⟨hnew, hnames⟩
  · rw [hsame]
    by_cases hmem : name ∈ before.names
    · exact .inl (if_pos hmem)
    · exact .inr ⟨hmem, if_neg hmem⟩
  · -- the name has come in already
    have hmem : name ∈ after.names := by
      rw [hnames]
      exact List.mem_append_right _ (List.mem_singleton_self name)
    rw [if_pos hmem]
    exact .inr ⟨hnew, hnames⟩

/-- The names are the same, or there is one more, which is allowed. -/
def MayGain (allowed : Text → Prop) (before after : NameMap α) : Prop :=
  after.names = before.names ∨
    ∃ name, allowed name ∧ name ∉ before.names ∧ after.names = before.names ++ [name]

theorem GrewBy.mayGain {allowed : Text → Prop} {name : Text} {before after : NameMap α}
    (h : GrewBy name before after) (hallowed : allowed name) : MayGain allowed before after :=
  h.names.imp_right fun hnew => ⟨name, hallowed, hnew⟩

/-- No name comes in twice. -/
theorem MayGain.nodup {allowed : Text → Prop} {before after : NameMap α}
    (h : MayGain allowed before after) (hnodup : before.names.Nodup) : after.names.Nodup := by
  rcases h with hsame | ⟨name, -, hnew, hnames⟩
  · rw [hsame]
    exact hnodup
  · rw [hnames, ← List.concat_eq_append]
    exact List.Nodup.concat hnew hnodup

/-- Obtaining a value leaves the map as it is, or adds a value under a name that has none. -/
theorem left_obtain (make : Text → Attempt σ α) (name : Text) (state : NameMap α × σ) :
    (Attempt.left (obtain make name state)).1 = state.1 ∨
      state.1.find? name = none ∧ ∃ value, (Attempt.left (obtain make name state)).1 =
        state.1.insert name value := by
  obtain ⟨map, state⟩ := state
  cases obtains make name map state with
  | found value _ hobtain =>
    rw [hobtain]
    exact .inl rfl
  | made value after hfound _ hobtain =>
    rw [hobtain]
    exact .inr ⟨hfound, value, rfl⟩
  | failed e after _ _ hobtain =>
    rw [hobtain]
    exact .inl rfl

theorem grewBy_obtain (make : Text → Attempt σ α) (name : Text) (state : NameMap α × σ) :
    GrewBy name state.1 (Attempt.left (obtain make name state)).1 := by
  rcases left_obtain make name state with hsame | ⟨-, value, hadded⟩
  · rw [hsame]
    exact .refl name state.1
  · rw [hadded]
    exact (GrewBy.refl name state.1).insert value

/-! ## What is known of all values -/

section

variable {good : Text → α → Prop} {map : NameMap α}

/-- Every value fits the name it is under. -/
def All (good : Text → α → Prop) (map : NameMap α) : Prop :=
  ∀ name value, map.find? name = some value → good name value

theorem All.empty : (NameMap.empty : NameMap α).All good := by
  intro name value h
  rw [find?_empty] at h
  cases h

theorem All.insert (h : map.All good) {name : Text} {value : α} (hvalue : good name value) :
    (map.insert name value).All good := by
  intro other found hfound
  rw [find?_insert] at hfound
  by_cases hother : other = name
  · rw [if_pos hother] at hfound
    cases hfound
    exact hother ▸ hvalue
  · rw [if_neg hother] at hfound
    exact h other found hfound

/-- New values fit their names if they are made to fit. -/
theorem keeps_obtain (make : Text → Attempt σ α) (inv : σ → Prop) (name : Text)
    (hmake : ∀ state value after, make name state = .ok value after → good name value)
    (hinv : Attempt.Keeps inv (make name)) :
    Attempt.Keeps (fun s => s.1.All good ∧ inv s.2) (obtain make name) := by
  rintro ⟨map, state⟩ ⟨hmap, hstate⟩
  -- a value that is found leaves everything as it was, so only a new one has to be looked at
  have hafter := hinv state hstate
  cases obtains make name map state with
  | found value _ hobtain =>
    rw [hobtain]
    exact ⟨hmap, hstate⟩
  | made value after _ hmade hobtain =>
    rw [hmade] at hafter
    rw [hobtain]
    exact ⟨hmap.insert (hmake state value after hmade), hafter⟩
  | failed e after _ hmade hobtain =>
    rw [hmade] at hafter
    rw [hobtain]
    exact ⟨hmap, hafter⟩

/-- What was obtained fits its name. -/
theorem good_of_obtain {make : Text → Attempt σ α} {name : Text} {state after : σ}
    {next : NameMap α} {found : α}
    (hmake : ∀ state value after, make name state = .ok value after → good name value)
    (hmap : map.All good) (h : obtain make name (map, state) = .ok found (next, after)) :
    good name found := by
  cases obtains make name map state with
  | found value hfound hobtain =>
    rw [hobtain] at h
    cases h
    exact hmap name found hfound
  | made value between _ hmade hobtain =>
    rw [hobtain] at h
    cases h
    exact hmake state found _ hmade
  | failed e between _ _ hobtain =>
    rw [hobtain] at h
    cases h

end

/-! ## Other values under the same names -/

/-- Change every value. -/
def map (f : α → β) (values : NameMap α) : NameMap β where
  entries := values.entries.map fun (name, value) => (name, f value)

/-- The same names in the same order, with related values. -/
def Related (rel : α → β → Prop) (left : NameMap α) (right : NameMap β) : Prop :=
  List.Forall₂ (fun one other => one.1 = other.1 ∧ rel one.2 other.2) left.entries right.entries

variable {rel : α → β → Prop} {left : NameMap α} {right : NameMap β}

theorem Related.find? (h : Related rel left right) (name : Text) :
    Option.Rel rel (left.find? name) (right.find? name) := by
  obtain ⟨entries⟩ := left
  obtain ⟨others⟩ := right
  show Option.Rel rel (entries.lookup name) (others.lookup name)
  change List.Forall₂ _ entries others at h
  -- the entries on both sides have the same names, one by one
  induction h with
  | nil => exact .none
  | @cons one other _ _ hhead _ ih =>
    obtain ⟨key, value⟩ := one
    obtain ⟨_, counterpart⟩ := other
    obtain ⟨rfl, hvalue⟩ := hhead
    rw [List.lookup_cons, List.lookup_cons]
    cases name == key with
    | true => exact .some hvalue
    | false => exact ih

theorem Related.insert (h : Related rel left right) (name : Text) {value : α} {counterpart : β}
    (hvalue : rel value counterpart) :
    Related rel (left.insert name value) (right.insert name counterpart) := by
  obtain ⟨entries⟩ := left
  obtain ⟨others⟩ := right
  show List.Forall₂ _ (insertEntry name value entries) (insertEntry name counterpart others)
  change List.Forall₂ _ entries others at h
  induction h with
  | nil => exact .cons ⟨rfl, hvalue⟩ .nil
  | @cons one other _ _ hhead hrest ih =>
    obtain ⟨key, held⟩ := one
    obtain ⟨_, heldOther⟩ := other
    obtain ⟨rfl, hheld⟩ := hhead
    simp only [insertEntry]
    cases key == name with
    | true => exact .cons ⟨rfl, hvalue⟩ hrest
    | false => exact .cons ⟨rfl, hheld⟩ ih

/-- As many values on both sides. -/
theorem Related.size_eq (h : Related rel left right) : left.size = right.size :=
  List.Forall₂.length_eq h

/-- Values that are made alike are obtained alike. -/
theorem Related.obtain {failures : Failure → Failure → Prop} {states : σ → τ → Prop}
    {make : Text → Attempt σ α} {other : Text → Attempt τ β} {name : Text} {state : σ} {after : τ}
    (h : Related rel left right) (hstate : states state after)
    (hmake : Attempt.Corresponds failures rel states (make name state) (other name after)) :
    Attempt.Corresponds failures rel (fun one two => Related rel one.1 two.1 ∧ states one.2 two.2)
      (NameMap.obtain make name (left, state)) (NameMap.obtain other name (right, after)) := by
  have hfound := h.find? name
  unfold NameMap.obtain
  -- both maps have a value for the name, or neither has
  generalize hleft : left.find? name = one at hfound
  generalize hright : right.find? name = two at hfound
  cases hfound with
  | some hvalue =>
    simp only [hleft, hright]
    exact .ok hvalue ⟨h, hstate⟩
  | none =>
    simp only [hleft, hright]
    generalize make name state = made at hmake ⊢
    generalize other name after = remade at hmake ⊢
    cases hmake with
    | ok hvalue hafter => exact .ok hvalue ⟨h.insert name hvalue, hafter⟩
    | error hfailure hafter => exact .error hfailure ⟨h, hafter⟩

end SignedHandshake.NameMap
