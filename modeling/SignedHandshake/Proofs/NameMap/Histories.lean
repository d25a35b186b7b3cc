import SignedHandshake.Proofs.Attempt.Matching
import SignedHandshake.Proofs.NameMap.Rules

/-!
# Maps and their histories

What a map answers depends on nothing but what it was asked before. A name is live if it was gotten,
and something came of it, since the map was last cleared (`NameMap.Gotten`). A map holds exactly the
live names, each with the very value that it gave before (**`NameMap.run_exact`**). This needs
nothing from the way in which values are made: it may work on a state of its own, and refuse a name
at one time and not at another.

So that it can be said how often values are made, and that the same value is given again rather than
one like it, the way to make them is put on record (`NameMap.recorded`): it keeps the names that it
was asked for, and each value carries the number of the call that made it. The record makes no
difference to what a map answers.

Proof structure: one answer extends the history by one entry, and keeps the map in step with it
(`Tracks.answer`); the rest is an induction on the run.
-/

namespace SignedHandshake.NameMap

variable {α β σ : Type}

/-! ## Requests and histories -/

/-- What a map may be asked. -/
inductive Request where
  | get (name : Text)
  | has (name : Text)
  | size
  | clear

/-- What a map answers. -/
inductive Answer (α : Type) where
  | obtained (value : α)
  | present (held : Bool)
  | number (count : Nat)
  | cleared

/-- The same answer, with another value. -/
def Answer.map (f : α → β) : Answer α → Answer β
  | .obtained value => .obtained (f value)
  | .present held => .present held
  | .number count => .number count
  | .cleared => .cleared

/-- Answer a request. -/
def answer (make : Text → Attempt σ α) : Request → Attempt (NameMap α × σ) (Answer α)
  | .get name => do
    let value ← obtain make name
    return .obtained value
  | .has name => fun (map, state) => .ok (.present (map.contains name)) (map, state)
  | .size => fun (map, state) => .ok (.number map.size) (map, state)
  | .clear => fun (map, state) => .ok .cleared (map.clear, state)

/-- What a map was asked so far, and what came of it. -/
abbrev History (α : Type) := List (Request × Except Failure (Answer α))

/-- `value` was gotten under `name`, and the map was not cleared since. -/
def Gotten (history : History α) (name : Text) (value : α) : Prop :=
  ∃ before after, history = before ++ (.get name, .ok (.obtained value)) :: after ∧
    ∀ entry ∈ after, entry.1 ≠ .clear

/-- What the last entry of a history adds: a value if one was gotten, and
nothing stays if it is a clear. -/
theorem gotten_append_iff {history : History α} {entry : Request × Except Failure (Answer α)}
    {name : Text} {value : α} :
    Gotten (history ++ [entry]) name value ↔
      entry = (.get name, .ok (.obtained value)) ∨ entry.1 ≠ .clear ∧
        Gotten history name value := by
  constructor
  · rintro ⟨before, after, hhistory, hkept⟩
    rcases List.eq_nil_or_concat after with rfl | ⟨front, last, rfl⟩
    · exact .inl (List.head_eq_of_cons_eq (List.append_inj' hhistory rfl).2)
    · -- the value was gotten before, and the last entry is no clear
      rw [List.concat_eq_append] at hhistory hkept
      rw [← List.cons_append, ← List.append_assoc] at hhistory
      obtain ⟨hfront, hlast⟩ := List.append_inj' hhistory rfl
      obtain rfl : entry = last := List.head_eq_of_cons_eq hlast
      have hmem : entry ∈ front ++ [entry] :=
        List.mem_append_right _ (List.mem_singleton_self entry)
      exact .inr ⟨hkept entry hmem, before, front, hfront, fun other hother =>
        hkept other (List.mem_append_left _ hother)⟩
  · rintro (rfl | ⟨hentry, before, after, rfl, hkept⟩)
    · exact ⟨history, [], rfl, nofun⟩
    · refine ⟨before, after ++ [entry], by rw [List.append_assoc, List.cons_append], ?_⟩
      intro other hother
      rcases List.mem_append.mp hother with hother | hother
      · exact hkept other hother
      · rw [List.mem_singleton.mp hother]
        exact hentry

/-! ## A map in step with its history -/

/-- The map holds what was gotten since it was last cleared, each name once. -/
structure Tracks (history : History α) (map : NameMap α) : Prop where
  find?_iff : ∀ name value, map.find? name = some value ↔ Gotten history name value
  nodup : map.names.Nodup

namespace Tracks

variable {history : History α} {map : NameMap α}

theorem empty : Tracks [] (empty : NameMap α) := by
  refine ⟨fun name value => iff_of_false nofun ?_, List.nodup_nil⟩
  rintro ⟨before, after, hhistory, -⟩
  cases before <;> cases hhistory

/-- A name is live if there is a value under it. -/
theorem contains_iff (h : Tracks history map) (name : Text) :
    map.contains name = true ↔ ∃ value, Gotten history name value := by
  rw [contains, Option.isSome_iff_exists]
  exact exists_congr (h.find?_iff name)

/-- An entry that neither gives a value that is new nor clears the map changes nothing. -/
theorem append (h : Tracks history map) {entry : Request × Except Failure (Answer α)}
    (hclear : entry.1 ≠ .clear)
    (hheld : ∀ name value, entry = (.get name, .ok (.obtained value)) →
      map.find? name = some value) :
    Tracks (history ++ [entry]) map := by
  refine ⟨fun name value => ?_, h.nodup⟩
  rw [gotten_append_iff, h.find?_iff]
  constructor
  · exact fun hgotten => .inr ⟨hclear, hgotten⟩
  · rintro (hentry | ⟨-, hgotten⟩)
    · exact (h.find?_iff name value).mp (hheld name value hentry)
    · exact hgotten

/-- A value that was made comes in under its name. -/
theorem append_made (h : Tracks history map) {name : Text} (hnew : map.find? name = none)
    (value : α) :
    Tracks (history ++ [(.get name, .ok (.obtained value))]) (map.insert name value) := by
  refine ⟨fun other held => ?_, ?_⟩
  · rw [gotten_append_iff, find?_insert]
    by_cases hother : other = name
    · -- nothing was gotten under this name before
      subst hother
      have hnot : ¬ Gotten history other held := by
        rw [← h.find?_iff, hnew]
        nofun
      simp [hnot]
    · have hname : ¬ name = other := Ne.symm hother
      simp [hother, hname, h.find?_iff]
  · have hgain : MayGain (fun _ => True) map (map.insert name value) :=
      ((GrewBy.refl name map).insert value).mayGain trivial
    exact hgain.nodup h.nodup

/-- Whatever a map is asked, it stays in step with its history. -/
theorem answer (h : Tracks history map) (make : Text → Attempt σ α) (request : Request)
    (state : σ) :
    Tracks (history ++ [(request, Attempt.outcome (NameMap.answer make request (map, state)))])
      (Attempt.left (NameMap.answer make request (map, state))).1 := by
  cases request with
  | get name =>
    cases obtains make name map state with
    | found value hfound hobtain =>
      rw [NameMap.answer, Attempt.bind_of_ok hobtain]
      refine h.append nofun fun other held hentry => ?_
      cases hentry
      exact hfound
    | made value after hnew _ hobtain =>
      rw [NameMap.answer, Attempt.bind_of_ok hobtain]
      exact h.append_made hnew value
    | failed e after _ _ hobtain =>
      rw [NameMap.answer, Attempt.bind_of_error hobtain]
      exact h.append nofun nofun
  | has name | size => exact h.append nofun nofun
  | clear =>
    refine ⟨fun name value => iff_of_false nofun ?_, List.nodup_nil⟩
    rw [gotten_append_iff]
    rintro (hentry | ⟨hclear, -⟩)
    · cases hentry
    · exact hclear rfl

/-- So it does all along a run. -/
theorem run (make : Text → Attempt σ α) (requests : List Request) (state : σ)
    (h : Tracks history map) :
    Tracks (history ++ requests.zip (Attempt.run (NameMap.answer make) requests (map, state)).1)
      (Attempt.run (NameMap.answer make) requests (map, state)).2.1 := by
  induction requests generalizing history map state with
  | nil =>
    rw [List.zip_nil_left, List.append_nil]
    exact h
  | cons request rest ih =>
    have hrest := ih (Attempt.left (NameMap.answer make request (map, state))).2
      (h.answer make request state)
    rw [List.append_assoc] at hrest
    exact hrest

end Tracks

/-! ## Values on record -/

/-- The same way to make values, on record: the names that were asked for are kept in their
order, and each value comes with the number of calls before the one that made it. No two
calls make the same value. -/
def recorded (make : Text → Attempt σ α) (name : Text) : Attempt (σ × List Text) (α × Nat) :=
  fun (state, calls) =>
    match make name state with
    | .ok value after => .ok (value, calls.length) (after, calls ++ [name])
    | .error e after => .error e (after, calls ++ [name])

/-- What is on record is this, and something about it. -/
def StandsFor (one : α × β) (other : α) : Prop :=
  one.1 = other

/-- A map of values on record, and the state with its record, stand for the map
and the state themselves. -/
def OnRecord (one : NameMap (α × Nat) × σ × List Text) (other : NameMap α × σ) : Prop :=
  one.1.Related StandsFor other.1 ∧ StandsFor one.2 other.2

/-- The record makes no difference to an answer. -/
theorem corresponds_answer (make : Text → Attempt σ α) (request : Request)
    (one : NameMap (α × Nat) × σ × List Text) (other : NameMap α × σ) (h : OnRecord one other) :
    Attempt.Corresponds Eq (fun one other => one.map Prod.fst = other) OnRecord
      (answer (recorded make) request one) (answer make request other) := by
  obtain ⟨left, state, calls⟩ := one
  obtain ⟨right, _⟩ := other
  obtain ⟨hmaps, rfl⟩ := h
  cases request with
  | get name =>
    have hstate : StandsFor (state, calls) state := rfl
    have hmake : Attempt.Corresponds Eq StandsFor StandsFor (recorded make name (state, calls))
        (make name state) := by
      -- the record only adds a call to the state
      simp only [recorded]
      cases make name state with
      | ok value after => exact .ok rfl rfl
      | error e after => exact .error rfl rfl
    have hobtain : Attempt.Corresponds Eq StandsFor OnRecord
        (obtain (recorded make) name (left, state, calls)) (obtain make name (right, state)) :=
      hmaps.obtain hstate hmake
    refine hobtain.bind ?_
    rintro value _ between after rfl hbetween
    exact .ok rfl hbetween
  | has name =>
    have hfound := hmaps.find? name
    -- the same names are there, with and without the record
    have hsame : left.contains name = right.contains name := by
      unfold contains
      generalize left.find? name = one at hfound ⊢
      generalize right.find? name = two at hfound ⊢
      cases hfound <;> rfl
    exact .ok (congrArg Answer.present hsame) ⟨hmaps, rfl⟩
  | size => exact .ok (congrArg Answer.number hmaps.size_eq) ⟨hmaps, rfl⟩
  | clear => exact .ok rfl ⟨.nil, rfl⟩

/-! ## What a map answers next -/

/-- What a map answers next, after what it was asked so far. -/
structure Exact (make : Text → Attempt σ α) (history : History (α × Nat)) (map : NameMap (α × Nat))
    (state : σ) (calls : List Text) : Prop where
  /-- A live name has the same value as before, and none is made. -/
  again : ∀ name value, Gotten history name value →
    answer (recorded make) (.get name) (map, state, calls) =
      .ok (.obtained value) (map, state, calls)
  /-- For any other name a value is made by a single call, which is for this name. -/
  first : ∀ name value after, (∀ held, ¬ Gotten history name held) →
    make name state = .ok value after →
    ∃ next, answer (recorded make) (.get name) (map, state, calls) =
      .ok (.obtained (value, calls.length)) (next, after, calls ++ [name])
  /-- If the call fails, its failure comes out, and the map is as before. -/
  refused : ∀ name e after, (∀ held, ¬ Gotten history name held) →
    make name state = .error e after →
    answer (recorded make) (.get name) (map, state, calls) = .error e (map, after, calls ++ [name])
  /-- Getting one name makes no difference to another one. -/
  others : ∀ name other, other ≠ name →
    (Attempt.left (answer (recorded make) (.get name) (map, state, calls))).1.find? other =
      map.find? other
  /-- The map has the names that are live. -/
  presence : ∀ name, ∃ held,
    answer (recorded make) (.has name) (map, state, calls) =
      .ok (.present held) (map, state, calls) ∧
      (held = true ↔ ∃ value, Gotten history name value)
  /-- Its size is their number. -/
  number :
    ∃ names : List Text, names.Nodup ∧ (∀ name, name ∈ names ↔ ∃ value, Gotten history name value) ∧
    answer (recorded make) .size (map, state, calls) =
      .ok (.number names.length) (map, state, calls)

theorem Tracks.exact {history : History (α × Nat)} {map : NameMap (α × Nat)}
    (h : Tracks history map)
    (make : Text → Attempt σ α) (state : σ) (calls : List Text) :
    Exact make history map state calls where
  again name value hgotten := by
    have hobtain :
        obtain (recorded make) name (map, state, calls) = .ok value (map, state, calls) :=
      obtain_of_find? ((h.find?_iff name value).mpr hgotten) (state, calls)
    rw [NameMap.answer, Attempt.bind_of_ok hobtain]
    rfl
  first name value after hnot hmade := by
    -- nothing was gotten under the name, so the value has to be made
    cases obtains (recorded make) name map (state, calls) with
    | found held hfound _ => exact absurd ((h.find?_iff name held).mp hfound) (hnot held)
    | made _ _ _ hrecorded hobtain =>
      simp only [recorded, hmade] at hrecorded
      cases hrecorded
      rw [NameMap.answer, Attempt.bind_of_ok hobtain]
      exact ⟨_, rfl⟩
    | failed _ _ _ hrecorded _ =>
      simp only [recorded, hmade] at hrecorded
      cases hrecorded
  refused name e after hnot hmade := by
    cases obtains (recorded make) name map (state, calls) with
    | found held hfound _ => exact absurd ((h.find?_iff name held).mp hfound) (hnot held)
    | made _ _ _ hrecorded _ =>
      simp only [recorded, hmade] at hrecorded
      cases hrecorded
    | failed _ _ _ hrecorded hobtain =>
      simp only [recorded, hmade] at hrecorded
      cases hrecorded
      rw [NameMap.answer, Attempt.bind_of_error hobtain]
  others name other hother := by
    have hgrew := grewBy_obtain (recorded make) name (map, state, calls)
    rw [NameMap.answer]
    cases hobtain : obtain (recorded make) name (map, state, calls) with
    | ok value after =>
      rw [hobtain] at hgrew
      rw [Attempt.bind_of_ok hobtain]
      exact hgrew.others other hother
    | error e after =>
      rw [hobtain] at hgrew
      rw [Attempt.bind_of_error hobtain]
      exact hgrew.others other hother
  presence name := ⟨map.contains name, rfl, h.contains_iff name⟩
  number := by
    refine ⟨map.names, h.nodup, fun name => ?_, ?_⟩
    · rw [mem_names_iff]
      exact exists_congr (h.find?_iff name)
    · rw [length_names]
      rfl

/-- **A map holds the live names.** Ask a new map anything, in any order, with any way to make
values. At every point, what was gotten under a name since the map was last cleared is gotten
again, the very same value, and no value is made; for any other name, one call is made, for this
name, and if it fails, its failure comes out and nothing else changes. The map has exactly the
live names, and as many as there are. All this is said of values on record, and without a record
the answers are the same. -/
theorem run_exact (make : Text → Attempt σ α) (start : σ) (requests : List Request) :
    let onRecord := Attempt.run (answer (recorded make)) requests (empty, start, [])
    let plain := Attempt.run (answer make) requests (empty, start)
    Exact make (requests.zip onRecord.1) onRecord.2.1 onRecord.2.2.1 onRecord.2.2.2 ∧
      List.Forall₂ (ExceptRel Eq fun one other => one.map Prod.fst = other) onRecord.1 plain.1 ∧
      OnRecord onRecord.2 plain.2 := by
  intro onRecord plain
  have htracks : Tracks ([] ++ requests.zip onRecord.1) onRecord.2.1 :=
    Tracks.empty.run (recorded make) requests (start, [])
  rw [List.nil_append] at htracks
  have hstart : OnRecord ((empty : NameMap (α × Nat)), start, ([] : List Text)) (empty, start) :=
    ⟨.nil, rfl⟩
  exact ⟨htracks.exact make _ _, Attempt.run_corresponds (corresponds_answer make) requests hstart⟩

end SignedHandshake.NameMap
