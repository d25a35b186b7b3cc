import Mathlib.Data.List.Forall2
import SignedHandshake.Proofs.Attempt.Rules

/-!
# Attempts that match, and runs of them

- `Attempt.Matches`: from related states two attempts end the same way and leave related states.
- `Attempt.run`: one attempt after the other, whether or not the one before failed.
-/

namespace SignedHandshake

/-!
## Attempts that match

Two attempts on states of different types match if from related states they end the same way and
leave related states (`Attempt.Matches`). As with what attempts keep, there is one rule for each way
to put attempts together, so programs that are put together in the same way match if their parts do.

How two attempts end need not be the very same either. `Corresponds` leaves open what relates their
values and their failures; results are alike if both are equal.
-/

/-- Two computations end with related values or with related failures. -/
inductive ExceptRel {ε ε' α β : Type} (failures : ε → ε' → Prop) (values : α → β → Prop) :
    Except ε α → Except ε' β → Prop where
  | ok {a : α} {b : β} (h : values a b) : ExceptRel failures values (.ok a) (.ok b)
  | error {e : ε} {e' : ε'} (h : failures e e') : ExceptRel failures values (.error e) (.error e')

namespace ExceptRel

variable {ε ε' α β γ δ : Type} {failures : ε → ε' → Prop} {values : α → β → Prop}

theorem mapError {ζ ζ' : Type} {others : ζ → ζ' → Prop} {f : ε → ζ} {g : ε' → ζ'}
    {result : Except ε α} {other : Except ε' β} (h : ExceptRel failures values result other)
    (hf : ∀ {e e'}, failures e e' → others (f e) (g e')) :
    ExceptRel others values (result.mapError f) (other.mapError g) := by
  cases h with
  | ok h => exact .ok h
  | error h => exact .error (hf h)

theorem bind {others : γ → δ → Prop} {result : Except ε α} {other : Except ε' β}
    {next : α → Except ε γ}
    {nextOther : β → Except ε' δ} (h : ExceptRel failures values result other)
    (hnext : ∀ {a b}, values a b → ExceptRel failures others (next a) (nextOther b)) :
    ExceptRel failures others (result >>= next) (other >>= nextOther) := by
  cases h with
  | ok h => exact hnext h
  | error h => exact .error h

theorem map {others : γ → δ → Prop} {f : α → γ} {g : β → δ} {result : Except ε α}
    {other : Except ε' β}
    (h : ExceptRel failures values result other) (hf : ∀ {a b}, values a b → others (f a) (g b)) :
    ExceptRel failures others (result.map f) (other.map g) := by
  cases h with
  | ok h => exact .ok (hf h)
  | error h => exact .error h

end ExceptRel

namespace Attempt

variable {σ τ σ' τ' α β γ δ : Type}

/-! ### Results that correspond -/

/-- Two attempts end with related values or failures, and leave related states. -/
inductive Corresponds (failures : Failure → Failure → Prop) (values : α → β → Prop)
    (rel : σ → τ → Prop) :
    EStateM.Result Failure σ α → EStateM.Result Failure τ β → Prop where
  | ok {a : α} {b : β} {state : σ} {other : τ} (hvalue : values a b) (h : rel state other) :
    Corresponds failures values rel (.ok a state) (.ok b other)
  | error {e e' : Failure} {state : σ} {other : τ} (hfailure : failures e e')
      (h : rel state other) :
    Corresponds failures values rel (.error e state) (.error e' other)

namespace Corresponds

variable {failures : Failure → Failure → Prop} {values : α → β → Prop} {rel : σ → τ → Prop}
  {result : EStateM.Result Failure σ α} {other : EStateM.Result Failure τ β}

theorem outcome (h : Corresponds failures values rel result other) :
    ExceptRel failures values (outcome result) (Attempt.outcome other) := by
  cases h with
  | ok hvalue h => exact .ok hvalue
  | error hfailure h => exact .error hfailure

theorem left (h : Corresponds failures values rel result other) :
    rel (left result) (Attempt.left other) := by
  cases h with
  | ok hvalue h | error hfailure h => exact h

/-- Results that are put into words that correspond, correspond if their states do. -/
theorem ofExcept {ending : Except Failure α} {another : Except Failure β} {state : σ} {after : τ}
    (hending : ExceptRel failures values ending another) (h : rel state after) :
    Corresponds failures values rel (Attempt.ofExcept ending state)
      (Attempt.ofExcept another after) := by
  cases hending with
  | ok hvalue => exact .ok hvalue h
  | error hfailure => exact .error hfailure h

/-- What goes on from values and states that correspond, corresponds if it goes on
in the same way. -/
theorem bind {values' : γ → δ → Prop} {first : Attempt σ α} {second : Attempt τ β}
    {next : α → Attempt σ γ} {nextOther : β → Attempt τ δ} {state : σ} {after : τ}
    (hfirst : Corresponds failures values rel (first state) (second after))
    (hnext : ∀ a b state other, values a b → rel state other →
      Corresponds failures values' rel (next a state) (nextOther b other)) :
    Corresponds failures values' rel ((first >>= next) state) ((second >>= nextOther) after) := by
  generalize hone : first state = one at hfirst
  generalize htwo : second after = two at hfirst
  cases hfirst with
  | ok hvalue h =>
    rw [bind_of_ok hone, bind_of_ok htwo]
    exact hnext _ _ _ _ hvalue h
  | error hfailure h =>
    rw [bind_of_error hone, bind_of_error htwo]
    exact .error hfailure h

/-- Results that correspond still do when the parts are put back, if that leads to
related states. -/
theorem onPart {relPart : σ' → τ' → Prop} {first : Attempt σ' α} {second : Attempt τ' β} {part : σ'}
    {otherPart : τ'} {wrap : σ' → σ} {wrapOther : τ' → τ}
    (h : Corresponds failures values relPart (first part) (second otherPart))
    (hwrap : ∀ {part other}, relPart part other → rel (wrap part) (wrapOther other)) :
    Corresponds failures values rel (first.onPart part wrap)
      (second.onPart otherPart wrapOther) := by
  unfold Attempt.onPart
  generalize first part = one at h ⊢
  generalize second otherPart = two at h ⊢
  cases h with
  | ok hvalue h => exact .ok hvalue (hwrap h)
  | error hfailure h => exact .error hfailure (hwrap h)

end Corresponds

/-- Results that are alike correspond in every way in which each failure corresponds to itself. -/
theorem Alike.corresponds {failures : Failure → Failure → Prop} (hsame : ∀ e, failures e e)
    {rel : σ → τ → Prop} {result : EStateM.Result Failure σ α} {other : EStateM.Result Failure τ α}
    (h : Alike rel result other) : Corresponds failures Eq rel result other := by
  cases h with
  | ok a h => exact .ok rfl h
  | error e h => exact .error (hsame e) h

/-- Results are alike if they correspond with the same values and failures. -/
theorem Alike.of_corresponds {rel : σ → τ → Prop} {result : EStateM.Result Failure σ α}
    {other : EStateM.Result Failure τ α} (h : Corresponds Eq Eq rel result other) :
    Alike rel result other := by
  cases h with
  | ok hvalue h =>
    cases hvalue
    exact .ok _ h
  | error hfailure h =>
    cases hfailure
    exact .error _ h

/-! ### Attempts that match -/

/-- From related states, two attempts end the same way and leave related states. -/
def Matches (rel : σ → τ → Prop) (first : Attempt σ α) (second : Attempt τ α) : Prop :=
  ∀ state other, rel state other → Alike rel (first state) (second other)

theorem Alike.of_error {rel : σ → τ → Prop} {result : EStateM.Result Failure σ α} {e : Failure}
    {after : τ}
    (h : Alike rel result (.error e after)) :
    ∃ state, result = .error e state ∧ rel state after := by
  cases h with
  | error e h => exact ⟨_, rfl, h⟩

/-- Results that are put into the same words are alike if their states are. -/
theorem Alike.ofExcept {rel : σ → τ → Prop} {state : σ} {other : τ} (h : rel state other)
    (result : Except Failure α) : Alike rel (Attempt.ofExcept result state)
      (Attempt.ofExcept result other) := by
  cases result with
  | ok a => exact .ok a h
  | error e => exact .error e h

/-- Results that are alike stay so when the parts are put back, if that leads to related states. -/
theorem Alike.onPart {rel : σ → τ → Prop} {relPart : σ' → τ' → Prop} {first : Attempt σ' α}
    {second : Attempt τ' α} {part : σ'} {other : τ'} {wrap : σ' → σ} {wrapOther : τ' → τ}
    (h : Alike relPart (first part) (second other))
    (hwrap : ∀ {part other}, relPart part other → rel (wrap part) (wrapOther other)) :
    Alike rel (first.onPart part wrap) (second.onPart other wrapOther) :=
  .of_corresponds ((h.corresponds fun _ => rfl).onPart hwrap)

namespace Matches

variable {rel : σ → τ → Prop}

theorem pure (a : α) : Matches rel (Pure.pure a) (Pure.pure a) :=
  fun _ _ h => .ok a h

theorem throw (e : Failure) :
    Matches rel (throw e : Attempt σ α) (throw e : Attempt τ α) :=
  fun _ _ h => .error e h

theorem ofExcept (result : Except Failure α) :
    Matches rel (Attempt.ofExcept result) (Attempt.ofExcept result) :=
  fun _ _ h => .ofExcept h result

theorem modify {f : σ → σ} {g : τ → τ}
    (hf : ∀ {state other}, rel state other → rel (f state) (g other)) :
    Matches rel (modify f : Attempt σ PUnit) (modify g : Attempt τ PUnit) :=
  fun _ _ h => .ok _ (hf h)

theorem bind {first : Attempt σ α} {second : Attempt τ α} {next : α → Attempt σ β}
    {nextOther : α → Attempt τ β} (hfirst : Matches rel first second)
    (hnext : ∀ a, Matches rel (next a) (nextOther a)) :
    Matches rel (first >>= next) (second >>= nextOther) := by
  intro state other h
  refine .of_corresponds (((hfirst state other h).corresponds fun _ => rfl).bind ?_)
  rintro a _ between after rfl hbetween
  exact (hnext a between after hbetween).corresponds fun _ => rfl

/-- The state that a program reads goes on being related to what its counterpart reads. -/
theorem get_bind {next : σ → Attempt σ α} {nextOther : τ → Attempt τ α}
    (h : ∀ {state other}, rel state other → Matches rel (next state) (nextOther other)) :
    Matches rel (get >>= next) (get >>= nextOther) :=
  fun _ _ hrel => h hrel _ _ hrel

theorem discard {first : Attempt σ α} {second : Attempt τ α} (h : Matches rel first second) :
    Matches rel (discard first) (discard second) :=
  fun _ _ hrel => (h _ _ hrel).map _

/-- A second try starts from what the first one left. -/
theorem tryCatch {first : Attempt σ α} {second : Attempt τ α} {handle : Failure → Attempt σ α}
    {handleOther : Failure → Attempt τ α} (hfirst : Matches rel first second)
    (hhandle : ∀ e, Matches rel (handle e) (handleOther e)) :
    Matches rel (tryCatch first handle) (tryCatch second handleOther) := by
  intro state other h
  have halike := hfirst state other h
  cases hresult : second other with
  | ok a after =>
    rw [hresult] at halike
    obtain ⟨between, hfound, hbetween⟩ := halike.of_ok
    rw [tryCatch_of_ok hfound, tryCatch_of_ok hresult]
    exact .ok a hbetween
  | error e after =>
    rw [hresult] at halike
    obtain ⟨between, hfound, hbetween⟩ := halike.of_error
    rw [tryCatch_of_error hfound, tryCatch_of_error hresult]
    exact hhandle e _ _ hbetween

theorem ite {c : Prop} [Decidable c] {first other : Attempt σ α} {second another : Attempt τ α}
    (hthen : Matches rel first second) (helse : Matches rel other another) :
    Matches rel (if c then first else other) (if c then second else another) := by
  by_cases hc : c
  · rw [if_pos hc, if_pos hc]
    exact hthen
  · rw [if_neg hc, if_neg hc]
    exact helse

end Matches

end Attempt

end SignedHandshake

/-!
## Runs of attempts

In a run one attempt is made for each of a list of inputs, and a failure does not end it: the
next attempt starts from the state that the failed one left. What is known of a run is how
each attempt ended, and the state at the end (`Attempt.run`), and what it passes through on
the way (`Attempt.states`).
-/

namespace SignedHandshake.Attempt

variable {σ τ α β γ : Type}

/-- Make an attempt for each input, one after the other: how they ended, and the state they left. -/
def run (step : α → Attempt σ β) : List α → σ → List (Except Failure β) × σ
  | [], state => ([], state)
  | input :: rest, state =>
    let result := step input state
    let (outcomes, last) := run step rest (left result)
    (outcome result :: outcomes, last)

/-- The states that a run passes through, from the one that it starts in to the one
that it leaves. -/
def states (step : α → Attempt σ β) : List α → σ → List σ
  | [], state => [state]
  | input :: rest, state => state :: states step rest (left (step input state))

/-- What the attempts gave that succeeded. -/
def successes (outcomes : List (Except Failure β)) : List β :=
  outcomes.filterMap Except.toOption

variable {step : α → Attempt σ β} {input : α} {rest : List α} {state after : σ}

/-- After a success, the run goes on from the state that it left. -/
theorem run_cons_of_ok {b : β} (h : step input state = .ok b after) :
    run step (input :: rest) state =
      (.ok b :: (run step rest after).1, (run step rest after).2) := by
  rw [run, h]
  rfl

/-- After a failure, the run goes on from the state that it left. -/
theorem run_cons_of_error {e : Failure} (h : step input state = .error e after) :
    run step (input :: rest) state =
      (.error e :: (run step rest after).1, (run step rest after).2) := by
  rw [run, h]
  rfl

/-- A run over inputs that are made from others is a run over these. -/
theorem run_map (f : γ → α) (inputs : List γ) (state : σ) :
    run step (inputs.map f) state = run (fun input => step (f input)) inputs state := by
  induction inputs generalizing state with
  | nil => rfl
  | cons input rest ih => rw [List.map_cons, run, run, ih]

/-- The first state that a run passes through is the one that it starts in. -/
theorem exists_states_eq_cons (step : α → Attempt σ β) (inputs : List α) (state : σ) :
    ∃ later, states step inputs state = state :: later := by
  cases inputs with
  | nil => exact ⟨[], rfl⟩
  | cons input rest => exact ⟨_, rfl⟩

/-! ### Good inputs

Attempts for good inputs, from states in which `inv` holds, leave such states.
Nothing is known of the others.
-/

section

variable {inv : σ → Prop} {good : α → Prop} {inputs : List α}
  (hkeeps : ∀ input state, inv state → good input → inv (left (step input state)))

include hkeeps

/-- A run over good inputs passes through states in which `inv` holds. -/
theorem of_mem_states (hgood : ∀ input ∈ inputs, good input) (hstate : inv state) {passed : σ}
    (h : passed ∈ states step inputs state) : inv passed := by
  induction inputs generalizing state with
  | nil =>
    rw [List.mem_singleton.mp h]
    exact hstate
  | cons input rest ih =>
    obtain ⟨hfirst, hrest⟩ := List.forall_mem_cons.mp hgood
    rcases List.mem_cons.mp h with rfl | h
    · exact hstate
    · exact ih hrest (hkeeps input state hstate hfirst) h

/-- If exactly the attempts for good inputs end in a certain way, then all attempts of a run do so
exactly if all inputs are good. -/
theorem run_forall₂_iff {holds : α → Except Failure β → Prop}
    (hholds : ∀ input state, inv state → (holds input (outcome (step input state)) ↔ good input))
    (hstate : inv state) :
    List.Forall₂ holds inputs (run step inputs state).1 ↔ ∀ input ∈ inputs, good input := by
  induction inputs generalizing state with
  | nil => exact iff_of_true .nil nofun
  | cons input rest ih =>
    rw [run, List.forall₂_cons, List.forall_mem_cons, hholds input state hstate]
    -- after a bad input, nothing is known of the state
    exact and_congr_right fun hfirst => ih (hkeeps input state hstate hfirst)

/-- If exactly the attempts for good inputs leave a state that is related to the one before,
then all states that a run passes through are related to the ones before exactly if all
inputs are good. -/
theorem isChain_states_iff {rel : σ → σ → Prop}
    (hrel : ∀ input state, inv state → (rel state (left (step input state)) ↔ good input))
    (hstate : inv state) :
    (states step inputs state).IsChain rel ↔ ∀ input ∈ inputs, good input := by
  induction inputs generalizing state with
  | nil => exact iff_of_true (.singleton state) nofun
  | cons input rest ih =>
    obtain ⟨later, hlater⟩ := exists_states_eq_cons step rest (left (step input state))
    rw [states, hlater, List.isChain_cons_cons, ← hlater, hrel input state hstate,
      List.forall_mem_cons]
    exact and_congr_right fun hfirst => ih (hkeeps input state hstate hfirst)

end

/-- What can be said of how each attempt ends, from the states that attempts keep to, can
be said all along a run. -/
theorem run_forall₂ {inv : σ → Prop} {holds : α → Except Failure β → Prop}
    (hkeeps : ∀ input, Keeps inv (step input))
    (hholds : ∀ input state, inv state → holds input (outcome (step input state)))
    (inputs : List α) {state : σ} (hstate : inv state) :
    List.Forall₂ holds inputs (run step inputs state).1 :=
  (run_forall₂_iff (fun input state hstate _ => hkeeps input state hstate)
    (fun input state hstate => iff_of_true (hholds input state hstate) trivial) hstate).mpr
    fun _ _ => trivial

/-- Two runs whose attempts correspond end attempt by attempt in ways that correspond. -/
theorem run_corresponds {failures : Failure → Failure → Prop} {values : β → γ → Prop}
    {rel : σ → τ → Prop} {other : α → Attempt τ γ} (h : ∀ input one two, rel one two →
      Corresponds failures values rel (step input one) (other input two))
    (inputs : List α) {one : σ} {two : τ} (hrel : rel one two) :
    List.Forall₂ (ExceptRel failures values) (run step inputs one).1 (run other inputs two).1 ∧
      rel (run step inputs one).2 (run other inputs two).2 := by
  induction inputs generalizing one two with
  | nil => exact ⟨.nil, hrel⟩
  | cons input rest ih =>
    have hfirst := h input one two hrel
    obtain ⟨hrest, hlast⟩ := ih hfirst.left
    exact ⟨.cons hfirst.outcome hrest, hlast⟩

end SignedHandshake.Attempt
