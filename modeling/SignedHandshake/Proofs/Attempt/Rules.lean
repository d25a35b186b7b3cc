import SignedHandshake.Attempt

/-!
# Rules for attempts

An attempt ends with a value or a failure, and in either case leaves a state. How it ends can be
taken apart step by step, and so can what it leaves.
-/

namespace SignedHandshake

/-!
## Success step by step

A computation that may fail succeeds exactly if each of its steps does. With these lemmas a success
is taken apart from the first step on, and no failing branch has to be looked at.
-/

variable {ε ε' α β : Type}

@[simp] theorem except_bind_eq_ok_iff {first : Except ε α} {next : α → Except ε β} {b : β} :
    (first >>= next) = .ok b ↔ ∃ a, first = .ok a ∧ next a = .ok b := by
  cases first with
  | ok a =>
    constructor
    · intro h
      exact ⟨a, rfl, h⟩
    · rintro ⟨_, ⟨⟩, h⟩
      exact h
  | error e =>
    constructor
    · intro h
      cases h
    · rintro ⟨_, ⟨⟩, -⟩

/-- And it fails exactly if the first step that is not a success fails. -/
theorem except_bind_eq_error_iff {first : Except ε α} {next : α → Except ε β} {e : ε} :
    (first >>= next) = .error e ↔ first = .error e ∨ ∃ a, first = .ok a ∧ next a = .error e := by
  cases first with
  | ok a =>
    constructor
    · intro h
      exact .inr ⟨a, rfl, h⟩
    · rintro (⟨⟨⟩⟩ | ⟨_, ⟨⟩, h⟩)
      exact h
  | error cause =>
    constructor
    · rintro ⟨⟩
      exact .inl rfl
    · rintro (⟨⟨⟩⟩ | ⟨_, ⟨⟩, -⟩)
      rfl

@[simp] theorem except_map_eq_ok_iff {f : α → β} {result : Except ε α} {b : β} :
    result.map f = .ok b ↔ ∃ a, result = .ok a ∧ f a = b := by
  cases result <;> simp [Except.map]

@[simp] theorem except_mapError_eq_ok_iff {f : ε → ε'} {result : Except ε α} {a : α} :
    result.mapError f = .ok a ↔ result = .ok a := by
  cases result with
  | ok b =>
    constructor
    · rintro ⟨⟩
      rfl
    · rintro ⟨⟩
      rfl
  | error e => exact ⟨nofun, nofun⟩

@[simp] theorem except_map_eq_error_iff {f : α → β} {result : Except ε α} {e : ε} :
    result.map f = .error e ↔ result = .error e := by
  cases result <;> simp [Except.map]

@[simp] theorem except_mapError_eq_error_iff {f : ε → ε'} {result : Except ε α} {e : ε'} :
    result.mapError f = .error e ↔ ∃ cause, result = .error cause ∧ f cause = e := by
  cases result with
  | ok a => exact ⟨nofun, nofun⟩
  | error cause =>
    constructor
    · rintro ⟨⟩
      exact ⟨cause, rfl, rfl⟩
    · rintro ⟨_, ⟨⟩, rfl⟩
      rfl

theorem except_toOption_eq_some_iff {result : Except ε α} {a : α} :
    result.toOption = some a ↔ result = .ok a := by
  cases result <;> simp [Except.toOption]

/-- A check that succeeds lets what comes after it decide. -/
theorem except_ite_error_eq_ok_iff {c : Prop} [Decidable c] {e : ε} {result : Except ε α} {a : α} :
    (if c then result else .error e) = .ok a ↔ c ∧ result = .ok a := by
  by_cases hc : c <;> simp [hc]

/-- A check that fails early lets what comes after it decide if it does not apply. -/
theorem except_error_ite_eq_ok_iff {c : Prop} [Decidable c] {e : ε} {result : Except ε α} {a : α} :
    (if c then .error e else result) = .ok a ↔ ¬ c ∧ result = .ok a := by
  by_cases hc : c <;> simp [hc]

/-- A check in a sequence of steps that fails if it applies lets what comes after it
decide if not. -/
theorem except_throw_ite_eq_ok_iff {c : Prop} [Decidable c] {e : ε} {next : PUnit → Except ε α}
    {result : Except ε α} {a : α} :
    (if c then throw e >>= next else result) = .ok a ↔ ¬ c ∧ result = .ok a :=
  except_error_ite_eq_ok_iff

end SignedHandshake

/-!
## Attempts

A result has two parts: how the attempt ended (`outcome`) and the state it left (`left`).
Two kinds of statements are made about attempts, and each kind has one rule for each way
to put attempts together.

- `Keeps inv step`: whatever happens, `step` leaves a state in which `inv` holds, if it held before.
  A failure in the middle is no exception, which is what matters for engines that are used again.
- `Alike rel`: two results end the same way and leave related states.
-/

namespace SignedHandshake.Attempt

variable {σ τ υ α β : Type}

/-! ### Results -/

/-- How an attempt ended. -/
def outcome : EStateM.Result Failure σ α → Except Failure α
  | .ok a _ => .ok a
  | .error e _ => .error e

/-- The state that an attempt left. -/
def left : EStateM.Result Failure σ α → σ
  | .ok _ state => state
  | .error _ state => state

@[simp] theorem outcome_ok (a : α) (state : σ) :
    outcome (.ok a state : EStateM.Result Failure σ α) = .ok a := rfl

@[simp] theorem outcome_error (e : Failure) (state : σ) :
    outcome (.error e state : EStateM.Result Failure σ α) = .error e := rfl

@[simp] theorem outcome_ofExcept (result : Except Failure α) (state : σ) :
    outcome (ofExcept result state) = result := by
  cases result <;> rfl

@[simp] theorem left_ofExcept (result : Except Failure α) (state : σ) :
    left (ofExcept result state) = state := by
  cases result <;> rfl

/-- A result is made up of how the attempt ended and the state it left. -/
theorem eq_ofExcept (result : EStateM.Result Failure σ α) :
    result = ofExcept (outcome result) (left result) := by
  cases result <;> rfl

/-- An attempt succeeds in some state exactly if it ends well. -/
theorem exists_eq_ok_iff {result : EStateM.Result Failure σ α} {a : α} :
    (∃ after, result = .ok a after) ↔ outcome result = .ok a := by
  cases result <;> simp

theorem ofExcept_inj {ending other : Except Failure α} {state after : σ} :
    ofExcept ending state = ofExcept other after ↔ ending = other ∧ state = after := by
  cases ending <;> cases other <;> simp [ofExcept]

/-- An attempt that raises its causes as failures succeeds exactly with the value there is. -/
theorem ofExcept_mapError_eq_ok_iff {ε : Type} {raise : ε → Failure} {result : Except ε α} {a : α}
    {state after : σ} :
    ofExcept (result.mapError raise) state = .ok a after ↔ result = .ok a ∧ state = after := by
  show _ = ofExcept (.ok a) after ↔ _
  rw [ofExcept_inj, except_mapError_eq_ok_iff]

/-- And it fails exactly with what one of its causes is raised as. -/
theorem ofExcept_mapError_eq_error_iff {ε : Type} {raise : ε → Failure} {result : Except ε α}
    {e : Failure} {state after : σ} :
    ofExcept (result.mapError raise) state = .error e after ↔
      (∃ cause, result = .error cause ∧ raise cause = e) ∧ state = after := by
  show _ = ofExcept (.error e) after ↔ _
  rw [ofExcept_inj, except_mapError_eq_error_iff]

@[simp] theorem left_onPart (step : Attempt τ α) (part : τ) (wrap : τ → σ) :
    left (step.onPart part wrap) = wrap (left (step part)) := by
  unfold onPart
  cases step part <;> rfl

@[simp] theorem outcome_onPart (step : Attempt τ α) (part : τ) (wrap : τ → σ) :
    outcome (step.onPart part wrap) = outcome (step part) := by
  unfold onPart
  cases step part <;> rfl

/-- Steps that end alike on their parts do so on the whole. -/
theorem onPart_congr {step other : Attempt τ α} {part next : τ} (h : step part = other next)
    (wrap : τ → σ) : step.onPart part wrap = other.onPart next wrap := by
  rw [onPart, onPart, h]

theorem onPart_of_ofExcept {step : Attempt τ α} {part after : τ} {ending : Except Failure α}
    (h : step part = ofExcept ending after) (wrap : τ → σ) :
    step.onPart part wrap = ofExcept ending (wrap after) := by
  rw [onPart, h]
  cases ending <;> rfl

theorem onPart_of_ok {step : Attempt τ α} {part after : τ} {a : α} (h : step part = .ok a after)
    (wrap : τ → σ) : step.onPart part wrap = .ok a (wrap after) := by
  rw [onPart, h]

theorem onPart_of_error {step : Attempt τ α} {part after : τ} {e : Failure}
    (h : step part = .error e after)
    (wrap : τ → σ) : step.onPart part wrap = .error e (wrap after) := by
  rw [onPart, h]

@[simp] theorem left_map (f : α → β) (step : Attempt σ α) (state : σ) :
    left ((f <$> step) state) = left (step state) := by
  show left (EStateM.map f step state) = _
  rw [EStateM.map]
  cases step state <;> rfl

/-- How one attempt after another ends. -/
theorem outcome_bind (first : Attempt σ α) (next : α → Attempt σ β) (state : σ) :
    outcome ((first >>= next) state) =
      match outcome (first state) with
      | .ok a => outcome (next a (left (first state)))
      | .error e => .error e := by
  cases hresult : first state with
  | ok a after => rw [bind_of_ok hresult, outcome_ok, left]
  | error e after => rw [bind_of_error hresult, outcome_error, outcome_error]

/-- What is made of the value of a success. -/
theorem map_eq_ok_iff {f : α → β} {step : Attempt σ α} {state after : σ} {b : β} :
    (f <$> step) state = .ok b after ↔ ∃ a, step state = .ok a after ∧ f a = b := by
  show EStateM.map f step state = _ ↔ _
  rw [EStateM.map]
  constructor
  · intro h
    cases hresult : step state with
    | ok a between =>
      simp only [hresult] at h
      cases h
      exact ⟨a, rfl, rfl⟩
    | error e between =>
      simp only [hresult] at h
      cases h
  · rintro ⟨a, hresult, rfl⟩
    simp only [hresult]

/-- Of an attempt that failed, its failures are the one that it failed with. -/
theorem exists_error_iff {result : EStateM.Result Failure σ α} {e : Failure} {state : σ}
    (h : result = .error e state) {holds : Failure → Prop} :
    (∃ other after, result = .error other after ∧ holds other) ↔ holds e := by
  constructor
  · rintro ⟨other, after, hother, hholds⟩
    rw [h] at hother
    cases hother
    exact hholds
  · intro hholds
    exact ⟨e, state, h, hholds⟩

/-- Of an attempt that succeeded, there are none. -/
theorem not_exists_error {result : EStateM.Result Failure σ α} {a : α} {state : σ}
    (h : result = .ok a state) {holds : Failure → Prop} :
    ¬ ∃ other after, result = .error other after ∧ holds other := by
  rintro ⟨other, after, hother, -⟩
  rw [h] at hother
  cases hother

/-- An attempt whose value is replaced ends the same way otherwise. -/
theorem map_of_ofExcept {first : Attempt σ α} {state after : σ} {ending : Except Failure α}
    (h : first state = ofExcept ending after) (f : α → β) :
    (f <$> first) state = ofExcept (ending.map f) after := by
  show EStateM.map f first state = _
  rw [EStateM.map, h]
  cases ending <;> rfl

/-- An attempt whose value is dropped ends the same way otherwise. -/
theorem discard_of_ofExcept {first : Attempt σ α} {state after : σ} {ending : Except Failure α}
    (h : first state = ofExcept ending after) :
    (discard first : Attempt σ PUnit) state = ofExcept (ending.map fun _ => ⟨⟩) after :=
  map_of_ofExcept h _

/-- A value that is dropped makes no difference to what follows. -/
theorem discard_bind (first : Attempt σ α) (next : Attempt σ β) :
    (do discard first; next) = (do let _ ← first; next) :=
  bind_map_left ..

/-! ### What is kept -/

/-- Whatever happens, a step leaves the invariant intact. -/
def Keeps (inv : σ → Prop) (step : Attempt σ α) : Prop :=
  ∀ state, inv state → inv (left (step state))

namespace Keeps

variable {inv : σ → Prop}

theorem pure (a : α) : Keeps inv (Pure.pure a) :=
  fun _ h => h

theorem throw (e : Failure) : Keeps inv (throw e : Attempt σ α) :=
  fun _ h => h

theorem get : Keeps inv (MonadState.get : Attempt σ σ) :=
  fun _ h => h

theorem ofExcept (result : Except Failure α) : Keeps inv (Attempt.ofExcept result) := by
  intro state h
  rw [left_ofExcept]
  exact h

theorem modify {f : σ → σ} (hf : ∀ state, inv state → inv (f state)) :
    Keeps inv (modify f : Attempt σ PUnit) :=
  hf

theorem bind {first : Attempt σ α} {next : α → Attempt σ β} (hfirst : Keeps inv first)
    (hnext : ∀ a, Keeps inv (next a)) : Keeps inv (first >>= next) := by
  intro state h
  have hafter := hfirst state h
  cases hresult : first state with
  | ok a after =>
    rw [hresult] at hafter
    rw [bind_of_ok hresult]
    exact hnext a after hafter
  | error e after =>
    rw [hresult] at hafter
    rw [bind_of_error hresult]
    exact hafter

theorem discard {first : Attempt σ α} (hfirst : Keeps inv first) : Keeps inv (discard first) := by
  intro state h
  have hafter := hfirst state h
  show inv (left (EStateM.map (fun _ => PUnit.unit) first state))
  cases hresult : first state with
  | ok a after | error e after =>
    rw [hresult] at hafter
    rw [EStateM.map, hresult]
    exact hafter

/-- A second try starts from what the first one left. -/
theorem tryCatch {first : Attempt σ α} {second : Failure → Attempt σ α} (hfirst : Keeps inv first)
    (hsecond : ∀ e, Keeps inv (second e)) : Keeps inv (tryCatch first second) := by
  intro state h
  have hafter := hfirst state h
  cases hresult : first state with
  | ok a after =>
    rw [hresult] at hafter
    rw [tryCatch_of_ok hresult]
    exact hafter
  | error e after =>
    rw [hresult] at hafter
    rw [tryCatch_of_error hresult]
    exact hsecond e after hafter

theorem ite {c : Prop} [Decidable c] {first second : Attempt σ α} (hfirst : Keeps inv first)
    (hsecond : Keeps inv second) : Keeps inv (if c then first else second) := by
  by_cases hc : c
  · rw [if_pos hc]
    exact hfirst
  · rw [if_neg hc]
    exact hsecond

/-- A step on a part keeps what it keeps of the part. -/
theorem onPart {step : Attempt τ α} {inv : τ → Prop} (hstep : Keeps inv step) (part : τ)
    {wrap : τ → σ}
    {whole : σ → Prop} (hpart : inv part) (hwrap : ∀ part, inv part → whole (wrap part)) :
    whole (left (step.onPart part wrap)) := by
  rw [left_onPart]
  exact hwrap _ (hstep part hpart)

end Keeps

/-! ### Results that are alike -/

/-- Two attempts end the same way, and leave states that are related. -/
inductive Alike (rel : σ → τ → Prop) :
    EStateM.Result Failure σ α → EStateM.Result Failure τ α → Prop where
  | ok (a : α) {state : σ} {other : τ} (h : rel state other) : Alike rel (.ok a state) (.ok a other)
  | error (e : Failure) {state : σ} {other : τ} (h : rel state other) :
    Alike rel (.error e state) (.error e other)

namespace Alike

variable {rel : σ → τ → Prop} {result : EStateM.Result Failure σ α}
  {other : EStateM.Result Failure τ α}

theorem left (h : Alike rel result other) : rel (left result) (Attempt.left other) := by
  cases h with
  | ok a h | error e h => exact h

theorem outcome (h : Alike rel result other) : outcome result = Attempt.outcome other := by
  cases h <;> rfl

/-- What is made of the values makes no difference. -/
theorem map {first : Attempt σ α} {second : Attempt τ α} {state : σ} {after : τ}
    (h : Alike rel (first state) (second after)) (f : α → β) :
    Alike rel ((f <$> first) state) ((f <$> second) after) := by
  show Alike rel (EStateM.map f first state) (EStateM.map f second after)
  rw [EStateM.map, EStateM.map]
  generalize first state = one at h ⊢
  generalize second after = two at h ⊢
  cases h with
  | ok a h => exact .ok (f a) h
  | error e h => exact .error e h

theorem of_ok {a : α} {after : τ} (h : Alike rel result (.ok a after)) :
    ∃ state, result = .ok a state ∧ rel state after := by
  cases h with
  | ok a h => exact ⟨_, rfl, h⟩

theorem of_ofExcept {ending : Except Failure α} {after : τ}
    (h : Alike rel result (ofExcept ending after)) :
    ∃ state, result = ofExcept ending state ∧ rel state after := by
  cases ending with
  | ok a =>
    cases h with
    | ok a h => exact ⟨_, rfl, h⟩
  | error e =>
    cases h with
    | error e h => exact ⟨_, rfl, h⟩

end Alike

end SignedHandshake.Attempt
