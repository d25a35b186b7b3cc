import SignedHandshake.Failure

/-!
# Attempts

An attempt is a step that works on a state and may fail. What it did to the state before it failed
stays done: an engine that took half of the data keeps that half.

The lemmas say what a sequence of attempts and a second try come to, once it is known what the first
of them came to.
-/

namespace SignedHandshake

/-- A step on a state that may fail; the state survives the failure. -/
abbrev Attempt (σ α : Type) := EStateM Failure σ α

namespace Attempt

variable {σ τ α β : Type}

/-- A result that needs no state, as a step. -/
def ofExcept : Except Failure α → Attempt σ α
  | .ok a, state => .ok a state
  | .error e, state => .error e state

/-- Work on a part of a state; `wrap` puts the part back. -/
def onPart (step : Attempt τ α) (part : τ) (wrap : τ → σ) : EStateM.Result Failure σ α :=
  match step part with
  | .ok a part => .ok a (wrap part)
  | .error e part => .error e (wrap part)

theorem pure_apply (a : α) (state : σ) : (pure a : Attempt σ α) state = .ok a state := rfl

/-! ## One attempt after another -/

section

variable {first : Attempt σ α} {state after : σ} {a : α} {e : Failure}

/-- After a success, the next step goes on from the state that the first one left. -/
theorem bind_of_ok (h : first state = .ok a after) (next : α → Attempt σ β) :
    (first >>= next) state = next a after := by
  simp [bind, EStateM.bind, h]

/-- After a failure, there is no next step. -/
theorem bind_of_error (h : first state = .error e after) (next : α → Attempt σ β) :
    (first >>= next) state = .error e after := by
  simp [bind, EStateM.bind, h]

/-- After a success, nothing is tried again. -/
theorem tryCatch_of_ok (h : first state = .ok a after) (second : Failure → Attempt σ α) :
    tryCatch first second state = .ok a after := by
  show EStateM.tryCatch first second state = _
  delta EStateM.tryCatch
  simp only [h]

/-- After a failure, the second try goes on from the state that the first one left. -/
theorem tryCatch_of_error (h : first state = .error e after) (second : Failure → Attempt σ α) :
    tryCatch first second state = second e after := by
  show EStateM.tryCatch first second state = _
  delta EStateM.tryCatch
  simp only [h]
  rfl

end

end Attempt

end SignedHandshake
