import SignedHandshake.Engine.Basic
import SignedHandshake.Proofs.Attempt.Rules

/-!
# Calls on an engine

The five operations of an engine answer in different ways. Here each of them is a call with a reply,
so that statements can speak of lists of calls.

- `EngineBehaviour.run`: make calls one after the other, whatever comes of each. This is what an
  engine in the hands of careless callers goes through.
- `EngineBehaviour.follow`: make the calls of a plan up to the first failure. This is what an engine
  goes through within one signature. `EngineBehaviour.made` says which calls of the plan that were.
- `EngineBehaviour.recording`: engines that carry a record of the calls made on them. What is said
  of `made` can be checked against that record (`recording_follow`).
-/

namespace SignedHandshake

variable {E ω : Type}

/-- What a call answers. -/
inductive EngineReply where
  | done
  | signature (bytes : Bytes)
  | verdict (valid : Bool)
  deriving DecidableEq

/-- The sort of failure that a call of an engine of this library may end with. -/
def EngineCall.refusal : EngineCall ω → FailureKind
  | .initSign .. | .initVerify _ => .invalidKey
  | .update _ | .sign | .verify _ => .signature

namespace EngineBehaviour

/-- Make a call. -/
def call (behaviour : EngineBehaviour E ω) : EngineCall ω → Attempt (E × ω) EngineReply
  | .initSign key random => (fun _ => .done) <$> behaviour.initSign key random
  | .initVerify key => (fun _ => .done) <$> behaviour.initVerify key
  | .update data => (fun _ => .done) <$> behaviour.update data
  | .sign => .signature <$> behaviour.sign
  | .verify signature => .verdict <$> behaviour.verify signature

/-- Make calls one after the other, whatever comes of each. -/
def run (behaviour : EngineBehaviour E ω) :
    List (EngineCall ω) → E × ω → List (Except Failure EngineReply) × (E × ω)
  | [], state => ([], state)
  | call :: rest, state =>
    let result := behaviour.call call state
    let (replies, last) := behaviour.run rest (Attempt.left result)
    (Attempt.outcome result :: replies, last)

end EngineBehaviour

/-! ## Plans -/

/-- Calls in the order in which they are to be made. Where the data of a call cannot be had, the
plan has the failure to get them. -/
abbrev CallPlan (ω : Type) := List (Except Failure (EngineCall ω))

namespace EngineBehaviour

variable (behaviour : EngineBehaviour E ω)

/-- Take one step of a plan. -/
def take (step : Except Failure (EngineCall ω)) : Attempt (E × ω) EngineReply := do
  behaviour.call (← Attempt.ofExcept step)

/-- Make the calls of a plan, up to the first failure. The result is the reply to the last call; if
the plan is empty, it is `reply`. -/
def follow (plan : CallPlan ω) (reply : EngineReply) : Attempt (E × ω) EngineReply :=
  plan.foldlM (fun _ step => behaviour.take step) reply

/-- The calls that are made when a plan is followed: all of them, or those up to and including the
first that fails, or those in front of the first whose data cannot be had. -/
def made : CallPlan ω → E × ω → List (EngineCall ω)
  | .ok call :: rest, state =>
    call :: match behaviour.call call state with
      | .ok _ after => made rest after
      | .error _ _ => []
  | _, _ => []

/-- Two plans, one behind the other. -/
theorem follow_append (first second : CallPlan ω) (reply : EngineReply) :
    behaviour.follow (first ++ second) reply =
      behaviour.follow first reply >>= behaviour.follow second :=
  List.foldlM_append

theorem follow_cons (step : Except Failure (EngineCall ω)) (rest : CallPlan ω)
    (reply : EngineReply) :
    behaviour.follow (step :: rest) reply = behaviour.take step >>= behaviour.follow rest :=
  List.foldlM_cons

theorem follow_one (call : EngineCall ω) (reply : EngineReply) :
    behaviour.follow [.ok call] reply = behaviour.call call := by
  rw [follow_cons]
  exact bind_pure (behaviour.call call)

/-- A plan that cannot be carried on has failed. -/
theorem follow_error (e : Failure) (rest : CallPlan ω) (reply : EngineReply) (state : E × ω) :
    behaviour.follow (.error e :: rest) reply state = .error e state := by
  rw [follow_cons]
  exact Attempt.bind_of_error rfl _

/-- A step on an engine, as a step on an engine that carries a record. -/
def record {α : Type} (call : EngineCall ω) (step : Attempt (E × ω) α) :
    Attempt ((E × List (EngineCall ω)) × ω) α := fun ((engine, calls), world) =>
  step.onPart (engine, world) fun (engine, world) => ((engine, calls ++ [call]), world)

end EngineBehaviour

end SignedHandshake
