import SignedHandshake.Engine.Basic

/-!
# Scripted engines

An engine that follows a script: it signs with filler bytes, verifies as it was told, and fails
where the script says so. It shows what callers of an engine do when an engine misbehaves.
-/

namespace SignedHandshake

/-- What scripted engines do. -/
structure EngineScript where
  /-- The length of a signature. -/
  signLength : Nat := 0
  /-- The byte that a signature consists of. -/
  fill : UInt8 := 0
  /-- The verdict on every signature. -/
  verdict : Bool := false
  /-- What happens at the first, second, … initialization for signing. -/
  initSignFailures : List (Option Failure) := []
  initVerifyFailure : Option Failure := none
  updateFailure : Option Failure := none
  signFailure : Option Failure := none
  verifyFailure : Option Failure := none

/-- A scripted engine. -/
structure ScriptedEngine where
  algorithm : Text
  /-- What happens at the initializations for signing that are still to come. -/
  initSignFailures : List (Option Failure)

namespace EngineScript

/-- A new engine under any name. -/
def newEngine (script : EngineScript) (algorithm : Text) : ScriptedEngine :=
  { algorithm, initSignFailures := script.initSignFailures }

/-- Fail if there is a failure, and otherwise give a result. -/
def answer {σ α : Type} (failure : Option Failure) (result : α) : Attempt σ α :=
  match failure with
  | some e => throw e
  | none => pure result

/-- How engines that follow the script behave. -/
def behaviour {ω : Type} (script : EngineScript) : EngineBehaviour ScriptedEngine ω where
  algorithm := ScriptedEngine.algorithm
  initSign _ _ := fun (engine, world) =>
    answer engine.initSignFailures.head?.join ()
      ({ engine with initSignFailures := engine.initSignFailures.tail }, world)
  initVerify _ := answer script.initVerifyFailure ()
  update _ := answer script.updateFailure ()
  sign := answer script.signFailure (List.replicate script.signLength script.fill)
  verify _ := answer script.verifyFailure script.verdict

end EngineScript

end SignedHandshake
