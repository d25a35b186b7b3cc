import SignedHandshake.AlgorithmPair
import SignedHandshake.Engine.Standard
import SignedHandshake.Handshake.Message
import SignedHandshake.Key.Factory
import SignedHandshake.Log
import SignedHandshake.NameMap

/-!
# Where signing and verifying happen (specification §5)

One engine serves all calls that use its algorithm, and it keeps whatever the last call left in it.
A `Workshop` holds these engines; a `Bench` holds everything else that calls share: the key
factories, the world that engines and factories act on, and the lines logged so far.

A call first fetches its engine (`Workshop.withEngine`), then works on that engine and the bench,
and the engine goes back to the workshop however the work ended. So what a call does to the engine
it uses stays visible to the next call, and no other engine is ever touched.

Logging a line adds it to the log of the bench (`Work.note`), which cannot fail. A logger that
throws, and an entry that throws when it is asked for its label, have no counterpart here: nothing
is said about calls in which one of them does.
-/

namespace SignedHandshake

/-- Where engines and key factories come from, and how the engines behave. -/
structure Supplier (E ω : Type) where
  behaviour : EngineBehaviour E ω
  makeEngine : (name : Text) → Attempt ω E
  makeFactory : (name : Text) → Attempt ω (KeyFactory ω)

/-- The engines and key factories of this library. -/
def Supplier.standard {ω : Type} (suite : Suite) : Supplier (SignatureEngine ω) ω where
  behaviour := SignatureEngine.behaviour suite
  makeEngine name := .ofExcept (SignatureEngine.create name)
  makeFactory name := .ofExcept (KeyFactory.create suite name)

/-- What a call works on besides its engine. -/
structure Bench (ω : Type) where
  factories : NameMap (KeyFactory ω) := {}
  world : ω
  log : List LogLine := []

/-- Engines by the name they were asked for under, and the bench. -/
abbrev Workshop (E ω : Type) := NameMap E × Bench ω

variable {E ω α : Type}

namespace Bench

/-- Log a message. -/
def note (bench : Bench ω) (level : MessageLevel) (message : Text) : Bench ω :=
  { bench with log := bench.log ++ [⟨level, message⟩] }

/-- A step on the world, as a step on the bench. -/
def onWorld (step : Attempt ω α) : Attempt (Bench ω) α := fun bench =>
  step.onPart bench.world fun world => { bench with world }

end Bench

/-! ## Work on one engine -/

/-- Work on an engine and the bench. -/
abbrev Work (E ω α : Type) := Attempt (E × Bench ω) α

namespace Work

/-- Let the engine take a step. -/
def engine (step : Attempt (E × ω) α) : Work E ω α := fun (engine, bench) =>
  step.onPart (engine, bench.world) fun (engine, world) => (engine, { bench with world })

/-- Take a step with the key factories. -/
def factories (step : Attempt (NameMap (KeyFactory ω) × ω) α) : Work E ω α := fun (engine, bench) =>
  step.onPart (bench.factories, bench.world) fun (factories, world) =>
    (engine, { bench with factories, world })

/-- Log a message. -/
def note (level : MessageLevel) (message : Text) : Work E ω Unit :=
  modify fun (engine, bench) => (engine, bench.note level message)

/-- Feed entries to the engine, strictly in order, and log each one that the engine took. The
entries are numbered from `index`; the result is the number behind the last. -/
def feedFrom (behaviour : EngineBehaviour E ω) (index : Nat) : Transcript → Work E ω Nat
  | [] => pure index
  | entry :: rest => do
    let bytes ← Attempt.ofExcept entry.canonicalBytes
    engine (behaviour.update bytes)
    note .trace (s!"  [{index}] - " ++ entry.label)
    feedFrom behaviour (index + 1) rest

/-- Feed a transcript to the engine. The result is the number of its entries. -/
def feed (behaviour : EngineBehaviour E ω) (transcript : Transcript) : Work E ω Nat :=
  feedFrom behaviour 0 transcript

end Work

/-! ## Fetching the engine -/

namespace Workshop

/-- Do work on the engine with this name, which is made if there is none yet. -/
def withEngine (supplier : Supplier E ω) (name : Text) (work : Work E ω α) :
    Attempt (Workshop E ω) α := fun workshop =>
  match NameMap.obtain (fun name => Bench.onWorld (supplier.makeEngine name)) name workshop with
  | .error e workshop => .error e workshop
  | .ok engine (engines, bench) =>
    work.onPart (engine, bench) fun (engine, bench) => (engines.insert name engine, bench)

/-- Do work on the engine for an algorithm pair; not every pair has one. -/
def withEngineFor (supplier : Supplier E ω) (pair : AlgorithmPair) (work : Text → Work E ω α) :
    Attempt (Workshop E ω) α :=
  match pair.engineName? with
  | some name => withEngine supplier name (work name)
  | none => throw (.noSuchAlgorithm pair.text)

/-- Log a message. -/
def note (workshop : Workshop E ω) (level : MessageLevel) (message : Text) : Workshop E ω :=
  (workshop.1, workshop.2.note level message)

end Workshop

end SignedHandshake
