import SignedHandshake.Engine.Standard
import SignedHandshake.Proofs.Attempt.Rules

/-!
# What an engine amounts to

The two sorts of engines differ in what they store and when they drop it. What they have in common
is a machine that is either idle, or ready for one of the two roles with a key and the data that
arrived since it got ready or was last used. Which primitive the key is for is settled once, when
the machine gets ready; after that the machine only gathers data and hands them to the primitive.

`Machine.behaviour` is written down without digests and without pieces. That the engines of this
library behave like it is shown in `Proofs.Engine.Refinement`.
-/

namespace SignedHandshake

/-- The algorithm of an engine. -/
inductive EngineAlgorithm where
  | overDigest (hash : HashName)
  | overMessage (variant : EdVariant)
  deriving DecidableEq

/-- The part of an algorithm that is used with one key: the curve is known. -/
inductive Primitive where
  | overDigest (hash : HashName) (curve : NamedCurve)
  | overMessage (variant : EdVariant)
  deriving DecidableEq

/-! ## Primitives -/

namespace Primitive

variable (suite : Suite)

/-- The randomness that goes into one signature. -/
def draw {ω : Type} (random : RandomSource ω) : Primitive → Attempt ω Bytes
  | overDigest _ _ => random.nextBytes EcdsaEngine.entropyLength
  | overMessage _ => pure []

/-- The signature over a message. -/
def sign (message key entropy : Bytes) : Primitive → Option Bytes
  | overDigest hash curve =>
    (suite.overDigest curve).sign (hash.function.digest message) key entropy
  | overMessage variant => (suite.overMessage variant).sign message key

/-- The reason that the scheme gives for not signing a message. -/
def refusal (message : Bytes) : Primitive → Text
  | overDigest hash curve => (suite.overDigest curve).refusal (hash.function.digest message)
  | overMessage variant => (suite.overMessage variant).refusal message

/-- The verdict on a signature over a message, or the refusal of its form. -/
def verdict (message key signature : Bytes) : Primitive → Except EngineError Bool
  | overDigest hash curve =>
    if (suite.overDigest curve).isSignature signature then
      .ok ((suite.overDigest curve).verify signature (hash.function.digest message) key)
    else
      .error (.malformedSignature (EcdsaEngine.nameFor hash)
        ((suite.overDigest curve).refusal signature))
  | overMessage variant =>
    if signature.length = variant.signatureLength then
      .ok ((suite.overMessage variant).verify signature message key)
    else .error (.wrongSignatureLength variant.name variant.signatureLength signature.length)

end Primitive

/-! ## Algorithms -/

namespace EngineAlgorithm

/-- The name of the algorithm. -/
def name : EngineAlgorithm → Text
  | overDigest hash => EcdsaEngine.nameFor hash
  | overMessage variant => variant.name

/-- The algorithm with this name. -/
def ofName? (name : Text) : Option EngineAlgorithm :=
  match HashName.all.find? fun hash => EcdsaEngine.nameFor hash == name with
  | some hash => some (overDigest hash)
  | none => (EdVariant.ofName? name).map overMessage

/-- An algorithm has the name it is found under. -/
theorem name_of_ofName? {name : Text} {algorithm : EngineAlgorithm}
    (h : ofName? name = some algorithm) : algorithm.name = name := by
  unfold ofName? at h
  cases hhash : HashName.all.find? fun hash => EcdsaEngine.nameFor hash == name with
  | some hash =>
    simp only [hhash] at h
    cases h
    have hsame := List.find?_some hhash
    exact eq_of_beq hsame
  | none =>
    simp only [hhash] at h
    obtain ⟨variant, hvariant, rfl⟩ := Option.map_eq_some_iff.mp h
    unfold EdVariant.ofName? at hvariant
    have hsame := List.find?_some hvariant
    exact eq_of_beq hsame

variable (suite : Suite)

/-- The primitive for a private key, if the algorithm takes the key. -/
def acceptPrivate (key : Key) : EngineAlgorithm → Except EngineError Primitive
  | overDigest hash => do
    let curve ← EcdsaEngine.curveFor (EcdsaEngine.nameFor hash) key
    if key.role = .privateKey ∧ (suite.overDigest curve).isPrivateKey key.encoded then
      .ok (.overDigest hash curve)
    else .error (.invalidScalar (EcdsaEngine.nameFor hash) curve)
  | overMessage variant => do
    EdDsaEngine.checkKey variant .privateKey key
    return .overMessage variant

/-- The primitive for a public key, if the algorithm takes the key. -/
def acceptPublic (key : Key) : EngineAlgorithm → Except EngineError Primitive
  | overDigest hash => do
    let curve ← EcdsaEngine.curveFor (EcdsaEngine.nameFor hash) key
    if (suite.overDigest curve).isPublicKey key.encoded then .ok (.overDigest hash curve)
    else .error (.invalidPoint curve ((suite.overDigest curve).refusal key.encoded))
  | overMessage variant => do
    EdDsaEngine.checkKey variant .publicKey key
    EdDsaEngine.checkPoint suite variant key.encoded
    return .overMessage variant

end EngineAlgorithm

/-! ## The machine -/

/-- What a machine is ready for: a primitive, a key and the data that arrived. -/
inductive Readiness (ω : Type) where
  | idle
  | signing (primitive : Primitive) (key : Bytes) (random : RandomSource ω) (data : Bytes)
  | verifying (primitive : Primitive) (key : Bytes) (data : Bytes)

/-- A machine for one algorithm. -/
structure Machine (ω : Type) where
  algorithm : EngineAlgorithm
  readiness : Readiness ω

namespace Machine

variable {ω : Type}

/-- Get ready, or be idle. -/
def enter (machine : Machine ω) (world : ω) :
    Except EngineError (Readiness ω) → EStateM.Result Failure (Machine ω × ω) Unit
  | .ok readiness => .ok () ({ machine with readiness }, world)
  | .error e => .error e.toFailure ({ machine with readiness := .idle }, world)

variable (suite : Suite)

/-- What a private key makes a machine ready for. -/
def readyToSign (algorithm : EngineAlgorithm) (key : Key) (random : RandomSource ω) :
    Except EngineError (Readiness ω) :=
  (algorithm.acceptPrivate suite key).map fun primitive => .signing primitive key.encoded random []

/-- What a public key makes a machine ready for. -/
def readyToVerify (algorithm : EngineAlgorithm) (key : Key) : Except EngineError (Readiness ω) :=
  (algorithm.acceptPublic suite key).map fun primitive => .verifying primitive key.encoded []

/-- Get ready to sign. -/
def initSign (key : Key) (random : RandomSource ω) : Attempt (Machine ω × ω) Unit :=
  fun (machine, world) => machine.enter world (readyToSign suite machine.algorithm key random)

/-- Get ready to verify. -/
def initVerify (key : Key) : Attempt (Machine ω × ω) Unit :=
  fun (machine, world) => machine.enter world (readyToVerify suite machine.algorithm key)

/-- Gather data. -/
def update (piece : Bytes) : Attempt (Machine ω × ω) Unit :=
  fun (machine, world) =>
    match machine.readiness with
    | .idle => .error (EngineError.notInitialized machine.algorithm.name).toFailure (machine, world)
    | .signing primitive key random data =>
      .ok () ({ machine with readiness := .signing primitive key random (data ++ piece) }, world)
    | .verifying primitive key data =>
      .ok () ({ machine with readiness := .verifying primitive key (data ++ piece) }, world)

/-- Have the data signed. They are gone afterwards, also if there is no signature. -/
def sign : Attempt (Machine ω × ω) Bytes :=
  fun (machine, world) =>
    match machine.readiness with
    | .signing primitive key random data =>
      let next := { machine with readiness := .signing primitive key random [] }
      let failed cause := (EngineError.signingFailed machine.algorithm.name cause).toFailure
      match primitive.draw random world with
      | .error e world => .error (failed e) (next, world)
      | .ok entropy world =>
        match primitive.sign suite data key entropy with
        | some signature => .ok signature (next, world)
        | none => .error (failed (.primitive (primitive.refusal suite data))) (next, world)
    | _ => .error (EngineError.notSigning machine.algorithm.name).toFailure (machine, world)

/-- Have a signature over the data checked. The data are gone afterwards. -/
def verify (signature : Bytes) : Attempt (Machine ω × ω) Bool :=
  fun (machine, world) =>
    match machine.readiness with
    | .verifying primitive key data =>
      Attempt.ofExcept ((primitive.verdict suite data key signature).mapError EngineError.toFailure)
        ({ machine with readiness := .verifying primitive key [] }, world)
    | _ => .error (EngineError.notVerifying machine.algorithm.name).toFailure (machine, world)

/-- How machines behave. -/
def behaviour : EngineBehaviour (Machine ω) ω where
  algorithm machine := machine.algorithm.name
  initSign := initSign suite
  initVerify := initVerify suite
  update := update
  sign := sign suite
  verify := verify suite

end Machine

end SignedHandshake
