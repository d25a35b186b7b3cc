import SignedHandshake.Digest.Sha
import SignedHandshake.Engine.Basic
import SignedHandshake.Text.Case

/-!
# The engines of this library

- `EcdsaEngine`: an engine for signatures over a digest. It hashes what it is fed as it arrives.
- `EdDsaEngine`: an engine for signatures over a message. It keeps what it is fed (RFC 8032).
- `SignatureEngine`: one or the other, by its name.
-/

namespace SignedHandshake

/-!
## Engines for signatures over a digest

The engine hashes what it is fed as it arrives and keeps no copy of it. A failed initialization
leaves it idle, whatever it was ready for before. Signing and verifying start a new digest and keep
the key.
-/

/-- What an engine is ready for, with the key and the digest of what it was fed. -/
inductive DigestPhase (ω : Type) (H : Digest.BlockHash) where
  | idle
  | signing (curve : NamedCurve) (scalar : Bytes) (random : RandomSource ω)
      (digest : Digest.State H)
  | verifying (curve : NamedCurve) (point : Bytes) (digest : Digest.State H)

/-- An engine for signatures over a digest. -/
structure EcdsaEngine (ω : Type) where
  hash : HashName
  phase : DigestPhase ω hash.function

namespace EcdsaEngine

variable {ω : Type}

/-- An engine that is ready for nothing yet. -/
def new (hash : HashName) : EcdsaEngine ω :=
  { hash, phase := .idle }

/-- The name of the algorithm with a given hash function. -/
def nameFor (hash : HashName) : Text :=
  hash.name ++ "withECDSA"

/-- The name of the algorithm. -/
def algorithm (engine : EcdsaEngine ω) : Text :=
  nameFor engine.hash

/-- How many random bytes go into a signature. -/
def entropyLength : Nat := 32

/-- Whether a key's algorithm is the one of these engines. -/
def isFamily (keyAlgorithm : Text) : Bool :=
  let name := keyAlgorithm.upper
  name == "EC" || name == "ECDSA"

/-- The curve of a key that these engines can use. -/
def curveFor (algorithm : Text) (key : Key) : Except EngineError NamedCurve :=
  if ¬ isFamily key.algorithm then .error (.foreignAlgorithm algorithm key.algorithm)
  else if key.format ≠ .raw then .error (.foreignFormat algorithm key.format)
  else match key.curve with
    | none => .error .noCurve
    | some curve => .ok curve

variable (suite : Suite)

/-- The phase that a private key leads to. -/
def signingPhase (H : Digest.BlockHash) (algorithm : Text) (key : Key) (random : RandomSource ω) :
    Except EngineError (DigestPhase ω H) := do
  let curve ← curveFor algorithm key
  if key.role = .privateKey ∧ (suite.overDigest curve).isPrivateKey key.encoded then
    .ok (.signing curve key.encoded random .start)
  else .error (.invalidScalar algorithm curve)

/-- The phase that a public key leads to. -/
def verifyingPhase (H : Digest.BlockHash) (algorithm : Text) (key : Key) :
    Except EngineError (DigestPhase ω H) := do
  let curve ← curveFor algorithm key
  let scheme := suite.overDigest curve
  if scheme.isPublicKey key.encoded then .ok (.verifying curve key.encoded .start)
  else .error (.invalidPoint curve (scheme.refusal key.encoded))

/-- Enter the phase that initialization leads to, or none. -/
def enter (engine : EcdsaEngine ω) (world : ω) :
    Except EngineError (DigestPhase ω engine.hash.function) →
      EStateM.Result Failure (EcdsaEngine ω × ω) Unit
  | .ok phase => .ok () ({ engine with phase }, world)
  | .error e => .error e.toFailure ({ engine with phase := .idle }, world)

/-- Get ready to sign. -/
def initSign (key : Key) (random : RandomSource ω) : Attempt (EcdsaEngine ω × ω) Unit :=
  fun (engine, world) =>
    engine.enter world (signingPhase suite engine.hash.function engine.algorithm key random)

/-- Get ready to verify. -/
def initVerify (key : Key) : Attempt (EcdsaEngine ω × ω) Unit :=
  fun (engine, world) =>
    engine.enter world (verifyingPhase suite engine.hash.function engine.algorithm key)

/-- Take in data. -/
def update (data : Bytes) : Attempt (EcdsaEngine ω × ω) Unit :=
  fun (engine, world) =>
    match engine.phase with
    | .idle => .error (EngineError.notInitialized engine.algorithm).toFailure (engine, world)
    | .signing curve scalar random digest =>
      .ok () ({ engine with phase := .signing curve scalar random (digest.update data) }, world)
    | .verifying curve point digest =>
      .ok () ({ engine with phase := .verifying curve point (digest.update data) }, world)

/-- Sign what was fed. -/
def sign : Attempt (EcdsaEngine ω × ω) Bytes :=
  fun (engine, world) =>
    match engine.phase with
    | .signing curve scalar random digest =>
      let next := { engine with phase := .signing curve scalar random .start }
      let failed cause := (EngineError.signingFailed engine.algorithm cause).toFailure
      match random.nextBytes entropyLength world with
      | .error e world => .error (failed e) (next, world)
      | .ok entropy world =>
        let scheme := suite.overDigest curve
        match scheme.sign digest.finish scalar entropy with
        | some signature => .ok signature (next, world)
        | none => .error (failed (.primitive (scheme.refusal digest.finish))) (next, world)
    | _ => .error (EngineError.notSigning engine.algorithm).toFailure (engine, world)

/-- Check a signature over what was fed. -/
def verify (signature : Bytes) : Attempt (EcdsaEngine ω × ω) Bool :=
  fun (engine, world) =>
    match engine.phase with
    | .verifying curve point digest =>
      let next := { engine with phase := .verifying curve point .start }
      let scheme := suite.overDigest curve
      if scheme.isSignature signature then
        .ok (scheme.verify signature digest.finish point) (next, world)
      else
        .error (EngineError.malformedSignature engine.algorithm
          (scheme.refusal signature)).toFailure (next, world)
    | _ => .error (EngineError.notVerifying engine.algorithm).toFailure (engine, world)

/-- How these engines behave. -/
def behaviour : EngineBehaviour (EcdsaEngine ω) ω where
  algorithm := algorithm
  initSign := initSign suite
  initVerify := initVerify suite
  update := update
  sign := sign suite
  verify := verify suite

end EcdsaEngine

/-!
## Engines for signatures over a message

These signatures need the whole message twice, so the engine keeps the pieces it was fed until it is
asked to sign or to verify. A public key of small order is refused: signatures for it can be made
without any private key.
-/

/-- What an engine is ready for, with the key and the pieces it was fed, latest first. -/
inductive MessagePhase where
  | idle
  | signing (seed : Bytes) (pieces : List Bytes)
  | verifying (point : Bytes) (pieces : List Bytes)

/-- An engine for signatures over a message. -/
structure EdDsaEngine where
  variant : EdVariant
  phase : MessagePhase

namespace EdDsaEngine

/-- An engine that is ready for nothing yet. -/
def new (variant : EdVariant) : EdDsaEngine :=
  { variant, phase := .idle }

/-- The name of the algorithm. -/
def algorithm (engine : EdDsaEngine) : Text :=
  engine.variant.name

/-- The message in pieces that were fed, latest first. -/
def messageOf (pieces : List Bytes) : Bytes :=
  pieces.reverse.flatten

/-- Check that a key has the role, the name and the shape that an engine needs. -/
def checkKey (variant : EdVariant) (role : KeyRole) (key : Key) : Except EngineError Unit :=
  if key.role ≠ role then .error (.wrongRole variant.name role)
  else if key.algorithm.lower ≠ variant.name.lower then
    .error (.foreignAlgorithm variant.name key.algorithm)
  else if key.format ≠ .raw ∨ key.encoded.length ≠ variant.keyLength then
    .error (.wrongShape variant.name variant.keyLength key.format key.encoded.length)
  else .ok ()

variable (suite : Suite)

/-- Check that bytes are a point that does not have small order. -/
def checkPoint (variant : EdVariant) (encoded : Bytes) : Except EngineError Unit :=
  let scheme := suite.overMessage variant
  if ¬ scheme.isPoint encoded then
    .error (.invalidPublicKey variant.name (scheme.refusal encoded))
  else if scheme.isSmallOrder encoded then .error (.smallOrder variant.name)
  else .ok ()

/-- The phase that a private key leads to. -/
def signingPhase (variant : EdVariant) (key : Key) : Except EngineError MessagePhase := do
  checkKey variant .privateKey key
  return .signing key.encoded []

/-- The phase that a public key leads to. -/
def verifyingPhase (variant : EdVariant) (key : Key) : Except EngineError MessagePhase := do
  checkKey variant .publicKey key
  checkPoint suite variant key.encoded
  return .verifying key.encoded []

section

variable {ω : Type}

/-- Enter the phase that initialization leads to, or none. -/
def enter (engine : EdDsaEngine) (world : ω) :
    Except EngineError MessagePhase → EStateM.Result Failure (EdDsaEngine × ω) Unit
  | .ok phase => .ok () ({ engine with phase }, world)
  | .error e => .error e.toFailure ({ engine with phase := .idle }, world)

/-- Get ready to sign. These signatures use no randomness. -/
def initSign (key : Key) : Attempt (EdDsaEngine × ω) Unit :=
  fun (engine, world) => engine.enter world (signingPhase engine.variant key)

/-- Get ready to verify. -/
def initVerify (key : Key) : Attempt (EdDsaEngine × ω) Unit :=
  fun (engine, world) => engine.enter world (verifyingPhase suite engine.variant key)

/-- Take in data. -/
def update (data : Bytes) : Attempt (EdDsaEngine × ω) Unit :=
  fun (engine, world) =>
    match engine.phase with
    | .idle => .error (EngineError.notInitialized engine.algorithm).toFailure (engine, world)
    | .signing seed pieces =>
      .ok () ({ engine with phase := .signing seed (data :: pieces) }, world)
    | .verifying point pieces =>
      .ok () ({ engine with phase := .verifying point (data :: pieces) }, world)

/-- Sign what was fed. -/
def sign : Attempt (EdDsaEngine × ω) Bytes :=
  fun (engine, world) =>
    match engine.phase with
    | .signing seed pieces =>
      let next := { engine with phase := .signing seed [] }
      let scheme := suite.overMessage engine.variant
      match scheme.sign (messageOf pieces) seed with
      | some signature => .ok signature (next, world)
      | none =>
        let cause := Failure.primitive (scheme.refusal (messageOf pieces))
        .error (EngineError.signingFailed engine.algorithm cause).toFailure (next, world)
    | _ => .error (EngineError.notSigning engine.algorithm).toFailure (engine, world)

/-- Check a signature over what was fed. -/
def verify (signature : Bytes) : Attempt (EdDsaEngine × ω) Bool :=
  fun (engine, world) =>
    match engine.phase with
    | .verifying point pieces =>
      let next := { engine with phase := .verifying point [] }
      let expected := engine.variant.signatureLength
      if signature.length = expected then
        .ok ((suite.overMessage engine.variant).verify signature (messageOf pieces) point)
          (next, world)
      else
        .error (EngineError.wrongSignatureLength engine.algorithm expected
          signature.length).toFailure (next, world)
    | _ => .error (EngineError.notVerifying engine.algorithm).toFailure (engine, world)

/-- How these engines behave. -/
def behaviour : EngineBehaviour EdDsaEngine ω where
  algorithm := algorithm
  initSign key _ := initSign key
  initVerify := initVerify suite
  update := update
  sign := sign suite
  verify := verify suite

end

end EdDsaEngine

/-!
## Engines by name

One engine for each of the names `SHA1withECDSA` to `SHA512withECDSA`, `Ed25519` and `Ed448`. The
names are matched letter by letter.
-/

/-- An engine of this library. -/
inductive SignatureEngine (ω : Type) where
  | ecdsa (engine : EcdsaEngine ω)
  | eddsa (engine : EdDsaEngine)

namespace SignatureEngine

variable {ω : Type}

/-- The name of the algorithm. -/
def algorithm : SignatureEngine ω → Text
  | .ecdsa engine => engine.algorithm
  | .eddsa engine => engine.algorithm

/-- A new engine for the algorithm with this name. -/
def ofName? (name : Text) : Option (SignatureEngine ω) :=
  match HashName.all.find? fun hash => EcdsaEngine.nameFor hash == name with
  | some hash => some (.ecdsa (.new hash))
  | none => (EdVariant.ofName? name).map fun variant => .eddsa (.new variant)

/-- A new engine for the algorithm with this name, or a failure that says there is none. -/
def create (name : Text) : Except Failure (SignatureEngine ω) :=
  match ofName? name with
  | some engine => .ok engine
  | none => .error (.noSuchAlgorithm name)

/-- Let the engine that is there take a step. -/
def step {α : Type} (ecdsa : Attempt (EcdsaEngine ω × ω) α) (eddsa : Attempt (EdDsaEngine × ω) α) :
    Attempt (SignatureEngine ω × ω) α :=
  fun (engine, world) =>
    match engine with
    | .ecdsa engine => ecdsa.onPart (engine, world) fun (engine, world) => (.ecdsa engine, world)
    | .eddsa engine => eddsa.onPart (engine, world) fun (engine, world) => (.eddsa engine, world)

/-- How the engines of this library behave. -/
def behaviour (suite : Suite) : EngineBehaviour (SignatureEngine ω) ω :=
  let ecdsa := EcdsaEngine.behaviour suite
  let eddsa := EdDsaEngine.behaviour suite
  { algorithm := algorithm
    initSign := fun key random => step (ecdsa.initSign key random) (eddsa.initSign key random)
    initVerify := fun key => step (ecdsa.initVerify key) (eddsa.initVerify key)
    update := fun data => step (ecdsa.update data) (eddsa.update data)
    sign := step ecdsa.sign eddsa.sign
    verify := fun signature => step (ecdsa.verify signature) (eddsa.verify signature) }

end SignatureEngine

end SignedHandshake
