import SignedHandshake.Attempt
import SignedHandshake.Failure
import SignedHandshake.Key.Basic

/-!
# Signature engines (specification §2)

An engine makes and checks signatures over data that is fed to it piece by piece. It is first
initialized with a key for one of its two roles, then fed, and then asked to sign or to verify.

- `EngineBehaviour E ω`: how engines behave whose state is of type `E`, in a world whose state is of
  type `ω`. Nothing is assumed about it: an engine may answer anything and fail at any time, so what
  is proved for every behaviour holds for engines that nobody here has seen.
- `Suite`: what the engines of this library need from the primitives over curves.
- `EngineError`: what the engines of this library refuse.
-/

namespace SignedHandshake

/-! ## Engines -/

/-- Where engines get random bytes from. -/
structure RandomSource (ω : Type) where
  nextBytes : (length : Nat) → Attempt ω Bytes

namespace RandomSource

/-- The greatest number of random bytes that one request may ask for. -/
def maxRequest : Nat := 0x10000

/-- The least number of bytes for which there is no memory. -/
def memoryLimit : Nat := 1 <<< 35

/-- The least number of bytes that is too great for the length of a byte string. -/
def lengthLimit : Nat := 1 <<< 53

/-- As many bytes as the whole part of `length` says. The room for them is made first, so a length
that is no length, or for which there is no room, is refused before one that is too great for a
request. What is refused does not reach the source. -/
def request {ω : Type} (source : RandomSource ω) (length : Number) : Attempt ω Bytes :=
  if length.whole < 0 ∨ .ofNat lengthLimit ≤ length then
    throw (RangeError.byteCount length).toFailure
  else if .ofNat memoryLimit ≤ length then throw RangeError.memory.toFailure
  else if length.whole > maxRequest then throw .quotaExceeded
  else source.nextBytes length.whole.toNat

end RandomSource

/-- The operations of engines with state `E` in a world with state `ω`. -/
structure EngineBehaviour (E ω : Type) where
  /-- The name of the algorithm. -/
  algorithm : E → Text
  /-- Get ready to sign with a private key. -/
  initSign : Key → RandomSource ω → Attempt (E × ω) Unit
  /-- Get ready to verify with a public key. -/
  initVerify : Key → Attempt (E × ω) Unit
  /-- Take in data. -/
  update : Bytes → Attempt (E × ω) Unit
  /-- The signature over the data taken in. -/
  sign : Attempt (E × ω) Bytes
  /-- Whether this is a signature over the data taken in. -/
  verify : Bytes → Attempt (E × ω) Bool

/-- A call of one of the operations. -/
inductive EngineCall (ω : Type) where
  | initSign (key : Key) (random : RandomSource ω)
  | initVerify (key : Key)
  | update (data : Bytes)
  | sign
  | verify (signature : Bytes)

namespace EngineBehaviour

variable {E ω : Type}

/-- The same behaviour, except that every call is noted before it is carried out. -/
def noting (note : EngineCall ω → ω → ω) (behaviour : EngineBehaviour E ω) :
    EngineBehaviour E ω where
  algorithm := behaviour.algorithm
  initSign key random := fun (engine, world) =>
    behaviour.initSign key random (engine, note (.initSign key random) world)
  initVerify key := fun (engine, world) =>
    behaviour.initVerify key (engine, note (.initVerify key) world)
  update data := fun (engine, world) => behaviour.update data (engine, note (.update data) world)
  sign := fun (engine, world) => behaviour.sign (engine, note .sign world)
  verify signature := fun (engine, world) =>
    behaviour.verify signature (engine, note (.verify signature) world)

end EngineBehaviour

/-! ### What the engines of this library refuse -/

/-- Why an engine of this library fails. -/
inductive EngineError where
  | notInitialized (algorithm : Text)
  | notSigning (algorithm : Text)
  | notVerifying (algorithm : Text)
  | foreignAlgorithm (algorithm keyAlgorithm : Text)
  | foreignFormat (algorithm : Text) (format : KeyFormat)
  | noCurve
  | invalidScalar (algorithm : Text) (curve : NamedCurve)
  | invalidPoint (curve : NamedCurve) (reason : Text)
  | wrongRole (algorithm : Text) (expected : KeyRole)
  | wrongShape (algorithm : Text) (expectedLength : Nat) (format : KeyFormat) (length : Nat)
  | invalidPublicKey (algorithm reason : Text)
  | smallOrder (algorithm : Text)
  | wrongSignatureLength (algorithm : Text) (expected actual : Nat)
  | malformedSignature (algorithm reason : Text)
  | signingFailed (algorithm : Text) (cause : Failure)

namespace EngineError

/-- The failure that caused the refusal: what the primitive or the source of randomness ended
with. -/
def cause : EngineError → Option Failure
  | invalidPoint _ reason | invalidPublicKey _ reason | malformedSignature _ reason =>
    some (.primitive reason)
  | signingFailed _ cause => some cause
  | _ => none

/-- The text of the refusal, which names the engine. -/
def message : EngineError → Text
  | notInitialized algorithm => algorithm ++ " engine not initialized"
  | notSigning algorithm => algorithm ++ " engine not initialized for signing"
  | notVerifying algorithm => algorithm ++ " engine not initialized for verification"
  | foreignAlgorithm algorithm keyAlgorithm =>
    algorithm ++ " cannot use " ++ keyAlgorithm ++ " keys"
  | foreignFormat algorithm format => algorithm ++ s!" cannot use {format.name} encoded keys"
  | noCurve => "EC key without named curve"
  | invalidScalar algorithm curve =>
    algorithm ++ s!" requires a valid raw {curve.name} private scalar"
  | invalidPoint curve reason => s!"Invalid {curve.name} public point: " ++ reason
  | wrongRole algorithm expected => algorithm ++ s!" expected a {expected.name} key"
  | wrongShape algorithm expectedLength format length =>
    algorithm ++ s!" requires a raw {expectedLength} byte key, got {format.name} ({length} bytes)"
  | invalidPublicKey algorithm reason => "Invalid " ++ algorithm ++ " public key: " ++ reason
  | smallOrder algorithm => algorithm ++ " public key has small order"
  | wrongSignatureLength algorithm expected actual =>
    algorithm ++ s!" signature must be {expected} bytes, got {actual}"
  | malformedSignature algorithm reason => "Malformed " ++ algorithm ++ " signature: " ++ reason
  | signingFailed algorithm cause =>
    algorithm ++ " signing failed: " ++ (Thrown.failure cause).message

/-- Whether the key is to blame. -/
def isKeyError : EngineError → Bool
  | foreignAlgorithm .. | foreignFormat .. | noCurve | invalidScalar .. | invalidPoint ..
  | wrongRole .. | wrongShape .. | invalidPublicKey .. | smallOrder _ => true
  | _ => false

/-- The failure that a call on an engine ends with: an invalid key, or a failure to
sign or verify. -/
def toFailure (e : EngineError) : Failure :=
  .mk (if e.isKeyError then .invalidKey else .signature) e.message e.cause

end EngineError

/-!
## Signature schemes

What the signature engines need from the cryptographic primitives over curves, and nothing
more. The engines and everything above them work with any `Suite`, so what is proved about
them does not depend on how curves are computed, nor on what is said about input that is
refused. The hash functions of the engines over a digest are not part of a suite: those are
the standard ones, by their names.
-/

/-- Signatures over the digest of a message, on one curve. -/
structure DigestScheme where
  /-- Whether bytes are a private key. -/
  isPrivateKey : Bytes → Bool
  /-- Whether bytes are a public key. -/
  isPublicKey : Bytes → Bool
  /-- The public key of a private key. -/
  publicKey : Bytes → Bytes
  /-- How much randomness a new private key takes. -/
  seedLength : Nat
  /-- The private key made from randomness. -/
  privateKey : Bytes → Bytes
  /-- Sign a digest with a private key; the entropy makes the signature differ each time. -/
  sign (digest key entropy : Bytes) : Option Bytes
  /-- Whether bytes have the form of a signature. -/
  isSignature : Bytes → Bool
  /-- Whether a signature over a digest was made with the private key of this public key. -/
  verify (signature digest key : Bytes) : Bool
  /-- The reason given for refusing bytes: a public key, a signature, or a digest that is
  not signed. -/
  refusal : Bytes → Text

/-- Signatures over a whole message, on one curve. -/
structure MessageScheme where
  /-- Whether bytes are a point of the curve. -/
  isPoint : Bytes → Bool
  /-- Whether bytes that are a point are one of small order. -/
  isSmallOrder : Bytes → Bool
  /-- The public key of a private key. -/
  publicKey : Bytes → Bytes
  /-- Sign a message with a private key. -/
  sign (message key : Bytes) : Option Bytes
  /-- Whether a signature over a message was made with the private key of this public key. -/
  verify (signature message key : Bytes) : Bool
  /-- The reason given for refusing bytes: a point, or a message that is not signed. -/
  refusal : Bytes → Text

/-- A scheme for every curve. -/
structure Suite where
  overDigest : NamedCurve → DigestScheme
  overMessage : EdVariant → MessageScheme

end SignedHandshake
