import SignedHandshake.CertificateVerify.Message
import SignedHandshake.CertificateVerify.Workshop
import SignedHandshake.Config

/-!
# Signing a transcript (specification §4.2)

A signer never raises a failure of somebody else: whatever goes wrong while it signs comes back as
one signing failure that carries what went wrong as its cause.

An engine may refuse a key only because of the name or the form it comes in. In that one
case, and only if the configuration allows it, the signer looks for a re-encoder and tries
once more with the key it gives.

- `Signer.init`: steps 2 and 3, an engine that is ready for a key or for what was made of it.
- `Signer.work`: steps 2 to 5, on an engine that was fetched.
- `Signer.sign`: the whole call.
- `CertificateVerify.create`: a signed message, if there is a signature and it fits its field.
-/

namespace SignedHandshake

/-- A signer: its engines and key factories, and how it is set up. -/
structure Signer (E ω : Type) where
  supplier : Supplier E ω
  config : Config ω

namespace Signer

variable {E ω : Type} (signer : Signer E ω)

/-- Get the engine ready to sign with this very key. -/
def initWith (key : Key) : Work E ω Unit :=
  .engine (signer.supplier.behaviour.initSign key signer.config.random)

/-- The key that a re-encoder makes of a refused key, if one applies to it. -/
def reencode (key : Key) : Work E ω (Option Key) :=
  .factories (signer.config.reencoders.reencode signer.supplier.makeFactory key)

/-- What is logged when a refused key is replaced. -/
def replacement (refused replaced : Key) (engineAlgorithm : Text) : Text :=
  "Re-encoded " ++ refused.algorithm ++ " private key as " ++ replaced.algorithm ++ " for " ++
    engineAlgorithm

/-- Try once more after the engine refused a key and said `refusal`. -/
def retry (key : Key) (refusal : Failure) : Work E ω Unit := do
  match ← signer.reencode key with
  | none => throw refusal
  | some replaced =>
    let (engine, _) ← get
    Work.note .debug (replacement key replaced (signer.supplier.behaviour.algorithm engine))
    signer.initWith replaced

/-- Whether a failure to get ready leads to a second try. -/
def isRetried (e : Failure) : Bool :=
  e.kind = .invalidKey ∧ signer.config.keyReencoding

/-- Get the engine ready to sign. -/
def init (key : Key) : Work E ω Unit :=
  tryCatch (signer.initWith key) fun e =>
    if signer.isRetried e then signer.retry key e else throw e

/-- An engine gave a signature that no message can carry. -/
def oversized (name : Text) (length : Nat) (peer : Option Peer) : Failure :=
  .mk (.signing peer)
    (name ++ s!" signature of {length} bytes exceeds {RangeError.maxSignatureLength}") none

/-- Sign with the engine called `name`. -/
def work (key : Key) (transcript : Transcript) (peer : Option Peer) (name : Text) :
    Work E ω Bytes := do
  signer.init key
  let count ← Work.feed signer.supplier.behaviour transcript
  let signature ← Work.engine signer.supplier.behaviour.sign
  if signature.length > RangeError.maxSignatureLength then
    throw (oversized name signature.length peer)
  Work.note .debug (s!"Signed {count} handshake messages with " ++ name)
  return signature

/-- The signing failure that `e` comes back as. One that is a signing failure already stays as it
is. -/
def failure (key : Key) (pair : AlgorithmPair) (peer : Option Peer) (e : Failure) : Failure :=
  match e.kind with
  | .signing _ => e
  | _ =>
    .mk (.signing peer)
      ("Could not create " ++ pair.text ++ " signature with " ++ key.algorithm ++ " key: " ++
        (Thrown.failure e).message)
      (some e)

/-- The signature over a transcript, or a signing failure. -/
def sign (key : Key) (pair : AlgorithmPair) (transcript : Transcript) (peer : Option Peer) :
    StateM (Workshop E ω) (Except Failure Bytes) := fun workshop =>
  match Workshop.withEngineFor signer.supplier pair (signer.work key transcript peer) workshop with
  | .ok signature workshop => (.ok signature, workshop)
  | .error e workshop =>
    let failed := failure key pair peer e
    (.error failed, workshop.note .error failed.message)

end Signer

/-! ## Messages around new signatures -/

/-- Anything that signs transcripts and keeps a state of type `σ`. -/
abbrev SigningStep (σ : Type) :=
  Key → AlgorithmPair → Transcript → Option Peer → StateM σ (Except Failure Bytes)

/-- A new message for a peer: the failure to sign, or the message around the signature. There is no
message around a signature whose length does not fit; a `Signer` gives none such. -/
def CertificateVerify.create {σ : Type} (sign : SigningStep σ) (key : Key) (pair : AlgorithmPair)
    (transcript : Transcript) (peer : Option Peer) :
    StateM σ (Except RangeError (Except Failure CertificateVerify)) := do
  match ← sign key pair transcript peer with
  | .error e => return .ok (.error e)
  | .ok signature => return (CertificateVerify.ofSignature pair signature peer).map .ok

end SignedHandshake
