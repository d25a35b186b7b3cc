import SignedHandshake.CertificateVerify.Message
import SignedHandshake.CertificateVerify.Workshop

/-!
# Verifying a transcript (specification §4.3)

A verifier uses public keys as they come. The one way to a good answer is that the engine was made,
took the key and every entry, and then said that the signature is valid; everything else is an
authentication failure, whose alert goes to the peer.

- `Rejection`: why a signature does not count.
- `Verifier.verify`: the whole call.
- `CertificateVerify.verify`: the same for the pair, the signature and the peer of a message.
-/

namespace SignedHandshake

/-- Why a peer is not authenticated: a reason in words, and the failure that was caught, if any. -/
structure Rejection where
  reason : Text
  cause : Option Failure := none

namespace Rejection

/-- The rejection of a signature that the engine found to be invalid. -/
def mismatch : Rejection := { reason := "signature mismatch" }

/-- The rejection after a failure `e`, before or while the engine was asked. -/
def ofFailure (e : Failure) : Rejection :=
  { reason := (Thrown.failure e).message, cause := some e }

/-- The failure that a rejected verification ends with: an authentication failure of this peer. -/
def failure (rejection : Rejection) (peer : Option Peer) : Failure :=
  .mk (.authentication peer)
    ("The peer's CertificateVerify message could not be verified: " ++ rejection.reason)
    rejection.cause

/-- The line that is logged at level `error`: whose signature was rejected, and why. -/
def line (rejection : Rejection) (peer : Option Peer) : Text :=
  "Could not verify the signature of " ++ Peer.textOf peer ++ ": " ++ rejection.reason

end Rejection

/-- A verifier: its engines. -/
structure Verifier (E ω : Type) where
  supplier : Supplier E ω

namespace Verifier

variable {E ω : Type} (verifier : Verifier E ω)

/-- Ask an engine about a signature. -/
def work (key : Key) (signature : Bytes) (transcript : Transcript) : Work E ω Bool := do
  Work.engine (verifier.supplier.behaviour.initVerify key)
  discard <| Work.feed verifier.supplier.behaviour transcript
  Work.engine (verifier.supplier.behaviour.verify signature)

/-- Log and return a rejection. -/
def reject (peer : Option Peer) (rejection : Rejection) (workshop : Workshop E ω) :
    Except Failure Unit × Workshop E ω :=
  (.error (rejection.failure peer), workshop.note .error (rejection.line peer))

/-- Check a signature over a transcript. -/
def verify (key : Key) (pair : AlgorithmPair) (signature : Bytes) (transcript : Transcript)
    (peer : Option Peer) : StateM (Workshop E ω) (Except Failure Unit) := fun workshop =>
  let work _ := verifier.work key signature transcript
  match Workshop.withEngineFor verifier.supplier pair work workshop with
  | .ok true workshop => (.ok (), workshop)
  | .ok false workshop => reject peer .mismatch workshop
  | .error e workshop => reject peer (.ofFailure e) workshop

end Verifier

/-- Check the signature of a message over a transcript. -/
def CertificateVerify.verify {E ω : Type} (message : CertificateVerify) (verifier : Verifier E ω)
    (key : Key) (transcript : Transcript) : StateM (Workshop E ω) (Except Failure Unit) :=
  verifier.verify key message.pair message.signature transcript message.peer

end SignedHandshake
