import SignedHandshake.AlgorithmPair
import SignedHandshake.Handshake.Message
import SignedHandshake.Wire.Datagram

/-!
# CertificateVerify messages (specification §3, §4.1)

The body of a CertificateVerify message (RFC 5246, section 7.4.8) is an algorithm pair, a length of
16 bits and a signature of that length. Any pair can be read and carried; whether it can be used
shows when the signature is checked. The length field bounds the signature, and the bound is part of
the type, so every message has an encoding.

- `CertificateVerify.encode`: the bytes of a body.
- `CertificateVerify.read`: takes one body off a reader and leaves what follows it.
- `CertificateVerify.decode`: wants a body and nothing else.
-/

namespace SignedHandshake

/-- A signature over the handshake so far, as it travels. -/
structure CertificateVerify where
  pair : AlgorithmPair
  signature : Bytes
  sequence : UInt16 := 0
  peer : Option Peer := none
  signature_fits : signature.length ≤ RangeError.maxSignatureLength := by decide
  deriving DecidableEq

namespace CertificateVerify

/-- The message around a signature, if the length field can hold its length. -/
def ofSignature (pair : AlgorithmPair) (signature : Bytes) (peer : Option Peer) :
    Except RangeError CertificateVerify :=
  if h : signature.length ≤ RangeError.maxSignatureLength then
    .ok { pair, signature, peer, signature_fits := h }
  else .error (.signatureLength signature.length)

/-- A message is made exactly if the length of the signature fits, and then holds what it was made
of. -/
theorem ofSignature_eq_ok_iff {pair : AlgorithmPair} {signature : Bytes} {peer : Option Peer}
    {message : CertificateVerify} :
    ofSignature pair signature peer = .ok message ↔
      ∃ h : signature.length ≤ RangeError.maxSignatureLength,
        message = { pair, signature, peer, signature_fits := h } := by
  unfold ofSignature
  constructor
  · intro h
    split at h
    · next hfits =>
      cases h
      exact ⟨hfits, rfl⟩
    · cases h
  · rintro ⟨hfits, rfl⟩
    rw [dif_pos hfits]

/-! ## The body as bytes -/

/-- The number of bytes in front of the signature: the two codes and the length. -/
def fixedLength : Nat := 4

/-- The number of bytes of the body. -/
def messageLength (message : CertificateVerify) : Nat :=
  fixedLength + message.signature.length

/-- The body. -/
def encode (message : CertificateVerify) : Bytes :=
  message.pair.hash :: message.pair.signature ::
    Bytes.bigEndian 2 message.signature.length ++ message.signature

/-- A body announces its own length. -/
@[simp] theorem length_encode (message : CertificateVerify) :
    message.encode.length = message.messageLength := by
  simp [encode, messageLength, fixedLength]
  omega

/-- Read a body. -/
def read (peer : Option Peer) : Attempt Wire.Reader CertificateVerify := do
  let hash ← Wire.Reader.read (.ofNat 8)
  let signatureCode ← Wire.Reader.read (.ofNat 8)
  let pair ← Attempt.ofExcept
    ((AlgorithmPair.ofNumbers hash signatureCode).mapError RangeError.toFailure)
  let length ← Wire.Reader.read (.ofNat 16)
  let signature ← Wire.Reader.take length
  Attempt.ofExcept ((ofSignature pair signature peer).mapError RangeError.toFailure)

/-- There are bytes behind a body. -/
def trailing (count : Number) (peer : Option Peer) : Failure :=
  .mk (.decode peer) s!"{count} unexpected bytes after CertificateVerify" none

/-- The message whose body these bytes are, as it came from `peer`. -/
def decode (bytes : Bytes) (peer : Option Peer) : Except Failure CertificateVerify :=
  match read peer { bytes, peer } with
  | .error e _ => .error e
  | .ok message reader =>
    if Number.ofNat 0 < reader.available then .error (trailing reader.available peer)
    else .ok message

/-! ## The message among others -/

/-- The code of this type of message. -/
def typeCode : Number := .ofNat 15

/-- The message as any other handshake message. -/
def handshake (message : CertificateVerify) : HandshakeMessage where
  type := typeCode
  announced := .ofNat message.messageLength
  body := message.encode
  sequence := message.sequence
  peer := message.peer

/-- Every message has bytes: the bound on the signature keeps the body far below the greatest length
that a header can announce. -/
theorem handshake_bytes (message : CertificateVerify) :
    message.handshake.bytes =
      .ok (HandshakeMessage.header 15 message.messageLength message.sequence ++
        message.encode) := by
  have hfits := message.signature_fits
  have hlength := message.length_encode
  refine HandshakeMessage.bytes_eq_ok_iff.mpr ⟨15, by decide, rfl, ?_, ?_, ?_⟩
  · simp only [handshake, hlength]
  · simp only [handshake, hlength, messageLength, fixedLength]
    simp only [RangeError.maxSignatureLength] at hfits
    omega
  · simp only [handshake, hlength]

/-- Set the sequence number. -/
def setSequence (message : CertificateVerify) (n : Number) : Except RangeError CertificateVerify :=
  (HandshakeMessage.sequence? n).map fun sequence => { message with sequence }

/-- Whether two messages carry the same signature for the same pair. Who sent them, and as which
message, does not matter. -/
def agree (left right : CertificateVerify) : Bool :=
  left.pair == right.pair && Bytes.agree left.signature right.signature

/-- The message as text. -/
def text (message : CertificateVerify) : Text :=
  "CertificateVerify(" ++ message.pair.text ++ s!", {message.signature.length} byte signature)"

end CertificateVerify

end SignedHandshake
