import SignedHandshake.Bytes.Basic
import SignedHandshake.Number.Numerals
import SignedHandshake.Text.Basic

/-!
# Peers, alerts and failures (specification §7, §10.4)

What is said to the other side, and to callers, when a handshake fails.

- `Peer`: where a handshake message came from or goes to.
- `Alert`: why the handshake ends, as RFC 5246, section 7.2, writes it on the wire.
- `Failure`: what callers see, with its kind, which decides how they react, its text and its cause.
- `RangeError`: a number that does not belong where it was put, before it becomes a failure.
-/

namespace SignedHandshake

/-!
## Peers

Where a handshake message came from or goes to. The address routes alerts and appears in log lines;
nothing that is signed or sent depends on it.
-/

/-- The address of a peer. -/
structure Peer where
  host : Text
  port : Number
  deriving DecidableEq

/-- The address as text. A host with a colon in it, such as an IPv6 literal, stands in brackets. -/
def Peer.text (peer : Peer) : Text :=
  let host := if peer.host.chars.contains ':' then "[" ++ peer.host ++ "]" else peer.host
  host ++ s!":{peer.port}"

/-- The text of an address that may be missing. -/
def Peer.textOf : Option Peer → Text
  | none => "<unknown peer>"
  | some peer => peer.text

/-!
## Alerts

An alert tells the peer why a handshake ends. Its level and description are single bytes on the
wire; codes without a name are carried as they are.
-/

/-- An alert and the peer it is meant for. -/
structure Alert where
  level : Number
  description : Number
  peer : Option Peer
  deriving DecidableEq

namespace Alert

/-- The names of the levels. -/
def levelNames : List (Nat × String) :=
  [(1, "WARNING"), (2, "FATAL")]

/-- The names of the descriptions. -/
def descriptionNames : List (Nat × String) :=
  [(0, "CLOSE_NOTIFY"), (10, "UNEXPECTED_MESSAGE"), (20, "BAD_RECORD_MAC"),
    (21, "DECRYPTION_FAILED_RESERVED"), (22, "RECORD_OVERFLOW"), (30, "DECOMPRESSION_FAILURE"),
    (40, "HANDSHAKE_FAILURE"), (41, "NO_CERTIFICATE_RESERVED"), (42, "BAD_CERTIFICATE"),
    (43, "UNSUPPORTED_CERTIFICATE"), (44, "CERTIFICATE_REVOKED"), (45, "CERTIFICATE_EXPIRED"),
    (46, "CERTIFICATE_UNKNOWN"), (47, "ILLEGAL_PARAMETER"), (48, "UNKNOWN_CA"),
    (49, "ACCESS_DENIED"), (50, "DECODE_ERROR"), (51, "DECRYPT_ERROR"),
    (60, "EXPORT_RESTRICTION_RESERVED"), (70, "PROTOCOL_VERSION"), (71, "INSUFFICIENT_SECURITY"),
    (80, "INTERNAL_ERROR"), (90, "USER_CANCELED"), (100, "NO_RENEGOTIATION"),
    (110, "UNSUPPORTED_EXTENSION")]

/-- The level that ends the connection. -/
def fatalLevel : Number := .ofNat 2

/-- The alert that ends the connection for the reason `description`. -/
def fatal (description : Nat) (peer : Option Peer) : Alert :=
  { level := fatalLevel, description := .ofNat description, peer }

/-- A message could not be decoded. -/
def decodeError : Option Peer → Alert := fatal 50

/-- Something failed on this side. -/
def internalError : Option Peer → Alert := fatal 80

/-- The handshake cannot be completed. -/
def handshakeFailure : Option Peer → Alert := fatal 40

/-- Whether the alert ends the connection. -/
def isFatal (alert : Alert) : Bool :=
  alert.level = fatalLevel

/-- The record body: level, then description. -/
def bytes (alert : Alert) : Bytes :=
  [alert.level.octet, alert.description.octet]

/-- The name of a code, if it has one. -/
def nameIn (names : List (Nat × String)) (code : Number) : String :=
  (code.nat?.bind fun n => names.lookup n).getD "undefined"

/-- The alert as text. -/
def text (alert : Alert) : Text :=
  let level := nameIn levelNames alert.level
  let description := nameIn descriptionNames alert.description
  s!"Alert({level}, {description}) for " ++ Peer.textOf alert.peer

end Alert

/-!
## Failures

Every part of the library says in its own words what can go wrong in it. A `Failure` is what all of
them become once they leave that part: a kind, which decides how callers react, a text, and the
failure that caused it. The kinds of collaborators outside this library fit in as well, so a failure
raised by an unknown engine is carried unchanged.
-/

/-- What sort of failure happened, with the data that only this sort has. -/
inductive FailureKind where
  /-- No particular sort. -/
  | general
  /-- A number does not belong where it was put. -/
  | range
  /-- More was asked for at once than is given at once. -/
  | quota
  /-- Something was used where there is nothing. -/
  | absent
  /-- Malformed DER. -/
  | der
  /-- A security failure of no particular sort. -/
  | security
  /-- No engine or key factory has this name. -/
  | noSuchAlgorithm (algorithm : Text)
  /-- The key cannot be used by the engine. -/
  | invalidKey
  /-- A key specification does not describe a key. -/
  | invalidKeySpec
  /-- An engine was misused, or failed inside. -/
  | signature
  /-- The primitives below an engine refused their input. -/
  | primitive
  /-- The handshake fails, and this alert goes to the peer. -/
  | handshake (alert : Alert)
  /-- Malformed or truncated bytes from this peer. -/
  | decode (peer : Option Peer)
  /-- The private key gave no signature for this peer. -/
  | signing (peer : Option Peer)
  /-- This peer did not prove that it has its private key. -/
  | authentication (peer : Option Peer)
  deriving DecidableEq

namespace FailureKind

/-- Whether failures of this kind come from engines, keys and algorithms. -/
def isSecurity : FailureKind → Bool
  | .security | .noSuchAlgorithm _ | .invalidKey | .invalidKeySpec | .signature => true
  | _ => false

/-- The alert that a failure of this kind sends to the peer. -/
def alert? : FailureKind → Option Alert
  | .handshake alert => some alert
  | .decode peer => some (Alert.decodeError peer)
  | .signing peer => some (Alert.internalError peer)
  | .authentication peer => some (Alert.handshakeFailure peer)
  | _ => none

end FailureKind

/-- A failure, with what is said about it and the failure behind it. -/
inductive Failure where
  | mk (kind : FailureKind) (message : Text) (cause : Option Failure)

namespace Failure

/-- The sort of failure. -/
def kind : Failure → FailureKind
  | mk kind _ _ => kind

/-- The text of the failure. -/
def message : Failure → Text
  | mk _ message _ => message

/-- The failure behind this one. -/
def cause : Failure → Option Failure
  | mk _ _ cause => cause

instance : Inhabited Failure := ⟨.mk .general "" none⟩

/-- The alert that goes to the peer. -/
def alert? (failure : Failure) : Option Alert :=
  failure.kind.alert?

/-- No engine or key factory is called `algorithm`. -/
def noSuchAlgorithm (algorithm : Text) : Failure :=
  .mk (.noSuchAlgorithm algorithm) (algorithm ++ " is not supported") none

/-- More random bytes were asked for than one request may ask for. -/
def quotaExceeded : Failure :=
  .mk .quota "The requested length exceeds 65,536 bytes" none

/-- The primitives refused their input, for a reason that they give. -/
def primitive (reason : Text) : Failure :=
  .mk .primitive reason none

end Failure

/-! ### What is caught

Where something is caught and put into words, it may be anything that can be thrown. What this
library and its collaborators throw are failures.
-/

/-- Anything that can be thrown. -/
inductive Thrown where
  | failure (value : Failure)
  | text (value : Text)
  | number (value : Number)
  | truth (value : Bool)
  | nothing

/-- The text that something caught is put into: that of a failure, and of anything else the value
written out. -/
def Thrown.message : Thrown → Text
  | .failure value => value.message
  | .text value => value
  | .number value => value.text
  | .truth value => if value then "true" else "false"
  | .nothing => "null"

@[simp] theorem Thrown.message_failure (e : Failure) : (Thrown.failure e).message = e.message := rfl

/-!
## Numbers out of range

Codes, widths, values and lengths are checked where they enter a field or a message. Each of them
has its own error here, so that a caller can tell which one was wrong.
-/

/-- A code, width, value or length outside its range, with the number that was given. -/
inductive RangeError where
  /-- A code that is no single byte. -/
  | code (code : Number)
  /-- A field width that is not one to four whole bytes. -/
  | width (bits : Number)
  /-- A value that does not fit into its field. -/
  | value (value bits : Number)
  /-- A message sequence number that does not fit into 16 bits. -/
  | sequence (sequence : Number)
  /-- A signature whose length does not fit into 16 bits. -/
  | signatureLength (length : Nat)
  /-- A number of bytes that no byte string has. -/
  | byteCount (length : Number)
  /-- A number of bytes for which there is no memory. -/
  | memory
  deriving DecidableEq

namespace RangeError

/-- The greatest width of a field in bits. -/
def maxWidth : Nat := 32

/-- The greatest length of a signature: its length field has 16 bits. -/
def maxSignatureLength : Nat := 0xFFFF

/-- The text of the error, which names the number. -/
def message : RangeError → String
  | code n => s!"Algorithm code {n} does not fit into one byte"
  | width bits => s!"Field width must be a multiple of 8 up to {maxWidth} bits, got {bits}"
  | value n bits => s!"Value {n} does not fit into {bits} bits"
  | sequence n => s!"message_seq {n} out of range"
  | signatureLength n => s!"Signature of {n} bytes exceeds {maxSignatureLength}"
  | byteCount n => s!"Invalid typed array length: {n}"
  | memory => "Array buffer allocation failed"

/-- The failure of kind `range` with this text. -/
def toFailure (e : RangeError) : Failure :=
  .mk .range e.message none

end RangeError

end SignedHandshake
