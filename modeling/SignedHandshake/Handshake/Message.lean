import SignedHandshake.Wire.Datagram

/-!
# Handshake messages and transcripts (specification §3, §10.7)

- `HandshakeMessage`: a body behind a header of twelve bytes, as RFC 5246, section 7.4, lays it out.
- `TranscriptEntry`: what enters a signature of a prior message.
- `Transcript.bytes`: the bytes that a signature covers.
-/

namespace SignedHandshake

/-!
## Messages

The header is the type, the length of the body, a sequence number, and the offset and length of the
fragment. A message that is not fragmented has offset zero and both lengths the same. The bytes of
the whole message are what enters a signature.
-/

/-- A handshake message, not fragmented. -/
structure HandshakeMessage where
  type : Number
  /-- The length that the header announces. -/
  announced : Number
  body : Bytes
  sequence : UInt16 := 0
  peer : Option Peer := none
  deriving DecidableEq

namespace HandshakeMessage

/-- A message whose header announces the length that the body has. -/
def opaqueBody (type : Number) (body : Bytes) (peer : Option Peer) : HandshakeMessage :=
  { type, announced := .ofNat body.length, body, peer }

/-- The names of the types. -/
def typeNames : List (Nat × String) :=
  [(0, "HELLO_REQUEST"), (1, "CLIENT_HELLO"), (2, "SERVER_HELLO"), (3, "HELLO_VERIFY_REQUEST"),
    (4, "NEW_SESSION_TICKET"), (11, "CERTIFICATE"), (12, "SERVER_KEY_EXCHANGE"),
    (13, "CERTIFICATE_REQUEST"), (14, "SERVER_HELLO_DONE"), (15, "CERTIFICATE_VERIFY"),
    (16, "CLIENT_KEY_EXCHANGE"), (20, "FINISHED")]

/-- The name of a type. -/
def typeName (type : Number) : String :=
  (type.nat?.bind fun n => typeNames.lookup n).getD s!"UNKNOWN({type})"

/-- What the message is called in log lines. -/
def label (message : HandshakeMessage) : String :=
  typeName message.type

/-- A sequence number that was written as a number. -/
def sequence? (n : Number) : Except RangeError UInt16 :=
  match n.nat? with
  | some m => if m ≤ 0xFFFF then .ok (UInt16.ofNat m) else .error (.sequence n)
  | none => .error (.sequence n)

/-- Set the sequence number. -/
def setSequence (message : HandshakeMessage) (n : Number) : Except RangeError HandshakeMessage :=
  (sequence? n).map fun sequence => { message with sequence }

/-- Why a message has no bytes. -/
inductive EncodeError where
  /-- The header announces another length than the body has. -/
  | lengthMismatch (label : String) (actual : Nat) (announced : Number)
  /-- A header field does not fit. -/
  | field (error : RangeError)

namespace EncodeError

/-- The text of the error. -/
def message : EncodeError → String
  | lengthMismatch label actual announced =>
    s!"{label} body is {actual} bytes, header announces {announced}"
  | field error => error.message

/-- The failure that asking a message for its bytes ends with. -/
def toFailure : EncodeError → Failure
  | lengthMismatch label actual announced =>
    .mk .general (lengthMismatch label actual announced).message none
  | field error => error.toFailure

end EncodeError

/-- The header fields in order, with their widths in bits. -/
def headerFields (message : HandshakeMessage) : List (Number × Number) :=
  [(message.type, .ofNat 8), (message.announced, .ofNat 24),
    (.ofNat message.sequence.toNat, .ofNat 16), (.ofNat 0, .ofNat 24),
    (message.announced, .ofNat 24)]

/-- The whole message. -/
def bytes (message : HandshakeMessage) : Except EncodeError Bytes :=
  if message.announced = .ofNat message.body.length then
    match Wire.fields message.headerFields with
    | .ok header => .ok (header ++ message.body)
    | .error e => .error (.field e)
  else .error (.lengthMismatch message.label message.body.length message.announced)

/-- The header of a message with this type code and a body of this length. -/
def header (code length : Nat) (sequence : UInt16) : Bytes :=
  Bytes.bigEndian 1 code ++ (Bytes.bigEndian 3 length ++
    (Bytes.bigEndian 2 sequence.toNat ++ (Bytes.bigEndian 3 0 ++ Bytes.bigEndian 3 length)))

@[simp] theorem length_header (code length : Nat) (sequence : UInt16) :
    (header code length sequence).length = 12 := by
  simp [header]

theorem fields_headerFields_eq_ok_iff {message : HandshakeMessage} {bytes : Bytes}
    (h : message.announced = .ofNat message.body.length) :
    Wire.fields message.headerFields = .ok bytes ↔
      ∃ code < 256, message.type = .ofNat code ∧ message.body.length < 0x1000000 ∧
        bytes = header code message.body.length message.sequence := by
  simp only [headerFields, h, Wire.fields_cons_eq_ok_iff, Wire.fields_nil_eq_ok_iff]
  constructor
  · rintro ⟨_, _, htype, ⟨_, _, hlength, ⟨_, _, hseq, ⟨_, _, hoffset,
      ⟨_, _, hagain, rfl, rfl⟩, rfl⟩, rfl⟩, rfl⟩, rfl⟩
    -- each field determines its value, and the two length fields hold the same one
    obtain ⟨code, hcode, hvalue, rfl⟩ :=
      (Wire.field_width_eq_ok_iff 1 (by decide) (by decide)).mp htype
    obtain ⟨_, hlt, hsame, rfl⟩ := (Wire.field_width_eq_ok_iff 3 (by decide) (by decide)).mp hlength
    obtain ⟨_, _, hs, rfl⟩ := (Wire.field_width_eq_ok_iff 2 (by decide) (by decide)).mp hseq
    obtain ⟨_, _, ho, rfl⟩ := (Wire.field_width_eq_ok_iff 3 (by decide) (by decide)).mp hoffset
    obtain ⟨_, _, hl, rfl⟩ := (Wire.field_width_eq_ok_iff 3 (by decide) (by decide)).mp hagain
    obtain rfl := Number.ofNat_inj.mp hsame
    obtain rfl := Number.ofNat_inj.mp hs
    obtain rfl := Number.ofNat_inj.mp ho
    obtain rfl := Number.ofNat_inj.mp hl
    exact ⟨code, hcode, hvalue, hlt, by simp [header]⟩
  · rintro ⟨code, hcode, htype, hlength, rfl⟩
    -- all five fields fit
    have hfirst := Wire.field_of_lt 1 (by decide) (by decide) hcode
    have hlong := Wire.field_of_lt 3 (by decide) (by decide) hlength
    have hseq := Wire.field_of_lt 2 (by decide) (by decide) message.sequence.toNat_lt
    have hoffset := Wire.field_of_lt 3 (by decide) (by decide) (by decide : 0 < Bytes.limit 3)
    rw [htype]
    exact ⟨_, _, hfirst, ⟨_, _, hlong, ⟨_, _, hseq, ⟨_, _, hoffset, ⟨_, _, hlong, rfl, rfl⟩, rfl⟩,
      rfl⟩, rfl⟩, by simp [header]⟩

/-- A message has bytes exactly if its type is a byte, it announces the length of its body, and that
length has no more than 24 bits. The bytes are then the header and the body. -/
theorem bytes_eq_ok_iff {message : HandshakeMessage} {bytes : Bytes} :
    message.bytes = .ok bytes ↔
      ∃ code < 256, message.type = .ofNat code ∧
        message.announced = .ofNat message.body.length ∧ message.body.length < 0x1000000 ∧
        bytes = header code message.body.length message.sequence ++ message.body := by
  unfold HandshakeMessage.bytes
  constructor
  · intro h
    split at h
    · next hannounced =>
      split at h
      · next hfields =>
        cases h
        obtain ⟨code, hcode, htype, hlength, rfl⟩ :=
          (fields_headerFields_eq_ok_iff hannounced).mp hfields
        exact ⟨code, hcode, htype, hannounced, hlength, rfl⟩
      · cases h
    · cases h
  · rintro ⟨code, hcode, htype, hannounced, hlength, rfl⟩
    rw [if_pos hannounced,
      (fields_headerFields_eq_ok_iff hannounced).mpr ⟨code, hcode, htype, hlength, rfl⟩]

end HandshakeMessage

/-!
## Transcripts

A signature covers the handshake messages exchanged so far, one behind the other. All that matters
of an entry is its bytes, which it may fail to produce, and its label, which it need not have. The
label is a value here: an entry that throws when it is asked for its label has no counterpart.
-/

/-- One prior message as it enters a signature. -/
structure TranscriptEntry where
  canonicalBytes : Except Failure Bytes
  label? : Option Text := none

namespace TranscriptEntry

/-- What the entry is called in log lines. -/
def label (entry : TranscriptEntry) : Text :=
  entry.label?.getD "entry"

end TranscriptEntry

/-- A handshake message as an entry. -/
def HandshakeMessage.entry (message : HandshakeMessage) : TranscriptEntry where
  canonicalBytes := message.bytes.mapError EncodeError.toFailure
  label? := some message.label

/-- The messages exchanged so far, in order. -/
abbrev Transcript := List TranscriptEntry

/-- The bytes of all entries one behind the other, or the first failure to produce them. -/
def Transcript.bytes (transcript : Transcript) : Except Failure Bytes :=
  match transcript with
  | [] => .ok []
  | entry :: rest => do
    let first ← entry.canonicalBytes
    let others ← Transcript.bytes rest
    return first ++ others

@[simp] theorem Transcript.bytes_nil : Transcript.bytes [] = .ok [] := rfl

/-- A transcript has bytes exactly if each of its entries has. -/
theorem Transcript.bytes_cons_eq_ok_iff {entry : TranscriptEntry} {rest : Transcript}
    {bytes : Bytes} :
    Transcript.bytes (entry :: rest) = .ok bytes ↔
      ∃ first others, entry.canonicalBytes = .ok first ∧ Transcript.bytes rest = .ok others ∧
        bytes = first ++ others := by
  rw [Transcript.bytes]
  constructor
  · intro h
    cases hfirst : entry.canonicalBytes with
    | error e => simp [hfirst, bind, Except.bind] at h
    | ok first =>
      cases hothers : Transcript.bytes rest with
      | error e => simp [hfirst, hothers, bind, Except.bind] at h
      | ok others =>
        simp only [hfirst, hothers, bind, Except.bind, pure, Except.pure, Except.ok.injEq] at h
        exact ⟨first, others, rfl, rfl, h.symm⟩
  · rintro ⟨first, others, hfirst, hothers, rfl⟩
    simp [hfirst, hothers, bind, Except.bind, pure, Except.pure]

end SignedHandshake
