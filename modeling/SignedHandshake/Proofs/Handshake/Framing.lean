import Mathlib.Data.List.Forall2
import SignedHandshake.CertificateVerify.Message
import SignedHandshake.Proofs.Attempt.Rules
import SignedHandshake.Proofs.Wire.Runs
import SignedHandshake.Proofs.Workshop.Following

/-!
# Handshake messages on the wire (specification §10.7)

The bytes of one message are read as what it was made of (**`HandshakeMessage.frame`**), and the
bytes of several messages, one behind the other, as those messages and no others
(**`Transcript.sameSigned_of_handed_eq`**).
-/

namespace SignedHandshake

/-!
## The frame of handshake messages

A message can be given another sequence number any number of times. It keeps the last number that
fits its field, and refuses all others as out of range without any change (`run_renumber`). The
message then has bytes exactly if its type and the length of its body fit their fields and the
length it announces is that of its body, and a reader finds in these bytes what the message was made
of and nothing more (**`frame`**). The body of a CertificateVerify message always fits.

Proof structure: the run over the numbers is an induction that goes on from the number kept so far.
The header and the body are the bytes of six items (`encoded_header`), so reading them is a case of
reading items in general.
-/

namespace HandshakeMessage

/-! ### Sequence numbers -/

/-- A number that fits the field of the sequence number. -/
def IsSequence (n : Number) : Prop :=
  ∃ m ≤ 0xFFFF, n = .ofNat m

/-- What comes of setting a sequence number. -/
theorem sequence?_cases (n : Number) :
    (∃ sequence : UInt16, sequence? n = .ok sequence ∧ n = .ofNat sequence.toNat ∧ IsSequence n) ∨
      (sequence? n = .error (.sequence n) ∧ ¬ IsSequence n) := by
  unfold sequence?
  -- no natural number, one that fits, or one that does not
  cases hn : n.nat? with
  | none =>
    refine .inr ⟨rfl, ?_⟩
    rintro ⟨m, -, rfl⟩
    rw [Number.nat?_ofNat] at hn
    cases hn
  | some m =>
    obtain rfl := Number.nat?_eq_some_iff.mp hn
    by_cases hfits : m ≤ 0xFFFF
    · have hvalue : (UInt16.ofNat m).toNat = m := by
        rw [UInt16.toNat_ofNat']
        omega
      exact .inl ⟨UInt16.ofNat m, if_pos hfits, by rw [hvalue], m, hfits, rfl⟩
    · refine .inr ⟨if_neg hfits, ?_⟩
      rintro ⟨other, hother, hsame⟩
      obtain rfl := Number.ofNat_inj.mp hsame
      exact hfits hother

instance (n : Number) : Decidable (IsSequence n) :=
  match h : sequence? n with
  | .ok _ => .isTrue <| by
    rcases sequence?_cases n with ⟨_, _, _, hn⟩ | ⟨hn, -⟩
    · exact hn
    · rw [hn] at h
      cases h
  | .error _ => .isFalse <| by
    rcases sequence?_cases n with ⟨_, hn, _, _⟩ | ⟨_, hn⟩
    · rw [hn] at h
      cases h
    · exact hn

/-- Set the sequence number, as a step on the message. -/
def renumber (n : Number) : Attempt HandshakeMessage Unit := fun message =>
  match message.setSequence n with
  | .ok next => .ok () next
  | .error e => .error e.toFailure message

/-- How setting the sequence number ends. -/
def renumbered (n : Number) : Except Failure Unit :=
  if IsSequence n then .ok () else .error (RangeError.sequence n).toFailure

/-- A step that sets the sequence number of something that has one. -/
def Renumbers {σ : Type} (place : UInt16 → σ) (step : Number → Attempt σ Unit) : Prop :=
  ∀ n current, step n (place current) =
    match sequence? n with
    | .ok sequence => .ok () (place sequence)
    | .error e => .error e.toFailure (place current)

/-- The last number that fits is kept. Induction on the numbers: the one kept so far is there in
case that none of the others fits. -/
theorem run_renumber {σ : Type} {place : UInt16 → σ} {step : Number → Attempt σ Unit}
    (hstep : Renumbers place step) (numbers : List Number) (current : UInt16) :
    ∃ sequence : UInt16,
      Number.ofNat sequence.toNat =
        ((numbers.filter (IsSequence ·)).getLast?).getD (.ofNat current.toNat) ∧
      Attempt.run step numbers (place current) = (numbers.map renumbered, place sequence) := by
  induction numbers generalizing current with
  | nil => exact ⟨current, rfl, rfl⟩
  | cons n rest ih =>
    have hn := hstep n current
    -- this number is kept until a later one fits
    rcases sequence?_cases n with ⟨sequence, hsequence, rfl, hfits⟩ | ⟨hsequence, hnot⟩
    · rw [hsequence] at hn
      obtain ⟨last, hlast, hrun⟩ := ih sequence
      refine ⟨last, ?_, ?_⟩
      · rw [List.filter_cons_of_pos (by simpa using hfits), List.getLast?_cons, hlast]
        rfl
      · rw [Attempt.run_cons_of_ok hn, hrun, List.map_cons, renumbered, if_pos hfits]
    · rw [hsequence] at hn
      obtain ⟨last, hlast, hrun⟩ := ih current
      refine ⟨last, ?_, ?_⟩
      · rw [List.filter_cons_of_neg (by simpa using hnot), hlast]
      · rw [Attempt.run_cons_of_error hn, hrun, List.map_cons, renumbered, if_neg hnot]

/-- Setting the sequence number of a message touches nothing else in it. -/
theorem renumbers_renumber (message : HandshakeMessage) :
    Renumbers (fun sequence => { message with sequence }) renumber := by
  intro n current
  unfold renumber setSequence
  cases sequence? n <;> rfl

/-! ### Bytes -/

section

variable {message : HandshakeMessage} {bytes : Bytes}

/-- The header and the body are six items, one behind the other. -/
theorem encoded_header {code : Nat} {sequence : UInt16} {body : Bytes} (hcode : code < 256)
    (hlength : body.length < 0x1000000) :
    Wire.Item.Encoded
      [.field (.ofNat code) (.ofNat 8), .field (.ofNat body.length) (.ofNat 24),
        .field (.ofNat sequence.toNat) (.ofNat 16), .field (.ofNat 0) (.ofNat 24),
        .field (.ofNat body.length) (.ofNat 24), .plain body]
      (header code body.length sequence ++ body) := by
  have hfirst := Wire.Item.encodes_ofNat 1 (by decide) (by decide) hcode
  have hlong := Wire.Item.encodes_ofNat 3 (by decide) (by decide) hlength
  have hsequence := Wire.Item.encodes_ofNat 2 (by decide) (by decide) sequence.toNat_lt
  have hoffset := Wire.Item.encodes_ofNat 3 (by decide) (by decide) (by decide : 0 < Bytes.limit 3)
  have hbytes : header code body.length sequence ++ body =
      Bytes.bigEndian 1 code ++
        (Bytes.bigEndian 3 body.length ++ (Bytes.bigEndian 2 sequence.toNat ++
          (Bytes.bigEndian 3 0 ++ (Bytes.bigEndian 3 body.length ++ (body ++ []))))) := by
    simp only [header, List.append_assoc, List.append_nil]
  rw [hbytes]
  exact .cons hfirst
    (.cons hlong (.cons hsequence (.cons hoffset (.cons hlong (.cons (.plain body) .nil)))))

/-- A message has bytes exactly if what it announces is the length of its body, and
its fields fit. -/
theorem exists_bytes_iff :
    (∃ bytes, message.bytes = .ok bytes) ↔
      message.announced = .ofNat message.body.length ∧ (∃ code < 256, message.type = .ofNat code) ∧
        message.body.length < 2 ^ 24 := by
  constructor
  · rintro ⟨bytes, hbytes⟩
    obtain ⟨code, hcode, htype, hannounced, hlength, -⟩ := bytes_eq_ok_iff.mp hbytes
    exact ⟨hannounced, ⟨code, hcode, htype⟩, hlength⟩
  · rintro ⟨hannounced, ⟨code, hcode, htype⟩, hlength⟩
    exact ⟨_, bytes_eq_ok_iff.mpr ⟨code, hcode, htype, hannounced, hlength, rfl⟩⟩

theorem length_bytes (h : message.bytes = .ok bytes) : bytes.length = 12 + message.body.length := by
  obtain ⟨code, -, -, -, -, rfl⟩ := bytes_eq_ok_iff.mp h
  rw [List.length_append, length_header]

/-- The body stands behind the twelve bytes of the header. -/
theorem drop_bytes (h : message.bytes = .ok bytes) : bytes.drop 12 = message.body := by
  obtain ⟨code, -, -, -, -, rfl⟩ := bytes_eq_ok_iff.mp h
  exact List.drop_left' (length_header code message.body.length message.sequence)

/-- A reader of the bytes of a message finds its fields and its body, and nothing behind them. -/
theorem run_get_bytes (h : message.bytes = .ok bytes) (origin : Option Peer) :
    ∃ reader : Wire.Reader,
      Attempt.run Wire.Reader.get
        [.field (.ofNat 8), .field (.ofNat 24), .field (.ofNat 16), .field (.ofNat 24),
          .field (.ofNat 24), .plain message.body.length] { bytes, peer := origin } =
        ([.ok (.field message.type (.ofNat 8)),
          .ok (.field (.ofNat message.body.length) (.ofNat 24)),
          .ok (.field (.ofNat message.sequence.toNat) (.ofNat 16)),
          .ok (.field (.ofNat 0) (.ofNat 24)),
          .ok (.field (.ofNat message.body.length) (.ofNat 24)), .ok (.plain message.body)],
          reader) ∧
      reader.available = .ofNat 0 := by
  obtain ⟨code, hcode, htype, -, hlength, rfl⟩ := bytes_eq_ok_iff.mp h
  have hitems :
      Wire.Item.Encoded _ (header code message.body.length message.sequence ++ message.body) :=
    encoded_header hcode hlength
  have hstart := Wire.Reader.at_start
    ((header code message.body.length message.sequence ++ message.body) ++ []) origin
  have hend := (hstart.behind _).available_eq
  rw [htype]
  have hrun := Wire.Reader.At.run_get hitems hstart
  rw [List.append_nil] at hrun hend
  exact ⟨_, hrun, hend⟩

end

end HandshakeMessage

namespace CertificateVerify

/-- Set the sequence number, as a step on the message. -/
def renumber (n : Number) : Attempt CertificateVerify Unit := fun message =>
  match message.setSequence n with
  | .ok next => .ok () next
  | .error e => .error e.toFailure message

theorem renumbers_renumber (message : CertificateVerify) :
    HandshakeMessage.Renumbers (fun sequence => { message with sequence }) renumber := by
  intro n current
  unfold renumber setSequence
  cases HandshakeMessage.sequence? n <;> rfl

/-- The length that is announced for the body is the number of its bytes. -/
theorem handshake_eq (message : CertificateVerify) :
    message.handshake =
      { type := typeCode, announced := .ofNat message.encode.length, body := message.encode,
        sequence := message.sequence, peer := message.peer } := by
  rw [length_encode]
  rfl

end CertificateVerify

/-- **The frame of a handshake message.** A new message, of any type, with any body and any
announced length, has the sequence number 0. Of all numbers that are set later it keeps the last
one that fits, and refuses those that do not. It has bytes exactly if its type is a byte, the
length it announces is that of its body, and this length has no more than 24 bits, and these bytes
are twelve more than the body. A reader finds the type, the length, the sequence number, the offset
0, the length again and the body, and then nothing. All of this holds of a CertificateVerify
message, which always has bytes. -/
theorem HandshakeMessage.frame (type announced : Number) (body : Bytes) (peer : Option Peer)
    (numbers : List Number) :
    ∃ sequence : UInt16,
      Number.ofNat sequence.toNat = ((numbers.filter (IsSequence ·)).getLast?).getD (.ofNat 0) ∧
      Attempt.run renumber numbers { type, announced, body, peer } =
        (numbers.map renumbered, { type, announced, body, sequence, peer }) ∧
      ((∃ bytes, HandshakeMessage.bytes { type, announced, body, sequence, peer } = .ok bytes) ↔
        announced = .ofNat body.length ∧ (∃ code < 256, type = .ofNat code) ∧
        body.length < 2 ^ 24) ∧
      (∀ bytes, HandshakeMessage.bytes { type, announced, body, sequence, peer } = .ok bytes →
        bytes.length = 12 + body.length ∧
        ∀ origin, ∃ reader : Wire.Reader,
          Attempt.run Wire.Reader.get
            [.field (.ofNat 8), .field (.ofNat 24), .field (.ofNat 16), .field (.ofNat 24),
              .field (.ofNat 24), .plain body.length] { bytes, peer := origin } =
            ([.ok (.field type (.ofNat 8)), .ok (.field (.ofNat body.length) (.ofNat 24)),
              .ok (.field (.ofNat sequence.toNat) (.ofNat 16)), .ok (.field (.ofNat 0) (.ofNat 24)),
              .ok (.field (.ofNat body.length) (.ofNat 24)), .ok (.plain body)], reader) ∧
          reader.available = .ofNat 0) ∧
      (∀ verify : CertificateVerify, verify.sequence = 0 →
        Attempt.run CertificateVerify.renumber numbers verify =
          (numbers.map renumbered, { verify with sequence }) ∧
        ({ verify with sequence } : CertificateVerify).handshake =
          { type := .ofNat 15, announced := .ofNat verify.encode.length, body := verify.encode,
            sequence,
            peer := verify.peer } ∧
        ∃ bytes, ({ verify with sequence } : CertificateVerify).handshake.bytes = .ok bytes ∧
          bytes.drop 12 = verify.encode) := by
  have hmessage := renumbers_renumber { type, announced, body, peer }
  obtain ⟨sequence, hsequence, hrun⟩ := run_renumber hmessage numbers 0
  refine ⟨sequence, hsequence, hrun, exists_bytes_iff, ?_, ?_⟩
  · intro bytes hbytes
    exact ⟨length_bytes hbytes, run_get_bytes hbytes⟩
  · intro verify hfresh
    obtain ⟨last, hlast, hverify⟩ := run_renumber verify.renumbers_renumber numbers 0
    -- both runs keep the same number
    obtain rfl : last = sequence := by
      rw [← UInt16.toNat_inj, ← Number.ofNat_inj, hlast, hsequence]
    have hstart : ({ verify with sequence := 0 } : CertificateVerify) = verify := by
      rw [← hfresh]
    rw [hstart] at hverify
    have hbytes := CertificateVerify.handshake_bytes { verify with sequence := last }
    exact ⟨hverify, CertificateVerify.handshake_eq { verify with sequence := last }, _, hbytes,
      drop_bytes hbytes⟩

/-!
## Transcripts are uniquely decodable

Nothing stands between the messages of a transcript when they are fed to an engine, and a body may
look like a header. Still the bytes of a transcript determine its messages: a header has twelve
bytes, and it announces how many bytes of the message come behind it.

Proof structure: a header determines the type, the length and the sequence number it was
written with (`header_inj`), so two messages at the front of the same bytes are the same
message and leave the same rest (`front_inj`). The induction over both lists then takes off one
message of each at a time.
-/

/-- Numbers that fit are the same if their bytes are. -/
theorem Bytes.bigEndian_inj {width m n : Nat} (h : bigEndian width m = bigEndian width n)
    (hm : m < limit width) (hn : n < limit width) : m = n := by
  have hread := congrArg Bytes.toNat h
  rw [toNat_bigEndian_of_lt hm, toNat_bigEndian_of_lt hn] at hread
  exact hread

namespace HandshakeMessage

/-- A header tells what it was written with. -/
theorem header_inj {code code' length length' : Nat} {sequence sequence' : UInt16}
    (hcode : code < 256) (hcode' : code' < 256) (hlength : length < 0x1000000)
    (hlength' : length' < 0x1000000)
    (h : header code length sequence = header code' length' sequence') :
    code = code' ∧ length = length' ∧ sequence = sequence' := by
  obtain ⟨htype, h⟩ := List.append_inj h (by simp)
  obtain ⟨hannounced, h⟩ := List.append_inj h (by simp)
  obtain ⟨hsequence, -⟩ := List.append_inj h (by simp)
  have hsame := Bytes.bigEndian_inj hsequence sequence.toNat_lt sequence'.toNat_lt
  exact ⟨Bytes.bigEndian_inj htype hcode hcode', Bytes.bigEndian_inj hannounced hlength hlength',
    UInt16.toNat_inj.mp hsame⟩

/-- Whether two messages are the same in everything that is signed: all but where they came from. -/
structure SameSigned (left right : HandshakeMessage) : Prop where
  bytes : left.bytes = right.bytes
  type : left.type = right.type
  sequence : left.sequence = right.sequence
  body : left.body = right.body

/-- Messages at the front of the same bytes are the same, and so is what follows them. The length in
the header says where a message ends, whatever its body looks like. -/
theorem front_inj {left right : HandshakeMessage} {first first' rest rest' : Bytes}
    (hleft : left.bytes = .ok first) (hright : right.bytes = .ok first')
    (h : first ++ rest = first' ++ rest') : left.SameSigned right ∧ rest = rest' := by
  obtain ⟨code, hcode, htype, -, hlength, hfirst⟩ := bytes_eq_ok_iff.mp hleft
  obtain ⟨code', hcode', htype', -, hlength', hfirst'⟩ := bytes_eq_ok_iff.mp hright
  rw [hfirst, hfirst', List.append_assoc, List.append_assoc] at h
  obtain ⟨hheader, hbehind⟩ := List.append_inj h (by simp)
  -- equal headers announce equal lengths, so both bodies end at the same place
  obtain ⟨rfl, hsame, hsequence⟩ := header_inj hcode hcode' hlength hlength' hheader
  obtain ⟨hbody, hrest⟩ := List.append_inj hbehind hsame
  have hbytes : first = first' := by rw [hfirst, hfirst', hheader, hbody]
  refine ⟨⟨?_, ?_, hsequence, hbody⟩, hrest⟩
  · rw [hleft, hright, hbytes]
  · rw [htype, htype']

/-- A message is never empty on the wire. -/
theorem ne_nil_of_bytes {message : HandshakeMessage} {bytes : Bytes}
    (h : message.bytes = .ok bytes) :
    bytes ≠ [] := by
  obtain ⟨code, -, -, -, -, rfl⟩ := bytes_eq_ok_iff.mp h
  intro hnil
  have hlength := congrArg List.length hnil
  rw [List.length_append, length_header, List.length_nil] at hlength
  omega

/-- An entry has the bytes of its message. -/
theorem canonicalBytes_entry_eq_ok_iff {message : HandshakeMessage} {bytes : Bytes} :
    message.entry.canonicalBytes = .ok bytes ↔ message.bytes = .ok bytes :=
  except_mapError_eq_ok_iff

end HandshakeMessage

open HandshakeMessage in
/-- The bytes of a transcript with a message in front are never empty. -/
theorem Transcript.ne_nil_of_bytes_cons {message : HandshakeMessage} {rest : Transcript}
    {bytes : Bytes} (h : Transcript.bytes (message.entry :: rest) = .ok bytes) : bytes ≠ [] := by
  obtain ⟨first, others, hfirst, -, rfl⟩ := bytes_cons_eq_ok_iff.mp h
  have hne := ne_nil_of_bytes (canonicalBytes_entry_eq_ok_iff.mp hfirst)
  exact fun hnil => hne (List.append_eq_nil_iff.mp hnil).1

/-- **Unique decodability.** If an engine is handed the same bytes for two lists of messages, the
lists have the same length and are the same message by message, except for where the messages came
from. So no message can be altered, moved, added or left out without changing what is signed. -/
theorem Transcript.sameSigned_of_handed_eq {left right : List HandshakeMessage} {fed : Bytes}
    (hleft : Transcript.handed (left.map HandshakeMessage.entry) = .ok fed)
    (hright : Transcript.handed (right.map HandshakeMessage.entry) = .ok fed) :
    List.Forall₂ HandshakeMessage.SameSigned left right := by
  rw [handed_eq_bytes] at hleft hright
  -- taking the first message off both lists leaves equal bytes again, but other ones
  induction left generalizing right fed with
  | nil =>
    cases right with
    | nil => exact .nil
    | cons message right =>
      cases hleft
      exact absurd rfl (ne_nil_of_bytes_cons hright)
  | cons message left ih =>
    cases right with
    | nil =>
      cases hright
      exact absurd rfl (ne_nil_of_bytes_cons hleft)
    | cons other right =>
      obtain ⟨first, rest, hfirst, hrest, rfl⟩ := bytes_cons_eq_ok_iff.mp hleft
      obtain ⟨first', rest', hfirst', hrest', hfed⟩ := bytes_cons_eq_ok_iff.mp hright
      obtain ⟨hsame, rfl⟩ := HandshakeMessage.front_inj
        (HandshakeMessage.canonicalBytes_entry_eq_ok_iff.mp hfirst)
        (HandshakeMessage.canonicalBytes_entry_eq_ok_iff.mp hfirst') hfed
      exact .cons hsame (ih hrest hrest')

/-- Two ends of one handshake, each with the address of the other. The body of the first message is
itself the header of an empty message. -/
theorem Transcript.sameSigned_at_both_ends :
    let seenBy (peer : Option Peer) : List HandshakeMessage :=
      [.opaqueBody (.ofNat 1) (HandshakeMessage.header 14 0 7) peer,
        CertificateVerify.handshake { pair := ⟨4, 3⟩, signature := [0x30, 0], sequence := 2, peer }]
    List.Forall₂ HandshakeMessage.SameSigned (seenBy none)
      (seenBy (some { host := "10.0.0.1", port := .ofNat 5684 })) := by
  intro seenBy
  -- at either end the two messages are handed over as headers and bodies
  have hfed (peer : Option Peer) : handed ((seenBy peer).map HandshakeMessage.entry) =
      .ok ((HandshakeMessage.header 1 12 0 ++ HandshakeMessage.header 14 0 7) ++
        ((HandshakeMessage.header 15 6 2 ++ (4 :: 3 :: Bytes.bigEndian 2 2 ++ [0x30, 0])) ++
          [])) := by
    rw [handed_eq_bytes]
    refine bytes_cons_eq_ok_iff.mpr ⟨_, _, ?_, bytes_cons_eq_ok_iff.mpr ⟨_, _, ?_, rfl, rfl⟩, rfl⟩
    · exact HandshakeMessage.canonicalBytes_entry_eq_ok_iff.mpr
        (HandshakeMessage.bytes_eq_ok_iff.mpr
          ⟨1, by decide, rfl, rfl, by simp [HandshakeMessage.opaqueBody], rfl⟩)
    · have hbytes := CertificateVerify.handshake_bytes
        { pair := ⟨4, 3⟩, signature := [0x30, 0], sequence := 2, peer }
      exact HandshakeMessage.canonicalBytes_entry_eq_ok_iff.mpr hbytes
  exact sameSigned_of_handed_eq (hfed none) (hfed _)

end SignedHandshake
