import SignedHandshake.Proofs.Attempt.Matching
import SignedHandshake.Proofs.CertificateVerify.Grammar

/-!
# Bodies one behind the other (specification §4.1)

Nothing stands between two bodies in a stream, and a stream can end at any byte. Each body says
itself where it ends, so a reader that is asked for one message after the other finds the messages
whose bodies are there as a whole, and then fails on what is left (**`run_read_stream`**).

Proof structure: a stream that ends anywhere is some whole bodies and the torn beginning of the
next (`exists_torn_of_take`). A whole body is read whatever is behind it (`read_encode`), a
torn one fails in the first field that is cut short (`read_torn`), and the run is an induction
on the whole bodies (`run_read_of_at`). What a signature looks like does not matter, since no
byte is looked at twice.
-/

namespace SignedHandshake.CertificateVerify

open Wire

/-- The message as it is received from `peer`. Its place among other messages is
not part of the body. -/
def receivedFrom (peer : Option Peer) (message : CertificateVerify) : CertificateVerify :=
  { message with sequence := 0, peer }

/-- A message that was received is equal to the one that was sent. -/
theorem agree_receivedFrom (peer : Option Peer) (message : CertificateVerify) :
    (message.receivedFrom peer).agree message = true := by
  simp [receivedFrom, agree, Bytes.agree_iff]

/-- The bodies of messages, one behind the other. -/
def stream (messages : List CertificateVerify) : Bytes :=
  messages.flatMap encode

@[simp] theorem stream_cons (message : CertificateVerify) (messages : List CertificateVerify) :
    stream (message :: messages) = message.encode ++ stream messages :=
  List.flatMap_cons

@[simp] theorem stream_append (first second : List CertificateVerify) :
    stream (first ++ second) = stream first ++ stream second :=
  List.flatMap_append

/-! ## Where a stream ends -/

/-- The bytes are a beginning of the stream of these messages, but end before its
first body does. -/
inductive Torn : Bytes → List CertificateVerify → Prop where
  | nothing : Torn [] []
  | body {torn behind : Bytes} (message : CertificateVerify) (others : List CertificateVerify)
    (hencode : message.encode = torn ++ behind) (hcut : behind ≠ []) : Torn torn (message :: others)

/-- The beginning of a stream has some whole bodies and the torn beginning of the next. -/
theorem exists_torn_of_take (messages : List CertificateVerify) (cut : Nat) :
    ∃ whole others torn, messages = whole ++ others ∧ Torn torn others ∧
      (stream messages).take cut = stream whole ++ torn := by
  induction messages generalizing cut with
  | nil => exact ⟨[], [], [], rfl, .nothing, List.take_nil⟩
  | cons message messages ih =>
    -- the cut is inside the first body or behind it
    rcases Nat.lt_or_ge cut message.encode.length with hcut | hwhole
    · refine ⟨[], message :: messages, message.encode.take cut, rfl, ?_, ?_⟩
      · refine .body message messages (List.take_append_drop cut _).symm ?_
        rw [Ne, List.drop_eq_nil_iff]
        omega
      · rw [stream_cons, List.take_append_of_le_length (Nat.le_of_lt hcut)]
        rfl
    · obtain ⟨whole, others, torn, rfl, htorn, htake⟩ := ih (cut - message.encode.length)
      refine ⟨message :: whole, others, torn, rfl, htorn, ?_⟩
      rw [stream_cons, List.take_append, List.take_of_length_le hwhole, htake, stream_cons,
        List.append_assoc]

/-- The whole bodies are those that lie completely in front of the end. -/
theorem Torn.count_le_iff {torn : Bytes} {others : List CertificateVerify} (h : Torn torn others)
    (whole : List CertificateVerify) {count : Nat} (hcount : count ≤ (whole ++ others).length) :
    count ≤ whole.length ↔
      (stream ((whole ++ others).take count)).length ≤ (stream whole ++ torn).length := by
  rw [List.length_append]
  constructor
  · intro hle
    have hfront : stream whole = stream (whole.take count) ++ stream (whole.drop count) := by
      rw [← stream_append, List.take_append_drop]
    rw [List.take_append_of_le_length hle, hfront, List.length_append]
    omega
  · intro hle
    by_contra hmore
    cases h with
    | nothing =>
      rw [List.append_nil] at hcount
      exact hmore hcount
    | @body _ behind message others hencode hcut =>
      -- the torn body is among the first ones, and it does not end where the bytes end
      obtain ⟨further, rfl⟩ : ∃ further, count = whole.length + (further + 1) :=
        ⟨count - whole.length - 1, by omega⟩
      have hpositive := List.length_pos_iff.mpr hcut
      rw [List.take_length_add_append, List.take_succ_cons, stream_append, stream_cons,
        hencode] at hle
      simp only [List.length_append] at hle
      omega

/-! ## Reading a stream -/

section

variable {reader : Reader} {taken : Nat}

/-- A whole body is read, and what is behind it stays. -/
theorem read_encode (peer : Option Peer) {message : CertificateVerify} {rest : Bytes}
    (h : reader.At taken (message.encode ++ rest)) :
    read peer reader =
      .ok (message.receivedFrom peer) (reader.behind taken message.encode.length) := by
  obtain ⟨high, low, hencode, hlength⟩ := message.encode_eq
  rw [hencode] at h
  rw [message.length_encode, messageLength, fixedLength]
  exact read_of_at peer h hlength

/-- No message is read from a torn body. The failure takes the fields of the
header that are complete. -/
theorem read_torn (peer : Option Peer) {torn : Bytes} {others : List CertificateVerify}
    (htorn : Torn torn others) (h : reader.At taken torn) :
    ∃ e : Failure, e.kind = .decode reader.peer ∧
      read peer reader = .error e (reader.behind taken (completeHeader torn.length)) := by
  have hshort : ∀ hash code high low rest, torn = hash :: code :: high :: low :: rest →
      rest.length < 256 * high.toNat + low.toNat := by
    rintro hash code high low rest rfl
    cases htorn with
    | @body _ behind message others hencode hcut =>
      -- the four bytes are those of the body, so they announce what is behind the end as well
      obtain ⟨high', low', hencode', hlength⟩ := message.encode_eq
      rw [hencode'] at hencode
      simp only [List.cons_append, List.cons.injEq] at hencode
      obtain ⟨-, -, rfl, rfl, hsignature⟩ := hencode
      have hpositive := List.length_pos_iff.mpr hcut
      rw [hsignature, List.length_append] at hlength
      omega
  obtain ⟨requested, available, hread⟩ := read_short peer h hshort
  exact ⟨_, rfl, hread⟩

/-- A reader that is asked once more than there are whole bodies ahead gives their
messages, and then fails. -/
theorem run_read_of_at (peer : Option Peer) (whole : List CertificateVerify) {torn : Bytes}
    {others : List CertificateVerify} (htorn : Torn torn others)
    (h : reader.At taken (stream whole ++ torn)) :
    ∃ e : Failure, e.kind = .decode reader.peer ∧
      Attempt.run read (List.replicate (whole.length + 1) peer) reader =
        ((whole.map fun message => .ok (message.receivedFrom peer)) ++ [.error e],
          reader.behind taken ((stream whole).length + completeHeader torn.length)) := by
  induction whole generalizing reader taken with
  | nil =>
    -- nothing whole is ahead, so the next reading fails
    obtain ⟨e, hkind, hread⟩ := read_torn peer htorn h
    refine ⟨e, hkind, ?_⟩
    show Attempt.run read [peer] reader = _
    rw [Attempt.run_cons_of_error hread, Attempt.run, stream, List.flatMap_nil, List.length_nil,
      Nat.zero_add]
    rfl
  | cons message whole ih =>
    -- the first body is read, and the others from behind it
    rw [stream_cons, List.append_assoc] at h
    obtain ⟨e, hkind, hrun⟩ := ih (h.behind message.encode)
    refine ⟨e, hkind, ?_⟩
    rw [List.length_cons, List.replicate_succ, Attempt.run_cons_of_ok (read_encode peer h), hrun,
      Reader.behind_behind, stream_cons, List.length_append, Nat.add_assoc]
    rfl

end

/-- **A stream of bodies delimits itself.** Let the stream of the bodies of any messages end at any
byte. A reader of what there is gives, one after the other, exactly the messages whose bodies are
there as a whole, each equal to the one that was sent. Asked again, it fails as malformed input. It
then has taken the whole bodies and, of the torn one, the fields of the header that are complete,
but no byte of the signature. -/
theorem run_read_stream (messages : List CertificateVerify) (cut : Nat)
    (origin peer : Option Peer) :
    let bytes := (stream messages).take cut
    let start : Reader := { bytes, peer := origin }
    ∃ (received : List CertificateVerify) (torn : Bytes) (e : Failure),
      (∀ count ≤ messages.length,
        count ≤ received.length ↔ (stream (messages.take count)).length ≤ bytes.length) ∧
      List.Forall₂ (fun message got => got.agree message = true ∧ got = message.receivedFrom peer)
        (messages.take received.length) received ∧
      bytes = stream (messages.take received.length) ++ torn ∧
      e.kind = .decode origin ∧
      Attempt.run read (List.replicate (received.length + 1) peer) start =
        (received.map .ok ++ [.error e],
          { start with
            position := .ofNat ((stream (messages.take received.length)).length +
              completeHeader torn.length) }) := by
  obtain ⟨whole, others, torn, rfl, htorn, hbytes⟩ := exists_torn_of_take messages cut
  intro bytes start
  have hstart : start.At 0 (stream whole ++ torn) := by
    rw [← hbytes]
    exact Reader.at_start bytes origin
  obtain ⟨e, hkind, hrun⟩ := run_read_of_at peer whole htorn hstart
  refine ⟨whole.map (receivedFrom peer), torn, e, ?_, ?_, ?_, hkind, ?_⟩
  · intro count hcount
    rw [List.length_map]
    show _ ↔ _ ≤ ((stream (whole ++ others)).take cut).length
    rw [hbytes]
    exact htorn.count_le_iff whole hcount
  · rw [List.length_map, List.take_left, List.forall₂_map_right_iff, List.forall₂_same]
    exact fun message _ => ⟨agree_receivedFrom peer message, rfl⟩
  · rw [List.length_map, List.take_left]
    exact hbytes
  · rw [List.length_map, List.take_left, hrun, List.map_map, Reader.behind, Nat.zero_add]
    rfl

end SignedHandshake.CertificateVerify
