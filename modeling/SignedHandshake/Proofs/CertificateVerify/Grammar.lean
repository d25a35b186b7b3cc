import SignedHandshake.CertificateVerify.Message
import SignedHandshake.Proofs.Wire.Reading

/-!
# The grammar of CertificateVerify bodies (specification §4.1, §8, round trip)

A body is two codes, a length of 16 bits and as many bytes as the length says (`IsBody`). Reading
takes one body off the front of what is ahead of a reader, whatever follows it (`read_of_at`), and
fails as malformed input at the first field that is cut short (`read_short`). Decoding wants a body
and nothing else: it succeeds exactly on bodies, encoding undoes it, and it undoes encoding
(`decode_codec`).
-/

namespace SignedHandshake.CertificateVerify

open Wire

/-- A length of 16 bits is never too great for a signature. -/
theorem fits_of_length_eq {signature : Bytes} {high low : UInt8}
    (h : signature.length = 256 * high.toNat + low.toNat) :
    signature.length ≤ RangeError.maxSignatureLength := by
  have hhigh := high.toNat_lt
  have hlow := low.toNat_lt
  simp only [RangeError.maxSignatureLength]
  omega

/-- Codes that were read as bytes make a pair. -/
theorem ofNumbers_toNat (hash code : UInt8) :
    AlgorithmPair.ofNumbers (.ofNat hash.toNat) (.ofNat code.toNat) = .ok ⟨hash, code⟩ := by
  have hcode (byte : UInt8) : AlgorithmPair.code? (.ofNat byte.toNat) = some byte := by
    have hlt := byte.toNat_lt
    have hle : byte.toNat ≤ 0xFF := by omega
    simp [AlgorithmPair.code?, Option.filter, hle]
  simp [AlgorithmPair.ofNumbers, hcode]

section

variable {reader : Reader} {taken : Nat} {hash code high low : UInt8} {rest : Bytes}

/-- The two codes are read one after the other, and no code is refused. -/
theorem read_codes (peer : Option Peer) (h : reader.At taken (hash :: code :: rest)) :
    read peer reader =
      (do
        let length ← Reader.read (.ofNat 16)
        let signature ← Reader.take length
        Attempt.ofExcept ((ofSignature ⟨hash, code⟩ signature peer).mapError RangeError.toFailure))
      (reader.behind taken 2) := by
  have hsecond := h.behind_byte
  have hpair : (Attempt.ofExcept ((AlgorithmPair.ofNumbers (.ofNat hash.toNat)
      (.ofNat code.toNat)).mapError RangeError.toFailure) : Attempt Reader AlgorithmPair) =
      pure ⟨hash, code⟩ := by
    rw [ofNumbers_toNat]
    rfl
  have hmoved : (reader.behind taken 1).behind (taken + 1) 1 = reader.behind taken 2 :=
    Reader.behind_behind ..
  rw [read, Attempt.bind_of_ok h.read_byte, Attempt.bind_of_ok hsecond.read_byte, hpair, pure_bind,
    hmoved]

/-- Behind the codes comes the length, and then the signature decides. -/
theorem read_header (peer : Option Peer)
    (h : reader.At taken (hash :: code :: high :: low :: rest)) :
    read peer reader =
      (do
        let signature ← Reader.take (.ofNat (256 * high.toNat + low.toNat))
        Attempt.ofExcept ((ofSignature ⟨hash, code⟩ signature peer).mapError RangeError.toFailure))
      (reader.behind taken 4) := by
  have hthird : (reader.behind taken 2).At (taken + 2) (high :: low :: rest) :=
    Reader.At.behind [hash, code] h
  have hmoved : (reader.behind taken 2).behind (taken + 2) 2 = reader.behind taken 4 :=
    Reader.behind_behind ..
  rw [read_codes peer h]
  rw [Attempt.bind_of_ok hthird.read_word, hmoved]

/-- A body that is there is read, and what follows it stays. -/
theorem read_of_at (peer : Option Peer) {signature : Bytes}
    (h : reader.At taken (hash :: code :: high :: low :: (signature ++ rest)))
    (hlength : signature.length = 256 * high.toNat + low.toNat) :
    read peer reader =
      .ok { pair := ⟨hash, code⟩, signature, peer, signature_fits := fits_of_length_eq hlength }
        (reader.behind taken (4 + signature.length)) := by
  have hfourth : (reader.behind taken 4).At (taken + 4) (signature ++ rest) :=
    Reader.At.behind [hash, code, high, low] h
  have hmade : ofSignature ⟨hash, code⟩ signature peer = .ok _ :=
    ofSignature_eq_ok_iff.mpr ⟨fits_of_length_eq hlength, rfl⟩
  rw [read_header peer h, ← hlength, Attempt.bind_of_ok hfourth.take, hmade]
  exact congrArg (EStateM.Result.ok _) (Reader.behind_behind ..)

/-- How many bytes of the header are taken when only `count` bytes are ahead: those of the fields
that are complete. -/
def completeHeader (count : Nat) : Nat :=
  if count < 2 then count else if count < 4 then 2 else 4

/-- Without a whole body ahead, reading fails as malformed input. What it took are the complete
fields of the header. -/
theorem read_short {ahead : Bytes} (peer : Option Peer) (h : reader.At taken ahead)
    (hshort : ∀ hash code high low rest, ahead = hash :: code :: high :: low :: rest →
      rest.length < 256 * high.toNat + low.toNat) :
    ∃ requested available, read peer reader =
      .error ((ReadError.shortage requested available).toFailure reader.peer)
        (reader.behind taken (completeHeader ahead.length)) := by
  -- one case for each field that may be the first to be cut short
  match ahead, h, hshort with
  | [], h, _ =>
    have hfield := h.read_short 1 (by decide) (by decide) (by decide)
    have hunmoved : reader.behind taken (completeHeader ([] : Bytes).length) = reader :=
      Reader.behind_zero h.position_eq
    refine ⟨.ofNat 1, .ofNat 0, ?_⟩
    rw [hunmoved]
    exact Attempt.bind_of_error hfield _
  | [hash], h, _ =>
    have hsecond := h.behind_byte
    have hfield := hsecond.read_short 1 (by decide) (by decide) (by decide)
    exact ⟨_, _, (Attempt.bind_of_ok h.read_byte _).trans (Attempt.bind_of_error hfield _)⟩
  | [hash, code], h, _ =>
    have hthird : (reader.behind taken 2).At (taken + 2) [] :=
      Reader.At.behind [hash, code] h
    have hfield := hthird.read_short 2 (by decide) (by decide) (by simp)
    refine ⟨.ofNat 2, .ofNat 0, ?_⟩
    rw [read_codes peer h]
    exact Attempt.bind_of_error hfield _
  | [hash, code, high], h, _ =>
    have hthird : (reader.behind taken 2).At (taken + 2) [high] :=
      Reader.At.behind [hash, code] h
    have hfield := hthird.read_short 2 (by decide) (by decide) (by simp)
    refine ⟨.ofNat 2, .ofNat 1, ?_⟩
    rw [read_codes peer h]
    exact Attempt.bind_of_error hfield _
  | hash :: code :: high :: low :: rest, h, hshort =>
    have hfourth : (reader.behind taken 4).At (taken + 4) rest :=
      Reader.At.behind [hash, code, high, low] h
    have hfield := hfourth.take_short (hshort hash code high low rest rfl)
    refine ⟨.ofNat (256 * high.toNat + low.toNat), .ofNat rest.length, ?_⟩
    rw [read_header peer h]
    exact Attempt.bind_of_error hfield _

end

/-! ## Whole bodies -/

/-- Decoding a body gives the message with its codes and its signature, unless further bytes
follow. -/
theorem decode_append (hash code : UInt8) {high low : UInt8} {signature : Bytes}
    (peer : Option Peer) (rest : Bytes)
    (hlength : signature.length = 256 * high.toNat + low.toNat) :
    decode (hash :: code :: high :: low :: (signature ++ rest)) peer =
      if 0 < rest.length then .error (trailing (.ofNat rest.length) peer)
      else .ok { pair := ⟨hash, code⟩, signature, peer,
                 signature_fits := fits_of_length_eq hlength } := by
  have hstart := Reader.at_start (hash :: code :: high :: low :: (signature ++ rest)) peer
  have hread := read_of_at peer hstart hlength
  have hend := Reader.At.behind (hash :: code :: high :: low :: signature) hstart
  have hlast : 4 + signature.length = (hash :: code :: high :: low :: signature).length := by
    simp only [List.length_cons]
    omega
  rw [hlast] at hread
  simp only [decode, hread, hend.available_eq, Number.ofNat_lt_ofNat]

/-- Decoding a body that nothing follows gives its message. -/
theorem decode_body (hash code : UInt8) {high low : UInt8} {signature : Bytes} (peer : Option Peer)
    (hlength : signature.length = 256 * high.toNat + low.toNat) :
    decode (hash :: code :: high :: low :: signature) peer =
      .ok { pair := ⟨hash, code⟩, signature, peer,
            signature_fits := fits_of_length_eq hlength } := by
  have hdecode := decode_append hash code peer [] hlength
  rw [List.append_nil, if_neg (by decide)] at hdecode
  exact hdecode

/-- The body of a message, byte by byte in front of the signature. -/
theorem encode_eq (message : CertificateVerify) :
    ∃ high low : UInt8, message.encode =
        message.pair.hash :: message.pair.signature :: high :: low :: message.signature ∧
      message.signature.length = 256 * high.toNat + low.toNat := by
  have hfits := message.signature_fits
  have hlength : Bytes.toNat (Bytes.bigEndian 2 message.signature.length) =
      message.signature.length := by
    refine Bytes.toNat_bigEndian_of_lt ?_
    show message.signature.length < 0x10000
    simp only [RangeError.maxSignatureLength] at hfits
    omega
  refine ⟨UInt8.ofNat (message.signature.length / 256), UInt8.ofNat message.signature.length,
      rfl, ?_⟩
  simp only [Bytes.bigEndian, List.nil_append, List.cons_append, Bytes.toNat, List.foldl] at hlength
  omega

/-- Decoding a message's own body gives the message back, as it came from `peer`. -/
theorem decode_encode (message : CertificateVerify) (peer : Option Peer) :
    decode message.encode peer = .ok { message with sequence := 0, peer } := by
  obtain ⟨high, low, hencode, hlength⟩ := message.encode_eq
  rw [hencode, decode_body message.pair.hash message.pair.signature peer hlength]

end SignedHandshake.CertificateVerify
