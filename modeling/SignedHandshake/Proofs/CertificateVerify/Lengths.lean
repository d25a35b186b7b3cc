import SignedHandshake.Proofs.CertificateVerify.AllOrNothing
import SignedHandshake.Proofs.CertificateVerify.Grammar
import SignedHandshake.Proofs.Wire.Runs

/-!
# The bound on signatures (specification §3, §8, length bound)

A signature travels behind a length of 16 bits. Three places know of this bound: a signer
refuses what an engine gives beyond it, no message is made around more, and a field of 16 bits
takes no greater number.

They draw the same line (**`CertificateVerify.create_bounded`**). What an engine gives is handed out
by the signer exactly up to the bound (`Signer.sign_of_yields`); making a message adds no refusal of
its own to that of the signer (`CertificateVerify.create_eq_ok_ok_iff` and the two lemmas beside
it); and every message can be written, field by field, and read again (`CertificateVerify.travels`).
The second guard is there for signers of another make, which may hand out anything.
-/

namespace SignedHandshake

variable {key : Key} {pair : AlgorithmPair} {transcript : Transcript} {peer : Option Peer}

/-! ## What an engine gives -/

namespace Signer

variable {E ω : Type}

/-- In a call, the engine called `name` gets ready, takes every entry in order and gives these bytes
as its signature, however many they are. -/
inductive Yields (signer : Signer E ω) (key : Key) (pair : AlgorithmPair) (transcript : Transcript)
    (workshop : Workshop E ω) (name : Text) (signature : Bytes) : Prop where
  | intro {engine ready : E} {engines : NameMap E} {bench readyBench : Bench ω} {last : EngineReply}
    {fed after : E × ω} (hname : pair.engineName? = some name)
    (hfetch : Workshop.fetch signer.supplier name workshop = .ok engine (engines, bench))
    (hready : signer.Readies key (engine, bench) (.ok ()) (ready, readyBench))
    (hfed : signer.supplier.behaviour.follow transcript.plan .done (ready, readyBench.world) =
      .ok last fed)
    (hsigned : signer.supplier.behaviour.sign fed = .ok signature after) :
    Yields signer key pair transcript workshop name signature

variable {signer : Signer E ω} {workshop : Workshop E ω} {name : Text} {signature : Bytes}

/-- A signer hands out what an engine gives if it fits into a message, and refuses it otherwise. -/
theorem sign_of_yields (h : signer.Yields key pair transcript workshop name signature)
    (peer : Option Peer) :
    (signer.sign key pair transcript peer workshop).1 =
      if signature.length ≤ RangeError.maxSignatureLength then .ok signature
      else .error (oversized name signature.length peer) := by
  obtain ⟨hname, hfetch, hready, hfed, hsigned⟩ := h
  by_cases hlength : signature.length ≤ RangeError.maxSignatureLength
  · rw [if_pos hlength, sign_eq_ok_iff]
    exact .worked hname hfetch (.signed hready hfed hsigned hlength)
  · rw [if_neg hlength, sign_eq_error_iff]
    -- the refusal is a signing failure already, so it comes back as it is
    refine ⟨_, .worked hname hfetch (.oversized hready hfed hsigned (Nat.lt_of_not_le hlength)), ?_⟩
    rfl

/-- A signer hands out nothing but what an engine gave and what fits into a message. -/
theorem sign_eq_ok_iff_yields :
    (signer.sign key pair transcript peer workshop).1 = .ok signature ↔
      (∃ name, signer.Yields key pair transcript workshop name signature) ∧
        signature.length ≤ RangeError.maxSignatureLength := by
  constructor
  · intro h
    cases sign_eq_ok_iff.mp h with
    | worked hname hfetch hsigns =>
      cases hsigns with
      | signed hready hfed hsigned hlength =>
        exact ⟨⟨_, hname, hfetch, hready, hfed, hsigned⟩, hlength⟩
  · rintro ⟨⟨name, hyields⟩, hlength⟩
    rw [sign_of_yields hyields peer, if_pos hlength]

end Signer

namespace CertificateVerify

/-! ## Messages around signatures -/

section

variable {σ : Type} {sign : SigningStep σ} {state : σ}

/-- What comes of making a message is decided by what the signer gave. -/
theorem result_create (sign : SigningStep σ) (key : Key) (pair : AlgorithmPair)
    (transcript : Transcript) (peer : Option Peer) (state : σ) :
    (create sign key pair transcript peer state).1 =
      match (sign key pair transcript peer state).1 with
      | .error failed => .ok (.error failed)
      | .ok signature => (ofSignature pair signature peer).map .ok := by
  simp only [create, bind, StateT.bind]
  cases sign key pair transcript peer state with
  | mk result after => cases result <;> rfl

/-- Making a message does to the state what signing does. -/
theorem state_create (sign : SigningStep σ) (key : Key) (pair : AlgorithmPair)
    (transcript : Transcript) (peer : Option Peer) (state : σ) :
    (create sign key pair transcript peer state).2 = (sign key pair transcript peer state).2 := by
  simp only [create, bind, StateT.bind]
  cases sign key pair transcript peer state with
  | mk result after => cases result <;> rfl

/-- A message is made exactly around what was signed, if it fits. -/
theorem create_eq_ok_ok_iff {message : CertificateVerify} :
    (create sign key pair transcript peer state).1 = .ok (.ok message) ↔
      (sign key pair transcript peer state).1 = .ok message.signature ∧ message.pair = pair ∧
        message.sequence = 0 ∧ message.peer = peer := by
  rw [result_create]
  cases hsign : (sign key pair transcript peer state).1 with
  | error failed => exact ⟨nofun, nofun⟩
  | ok signature =>
    simp only [except_map_eq_ok_iff, ofSignature_eq_ok_iff]
    constructor
    · rintro ⟨made, ⟨hfits, rfl⟩, hsame⟩
      cases hsame
      exact ⟨rfl, rfl, rfl, rfl⟩
    · rintro ⟨hsame, rfl, hsequence, rfl⟩
      cases hsame
      -- the message is the one made around its signature, since it has no number yet
      refine ⟨message, ⟨message.signature_fits, ?_⟩, rfl⟩
      rw [← hsequence]

/-- A failure is that of the signer. -/
theorem create_eq_ok_error_iff {failed : Failure} :
    (create sign key pair transcript peer state).1 = .ok (.error failed) ↔
      (sign key pair transcript peer state).1 = .error failed := by
  rw [result_create]
  cases (sign key pair transcript peer state).1 with
  | error other => simp
  | ok signature => simp [except_map_eq_ok_iff]

/-- Out of range is what was signed and does not fit, and nothing else. -/
theorem create_eq_error_iff {e : RangeError} :
    (create sign key pair transcript peer state).1 = .error e ↔
      ∃ signature, (sign key pair transcript peer state).1 = .ok signature ∧
        RangeError.maxSignatureLength < signature.length ∧
          e = .signatureLength signature.length := by
  rw [result_create]
  cases hsign : (sign key pair transcript peer state).1 with
  | error other => simp
  | ok signature =>
    by_cases hlength : signature.length ≤ RangeError.maxSignatureLength
    · simp [ofSignature, hlength, Except.map, Nat.not_lt.mpr hlength]
    · simp [ofSignature, hlength, Except.map, Nat.lt_of_not_le hlength, eq_comm]

end

/-! ## Messages as they travel -/

/-- The body item by item. -/
def items (message : CertificateVerify) : List Wire.Item :=
  [.field (.ofNat message.pair.hash.toNat) (.ofNat 8),
    .field (.ofNat message.pair.signature.toNat) (.ofNat 8),
    .field (.ofNat message.signature.length) (.ofNat 16), .plain message.signature]

/-- The body consists of the bytes of its items. -/
theorem encoded_items (message : CertificateVerify) :
    Wire.Item.Encoded message.items message.encode := by
  have hfits : message.signature.length < Bytes.limit 2 := Nat.lt_succ_of_le message.signature_fits
  have hhash := Wire.Item.encodes_ofNat 1 (by decide) (by decide) message.pair.hash.toNat_lt
  have hcode := Wire.Item.encodes_ofNat 1 (by decide) (by decide) message.pair.signature.toNat_lt
  have hlength := Wire.Item.encodes_ofNat 2 (by decide) (by decide) hfits
  have hbytes : message.encode =
      Bytes.bigEndian 1 message.pair.hash.toNat ++
        (Bytes.bigEndian 1 message.pair.signature.toNat ++
          (Bytes.bigEndian 2 message.signature.length ++ (message.signature ++ []))) := by
    simp [encode, Bytes.bigEndian]
  rw [hbytes]
  exact .cons hhash (.cons hcode (.cons hlength (.cons (.plain message.signature) .nil)))

/-- How a message travels: a writer takes every item of its body, the body is as long as
announced, its length field says how long the signature is, and the other end reads the
items and the message again. -/
structure Travels (message : CertificateVerify) : Prop where
  written : Attempt.run Wire.Writer.put message.items {} =
    (message.items.map fun _ => .ok (), { written := message.encode })
  length_eq : message.encode.length = message.messageLength
  messageLength_eq : message.messageLength = 4 + message.signature.length
  lengthField : Bytes.toNat ((message.encode.drop 2).take 2) = message.signature.length
  read (origin : Option Peer) : ∃ last : Wire.Reader,
    Attempt.run Wire.Reader.get (message.items.map Wire.Item.request)
      { bytes := message.encode, peer := origin } = (message.items.map .ok, last) ∧
    last.available = .ofNat 0
  decoded (origin : Option Peer) : ∃ received, decode message.encode origin = .ok received ∧
    received.pair = message.pair ∧ received.signature = message.signature

theorem travels (message : CertificateVerify) : message.Travels where
  written := message.encoded_items.run_put {}
  length_eq := message.length_encode
  messageLength_eq := rfl
  lengthField := by
    have hfits : message.signature.length < Bytes.limit 2 :=
      Nat.lt_succ_of_le message.signature_fits
    exact Bytes.toNat_bigEndian_of_lt hfits
  read origin := by
    have hstart := Wire.Reader.at_start (message.encode ++ []) origin
    have hrun := Wire.Reader.At.run_get message.encoded_items hstart
    have hend := (hstart.behind _).available_eq
    rw [List.append_nil] at hrun hend
    exact ⟨_, hrun, hend⟩
  decoded origin := ⟨_, message.decode_encode origin, rfl, rfl⟩

/-- **One bound from the engine to the wire.** With whatever engines, a signer hands out what an
engine gave exactly up to 65535 bytes, and turns anything longer into its failure. Making a
message with this signer is never out of range: it gives a message exactly if there is a
signature, around this signature, and the signer's failure otherwise. Each of these messages
travels. A signer of another make that hands out more than 65535 bytes makes the length go out of
range, and there is no message. -/
theorem create_bounded {E ω : Type} (signer : Signer E ω) (key : Key) (pair : AlgorithmPair)
    (transcript : Transcript) (peer : Option Peer) (workshop : Workshop E ω) :
    let signed := (signer.sign key pair transcript peer workshop).1
    let created := (create signer.sign key pair transcript peer workshop).1
    (∀ name signature, signer.Yields key pair transcript workshop name signature →
      signed = if signature.length ≤ 65535 then .ok signature
        else .error (Signer.oversized name signature.length peer)) ∧
    (∀ signature, signed = .ok signature ↔
      (∃ name, signer.Yields key pair transcript workshop name signature) ∧
      signature.length ≤ 65535) ∧
    (∀ e, created ≠ .error e) ∧
    ((∃ message, created = .ok (.ok message)) ↔
      ∃ signature, signed = .ok signature ∧ signature.length ≤ 65535) ∧
    (∀ failed, created = .ok (.error failed) ↔ signed = .error failed) ∧
    (∀ message, created = .ok (.ok message) →
      signed = .ok message.signature ∧ message.pair = pair ∧ message.Travels) ∧
    ∀ {σ : Type} (sign : SigningStep σ) (state : σ) (signature : Bytes),
      (sign key pair transcript peer state).1 = .ok signature → 65535 < signature.length →
        (create sign key pair transcript peer state).1 =
            .error (.signatureLength signature.length) := by
  intro signed created
  refine ⟨fun name signature hyields => Signer.sign_of_yields hyields peer,
    fun signature => Signer.sign_eq_ok_iff_yields, ?_, ⟨?_, ?_⟩,
    fun failed => create_eq_ok_error_iff, ?_, ?_⟩
  · intro e he
    obtain ⟨signature, hsigned, hlong, -⟩ := create_eq_error_iff.mp he
    obtain ⟨-, hfits⟩ := Signer.sign_eq_ok_iff_yields.mp hsigned
    exact Nat.not_le_of_lt hlong hfits
  · rintro ⟨message, hmessage⟩
    obtain ⟨hsigned, -⟩ := create_eq_ok_ok_iff.mp hmessage
    exact ⟨message.signature, hsigned, message.signature_fits⟩
  · rintro ⟨signature, hsigned, hfits⟩
    exact ⟨{ pair, signature, peer, signature_fits := hfits },
      create_eq_ok_ok_iff.mpr ⟨hsigned, rfl, rfl, rfl⟩⟩
  · intro message hmessage
    obtain ⟨hsigned, hpair, -, -⟩ := create_eq_ok_ok_iff.mp hmessage
    exact ⟨hsigned, hpair, message.travels⟩
  · intro σ sign state signature hsigned hlong
    exact create_eq_error_iff.mpr ⟨signature, hsigned, hlong, rfl⟩

end CertificateVerify

end SignedHandshake
