import SignedHandshake.Proofs.CertificateVerify.Grammar
import SignedHandshake.Proofs.CertificateVerify.Lengths
import SignedHandshake.Proofs.Key.Secret
import SignedHandshake.Proofs.Scheme.Lawful
import SignedHandshake.Proofs.Workshop.History

/-!
# Agreement (specification §8, sign/verify agreement)

Messages agree if they carry the same signature for the same pair, and then no verifier tells them
from each other (**`CertificateVerify.agree_onWire`**). Ends agree: what one of them signs, the
other reads and accepts (**`CertificateVerify.verify_of_create`**).
-/

namespace SignedHandshake

/-!
## Equal messages

Two messages agree if they carry the same signature for the same pair. Who sent them and as which
message is no part of that, and no part of the body either: messages agree exactly if their bodies
are the same bytes (`agree_iff_encode_eq`). So what is said of messages that agree is said of
bodies, and **`agree_onWire`** says what follows: it is an equivalence, and no verifier tells
messages that agree from each other.

Proof structure: a body is decoded to the pair and the signature it was made of, so that
bodies that are the same were made of the same; and a verifier in a workshop that is in
order ends like its answer, which names the pair and the signature, and the peer only where
it puts a failure into words.
-/

variable {ω : Type}

namespace CertificateVerify

variable {one other : CertificateVerify}

/-- Messages agree if what is in their bodies is the same; every byte of the signatures counts. -/
theorem agree_iff :
    one.agree other = true ↔ one.pair = other.pair ∧ one.signature = other.signature := by
  rw [agree, Bool.and_eq_true, beq_iff_eq, Bytes.agree_iff]

/-- A body can be taken apart in one way only. -/
theorem parts_eq_of_encode_eq (h : one.encode = other.encode) :
    one.pair = other.pair ∧ one.signature = other.signature := by
  have hone := decode_encode one none
  have hother := decode_encode other none
  rw [h, hother] at hone
  injection hone with hsame
  injection hsame with hpair hsignature
  exact ⟨hpair.symm, hsignature.symm⟩

/-- Messages agree exactly if their bodies are the same bytes. -/
theorem agree_iff_encode_eq : one.agree other = true ↔ one.encode = other.encode := by
  constructor
  · intro h
    obtain ⟨hpair, hsignature⟩ := agree_iff.mp h
    unfold encode
    rw [hpair, hsignature]
  · intro h
    exact agree_iff.mpr (parts_eq_of_encode_eq h)

/-- Messages that agree are judged by the same verdict, in whatever workshops that are in order.
Only the peer that a failure is put down to is the one of the message. -/
theorem exists_verdict_of_agree (suite : Suite) (h : one.agree other = true) (key : Key)
    (transcript : Transcript) :
    ∃ verdict : Except Failure Bool, ∀ message, (message = one ∨ message = other) →
      ∀ workshop : Workshop (SignatureEngine ω) ω, workshop.InOrder suite →
        (message.verify (.standard suite) key transcript workshop).1 =
          Verifier.judge message.peer verdict := by
  obtain ⟨hpair, hsignature⟩ := agree_iff.mp h
  refine ⟨one.pair.algorithm.bind (Verifier.engineAnswer suite key one.signature transcript), ?_⟩
  intro message hmessage workshop hworkshop
  have hanswer := Verifier.verify_eq_answer hworkshop key message.pair message.signature transcript
    message.peer
  rcases hmessage with rfl | rfl
  · exact hanswer
  · rw [hpair, hsignature]
    exact hanswer

/-- **Equality of messages is equality on the wire.** Whatever messages there are, whoever sent them
and as which message, two of them agree exactly if their bodies are the same bytes. So to agree is
an equivalence. And with the engines of this library, whatever calls were made on them before,
messages that agree are verified with the same verdict under every key and over every transcript:
both are accepted, or both are rejected for the same reason. -/
theorem agree_onWire (suite : Suite) :
    (∀ one other : CertificateVerify, one.agree other = true ↔ one.encode = other.encode) ∧
    Equivalence (fun one other : CertificateVerify => one.agree other = true) ∧
    ∀ one other : CertificateVerify, one.agree other = true → ∀ (key : Key)
      (transcript : Transcript) (calls otherCalls : List (Call ω)) (start otherStart : ω),
      ∃ verdict : Except Failure Bool,
        (one.verify (.standard suite) key transcript (Call.runAll suite calls (.new start))).1 =
          Verifier.judge one.peer verdict ∧
        (other.verify (.standard suite) key transcript
            (Call.runAll suite otherCalls (.new otherStart))).1 =
          Verifier.judge other.peer verdict := by
  refine ⟨fun one other => agree_iff_encode_eq, ⟨?_, ?_, ?_⟩, ?_⟩
  · -- `agree` compares encodings, and equality is an equivalence
    intro message
    exact agree_iff_encode_eq.mpr rfl
  · intro one other h
    exact agree_iff_encode_eq.mpr (agree_iff_encode_eq.mp h).symm
  · intro one other another h hnext
    exact agree_iff_encode_eq.mpr ((agree_iff_encode_eq.mp h).trans (agree_iff_encode_eq.mp hnext))
  · intro one other h key transcript calls otherCalls start otherStart
    -- workshops that have served any calls are in order
    have horder (calls : List (Call ω)) (start : ω) :=
      Call.inOrder_runAll calls (Workshop.inOrder_new suite start)
    obtain ⟨verdict, hverdict⟩ := exists_verdict_of_agree (ω := ω) suite h key transcript
    exact ⟨verdict, hverdict one (.inl rfl) _ (horder calls start),
      hverdict other (.inr rfl) _ (horder otherCalls otherStart)⟩

end CertificateVerify

end SignedHandshake

/-!
## Both ends agree

What one end signs, the other end reads and accepts (`CertificateVerify.verify_of_create`): with the
public key that belongs to the private key, over entries with the same bytes, on engines that may
have been used for anything before, the same or others. It makes no difference whether the engine
took the private key as it came or only what a re-encoder made of it.

Proof structure: both ends come to a primitive of the same algorithm. The signer's key may have been
replaced, but it still stands for the old one (`Key.StandsFor`), so the genuine public key belongs
to it as well, and the verifier takes that key for the same primitive (`KeyMatch.Genuine.agrees`).
The laws of the suite do the rest.
-/

namespace SignedHandshake

/-! ### Keys that belong together -/

/-- A raw public key that belongs to a private key, for the signatures of an algorithm. Keys on a
named curve have to name the same curve. -/
inductive KeyMatch.Genuine (matching : KeyMatch) (privateKey publicKey : Key) :
    EngineAlgorithm → Prop where
  | overDigest {hash : HashName} {curve : NamedCurve} (raw : publicKey.format = .raw)
      (family : EcdsaEngine.isFamily publicKey.algorithm = true)
      (private_curve : privateKey.curve = some curve) (public_curve : publicKey.curve = some curve)
      (belongs : matching.onCurve curve privateKey.encoded publicKey.encoded) :
      Genuine matching privateKey publicKey (.overDigest hash)
  | overMessage {variant : EdVariant} {secret : Bytes} (role : publicKey.role = .publicKey)
      (raw : publicKey.format = .raw) (name : publicKey.algorithm.lower = variant.name.lower)
      (secret_eq : privateKey.secret? = some secret)
      (belongs : matching.ofVariant variant secret publicKey.encoded) :
      Genuine matching privateKey publicKey (.overMessage variant)

/-- A key is another one, or what the re-encoders of this library make of it. -/
def Key.StandsFor (used key : Key) : Prop :=
  used = key ∨
    (∃ variant : EdVariant, used.algorithm = variant.name) ∧ key.secret? = some used.encoded

/-- The secret of a key that is taken for signatures over a message is the one of the key that it
stands for. -/
theorem Key.StandsFor.secret?_eq {used key : Key} (h : used.StandsFor key)
    (hraw : used.format = .raw) : key.secret? = some used.encoded := by
  rcases h with rfl | ⟨-, hsecret⟩
  · exact secret?_of_raw hraw
  · exact hsecret

variable {suite : Suite} {matching : KeyMatch}

/-- If a signer has a signature with a key that stands for a private key, then the verifier
takes the genuine public key for the same primitive, and the primitive says that the
signature is valid. -/
theorem KeyMatch.Genuine.agrees (hsuite : suite.Lawful matching) {algorithm : EngineAlgorithm}
    {primitive : Primitive} {used privateKey publicKey : Key}
    (htakes : algorithm.TakesPrivate suite used primitive) (hused : used.StandsFor privateKey)
    (hgenuine : matching.Genuine privateKey publicKey algorithm) {message entropy signature : Bytes}
    (hsign : primitive.sign suite message used.encoded entropy = some signature) :
    algorithm.TakesPublic suite publicKey primitive ∧
      primitive.verdict suite message publicKey.encoded signature = .ok true := by
  cases htakes with
  | @overDigest hash curve hfamily hraw hcurve hrole hscalar =>
    have hlaws := hsuite.overDigest curve
    -- re-encoded keys are for signatures over a message only
    obtain rfl : used = privateKey := by
      rcases hused with hsame | ⟨⟨variant, hname⟩, -⟩
      · exact hsame
      · rw [hname, variant.isFamily_name] at hfamily
        cases hfamily
    obtain ⟨hpublic, hpublicFamily, hprivateCurve, hpublicCurve, hbelongs⟩ := hgenuine
    obtain rfl := Option.some.inj (hcurve.symm.trans hprivateCurve)
    refine ⟨.overDigest hpublicFamily hpublic hpublicCurve (hlaws.isPublicKey hscalar hbelongs), ?_⟩
    rw [Primitive.verdict, if_pos (hlaws.isSignature hsign), hlaws.verify hsign hbelongs]
  | @overMessage variant hrole hname hraw hlength =>
    have hlaws := hsuite.overMessage variant
    have hsecret := hused.secret?_eq hraw
    cases hgenuine with
    | overMessage hpublicRole hpublic hpublicName hprivate hbelongs =>
      obtain rfl := Option.some.inj (hprivate.symm.trans hsecret)
      refine ⟨.overMessage hpublicRole hpublicName hpublic (hlaws.length_point hbelongs)
        (hlaws.isPoint hbelongs) (hlaws.isSmallOrder hbelongs), ?_⟩
      rw [Primitive.verdict, if_pos (hlaws.length_sign hsign), hlaws.verify hsign hbelongs]

/-! ### Signing, then verifying -/

/-- Labels do not enter a signature, only the bytes of the entries do. -/
theorem Transcript.bytes_congr {left right : Transcript}
    (h : left.map (·.canonicalBytes) = right.map (·.canonicalBytes)) :
    left.bytes = right.bytes := by
  induction left generalizing right with
  | nil =>
    cases right with
    | nil => rfl
    | cons entry rest => cases h
  | cons entry rest ih =>
    cases right with
    | nil => cases h
    | cons other others =>
      obtain ⟨hfirst, hrest⟩ : entry.canonicalBytes = other.canonicalBytes ∧ _ = _ :=
        List.cons.inj h
      rw [bytes, bytes, hfirst, ih hrest]

section

variable {ω ω' : Type} {config : Config ω} {signers : Workshop (SignatureEngine ω) ω}
  {verifiers : Workshop (SignatureEngine ω') ω'} {privateKey publicKey : Key} {pair : AlgorithmPair}
  {transcript other : Transcript} {peer : Option Peer}

/-- Every verifier accepts a signature that a signer gave, whoever it is said to come from. -/
theorem Verifier.verify_of_sign (hsuite : suite.Lawful matching)
    (hreencoders : config.reencoders = .standard) (hsigners : signers.Reachable suite)
    (hverifiers : verifiers.Reachable suite) {signature : Bytes}
    (hsign : ((Signer.standard suite config).sign privateKey pair transcript peer signers).1 =
      .ok signature)
    (hgenuine : ∀ algorithm, pair.algorithm = .ok algorithm →
      matching.Genuine privateKey publicKey algorithm)
    (hother : other.map (·.canonicalBytes) = transcript.map (·.canonicalBytes))
    (sender : Option Peer) :
    ((standard suite).verify publicKey pair signature other sender verifiers).1 = .ok () := by
  obtain ⟨rebuilt, hrebuilds, hrebuilt⟩ :=
    ReencoderRegistry.exists_rebuilds_standard (ω := ω) suite privateKey
  rw [← hreencoders] at hrebuilds
  rw [Signer.sign_eq_answer hsigners.inOrder config hrebuilds] at hsign
  obtain ⟨algorithm, primitive, used, message, entropy, halgorithm, hused, htakes, hmessage,
      hentropy⟩ :=
    Signer.answer_eq_ok hsign
  -- the signer's key may have been replaced, but still stands for the old one
  have hstands : used.StandsFor privateKey := by
    rcases hused with hsame | hreplaced
    · exact .inl hsame
    · exact .inr (hrebuilt used hreplaced)
  -- so the genuine public key is taken for the same primitive
  obtain ⟨hpublic, hverdict⟩ :=
    (hgenuine algorithm halgorithm).agrees hsuite htakes hstands hentropy
  rw [verify_eq_answer hverifiers.inOrder]
  have hbytes : other.bytes = .ok message := (Transcript.bytes_congr hother).trans hmessage
  exact answer_eq_ok_iff.mpr
    ⟨algorithm, primitive, message, halgorithm, hpublic, hbytes, hverdict⟩

/-- A message that was made carries a signature that was given. -/
theorem CertificateVerify.sign_of_create {σ : Type} {sign : SigningStep σ} {state : σ}
    {message : CertificateVerify}
    (h : (create sign privateKey pair transcript peer state).1 = .ok (.ok message)) :
    (sign privateKey pair transcript peer state).1 = .ok message.signature ∧
      message.pair = pair := by
  obtain ⟨hsigned, hpair, -, -⟩ := create_eq_ok_ok_iff.mp h
  exact ⟨hsigned, hpair⟩

/-- **Agreement.** Whenever a message is made, its body is decoded at the other end, equal to what
was sent, and its signature is accepted: with the genuine public key of the private key that signed,
over any entries that have the same bytes in the same order, by any verifier on engines with any
past, the signer's own ones included, and whoever the message is said to come from. The private key
may have been taken as it came or after re-encoding. -/
theorem CertificateVerify.verify_of_create (hsuite : suite.Lawful matching)
    (hreencoders : config.reencoders = .standard) (hsigners : signers.Reachable suite)
    (hverifiers : verifiers.Reachable suite) {message : CertificateVerify}
    (hcreate :
      (create (Signer.standard suite config).sign privateKey pair transcript peer signers).1 =
      .ok (.ok message))
    (hgenuine : ∀ algorithm, pair.algorithm = .ok algorithm →
      matching.Genuine privateKey publicKey algorithm)
    (hother : other.map (·.canonicalBytes) = transcript.map (·.canonicalBytes))
    (sender : Option Peer) :
    ∃ received, decode message.encode sender = .ok received ∧ received.agree message = true ∧
      received.peer = sender ∧
      (received.verify (Verifier.standard suite) publicKey other verifiers).1 = .ok () := by
  obtain ⟨hsign, rfl⟩ := sign_of_create hcreate
  refine ⟨_, decode_encode message sender, ?_, rfl, ?_⟩
  · simp [agree, Bytes.agree_iff]
  · exact Verifier.verify_of_sign hsuite hreencoders hsigners hverifiers hsign hgenuine
      hother sender

end

/-- A key under the name of the family is refused, re-encoded and used, and the signature is
accepted by the very engine that gave it, over an entry with another label. All that is left out
of the standard suite is how to sign anything else. The secret, the message and the signature are
an example from RFC 8032. -/
theorem CertificateVerify.verify_of_create_reencoded :
    let secret := Bytes.bigEndian 32
      0x4ccd089b28ff96da9db6c346ec114e0f5b8a319f35aba624da8cf6ed4fb8a6fb
    let point := Bytes.bigEndian 32
      0x3d4017c3e843895a92b70aa74d1b7ebc9c982ccf2ec4968cc0cd55f12af4660c
    let signature :=
      Bytes.bigEndian 32 0x92a009a9f0d4cab8720e820b5f642540a2b27b5416503f8fb3762223ebdb69da ++
        Bytes.bigEndian 32 0x085ac1e43e15996e458f3613d0f11d8c387b2eaeb4302aeeb00d291612bb0c00
    let suite := Suite.standard.signingOnly .ed25519 [0x72] secret signature
    let config : Config Unit :=
      { logLevel := .silent, logger := { name := "test" }, keyReencoding := true,
        reencoders := .standard,
        random := { nextBytes := fun length _ => .ok (List.replicate length 7) () } }
    let privateKey : Key :=
      { role := .privateKey, algorithm := "EdDSA", format := .raw, encoded := secret }
    let publicKey : Key :=
      { role := .publicKey, algorithm := "Ed25519", format := .raw, encoded := point }
    let transcript : Transcript := [{ canonicalBytes := .ok [0x72], label? := some "hello" }]
    let other : Transcript := [{ canonicalBytes := .ok [0x72] }]
    let signed :=
      create (Signer.standard suite config).sign privateKey (.ofVariant .ed25519) transcript
      none (.new ())
    ∃ message received, signed.1 = .ok (.ok message) ∧ message.signature = signature ∧
      decode message.encode none = .ok received ∧ received.agree message = true ∧
      (received.verify (Verifier.standard suite) publicKey other signed.2).1 = .ok () := by
  intro secret point signature suite config privateKey publicKey transcript other signed
  have hsuite : suite.Lawful (.only .ed25519 secret point) := by
    refine Suite.lawful_signingOnly ?_ ?_ ?_ ?_ ?_
    · decide
    · decide +kernel
    · decide +kernel
    · decide
    · decide +kernel
  -- the message is computed
  have hcreate : signed.1 = .ok (.ok { pair := .ofVariant .ed25519, signature }) := by
    have hmade : signed.1.toOption.bind (·.toOption) =
        some { pair := .ofVariant .ed25519, signature } := by decide +kernel
    obtain ⟨made, houter, hinner⟩ := Option.bind_eq_some_iff.mp hmade
    rw [except_toOption_eq_some_iff] at houter hinner
    rw [houter, hinner]
  -- the pair has one algorithm, and the two keys match for it
  have hgenuine : ∀ algorithm, (AlgorithmPair.ofVariant .ed25519).algorithm = .ok algorithm →
      (KeyMatch.only .ed25519 secret point).Genuine privateKey publicKey algorithm := by
    intro algorithm halgorithm
    obtain rfl : EngineAlgorithm.overMessage .ed25519 = algorithm := by
      have hsame : (AlgorithmPair.ofVariant .ed25519).algorithm = .ok (.overMessage .ed25519) := rfl
      exact Except.ok.inj (hsame.symm.trans halgorithm)
    exact .overMessage rfl rfl rfl rfl ⟨rfl, rfl, rfl⟩
  have hsigned : signed.2.Reachable suite := by
    have hstate : signed.2 = _ := state_create ..
    rw [hstate]
    exact Workshop.Reachable.run (.new ())
      (.sign config privateKey (.ofVariant .ed25519) transcript none)
  have hother : other.map (·.canonicalBytes) = transcript.map (·.canonicalBytes) := rfl
  obtain ⟨received, hdecode, hagree, -, hverify⟩ :=
    verify_of_create hsuite rfl (.new ()) hsigned hcreate hgenuine hother none
  exact ⟨_, received, hcreate, rfl, hdecode, hagree, hverify⟩

end SignedHandshake
