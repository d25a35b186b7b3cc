import SignedHandshake.Proofs.CertificateVerify.Outcomes
import SignedHandshake.Proofs.Key.Secret
import SignedHandshake.Scheme.Standard

/-!
# Signing with keys that are not private (specification §4.2, step 3)

No engine takes a key for signing that is not a private key. But an engine that refuses the role of
a key says the same as one that refuses its form, so the signer looks for a re-encoder all the same,
and re-encoders look at the name and the form of a key and not at its role. What they make of a
public key is a private key whose secret is the bytes of the public key, and that key is taken.

**`Signer.sign_eq_ok_iff_of_role_ne`** says exactly when this happens. It takes re-encoding to be
switched on and an algorithm for signatures over a message, and the signature is the one that the
primitive gives with the bytes of the refused key. Without re-encoding, or for signatures over a
digest, only private keys sign.
-/

namespace SignedHandshake

variable {ω : Type} {suite : Suite} {config : Config ω} {workshop : Workshop (SignatureEngine ω) ω}
  {key : Key} {pair : AlgorithmPair} {transcript : Transcript} {peer : Option Peer}
  {signature : Bytes}

namespace EngineAlgorithm

/-- A key that is not private is refused. -/
theorem accept_of_role_ne (hrole : key.role ≠ .privateKey) (algorithm : EngineAlgorithm) :
    ∃ refusal, algorithm.accept suite key = .error refusal := by
  cases haccept : algorithm.accept suite key with
  | ok ready => exact absurd (accept_eq_ok_iff.mp haccept).1.role_eq hrole
  | error refusal => exact ⟨refusal, rfl⟩

/-- So what is signed with comes from a re-encoder. -/
theorem ready_eq_ok_iff_of_role_ne (hrole : key.role ≠ .privateKey) {algorithm : EngineAlgorithm}
    {keyReencoding : Bool} {rebuilt : Except Failure (Option Key)} {primitive : Primitive}
    {encoded : Bytes} :
    algorithm.ready suite keyReencoding rebuilt key = .ok (primitive, encoded) ↔
      keyReencoding = true ∧ ∃ replaced, rebuilt = .ok (some replaced) ∧
        algorithm.TakesPrivate suite replaced primitive ∧ replaced.encoded = encoded := by
  obtain ⟨refusal, hrefused⟩ : ∃ refusal, algorithm.accept suite key = .error refusal :=
    accept_of_role_ne hrole algorithm
  simp only [ready, hrefused]
  rw [except_ite_error_eq_ok_iff]
  refine and_congr_right fun _ => ?_
  match rebuilt with
  | .error e => simp [acceptRebuilt]
  | .ok none => simp [acceptRebuilt]
  | .ok (some replaced) => simp [acceptRebuilt, accept_eq_ok_iff]

/-- Signatures over a message take no randomness. -/
theorem signature_overMessage_eq_ok_iff {algorithm : EngineAlgorithm} {variant : EdVariant}
    {message secret : Bytes} {drawn : Except Failure Bytes} :
    algorithm.signature suite (.overMessage variant) secret message drawn = .ok signature ↔
      (suite.overMessage variant).sign message secret = some signature := by
  simp [signature_eq_ok_iff, Primitive.entropy, Primitive.sign]

end EngineAlgorithm

namespace Signer

/-- A key that a re-encoder replaces signs with what it is replaced with. -/
theorem sign_of_rebuilds {variant : EdVariant} {replaced : Key} {message : Bytes}
    (hworkshop : workshop.InOrder suite) (hrole : key.role ≠ .privateKey)
    (henabled : config.keyReencoding = true)
    (halgorithm : pair.algorithm = .ok (.overMessage variant))
    (hrebuilds : config.reencoders.Rebuilds suite key (.ok (some replaced)))
    (htakes :
      (EngineAlgorithm.overMessage variant).TakesPrivate suite replaced (.overMessage variant))
    (hmessage : transcript.bytes = .ok message)
    (hsigned : (suite.overMessage variant).sign message replaced.encoded = some signature)
    (hlength : signature.length ≤ RangeError.maxSignatureLength) :
    ((standard suite config).sign key pair transcript peer workshop).1 = .ok signature := by
  have hready := (EngineAlgorithm.ready_eq_ok_iff_of_role_ne hrole).mpr
    ⟨henabled, replaced, rfl, htakes, rfl⟩
  rw [sign_eq_answer hworkshop config hrebuilds]
  exact answer_eq_ok_iff.mpr ⟨_, _, _, message, halgorithm, hready, hmessage,
    EngineAlgorithm.signature_overMessage_eq_ok_iff.mpr hsigned, hlength⟩

/-- A key that is not private signs exactly if re-encoding is switched on, the algorithm is one for
signatures over a message, and a re-encoder makes a key of it that the engine takes. The signature
is then the one over the transcript with the bytes of the refused key for a secret. -/
theorem sign_eq_ok_iff_of_role_ne (hreencoders : config.reencoders = .standard)
    (hworkshop : workshop.InOrder suite) (hrole : key.role ≠ .privateKey) :
    ((standard suite config).sign key pair transcript peer workshop).1 = .ok signature ↔
      config.keyReencoding = true ∧ ∃ variant replaced message,
        pair.algorithm = .ok (.overMessage variant) ∧
        config.reencoders.Rebuilds suite key (.ok (some replaced)) ∧
        key.secret? = some replaced.encoded ∧
        (EngineAlgorithm.overMessage variant).TakesPrivate suite replaced (.overMessage variant) ∧
        transcript.bytes = .ok message ∧
        (suite.overMessage variant).sign message replaced.encoded = some signature ∧
        signature.length ≤ RangeError.maxSignatureLength := by
  constructor
  · intro hsign
    obtain ⟨rebuilt, hrebuilds, hrebuilt⟩ :=
      ReencoderRegistry.exists_rebuilds_standard (ω := ω) suite key
    rw [← hreencoders] at hrebuilds
    rw [sign_eq_answer hworkshop config hrebuilds] at hsign
    obtain ⟨algorithm, primitive, encoded, message, halgorithm, hready, hmessage, hsigned,
        hlength⟩ :=
      answer_eq_ok_iff.mp hsign
    obtain ⟨henabled, replaced, rfl, htakes, rfl⟩ :=
      (EngineAlgorithm.ready_eq_ok_iff_of_role_ne hrole).mp hready
    -- what re-encoders give is named after a variant, so no signature over a digest comes of it
    obtain ⟨⟨named, hname⟩, hsecret⟩ := hrebuilt replaced rfl
    obtain ⟨variant, rfl, rfl⟩ := htakes.eq_overMessage hname
    exact ⟨henabled, variant, replaced, message, halgorithm, hrebuilds, hsecret, htakes, hmessage,
      EngineAlgorithm.signature_overMessage_eq_ok_iff.mp hsigned, hlength⟩
  · rintro ⟨henabled, variant, replaced, message, halgorithm, hrebuilds, -, htakes, hmessage,
      hsigned, hlength⟩
    exact sign_of_rebuilds hworkshop hrole henabled halgorithm hrebuilds htakes hmessage hsigned
      hlength

/-- A public key under the name of the family signs, since its length tells the variant. -/
theorem sign_publicKey_of_family :
    let point := Bytes.bigEndian 32
      0x3d4017c3e843895a92b70aa74d1b7ebc9c982ccf2ec4968cc0cd55f12af4660c
    let config : Config Unit :=
      { logLevel := .silent, logger := { name := "test" }, keyReencoding := true,
        reencoders := .standard,
        random := { nextBytes := fun _ _ => .error (.primitive "no randomness") () } }
    let key : Key := { role := .publicKey, algorithm := "EdDSA", format := .raw, encoded := point }
    let transcript : Transcript := [{ canonicalBytes := .ok [0x72] }]
    ∃ signature, ((standard Suite.standard config).sign key (.ofVariant .ed25519) transcript none
      (.new ())).1 = .ok signature := by
  intro point config key transcript
  -- the point becomes a private key as it is
  have hbuilt : (EdDsaName.family.rebuild key).toOption =
      some { role := .privateKey, algorithm := "Ed25519", format := .raw, encoded := point } := by
    decide +kernel
  have hrebuilds : (.standard : ReencoderRegistry Unit).Rebuilds Suite.standard key
      ((EdDsaName.family.rebuild key).map some) := ReencoderRegistry.rebuilds_standard _ rfl
  rw [except_toOption_eq_some_iff.mp hbuilt] at hrebuilds
  refine ⟨_, (sign_eq_ok_iff_of_role_ne rfl (Workshop.inOrder_new _ ()) (by decide)).mpr
    ⟨rfl, .ed25519, _, _, rfl, hrebuilds, rfl, .overMessage rfl rfl rfl ?_, rfl, rfl, ?_⟩⟩
  · decide
  · decide

/-- The bytes of a public key are a secret like any other: this key is refused for its role and then
signs, and the signature is the one with the point for a seed. -/
theorem sign_publicKey :
    let point := Bytes.bigEndian 32
      0x3d4017c3e843895a92b70aa74d1b7ebc9c982ccf2ec4968cc0cd55f12af4660c
    let config : Config Unit :=
      { logLevel := .silent, logger := { name := "test" }, keyReencoding := true,
        reencoders := .standard,
        random := { nextBytes := fun _ _ => .error (.primitive "no randomness") () } }
    let key : Key :=
      { role := .publicKey, algorithm := "Ed25519", format := .raw, encoded := point }
    let transcript : Transcript := [{ canonicalBytes := .ok [0x72] }]
    ∃ signature, (Suite.standard.overMessage .ed25519).sign [0x72] point = some signature ∧
      ((standard Suite.standard config).sign key (.ofVariant .ed25519) transcript none
        (.new ())).1 =
        .ok signature := by
  intro point config key transcript
  -- the point becomes a private key as it is
  have hbuilt : ((EdDsaName.only .ed25519).rebuild key).toOption =
      some { role := .privateKey, algorithm := "Ed25519", format := .raw, encoded := point } := by
    decide +kernel
  have hrebuilds : (.standard : ReencoderRegistry Unit).Rebuilds Suite.standard key
      (((EdDsaName.only .ed25519).rebuild key).map some) :=
        ReencoderRegistry.rebuilds_standard _ rfl
  rw [except_toOption_eq_some_iff.mp hbuilt] at hrebuilds
  refine ⟨_, rfl, sign_of_rebuilds (Workshop.inOrder_new _ ()) (by decide) rfl rfl hrebuilds
    (.overMessage rfl rfl rfl ?_) rfl rfl ?_⟩
  · decide
  · decide

end Signer

end SignedHandshake
