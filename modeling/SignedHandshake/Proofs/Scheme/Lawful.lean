import SignedHandshake.Scheme.Standard

/-!
# What signing and verifying promise each other

The engines know nothing about curves. What they rely on, when one end signs and the other verifies,
is collected here as laws of a suite: what `sign` gives has the form of a signature, and `verify`
accepts it with a public key that belongs to the secret. Which points those are is up to a
`KeyMatch`, because a point may be encoded in more than one way.

The laws say nothing about keys that do not belong together, nor about signatures that `sign` did
not give. That a suite can have them is shown with `Suite.signingOnly`. Nor do they say that `sign`
gives anything: for signatures over a message this is `Suite.SignsMessages`, and the schemes of the
standards have it (`Suite.signsMessages_standard`).
-/

namespace SignedHandshake

/-- Which encoded points are public keys of which secrets. -/
structure KeyMatch where
  onCurve (curve : NamedCurve) (secret point : Bytes) : Prop
  ofVariant (variant : EdVariant) (secret point : Bytes) : Prop

/-- Signing over a digest and verifying fit together. -/
structure DigestScheme.Lawful (scheme : DigestScheme) (belongs : Bytes → Bytes → Prop) : Prop where
  /-- The public keys of a private key are public keys. -/
  isPublicKey {secret point : Bytes} :
    scheme.isPrivateKey secret = true → belongs secret point → scheme.isPublicKey point = true
  /-- Signatures are well-formed. -/
  isSignature {digest secret entropy signature : Bytes} :
    scheme.sign digest secret entropy = some signature → scheme.isSignature signature = true
  /-- Signatures are valid for the digest they were made for. -/
  verify {digest secret entropy signature point : Bytes} :
    scheme.sign digest secret entropy = some signature → belongs secret point →
      scheme.verify signature digest point = true

/-- Signing over a message and verifying fit together. -/
structure MessageScheme.Lawful (scheme : MessageScheme) (variant : EdVariant)
    (belongs : Bytes → Bytes → Prop) : Prop where
  /-- Public keys have the length of their variant. -/
  length_point {secret point : Bytes} : belongs secret point → point.length = variant.keyLength
  /-- Public keys are points. -/
  isPoint {secret point : Bytes} : belongs secret point → scheme.isPoint point = true
  /-- No secret leads to a point of small order. -/
  isSmallOrder {secret point : Bytes} : belongs secret point → scheme.isSmallOrder point = false
  /-- Signatures have the length of their variant. -/
  length_sign {message secret signature : Bytes} :
    scheme.sign message secret = some signature → signature.length = variant.signatureLength
  /-- Signatures are valid for the message they were made for. -/
  verify {message secret signature point : Bytes} :
    scheme.sign message secret = some signature → belongs secret point →
      scheme.verify signature message point = true

/-- All schemes of a suite are lawful. -/
structure Suite.Lawful (suite : Suite) (matching : KeyMatch) : Prop where
  overDigest (curve : NamedCurve) : (suite.overDigest curve).Lawful (matching.onCurve curve)
  overMessage (variant : EdVariant) :
    (suite.overMessage variant).Lawful variant (matching.ofVariant variant)

/-- Signing over a message does not fail with a seed of the right length. -/
def Suite.SignsMessages (suite : Suite) : Prop :=
  ∀ (variant : EdVariant) (message seed : Bytes), seed.length = variant.keyLength →
    ∃ signature, (suite.overMessage variant).sign message seed = some signature ∧
      signature.length = variant.signatureLength

/-- A point has as many bytes as its curve says. -/
theorem Curve.Edwards.Point.length_encode {C : Curve.Edwards} (P : C.Point) :
    P.encode.length = C.width := by
  rw [encode, Bytes.littleEndian, List.length_reverse, Bytes.length_bigEndian]

/-- A signature is a point and a number, one as long as the other. -/
theorem EdDsa.length_sign (E : EdDsa) (domain message seed : Bytes) :
    (E.sign domain message seed).length = E.curve.width + E.curve.width := by
  rw [sign, List.length_append, Curve.Edwards.Point.length_encode, Bytes.littleEndian,
    List.length_reverse, Bytes.length_bigEndian]

/-- The schemes of the standards never fail to sign over a message. -/
theorem Suite.signsMessages_standard : Suite.standard.SignsMessages := by
  intro variant message seed _
  cases variant with
  | ed25519 => exact ⟨_, rfl, EdDsa.length_sign ..⟩
  | ed448 => exact ⟨_, rfl, EdDsa.length_sign ..⟩

/-! ## A suite that signs one message -/

/-- The suite with everything as it was, except that all it ever signs is one message with one
secret. -/
def Suite.signingOnly (suite : Suite) (variant : EdVariant) (message secret signature : Bytes) :
    Suite where
  overDigest curve := { suite.overDigest curve with sign := fun _ _ _ => none }
  overMessage other :=
    { suite.overMessage other with
      sign := fun m s =>
        if other = variant ∧ m = message ∧ s = secret then some signature else none }

/-- One secret and its one public key. -/
def KeyMatch.only (variant : EdVariant) (secret point : Bytes) : KeyMatch where
  onCurve _ _ _ := False
  ofVariant other s p := other = variant ∧ s = secret ∧ p = point

/-- A suite that signs one message is lawful if it accepts that one signature. -/
theorem Suite.lawful_signingOnly {suite : Suite} {variant : EdVariant}
    {message secret signature point : Bytes} (hlength : point.length = variant.keyLength)
    (hpoint : (suite.overMessage variant).isPoint point = true)
    (horder : (suite.overMessage variant).isSmallOrder point = false)
    (hsignature : signature.length = variant.signatureLength)
    (hverify : (suite.overMessage variant).verify signature message point = true) :
    (suite.signingOnly variant message secret signature).Lawful (.only variant secret point) := by
  -- there are no signatures of digests, so only the laws over messages are left
  refine ⟨fun curve => ⟨nofun, nofun, nofun⟩, fun other => ⟨?_, ?_, ?_, ?_, ?_⟩⟩
  · rintro _ _ ⟨rfl, rfl, rfl⟩
    exact hlength
  · rintro _ _ ⟨rfl, rfl, rfl⟩
    exact hpoint
  · rintro _ _ ⟨rfl, rfl, rfl⟩
    exact horder
  · intro _ _ _ hsign
    obtain ⟨⟨rfl, -, -⟩, ⟨⟩⟩ := Option.ite_none_right_eq_some.mp hsign
    exact hsignature
  · rintro _ _ _ _ hsign ⟨rfl, rfl, rfl⟩
    obtain ⟨⟨-, rfl, -⟩, ⟨⟩⟩ := Option.ite_none_right_eq_some.mp hsign
    exact hverify

/-- The same, and the signature is valid for no other message. -/
def Suite.bindingOnly (suite : Suite) (variant : EdVariant) (message secret signature : Bytes) :
    Suite where
  overDigest := (suite.signingOnly variant message secret signature).overDigest
  overMessage other :=
    { (suite.signingOnly variant message secret signature).overMessage other with
      verify := fun s m key =>
        decide (s = signature → m = message) && (suite.overMessage other).verify s m key }

/-! ## A known answer

The third example for Ed25519 in RFC 8032. What is said about signing and verifying is shown to be
about something with it. -/

namespace KnownAnswer

/-- The seed. -/
def seed : Bytes :=
  .bigEndian 32 0xc5aa8df43f9f837bedb7442f31dcb7b166d38535076f094b85ce3a2e0b4458f7

/-- The point that belongs to the seed. -/
def point : Bytes :=
  .bigEndian 32 0xfc51cd8e6218a1a38da47ed00230f0580816ed13ba3303ac5deb911548908025

/-- The message. -/
def message : Bytes := [0xAF, 0x82]

/-- The signature over the message. -/
def signature : Bytes :=
  .bigEndian 32 0x6291d657deec24024827e69c3abe01a30ce548a284743a445e3680d7db5ac3ac ++
    .bigEndian 32 0x18ff9b538d16f290ae67f760984dc6594a7c15e9716ed28dc027beceea1ec40a

theorem length_point : point.length = EdVariant.ed25519.keyLength := Bytes.length_bigEndian ..

theorem length_signature : signature.length = EdVariant.ed25519.signatureLength := by
  decide

theorem isPoint : (Suite.standard.overMessage .ed25519).isPoint point = true := by
  decide +kernel

theorem isSmallOrder : (Suite.standard.overMessage .ed25519).isSmallOrder point = false := by
  decide +kernel

/-- The signature is valid. -/
theorem verify : (Suite.standard.overMessage .ed25519).verify signature message point = true := by
  decide +kernel

end KnownAnswer

end SignedHandshake
