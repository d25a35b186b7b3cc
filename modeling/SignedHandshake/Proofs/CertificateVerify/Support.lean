import SignedHandshake.Proofs.CertificateVerify.Families

/-!
# What the support check promises (specification §10.5)

Before it verifies, an application may ask whether a pair supports a public key. That check reads
the name of the key's algorithm through all the names a key may travel under; the engine for the
pair reads it by a rule of its own. For signatures over a digest the two rules are the same. For
signatures over a message they are not: the check knows every name of the variant, with blanks
around it, and the engine knows the variant by its own name alone.

**`AlgorithmPair.initVerify_of_supports`** says what follows for a supported key whose bytes are a
point. If the key goes by the name that the engine knows, the engine takes it, whatever it was used
for before, and verifying is a matter of the signature alone. If not, the engine refuses it for its
name, and the verifier with it, whatever the signature is: public keys are not re-encoded.

Proof structure: being supported, being a point and going by the name are, together, what makes an
algorithm take a key (`EngineAlgorithm.takesPublic_of_supports`). Without the name, the name is the
first thing that is found wrong (`EngineAlgorithm.acceptPublic_of_not_goesByName`). Engines and
verifiers answer accordingly.
-/

namespace SignedHandshake

variable {ω : Type} {suite : Suite} {algorithm : EngineAlgorithm} {primitive : Primitive}
    {key : Key}

/-! ## Which supported keys are taken -/

namespace EngineAlgorithm

/-- The bytes of a key are a point that signatures can be verified with, and what they are verified
with: the point is on the curve that the key names, or has the length of the variant and not small
order. What the key's algorithm is called makes no difference here. -/
inductive PointFor (suite : Suite) (key : Key) : EngineAlgorithm → Primitive → Prop where
  | overDigest {hash : HashName} {curve : NamedCurve} (curve_eq : key.curve = some curve)
      (point : (suite.overDigest curve).isPublicKey key.encoded = true) :
      PointFor suite key (.overDigest hash) (.overDigest hash curve)
  | overMessage {variant : EdVariant} (length : key.encoded.length = variant.keyLength)
      (point : (suite.overMessage variant).isPoint key.encoded = true)
      (order : (suite.overMessage variant).isSmallOrder key.encoded = false) :
      PointFor suite key (.overMessage variant) (.overMessage variant)

/-- For signatures over a message, the key's algorithm goes by the variant's own name, in any case
of letters: not by an object identifier, and without blanks around the name. -/
def GoesByName (key : Key) : EngineAlgorithm → Prop
  | overDigest _ => True
  | overMessage variant => key.algorithm.SameLetters variant.name

instance (key : Key) : (algorithm : EngineAlgorithm) → Decidable (algorithm.GoesByName key)
  | overDigest _ => inferInstanceAs (Decidable True)
  | overMessage variant => inferInstanceAs (Decidable (key.algorithm.SameLetters variant.name))

/-- A supported key whose bytes are a point is taken if it goes by the name. -/
theorem takesPublic_of_supports (hrole : key.role = .publicKey) (hraw : key.format = .raw)
    (hpoint : algorithm.PointFor suite key primitive)
    (hsupports : algorithm.pair.supports key = true)
    (hname : algorithm.GoesByName key) : algorithm.TakesPublic suite key primitive := by
  cases hpoint with
  | @overDigest hash curve curve_eq point =>
    have hfamily := (AlgorithmPair.supports_ofDigest hash key).symm.trans hsupports
    exact .overDigest hfamily hraw curve_eq point
  | overMessage length point order =>
    have hlower := EdVariant.lower_eq_lower_name_iff.mpr hname
    exact .overMessage hrole hlower hraw length point order

/-- A public key that does not go by the name is refused for its name, before
its bytes are looked at. -/
theorem acceptPublic_of_not_goesByName (hrole : key.role = .publicKey)
    (hname : ¬ algorithm.GoesByName key) :
    algorithm.acceptPublic suite key = .error (.foreignAlgorithm algorithm.name key.algorithm) := by
  cases algorithm with
  | overDigest hash => exact absurd trivial hname
  | overMessage variant =>
    have hlower : key.algorithm.lower ≠ variant.name.lower := fun h =>
      hname (EdVariant.lower_eq_lower_name_iff.mp h)
    have hcheck : EdDsaEngine.checkKey variant .publicKey key =
        .error (.foreignAlgorithm variant.name key.algorithm) := by
      rw [EdDsaEngine.checkKey, if_neg (not_not_intro hrole), if_pos hlower]
    rw [acceptPublic, hcheck]
    rfl

end EngineAlgorithm

/-! ## Verifiers -/

namespace Verifier

variable {workshop : Workshop (SignatureEngine ω) ω} {pair : AlgorithmPair}

/-- With a key that the algorithm takes, the transcript and the primitive settle the matter. -/
theorem verify_eq_ok_iff_of_takesPublic (hworkshop : workshop.InOrder suite)
    (halgorithm : pair.algorithm = .ok algorithm)
    (htakes : algorithm.TakesPublic suite key primitive)
    (signature : Bytes) (transcript : Transcript) (peer : Option Peer) :
    ((standard suite).verify key pair signature transcript peer workshop).1 = .ok () ↔
      ∃ message, transcript.bytes = .ok message ∧
        primitive.verdict suite message key.encoded signature = .ok true := by
  rw [verify_eq_answer hworkshop, answer_eq_ok_iff]
  constructor
  · rintro ⟨found, used, message, hfound, hused, hmessage, hverdict⟩
    obtain rfl : found = algorithm := Except.ok.inj (hfound.symm.trans halgorithm)
    have haccept := EngineAlgorithm.acceptPublic_eq_ok_iff.mpr htakes
    rw [EngineAlgorithm.acceptPublic_eq_ok_iff.mpr hused] at haccept
    obtain rfl : used = primitive := Except.ok.inj haccept
    exact ⟨message, hmessage, hverdict⟩
  · rintro ⟨message, hmessage, hverdict⟩
    exact ⟨algorithm, primitive, message, halgorithm, htakes, hmessage, hverdict⟩

/-- With a key that the algorithm refuses, the refusal is the answer. -/
theorem verify_of_acceptPublic_error {refusal : EngineError} (hworkshop : workshop.InOrder suite)
    (halgorithm : pair.algorithm = .ok algorithm)
    (hrefusal : algorithm.acceptPublic suite key = .error refusal) (signature : Bytes)
    (transcript : Transcript) (peer : Option Peer) :
    ((standard suite).verify key pair signature transcript peer workshop).1 =
      .error ((Rejection.ofFailure refusal.toFailure).failure peer) := by
  have hanswer : pair.algorithm.bind (engineAnswer suite key signature transcript) =
      .error refusal.toFailure := by
    rw [halgorithm]
    show engineAnswer suite key signature transcript algorithm = _
    rw [engineAnswer, hrefusal]
    rfl
  rw [verify_eq_answer hworkshop, answer, hanswer]

end Verifier

/-! ## The check -/

namespace AlgorithmPair

/-- **A supported key is taken exactly if it goes by its name.** Let a pair have an engine, and let
it support a raw public key whose bytes are a point. If the key goes by the name of the engine's
variant, or the pair is one for signatures over a digest, then every engine for the pair takes the
key, and verifying succeeds exactly with the signatures that are valid for the bytes of the
transcript. Otherwise every engine for the pair says that it cannot use keys of that name, and
verifying fails with just that. -/
theorem initVerify_of_supports {pair : AlgorithmPair} (halgorithm : pair.algorithm = .ok algorithm)
    (hrole : key.role = .publicKey) (hraw : key.format = .raw)
    (hpoint : algorithm.PointFor suite key primitive) (hsupports : pair.supports key = true) :
    (algorithm.GoesByName key →
      (∀ (engine : SignatureEngine ω) (world : ω), pair.engineName? = some engine.algorithm →
        Attempt.outcome ((SignatureEngine.behaviour suite).initVerify key (engine, world)) =
        .ok ()) ∧
      ∀ workshop : Workshop (SignatureEngine ω) ω, workshop.InOrder suite →
        ∀ (signature : Bytes) (transcript : Transcript) (peer : Option Peer),
          ((Verifier.standard suite).verify key pair signature transcript peer workshop).1 =
            .ok () ↔
            ∃ message, transcript.bytes = .ok message ∧
              primitive.verdict suite message key.encoded signature = .ok true) ∧
    (¬ algorithm.GoesByName key →
      let refusal := (EngineError.foreignAlgorithm algorithm.name key.algorithm).toFailure
      (∀ (engine : SignatureEngine ω) (world : ω), pair.engineName? = some engine.algorithm →
        Attempt.outcome ((SignatureEngine.behaviour suite).initVerify key (engine, world)) =
          .error refusal) ∧
      ∀ workshop : Workshop (SignatureEngine ω) ω, workshop.InOrder suite →
        ∀ (signature : Bytes) (transcript : Transcript) (peer : Option Peer),
          ((Verifier.standard suite).verify key pair signature transcript peer workshop).1 =
            .error ((Rejection.ofFailure refusal).failure peer)) := by
  obtain rfl := algorithm_eq_ok_iff.mp halgorithm
  -- an engine for the pair is one for the algorithm
  have hengine {engine : SignatureEngine ω}
      (h : algorithm.pair.engineName? = some engine.algorithm) :
      engine.algorithm = algorithm.name :=
    (Option.some.inj ((engineName?_pair algorithm).symm.trans h)).symm
  constructor
  · intro hname
    have htakes := EngineAlgorithm.takesPublic_of_supports hrole hraw hpoint hsupports hname
    refine ⟨fun engine world h => ?_, fun workshop hworkshop => ?_⟩
    · rw [SignatureEngine.outcome_initVerify suite (hengine h),
        EngineAlgorithm.acceptPublic_eq_ok_iff.mpr htakes]
      rfl
    · exact Verifier.verify_eq_ok_iff_of_takesPublic hworkshop halgorithm htakes
  · intro hname refusal
    have hrefusal : algorithm.acceptPublic suite key = _ :=
      EngineAlgorithm.acceptPublic_of_not_goesByName hrole hname
    refine ⟨fun engine world h => ?_, fun workshop hworkshop => ?_⟩
    · rw [SignatureEngine.outcome_initVerify suite (hengine h), hrefusal]
      rfl
    · exact Verifier.verify_of_acceptPublic_error hworkshop halgorithm hrefusal

/-- The same point under two names of its variant, both supported: the first is taken and
verifies, the second is refused. -/
theorem initVerify_of_supports_ed25519 :
    let key (name : Text) : Key :=
      { role := .publicKey, algorithm := name, format := .raw, encoded := KnownAnswer.point }
    let transcript : Transcript := [{ canonicalBytes := .ok KnownAnswer.message }]
    let engine : SignatureEngine Unit := .eddsa (.new .ed25519)
    let initVerify name :=
      Attempt.outcome
        ((SignatureEngine.behaviour Suite.standard).initVerify (key name) (engine, ()))
    let verify name := ((Verifier.standard Suite.standard).verify (key name) (.ofVariant .ed25519)
      KnownAnswer.signature transcript none (.new () : Workshop (SignatureEngine Unit) Unit)).1
    initVerify "ED25519" = .ok () ∧ verify "ED25519" = .ok () ∧
      initVerify "OID.1.3.101.112" =
        .error (EngineError.foreignAlgorithm "Ed25519" "OID.1.3.101.112").toFailure := by
  intro key transcript engine initVerify verify
  have hpoint name : EngineAlgorithm.PointFor Suite.standard (key name) (.overMessage .ed25519)
      (.overMessage .ed25519) :=
    .overMessage KnownAnswer.length_point KnownAnswer.isPoint KnownAnswer.isSmallOrder
  have hpair : (ofVariant .ed25519).algorithm = .ok (.overMessage .ed25519) := rfl
  have hsupports : (ofVariant .ed25519).supports (key "ED25519") = true := by decide +kernel
  have hidentifier :
      (ofVariant .ed25519).supports (key "OID.1.3.101.112") = true := by decide
  -- the first name is the variant's own, and the second is not
  obtain ⟨hnamed, -⟩ :=
    @initVerify_of_supports Unit _ _ _ _ _ hpair rfl rfl (hpoint "ED25519") hsupports
  obtain ⟨-, hother⟩ :=
    @initVerify_of_supports Unit _ _ _ _ _ hpair rfl rfl (hpoint "OID.1.3.101.112") hidentifier
  obtain ⟨hinit, hverify⟩ := hnamed (by decide)
  obtain ⟨hrefuse, -⟩ := hother (by decide)
  refine ⟨hinit engine () rfl, ?_, hrefuse engine () rfl⟩
  refine (hverify _ (Workshop.inOrder_new _ ()) _ _ _).mpr ⟨KnownAnswer.message, rfl, ?_⟩
  show Primitive.verdict _ _ KnownAnswer.point _ _ = _
  rw [Primitive.verdict, if_pos KnownAnswer.length_signature, KnownAnswer.verify]

/-- A key under the object identifier of its variant is supported, but neither the engine nor the
verifier uses it, though its bytes are a point and the signature is valid for it. -/
theorem supports_identifier_refused :
    let key : Key :=
      { role := .publicKey, algorithm := "1.3.101.112", format := .raw,
        encoded := KnownAnswer.point }
    let transcript : Transcript := [{ canonicalBytes := .ok KnownAnswer.message }]
    let engine : SignatureEngine Unit := .eddsa (.new .ed25519)
    let refusal := (EngineError.foreignAlgorithm "Ed25519" "1.3.101.112").toFailure
    (ofVariant .ed25519).engineName? = some "Ed25519" ∧
      SignatureEngine.create "Ed25519" = .ok engine ∧
      (EngineAlgorithm.overMessage .ed25519).PointFor Suite.standard key (.overMessage .ed25519) ∧
      (ofVariant .ed25519).supports key = true ∧
      Attempt.outcome ((SignatureEngine.behaviour Suite.standard).initVerify key (engine, ())) =
        .error refusal ∧
      (Suite.standard.overMessage .ed25519).verify KnownAnswer.signature KnownAnswer.message
        key.encoded = true ∧
      ((Verifier.standard Suite.standard).verify key (.ofVariant .ed25519) KnownAnswer.signature
          transcript none (.new () : Workshop (SignatureEngine Unit) Unit)).1 =
        .error ((Rejection.ofFailure refusal).failure none) := by
  intro key transcript engine refusal
  -- the name alone decides, whatever the point
  have hname : ¬ (EngineAlgorithm.overMessage .ed25519).GoesByName key := by decide
  have hpair : (ofVariant .ed25519).algorithm = .ok (.overMessage .ed25519) := rfl
  have hrefusal : (EngineAlgorithm.overMessage .ed25519).acceptPublic Suite.standard key = _ :=
    EngineAlgorithm.acceptPublic_of_not_goesByName rfl hname
  have hengine : engine.algorithm = (EngineAlgorithm.overMessage .ed25519).name := rfl
  refine ⟨rfl, rfl, ?_, by decide, ?_, KnownAnswer.verify, ?_⟩
  · exact .overMessage KnownAnswer.length_point KnownAnswer.isPoint KnownAnswer.isSmallOrder
  · rw [SignatureEngine.outcome_initVerify Suite.standard hengine, hrefusal]
    rfl
  · exact Verifier.verify_of_acceptPublic_error (Workshop.inOrder_new _ ()) hpair hrefusal ..

end AlgorithmPair

end SignedHandshake
