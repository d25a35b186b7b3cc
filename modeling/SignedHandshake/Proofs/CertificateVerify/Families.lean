import SignedHandshake.Proofs.CertificateVerify.Outcomes
import SignedHandshake.Proofs.Engine.Runs
import SignedHandshake.Proofs.Scheme.Lawful
import SignedHandshake.Proofs.Workshop.History

/-!
# Keys are of the family that is signed with (specification §10.5, §10.6)

Five places have a say in which key goes with which pair: the name of the engine for the
pair, the list of engines, the check that an engine makes of a key, the choice of a
re-encoder, and the check that a verifier may make before. They read names by rules of their
own. **`CertificateVerify.families_sound`** says that they agree: what signs is a key of the
family of the pair, what verifies is a key that the pair says it supports, and a pair
without an engine does neither.

Proof structure: a pair has an algorithm exactly if it is the pair of that algorithm
(`AlgorithmPair.algorithm_eq_ok_iff`), so the algorithm can be used in place of the name. A key that
is taken has passed the check of the engine. A key that a re-encoder made carries a standard name,
and the factory that built it is the one for the name of the key that was refused
(`EngineAlgorithm.signsWith_of_rebuilt`).
-/

namespace SignedHandshake

/-! ## Pairs and algorithms -/

/-- The pair of an algorithm. -/
def EngineAlgorithm.pair : EngineAlgorithm → AlgorithmPair
  | overDigest hash => .ofDigest hash .ecdsa
  | overMessage variant => .ofVariant variant

namespace AlgorithmPair

/-- The pairs that have the name of an engine: those of a variant, and those of a hash function and
a signature algorithm that takes one. -/
theorem engineName?_eq_some_iff {pair : AlgorithmPair} {name : Text} :
    pair.engineName? = some name ↔
      (∃ variant, pair = ofVariant variant ∧ name = variant.name) ∨
        ∃ hash signature, pair = ofDigest hash signature ∧
          name = hash.name ++ "with" ++ signature.name := by
  constructor
  · intro h
    obtain ⟨hashCode, signatureCode⟩ := pair
    unfold engineName? at h
    -- the hash code tells the two sorts of names apart
    split at h
    next hhash =>
      obtain ⟨variant, hvariant, rfl⟩ := Option.map_eq_some_iff.mp h
      obtain rfl : hashCode = intrinsic := hhash
      have hcode := List.find?_some hvariant
      obtain rfl : variant.code = signatureCode := eq_of_beq hcode
      exact .inl ⟨variant, rfl, rfl⟩
    next =>
      obtain ⟨hash, hfound, hrest⟩ := Option.bind_eq_some_iff.mp h
      obtain ⟨signature, hsignature, hname⟩ := Option.bind_eq_some_iff.mp hrest
      have hhash := List.find?_some hfound
      have hcode := List.find?_some hsignature
      obtain rfl : hash.code = hashCode := eq_of_beq hhash
      obtain rfl : signature.code = signatureCode := eq_of_beq hcode
      exact .inr ⟨hash, signature, rfl, (Option.some.inj hname).symm⟩
  · rintro (⟨variant, rfl, rfl⟩ | ⟨hash, signature, rfl, rfl⟩)
    · cases variant <;> rfl
    · cases hash <;> cases signature <;> rfl

/-- There is no engine for the signature algorithm that has names but no engines. -/
theorem ofName?_rsa (hash : HashName) :
    EngineAlgorithm.ofName? (hash.name ++ "with" ++ DigestSignature.rsa.name) = none := by
  cases hash <;> rfl

/-- A pair has an algorithm exactly if it is the pair of that algorithm. -/
theorem algorithm_eq_ok_iff {pair : AlgorithmPair} {algorithm : EngineAlgorithm} :
    pair.algorithm = .ok algorithm ↔ pair = algorithm.pair := by
  constructor
  · intro h
    unfold AlgorithmPair.algorithm at h
    cases hname : pair.engineName? with
    | none =>
      simp only [hname] at h
      cases h
    | some name =>
      cases hfound : EngineAlgorithm.ofName? name with
      | none =>
        simp only [hname, hfound] at h
        cases h
      | some found =>
        simp only [hname, hfound] at h
        cases h
        -- the name of the pair is the algorithm's own
        have hown := EngineAlgorithm.name_of_ofName? hfound
        rcases engineName?_eq_some_iff.mp hname with
            ⟨variant, rfl, rfl⟩ | ⟨hash, signature, rfl, rfl⟩
        · obtain rfl : algorithm = .overMessage variant := EngineAlgorithm.eq_of_name hown
          rfl
        · cases signature with
          | rsa =>
            rw [ofName?_rsa] at hfound
            cases hfound
          | ecdsa =>
            have hname : (EngineAlgorithm.overDigest hash).name =
                hash.name ++ "with" ++ DigestSignature.ecdsa.name := by cases hash <;> rfl
            obtain rfl : algorithm = .overDigest hash :=
              EngineAlgorithm.eq_of_name (hown.trans hname.symm)
            rfl
  · rintro rfl
    -- each of the seven algorithms
    rcases algorithm with hash | variant
    · cases hash <;> rfl
    · cases variant <;> rfl

/-- The engine for the pair of an algorithm has the name of the algorithm. -/
theorem engineName?_pair (algorithm : EngineAlgorithm) :
    algorithm.pair.engineName? = some algorithm.name := by
  rcases algorithm with hash | variant
  · cases hash <;> rfl
  · cases variant <;> rfl

theorem supports_ofDigest (hash : HashName) (key : Key) :
    (ofDigest hash .ecdsa).supports key = EcdsaEngine.isFamily key.algorithm := by
  cases hash <;> rfl

theorem supports_ofVariant (variant : EdVariant) (key : Key) :
    (ofVariant variant).supports key =
      (EdDsaName.ofAlgorithm? key.algorithm == some (.only variant)) := by
  cases variant <;> rfl

end AlgorithmPair

/-! ## Keys that sign and keys that verify -/

variable {ω : Type} {suite : Suite} {config : Config ω} {workshop : Workshop (SignatureEngine ω) ω}
  {key : Key} {pair : AlgorithmPair} {transcript : Transcript} {peer : Option Peer}
  {signature : Bytes}

/-- The family of keys that sign with an algorithm: by the name and the curve of a key for
signatures over a digest, by what the name says for signatures over a message. -/
def EngineAlgorithm.SignsWith (key : Key) : EngineAlgorithm → Prop
  | overDigest _ =>
    (key.algorithm.upper = "EC" ∨ key.algorithm.upper = "ECDSA") ∧ key.format = .raw ∧
      key.curve.isSome = true
  | overMessage variant =>
    EdDsaName.ofAlgorithm? key.algorithm = some (.only variant) ∨
      EdDsaName.ofAlgorithm? key.algorithm = some .family

/-- The names of the family of signatures over a digest. -/
theorem EcdsaEngine.isFamily_iff {name : Text} :
    isFamily name = true ↔ name.upper = "EC" ∨ name.upper = "ECDSA" := by
  simp [isFamily]

/-- A key that an engine takes as it is, is of the family. -/
theorem EngineAlgorithm.signsWith_of_takesPrivate {algorithm : EngineAlgorithm}
    {primitive : Primitive}
    (h : algorithm.TakesPrivate suite key primitive) : algorithm.SignsWith key := by
  cases h with
  | overDigest family raw curve_eq =>
    exact ⟨EcdsaEngine.isFamily_iff.mp family, raw, by rw [curve_eq]; rfl⟩
  | overMessage _ name => exact .inl (EdDsaName.ofAlgorithm?_of_lower name)

/-- No two variants go by the same name. -/
theorem EdVariant.eq_of_lower_name {variant other : EdVariant}
    (h : variant.name.lower = other.name.lower) : variant = other := by
  have hown : EdDsaName.ofAlgorithm? variant.name = some (.only variant) :=
    EdDsaName.ofAlgorithm?_of_lower rfl
  have hsame := EdDsaName.ofAlgorithm?_of_lower h
  rw [hown] at hsame
  cases hsame
  rfl

/-- A key that an engine takes after re-encoding was of the family before. -/
theorem EngineAlgorithm.signsWith_of_rebuilt {algorithm : EngineAlgorithm} {primitive : Primitive}
    {replaced : Key} (hrebuilt : key.rebuilt = .ok (some replaced))
    (h : algorithm.TakesPrivate suite replaced primitive) : algorithm.SignsWith key := by
  obtain ⟨name, hname, hrebuild⟩ := Key.rebuilt_eq_ok_iff.mp hrebuilt
  obtain ⟨encoded, built, seed, -, -, hcovers, -, rfl⟩ := EdDsaName.rebuild_eq_ok_iff.mp hrebuild
  cases h with
  | overDigest family =>
    -- what a factory builds has the name of a variant
    have hnone : EcdsaEngine.isFamily built.name = false := built.isFamily_name
    exact absurd (hnone.symm.trans family) Bool.false_ne_true
  | @overMessage variant _ lower =>
    obtain rfl : built = variant := EdVariant.eq_of_lower_name lower
    rw [SignsWith, hname]
    rcases EdDsaName.covers_iff.mp hcovers with rfl | rfl
    · exact .inl rfl
    · exact .inr rfl

/-- What signs has an algorithm for the pair, and a key of the family of that algorithm. -/
theorem Signer.signsWith_of_sign (hreencoders : config.reencoders = .standard)
    (hworkshop : workshop.Reachable suite)
    (hsign : ((standard suite config).sign key pair transcript peer workshop).1 = .ok signature) :
    ∃ algorithm : EngineAlgorithm, pair = algorithm.pair ∧ algorithm.SignsWith key := by
  rw [sign_eq_answer_rebuilt hreencoders hworkshop.inOrder] at hsign
  obtain ⟨algorithm, primitive, used, message, entropy, halgorithm, hused, htakes, -⟩ :=
    answer_eq_ok hsign
  refine ⟨algorithm, AlgorithmPair.algorithm_eq_ok_iff.mp halgorithm, ?_⟩
  rcases hused with rfl | hrebuilt
  · exact EngineAlgorithm.signsWith_of_takesPrivate htakes
  · exact EngineAlgorithm.signsWith_of_rebuilt hrebuilt htakes

/-- What verifies has an algorithm for the pair, and a key that the pair supports. -/
theorem Verifier.supports_of_verify (hworkshop : workshop.Reachable suite)
    (hverify : ((standard suite).verify key pair signature transcript peer workshop).1 = .ok ()) :
    (∃ algorithm : EngineAlgorithm, pair = algorithm.pair) ∧ pair.supports key = true := by
  rw [verify_eq_answer hworkshop.inOrder] at hverify
  obtain ⟨algorithm, primitive, message, halgorithm, htakes, -⟩ := answer_eq_ok_iff.mp hverify
  obtain rfl : pair = algorithm.pair := AlgorithmPair.algorithm_eq_ok_iff.mp halgorithm
  refine ⟨⟨algorithm, rfl⟩, ?_⟩
  cases htakes with
  | @overDigest hash _ family => exact (AlgorithmPair.supports_ofDigest hash key).trans family
  | @overMessage variant _ name =>
    refine (AlgorithmPair.supports_ofVariant variant key).trans ?_
    rw [EdDsaName.ofAlgorithm?_of_lower name, beq_self_eq_true]

/-- **Key family soundness.** What signs is either a pair with the name of an engine for signatures
over a digest, with a raw key on a named curve whose name says `EC` or `ECDSA`, or the pair of a
variant, with a key whose name says that variant or the family. What verifies is a key that the pair
supports. A pair without the name of an engine, or with a name that no engine has, does neither. -/
theorem CertificateVerify.families_sound (hreencoders : config.reencoders = .standard)
    (hworkshop : workshop.Reachable suite) (key : Key) (pair : AlgorithmPair)
    (transcript : Transcript) (peer : Option Peer) :
    let signs signature :=
      ((Signer.standard suite config).sign key pair transcript peer workshop).1 = .ok signature
    let verifies signature :=
      ((Verifier.standard suite).verify key pair signature transcript peer workshop).1 = .ok ()
    (∀ signature, signs signature →
      (∃ hash, pair.engineName? = some (EcdsaEngine.nameFor hash) ∧
        (key.algorithm.upper = "EC" ∨ key.algorithm.upper = "ECDSA") ∧ key.format = .raw ∧
        key.curve.isSome = true) ∨
      (∃ variant, pair = .ofVariant variant ∧
        (EdDsaName.ofAlgorithm? key.algorithm = some (.only variant) ∨
          EdDsaName.ofAlgorithm? key.algorithm = some .family))) ∧
    (∀ signature, verifies signature → pair.supports key = true) ∧
    ((pair.engineName? = none ∨
        ∃ hash : HashName,
        pair.engineName? = some (hash.name ++ "with" ++ DigestSignature.rsa.name)) →
      ∀ signature, ¬ signs signature ∧ ¬ verifies signature) := by
  intro signs verifies
  refine ⟨fun signature hsign => ?_, fun signature hverify => ?_, fun hnone signature => ?_⟩
  · -- who signs has an algorithm for the pair, and a key of its family
    obtain ⟨algorithm, rfl, hsigns⟩ := Signer.signsWith_of_sign hreencoders hworkshop hsign
    rw [AlgorithmPair.engineName?_pair]
    cases algorithm with
    | overDigest hash => exact .inl ⟨hash, rfl, hsigns⟩
    | overMessage variant => exact .inr ⟨variant, rfl, hsigns⟩
  · exact (Verifier.supports_of_verify hworkshop hverify).2
  · have hpair (algorithm : EngineAlgorithm) : pair ≠ algorithm.pair := by
      rintro rfl
      rw [AlgorithmPair.engineName?_pair] at hnone
      rcases hnone with hnone | ⟨hash, hname⟩
      · cases hnone
      · -- an algorithm is found under its own name, but none under this one
        have hfound := algorithm.ofName?_name
        rw [Option.some.inj hname, AlgorithmPair.ofName?_rsa] at hfound
        cases hfound
    constructor
    · intro hsign
      obtain ⟨algorithm, hsame, -⟩ := Signer.signsWith_of_sign hreencoders hworkshop hsign
      exact hpair algorithm hsame
    · intro hverify
      obtain ⟨⟨algorithm, hsame⟩, -⟩ := Verifier.supports_of_verify hworkshop hverify
      exact hpair algorithm hsame

/-- A key under the name of the family signs for a variant, a key under the name of the variant
verifies, and neither does anything for a pair that no engine is for. -/
theorem CertificateVerify.families_sound_ed25519 :
    let config : Config Unit :=
      { logLevel := .silent, logger := { name := "test" }, keyReencoding := true,
        reencoders := .standard,
        random := { nextBytes := fun _ _ => .error (.primitive "no randomness") () } }
    let privateKey : Key :=
      { role := .privateKey, algorithm := "EdDSA", format := .raw, encoded := KnownAnswer.seed }
    let publicKey : Key :=
      { role := .publicKey, algorithm := "ED25519", format := .raw, encoded := KnownAnswer.point }
    let transcript : Transcript := [{ canonicalBytes := .ok KnownAnswer.message }]
    let signed pair :=
      ((Signer.standard Suite.standard config).sign privateKey pair transcript none (.new ())).1
    let verified pair :=
      ((Verifier.standard Suite.standard).verify publicKey pair KnownAnswer.signature
        transcript none (.new () : Workshop (SignatureEngine Unit) Unit)).1
    (∃ signature, signed (.ofVariant .ed25519) = .ok signature ∧
        (EdDsaName.ofAlgorithm? privateKey.algorithm = some (.only .ed25519) ∨
          EdDsaName.ofAlgorithm? privateKey.algorithm = some .family) ∧
        signed (.ofDigest .sha256 .rsa) ≠ .ok signature) ∧
      verified (.ofVariant .ed25519) = .ok () ∧
      (AlgorithmPair.ofVariant .ed25519).supports publicKey = true ∧
      verified (.ofDigest .sha256 .rsa) ≠ .ok () := by
  intro config privateKey publicKey transcript signed verified
  have hnew : (Workshop.new () : Workshop (SignatureEngine Unit) Unit).Reachable Suite.standard :=
    .new ()
  -- the outcomes for the known answer are computed
  obtain ⟨signature, hsigned⟩ : ∃ signature, signed (.ofVariant .ed25519) = .ok signature := by
    have hsome : (signed (.ofVariant .ed25519)).toOption.isSome = true := by decide +kernel
    obtain ⟨signature, hsigned⟩ := Option.isSome_iff_exists.mp hsome
    exact ⟨signature, except_toOption_eq_some_iff.mp hsigned⟩
  have hverified : verified (.ofVariant .ed25519) = .ok () := by
    refine (Verifier.verify_eq_answer hnew.inOrder ..).trans (Verifier.answer_eq_ok_iff.mpr ?_)
    refine ⟨.overMessage .ed25519, .overMessage .ed25519, KnownAnswer.message, rfl, ?_, rfl, ?_⟩
    · exact .overMessage rfl (by decide +kernel) rfl KnownAnswer.length_point KnownAnswer.isPoint
        KnownAnswer.isSmallOrder
    · show Primitive.verdict _ _ KnownAnswer.point _ _ = _
      rw [Primitive.verdict, if_pos KnownAnswer.length_signature, KnownAnswer.verify]
  have hstandard : config.reencoders = .standard := rfl
  obtain ⟨hsigns, -, -⟩ :=
    families_sound hstandard hnew privateKey (.ofVariant .ed25519) transcript none
  obtain ⟨-, hverifies, -⟩ :=
    families_sound hstandard hnew publicKey (.ofVariant .ed25519) transcript none
  obtain ⟨-, -, hprivate⟩ :=
    families_sound hstandard hnew privateKey (.ofDigest .sha256 .rsa) transcript none
  obtain ⟨-, -, hpublic⟩ :=
    families_sound hstandard hnew publicKey (.ofDigest .sha256 .rsa) transcript none
  refine ⟨⟨signature, hsigned, ?_, (hprivate (.inr ⟨.sha256, rfl⟩) signature).1⟩, hverified,
    hverifies _ hverified, (hpublic (.inr ⟨.sha256, rfl⟩) _).2⟩
  rcases hsigns signature hsigned with ⟨hash, hname, -⟩ | ⟨variant, hpair, hname⟩
  · exact absurd hname (by cases hash <;> decide)
  · obtain rfl : variant = .ed25519 := by
      cases variant with
      | ed25519 => rfl
      | ed448 => exact absurd hpair (by decide)
    exact hname

end SignedHandshake
