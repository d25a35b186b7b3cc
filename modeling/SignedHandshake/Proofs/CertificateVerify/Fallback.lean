import SignedHandshake.Proofs.CertificateVerify.Roles
import SignedHandshake.Proofs.Key.Export
import SignedHandshake.Proofs.Scheme.Lawful
import SignedHandshake.Proofs.Workshop.History

/-!
# All forms of a key sign alike (specification §8, fallback equivalence)

A private key of a variant comes raw or as private key information, under any name that says the
variant or its family (`Key.IsForm`). An engine takes few of these forms as they are. For all others
the signer falls back on a re-encoder, and what that gives is always the same key: the raw one under
the standard name (`Key.IsForm.rebuilt_eq`). Hence all forms give the same signature as that key
does (`Signer.sign_form_eq_native`). Without re-encoding a form signs only if it is the standard one
already, except for the case of the letters in its name.

Proof structure: the name is read once for the choice of the factory and once more when the
key is exported, the variant is read from the name, the length or the object identifier. The
form makes all of these agree: whatever information is exported is decoded to the identifier
of the variant and the seed.
-/

namespace SignedHandshake

/-! ## Forms of a key -/

/-- The forms that a private key of a variant with a seed comes in. The name says the variant or the
family; information about the key may be encoded in any way that can be read. -/
inductive Key.IsForm (variant : EdVariant) (seed : Bytes) (key : Key) : Prop where
  | raw (role : key.role = .privateKey)
      (name : EdDsaName.ofAlgorithm? key.algorithm = some (.only variant) ∨
        EdDsaName.ofAlgorithm? key.algorithm = some .family)
      (format : key.format = .raw) (encoded : key.encoded = seed)
  | pkcs8 (role : key.role = .privateKey)
      (name : EdDsaName.ofAlgorithm? key.algorithm = some (.only variant) ∨
        EdDsaName.ofAlgorithm? key.algorithm = some .family)
      (format : key.format = .pkcs8)
      (info : Der.PrivateKeyInfo.decode key.encoded =
        .ok { algorithm := variant.identifier, privateKey := seed })

namespace Key.IsForm

variable {variant : EdVariant} {seed : Bytes} {key : Key}

theorem role_eq (h : key.IsForm variant seed) : key.role = .privateKey := by
  cases h with
  | raw role | pkcs8 role => exact role

/-- The name of a form leads to a factory that builds keys of the variant. -/
theorem exists_covers (h : key.IsForm variant seed) :
    ∃ name, EdDsaName.ofAlgorithm? key.algorithm = some name ∧ name.covers variant = true := by
  have hname : EdDsaName.ofAlgorithm? key.algorithm = some (.only variant) ∨
      EdDsaName.ofAlgorithm? key.algorithm = some .family := by
    cases h with
    | raw _ name | pkcs8 _ name => exact name
  rcases hname with hname | hname
  · exact ⟨_, hname, EdDsaName.covers_iff.mpr (.inl rfl)⟩
  · exact ⟨_, hname, EdDsaName.covers_iff.mpr (.inr rfl)⟩

/-- A raw form holds the seed itself. -/
theorem encoded_eq (h : key.IsForm variant seed) (hraw : key.format = .raw) :
    key.encoded = seed := by
  cases h with
  | raw _ _ _ encoded => exact encoded
  | pkcs8 _ _ format =>
    rw [format] at hraw
    cases hraw

end Key.IsForm

/-- A form that the signer has to fall back on is exported as information about the variant and the
seed. -/
theorem Key.IsForm.exists_export {variant : EdVariant} {seed : Bytes} {key : Key}
    (h : key.IsForm variant seed) (hseed : seed.length = variant.keyLength) :
    ∃ encoded, key.exportPkcs8 = .ok encoded ∧ Der.PrivateKeyInfo.decode encoded =
      .ok { algorithm := variant.identifier, privateKey := seed } := by
  cases h with
  | pkcs8 _ _ format info => exact ⟨key.encoded, exportPkcs8_of_pkcs8 format, info⟩
  | raw _ name format encoded =>
    subst encoded
    have hchooses : key.Chooses variant := by
      rcases name with hname | hname
      · exact .name hname
      · exact .length hname hseed
    exact hchooses.exists_export_of_length format hseed

/-- Whatever the form, what is rebuilt is the raw key under the standard name. -/
theorem Key.IsForm.rebuilt_eq {variant : EdVariant} {seed : Bytes} {key : Key}
    (h : key.IsForm variant seed) (hseed : seed.length = variant.keyLength) :
    key.rebuilt = .ok (some (.ofSeed variant seed)) := by
  obtain ⟨name, hname, hcovers⟩ := h.exists_covers
  obtain ⟨encoded, hexport, hdecode⟩ := h.exists_export hseed
  exact rebuilt_eq_ok_iff.mpr ⟨name, hname, EdDsaName.rebuild_eq_ok_iff.mpr
    ⟨encoded, variant, seed, hexport, hdecode, hcovers, hseed, rfl⟩⟩

/-- The raw key under the standard name is a form of itself. -/
theorem Key.isForm_ofSeed (variant : EdVariant) (seed : Bytes) :
    (Key.ofSeed variant seed).IsForm variant seed :=
  .raw rfl (.inl (EdDsaName.ofAlgorithm?_of_lower rfl)) rfl rfl

/-! ## Getting ready -/

variable {ω : Type} {suite : Suite} {config : Config ω} {variant : EdVariant} {seed : Bytes}
    {key : Key}

/-- The pair of a variant has the algorithm of that variant. -/
theorem AlgorithmPair.algorithm_ofVariant (variant : EdVariant) :
    (ofVariant variant).algorithm = .ok (.overMessage variant) := by
  cases variant <;> rfl

namespace EngineAlgorithm

variable (suite) in
/-- An engine takes a form as it is exactly if it is raw and its name is the standard one letter by
letter. -/
theorem takesPrivate_form_iff (hform : key.IsForm variant seed)
    (hseed : seed.length = variant.keyLength) :
    (overMessage variant).TakesPrivate suite key (.overMessage variant) ↔
      key.format = .raw ∧ key.algorithm.SameLetters variant.name := by
  rw [← EdVariant.lower_eq_lower_name_iff]
  constructor
  · rintro (_ | ⟨-, name, raw, -⟩)
    exact ⟨raw, name⟩
  · rintro ⟨raw, name⟩
    have hlength : key.encoded.length = variant.keyLength := by
      rw [hform.encoded_eq raw, hseed]
    exact .overMessage hform.role_eq name raw hlength

/-- A form that is taken as it is signs with the seed. -/
theorem accept_form_eq_ok {primitive : Primitive} {encoded : Bytes}
    (hform : key.IsForm variant seed)
    (h : (overMessage variant).accept suite key = .ok (primitive, encoded)) :
    primitive = .overMessage variant ∧ encoded = seed := by
  obtain ⟨htakes, rfl⟩ := accept_eq_ok_iff.mp h
  cases htakes with
  | overMessage _ _ raw => exact ⟨rfl, hform.encoded_eq raw⟩

/-- Without re-encoding, the engine decides on the key as it is. -/
theorem ready_disabled (algorithm : EngineAlgorithm) (rebuilt : Except Failure (Option Key))
    (key : Key) :
    algorithm.ready suite false rebuilt key = algorithm.accept suite key := by
  unfold ready
  cases algorithm.accept suite key <;> rfl

/-- With re-encoding, every form gets an engine ready to sign with the seed. -/
theorem ready_form (hform : key.IsForm variant seed) (hseed : seed.length = variant.keyLength) :
    (overMessage variant).ready suite true (.ok (some (.ofSeed variant seed))) key =
      .ok (.overMessage variant, seed) := by
  unfold ready
  cases haccept : (overMessage variant).accept suite key with
  | ok accepted =>
    obtain ⟨primitive, encoded⟩ := accepted
    obtain ⟨rfl, rfl⟩ := accept_form_eq_ok hform haccept
    rfl
  | error refusal =>
    have htakes :=
      (takesPrivate_form_iff suite (Key.isForm_ofSeed variant seed) hseed).mpr ⟨rfl, rfl⟩
    show (overMessage variant).accept suite (.ofSeed variant seed) = _
    exact accept_eq_ok_iff.mpr ⟨htakes, rfl⟩

end EngineAlgorithm

/-! ## Signing -/

namespace Signer

variable {workshop other : Workshop (SignatureEngine ω) ω} {transcript : Transcript}
  {peer : Option Peer} {signature : Bytes}

/-- A signer that gets ready with a seed gives what the primitive gives for the transcript and the
seed. -/
theorem sign_eq_ok_iff_of_ready (hreencoders : config.reencoders = .standard)
    (hworkshop : workshop.Reachable suite)
    (hready :
      (EngineAlgorithm.overMessage variant).ready suite config.keyReencoding key.rebuilt key =
      .ok (.overMessage variant, seed)) :
    ((standard suite config).sign key (.ofVariant variant) transcript peer workshop).1 =
      .ok signature ↔
      ∃ message, transcript.bytes = .ok message ∧
        (suite.overMessage variant).sign message seed = some signature ∧
        signature.length ≤ RangeError.maxSignatureLength := by
  rw [sign_eq_answer_rebuilt hreencoders hworkshop.inOrder, answer_eq_ok_iff]
  constructor
  · rintro ⟨algorithm, primitive, encoded, message, halgorithm, hgot, hmessage, hsigned, hlength⟩
    rw [AlgorithmPair.algorithm_ofVariant] at halgorithm
    cases halgorithm
    rw [hready] at hgot
    cases hgot
    exact ⟨message, hmessage, EngineAlgorithm.signature_overMessage_eq_ok_iff.mp hsigned, hlength⟩
  · rintro ⟨message, hmessage, hsigned, hlength⟩
    exact ⟨_, _, _, message, AlgorithmPair.algorithm_ofVariant variant, hready, hmessage,
      EngineAlgorithm.signature_overMessage_eq_ok_iff.mpr hsigned, hlength⟩

/-- The raw key under the standard name signs with its seed, whether re-encoding is on or not. -/
theorem sign_ofSeed_eq_ok_iff (hreencoders : config.reencoders = .standard)
    (hworkshop : workshop.Reachable suite) (hseed : seed.length = variant.keyLength) :
    ((standard suite config).sign (.ofSeed variant seed) (.ofVariant variant) transcript peer
        workshop).1 = .ok signature ↔
      ∃ message, transcript.bytes = .ok message ∧
        (suite.overMessage variant).sign message seed = some signature ∧
        signature.length ≤ RangeError.maxSignatureLength := by
  have hform := Key.isForm_ofSeed variant seed
  have htakes := (EngineAlgorithm.takesPrivate_form_iff suite hform hseed).mpr ⟨rfl, rfl⟩
  have haccept : (EngineAlgorithm.overMessage variant).accept suite (.ofSeed variant seed) =
      .ok (.overMessage variant, seed) := EngineAlgorithm.accept_eq_ok_iff.mpr ⟨htakes, rfl⟩
  refine sign_eq_ok_iff_of_ready hreencoders hworkshop ?_
  rw [EngineAlgorithm.ready, haccept]

/-- With re-encoding, so does every form of it. -/
theorem sign_form_eq_ok_iff (hreencoders : config.reencoders = .standard)
    (henabled : config.keyReencoding = true) (hworkshop : workshop.Reachable suite)
    (hseed : seed.length = variant.keyLength) (hform : key.IsForm variant seed) :
    ((standard suite config).sign key (.ofVariant variant) transcript peer workshop).1 =
      .ok signature ↔
      ∃ message, transcript.bytes = .ok message ∧
        (suite.overMessage variant).sign message seed = some signature ∧
        signature.length ≤ RangeError.maxSignatureLength := by
  refine sign_eq_ok_iff_of_ready hreencoders hworkshop ?_
  rw [henabled, hform.rebuilt_eq hseed]
  exact EngineAlgorithm.ready_form hform hseed

/-- Without it, a form signs if the engine takes it as it is, and not otherwise. -/
theorem sign_form_eq_ok_iff_of_disabled (hreencoders : config.reencoders = .standard)
    (hdisabled : config.keyReencoding = false) (hworkshop : workshop.Reachable suite)
    (hseed : seed.length = variant.keyLength) (hform : key.IsForm variant seed) :
    ((standard suite config).sign key (.ofVariant variant) transcript peer workshop).1 =
      .ok signature ↔
      (key.format = .raw ∧ key.algorithm.SameLetters variant.name) ∧
      ∃ message, transcript.bytes = .ok message ∧
        (suite.overMessage variant).sign message seed = some signature ∧
        signature.length ≤ RangeError.maxSignatureLength := by
  rw [← EngineAlgorithm.takesPrivate_form_iff suite hform hseed]
  -- without re-encoding the engine itself has to take the key
  by_cases htakes :
    (EngineAlgorithm.overMessage variant).TakesPrivate suite key (.overMessage variant)
  · have hraw := ((EngineAlgorithm.takesPrivate_form_iff suite hform hseed).mp htakes).1
    have hready :
        (EngineAlgorithm.overMessage variant).ready suite config.keyReencoding key.rebuilt key =
        .ok (.overMessage variant, seed) := by
      rw [hdisabled, EngineAlgorithm.ready_disabled]
      exact EngineAlgorithm.accept_eq_ok_iff.mpr ⟨htakes, hform.encoded_eq hraw⟩
    rw [sign_eq_ok_iff_of_ready hreencoders hworkshop hready, and_iff_right htakes]
  · -- a key that the engine does not take does not sign
    refine ⟨fun hsign => absurd ?_ htakes, fun h => absurd h.1 htakes⟩
    rw [sign_eq_answer_rebuilt hreencoders hworkshop.inOrder, hdisabled] at hsign
    obtain ⟨algorithm, primitive, encoded, message, halgorithm, hready, -⟩ :=
      answer_eq_ok_iff.mp hsign
    rw [AlgorithmPair.algorithm_ofVariant] at halgorithm
    cases halgorithm
    rw [EngineAlgorithm.ready_disabled] at hready
    obtain ⟨rfl, -⟩ := EngineAlgorithm.accept_form_eq_ok hform hready
    exact (EngineAlgorithm.accept_eq_ok_iff.mp hready).1

/-- **All forms of a key sign alike.** With re-encoding on, a form of a key gives a signature
exactly if the raw key under the standard name does, and the same one; and over entries that have
bytes there is one. With re-encoding off, a form signs exactly if it is raw and has the standard
name, but for the case of its letters. All this holds on engines with any past. -/
theorem sign_form_eq_native (hsuite : suite.SignsMessages)
    (hreencoders : config.reencoders = .standard)
    (hworkshop : workshop.Reachable suite) (hother : other.Reachable suite)
    (hseed : seed.length = variant.keyLength) (hform : key.IsForm variant seed)
    (transcript : Transcript) (peer : Option Peer) :
    let signed (key : Key) (workshop : Workshop (SignatureEngine ω) ω) :=
      ((standard suite config).sign key (.ofVariant variant) transcript peer workshop).1
    (config.keyReencoding = true →
      (∀ signature, signed key workshop = .ok signature ↔
        signed (.ofSeed variant seed) other = .ok signature) ∧
      (∀ message, transcript.bytes = .ok message →
        ∃ signature, signed key workshop = .ok signature ∧
          (suite.overMessage variant).sign message seed = some signature)) ∧
    (config.keyReencoding = false →
      ∀ message, transcript.bytes = .ok message →
        ((∃ signature, signed key workshop = .ok signature) ↔
          key.format = .raw ∧ key.algorithm.SameLetters variant.name)) := by
  intro signed
  -- the primitive signs every message, and the signature fits its field
  have hexists (message : Bytes) : ∃ signature,
      (suite.overMessage variant).sign message seed = some signature ∧
        signature.length ≤ RangeError.maxSignatureLength := by
    obtain ⟨signature, hsigned, hlength⟩ := hsuite variant message seed hseed
    refine ⟨signature, hsigned, ?_⟩
    rw [hlength]
    cases variant <;> decide
  refine ⟨fun henabled => ⟨fun signature => ?_, fun message hmessage => ?_⟩,
    fun hdisabled message hmessage => ?_⟩
  · exact (sign_form_eq_ok_iff hreencoders henabled hworkshop hseed hform).trans
      (sign_ofSeed_eq_ok_iff hreencoders hother hseed).symm
  · obtain ⟨signature, hsigned, hlength⟩ := hexists message
    exact ⟨signature, (sign_form_eq_ok_iff hreencoders henabled hworkshop hseed hform).mpr
      ⟨message, hmessage, hsigned, hlength⟩, hsigned⟩
  · constructor
    · rintro ⟨signature, hsign⟩
      exact ((sign_form_eq_ok_iff_of_disabled hreencoders hdisabled hworkshop hseed hform).mp
        hsign).1
    · intro hstandard
      obtain ⟨signature, hsigned, hlength⟩ := hexists message
      exact ⟨signature, (sign_form_eq_ok_iff_of_disabled hreencoders hdisabled hworkshop hseed
        hform).mpr ⟨hstandard, message, hmessage, hsigned, hlength⟩⟩

/-- Private key information with attributes behind the key, under a name with blanks around it,
signs like the raw key if it may be re-encoded, and does not sign if it may not. -/
theorem sign_info_eq_native :
    let seed := KnownAnswer.seed
    let config (keyReencoding : Bool) : Config Unit :=
      { logLevel := .silent, logger := { name := "test" }, keyReencoding,
        reencoders := .standard,
        random := { nextBytes := fun _ _ => .error (.primitive "no randomness") () } }
    let key : Key :=
      { role := .privateKey, algorithm := " OID.1.3.101.112 ", format := .pkcs8,
        encoded :=
          [0x30, 0x81, 0x30, 2, 1, 1, 0x30, 5, 6, 3, 0x2B, 0x65, 0x70, 4, 0x22, 4, 0x20] ++ seed ++
          [0xA0, 0] }
    let transcript : Transcript := [{ canonicalBytes := .ok [0x72] }]
    let signed (keyReencoding : Bool) (key : Key) :=
      ((standard Suite.standard (config keyReencoding)).sign key (.ofVariant .ed25519)
        transcript none (.new ())).1
    (∃ signature, signed true key = .ok signature ∧
        signed true (.ofSeed .ed25519 seed) = .ok signature) ∧
      ¬ ∃ signature, signed false key = .ok signature := by
  intro seed config key transcript signed
  -- the information is read, with its attributes, as the seed of the variant
  have hinfo : (Der.PrivateKeyInfo.decode key.encoded).toOption =
      some { algorithm := EdVariant.ed25519.identifier, privateKey := seed } := by decide +kernel
  have hname : EdDsaName.ofAlgorithm? key.algorithm = some (.only .ed25519) := by decide
  have hform : key.IsForm .ed25519 seed :=
    .pkcs8 rfl (.inl hname) rfl (except_toOption_eq_some_iff.mp hinfo)
  have hnew : (Workshop.new () : Workshop (SignatureEngine Unit) Unit).Reachable Suite.standard :=
    .new ()
  have hstandard (keyReencoding : Bool) : (config keyReencoding).reencoders = .standard := rfl
  have hon :=
    (sign_form_eq_native Suite.signsMessages_standard (hstandard true) hnew hnew (by decide)
      hform transcript none).1 rfl
  have hoff :=
    (sign_form_eq_native Suite.signsMessages_standard (hstandard false) hnew hnew (by decide)
      hform transcript none).2 rfl [0x72] rfl
  obtain ⟨signature, hsign, -⟩ := hon.2 [0x72] rfl
  refine ⟨⟨signature, hsign, (hon.1 signature).mp hsign⟩, fun hsigned => ?_⟩
  -- the key is not raw
  have hraw : KeyFormat.pkcs8 = .raw := (hoff.mp hsigned).1
  cases hraw

end Signer

end SignedHandshake
