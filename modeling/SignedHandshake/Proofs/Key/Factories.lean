import SignedHandshake.Proofs.Der.Grammar
import SignedHandshake.Proofs.Der.Padding
import SignedHandshake.Proofs.Engine.Runs
import SignedHandshake.Proofs.Key.Export

/-!
# What key factories take (specification §10.6)

A key factory checks a specification before it makes a key of it, and an engine checks the key once
more before it uses it. Which identifiers a factory takes is what padding leaves of the octets of a
variant (`identifiers_up_to_padding`). Of what it builds, an engine takes every private key
(`EdDsaName.generatePrivate_ready`) and every public key but the points of small order
(`EdDsaName.generatePublic_ready_iff`).
-/

namespace SignedHandshake

/-!
## The identifiers that key factories take

A key factory takes private key information for the variant that its object identifier names, and
the reader of identifiers accepts arcs with digits zero in front. So a factory takes the identifier
of a variant with any padding, and nothing else: the content is the three octets of the variant once
the padding is left out (`buildPrivate_eq_ok_iff_octets`).

The main result puts this together with what padding does to identifiers in general
(**`identifiers_up_to_padding`**): an accepted content differs from what is written for its
identifier in padding and in nothing else.
-/

/-! ### The content of the identifier -/

namespace Der.PrivateKeyInfo

/-- The bytes have the form of private key information with this content of the identifier's element
and these octets of the key, whether or not the content is an identifier. -/
inductive IsWrapping (identifier privateKey der : Bytes) : Prop where
  | intro (number : UInt8) (parameters attributes version name algorithm key wrapped : Bytes)
      (hnumber : number = 0 ∨ number = 1)
      (hversion : IsElement integerTag [number] version)
      (hname : IsElement identifierTag identifier name)
      (halgorithm : IsElement sequenceTag (name ++ parameters) algorithm)
      (hkey : IsElement octetStringTag privateKey key)
      (hwrapped : IsElement octetStringTag key wrapped)
      (hder : IsElement sequenceTag (version ++ algorithm ++ wrapped ++ attributes) der)

/-- Private key information is read from such bytes if the content is read as an identifier. -/
theorem decode_eq_ok_iff_isWrapping {der : Bytes} {info : PrivateKeyInfo} :
    decode der = .ok info ↔ ∃ identifier, IsWrapping identifier info.privateKey der ∧
      ObjectIdentifier.decode identifier = .ok info.algorithm := by
  constructor
  · intro h
    obtain ⟨number, identifier, parameters, attributes, version, name, algorithm, key, wrapped,
        hnumber, hversion, hidentifier, hname, halgorithm, hkey, hwrapped, hder⟩ :=
      isEncoding_of_decode h
    have hwrapping : IsWrapping identifier info.privateKey der :=
      .intro number parameters attributes version name algorithm key wrapped hnumber hversion
        hname halgorithm hkey hwrapped hder
    exact ⟨identifier, hwrapping, hidentifier⟩
  · rintro ⟨identifier, hwrapping, hidentifier⟩
    obtain ⟨number, parameters, attributes, version, name, algorithm, key, wrapped, hnumber,
      hversion, hname, halgorithm, hkey, hwrapped, hder⟩ := hwrapping
    exact decode_of_isEncoding
      (.intro number identifier parameters attributes version name algorithm key wrapped hnumber
        hversion hidentifier hname halgorithm hkey hwrapped hder)

end Der.PrivateKeyInfo

/-! ### The octets of a variant -/

open Der.ObjectIdentifier

/-- The identifier of a variant is read from its octets, with any padding, and from nothing else. -/
theorem EdVariant.decode_eq_identifier_iff {variant : EdVariant} {content : Bytes} :
    Der.ObjectIdentifier.decode content = .ok variant.identifier ↔
      shortest content = variant.octets := by
  constructor
  · intro hdecode
    have hread := hdecode
    rw [decode_eq] at hread
    obtain ⟨arcs, hnumbers, hwritten⟩ := except_map_eq_ok_iff.mp hread
    -- the identifier is too short for an arc that could have been rounded
    have hsmall : ∀ x ∈ arcs, x < .ofNat (2 ^ 53) := by
      refine lt_of_written ?_ ?_ <;> rw [hwritten] <;> cases variant <;> decide
    obtain ⟨identifier, hagain, hencode⟩ := exists_encode_of_readNumbers hnumbers hsmall
    rw [hdecode] at hagain
    cases hagain
    rw [variant.encode_identifier] at hencode
    exact (Except.ok.inj hencode).symm
  · intro hshortest
    rw [← decode_shortest, hshortest, variant.decode_octets]

/-- A factory takes the octets of a variant that it is for, with any padding, and nothing else. -/
theorem EdDsaName.buildPrivate_eq_ok_iff_octets {name : EdDsaName} {der : Bytes} {key : Key} :
    name.buildPrivate (.pkcs8 der) = .ok key ↔
      ∃ (variant : EdVariant) (seed identifier : Bytes),
        Der.PrivateKeyInfo.IsWrapping identifier seed der ∧ shortest identifier = variant.octets ∧
          name.covers variant = true ∧ seed.length = variant.keyLength ∧
            key = .ofSeed variant seed := by
  rw [buildPrivate_pkcs8_eq_ok_iff]
  constructor
  · rintro ⟨variant, seed, hdecode, hcovers, hlength, hkey⟩
    obtain ⟨identifier, hwrapping, hidentifier⟩ :=
      Der.PrivateKeyInfo.decode_eq_ok_iff_isWrapping.mp hdecode
    exact ⟨variant, seed, identifier, hwrapping, EdVariant.decode_eq_identifier_iff.mp hidentifier,
      hcovers, hlength, hkey⟩
  · rintro ⟨variant, seed, identifier, hwrapping, hshortest, hcovers, hlength, hkey⟩
    refine ⟨variant, seed, ?_, hcovers, hlength, hkey⟩
    exact Der.PrivateKeyInfo.decode_eq_ok_iff_isWrapping.mpr
      ⟨identifier, hwrapping, EdVariant.decode_eq_identifier_iff.mpr hshortest⟩

/-- **An accepted identifier differs from its written form in padding alone.** If its arcs are
below 2^53, what is written for it is the content without the digits zero in front of its arcs,
which is the content itself exactly if there are none. Two contents are read as the same identifier
exactly if they agree without these digits, and the factories take the content for a variant
exactly if its octets are left. -/
theorem identifiers_up_to_padding :
    (∀ (content : Bytes) (arcs : List Number), readNumbers content = .ok arcs →
      (∀ x ∈ arcs, x < .ofNat (2 ^ 53)) →
      Der.ObjectIdentifier.decode content = .ok (written arcs) ∧
        Der.ObjectIdentifier.encode (written arcs) = .ok (shortest content) ∧
        Der.ObjectIdentifier.decode (shortest content) = .ok (written arcs) ∧
        (Der.ObjectIdentifier.encode (written arcs) = .ok content ↔ IsMinimal content)) ∧
    (∀ (content other : Bytes) (arcs others : List Number), readNumbers content = .ok arcs →
      (∀ x ∈ arcs, x < .ofNat (2 ^ 53)) → readNumbers other = .ok others →
      (∀ x ∈ others, x < .ofNat (2 ^ 53)) →
      (Der.ObjectIdentifier.decode content = Der.ObjectIdentifier.decode other ↔
        shortest content = shortest other)) ∧
    (∀ (name : EdDsaName) (der : Bytes) (key : Key), name.buildPrivate (.pkcs8 der) = .ok key ↔
      ∃ (variant : EdVariant) (seed identifier : Bytes),
        Der.PrivateKeyInfo.IsWrapping identifier seed der ∧ shortest identifier = variant.octets ∧
          name.covers variant = true ∧ seed.length = variant.keyLength ∧
          key = .ofSeed variant seed) := by
  refine ⟨?_, ?_, fun name der key => EdDsaName.buildPrivate_eq_ok_iff_octets⟩
  · intro content arcs hread hsmall
    obtain ⟨identifier, hdecode, hencode⟩ := exists_encode_of_readNumbers hread hsmall
    obtain rfl : identifier = written arcs := by
      rw [decode_eq, hread] at hdecode
      exact (Except.ok.inj hdecode).symm
    refine ⟨hdecode, hencode, ?_, ?_⟩
    · rw [decode_shortest, hdecode]
    · rw [hencode, Except.ok.injEq, shortest_eq_self_iff hread]
  · intro content other arcs others hread hsmall hother hothers
    exact decode_eq_iff_shortest_eq hread hsmall hother hothers

/-- The identifier of Ed25519 with one digit zero in front of an arc and two in
front of another one. -/
theorem identifiers_up_to_padding_ed25519 :
    (∃ arcs, readNumbers [0x2B, 0x80, 0x65, 0x80, 0x80, 0x70] = .ok arcs ∧
      ∀ x ∈ arcs, x < .ofNat (2 ^ 53)) ∧
    Der.ObjectIdentifier.decode [0x2B, 0x80, 0x65, 0x80, 0x80, 0x70] =
      .ok EdVariant.ed25519.identifier ∧
    Der.ObjectIdentifier.encode EdVariant.ed25519.identifier = .ok [0x2B, 0x65, 0x70] ∧
    (Der.ObjectIdentifier.decode [0x2B, 0x80, 0x65, 0x70] =
      Der.ObjectIdentifier.decode [0x2B, 0x80, 0x65, 0x80, 0x80, 0x70]) := by
  have hread : readNumbers [0x2B, 0x80, 0x65, 0x80, 0x80, 0x70] =
      .ok [.ofNat 1, .ofNat 3, .ofNat 101, .ofNat 112] :=
    except_toOption_eq_some_iff.mp (by decide +kernel)
  have hother :
      readNumbers [0x2B, 0x80, 0x65, 0x70] = .ok [.ofNat 1, .ofNat 3, .ofNat 101, .ofNat 112] :=
    except_toOption_eq_some_iff.mp (by decide +kernel)
  have hsmall : ∀ x ∈ [Number.ofNat 1, .ofNat 3, .ofNat 101, .ofNat 112], x < .ofNat (2 ^ 53) := by
    decide
  have hwritten :
      written [.ofNat 1, .ofNat 3, .ofNat 101, .ofNat 112] = EdVariant.ed25519.identifier := by
    decide
  -- neither arc was rounded, so both contents stand for the same numbers
  obtain ⟨hwrite, hsame, -⟩ := identifiers_up_to_padding
  obtain ⟨hdecode, hencode, -, -⟩ := hwrite _ _ hread hsmall
  rw [hwritten] at hdecode hencode
  exact ⟨⟨_, hread, hsmall⟩, hdecode, hencode,
    (hsame _ _ _ _ hother hsmall hread hsmall).mpr (by decide)⟩

/-- So a second content is read as the identifier, and it is not what is written. -/
theorem decode_padded :
    Der.ObjectIdentifier.decode [0x2B, 0x80, 0x65, 0x70] = .ok EdVariant.ed25519.identifier ∧
      Der.ObjectIdentifier.decode [0x2B, 0x65, 0x70] = .ok EdVariant.ed25519.identifier ∧
      Der.ObjectIdentifier.encode EdVariant.ed25519.identifier ≠ .ok [0x2B, 0x80, 0x65, 0x70] := by
  refine ⟨except_toOption_eq_some_iff.mp (by decide +kernel), EdVariant.ed25519.decode_octets, ?_⟩
  rw [EdVariant.ed25519.encode_identifier]
  decide

end SignedHandshake

/-!
## Keys from key factories

A key factory checks a specification before it makes a key of it, and an engine checks the key once
more before it uses it. The two do not look at the same things. Here each is said as one condition:
what a factory builds (`buildPrivate_eq_ok_iff`, `buildPublic_eq_ok_iff`), and what an engine with a
name takes, whatever it was used for before (`SignatureEngine.initSign_eq_ok_iff`,
`initVerify_eq_ok_iff`).

For private keys a factory is as strict as an engine: every key that it builds is taken
(**`EdDsaName.generatePrivate_ready`**). For public keys it is less strict, and the difference is
exactly the points of small order (**`EdDsaName.generatePublic_ready_iff`**). In the other direction
nothing is lost: what an engine takes, the factory of the family builds.
-/

namespace SignedHandshake

variable {ω : Type} {suite : Suite} {name : EdDsaName} {spec : KeySpec} {key : Key}
    {variant : EdVariant}

/-! ### What factories build -/

/-- The raw public key of a variant with a point, under the standard name. -/
def Key.ofPoint (variant : EdVariant) (point : Bytes) : Key where
  role := .publicKey
  algorithm := variant.name
  format := .raw
  encoded := point

namespace EdDsaName

/-- Private keys are built from the encodings of private key information about a variant that the
factory is for, with a seed for it, and from nothing else. -/
theorem buildPrivate_eq_ok_iff :
    name.buildPrivate spec = .ok key ↔
      ∃ (variant : EdVariant) (seed der : Bytes), spec = .pkcs8 der ∧
        Der.PrivateKeyInfo.IsEncoding { algorithm := variant.identifier, privateKey := seed } der ∧
        (name = .only variant ∨ name = .family) ∧ seed.length = variant.keyLength ∧
        key = .ofSeed variant seed := by
  cases spec with
  | rawPublic encoded => exact ⟨nofun, nofun⟩
  | pkcs8 encoded =>
    rw [buildPrivate_pkcs8_eq_ok_iff]
    constructor
    · rintro ⟨variant, seed, hdecode, hcovers, hlength, hkey⟩
      exact ⟨variant, seed, encoded, rfl, Der.PrivateKeyInfo.isEncoding_of_decode hdecode,
        covers_iff.mp hcovers, hlength, hkey⟩
    · rintro ⟨variant, seed, der, hsame, hencoding, hcovers, hlength, hkey⟩
      cases hsame
      exact ⟨variant, seed, Der.PrivateKeyInfo.decode_of_isEncoding hencoding,
        covers_iff.mpr hcovers, hlength, hkey⟩

/-- Public keys are built from points that have the length of a variant that the factory is
for, and from nothing else. -/
theorem buildPublic_eq_ok_iff :
    name.buildPublic suite spec = .ok key ↔
      ∃ (variant : EdVariant) (point : Bytes), spec = .rawPublic point ∧
        (name = .only variant ∨ name = .family) ∧ point.length = variant.keyLength ∧
        (suite.overMessage variant).isPoint point = true ∧ key = .ofPoint variant point := by
  cases spec with
  | pkcs8 encoded => exact ⟨nofun, nofun⟩
  | rawPublic encoded =>
    constructor
    · intro h
      unfold buildPublic at h
      -- the length alone chooses the variant
      cases hvariant : EdVariant.ofKeyLength? encoded.length with
      | none =>
        simp only [hvariant] at h
        cases h
      | some variant =>
        simp only [hvariant] at h
        obtain ⟨_, hcovers, h⟩ := except_bind_eq_ok_iff.mp h
        obtain ⟨hcovers, -⟩ := except_ite_error_eq_ok_iff.mp hcovers
        obtain ⟨hpoint, h⟩ := except_ite_error_eq_ok_iff.mp h
        cases h
        exact ⟨variant, encoded, rfl, covers_iff.mp hcovers,
          EdVariant.ofKeyLength?_eq_some_iff.mp hvariant, hpoint, rfl⟩
    · rintro ⟨variant, point, hsame, hcovers, hlength, hpoint, rfl⟩
      cases hsame
      unfold buildPublic
      simp only [EdVariant.ofKeyLength?_eq_some_iff.mpr hlength]
      refine except_bind_eq_ok_iff.mpr
        ⟨(), except_ite_error_eq_ok_iff.mpr ⟨covers_iff.mpr hcovers, rfl⟩, ?_⟩
      exact except_ite_error_eq_ok_iff.mpr ⟨hpoint, rfl⟩

/-- What is no encoding of private key information is refused as malformed, with
what the reader said. -/
theorem buildPrivate_of_not_isEncoding (name : EdDsaName) {der : Bytes}
    (h : ∀ info : Der.PrivateKeyInfo, ¬ info.IsEncoding der) :
    ∃ error, Der.PrivateKeyInfo.decode der = .error error ∧
      name.buildPrivate (.pkcs8 der) = .error (.malformed error) := by
  cases hdecode : Der.PrivateKeyInfo.decode der with
  | ok info => exact absurd (Der.PrivateKeyInfo.isEncoding_of_decode hdecode) (h info)
  | error error =>
    refine ⟨error, rfl, ?_⟩
    rw [buildPrivate, hdecode]
    rfl

section

variable {world after : ω} {e : Failure}

theorem generatePrivate_eq_ok_iff :
    (name.factory suite).generatePrivate spec world = .ok key after ↔
      name.buildPrivate spec = .ok key ∧ world = after :=
  Attempt.ofExcept_mapError_eq_ok_iff

theorem generatePrivate_eq_error_iff :
    (name.factory suite).generatePrivate spec world = .error e after ↔
      (∃ cause, name.buildPrivate spec = .error cause ∧ cause.toFailure = e) ∧ world = after :=
  Attempt.ofExcept_mapError_eq_error_iff

theorem generatePublic_eq_ok_iff :
    (name.factory suite).generatePublic spec world = .ok key after ↔
      name.buildPublic suite spec = .ok key ∧ world = after :=
  Attempt.ofExcept_mapError_eq_ok_iff

theorem generatePublic_eq_error_iff :
    (name.factory suite).generatePublic spec world = .error e after ↔
      (∃ cause, name.buildPublic suite spec = .error cause ∧ cause.toFailure = e) ∧ world = after :=
  Attempt.ofExcept_mapError_eq_error_iff

end

end EdDsaName

/-! ### What engines take -/

namespace SignatureEngine

variable {engine : SignatureEngine ω}

/-- An engine with the name of a variant gets ready to sign with the raw private
keys of the variant. -/
theorem initSign_eq_ok_iff (h : engine.algorithm = variant.name) (random : RandomSource ω)
    (world : ω) :
    (∃ after, (behaviour suite).initSign key random (engine, world) = .ok () after) ↔
      key.role = .privateKey ∧ key.algorithm.lower = variant.name.lower ∧ key.format = .raw ∧
        key.encoded.length = variant.keyLength := by
  have hname : engine.algorithm = (EngineAlgorithm.overMessage variant).name := h
  rw [Attempt.exists_eq_ok_iff, outcome_initSign suite hname, except_map_eq_ok_iff]
  constructor
  · rintro ⟨⟨primitive, encoded⟩, hready, -⟩
    obtain ⟨htakes, -⟩ := EngineAlgorithm.accept_eq_ok_iff.mp hready
    cases htakes with
    | overMessage role name raw length => exact ⟨role, name, raw, length⟩
  · rintro ⟨hrole, hlower, hraw, hlength⟩
    have htakes :
        (EngineAlgorithm.overMessage variant).TakesPrivate suite key (.overMessage variant) :=
      .overMessage hrole hlower hraw hlength
    exact ⟨_, EngineAlgorithm.accept_eq_ok_iff.mpr ⟨htakes, rfl⟩, rfl⟩

/-- An engine with the name of a variant gets ready to verify with the raw public keys of the
variant whose point does not have small order. -/
theorem initVerify_eq_ok_iff (h : engine.algorithm = variant.name) (world : ω) :
    (∃ after, (behaviour suite).initVerify key (engine, world) = .ok () after) ↔
      (key.role = .publicKey ∧ key.algorithm.lower = variant.name.lower ∧ key.format = .raw ∧
        key.encoded.length = variant.keyLength) ∧
      (suite.overMessage variant).isPoint key.encoded = true ∧
        (suite.overMessage variant).isSmallOrder key.encoded = false := by
  have hname : engine.algorithm = (EngineAlgorithm.overMessage variant).name := h
  rw [Attempt.exists_eq_ok_iff, outcome_initVerify suite hname, except_map_eq_ok_iff]
  constructor
  · rintro ⟨primitive, hready, -⟩
    have htakes := EngineAlgorithm.acceptPublic_eq_ok_iff.mp (except_mapError_eq_ok_iff.mp hready)
    cases htakes with
    | overMessage role name raw length point order =>
      exact ⟨⟨role, name, raw, length⟩, point, order⟩
  · rintro ⟨⟨hrole, hlower, hraw, hlength⟩, hpoint, horder⟩
    have htakes :
        (EngineAlgorithm.overMessage variant).TakesPublic suite key (.overMessage variant) :=
      .overMessage hrole hlower hraw hlength hpoint horder
    have hready := EngineAlgorithm.acceptPublic_eq_ok_iff.mpr htakes
    exact ⟨_, except_mapError_eq_ok_iff.mpr hready, rfl⟩

end SignatureEngine

namespace Key

/-- There are engines named after the algorithm of the key, and each of them gets ready to sign with
it, whatever it was used for before. -/
structure ReadyToSign (ω : Type) (suite : Suite) (key : Key) : Prop where
  exists_engine : ∃ engine : SignatureEngine ω, SignatureEngine.create key.algorithm = .ok engine
  accepted (engine : SignatureEngine ω) (random : RandomSource ω) (world : ω)
    (hengine : engine.algorithm = key.algorithm) :
    ∃ after, (SignatureEngine.behaviour suite).initSign key random (engine, world) = .ok () after

/-- There are engines named after the algorithm of the key, and each of them gets ready to verify
with it, whatever it was used for before. -/
structure ReadyToVerify (ω : Type) (suite : Suite) (key : Key) : Prop where
  exists_engine : ∃ engine : SignatureEngine ω, SignatureEngine.create key.algorithm = .ok engine
  accepted (engine : SignatureEngine ω) (world : ω) (hengine : engine.algorithm = key.algorithm) :
    ∃ after, (SignatureEngine.behaviour suite).initVerify key (engine, world) = .ok () after

/-- There is an engine for every variant. -/
theorem exists_engine_name (variant : EdVariant) :
    ∃ engine : SignatureEngine ω, SignatureEngine.create variant.name = .ok engine := by
  cases variant <;> exact ⟨_, rfl⟩

theorem readyToSign_ofSeed {seed : Bytes} (hlength : seed.length = variant.keyLength) :
    (ofSeed variant seed).ReadyToSign ω suite where
  exists_engine := exists_engine_name variant
  accepted _ random world hengine :=
    (SignatureEngine.initSign_eq_ok_iff hengine random world).mpr ⟨rfl, rfl, rfl, hlength⟩

/-- A key with a point is fit for verifying exactly if the point does not have small order. -/
theorem readyToVerify_ofPoint_iff {point : Bytes} (world : ω)
    (hlength : point.length = variant.keyLength)
    (hpoint : (suite.overMessage variant).isPoint point = true) :
    (ofPoint variant point).ReadyToVerify ω suite ↔
      (suite.overMessage variant).isSmallOrder point = false := by
  constructor
  · rintro ⟨-, haccepted⟩
    have hready := haccepted (.eddsa (.new variant)) world rfl
    obtain ⟨-, -, horder⟩ := (SignatureEngine.initVerify_eq_ok_iff rfl world).mp hready
    exact horder
  · intro horder
    exact ⟨exists_engine_name variant, fun _ world hengine =>
      (SignatureEngine.initVerify_eq_ok_iff hengine world).mpr
        ⟨⟨rfl, rfl, rfl, hlength⟩, hpoint, horder⟩⟩

end Key

/-! ### Both checks together -/

namespace EdDsaName

/-- The factory of a variant is for this variant alone. -/
theorem only_covers_iff {variant other : EdVariant} :
    (EdDsaName.only other).covers variant = true ↔ other = variant := by
  simp [covers_iff]

/-- **Private keys from a factory are fit for signing.** A factory with a standard name builds a
key from the encodings of private key information about a variant that it is for, with a seed of
the length that goes with the variant, and the key is the raw seed under the name of the variant.
It refuses every other specification as invalid, and malformed information with what the reader
said. The engines named after the key get ready to sign with it, whatever they were used for
before. What the factory of the family builds, the factory of the variant builds as well, and the
factory of the other variant refuses. -/
theorem generatePrivate_ready (suite : Suite) (name : EdDsaName) (spec : KeySpec) (world : ω) :
    let generate := fun name : EdDsaName => (name.factory suite).generatePrivate spec world
    KeyFactory.create suite name.name = .ok (name.factory (ω := ω) suite) ∧
    (∀ key after, generate name = .ok key after ↔
      (∃ (variant : EdVariant) (seed der : Bytes), spec = .pkcs8 der ∧
        Der.PrivateKeyInfo.IsEncoding { algorithm := variant.identifier, privateKey := seed } der ∧
        (name = .only variant ∨ name = .family) ∧ seed.length = variant.keyLength ∧
        key = { role := .privateKey, algorithm := variant.name, format := .raw, encoded := seed }) ∧
      world = after) ∧
    (∀ e after, generate name = .error e after → e.kind = .invalidKeySpec ∧ world = after) ∧
    (∀ der, spec = .pkcs8 der → (∀ info : Der.PrivateKeyInfo, ¬ info.IsEncoding der) →
      ∃ error, Der.PrivateKeyInfo.decode der = .error error ∧
        generate name = .error (KeySpecError.malformed error).toFailure world) ∧
    (∀ key after, generate name = .ok key after → key.ReadyToSign ω suite) ∧
    ∀ key after, generate .family = .ok key after →
      ∃ variant : EdVariant, key.algorithm = variant.name ∧
        generate (.only variant) = .ok key after ∧
        ∀ other ≠ variant, ∃ e, generate (.only other) = .error e after ∧
            e.kind = .invalidKeySpec := by
  intro generate
  refine ⟨KeyFactory.create_name suite name, fun key after => ?_, fun e after hresult => ?_,
    fun der hspec hnone => ?_, fun key after hresult => ?_, fun key after hresult => ?_⟩
  · exact generatePrivate_eq_ok_iff.trans (and_congr_left' buildPrivate_eq_ok_iff)
  · obtain ⟨⟨cause, -, rfl⟩, hafter⟩ := generatePrivate_eq_error_iff.mp hresult
    exact ⟨rfl, hafter⟩
  · subst hspec
    -- no information was read, and that is the cause
    obtain ⟨error, hdecode, hbuild⟩ := buildPrivate_of_not_isEncoding name hnone
    exact ⟨error, hdecode, generatePrivate_eq_error_iff.mpr ⟨⟨_, hbuild, rfl⟩, rfl⟩⟩
  · obtain ⟨hbuild, -⟩ := generatePrivate_eq_ok_iff.mp hresult
    obtain ⟨variant, seed, der, -, -, -, hlength, rfl⟩ := buildPrivate_eq_ok_iff.mp hbuild
    exact Key.readyToSign_ofSeed hlength
  · obtain ⟨hbuild, rfl⟩ := generatePrivate_eq_ok_iff.mp hresult
    obtain ⟨variant, seed, der, rfl, hencoding, -, hlength, rfl⟩ := buildPrivate_eq_ok_iff.mp hbuild
    -- the factory of the variant reads the same information
    have hdecode := Der.PrivateKeyInfo.decode_of_isEncoding hencoding
    have hown := builds_of_decode (ω := ω) suite hdecode (only_covers_iff.mpr rfl) hlength
    refine ⟨variant, rfl, hown world, fun other hother => ?_⟩
    obtain ⟨e, hkind, hrefused⟩ :=
      refuses_of_decode suite hdecode (fun h => hother (only_covers_iff.mp h.1)) world
    exact ⟨e, hrefused, hkind⟩

/-- **Public keys from a factory are fit for verifying unless they have small order.** A factory
with a standard name builds a key from the points that have the length of a variant that it is
for, and refuses every other specification as invalid. The engines named after the key get ready
to verify with it exactly if the point does not have small order. And every key that an engine
of a variant takes is, under the standard name, what the factories of the variant and of the
family build from its bytes. -/
theorem generatePublic_ready_iff (suite : Suite) (world : ω) :
    (∀ (name : EdDsaName) (spec : KeySpec) (key : Key) (after : ω),
      (name.factory suite).generatePublic spec world = .ok key after ↔
        (∃ (variant : EdVariant) (point : Bytes), spec = .rawPublic point ∧
          (name = .only variant ∨ name = .family) ∧ point.length = variant.keyLength ∧
          (suite.overMessage variant).isPoint point = true ∧
          key =
            { role := .publicKey, algorithm := variant.name, format := .raw, encoded := point }) ∧
        world = after) ∧
    (∀ (name : EdDsaName) (spec : KeySpec) (e : Failure) (after : ω),
      (name.factory suite).generatePublic spec world = .error e after →
        e.kind = .invalidKeySpec ∧ world = after) ∧
    (∀ (name : EdDsaName) (spec : KeySpec) (key : Key) (after : ω),
      (name.factory suite).generatePublic spec world = .ok key after →
        ∃ variant : EdVariant, key.algorithm = variant.name ∧
          (key.ReadyToVerify ω suite ↔
            (suite.overMessage variant).isSmallOrder key.encoded = false)) ∧
    ∀ (variant : EdVariant) (engine : SignatureEngine ω) (before : ω) (key : Key),
      engine.algorithm = variant.name →
      (∃ after, (SignatureEngine.behaviour suite).initVerify key (engine, before) = .ok () after) →
        key.algorithm.SameLetters variant.name ∧
        ∀ name : EdDsaName, name = .only variant ∨ name = .family →
          (name.factory suite).generatePublic (.rawPublic key.encoded) world =
            .ok { key with algorithm := variant.name, curve := none } world := by
  refine ⟨fun name spec key after => ?_, fun name spec e after hresult => ?_,
    fun name spec key after hresult => ?_, fun variant engine before key hengine haccepted => ?_⟩
  · exact generatePublic_eq_ok_iff.trans (and_congr_left' buildPublic_eq_ok_iff)
  · obtain ⟨⟨cause, -, rfl⟩, hafter⟩ := generatePublic_eq_error_iff.mp hresult
    exact ⟨rfl, hafter⟩
  · obtain ⟨hbuild, -⟩ := generatePublic_eq_ok_iff.mp hresult
    obtain ⟨variant, point, -, -, hlength, hpoint, rfl⟩ := buildPublic_eq_ok_iff.mp hbuild
    exact ⟨variant, rfl, Key.readyToVerify_ofPoint_iff world hlength hpoint⟩
  · obtain ⟨⟨hrole, hname, hraw, hlength⟩, hpoint, -⟩ :=
      (SignatureEngine.initVerify_eq_ok_iff hengine before).mp haccepted
    refine ⟨EdVariant.lower_eq_lower_name_iff.mp hname, fun name hcovers => ?_⟩
    refine generatePublic_eq_ok_iff.mpr ⟨buildPublic_eq_ok_iff.mpr
      ⟨variant, key.encoded, rfl, hcovers, hlength, hpoint, ?_⟩, rfl⟩
    simp only [Key.ofPoint, hrole, hraw]

/-- The identity point is a point, so a key is built of it, and no engine takes the key. -/
theorem generatePublic_identity :
    let point : Bytes := 1 :: List.replicate 31 0
    let key : Key :=
      { role := .publicKey, algorithm := "Ed25519", format := .raw, encoded := point }
    (EdDsaName.family.factory Suite.standard).generatePublic (.rawPublic point) () = .ok key () ∧
      ¬ key.ReadyToVerify Unit Suite.standard := by
  intro point key
  have hpoint : (Suite.standard.overMessage .ed25519).isPoint point = true := by decide +kernel
  have horder : (Suite.standard.overMessage .ed25519).isSmallOrder point = true := by decide +kernel
  refine ⟨generatePublic_eq_ok_iff.mpr
    ⟨buildPublic_eq_ok_iff.mpr ⟨.ed25519, point, rfl, .inr rfl, rfl, hpoint, rfl⟩, rfl⟩, ?_⟩
  intro hready
  have hnone := (Key.readyToVerify_ofPoint_iff () rfl hpoint).mp hready
  rw [horder] at hnone
  cases hnone

end EdDsaName

end SignedHandshake
