import SignedHandshake.Proofs.Key.Names
import SignedHandshake.Scheme.Standard

/-!
# Exporting keys and importing them again (specification §10.6)

A raw private key is exported for one variant (`Key.Chooses`): the one that its name says or, under
the name of the family, the one whose keys have its length. The length is not looked at under the
name of a variant, so information can be exported that no factory takes. What is exported is read
back as the object identifier of that variant and the bytes of the key, if it is short enough for
its length to be written, and from there it is up to the length whether a factory builds the key
(**`export_reimport`**).

A re-encoder exports a key and imports it again. What it gives has a standard name and the length
that goes with it, and such a key is what re-encoding makes of itself (`Key.rebuilt_rebuilt`).
-/

namespace SignedHandshake

variable {ω : Type} {key : Key} {variant : EdVariant} {seed der : Bytes}

/-! ## The variant that a key is exported for -/

/-- The keys of the two variants differ in length. -/
theorem EdVariant.ofKeyLength?_eq_some_iff {length : Nat} :
    ofKeyLength? length = some variant ↔ length = variant.keyLength := by
  constructor
  · intro h
    have hsame := List.find?_some h
    exact (beq_iff_eq.mp hsame).symm
  · rintro rfl
    cases variant <;> rfl

/-- The variant that a raw key is exported for. -/
inductive Key.Chooses (key : Key) (variant : EdVariant) : Prop where
  | name (hname : EdDsaName.ofAlgorithm? key.algorithm = some (.only variant))
  | length (hname : EdDsaName.ofAlgorithm? key.algorithm = some .family)
    (hlength : key.encoded.length = variant.keyLength)

namespace Key

theorem chooses_iff :
    key.Chooses variant ↔
      (EdDsaName.ofAlgorithm? key.algorithm).bind (variantOf? · key.encoded.length) =
        some variant := by
  rw [Option.bind_eq_some_iff]
  constructor
  · rintro (hname | ⟨hname, hlength⟩)
    · exact ⟨_, hname, rfl⟩
    · exact ⟨_, hname, EdVariant.ofKeyLength?_eq_some_iff.mpr hlength⟩
  · rintro ⟨name | variant, hname, hvariant⟩
    · exact .length hname (EdVariant.ofKeyLength?_eq_some_iff.mp hvariant)
    · cases hvariant
      exact .name hname

/-! ## Exporting -/

/-- Private key information is given out as it is. -/
theorem exportPkcs8_of_pkcs8 (h : key.format = .pkcs8) : key.exportPkcs8 = .ok key.encoded := by
  rw [exportPkcs8, h]

end Key

/-- The object identifier of a variant in DER. -/
def EdVariant.octets : EdVariant → Bytes
  | .ed25519 => [0x2B, 0x65, 0x70]
  | .ed448 => [0x2B, 0x65, 0x71]

/-- These octets are what is written for the identifier. -/
theorem EdVariant.encode_identifier (variant : EdVariant) :
    Der.ObjectIdentifier.encode variant.identifier = .ok variant.octets := by
  refine except_toOption_eq_some_iff.mp ?_
  cases variant <;> decide +kernel

/-- The identifier is read from these octets. -/
theorem EdVariant.decode_octets (variant : EdVariant) :
    Der.ObjectIdentifier.decode variant.octets = .ok variant.identifier := by
  refine except_toOption_eq_some_iff.mp ?_
  cases variant <;> decide +kernel

theorem EdVariant.length_octets (variant : EdVariant) : variant.octets.length = 3 := by
  cases variant <;> rfl

namespace Key

/-- A raw key is exported as one element with some bytes in front of the key. If the length of what
is inside can be written, it is read back as the variant and the bytes of the key. -/
theorem Chooses.exists_export (h : key.Chooses variant) (hraw : key.format = .raw) :
    ∃ content, key.exportPkcs8 = .ok (Der.encode Der.sequenceTag content) ∧
      content.length ≤ key.encoded.length + 29 ∧
      (content.length < Der.lengthLimit →
        Der.PrivateKeyInfo.decode (Der.encode Der.sequenceTag content) =
          .ok { algorithm := variant.identifier, privateKey := key.encoded }) := by
  refine ⟨Der.PrivateKeyInfo.body variant.octets key.encoded, ?_, ?_, fun hfits => ?_⟩
  · simp only [exportPkcs8, hraw, chooses_iff.mp h]
    exact except_mapError_eq_ok_iff.mpr
      (Der.PrivateKeyInfo.encode_eq_ok_iff.mpr ⟨variant.octets, variant.encode_identifier, rfl⟩)
  · have hbody := Der.PrivateKeyInfo.length_body_le variant.octets key.encoded
    have hlength := variant.length_octets
    omega
  · rw [Der.PrivateKeyInfo.decode_encode_of_lt hfits, variant.decode_octets]
    rfl

/-- A raw key of the length that goes with the variant is short enough. -/
theorem Chooses.exists_export_of_length (h : key.Chooses variant) (hraw : key.format = .raw)
    (hlength : key.encoded.length = variant.keyLength) :
    ∃ encoded, key.exportPkcs8 = .ok encoded ∧ Der.PrivateKeyInfo.decode encoded =
      .ok { algorithm := variant.identifier, privateKey := key.encoded } := by
  obtain ⟨content, hexport, hcontent, hdecode⟩ := h.exists_export hraw
  have hshort : key.encoded.length ≤ 57 := by
    rw [hlength]
    cases variant <;> decide
  have hfits : content.length < Der.lengthLimit := by
    show _ < 0x1000000
    omega
  exact ⟨_, hexport, hdecode hfits⟩

/-- Besides private key information, only raw keys that choose a variant are exported. -/
theorem exportPkcs8_of_refused
    (h : ¬ (key.format = .pkcs8 ∨ key.format = .raw ∧ ∃ variant, key.Chooses variant)) :
    key.exportPkcs8 = .error (KeySpecError.notExportable key.algorithm key.format).toFailure := by
  cases hformat : key.format with
  | pkcs8 => exact absurd (.inl hformat) h
  | spki => rw [exportPkcs8, hformat]
  | raw =>
    have hvariant :
        (EdDsaName.ofAlgorithm? key.algorithm).bind (variantOf? · key.encoded.length) = none :=
      Option.eq_none_iff_forall_ne_some.mpr fun variant hvariant =>
        h (.inr ⟨hformat, variant, chooses_iff.mpr hvariant⟩)
    simp only [exportPkcs8, hformat, hvariant]

theorem exists_exportPkcs8_iff :
    (∃ encoded, key.exportPkcs8 = .ok encoded) ↔
      key.format = .pkcs8 ∨ key.format = .raw ∧ ∃ variant, key.Chooses variant := by
  constructor
  · rintro ⟨encoded, hexport⟩
    refine Classical.byContradiction fun hrefused => ?_
    rw [exportPkcs8_of_refused hrefused] at hexport
    cases hexport
  · rintro (hinfo | ⟨hraw, variant, h⟩)
    · exact ⟨_, exportPkcs8_of_pkcs8 hinfo⟩
    · obtain ⟨content, hexport, -⟩ := h.exists_export hraw
      exact ⟨_, hexport⟩

/-- There is no other way to fail, such as with an identifier that cannot be written. -/
theorem kind_of_exportPkcs8_eq_error {e : Failure} (h : key.exportPkcs8 = .error e) :
    e.kind = .invalidKeySpec := by
  have hrefused : ¬ ∃ encoded, key.exportPkcs8 = .ok encoded := by
    rw [h]
    exact nofun
  rw [exists_exportPkcs8_iff] at hrefused
  rw [exportPkcs8_of_refused hrefused] at h
  cases h
  rfl

end Key

/-! ## Importing -/

namespace EdDsaName

/-- The factory with this name builds this key from private key information. -/
def Builds (ω : Type) (suite : Suite) (name : EdDsaName) (der : Bytes) (key : Key) : Prop :=
  ∀ world : ω, (name.factory suite).generatePrivate (.pkcs8 der) world = .ok key world

/-- The factory with this name refuses private key information. -/
def Refuses (ω : Type) (suite : Suite) (name : EdDsaName) (der : Bytes) : Prop :=
  ∀ world : ω, ∃ e : Failure, e.kind = .invalidKeySpec ∧
    (name.factory suite).generatePrivate (.pkcs8 der) world = .error e world

variable {name : EdDsaName}

/-- Information about a variant that the factory is for, with a seed for it, is
what keys are built from. -/
theorem builds_of_decode (suite : Suite)
    (hdecode :
      Der.PrivateKeyInfo.decode der = .ok { algorithm := variant.identifier, privateKey := seed })
    (hcovers : name.covers variant = true) (hlength : seed.length = variant.keyLength) :
    name.Builds ω suite der (.ofSeed variant seed) := by
  intro world
  have hbuild := buildPrivate_pkcs8_eq_ok_iff.mpr ⟨variant, seed, hdecode, hcovers, hlength, rfl⟩
  show Attempt.ofExcept ((name.buildPrivate (.pkcs8 der)).mapError KeySpecError.toFailure) world = _
  rw [hbuild]
  rfl

/-- Other information is refused. -/
theorem refuses_of_decode (suite : Suite)
    (hdecode :
      Der.PrivateKeyInfo.decode der = .ok { algorithm := variant.identifier, privateKey := seed })
    (hother : ¬ (name.covers variant = true ∧ seed.length = variant.keyLength)) :
    name.Refuses ω suite der := by
  intro world
  cases hbuild : name.buildPrivate (.pkcs8 der) with
  | error e =>
    refine ⟨e.toFailure, rfl, ?_⟩
    show Attempt.ofExcept ((name.buildPrivate (.pkcs8 der)).mapError KeySpecError.toFailure) world =
        _
    rw [hbuild]
    rfl
  | ok key =>
    obtain ⟨built, bytes, hbuilt, hcovers, hlength, -⟩ := buildPrivate_pkcs8_eq_ok_iff.mp hbuild
    rw [hdecode, Except.ok.injEq, Der.PrivateKeyInfo.mk.injEq] at hbuilt
    obtain ⟨hidentifier, rfl⟩ := hbuilt
    -- the two variants have different identifiers
    have hsame := EdVariant.ofIdentifier?_eq_some_iff.mpr hidentifier
    rw [EdVariant.ofIdentifier?_eq_some_iff.mpr rfl] at hsame
    cases hsame
    exact absurd ⟨hcovers, hlength⟩ hother

end EdDsaName

/-! ## Re-encoding -/

namespace Key

/-- The raw key under the standard name is exported for its variant. -/
theorem chooses_ofSeed (variant : EdVariant) (seed : Bytes) :
    (ofSeed variant seed).Chooses variant :=
  .name (EdDsaName.ofAlgorithm?_of_lower rfl)

/-- Re-encoding makes of it what it is. -/
theorem rebuilt_ofSeed (hseed : seed.length = variant.keyLength) :
    (ofSeed variant seed).rebuilt = .ok (some (.ofSeed variant seed)) := by
  obtain ⟨encoded, hexport, hdecode⟩ :=
    (chooses_ofSeed variant seed).exists_export_of_length rfl hseed
  have hcovers : (EdDsaName.only variant).covers variant = true :=
    EdDsaName.covers_iff.mpr (.inl rfl)
  exact rebuilt_eq_ok_iff.mpr ⟨_, EdDsaName.ofAlgorithm?_of_lower rfl,
    EdDsaName.rebuild_eq_ok_iff.mpr ⟨encoded, variant, seed, hexport, hdecode, hcovers, hseed, rfl⟩⟩

/-- What re-encoding gives stays what it is when it is re-encoded once more. -/
theorem rebuilt_rebuilt {replaced : Key} (h : key.rebuilt = .ok (some replaced)) :
    replaced.rebuilt = .ok (some replaced) := by
  obtain ⟨name, -, hrebuild⟩ := rebuilt_eq_ok_iff.mp h
  obtain ⟨_, variant, seed, -, -, -, hseed, rfl⟩ := EdDsaName.rebuild_eq_ok_iff.mp hrebuild
  exact rebuilt_ofSeed hseed

/-- **What is exported can be imported.** Private key information is exported as it is. Of the other
keys, exactly those raw ones can be exported that choose a variant. What is exported for them is
read back as the identifier of the variant and the bytes of the key, if the length of the content
can be written. The factories of the variant and of the family then build the raw key under the
standard name, exactly if it has the length that goes with the variant, and the factory of the other
variant never does. And a key that was re-encoded is what re-encoding makes of it. -/
theorem export_reimport (suite : Suite) (key : Key) :
    (key.format = .pkcs8 → key.exportPkcs8 = .ok key.encoded) ∧
    ((∃ encoded, key.exportPkcs8 = .ok encoded) ↔
      key.format = .pkcs8 ∨ key.format = .raw ∧ ∃ variant, key.Chooses variant) ∧
    (∀ e, key.exportPkcs8 = .error e → e.kind = .invalidKeySpec) ∧
    (∀ variant, key.format = .raw → key.Chooses variant →
      ∃ content, key.exportPkcs8 = .ok (Der.encode Der.sequenceTag content) ∧
        let der := Der.encode Der.sequenceTag content
        (content.length ≤ 0xFFFFFF →
          Der.PrivateKeyInfo.decode der =
            .ok { algorithm := variant.identifier, privateKey := key.encoded } ∧
          (key.encoded.length = variant.keyLength → ∀ name ∈ [EdDsaName.only variant, .family],
            name.Builds ω suite der
              { role := .privateKey, algorithm := variant.name, format := .raw,
                encoded := key.encoded }) ∧
          (key.encoded.length ≠ variant.keyLength → ∀ name ∈ [EdDsaName.only variant, .family],
            name.Refuses ω suite der) ∧
          ∀ other ≠ variant, (EdDsaName.only other).Refuses ω suite der)) ∧
    ∀ (factories : NameMap (KeyFactory ω)) (world : ω) (rebuilt : Key)
      (after : NameMap (KeyFactory ω) × ω), factories.All (KeyFactory.MadeAs suite) →
      ReencoderRegistry.standard.reencode (Supplier.standard suite).makeFactory key
        (factories, world) =
        .ok (some rebuilt) after →
      (ReencoderRegistry.standard : ReencoderRegistry ω).Rebuilds suite rebuilt
          (.ok (some rebuilt)) := by
  refine ⟨exportPkcs8_of_pkcs8, exists_exportPkcs8_iff, fun _ => kind_of_exportPkcs8_eq_error,
    fun variant hraw hchooses => ?_, fun factories world rebuilt after hfactories hreencode => ?_⟩
  · obtain ⟨content, hexport, -, hdecode⟩ := hchooses.exists_export hraw
    refine ⟨content, hexport, fun hlength => ?_⟩
    -- the information is about this variant alone, so the other factory refuses it
    have hdecode := hdecode (Nat.lt_of_le_of_lt hlength (by decide))
    have hcovers {name : EdDsaName} (hname : name ∈ [EdDsaName.only variant, .family]) :
        name.covers variant = true := by
      rw [EdDsaName.covers_iff]
      simpa using hname
    refine ⟨hdecode, fun hseed name hname => ?_, fun hseed name hname => ?_, fun other hother => ?_⟩
    · exact EdDsaName.builds_of_decode suite hdecode (hcovers hname) hseed
    · exact EdDsaName.refuses_of_decode suite hdecode fun h => hseed h.2
    · refine EdDsaName.refuses_of_decode suite hdecode fun h => hother ?_
      rcases EdDsaName.covers_iff.mp h.1 with hsame | hfamily
      · cases hsame
        rfl
      · cases hfamily
  · obtain ⟨next, hrebuilds⟩ :=
      ReencoderRegistry.rebuilds_rebuilt suite key factories world hfactories
    have hsame :
        Attempt.ofExcept key.rebuilt (next, world) = Attempt.ofExcept (.ok (some rebuilt)) after :=
      hrebuilds.symm.trans hreencode
    -- rebuilding a rebuilt key gives the same key
    have hrebuilt := (Attempt.ofExcept_inj.mp hsame).1
    have hagain := ReencoderRegistry.rebuilds_rebuilt (ω := ω) suite rebuilt
    rw [rebuilt_rebuilt hrebuilt] at hagain
    exact hagain

/-- A raw key of 57 bytes under the name of the family comes back as a key for Ed448, from the
factories that are for it. -/
theorem export_reimport_of_family :
    let key : Key := { role := .privateKey, algorithm := "EdDSA", format := .raw,
                       encoded := List.replicate 57 7 }
    ∃ der, key.exportPkcs8 = .ok der ∧
      EdDsaName.family.Builds Unit Suite.standard der (.ofSeed .ed448 key.encoded) ∧
      (EdDsaName.only .ed448).Builds Unit Suite.standard der (.ofSeed .ed448 key.encoded) ∧
      (EdDsaName.only .ed25519).Refuses Unit Suite.standard der := by
  intro key
  have hname : EdDsaName.ofAlgorithm? key.algorithm = some .family := by decide
  obtain ⟨-, -, -, hraw, -⟩ := export_reimport (ω := Unit) Suite.standard key
  obtain ⟨content, hexport, himport⟩ := hraw .ed448 rfl (.length hname rfl)
  have hlength : key.exportPkcs8.toOption.map List.length = some 73 := by decide +kernel
  have hfits : content.length ≤ 0xFFFFFF := by
    rw [hexport, Except.toOption, Option.map_some, Option.some.injEq, Der.length_encode] at hlength
    omega
  obtain ⟨-, hbuilds, -, hrefuses⟩ := himport hfits
  exact ⟨_, hexport, hbuilds rfl _ (by decide), hbuilds rfl _ (by decide), hrefuses _ (by decide)⟩

end Key

end SignedHandshake
