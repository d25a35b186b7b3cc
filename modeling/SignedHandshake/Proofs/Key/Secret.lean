import SignedHandshake.Proofs.Attempt.Rules
import SignedHandshake.Proofs.Der.RoundTrip
import SignedHandshake.Proofs.Engine.Runs

/-!
# Re-encoding keeps the secret

Re-encoding is a function of the key (`ReencoderRegistry.exists_rebuilds`), and the key it makes is
about the same bytes (`ReencoderRegistry.exists_rebuilds_standard`).
-/

namespace SignedHandshake

/-!
## Re-encoders that are functions of the key

A re-encoder may be any step on the world. One that neither looks at the world nor changes it makes
of a key what it always makes of it (`ReencoderRegistry.exists_rebuilds`), whichever factories are
there already. All re-encoders of this library are of that sort.
-/

variable {α ω : Type}

/-- A step that neither looks at the state nor changes it. -/
def Attempt.IsPure {σ : Type} (step : Attempt σ α) : Prop :=
  ∃ result, step = Attempt.ofExcept result

/-- A factory whose keys depend on the specification alone. -/
structure KeyFactory.IsPure (factory : KeyFactory ω) : Prop where
  generatePrivate : ∀ spec, (factory.generatePrivate spec).IsPure
  generatePublic : ∀ spec, (factory.generatePublic spec).IsPure

/-- A re-encoder whose keys depend on the refused key and the factory alone, if the factory lets
it. -/
def Reencoder.IsPure (reencoder : Reencoder ω) : Prop :=
  ∀ key factory, factory.IsPure → (reencoder.reencode key factory).IsPure

/-- All re-encoders depend on the refused key and the factory alone. -/
def ReencoderRegistry.IsPure (registry : ReencoderRegistry ω) : Prop :=
  ∀ name reencoder, registry.find? name = some reencoder → reencoder.IsPure

/-- The factories of this library keep no state. -/
theorem KeyFactory.isPure_of_create {suite : Suite} {name : Text} {factory : KeyFactory ω}
    (h : create suite name = .ok factory) : factory.IsPure := by
  unfold create at h
  cases hname : EdDsaName.ofName? name with
  | none =>
    simp only [hname] at h
    cases h
  | some name =>
    simp only [hname] at h
    cases h
    exact ⟨fun spec => ⟨_, rfl⟩, fun spec => ⟨_, rfl⟩⟩

/-- Rebuilding from private key information is up to the factory once there is such information. -/
theorem Reencoder.viaPkcs8_reencode (name : Text) (key : Key) (factory : KeyFactory ω) :
    (viaPkcs8 name).reencode key factory =
      match key.exportPkcs8 with
      | .ok encoded => factory.generatePrivate (.pkcs8 encoded)
      | .error e => Attempt.ofExcept (.error e) := by
  funext world
  simp only [viaPkcs8]
  cases key.exportPkcs8 <;> rfl

theorem Reencoder.isPure_viaPkcs8 (name : Text) : (viaPkcs8 name : Reencoder ω).IsPure := by
  intro key factory hfactory
  rw [viaPkcs8_reencode]
  cases key.exportPkcs8 with
  | ok encoded => exact hfactory.generatePrivate (.pkcs8 encoded)
  | error e => exact ⟨.error e, rfl⟩

/-! ### The registered re-encoders -/

/-- All registered re-encoders have a property. -/
def ReencoderRegistry.All (good : Reencoder ω → Prop) (registry : ReencoderRegistry ω) : Prop :=
  registry.entries.All fun _ => good

theorem ReencoderRegistry.All.register {good : Reencoder ω → Prop} {registry : ReencoderRegistry ω}
    (h : registry.All good) (name : Text) {reencoder : Reencoder ω} (hgood : good reencoder) :
    (registry.register name reencoder).All good :=
  NameMap.All.insert h hgood

/-- The re-encoders of this library go through the key factories of this library. -/
theorem ReencoderRegistry.standard_all :
    (standard : ReencoderRegistry ω).All fun reencoder =>
      ∃ name : EdDsaName, reencoder = .viaPkcs8 name.name := by
  -- registering keeps the property, whatever the known names are
  refine List.foldlRecOn knownNames _ .empty fun registry h name _ => ?_
  cases hname : EdDsaName.ofAlgorithm? name with
  | some standard => exact h.register name ⟨standard, rfl⟩
  | none => exact h

theorem ReencoderRegistry.isPure_standard : (standard : ReencoderRegistry ω).IsPure := by
  intro name reencoder hfound
  obtain ⟨standardName, rfl⟩ := standard_all _ reencoder hfound
  exact Reencoder.isPure_viaPkcs8 _

/-- Re-encoding a key gives `rebuilt`, in any world and with any factories that may be there. -/
def ReencoderRegistry.Rebuilds (registry : ReencoderRegistry ω) (suite : Suite) (key : Key)
    (rebuilt : Except Failure (Option Key)) : Prop :=
  ∀ (factories : NameMap (KeyFactory ω)) (world : ω), factories.All (KeyFactory.MadeAs suite) →
    ∃ next, registry.reencode (Supplier.standard suite).makeFactory key (factories, world) =
      Attempt.ofExcept rebuilt (next, world)

/-- A value that depends on its name alone is the same whether it was there before or is made. -/
theorem NameMap.obtain_of_all {σ : Type} {make : Text → Except Failure α} {map : NameMap α}
    (h : map.All fun name value => make name = .ok value) (name : Text) (state : σ) :
    ∃ next, obtain (fun name => Attempt.ofExcept (make name)) name (map, state) =
      Attempt.ofExcept (make name) (next, state) := by
  unfold obtain
  cases hfound : map.find? name with
  | some value =>
    simp only [hfound, h name value hfound]
    exact ⟨map, rfl⟩
  | none =>
    cases hmade : make name with
    | ok value =>
      simp only [hfound, hmade]
      exact ⟨map.insert name value, rfl⟩
    | error e =>
      simp only [hfound, hmade]
      exact ⟨map, rfl⟩

/-- What a re-encoder makes of a key, if it has a factory to do it with. -/
theorem ReencoderRegistry.rebuilds_of_reencode {registry : ReencoderRegistry ω} {suite : Suite}
    {key : Key} {reencoder : Reencoder ω} (hfound : registry.find? key.algorithm = some reencoder)
    (result : Except Failure Key)
    (hresult : ∀ factory, KeyFactory.create suite reencoder.standardName = .ok factory →
      reencoder.reencode key factory = Attempt.ofExcept result) :
    registry.Rebuilds suite key
      ((KeyFactory.create (ω := ω) suite reencoder.standardName).bind fun _ =>
        result.map some) := by
  intro factories world hfactories
  obtain ⟨next, hobtain⟩ := NameMap.obtain_of_all hfactories reencoder.standardName world
  refine ⟨next, ?_⟩
  have hmake : NameMap.obtain (Supplier.standard suite).makeFactory reencoder.standardName
      (factories, world) = _ := hobtain
  simp only [reencode, hfound, hmake]
  cases hcreate : KeyFactory.create (ω := ω) suite reencoder.standardName with
  | error e => rfl
  | ok factory =>
    have hstep := congrFun (hresult factory hcreate) world
    simp only [Attempt.ofExcept, hstep]
    cases result <;> rfl

/-- A key without a re-encoder stays what it is. -/
theorem ReencoderRegistry.rebuilds_of_none {registry : ReencoderRegistry ω} {suite : Suite}
    {key : Key}
    (hfound : registry.find? key.algorithm = none) : registry.Rebuilds suite key (.ok none) := by
  intro factories world _
  refine ⟨factories, ?_⟩
  simp only [reencode, hfound]
  rfl

/-- Pure re-encoders make of a key what they always make of it. -/
theorem ReencoderRegistry.exists_rebuilds {registry : ReencoderRegistry ω} (h : registry.IsPure)
    (suite : Suite) (key : Key) : ∃ rebuilt, registry.Rebuilds suite key rebuilt := by
  cases hfound : registry.find? key.algorithm with
  | none => exact ⟨.ok none, rebuilds_of_none hfound⟩
  | some reencoder =>
    -- without a factory it fails, and otherwise it does what it does with a pure one
    cases hcreate : KeyFactory.create (ω := ω) suite reencoder.standardName with
    | error e =>
      refine ⟨_, rebuilds_of_reencode hfound (.error e) fun factory hfactory => ?_⟩
      rw [hcreate] at hfactory
      cases hfactory
    | ok factory =>
      obtain ⟨result, hresult⟩ :=
        h key.algorithm reencoder hfound key factory (KeyFactory.isPure_of_create hcreate)
      refine ⟨_, rebuilds_of_reencode hfound result fun other hother => ?_⟩
      rw [hcreate] at hother
      cases hother
      exact hresult

end SignedHandshake

/-!
## The secret of a key

A private key for Edwards curve signatures comes raw or as private key information, and in either
form it is about one string of bytes (`Key.secret?`). Re-encoding goes through private key
information and back, and what comes out is a raw key under a standard name with that same string.
-/

namespace SignedHandshake

variable {ω : Type}

/-- The bytes that a private key for Edwards curve signatures is about. -/
def Key.secret? (key : Key) : Option Bytes :=
  match key.format with
  | .raw => some key.encoded
  | .pkcs8 => (Der.PrivateKeyInfo.decode key.encoded).toOption.map (·.privateKey)
  | .spki => none

/-- What a raw key holds. -/
theorem Key.secret?_of_raw {key : Key} (h : key.format = .raw) :
    key.secret? = some key.encoded := by
  rw [secret?, h]

/-- The information that is exported for a key, read back, holds the secret of the key. -/
theorem Key.secret?_of_exportPkcs8 {key : Key} {encoded : Bytes} {found : Der.PrivateKeyInfo}
    (hexport : key.exportPkcs8 = .ok encoded)
    (hdecode : Der.PrivateKeyInfo.decode encoded = .ok found) :
    key.secret? = some found.privateKey := by
  unfold exportPkcs8 at hexport
  cases hformat : key.format with
  | pkcs8 =>
    simp only [hformat] at hexport
    cases hexport
    simp only [secret?, hformat, hdecode, Except.toOption, Option.map_some]
  | spki =>
    simp only [hformat] at hexport
    cases hexport
  | raw =>
    simp only [hformat] at hexport
    split at hexport
    · cases hexport
    · -- the information was written here, so the way back is a round trip
      have hencode := except_mapError_eq_ok_iff.mp hexport
      rw [secret?_of_raw hformat, Der.PrivateKeyInfo.privateKey_of_decode_encode hencode hdecode]

/-- The raw private key of a variant with a seed, under the standard name. -/
def Key.ofSeed (variant : EdVariant) (seed : Bytes) : Key where
  role := .privateKey
  algorithm := variant.name
  format := .raw
  encoded := seed

/-- Each variant has an object identifier of its own. -/
theorem EdVariant.ofIdentifier?_eq_some_iff {identifier : Text} {variant : EdVariant} :
    ofIdentifier? identifier = some variant ↔ identifier = variant.identifier := by
  constructor
  · intro h
    have hsame := List.find?_some h
    exact (beq_iff_eq.mp hsame).symm
  · rintro rfl
    cases variant <;> rfl

/-- A key that a factory builds is raw, under the name of its variant, and holds what the
information holds. It is built exactly if the information is about a variant that the factory is
for, and has a seed for it. -/
theorem EdDsaName.buildPrivate_pkcs8_eq_ok_iff {name : EdDsaName} {encoded : Bytes} {key : Key} :
    name.buildPrivate (.pkcs8 encoded) = .ok key ↔
      ∃ (variant : EdVariant) (seed : Bytes),
        Der.PrivateKeyInfo.decode encoded =
          .ok { algorithm := variant.identifier, privateKey := seed } ∧
        name.covers variant = true ∧ seed.length = variant.keyLength ∧
            key = .ofSeed variant seed := by
  constructor
  · intro h
    obtain ⟨⟨identifier, seed⟩, hdecode, h⟩ := except_bind_eq_ok_iff.mp h
    have hdecode := except_mapError_eq_ok_iff.mp hdecode
    -- the variant is read off the identifier, and then its seed is checked
    cases hvariant : EdVariant.ofIdentifier? identifier with
    | none =>
      simp only [hvariant] at h
      cases h
    | some variant =>
      simp only [hvariant] at h
      obtain ⟨_, hcovers, h⟩ := except_bind_eq_ok_iff.mp h
      obtain ⟨hcovers, -⟩ := except_ite_error_eq_ok_iff.mp hcovers
      obtain ⟨hlength, h⟩ := except_ite_error_eq_ok_iff.mp h
      cases h
      rw [EdVariant.ofIdentifier?_eq_some_iff.mp hvariant] at hdecode
      exact ⟨variant, seed, hdecode, hcovers, hlength, rfl⟩
  · rintro ⟨variant, seed, hdecode, hcovers, hlength, rfl⟩
    refine except_bind_eq_ok_iff.mpr ⟨_, except_mapError_eq_ok_iff.mpr hdecode, ?_⟩
    simp only [EdVariant.ofIdentifier?_eq_some_iff.mpr rfl]
    refine except_bind_eq_ok_iff.mpr ⟨(), except_ite_error_eq_ok_iff.mpr ⟨hcovers, rfl⟩, ?_⟩
    exact except_ite_error_eq_ok_iff.mpr ⟨hlength, rfl⟩

/-- A standard name is spelled like itself. -/
theorem EdDsaName.ofName?_name (name : EdDsaName) : ofName? name.name = some name := by
  rcases name with _ | variant
  · rfl
  · cases variant <;> rfl

/-- There is a factory for every standard name. -/
theorem KeyFactory.create_name (suite : Suite) (name : EdDsaName) :
    (create suite name.name : Except Failure (KeyFactory ω)) = .ok (name.factory suite) := by
  rw [create, EdDsaName.ofName?_name]

/-- What a re-encoder of this library makes of a key. -/
def EdDsaName.rebuild (name : EdDsaName) (key : Key) : Except Failure Key := do
  let encoded ← key.exportPkcs8
  (name.buildPrivate (.pkcs8 encoded)).mapError KeySpecError.toFailure

theorem EdDsaName.rebuild_eq_ok_iff {name : EdDsaName} {key replaced : Key} :
    name.rebuild key = .ok replaced ↔
      ∃ (encoded : Bytes) (variant : EdVariant) (seed : Bytes), key.exportPkcs8 = .ok encoded ∧
        Der.PrivateKeyInfo.decode encoded =
          .ok { algorithm := variant.identifier, privateKey := seed } ∧
        name.covers variant = true ∧ seed.length = variant.keyLength ∧
        replaced = .ofSeed variant seed := by
  constructor
  · intro h
    obtain ⟨encoded, hexport, hbuild⟩ := except_bind_eq_ok_iff.mp h
    obtain ⟨variant, seed, hbuilt⟩ :=
      buildPrivate_pkcs8_eq_ok_iff.mp (except_mapError_eq_ok_iff.mp hbuild)
    exact ⟨encoded, variant, seed, hexport, hbuilt⟩
  · rintro ⟨encoded, variant, seed, hexport, hbuilt⟩
    refine except_bind_eq_ok_iff.mpr ⟨encoded, hexport, except_mapError_eq_ok_iff.mpr ?_⟩
    exact buildPrivate_pkcs8_eq_ok_iff.mpr ⟨variant, seed, hbuilt⟩

/-- A rebuilt key is raw, under the name of a variant, and has the secret of the old one. -/
theorem EdDsaName.rebuild_eq_ok {name : EdDsaName} {key replaced : Key}
    (h : name.rebuild key = .ok replaced) :
    (∃ variant : EdVariant, replaced.algorithm = variant.name) ∧
      key.secret? = some replaced.encoded := by
  obtain ⟨encoded, variant, seed, hexport, hdecode, -, -, rfl⟩ := rebuild_eq_ok_iff.mp h
  exact ⟨⟨variant, rfl⟩, Key.secret?_of_exportPkcs8 hexport hdecode⟩

/-- What the re-encoder that is registered for a key makes of it. -/
theorem ReencoderRegistry.rebuilds_standard (suite : Suite) {key : Key} {name : EdDsaName}
    (hfound : (standard : ReencoderRegistry ω).find? key.algorithm = some (.viaPkcs8 name.name)) :
    (standard : ReencoderRegistry ω).Rebuilds suite key ((name.rebuild key).map some) := by
  have hcreate := KeyFactory.create_name (ω := ω) suite name
  -- the standard re-encoder does with the factory of its name what `rebuild` says
  have hreencode (factory : KeyFactory ω)
      (hfactory : KeyFactory.create suite name.name = .ok factory) :
      (Reencoder.viaPkcs8 name.name).reencode key factory =
          Attempt.ofExcept (name.rebuild key) := by
    rw [hcreate] at hfactory
    cases hfactory
    rw [Reencoder.viaPkcs8_reencode]
    unfold EdDsaName.rebuild
    cases key.exportPkcs8 <;> rfl
  have hrebuilds : (standard : ReencoderRegistry ω).Rebuilds suite key
      ((KeyFactory.create (ω := ω) suite name.name).bind fun _ => (name.rebuild key).map some) :=
    rebuilds_of_reencode hfound (name.rebuild key) hreencode
  rw [hcreate] at hrebuilds
  exact hrebuilds

/-- The re-encoders of this library keep the secret of a key. -/
theorem ReencoderRegistry.exists_rebuilds_standard (suite : Suite) (key : Key) :
    ∃ rebuilt, (standard : ReencoderRegistry ω).Rebuilds suite key rebuilt ∧
      ∀ replaced, rebuilt = .ok (some replaced) →
        (∃ variant : EdVariant, replaced.algorithm = variant.name) ∧
          key.secret? = some replaced.encoded := by
  cases hfound : (standard : ReencoderRegistry ω).find? key.algorithm with
  | none => exact ⟨.ok none, rebuilds_of_none hfound, nofun⟩
  | some reencoder =>
    obtain ⟨name, rfl⟩ := standard_all _ reencoder hfound
    refine ⟨_, rebuilds_standard suite hfound, fun replaced hreplaced => ?_⟩
    obtain ⟨rebuilt, hrebuild, hsame⟩ := except_map_eq_ok_iff.mp hreplaced
    cases hsame
    exact name.rebuild_eq_ok hrebuild

end SignedHandshake
