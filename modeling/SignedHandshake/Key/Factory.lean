import SignedHandshake.Attempt
import SignedHandshake.Der.Basic
import SignedHandshake.Engine.Basic

/-!
# Key factories (specification §10.6)

A key factory turns the specification of a key into a key that an engine can use. The factories here
build keys for Edwards curve signatures. The factory of the family builds both variants and takes
the variant from the object identifier of a private key or the length of a public one; the other two
build their own variant only.

- `EdDsaName.buildPrivate`, `EdDsaName.buildPublic`: the two sorts of keys that the
  factory of a name builds.
- `KeyFactory.create`: the factory with a name, or the refusal of a name that has none.
- `KeySpecError`: why a specification is refused.
-/

namespace SignedHandshake

/-- A key factory in a world with state `ω`. -/
structure KeyFactory (ω : Type) where
  algorithm : Text
  generatePrivate : KeySpec → Attempt ω Key
  generatePublic : KeySpec → Attempt ω Key

/-- A specification that a key factory refuses, or a key that is not exported. -/
inductive KeySpecError where
  | privateKind (algorithm : Text) (kind : String)
  | publicKind (algorithm : Text) (kind : String)
  | malformed (error : Der.Error)
  | unknownIdentifier (identifier : Text)
  | foreignVariant (algorithm : Text) (variant : EdVariant)
  | privateLength (variant : EdVariant) (length : Nat)
  | publicLength (length : Nat)
  | invalidPoint (variant : EdVariant) (reason : Text)
  | notExportable (algorithm : Text) (format : KeyFormat)

namespace KeySpecError

/-- The failure that caused the refusal: what reading the DER or the point ended with. -/
def cause : KeySpecError → Option Failure
  | malformed error => some error.toFailure
  | invalidPoint _ reason => some (.primitive reason)
  | _ => none

/-- The text of the refusal, which names the factory or the variant. -/
def message : KeySpecError → Text
  | privateKind algorithm kind => algorithm ++ s!" private keys need a PKCS#8 spec, got {kind}"
  | publicKind algorithm kind => algorithm ++ s!" public keys need a raw public spec, got {kind}"
  | malformed error => "Malformed PKCS#8 key: " ++ (Thrown.failure error.toFailure).message
  | unknownIdentifier identifier => "OID " ++ identifier ++ " is not an EdDSA algorithm"
  | foreignVariant algorithm variant =>
    algorithm ++ " factory cannot build " ++ variant.name ++ " keys"
  | privateLength variant length =>
    variant.name ++ s!" private key must be {variant.keyLength} bytes, got {length}"
  | publicLength length => s!"No EdDSA variant uses {length} byte public keys"
  | invalidPoint variant reason => "Invalid " ++ variant.name ++ " public key: " ++ reason
  | notExportable algorithm format =>
    "Cannot export " ++ algorithm ++ s!" ({format.name}) key as PKCS#8"

/-- The failure that a key factory ends with: an invalid key specification, with its cause. -/
def toFailure (e : KeySpecError) : Failure :=
  .mk .invalidKeySpec e.message e.cause

end KeySpecError

namespace EdDsaName

/-- Whether the factory with this name builds keys of a variant. -/
def covers (name : EdDsaName) (variant : EdVariant) : Bool :=
  name == .family || name == .only variant

/-- Check that the factory with this name builds keys of a variant. -/
def checkCovers (name : EdDsaName) (variant : EdVariant) : Except KeySpecError Unit :=
  if name.covers variant then .ok () else .error (.foreignVariant name.name variant)

/-- The private key that private key information describes. -/
def buildPrivate (name : EdDsaName) : KeySpec → Except KeySpecError Key
  | .rawPublic encoded => .error (.privateKind name.name (KeySpec.rawPublic encoded).kind)
  | .pkcs8 encoded => do
    let info ← (Der.PrivateKeyInfo.decode encoded).mapError .malformed
    match EdVariant.ofIdentifier? info.algorithm with
    | none => .error (.unknownIdentifier info.algorithm)
    | some variant =>
      name.checkCovers variant
      if info.privateKey.length = variant.keyLength then
        .ok { role := .privateKey, algorithm := variant.name, format := .raw,
              encoded := info.privateKey }
      else .error (.privateLength variant info.privateKey.length)

/-- The public key with an encoded point. -/
def buildPublic (suite : Suite) (name : EdDsaName) : KeySpec → Except KeySpecError Key
  | .pkcs8 encoded => .error (.publicKind name.name (KeySpec.pkcs8 encoded).kind)
  | .rawPublic encoded =>
    match EdVariant.ofKeyLength? encoded.length with
    | none => .error (.publicLength encoded.length)
    | some variant => do
      name.checkCovers variant
      let scheme := suite.overMessage variant
      if scheme.isPoint encoded then
        .ok { role := .publicKey, algorithm := variant.name, format := .raw, encoded }
      else .error (.invalidPoint variant (scheme.refusal encoded))

/-- The key factory with this name. -/
def factory {ω : Type} (suite : Suite) (name : EdDsaName) : KeyFactory ω where
  algorithm := name.name
  generatePrivate spec := .ofExcept ((name.buildPrivate spec).mapError KeySpecError.toFailure)
  generatePublic spec := .ofExcept ((name.buildPublic suite spec).mapError KeySpecError.toFailure)

end EdDsaName

/-- The key factory with this name, or a failure that says there is none. -/
def KeyFactory.create {ω : Type} (suite : Suite) (name : Text) : Except Failure (KeyFactory ω) :=
  match EdDsaName.ofName? name with
  | some name => .ok (name.factory suite)
  | none => .error (.noSuchAlgorithm name)

end SignedHandshake
