import SignedHandshake.Engine.Basic
import SignedHandshake.Key.Factory

/-!
# Key pairs (specification §10.6)

New pairs, and the form in which their private keys are given out.

- `KeyPair.onCurve`, `KeyPair.ofVariant`: a new pair, made from the random bytes of a source.
- `Key.exportPkcs8`: a private key as private key information.
-/

namespace SignedHandshake

/-!
## New pairs

Both keys of a new pair are raw. The public key on a named curve has both coordinates written out.
-/

/-- A private key and the public key that belongs to it. -/
structure KeyPair where
  privateKey : Key
  publicKey : Key

namespace KeyPair

variable {ω : Type} (suite : Suite) (random : RandomSource ω)

/-- A new pair on a named curve. -/
def onCurve (curve : NamedCurve) : Attempt ω KeyPair := do
  let scheme := suite.overDigest curve
  let secret := scheme.privateKey (← random.nextBytes scheme.seedLength)
  return {
    privateKey :=
      { role := .privateKey, algorithm := "EC", format := .raw, encoded := secret,
        curve := some curve }
    publicKey :=
      { role := .publicKey, algorithm := "EC", format := .raw, encoded := scheme.publicKey secret,
        curve := some curve } }

/-- A new pair for a variant of Edwards curve signatures. -/
def ofVariant (variant : EdVariant) : Attempt ω KeyPair := do
  let seed ← random.nextBytes variant.keyLength
  return {
    privateKey :=
      { role := .privateKey, algorithm := variant.name, format := .raw, encoded := seed }
    publicKey :=
      { role := .publicKey, algorithm := variant.name, format := .raw,
        encoded := (suite.overMessage variant).publicKey seed } }

end KeyPair

end SignedHandshake

/-!
## Exporting private keys

A private key for Edwards curve signatures as private key information. A key that has this form
already is given out as it is. The variant of a raw key comes from its name or, if the name is that
of the family, from its length.
-/

namespace SignedHandshake.Key

/-- The variant of a raw key with this name. -/
def variantOf? (name : EdDsaName) (length : Nat) : Option EdVariant :=
  match name with
  | .only variant => some variant
  | .family => EdVariant.ofKeyLength? length

/-- A private key as private key information. -/
def exportPkcs8 (key : Key) : Except Failure Bytes :=
  let refused := Except.error (KeySpecError.notExportable key.algorithm key.format).toFailure
  match key.format with
  | .pkcs8 => .ok key.encoded
  | .spki => refused
  | .raw =>
    match (EdDsaName.ofAlgorithm? key.algorithm).bind (variantOf? · key.encoded.length) with
    | none => refused
    | some variant =>
      let info : Der.PrivateKeyInfo :=
        { algorithm := variant.identifier, privateKey := key.encoded }
      info.encode.mapError Der.Error.toFailure

end SignedHandshake.Key
