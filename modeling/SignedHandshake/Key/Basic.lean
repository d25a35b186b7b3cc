import SignedHandshake.Bytes.Basic
import SignedHandshake.Text.Basic
import SignedHandshake.Text.Case

/-!
# Keys and their names (specification §10.6)

- `Key`: a key as the certificate layer hands it over.
- `KeySpec`: what a key factory builds a key from.
- `EdVariant`: the two variants of Edwards curve signatures, with their identifiers from RFC 8410.
- `EdDsaName.ofAlgorithm?`: what the name of a key's algorithm says about the variant.
-/

namespace SignedHandshake

/-!
## Keys

A key as the certificate layer hands it over: which half of a pair it is, the name its algorithm
travels under, and encoded bytes that nobody has looked at yet. Engines and key factories decide
what they make of it.
-/

/-- Which half of a key pair a key is. -/
inductive KeyRole where
  | privateKey
  | publicKey
  deriving DecidableEq, Repr

/-- The word for a role. -/
def KeyRole.name : KeyRole → String
  | .privateKey => "private"
  | .publicKey => "public"

/-- How the bytes of a key are laid out. -/
inductive KeyFormat where
  /-- A scalar, a seed or a point. -/
  | raw
  /-- Private key information in DER. -/
  | pkcs8
  /-- Subject public key information in DER. -/
  | spki
  deriving DecidableEq, Repr

/-- The word for a format. -/
def KeyFormat.name : KeyFormat → String
  | .raw => "raw"
  | .pkcs8 => "pkcs8"
  | .spki => "spki"

/-- The curves that signatures over a digest may use. -/
inductive NamedCurve where
  | secp256r1
  | secp384r1
  | secp521r1
  | secp256k1
  deriving DecidableEq, Repr

/-- The name of a curve. -/
def NamedCurve.name : NamedCurve → String
  | .secp256r1 => "secp256r1"
  | .secp384r1 => "secp384r1"
  | .secp521r1 => "secp521r1"
  | .secp256k1 => "secp256k1"

/-- A key. -/
structure Key where
  role : KeyRole
  /-- The name the algorithm travels under. -/
  algorithm : Text
  format : KeyFormat
  encoded : Bytes
  /-- The curve, for keys whose algorithm does not name it. -/
  curve : Option NamedCurve := none
  deriving DecidableEq

/-- What a key factory builds a key from. -/
inductive KeySpec where
  /-- Private key information in DER. -/
  | pkcs8 (encoded : Bytes)
  /-- An encoded point. -/
  | rawPublic (encoded : Bytes)
  deriving DecidableEq

namespace KeySpec

/-- The bytes of a specification. -/
def encoded : KeySpec → Bytes
  | .pkcs8 encoded => encoded
  | .rawPublic encoded => encoded

/-- The word for the kind of a specification. -/
def kind : KeySpec → String
  | .pkcs8 _ => "pkcs8"
  | .rawPublic _ => "raw-public"

end KeySpec

/-!
## The names of Edwards curve signatures

Keys for these signatures travel under many names: the name of the family, the name of one of its
two variants, or the variant's object identifier, bare or behind `OID.`. Blanks around a name and
the case of its letters do not matter.
-/

/-- The two variants of Edwards curve signatures. -/
inductive EdVariant where
  | ed25519
  | ed448
  deriving DecidableEq, Repr

namespace EdVariant

/-- Both variants. -/
def all : List EdVariant := [.ed25519, .ed448]

/-- The standard name. -/
def name : EdVariant → Text
  | .ed25519 => "Ed25519"
  | .ed448 => "Ed448"

/-- The object identifier. -/
def identifier : EdVariant → Text
  | .ed25519 => "1.3.101.112"
  | .ed448 => "1.3.101.113"

/-- The number of bytes of a seed and of an encoded point. -/
def keyLength : EdVariant → Nat
  | .ed25519 => 32
  | .ed448 => 57

/-- The number of bytes of a signature. -/
def signatureLength : EdVariant → Nat
  | .ed25519 => 64
  | .ed448 => 114

/-- The variant with a standard name. -/
def ofName? (name : Text) : Option EdVariant :=
  all.find? (·.name == name)

/-- The variant with an object identifier. -/
def ofIdentifier? (identifier : Text) : Option EdVariant :=
  all.find? (·.identifier == identifier)

/-- The variant whose keys have `length` bytes. -/
def ofKeyLength? (length : Nat) : Option EdVariant :=
  all.find? (·.keyLength == length)

end EdVariant

/-- What a name says about the variant. -/
inductive EdDsaName where
  /-- The name of the family. -/
  | family
  /-- The name of one variant. -/
  | only (variant : EdVariant)
  deriving DecidableEq, Repr

namespace EdDsaName

/-- The standard name. -/
def name : EdDsaName → Text
  | .family => "EdDSA"
  | .only variant => variant.name

/-- All three names. -/
def all : List EdDsaName := [.family, .only .ed25519, .only .ed448]

/-- The name that is spelled exactly like this. -/
def ofName? (name : Text) : Option EdDsaName :=
  all.find? (·.name == name)

/-- Whether a variant goes by a name that is already trimmed: by its own name or behind the word
`OID.` in any case of letters, or by its bare identifier. -/
def namesVariant (trimmed : Text) (variant : EdVariant) : Bool :=
  trimmed.lower == variant.name.lower || trimmed == variant.identifier ||
    trimmed.lower == "oid." ++ variant.identifier

/-- What the name of a key's algorithm says, if it names these signatures at all. -/
def ofAlgorithm? (algorithm : Text) : Option EdDsaName :=
  let trimmed := algorithm.trim
  if trimmed.lower == family.name.lower then some .family
  else (EdVariant.all.find? (namesVariant trimmed)).map .only

end EdDsaName

end SignedHandshake
