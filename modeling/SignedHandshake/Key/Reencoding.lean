import SignedHandshake.Key.Pair
import SignedHandshake.NameMap

/-!
# Re-encoding private keys (specification §4.2, step 3, and §9)

Certificate stacks hand over keys under names and in forms that an engine refuses although the
algorithm is the right one. A re-encoder rebuilds such a key through the key factory of a
standard name. Which re-encoder is used depends on the name of the key's algorithm; blanks
around the name and the case of its letters do not matter, and of several registrations under
one name the last counts.

- `ReencoderRegistry.register`, `ReencoderRegistry.find?`: the re-encoder for a name.
- `ReencoderRegistry.reencode`: what is made of a key, if there is a re-encoder for its algorithm.
- `ReencoderRegistry.standard`: the re-encoders for the known names of Edwards curve signatures.
-/

namespace SignedHandshake

/-- A way to rebuild a private key. -/
structure Reencoder (ω : Type) where
  /-- The name of the key factory that does it. -/
  standardName : Text
  reencode : Key → KeyFactory ω → Attempt ω Key

/-- Rebuild a key from its private key information. -/
def Reencoder.viaPkcs8 {ω : Type} (standardName : Text) : Reencoder ω where
  standardName
  reencode key factory := fun world =>
    match key.exportPkcs8 with
    | .ok encoded => factory.generatePrivate (.pkcs8 encoded) world
    | .error e => .error e world

/-- Re-encoders by the normal form of a name. -/
structure ReencoderRegistry (ω : Type) where
  entries : NameMap (Reencoder ω) := {}

namespace ReencoderRegistry

variable {ω : Type}

/-- What two spellings of one name have in common. -/
def normalForm (name : Text) : Text :=
  name.trim.lower

/-- Use a re-encoder for a name from now on. -/
def register (registry : ReencoderRegistry ω) (name : Text) (reencoder : Reencoder ω) :
    ReencoderRegistry ω :=
  { entries := registry.entries.insert (normalForm name) reencoder }

/-- The re-encoder for a name. -/
def find? (registry : ReencoderRegistry ω) (name : Text) : Option (Reencoder ω) :=
  registry.entries.find? (normalForm name)

/-- Rebuild a key with the re-encoder for its algorithm, if there is one. Its factory comes from
`factories`, which keeps it. -/
def reencode (registry : ReencoderRegistry ω) (make : Text → Attempt ω (KeyFactory ω)) (key : Key) :
    Attempt (NameMap (KeyFactory ω) × ω) (Option Key) :=
  fun (factories, world) =>
    match registry.find? key.algorithm with
    | none => .ok none (factories, world)
    | some reencoder =>
      match NameMap.obtain make reencoder.standardName (factories, world) with
      | .error e state => .error e state
      | .ok factory (factories, world) =>
        match reencoder.reencode key factory world with
        | .ok key world => .ok (some key) (factories, world)
        | .error e world => .error e (factories, world)

/-- The names that keys for Edwards curve signatures are known to travel under. -/
def knownNames : List Text :=
  let identifiers := EdVariant.all.map EdVariant.identifier
  EdDsaName.all.map EdDsaName.name ++ identifiers ++
    identifiers.map fun (identifier : Text) => "OID." ++ identifier

/-- Re-encoders for all known names, each through the factory of the standard name it stands for. -/
def standard : ReencoderRegistry ω :=
  knownNames.foldl
    (fun registry name =>
      match EdDsaName.ofAlgorithm? name with
      | some standard => registry.register name (.viaPkcs8 standard.name)
      | none => registry)
    {}

end ReencoderRegistry

end SignedHandshake
