import SignedHandshake.Bytes.Basic
import SignedHandshake.Digest.Sha
import SignedHandshake.Engine.Standard
import SignedHandshake.Failure
import SignedHandshake.Key.Basic

/-!
# Algorithm pairs (specification §3, §10.5)

A signature travels with two codes, one for the hash function and one for the signature
algorithm, with the code points of RFC 5246, section 7.4.1.4.1, and RFC 8422. Every pair of
bytes can be carried; some pairs have the name of an engine, among them pairs whose engine
this library does not have.

- `AlgorithmPair.engineName?`: the engine that a pair resolves to.
- `AlgorithmPair.ofName?`: the pair that a name such as `SHA256withECDSA` stands for.
- `AlgorithmPair.supports`: whether the family of a key goes with a pair.
-/

namespace SignedHandshake

/-- The code of a hash function and the code of a signature algorithm. -/
structure AlgorithmPair where
  hash : UInt8
  signature : UInt8
  deriving DecidableEq, Repr

/-- The codes of hash functions. -/
def HashName.code : HashName → UInt8
  | .sha1 => 2
  | .sha224 => 3
  | .sha256 => 4
  | .sha384 => 5
  | .sha512 => 6

/-- The signature algorithms that take a hash function of their own. -/
inductive DigestSignature where
  | ecdsa
  | rsa
  deriving DecidableEq, Repr

namespace DigestSignature

/-- Both of them. -/
def all : List DigestSignature := [.ecdsa, .rsa]

/-- The name as it appears in the names of algorithms. -/
def name : DigestSignature → Text
  | .ecdsa => "ECDSA"
  | .rsa => "RSA"

/-- The code. -/
def code : DigestSignature → UInt8
  | .ecdsa => 3
  | .rsa => 1

end DigestSignature

/-- The codes of the signature algorithms that hash on their own. -/
def EdVariant.code : EdVariant → UInt8
  | .ed25519 => 7
  | .ed448 => 8

namespace AlgorithmPair

/-- The hash code of signature algorithms that hash on their own. -/
def intrinsic : UInt8 := 8

/-- The pair of a variant of Edwards curve signatures. -/
def ofVariant (variant : EdVariant) : AlgorithmPair :=
  ⟨intrinsic, variant.code⟩

/-- The pair of a hash function and a signature algorithm. -/
def ofDigest (hash : HashName) (signature : DigestSignature) : AlgorithmPair :=
  ⟨hash.code, signature.code⟩

/-- A code that was written as a number. -/
def code? (n : Number) : Option UInt8 :=
  (n.nat?.filter (· ≤ 0xFF)).map UInt8.ofNat

/-- The pair of two codes that were written as numbers. -/
def ofNumbers (hash signature : Number) : Except RangeError AlgorithmPair :=
  match code? hash with
  | none => .error (.code hash)
  | some h =>
    match code? signature with
    | none => .error (.code signature)
    | some s => .ok ⟨h, s⟩

/-- The name of the engine for a pair, if it has one. -/
def engineName? (pair : AlgorithmPair) : Option Text :=
  if pair.hash = intrinsic then
    (EdVariant.all.find? (·.code == pair.signature)).map EdVariant.name
  else do
    let hash ← HashName.all.find? (·.code == pair.hash)
    let signature ← DigestSignature.all.find? (·.code == pair.signature)
    return hash.name ++ "with" ++ signature.name

/-- A code as text. -/
def codeText (code : UInt8) : String :=
  "0x" ++ Hex.encode [code]

/-- A pair as text: the name of its engine, or its codes. -/
def text (pair : AlgorithmPair) : Text :=
  pair.engineName?.getD (codeText pair.hash ++ "/" ++ codeText pair.signature)

/-- Whether a public key is of the family that a pair signs with. -/
def supports (pair : AlgorithmPair) (key : Key) : Bool :=
  pair.engineName?.isSome &&
    if pair.signature = DigestSignature.ecdsa.code then EcdsaEngine.isFamily key.algorithm
    else match EdVariant.all.find? (·.code == pair.signature) with
      | some variant => EdDsaName.ofAlgorithm? key.algorithm == some (.only variant)
      | none => false

/-! ## Names -/

/-- Whether a character may appear in the name of a hash function or signature algorithm. -/
def isNameChar (c : Char) : Bool :=
  c.isAlphanum || c == '_'

/-- What follows the word `with`, in any case of letters, at the front of a name. -/
def afterWith? : List Char → Option (List Char)
  | a :: b :: c :: d :: rest =>
    if [a, b, c, d].map Char.toLower = "with".toList then some rest else none
  | _ => none

/-- The two parts around the last `with` that has something in front of it and behind it. -/
def splitAtWith? : (before : List Char) → (rest : List Char) → Option (List Char × List Char)
  | _, [] => none
  | before, c :: rest =>
    match splitAtWith? (c :: before) rest with
    | some parts => some parts
    | none =>
      match afterWith? (c :: rest) with
      | some (next :: more) => if before.isEmpty then none else some (before.reverse, next :: more)
      | _ => none

/-- A part of a name in capital letters. -/
def capitals (cs : List Char) : Text :=
  .ofChars (cs.map Char.toUpper)

/-- The pair with a name of the form hash function, `with`, signature algorithm. -/
def ofDigestName? (name : List Char) : Option AlgorithmPair := do
  if ¬ name.all isNameChar then none
  else
    let (first, second) ← splitAtWith? [] name
    let hash ← HashName.all.find? (·.name == capitals first)
    let signature ← DigestSignature.all.find? (·.name == capitals second)
    return ofDigest hash signature

/-- The pair with a name. Blanks around the name and the case of its letters do not matter. -/
def ofName? (name : Text) : Option AlgorithmPair :=
  match EdDsaName.ofAlgorithm? name with
  | some (.only variant) => some (ofVariant variant)
  | _ => ofDigestName? name.trim.chars

/-- The pairs that are offered unless something else is said, in order of preference. -/
def preferred : List AlgorithmPair :=
  EdVariant.all.map ofVariant ++ [.sha256, .sha384, .sha512].map (ofDigest · .ecdsa)

end AlgorithmPair

end SignedHandshake
