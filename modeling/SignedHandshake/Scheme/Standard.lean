import SignedHandshake.Curve.Basic
import SignedHandshake.Der.Basic
import SignedHandshake.Digest.BlockHash
import SignedHandshake.Digest.Sha
import SignedHandshake.Digest.Shake256
import SignedHandshake.Engine.Basic

/-!
# The standard schemes

What the engines run with: the schemes of the standards, each on its own curve.

- `Ecdsa`: signatures over a digest, on a Weierstrass curve.
- `EdDsa`: signatures over a message, on an Edwards curve.
- `Suite.standard`: both of them, for every curve.
-/

namespace SignedHandshake

/-!
## Signatures over a digest

ECDSA on a Weierstrass curve. The nonce of a signature comes from a generator that is keyed with the
private key and the digest, as RFC 6979 lays down, with entropy mixed in. Of the two values that
sign equally well the smaller one is given out; both are accepted. Signatures are written in DER,
and only that one spelling is read.
-/

open Curve Digest

/-- A curve for signatures, the hash function of its nonce generator, and the lengths that a private
key may have. -/
structure Ecdsa where
  curve : Weierstrass
  hash : BlockHash
  keyLengths : List Nat

namespace Ecdsa

/-- The parameters that go with a name. -/
def ofNamedCurve : NamedCurve → Ecdsa
  | .secp256r1 => { curve := Curve.secp256r1, hash := sha256, keyLengths := [32] }
  | .secp384r1 => { curve := Curve.secp384r1, hash := sha384, keyLengths := [48] }
  | .secp521r1 => { curve := Curve.secp521r1, hash := sha512, keyLengths := [65, 66] }
  | .secp256k1 => { curve := Curve.secp256k1, hash := sha256, keyLengths := [32] }

variable (E : Ecdsa)

/-- The scalar of a private key: not zero and below the order. -/
def scalar? (key : Bytes) : Option Nat :=
  let d := Bytes.toNat key
  if key.length ∈ E.keyLengths ∧ 0 < d ∧ d < E.curve.n then some d else none

/-- The leftmost bits of a byte string as a number, as many as the order has. -/
def leftmostBits (bytes : Bytes) : Nat :=
  Bytes.toNat bytes >>> (8 * bytes.length - (E.curve.n.log2 + 1))

/-- A scalar in as many bytes as the order has. -/
def scalarBytes (x : Nat) : Bytes :=
  Bytes.bigEndian ((E.curve.n.log2 + 8) / 8) x

/-! ### Nonces -/

/-- The state of the nonce generator. -/
structure Generator where
  key : Bytes
  value : Bytes

/-- Mix data into the generator, behind a byte that tells the steps apart. -/
def mix (g : Generator) (step : UInt8) (data : Bytes) : Generator :=
  let key := E.hash.hmac g.key (g.value ++ step :: data)
  { key, value := E.hash.hmac key g.value }

/-- A generator for one signature. -/
def generator (seed : Bytes) : Generator :=
  let length := E.hash.digestLength
  let blank : Generator := ⟨List.replicate length 0, List.replicate length 1⟩
  E.mix (E.mix blank 0 seed) 1 seed

/-- At least `count` further bytes, if `fuel` values are enough for them. -/
def draw (g : Generator) (count : Nat) : (fuel : Nat) → Generator × Bytes
  | 0 => (g, [])
  | fuel + 1 =>
    if count = 0 then (g, [])
    else
      let value := E.hash.hmac g.key g.value
      let (g, more) := draw { g with value } (count - value.length) fuel
      (g, value ++ more)

/-- The signature of the number `e` with nonce `k`, unless one of its two parts is zero. -/
def signWith (d e k : Nat) : Option (Nat × Nat) := do
  let (x, _) ← ((Weierstrass.generator E.curve).multiply k).affine?
  let n := E.curve.n
  let r := x.val % n
  let s := (inverse (Fin.ofNat n k) * Fin.ofNat n (e + r * d)).val
  if r = 0 ∨ s = 0 then none else some (r, if s > n / 2 then n - s else s)

/-- Try the nonces of a generator until one gives a signature. -/
def signFrom (d e : Nat) (g : Generator) : (fuel : Nat) → Option (Nat × Nat)
  | 0 => none
  | fuel + 1 =>
    let width := (E.scalarBytes 0).length
    let (g, bytes) := E.draw g width width
    let k := E.leftmostBits bytes
    let found := if 0 < k ∧ k < E.curve.n then E.signWith d e k else none
    match found with
    | some signature => some signature
    | none => signFrom d e (E.mix g 0 []) fuel

/-! ### Signatures as bytes -/

/-- A positive number as the content of a DER integer: the fewest bytes, with the top bit clear. -/
def integerBytes (x : Nat) : Bytes :=
  Bytes.bigEndian ((x.log2 + 1) / 8 + 1) x

/-- A signature in DER. -/
def encodeSignature (r s : Nat) : Bytes :=
  let integer x := Der.encode Der.integerTag (integerBytes x)
  Der.encode Der.sequenceTag (integer r ++ integer s)

/-- The signature that bytes stand for, if they are its DER form and both parts are in range. -/
def decodeSignature? (bytes : Bytes) : Option (Nat × Nat) := do
  let outer ← (Der.read bytes 0).toOption
  let first ← (Der.read outer.content 0).toOption
  let second ← (Der.read outer.content first.stop).toOption
  let r := Bytes.toNat first.content
  let s := Bytes.toNat second.content
  let inRange x := 0 < x && x < E.curve.n
  if inRange r && inRange s && encodeSignature r s == bytes then some (r, s) else none

/-! ### The scheme -/

/-- How many nonces are tried. A nonce fails with a probability below 2^-32. -/
def attempts : Nat := 100

/-- Sign a digest. -/
def sign (digest key entropy : Bytes) : Option Bytes := do
  let d ← E.scalar? key
  let e := E.leftmostBits digest % E.curve.n
  let g := E.generator (E.scalarBytes d ++ E.scalarBytes e ++ entropy)
  let (r, s) ← E.signFrom d e g attempts
  return encodeSignature r s

/-- Check a signature over a digest. -/
def verify (signature digest key : Bytes) : Bool :=
  match E.decodeSignature? signature, E.curve.decodePoint? key with
  | some (r, s), some Q =>
    let n := E.curve.n
    let w := inverse (Fin.ofNat n s)
    let u := (Fin.ofNat n (E.leftmostBits digest) * w).val
    let v := (Fin.ofNat n r * w).val
    match (((Weierstrass.generator E.curve).multiply u).add (Q.multiply v)).affine? with
    | some (x, _) => x.val % n == r
    | none => false
  | _, _ => false

/-- The public key of a scalar, with both coordinates. -/
def publicKey (key : Bytes) : Bytes :=
  let d := Bytes.toNat key
  (((Weierstrass.generator E.curve).multiply d).encode?).getD []

/-- The scheme on this curve. A new key takes half as many bytes again as a scalar has, so that
reducing them favours no scalar. One text stands for all that is said about refused bytes. -/
def scheme : DigestScheme where
  isPrivateKey key := (E.scalar? key).isSome
  isPublicKey key := (E.curve.decodePoint? key).isSome
  publicKey := E.publicKey
  seedLength := (E.scalarBytes 0).length * 3 / 2
  privateKey seed := E.scalarBytes (Bytes.toNat seed % (E.curve.n - 1) + 1)
  sign := E.sign
  isSignature signature := (E.decodeSignature? signature).isSome
  verify := E.verify
  refusal _ := "<library>"

end Ecdsa

end SignedHandshake

/-!
## Signatures over a message

EdDSA as RFC 8032 lays it down: deterministic, with an empty context. Points have to be in canonical
form. The equation is checked after multiplying by the cofactor, so components of small order make
no difference.
-/

namespace SignedHandshake

open Curve Digest

/-- A curve for signatures and the hash function that goes with it, which gives twice as many bytes
as a point has. -/
structure EdDsa where
  curve : Edwards
  hash : Bytes → Bytes

namespace EdDsa

/-- What Ed448 puts in front of everything it hashes, other than seeds: a name, a flag that the
message is not hashed already, and the length of the empty context. -/
def domain448 : Bytes :=
  "SigEd448".toUTF8.toList ++ [0, 0]

variable (E : EdDsa) (domain : Bytes)

/-- The scalar in the first half of a hashed seed. The cofactor divides it, and its highest bit is
always set. -/
def clamp (half : Bytes) : Nat :=
  let bits := E.curve.p.log2
  let top := 1 <<< bits
  let low := Bytes.toNatLittle half % top
  top + (low - low % (1 <<< E.curve.cofactorBits))

/-- The scalar of a seed, and the secret that nonces are made with. -/
def expand (seed : Bytes) : Nat × Bytes :=
  let hashed := E.hash seed
  (E.clamp (hashed.take E.curve.width), hashed.drop E.curve.width)

/-- A hash as a number modulo the order. -/
def hashScalar (data : Bytes) : Nat :=
  Bytes.toNatLittle (E.hash (domain ++ data)) % E.curve.n

/-- The public key of a seed. -/
def publicKey (seed : Bytes) : Bytes :=
  ((Edwards.generator E.curve).multiply (E.expand seed).1).encode

/-- Sign a message. -/
def sign (message seed : Bytes) : Bytes :=
  let (s, secret) := E.expand seed
  let r := E.hashScalar domain (secret ++ message)
  let R := ((Edwards.generator E.curve).multiply r).encode
  let k := E.hashScalar domain (R ++ E.publicKey seed ++ message)
  R ++ Bytes.littleEndian E.curve.width ((r + k * s) % E.curve.n)

/-- Check a signature over a message. -/
def verify (signature message key : Bytes) : Bool :=
  let first := signature.take E.curve.width
  let S := Bytes.toNatLittle (signature.drop E.curve.width)
  match E.curve.decodePoint? key, E.curve.decodePoint? first with
  | some A, some R =>
    let k := E.hashScalar domain (first ++ key ++ message)
    let difference :=
      (((Edwards.generator E.curve).multiply S).add R.neg).add (A.multiply k).neg
    decide (S < E.curve.n) && !A.isSmallOrder && difference.clearCofactor.isZero
  | _, _ => false

/-- The scheme on this curve. One text stands for all that is said about refused bytes. -/
def scheme : MessageScheme where
  isPoint bytes := (E.curve.decodePoint? bytes).isSome
  isSmallOrder bytes := (E.curve.decodePoint? bytes).any (·.isSmallOrder)
  publicKey := E.publicKey
  sign message key := some (E.sign domain message key)
  verify := E.verify domain
  refusal _ := "<library>"

/-- Ed25519. -/
def ed25519 : MessageScheme :=
  scheme { curve := edwards25519, hash := sha512.digest } []

/-- Ed448. -/
def ed448 : MessageScheme :=
  scheme { curve := edwards448, hash := shake256 114 } domain448

end EdDsa

end SignedHandshake

/-! ## For every curve -/

namespace SignedHandshake

/-- ECDSA and EdDSA on their curves. -/
def Suite.standard : Suite where
  overDigest curve := (Ecdsa.ofNamedCurve curve).scheme
  overMessage
    | .ed25519 => EdDsa.ed25519
    | .ed448 => EdDsa.ed448

end SignedHandshake
